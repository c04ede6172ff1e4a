/-
  Tokens in writing.

  A number is written as a literal: digits, a fraction and an exponent.  Every
  literal is read as some number, and scanned as a whole.  Other tokens are
  written as they are spelled.

  * `IsNumeral`: the texts of number literals;
  * `Binary64.ofText?_decimal`: the number that a literal is read as;
  * `length_le_numberLength`: no literal at the beginning of a text is longer than what
    is scanned of it;
  * `numberLength_eq`: a literal is scanned as a whole;
  * `isNumeral_take`: nothing but a literal is scanned as a number;
  * `Token.Written`, `Lexeme.tokens_written`: tokens that are written with spaces
    between them are scanned back.
-/
import Requisite.Proofs.Spelling

namespace Requisite

/-! ## Literals -/

/-- One digit or more. -/
def IsDigits (ds : List Char) : Prop := ds ≠ [] ∧ ∀ d ∈ ds, d.isDigit

instance (ds : List Char) : Decidable (IsDigits ds) :=
  decidable_of_iff (ds ≠ [] ∧ ds.all Char.isDigit) (and_congr_right' List.all_eq_true)

/-- A point and digits, or nothing. -/
inductive IsFraction : List Char → Prop
  | none : IsFraction []
  | point {ds : List Char} : IsDigits ds → IsFraction ('.' :: ds)

/-- `e` or `E`, at most one sign, and digits; or nothing. -/
inductive IsExponent : List Char → Prop
  | none : IsExponent []
  | digits {mark : Char} {sign ds : List Char} : mark = 'e' ∨ mark = 'E' →
    sign ∈ [[], ['+'], ['-']] → IsDigits ds → IsExponent (mark :: (sign ++ ds))

/-- The text of a number: `digits[.digits][e[+-]digits]` or `.digits[e[+-]digits]`. -/
inductive IsNumeral : List Char → Prop
  | whole {ds fraction exponent : List Char} : IsDigits ds → IsFraction fraction →
    IsExponent exponent → IsNumeral (ds ++ (fraction ++ exponent))
  | point {ds exponent : List Char} : IsDigits ds → IsExponent exponent →
    IsNumeral ('.' :: (ds ++ exponent))

/-- Digits, a fraction and an exponent, with a digit on at least one side of the point. -/
theorem IsNumeral.parts {cs : List Char} (h : IsNumeral cs) :
    ∃ whole fraction exponent : List Char, cs = whole ++ (fraction ++ exponent) ∧
      (∀ d ∈ whole, d.isDigit) ∧ IsFraction fraction ∧ IsExponent exponent ∧
      (whole ≠ [] ∨ fraction ≠ []) := by
  cases h with
  | @whole ds fraction exponent hds hf he =>
    exact ⟨ds, fraction, exponent, rfl, hds.2, hf, he, .inl hds.1⟩
  | @point ds exponent hds he =>
    exact ⟨[], '.' :: ds, exponent, rfl, nofun, .point hds, he, .inr (List.cons_ne_nil _ _)⟩

/-! ## Characters of literals -/

/-- Digits do not begin with a sign. -/
theorem IsDigits.exists_cons {ds : List Char} (h : IsDigits ds) :
    ∃ d rest, ds = d :: rest ∧ d ≠ '+' ∧ d ≠ '-' := by
  obtain ⟨d, rest, rfl⟩ := List.exists_cons_of_ne_nil h.1
  have hd := h.2 d List.mem_cons_self
  exact ⟨d, rest, rfl, fun h => absurd (h ▸ hd) (by decide), fun h => absurd (h ▸ hd) (by decide)⟩

theorem IsNumeral.mem {cs : List Char} (h : IsNumeral cs) {c : Char} (hc : c ∈ cs) :
    c.isDigit ∨ c ∈ ['.', 'e', 'E', '+', '-'] := by
  obtain ⟨whole, fraction, exponent, rfl, hw, hf, he, -⟩ := h.parts
  rcases List.mem_append.1 hc with hc | hc
  · exact .inl (hw c hc)
  rcases List.mem_append.1 hc with hc | hc
  · cases hf with
    | none => cases hc
    | point hds =>
      rcases List.mem_cons.1 hc with rfl | hc
      · exact .inr (by decide)
      · exact .inl (hds.2 c hc)
  · cases he with
    | none => cases hc
    | digits hmark hsign hds =>
      rcases List.mem_cons.1 hc with rfl | hc
      · rcases hmark with rfl | rfl <;> exact .inr (by decide)
      rcases List.mem_append.1 hc with hc | hc
      · simp only [List.mem_cons, List.not_mem_nil, or_false] at hsign
        rcases hsign with rfl | rfl | rfl <;> simp_all
      · exact .inl (hds.2 c hc)

/-- The last character is a digit. -/
def EndsInDigit (cs : List Char) : Prop := ∃ ds d, cs = ds ++ [d] ∧ d.isDigit

theorem EndsInDigit.after {cs : List Char} (h : EndsInDigit cs) (before : List Char) :
    EndsInDigit (before ++ cs) := by
  obtain ⟨ds, d, rfl, hd⟩ := h
  exact ⟨before ++ ds, d, (List.append_assoc ..).symm, hd⟩

theorem IsDigits.endsInDigit {ds : List Char} (h : IsDigits ds) : EndsInDigit ds :=
  ⟨ds.dropLast, ds.getLast h.1, (List.dropLast_append_getLast h.1).symm,
    h.2 _ (List.getLast_mem h.1)⟩

theorem IsNumeral.endsInDigit {cs : List Char} (h : IsNumeral cs) : EndsInDigit cs := by
  have hexponent {before exponent : List Char} (hb : EndsInDigit before)
      (he : IsExponent exponent) : EndsInDigit (before ++ exponent) := by
    cases he with
    | none => rwa [List.append_nil]
    | @digits mark sign ds _ _ hds =>
      rw [← List.cons_append, ← List.append_assoc]
      exact hds.endsInDigit.after _
  cases h with
  | whole hds hf he =>
    rw [← List.append_assoc]
    refine hexponent ?_ he
    cases hf with
    | none =>
      rw [List.append_nil]
      exact hds.endsInDigit
    | point hfraction => exact (hfraction.endsInDigit.after ['.']).after _
  | point hds he => exact hexponent (hds.endsInDigit.after ['.']) he

/-! ## Runs of digits -/

section
variable {p : Char → Bool} {ds rest : List Char}

theorem takeWhile_append_stop (hds : ∀ d ∈ ds, p d) (hrest : rest.takeWhile p = []) :
    (ds ++ rest).takeWhile p = ds := by
  rw [List.takeWhile_append_of_pos hds, hrest, List.append_nil]

theorem dropWhile_append_stop (hds : ∀ d ∈ ds, p d) (hrest : rest.takeWhile p = []) :
    (ds ++ rest).dropWhile p = rest := by
  have h := List.takeWhile_append_dropWhile (p := p) (l := ds ++ rest)
  rw [takeWhile_append_stop hds hrest] at h
  exact List.append_cancel_left h

/-- A run that ends at once does so whatever else comes after. -/
theorem takeWhile_append_of_ne_nil (hne : rest ≠ []) (h : rest.takeWhile p = [])
    (more : List Char) : (rest ++ more).takeWhile p = [] := by
  obtain ⟨c, rest, rfl⟩ := List.exists_cons_of_ne_nil hne
  have hc : p c = false := by
    refine Bool.eq_false_iff.2 fun hc => ?_
    rw [List.takeWhile_cons_of_pos hc] at h
    exact List.cons_ne_nil _ _ h
  rw [List.cons_append, List.takeWhile_cons_of_neg (Bool.eq_false_iff.1 hc)]

end

section
variable {fraction exponent : List Char}

theorem IsExponent.takeWhile_eq (he : IsExponent exponent) :
    exponent.takeWhile Char.isDigit = [] := by
  cases he with
  | none => rfl
  | digits hmark => rcases hmark with rfl | rfl <;> rfl

theorem IsFraction.takeWhile_append (hf : IsFraction fraction) (he : IsExponent exponent) :
    (fraction ++ exponent).takeWhile Char.isDigit = [] := by
  cases hf with
  | none => exact he.takeWhile_eq
  | point => rfl

end

/-! ## The value of a literal -/

namespace Binary64

section
variable {whole fraction exponent : List Char}

/-- Every exponent is read as some number. -/
theorem exists_exponentOf? (he : IsExponent exponent) : ∃ e, exponentOf? exponent = some e := by
  cases he with
  | none => exact ⟨0, rfl⟩
  | @digits mark sign ds hmark hsign hds =>
    have hdigits : ds ≠ [] ∧ ds.all Char.isDigit := ⟨hds.1, List.all_eq_true.2 hds.2⟩
    simp only [List.mem_cons, List.not_mem_nil, or_false] at hsign
    rcases hsign with rfl | rfl | rfl
    · -- without a sign, the first digit comes next
      obtain ⟨d, ds, rfl, hplus, hminus⟩ := hds.exists_cons
      simp [exponentOf?, hmark, hplus, hminus, hdigits]
    · simp [exponentOf?, hmark, hdigits]
    · simp [exponentOf?, hmark, hdigits]

variable (hw : ∀ d ∈ whole, d.isDigit) (hf : IsFraction fraction) (he : IsExponent exponent)
  (hdigit : whole ≠ [] ∨ fraction ≠ [])
include hw hf he hdigit

theorem unsignedOf?_decimal (negative : Bool) :
    unsignedOf? negative (whole ++ (fraction ++ exponent)) =
      (exponentOf? exponent).map fun e =>
        ofDecimal negative (ofDecimalDigits (whole ++ fraction.tail)) (e - fraction.tail.length) := by
  have hstop := hf.takeWhile_append he
  simp only [unsignedOf?, takeWhile_append_stop hw hstop, dropWhile_append_stop hw hstop]
  cases hf with
  | none =>
    have hne : whole ≠ [] := hdigit.resolve_right fun h => h rfl
    cases he with
    | none => simp [hne]
    | digits hmark => rcases hmark with rfl | rfl <;> simp [hne]
  | @point ds hds =>
    simp [takeWhile_append_stop hds.2 he.takeWhile_eq, dropWhile_append_stop hds.2 he.takeWhile_eq,
      hds.1]

end

/-- Neither an infinity nor a NaN begins with a digit or a point. -/
theorem wordOf?_of_digitOrPoint (negative : Bool) {c : Char} (h : c.isDigit ∨ c = '.')
    (rest : List Char) : wordOf? negative (c :: rest) = none := by
  have hletters : (c.toLower == 'i' || c.toLower == 'n') = false := by
    rcases h with h | rfl
    · refine Bool.eq_false_iff.2 fun hc => ?_
      have hdigit : c.isDigit = false :=
        Source.eq_false_of_codes (p := fun c => c.toLower == 'i' || c.toLower == 'n')
          Source.toNat_mem_of_isDigit (by decide +kernel) hc
      exact Bool.false_ne_true (hdigit.symm.trans h)
    · decide
  rw [Bool.or_eq_false_iff, beq_eq_false_iff_ne, beq_eq_false_iff_ne] at hletters
  simp [wordOf?, hletters]

/-- **The value of a literal.**  It is the number nearest to the decimal of its digits. -/
theorem ofText?_decimal {whole fraction exponent : List Char} (hw : ∀ d ∈ whole, d.isDigit)
    (hf : IsFraction fraction) (he : IsExponent exponent) (hdigit : whole ≠ [] ∨ fraction ≠ []) :
    ofText? (whole ++ (fraction ++ exponent)) =
      (exponentOf? exponent).map fun e =>
        ofDecimal false (ofDecimalDigits (whole ++ fraction.tail)) (e - fraction.tail.length) := by
  rw [← unsignedOf?_decimal hw hf he hdigit]
  obtain ⟨c, rest, hcons, hc⟩ : ∃ c rest, whole ++ (fraction ++ exponent) = c :: rest ∧
      (c.isDigit ∨ c = '.') := by
    cases whole with
    | cons c whole => exact ⟨c, _, rfl, .inl (hw c List.mem_cons_self)⟩
    | nil =>
      cases hf with
      | none => exact absurd hdigit (by simp)
      | point => exact ⟨'.', _, rfl, .inr rfl⟩
  rw [hcons]
  have hsign (d : Char) (hd : d.isDigit = false) (hpoint : d ≠ '.') : c ≠ d := by
    rintro rfl
    exact hc.elim (fun h => absurd (h.symm.trans hd) nofun) hpoint
  simp [ofText?, hsign '-' rfl (by decide), hsign '+' rfl (by decide),
    wordOf?_of_digitOrPoint false hc]

/-- Every literal is read as some number. -/
theorem exists_ofText? {cs : List Char} (h : IsNumeral cs) : ∃ x, ofText? cs = some x := by
  obtain ⟨whole, fraction, exponent, rfl, hw, hf, he, hdigit⟩ := h.parts
  obtain ⟨e, hexponent⟩ := exists_exponentOf? he
  rw [ofText?_decimal hw hf he hdigit, hexponent]
  exact ⟨_, rfl⟩

end Binary64

namespace Source

/-! ## The length of a literal -/

section
variable {whole fraction exponent : List Char}

theorem digitsLength_append (hw : ∀ d ∈ whole, d.isDigit) {rest : List Char}
    (hstop : rest.takeWhile Char.isDigit = []) : digitsLength (whole ++ rest) = whole.length := by
  rw [digitsLength, takeWhile_append_stop hw hstop]

theorem length_le_digitsLength (hw : ∀ d ∈ whole, d.isDigit) (more : List Char) :
    whole.length ≤ digitsLength (whole ++ more) := by
  rw [digitsLength, List.takeWhile_append_of_pos hw, List.length_append]
  exact Nat.le_add_right _ _

variable (more : List Char)

theorem length_le_fractionLength (hf : IsFraction fraction) :
    fraction.length ≤ fractionLength (fraction ++ more) := by
  cases hf with
  | none => exact Nat.zero_le _
  | @point ds hds =>
    have hle := length_le_digitsLength hds.2 more
    have hpos := List.length_pos_iff.2 hds.1
    simp only [List.cons_append, fractionLength, List.length_cons]
    split <;> omega

/-- Before an exponent a fraction takes no more than its digits. -/
theorem fractionLength_before (hf : IsFraction fraction) (he : IsExponent exponent)
    (hne : exponent ≠ []) : fractionLength (fraction ++ (exponent ++ more)) = fraction.length := by
  cases hf with
  | none =>
    cases he with
    | none => exact absurd rfl hne
    | digits hmark => rcases hmark with rfl | rfl <;> rfl
  | @point ds hds =>
    have hstop := takeWhile_append_of_ne_nil hne he.takeWhile_eq more
    have hpos := List.length_pos_iff.2 hds.1
    simp only [List.cons_append, fractionLength, digitsLength_append hds.2 hstop, List.length_cons]
    split <;> omega

/-- A mark and a sign are taken with all digits after them. -/
theorem exponentLength_digits {mark : Char} {sign ds : List Char} (hmark : mark = 'e' ∨ mark = 'E')
    (hsign : sign ∈ [[], ['+'], ['-']]) (hds : IsDigits ds) :
    exponentLength (mark :: (sign ++ ds) ++ more) = 1 + sign.length + digitsLength (ds ++ more) := by
  have hle := length_le_digitsLength hds.2 more
  have hpos := List.length_pos_iff.2 hds.1
  obtain ⟨n, hn⟩ := Nat.exists_eq_add_of_lt (Nat.lt_of_lt_of_le hpos hle)
  simp only [List.mem_cons, List.not_mem_nil, or_false] at hsign
  rcases hsign with rfl | rfl | rfl
  · obtain ⟨d, ds, rfl, hplus, hminus⟩ := hds.exists_cons
    rw [List.cons_append] at hn
    simp [exponentLength, hmark, hplus, hminus, hn]
  · simp [exponentLength, hmark, hn]
  · simp [exponentLength, hmark, hn]

theorem length_le_exponentLength (he : IsExponent exponent) :
    exponent.length ≤ exponentLength (exponent ++ more) := by
  cases he with
  | none => exact Nat.zero_le _
  | @digits mark sign ds hmark hsign hds =>
    have hle := length_le_digitsLength hds.2 more
    rw [exponentLength_digits more hmark hsign hds, List.length_cons, List.length_append]
    omega

end

/-- **No literal at the beginning of a text is longer** than what is scanned of it. -/
theorem length_le_numberLength {text : List Char} (h : IsNumeral text) (more : List Char) :
    text.length ≤ numberLength (text ++ more) := by
  obtain ⟨whole, fraction, exponent, rfl, hw, hf, he, -⟩ := h.parts
  by_cases hrest : fraction ++ exponent = []
  · rw [hrest, List.append_nil]
    have hle := length_le_digitsLength hw more
    simp only [numberLength]
    omega
  have hstop := takeWhile_append_of_ne_nil hrest (hf.takeWhile_append he) more
  have hwhole : digitsLength (whole ++ (fraction ++ exponent) ++ more) = whole.length := by
    rw [List.append_assoc, digitsLength_append hw hstop]
  have hdrop : (whole ++ (fraction ++ exponent) ++ more).drop whole.length =
      fraction ++ (exponent ++ more) := by
    rw [List.append_assoc, List.drop_left, List.append_assoc]
  simp only [numberLength, hwhole, hdrop, List.length_append]
  by_cases hne : exponent = []
  · have hfraction := length_le_fractionLength (exponent ++ more) hf
    rw [hne] at hfraction ⊢
    rw [List.length_nil]
    omega
  · have hexponent := length_le_exponentLength more he
    rw [fractionLength_before more hf he hne, ← List.drop_drop, hdrop, List.drop_left]
    omega

/-- **A literal is scanned as a whole.** -/
theorem numberLength_eq {cs : List Char} (h : IsNumeral cs) : numberLength cs = cs.length := by
  have hle := length_le_numberLength h []
  rw [List.append_nil] at hle
  exact Nat.le_antisymm (numberLength_le cs) hle

theorem startsNumber_of_isNumeral {c : Char} {rest : List Char} (h : IsNumeral (c :: rest)) :
    startsNumber c rest := by
  obtain ⟨whole, fraction, exponent, hcs, hw, hf, -, hdigit⟩ := h.parts
  cases whole with
  | cons d whole =>
    obtain ⟨rfl, -⟩ := List.cons.inj hcs
    simp [startsNumber, hw c List.mem_cons_self]
  | nil =>
    cases hf with
    | none => exact absurd hdigit (by simp)
    | @point ds hds =>
      obtain ⟨d, ds, rfl⟩ := List.exists_cons_of_ne_nil hds.1
      obtain ⟨rfl, rfl⟩ := List.cons.inj hcs
      simp [startsNumber, startsWithDigit, hds.2 d List.mem_cons_self]

/-- A literal spells the number that it is read as. -/
theorem spelled_of_isNumeral {x : Binary64} {cs : List Char} (h : IsNumeral cs)
    (hx : Binary64.ofText? cs = some x) : Token.Spelled (.number x) cs := by
  obtain ⟨c, rest, rfl⟩ : ∃ c rest, cs = c :: rest := by
    refine List.exists_cons_of_ne_nil ?_
    rintro rfl
    cases hx
  refine .number ?_
  rw [scan_eq_scanNumber (startsNumber_of_isNumeral h), Token.scanNumber, numberLength_eq h,
    List.take_length, hx]
  rfl

/-! ## What is scanned as a number -/

theorem take_digitsLength (cs : List Char) :
    cs.take (digitsLength cs) = cs.takeWhile Char.isDigit :=
  (List.prefix_iff_eq_take.1 (List.takeWhile_prefix _)).symm

theorem isDigits_take {cs : List Char} (h : digitsLength cs ≠ 0) :
    IsDigits (cs.take (digitsLength cs)) := by
  rw [take_digitsLength]
  refine ⟨fun hnil => h ?_, List.all_eq_true.1 List.all_takeWhile⟩
  rw [digitsLength, hnil, List.length_nil]

theorem isFraction_take (cs : List Char) : IsFraction (cs.take (fractionLength cs)) := by
  unfold fractionLength
  split
  · split
    · exact .none
    · next hne => exact .point (isDigits_take hne)
  · exact .none

/-- A mark, a sign and what is scanned as digits, if there are any. -/
theorem isExponent_take_digits {mark : Char} {sign rest : List Char}
    (hmark : mark = 'e' ∨ mark = 'E') (hsign : sign ∈ [[], ['+'], ['-']])
    (h : digitsLength rest ≠ 0) :
    IsExponent ((mark :: (sign ++ rest)).take (1 + sign.length + digitsLength rest)) := by
  rw [Nat.add_assoc, Nat.add_comm, List.take_succ_cons, List.take_length_add_append]
  exact .digits hmark hsign (isDigits_take h)

theorem isExponent_take (cs : List Char) : IsExponent (cs.take (exponentLength cs)) := by
  unfold exponentLength
  split
  · next e rest =>
    split
    · next hmark =>
      split
      all_goals
        dsimp only
        split
        · exact .none
      · next hne => exact isExponent_take_digits hmark (show ['+'] ∈ _ by decide) hne
      · next hne => exact isExponent_take_digits hmark (show ['-'] ∈ _ by decide) hne
      · next hne => exact isExponent_take_digits hmark (show [] ∈ _ by decide) hne
    · exact .none
  · exact .none

theorem digitsLength_ne_zero {cs : List Char} (h : startsWithDigit cs) : digitsLength cs ≠ 0 := by
  match cs with
  | [] => exact absurd h nofun
  | c :: rest =>
    have hc : c.isDigit := h
    simp [digitsLength, hc]

/-- **Nothing but a literal is scanned as a number.** -/
theorem isNumeral_take {c : Char} {rest : List Char} (h : startsNumber c rest) :
    IsNumeral ((c :: rest).take (numberLength (c :: rest))) := by
  rw [numberLength, List.take_add, List.take_add, List.append_assoc]
  have hexponent := isExponent_take ((c :: rest).drop
    (digitsLength (c :: rest) + fractionLength ((c :: rest).drop (digitsLength (c :: rest)))))
  by_cases hc : c.isDigit
  · exact .whole (isDigits_take (digitsLength_ne_zero hc)) (isFraction_take _) hexponent
  · obtain ⟨rfl, hrest⟩ : c = '.' ∧ startsWithDigit rest := by
      simpa [startsNumber, hc] using h
    have hlength := digitsLength_ne_zero hrest
    have hwhole : digitsLength ('.' :: rest) = 0 := rfl
    have hfraction : fractionLength ('.' :: rest) = digitsLength rest + 1 := by
      simp [fractionLength]
    rw [hwhole, List.drop_zero, hfraction] at hexponent ⊢
    exact .point (isDigits_take hlength) hexponent

theorem exists_numberLength {c : Char} {rest : List Char} (h : startsNumber c rest) :
    ∃ n, numberLength (c :: rest) = n + 1 := by
  refine Nat.exists_eq_add_one_of_ne_zero fun hzero => ?_
  have hnumeral := isNumeral_take h
  rw [hzero] at hnumeral
  exact (Binary64.exists_ofText? hnumeral).elim nofun

/-! ## Tokens in writing -/

def Token.isNumber : Token → Bool
  | number _ => true
  | _ => false

/-- The texts that a token is written as: a number as any literal of its value, any other token as
    it is spelled. -/
inductive Token.Written : Token → List Char → Prop
  | number {x : Binary64} {cs : List Char} : IsNumeral cs → Binary64.ofText? cs = some x →
    Written (.number x) cs
  | other {t : Token} {cs : List Char} : !t.isNumber → t.Spelled cs → Written t cs

theorem Token.Written.spelled {t : Token} {cs : List Char} (h : t.Written cs) : t.Spelled cs := by
  cases h with
  | number h hx => exact spelled_of_isNumeral h hx
  | other _ h => exact h

/-- **Scanning undoes writing.**  Every literal writes a number; and tokens that are written with
    single spaces between them are scanned back, with nothing after them but the end. -/
theorem Lexeme.tokens_written :
    (∀ cs, IsNumeral cs → ∃ x, (Token.number x).Written cs) ∧
      ∀ ts css, List.Forall₂ Token.Written ts css →
        (ofText (String.ofList ([' '].intercalate css))).map token = ts ++ [.eof] := by
  refine ⟨fun cs h => ?_, fun ts css h => ?_⟩
  · obtain ⟨x, hx⟩ := Binary64.exists_ofText? h
    exact ⟨x, .number h hx⟩
  · have hspelled : List.Forall₂ Token.Spelled ts css := h.imp fun _ _ => Token.Written.spelled
    rw [ofText, String.toList_ofList]
    exact (ofChars_joined hspelled (.inl rfl) .start).1

/-- A literal that begins with its point, two slashes that are no comment, and a string with its
    quote, a backslash and a line feed in it. -/
theorem Lexeme.tokens_written_slashes :
    (ofText ".5e+3 / / '\\'\\\\\\n' elsewhere").map token =
      [.number ⟨0x407f400000000000⟩, .symbol .slash, .symbol .slash, .string "'\\\n",
        .identifier "elsewhere", .eof] := by
  have hnumeral : IsNumeral ['.', '5', 'e', '+', '3'] :=
    @IsNumeral.point ['5'] ['e', '+', '3'] (by decide)
      (@IsExponent.digits 'e' ['+'] ['3'] (.inl rfl) (by simp) (by decide))
  have hnumber : Binary64.ofText? ['.', '5', 'e', '+', '3'] = some ⟨0x407f400000000000⟩ := by
    decide +kernel
  have h := tokens_written.2 _ _ <| .cons (.number hnumeral hnumber) <|
    .cons (.other rfl (.symbol .slash)) <| .cons (.other rfl (.symbol .slash)) <|
    .cons (.other rfl (.string (s := "'\\\n") (.inr rfl))) <|
    .cons (.other rfl (.identifier (x := "elsewhere") (by decide) (by decide))) .nil
  exact h

end Source

end Requisite
