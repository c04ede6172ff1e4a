/-
  Tokens as text.

  Names, keywords and symbols have one spelling.  A string may stand between
  either quote, and a number may be any text that is read as the number.  Each
  spelling is scanned as the token, whatever follows after white space.

  * `Token.Spelled`: the spellings of a token;
  * `Scans`: texts that are scanned as a token where they stand apart from what
    follows;
  * `Token.Spelled.scans`: spellings are such texts;
  * `Lexeme.ofChars_joined`: spellings with single spaces between them are
    scanned back.
-/
import Mathlib.Data.List.Forall2
import Requisite.Source.Lexeme

namespace Requisite.Source

open Requisite

/-! ## Spellings -/

/-- The characters of a symbol. -/
def Symbol.chars : Symbol → List Char
  | leftBrace => ['{']
  | rightBrace => ['}']
  | leftParen => ['(']
  | rightParen => [')']
  | leftBracket => ['[']
  | rightBracket => [']']
  | semicolon => [';']
  | comma => [',']
  | colon => [':']
  | dot => ['.']
  | question => ['?']
  | plus => ['+']
  | minus => ['-']
  | star => ['*']
  | slash => ['/']
  | percent => ['%']
  | bang => ['!']
  | lessThan => ['<']
  | lessThanEqual => ['<', '=']
  | greaterThan => ['>']
  | greaterThanEqual => ['>', '=']
  | equalEqual => ['=', '=']
  | notEqual => ['!', '=']
  | strictEqual => ['=', '=', '=']
  | strictNotEqual => ['!', '=', '=']
  | ampersandAmpersand => ['&', '&']
  | pipePipe => ['|', '|']
  | equal => ['=']
  | plusEqual => ['+', '=']
  | minusEqual => ['-', '=']

/-- Whether a text is one word of a script. -/
def isWord : List Char → Bool
  | [] => false
  | c :: rest => isIdentifierStart c && rest.all isIdentifierContinue

/-- A character of a string between quotes; the quote, the backslash and the line feed need a
    backslash. -/
def escape (quote c : Char) : List Char :=
  if c = '\n' then ['\\', 'n']
  else if c = quote ∨ c = '\\' then ['\\', c]
  else [c]

/-- The texts that a token may be written as. -/
inductive Token.Spelled : Token → List Char → Prop
  /-- any text that is read as the number -/
  | number {x : Binary64} {c : Char} {rest : List Char} :
    Token.scan c rest = (.number x, rest.length) → Spelled (.number x) (c :: rest)
  /-- either quote may be chosen -/
  | string {s : String} {quote : Char} : quote = '"' ∨ quote = '\'' →
    Spelled (.string s) (quote :: (s.toList.flatMap (escape quote) ++ [quote]))
  /-- a word is a name if it is neither a keyword nor a literal -/
  | identifier {x : String} : isWord x.toList → Token.ofWord x = .identifier x →
    Spelled (.identifier x) x.toList
  | boolean (b : Bool) : Spelled (.boolean b) (toString b).toList
  | null : Spelled .null "null".toList
  | keyword (k : Keyword) : Spelled (.keyword k) k.text.toList
  | symbol (s : Symbol) : Spelled (.symbol s) s.chars

/-! ## Scanning -/

/-- A text that is empty or begins with white space. -/
def Apart : List Char → Prop
  | [] => True
  | c :: _ => isBlank c

/-- The text is scanned as the token, on one line, where it stands apart from what follows. -/
structure Scans (t : Token) (cs : List Char) : Prop where
  oneLine : '\n' ∉ cs
  scan : ∃ c rest, cs = c :: rest ∧ ∀ more, Apart more →
    separatorLength (c :: (rest ++ more)) = 0 ∧
      Token.scan c (rest ++ more) = (t, rest.length)

/-! ## Kinds of characters -/

/-- Two kinds of characters have none in common if one of them has no code point of the
    other. -/
theorem eq_false_of_codes {p q : Char → Bool} {codes : List Nat}
    (hq : ∀ {c}, q c → c.toNat ∈ codes) (hp : ∀ n ∈ codes, p (Char.ofNat n) = false) {c : Char}
    (h : p c) : q c = false := by
  refine Bool.eq_false_iff.mpr fun hc => ?_
  have hp := hp _ (hq hc)
  rw [Char.ofNat_toNat, h] at hp
  exact absurd hp nofun

/-- The code points of white space. -/
def blankCodes : List Nat :=
  [0x09, 0x0A, 0x0B, 0x0C, 0x0D, 0x20, 0x85, 0xA0, 0x1680, 0x2000, 0x2001, 0x2002, 0x2003, 0x2004,
    0x2005, 0x2006, 0x2007, 0x2008, 0x2009, 0x200A, 0x2028, 0x2029, 0x202F, 0x205F, 0x3000]

theorem toNat_mem_blankCodes {c : Char} (h : isBlank c) : c.toNat ∈ blankCodes := by
  simp only [isBlank, Bool.or_eq_true, beq_iff_eq, Bool.and_eq_true, decide_eq_true_eq] at h
  simp only [blankCodes, List.mem_cons, List.not_mem_nil, or_false]
  rcases h with (((((((((h | h) | h) | h) | h) | h) | h) | h) | h) | h) | h <;> omega

theorem toNat_mem_of_isDigit {c : Char} (h : c.isDigit) : c.toNat ∈ List.range' 48 10 := by
  simp only [Char.isDigit, Bool.and_eq_true, decide_eq_true_eq] at h
  have h₁ := UInt32.le_iff_toNat_le.mp h.1
  have h₂ := UInt32.le_iff_toNat_le.mp h.2
  rw [List.mem_range'_1]
  exact ⟨h₁, Nat.lt_succ_of_le h₂⟩

theorem kinds_of_mem_blankCodes : ∀ n ∈ blankCodes, isIdentifierStart (Char.ofNat n) = false ∧
    isIdentifierContinue (Char.ofNat n) = false ∧ (Char.ofNat n).isDigit = false := by
  decide +kernel

theorem kinds_of_mem_digits : ∀ n ∈ List.range' 48 10,
    isIdentifierStart (Char.ofNat n) = false ∧ isBlank (Char.ofNat n) = false := by
  decide +kernel

theorem isBlank_of_isIdentifierStart {c : Char} (h : isIdentifierStart c) : isBlank c = false :=
  eq_false_of_codes toNat_mem_blankCodes (fun n hn => (kinds_of_mem_blankCodes n hn).1) h

theorem isBlank_of_isIdentifierContinue {c : Char} (h : isIdentifierContinue c) :
    isBlank c = false :=
  eq_false_of_codes toNat_mem_blankCodes (fun n hn => (kinds_of_mem_blankCodes n hn).2.1) h

theorem isDigit_of_isIdentifierStart {c : Char} (h : isIdentifierStart c) : c.isDigit = false :=
  eq_false_of_codes toNat_mem_of_isDigit (fun n hn => (kinds_of_mem_digits n hn).1) h

theorem isDigit_of_isBlank {c : Char} (h : isBlank c) : c.isDigit = false :=
  eq_false_of_codes toNat_mem_of_isDigit (fun n hn => (kinds_of_mem_digits n hn).2) h

theorem isBlank_of_isDigit {c : Char} (h : c.isDigit) : isBlank c = false :=
  eq_false_of_codes toNat_mem_blankCodes (fun n hn => (kinds_of_mem_blankCodes n hn).2.2) h

theorem ne_of_isBlank {c d : Char} (h : isBlank c) (hd : isBlank d = false) : c ≠ d := by
  rintro rfl
  exact absurd (h.symm.trans hd) nofun

theorem takeWhile_of_apart {p : Char → Bool} (hp : ∀ {c}, p c → isBlank c = false)
    {more : List Char} (h : Apart more) : more.takeWhile p = [] := by
  cases more with
  | nil => rfl
  | cons c more => exact List.takeWhile_cons_of_neg fun hc => absurd (h.symm.trans (hp hc)) nofun

theorem separatorLength_eq_zero {c : Char} {rest : List Char} (hc : c ≠ '/')
    (hb : isBlank c = false) : separatorLength (c :: rest) = 0 := by
  unfold separatorLength
  split <;> simp_all

/-! ## Words -/

/-- Only the characters of symbols, quotes and digits are looked for before those of names. -/
theorem scan_eq_scanWord {c : Char} (h : isIdentifierStart c) (rest : List Char) :
    Token.scan c rest = Token.scanWord c rest := by
  unfold Token.scan
  split
  case h_25 => simp [isDigit_of_isIdentifierStart h, h]
  all_goals exact absurd h (by decide)

theorem scans_word {s : String} {t : Token} (hw : isWord s.toList) (ht : Token.ofWord s = t) :
    Scans t s.toList := by
  obtain ⟨cs, rfl⟩ : ∃ cs, s = String.ofList cs := ⟨s.toList, String.ofList_toList.symm⟩
  rw [String.toList_ofList] at hw ⊢
  subst ht
  match cs with
  | [] => exact absurd hw nofun
  | c :: rest =>
    obtain ⟨h, hrest⟩ := (Bool.and_eq_true _ _).mp hw
    refine ⟨?_, c, rest, rfl, fun more hmore => ⟨separatorLength_eq_zero ?_ ?_, ?_⟩⟩
    · rw [List.mem_cons]
      rintro (rfl | hm)
      · exact absurd h (by decide)
      · exact absurd (List.all_eq_true.mp hrest _ hm) (by decide)
    · rintro rfl
      exact absurd h (by decide)
    · exact isBlank_of_isIdentifierStart h
    · rw [scan_eq_scanWord h, Token.scanWord,
        List.takeWhile_append_of_pos (List.all_eq_true.mp hrest),
        takeWhile_of_apart isBlank_of_isIdentifierContinue hmore, List.append_nil]

/-! ## Strings -/

/-- A character is no backslash if it is neither a lone one nor one with a character after it. -/
theorem ne_backslash {c : Char} {rest : List Char} (hend : c = '\\' → rest = [] → False)
    (hescape : ∀ d more, c = '\\' → rest = d :: more → False) : c ≠ '\\' := by
  intro hc
  cases rest with
  | nil => exact hend hc rfl
  | cons d more => exact hescape d more hc rfl

theorem scanQuoted_escape {quote : Char} (hq : quote = '"' ∨ quote = '\'') (cs more : List Char) :
    scanQuoted quote (cs.flatMap (escape quote) ++ quote :: more) =
      (some cs, (cs.flatMap (escape quote)).length + 1) := by
  induction cs with
  | nil => rcases hq with rfl | rfl <;> simp [scanQuoted]
  | cons c cs ih =>
    rw [List.flatMap_cons, List.append_assoc]
    by_cases hn : c = '\n'
    · subst hn
      simp [escape, scanQuoted, ih, unescape]
    by_cases hc : c = quote ∨ c = '\\'
    · have hu : unescape c = c := by
        rcases hc with rfl | rfl
        · rcases hq with rfl | rfl <;> rfl
        · rfl
      simp [escape, hn, hc, scanQuoted, ih, hu]
    · rw [not_or] at hc
      simp [escape, hn, hc, scanQuoted, ih]

theorem newline_notMem_escape (quote c : Char) : '\n' ∉ escape quote c := by
  unfold escape
  split
  · decide
  · next hn => split <;> simp [Ne.symm hn]

theorem scans_string {quote : Char} (hq : quote = '"' ∨ quote = '\'') (s : String) :
    Scans (.string s) (quote :: (s.toList.flatMap (escape quote) ++ [quote])) where
  oneLine := by
    have hn : quote ≠ '\n' := by rcases hq with rfl | rfl <;> decide
    simp [hn.symm, newline_notMem_escape]
  scan := by
    refine ⟨_, _, rfl, fun more _ => ⟨?_, ?_⟩⟩
    · rcases hq with rfl | rfl <;> exact separatorLength_eq_zero (by decide) (by decide)
    · have hscan := scanQuoted_escape hq s.toList more
      have hstring (rest : List Char) :
          Token.scan quote rest = Token.scanString quote rest := by
        rcases hq with rfl | rfl <;> rfl
      rw [hstring, List.append_assoc, List.singleton_append, Token.scanString, hscan,
        List.length_append]
      simp

/-! ## Symbols -/

theorem scans_symbol (s : Symbol) : Scans (.symbol s) s.chars where
  oneLine := by cases s <;> decide
  scan := by
    cases s
    all_goals refine ⟨_, _, rfl, fun more hmore => ?_⟩
    all_goals cases more with
      | nil => exact ⟨by decide, rfl⟩
      | cons c more =>
        simp [separatorLength, Token.scan, Token.scanEqual, Token.scanEquals, Token.scanDoubled,
          startsWithDigit, isBlank, ne_of_isBlank hmore (d := '/') rfl,
          ne_of_isBlank hmore (d := '*') rfl, ne_of_isBlank hmore (d := '=') rfl,
          isDigit_of_isBlank hmore]

/-! ## Numbers -/

theorem digitsLength_apart (cs : List Char) {more : List Char} (h : Apart more) :
    digitsLength (cs ++ more) = digitsLength cs := by
  unfold digitsLength
  rw [List.takeWhile_append, takeWhile_of_apart isBlank_of_isDigit h]
  split <;> simp_all

theorem fractionLength_apart (cs : List Char) {more : List Char} (h : Apart more) :
    fractionLength (cs ++ more) = fractionLength cs := by
  cases cs with
  | nil =>
    cases more with
    | nil => rfl
    | cons c more => simp [fractionLength, ne_of_isBlank h (d := '.') rfl]
  | cons c rest =>
    by_cases hc : c = '.'
    · subst hc
      simp only [List.cons_append, fractionLength, digitsLength_apart rest h]
    · simp [fractionLength, hc]

theorem exponentLength_apart (cs : List Char) {more : List Char} (h : Apart more) :
    exponentLength (cs ++ more) = exponentLength cs := by
  match cs with
  | [] =>
    cases more with
    | nil => rfl
    | cons c more =>
      simp [exponentLength, ne_of_isBlank h (d := 'e') rfl, ne_of_isBlank h (d := 'E') rfl]
  | [e] =>
    have hd := digitsLength_apart [] h
    cases more with
    | nil => rfl
    | cons c more =>
      simp at hd
      simp [exponentLength, ne_of_isBlank h (d := '+') rfl, ne_of_isBlank h (d := '-') rfl, hd]
  | e :: sign :: rest =>
    by_cases hs : sign = '+' ∨ sign = '-'
    · have hd := digitsLength_apart rest h
      rcases hs with rfl | rfl <;> simp [exponentLength, hd]
    · rw [not_or] at hs
      have hd := digitsLength_apart (sign :: rest) h
      rw [List.cons_append] at hd
      simp [exponentLength, hs, hd]

theorem digitsLength_le (cs : List Char) : digitsLength cs ≤ cs.length :=
  (List.takeWhile_prefix _).length_le

theorem fractionLength_le (cs : List Char) : fractionLength cs ≤ cs.length := by
  unfold fractionLength
  split
  · next rest =>
    have := digitsLength_le rest
    rw [List.length_cons]
    split <;> omega
  · exact Nat.zero_le _

theorem exponentLength_le (cs : List Char) : exponentLength cs ≤ cs.length := by
  unfold exponentLength
  split
  · split
    · -- the mark is `e` with a sign, or `e` alone
      split
      all_goals
        dsimp only [List.length_cons]
        generalize hn : digitsLength _ = n
        have hd : n ≤ _ := hn ▸ digitsLength_le _
        rw [List.length_drop] at hd
        cases n with
        | zero => exact Nat.zero_le _
        | succ n =>
          simp only [List.length_cons] at hd ⊢
          omega
    · exact Nat.zero_le _
  · exact Nat.zero_le _

/-- The parts of a number are within the text, so that each is measured before what follows. -/
theorem numberLength_le (cs : List Char) : numberLength cs ≤ cs.length := by
  have hw := digitsLength_le cs
  have hf := fractionLength_le (cs.drop (digitsLength cs))
  have he := exponentLength_le
    (cs.drop (digitsLength cs + fractionLength (cs.drop (digitsLength cs))))
  rw [List.length_drop] at hf he
  simp only [numberLength]
  omega

theorem numberLength_apart (cs : List Char) {more : List Char} (h : Apart more) :
    numberLength (cs ++ more) = numberLength cs := by
  have hw := digitsLength_le cs
  have hf := fractionLength_le (cs.drop (digitsLength cs))
  rw [List.length_drop] at hf
  unfold numberLength
  simp only [digitsLength_apart cs h]
  rw [List.drop_append_of_le_length hw, fractionLength_apart _ h,
    List.drop_append_of_le_length (by omega), exponentLength_apart _ h]

theorem scanNumber_apart (cs : List Char) {more : List Char} (h : Apart more) :
    Token.scanNumber (cs ++ more) = Token.scanNumber cs := by
  simp only [Token.scanNumber, numberLength_apart cs h,
    List.take_append_of_le_length (numberLength_le cs)]

/-- Whether a number begins with `c` and goes on with `rest`. -/
def startsNumber (c : Char) (rest : List Char) : Bool :=
  c.isDigit || c == '.' && startsWithDigit rest

theorem scan_eq_scanNumber {c : Char} {rest : List Char} (h : startsNumber c rest) :
    Token.scan c rest = Token.scanNumber (c :: rest) := by
  unfold Token.scan
  split
  case h_14 => exact if_pos h
  case h_25 => simp_all [startsNumber]
  all_goals exact absurd h (by simp [startsNumber])

theorem Token.ofWord_cases (s : String) :
    (∃ b, ofWord s = .boolean b) ∨ ofWord s = .null ∨ (∃ k, ofWord s = .keyword k) ∨
      ofWord s = .identifier s := by
  unfold ofWord
  split
  · exact .inl ⟨true, rfl⟩
  split
  · exact .inl ⟨false, rfl⟩
  split
  · exact .inr (.inl rfl)
  split
  · next k _ => exact .inr (.inr (.inl ⟨k, rfl⟩))
  · exact .inr (.inr (.inr rfl))

theorem ofWord_ne_number (s : String) (x : Binary64) : Token.ofWord s ≠ .number x := by
  rcases Token.ofWord_cases s with ⟨b, h⟩ | h | ⟨k, h⟩ | h <;> rw [h] <;> exact nofun

theorem startsNumber_of_scan {c : Char} {rest : List Char} {x : Binary64} {n : Nat}
    (h : Token.scan c rest = (.number x, n)) : startsNumber c rest := by
  unfold Token.scan at h
  split at h
  case h_14 =>
    split at h
    · assumption
    · cases h
  case h_25 =>
    split at h
    · next hd => simp [startsNumber, hd]
    · split at h
      · exact absurd (Prod.mk.inj h).1 (ofWord_ne_number _ _)
      · cases h
  -- the other characters begin symbols and strings
  all_goals
    first
      | cases h
      | unfold Token.scanEqual at h
      | unfold Token.scanEquals at h
      | unfold Token.scanDoubled at h
      | unfold Token.scanString at h
    repeat' split at h
    all_goals cases h

theorem startsNumber_append {c : Char} {rest : List Char} (h : startsNumber c rest)
    (more : List Char) : startsNumber c (rest ++ more) := by
  cases rest with
  | nil => simp_all [startsNumber, startsWithDigit]
  | cons d rest => exact h

theorem isBlank_of_startsNumber {c : Char} {rest : List Char} (h : startsNumber c rest) :
    c ≠ '/' ∧ isBlank c = false := by
  simp only [startsNumber, Bool.or_eq_true, Bool.and_eq_true, beq_iff_eq] at h
  rcases h with h | ⟨rfl, -⟩
  · refine ⟨?_, isBlank_of_isDigit h⟩
    rintro rfl
    exact absurd h (by decide)
  · decide

theorem scans_number {x : Binary64} {c : Char} {rest : List Char}
    (h : Token.scan c rest = (.number x, rest.length)) : Scans (.number x) (c :: rest) := by
  have hstart := startsNumber_of_scan h
  have hnumber : Token.scanNumber (c :: rest) = (.number x, rest.length) :=
    (scan_eq_scanNumber hstart).symm.trans h
  obtain ⟨hslash, hblank⟩ := isBlank_of_startsNumber hstart
  refine ⟨fun hm => ?_, c, rest, rfl, fun more hmore =>
    ⟨separatorLength_eq_zero hslash hblank, ?_⟩⟩
  · -- the number would end before the line feed
    have hlength : numberLength (c :: rest) - 1 = rest.length := by
      simp only [Token.scanNumber] at hnumber
      split at hnumber <;> exact (Prod.mk.inj hnumber).2
    have hrest : '\n' ∈ rest := by
      rcases List.mem_cons.mp hm with rfl | hm
      · exact absurd hblank (by decide)
      · exact hm
    obtain ⟨pre, post, rfl⟩ := List.append_of_mem hrest
    have hn : numberLength (c :: pre ++ '\n' :: post) = numberLength (c :: pre) :=
      numberLength_apart _ rfl
    have hle := numberLength_le (c :: pre)
    rw [List.cons_append] at hn
    simp only [hn, List.length_append, List.length_cons] at hlength hle
    omega
  · rw [scan_eq_scanNumber (startsNumber_append hstart more), ← List.cons_append,
      scanNumber_apart _ hmore, hnumber]

/-! ## Tokens of a text -/

theorem Token.Spelled.scans {t : Token} {cs : List Char} (h : t.Spelled cs) : Scans t cs := by
  cases h with
  | number h => exact scans_number h
  | string hq => exact scans_string hq _
  | identifier hw hx => exact scans_word hw hx
  | boolean b => cases b <;> exact scans_word (by decide) (by decide)
  | null => exact scans_word (by decide) (by decide)
  | keyword k => cases k <;> exact scans_word (by decide) (by decide)
  | symbol s => exact scans_symbol s

theorem Place.line_after {cs : List Char} (h : '\n' ∉ cs) (p : Place) :
    (p.after cs).line = p.line := by
  induction cs generalizing p with
  | nil => rfl
  | cons c cs ih =>
    rw [List.mem_cons, not_or] at h
    exact (ih h.2 (p.next c)).trans (if_neg (Ne.symm h.1))

theorem layoutLength_eq_zero {cs : List Char} (h : separatorLength cs = 0) :
    layoutLength cs = 0 := by
  unfold layoutLength
  split
  · rfl
  · next hn => exact absurd (hn.symm.trans h) (Nat.succ_ne_zero _)

theorem layoutLength_space (cs : List Char) : layoutLength (' ' :: cs) = layoutLength cs + 1 := by
  have hsep : separatorLength (' ' :: cs) = 1 := rfl
  rw [layoutLength]
  split
  · next hn => simp [hsep] at hn
  · next n hn =>
    obtain rfl : n = 0 := Nat.succ.inj (hn.symm.trans hsep)
    exact Nat.add_comm ..

section
variable {gap : List Char} (hgap : gap = [] ∨ gap = [' '])
include hgap

/-- At most a space is skipped before what is no layout. -/
theorem layoutLength_gap {cs : List Char} (h : separatorLength cs = 0) :
    layoutLength (gap ++ cs) = gap.length := by
  have hzero := layoutLength_eq_zero h
  rcases hgap with rfl | rfl
  · exact hzero
  · exact (layoutLength_space cs).trans (congrArg Nat.succ hzero)

theorem Place.line_after_gap (p : Place) : (p.after gap).line = p.line := by
  rcases hgap with rfl | rfl <;> exact Place.line_after (by decide) p

end

namespace Lexeme

theorem ofChars_nil {p : Place} {cs : List Char} (h : cs.drop (layoutLength cs) = []) :
    ofChars p cs =
      [⟨.eof, p.after (cs.take (layoutLength cs)), p.after (cs.take (layoutLength cs)),
        (p.after (cs.take (layoutLength cs))).line != p.line⟩] := by
  rw [ofChars]
  split
  · rfl
  · next hc => simp [h] at hc

theorem ofChars_cons {p : Place} {cs : List Char} {c : Char} {rest : List Char} {t : Token}
    {n : Nat} (h : cs.drop (layoutLength cs) = c :: rest) (hscan : Token.scan c rest = (t, n)) :
    let start := p.after (cs.take (layoutLength cs))
    let stop := start.after (c :: rest.take n)
    ofChars p cs = ⟨t, start, stop, start.line != p.line⟩ :: ofChars stop (rest.drop n) := by
  rw [ofChars]
  split
  · next hc => simp [h] at hc
  · next d ds hc =>
    obtain ⟨rfl, rfl⟩ := List.cons.inj (hc.symm.trans h)
    rw [hscan]

/-- The first token of a text, with at most a space before it. -/
theorem ofChars_scans {t : Token} {cs gap more : List Char} (h : Scans t cs)
    (hgap : gap = [] ∨ gap = [' ']) (hmore : Apart more) (p : Place) :
    ∃ l stop, ofChars p (gap ++ (cs ++ more)) = l :: ofChars stop more ∧ l.token = t ∧
      l.newline = false ∧ l.start.line = p.line ∧ stop.line = p.line := by
  obtain ⟨c, rest, rfl, hscan⟩ := h.scan
  obtain ⟨hsep, hscan⟩ := hscan more hmore
  have hlayout : layoutLength (gap ++ (c :: rest ++ more)) = gap.length :=
    layoutLength_gap hgap hsep
  have hline := Place.line_after_gap hgap p
  have hdrop : (gap ++ (c :: rest ++ more)).drop (layoutLength (gap ++ (c :: rest ++ more))) =
      c :: (rest ++ more) := by
    rw [hlayout, List.drop_left]
    rfl
  have hcons := ofChars_cons (p := p) hdrop hscan
  simp only [hlayout, List.take_left, List.drop_left] at hcons
  refine ⟨_, _, hcons, rfl, ?_, hline, (Place.line_after h.oneLine _).trans hline⟩
  simp [hline]

/-- **Spellings are scanned back.**  Spellings of tokens with single spaces between them are
    scanned as these tokens, on one line. -/
theorem ofChars_joined {ts : List Token} {css : List (List Char)}
    (h : List.Forall₂ Token.Spelled ts css) {gap : List Char} (hgap : gap = [] ∨ gap = [' '])
    (p : Place) :
    (ofChars p (gap ++ [' '].intercalate css)).map token = ts ++ [.eof] ∧
      ∀ l ∈ ofChars p (gap ++ [' '].intercalate css), l.newline = false ∧ l.start.line = p.line := by
  induction h generalizing gap p with
  | nil =>
    rw [List.intercalate_nil]
    have hlayout : layoutLength (gap ++ []) = gap.length := layoutLength_gap hgap rfl
    have hdrop : (gap ++ []).drop (layoutLength (gap ++ [])) = [] := by
      rw [hlayout, List.drop_left]
    rw [ofChars_nil hdrop, hlayout, List.take_left]
    simp [Place.line_after_gap hgap p]
  | @cons t cs ts css hs hrest ih =>
    obtain ⟨gap', hgap', happart, hjoined⟩ : ∃ gap', (gap' = [] ∨ gap' = [' ']) ∧
        Apart (gap' ++ [' '].intercalate css) ∧
        [' '].intercalate (cs :: css) = cs ++ (gap' ++ [' '].intercalate css) := by
      cases css with
      | nil => exact ⟨[], .inl rfl, trivial, by simp⟩
      | cons ds css => exact ⟨[' '], .inr rfl, rfl, by simp⟩
    obtain ⟨l, stop, hl, htoken, hnewline, hline, hstop⟩ :=
      ofChars_scans hs.scans hgap happart p
    obtain ⟨htokens, hplain⟩ := ih hgap' stop
    rw [hjoined, hl]
    refine ⟨by rw [List.map_cons, htokens, htoken]; rfl, fun m hm => ?_⟩
    rcases List.mem_cons.mp hm with rfl | hm
    · exact ⟨hnewline, hline⟩
    · exact hstop ▸ hplain m hm

end Lexeme

end Requisite.Source
