/-
  Texts as tokens with gaps between them.

  A text is laid out as its tokens with white space and comments before each of
  them and at the end.  Tokens take what they take with the characters after
  them present, so that a text is cut where the scanner cuts it.

  * `Scanned`: what begins a text, if it is not invalid;
  * `gaps`: the white space and the comments of a text;
  * `Laid`: a text with its tokens and gaps;
  * `Token.ofText`: the tokens of a text, and `laid_ofText`: the text is laid out
    as them.
-/
import Requisite.Proofs.Written

namespace Requisite.Source

open Requisite

/-! ## Tokens where they stand -/

/-- The token that begins with `c` and takes `n` of the characters after it. -/
inductive Scanned (c : Char) (rest : List Char) : Token → Nat → Prop
  | symbol {s : Symbol} {n : Nat} (hchars : c :: rest.take n = s.chars) :
    Scanned c rest (.symbol s) n
  | string {value : List Char} {n : Nat} (hquote : c = '"' ∨ c = '\'')
    (hquoted : scanQuoted c rest = (some value, n)) :
    Scanned c rest (.string (String.ofList value)) n
  | number {x : Binary64} {n : Nat} (hnumeral : IsNumeral (c :: rest.take n))
    (hvalue : Binary64.ofText? (c :: rest.take n) = some x) : Scanned c rest (.number x) n
  | word {n : Nat} (hword : isWord (c :: rest.take n)) :
    Scanned c rest (.ofWord (String.ofList (c :: rest.take n))) n

section
variable {c : Char} {rest : List Char} {t : Token} {n : Nat}

theorem scanned_equal {bare joined : Symbol} (hbare : bare.chars = [c])
    (hjoined : joined.chars = [c, '=']) (h : Token.scanEqual bare joined rest = (t, n)) :
    Scanned c rest t n := by
  unfold Token.scanEqual at h
  split at h
  · cases h
    exact .symbol hjoined.symm
  · cases h
    exact .symbol hbare.symm

theorem scanned_equals {bare loose strict : Symbol} (hbare : bare.chars = [c])
    (hloose : loose.chars = [c, '=']) (hstrict : strict.chars = [c, '=', '='])
    (h : Token.scanEquals bare loose strict rest = (t, n)) : Scanned c rest t n := by
  unfold Token.scanEquals at h
  split at h
  · cases h
    exact .symbol hstrict.symm
  · cases h
    exact .symbol hloose.symm
  · cases h
    exact .symbol hbare.symm

theorem scanned_doubled {s : Symbol} (hs : s.chars = [c, c]) (ht : t ≠ .invalid)
    (h : Token.scanDoubled c s rest = (t, n)) : Scanned c rest t n := by
  unfold Token.scanDoubled at h
  split at h
  · split at h
    · next hd =>
      cases h
      subst hd
      exact .symbol hs.symm
    · cases h
      exact absurd rfl ht
  · cases h
    exact absurd rfl ht

theorem scanned_string (hc : c = '"' ∨ c = '\'') (ht : t ≠ .invalid)
    (h : Token.scanString c rest = (t, n)) : Scanned c rest t n := by
  unfold Token.scanString at h
  split at h
  · next hquoted =>
    cases h
    exact .string hc hquoted
  · cases h
    exact absurd rfl ht

theorem scanned_number (hc : startsNumber c rest) (ht : t ≠ .invalid)
    (h : Token.scanNumber (c :: rest) = (t, n)) : Scanned c rest t n := by
  have hnumeral := isNumeral_take hc
  obtain ⟨m, hm⟩ := exists_numberLength hc
  rw [hm, List.take_succ_cons] at hnumeral
  simp only [Token.scanNumber, hm, Nat.add_sub_cancel, List.take_succ_cons] at h
  split at h
  · next hvalue =>
    cases h
    exact .number hnumeral hvalue
  · cases h
    exact absurd rfl ht

theorem scanned_word (hc : isIdentifierStart c) (h : Token.scanWord c rest = (t, n)) :
    Scanned c rest t n := by
  cases h
  have htake : rest.take (rest.takeWhile isIdentifierContinue).length =
      rest.takeWhile isIdentifierContinue :=
    (List.prefix_iff_eq_take.1 (List.takeWhile_prefix _)).symm
  have hword : isWord (c :: rest.takeWhile isIdentifierContinue) := by
    simp [isWord, hc]
  rw [← htake] at hword
  have hscanned := Scanned.word hword
  rwa [htake] at hscanned

/-- **What is scanned** is a symbol, a string, a literal or a word. -/
theorem scanned_of_scan (h : Token.scan c rest = (t, n)) (ht : t ≠ .invalid) :
    Scanned c rest t n := by
  unfold Token.scan at h
  split at h
  case h_14 =>
    split at h
    · next hdigit => exact scanned_number (by simp [startsNumber, hdigit]) ht h
    · cases h
      exact .symbol rfl
  case h_25 =>
    split at h
    · next hdigit => exact scanned_number (by simp [startsNumber, hdigit]) ht h
    · split at h
      · next hstart => exact scanned_word hstart h
      · cases h
        exact absurd rfl ht
  all_goals
    first
    | exact scanned_equal rfl rfl h
    | exact scanned_equals rfl rfl rfl h
    | exact scanned_doubled rfl ht h
    | exact scanned_string (.inl rfl) ht h
    | exact scanned_string (.inr rfl) ht h
    | (cases h; exact .symbol rfl)

theorem Scanned.ne_eof (h : Scanned c rest t n) : t ≠ .eof := by
  cases h with
  | word =>
    rcases Token.ofWord_cases (String.ofList (c :: rest.take n)) with ⟨b, h⟩ | h | ⟨k, h⟩ | h
    all_goals
      rw [h]
      exact nofun
  | _ => exact nofun

end

/-! ## Gaps -/

/-- The white space and the comments before each token of a text, and at its end. -/
def gaps (cs : List Char) : List (List Char) :=
  cs.take (layoutLength cs) ::
    match _h : cs.drop (layoutLength cs) with
    | [] => []
    | c :: rest => gaps (rest.drop (Token.scan c rest).2)
termination_by cs.length
decreasing_by
  have := congrArg List.length _h
  simp only [List.length_drop, List.length_cons] at this ⊢
  omega

/-- A text is a gap at its end, or a gap and a token before the rest of it. -/
inductive Laid : List (List Char) → List Token → List Char → Prop
  | last (gap : List Char) : Laid [gap] [] gap
  | token {c : Char} {rest gap : List Char} {t : Token} {n : Nat} {gs : List (List Char)}
    {ts : List Token} (hscan : Token.scan c rest = (t, n)) (hrest : Laid gs ts (rest.drop n)) :
    Laid (gap :: gs) (t :: ts) (gap ++ c :: rest)

theorem Laid.eof_notMem {gs : List (List Char)} {ts : List Token} {cs : List Char}
    (h : Laid gs ts cs) : .eof ∉ ts := by
  induction h with
  | last => exact nofun
  | token hscan _ ih =>
    rw [List.mem_cons, not_or]
    refine ⟨fun ht => ?_, ih⟩
    subst ht
    exact (scanned_of_scan hscan nofun).ne_eof rfl

/-- The tokens that are scanned are laid out in the text. -/
theorem exists_laid (p : Place) (cs : List Char) :
    ∃ ts, (Lexeme.ofChars p cs).map Lexeme.token = ts ++ [.eof] ∧ Laid (gaps cs) ts cs := by
  fun_induction Lexeme.ofChars p cs with
  | case1 p cs gap start newline hnil =>
    refine ⟨[], rfl, ?_⟩
    have hgap : cs.take gap = cs := List.take_of_length_le (List.drop_eq_nil_iff.1 hnil)
    have hgaps : gaps cs = [cs] := by
      rw [gaps, hgap]
      split
      · rfl
      · next hcons => exact absurd (hnil.symm.trans hcons) nofun
    rw [hgaps]
    exact .last cs
  | case2 p cs gap start newline c rest hcons t n hscan stop ih =>
    obtain ⟨ts, hts, hlaid⟩ := ih
    refine ⟨t :: ts, by rw [List.map_cons, hts]; rfl, ?_⟩
    have hgaps : gaps cs = cs.take gap :: gaps (rest.drop n) := by
      rw [gaps]
      split
      · next hnil => exact absurd (hcons.symm.trans hnil) nofun
      · next d ds hds =>
        obtain ⟨rfl, rfl⟩ := List.cons.inj (hds.symm.trans hcons)
        rw [hscan]
    have hcs : cs = cs.take gap ++ c :: rest := by rw [← hcons, List.take_append_drop]
    rw [hgaps]
    conv => rhs; rw [hcs]
    exact .token hscan hlaid

/-! ## Tokens of a text -/

/-- The tokens of a text, without the `eof` that ends them. -/
def Token.ofText (s : String) : List Token := ((Lexeme.ofText s).map Lexeme.token).dropLast

/-- A text is laid out as its tokens. -/
theorem laid_ofText (s : String) : Laid (gaps s.toList) (Token.ofText s) s.toList := by
  obtain ⟨ts, hts, hlaid⟩ := exists_laid .start s.toList
  rwa [Token.ofText, Lexeme.ofText, hts, List.dropLast_concat]

/-- `eof` ends a text and stands nowhere else. -/
theorem Lexeme.map_token_ofText (s : String) :
    (ofText s).map token = Token.ofText s ++ [.eof] ∧ .eof ∉ Token.ofText s := by
  obtain ⟨ts, hts, -⟩ := exists_laid .start s.toList
  refine ⟨?_, (laid_ofText s).eof_notMem⟩
  rw [Token.ofText, ofText, hts, List.dropLast_concat]

end Requisite.Source
