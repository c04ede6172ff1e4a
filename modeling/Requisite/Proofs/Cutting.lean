/-
  Tokens before a semicolon, or before the end of a text.

  A scanner looks at a few characters after a token.  Wherever after the token a
  semicolon comes, or the text ends, it is the same token.

  * `numberLength_cut`: so it is with numbers;
  * `Token.scan_cut`: with all tokens;
  * `layoutLength_cut`: and with what is before them;
  * `Lexeme.ofChars_cut`: the first token of a text that is cut after it.
-/
import Requisite.Proofs.Layout

namespace Requisite.Source

open Requisite

/-- Nothing, or a semicolon with anything after it. -/
inductive Inert : List Char → Prop
  | nil : Inert []
  | semicolon (more : List Char) : Inert (';' :: more)

variable {xs ys zs : List Char}

/-! ## Runs of characters -/

section
variable {p : Char → Bool}

theorem takeWhile_of_inert (hp : p ';' = false) (hzs : Inert zs) : zs.takeWhile p = [] := by
  cases hzs with
  | nil => rfl
  | semicolon more => exact List.takeWhile_cons_of_neg (by simp [hp])

/-- A run counts what comes after a text only if it goes on to its end. -/
theorem takeWhile_append_congr
    (h : (xs.takeWhile p).length = xs.length → zs.takeWhile p = ys.takeWhile p) :
    (xs ++ zs).takeWhile p = (xs ++ ys).takeWhile p := by
  rw [List.takeWhile_append, List.takeWhile_append]
  split
  · next hxs => rw [h hxs]
  · rfl

/-- A run that is in a text is the same whatever comes after, unless that goes on with it. -/
theorem takeWhile_append_of_le (hzs : zs.takeWhile p = [])
    (h : ((xs ++ ys).takeWhile p).length ≤ xs.length) :
    (xs ++ zs).takeWhile p = (xs ++ ys).takeWhile p := by
  refine takeWhile_append_congr fun hxs => ?_
  rw [List.takeWhile_append, if_pos hxs, List.length_append] at h
  rw [hzs, List.length_eq_zero_iff.1 (show (ys.takeWhile p).length = 0 by omega)]

/-- A run that ends before a text does is the same whatever comes after. -/
theorem takeWhile_append_of_lt (h : ((xs ++ ys).takeWhile p).length < xs.length) :
    (xs ++ zs).takeWhile p = (xs ++ ys).takeWhile p := by
  refine takeWhile_append_congr fun hxs => ?_
  rw [List.takeWhile_append, if_pos hxs, List.length_append] at h
  omega

end

/-! ## Numbers -/

theorem digitsLength_cut (hzs : Inert zs) (h : digitsLength (xs ++ ys) ≤ xs.length) :
    digitsLength (xs ++ zs) = digitsLength (xs ++ ys) :=
  congrArg List.length (takeWhile_append_of_le (takeWhile_of_inert rfl hzs) h)

theorem fractionLength_cut (hzs : Inert zs) (h : fractionLength (xs ++ ys) ≤ xs.length) :
    fractionLength (xs ++ zs) = fractionLength (xs ++ ys) := by
  cases xs with
  | nil => cases hzs <;> exact (Nat.le_zero.1 h).symm
  | cons c xs =>
    by_cases hc : c = '.'
    · subst hc
      have hd : digitsLength (xs ++ ys) ≤ xs.length := by
        simp only [List.cons_append, fractionLength, List.length_cons] at h
        split at h <;> omega
      simp only [List.cons_append, fractionLength, digitsLength_cut hzs hd]
    · simp [fractionLength, hc]

/-- A mark alone is no exponent. -/
theorem exponentLength_ne_one (cs : List Char) : exponentLength cs ≠ 1 := by
  unfold exponentLength
  split
  · split
    · split
      all_goals
        dsimp only
        split
        · exact Nat.zero_ne_one
        · next hne =>
          have := Nat.pos_of_ne_zero hne
          omega
    · exact Nat.zero_ne_one
  · exact Nat.zero_ne_one

theorem exponentLength_cut (hzs : Inert zs) (h : exponentLength (xs ++ ys) ≤ xs.length) :
    exponentLength (xs ++ zs) = exponentLength (xs ++ ys) := by
  match xs with
  | [] => cases hzs <;> exact (Nat.le_zero.1 h).symm
  | [e] =>
    have hne := exponentLength_ne_one (e :: ys)
    have hzero : exponentLength ([e] ++ ys) = 0 :=
      Nat.eq_zero_of_not_pos fun hpos => hne (Nat.le_antisymm h hpos)
    rw [hzero]
    cases hzs <;> simp [exponentLength, digitsLength]
  | e :: sign :: rest =>
    by_cases he : e = 'e' ∨ e = 'E'
    · by_cases hs : sign = '+' ∨ sign = '-'
      · have hd : digitsLength (rest ++ ys) ≤ rest.length := by
          rcases hs with rfl | rfl <;> simp [exponentLength, he] at h <;> split at h <;> omega
        rcases hs with rfl | rfl <;> simp [exponentLength, digitsLength_cut hzs hd]
      · rw [not_or] at hs
        have hd : digitsLength ((sign :: rest) ++ ys) ≤ (sign :: rest).length := by
          simp [exponentLength, he, hs] at h ⊢
          split at h <;> omega
        have hcut := digitsLength_cut hzs hd
        simp only [List.cons_append] at hcut
        simp [exponentLength, hs, hcut]
    · simp [exponentLength, he]

theorem numberLength_cut (hzs : Inert zs) (h : numberLength (xs ++ ys) ≤ xs.length) :
    numberLength (xs ++ zs) = numberLength (xs ++ ys) := by
  unfold numberLength at h ⊢
  dsimp only at h ⊢
  have hw : digitsLength (xs ++ ys) ≤ xs.length := by omega
  rw [digitsLength_cut hzs hw]
  generalize digitsLength (xs ++ ys) = w at h hw ⊢
  rw [List.drop_append_of_le_length hw] at h ⊢
  have hf : fractionLength (xs.drop w ++ ys) ≤ (xs.drop w).length := by
    rw [List.length_drop]
    omega
  rw [List.drop_append_of_le_length hw, fractionLength_cut hzs hf]
  generalize fractionLength (xs.drop w ++ ys) = f at h hf ⊢
  rw [List.length_drop] at hf
  have hwf : w + f ≤ xs.length := by omega
  rw [List.drop_append_of_le_length hwf] at h ⊢
  have he : exponentLength (xs.drop (w + f) ++ ys) ≤ (xs.drop (w + f)).length := by
    rw [List.length_drop]
    omega
  rw [List.drop_append_of_le_length hwf, exponentLength_cut hzs he]

/-! ## Tokens -/

section
variable {c : Char}

theorem Token.scanNumber_cut (hzs : Inert zs) (h : (scanNumber (c :: (xs ++ ys))).2 ≤ xs.length) :
    scanNumber (c :: (xs ++ zs)) = scanNumber (c :: (xs ++ ys)) := by
  have hn : numberLength (c :: xs ++ ys) ≤ (c :: xs).length := by
    simp only [scanNumber] at h
    rw [List.length_cons, List.cons_append]
    split at h <;> dsimp only at h <;> omega
  have hcut := numberLength_cut hzs hn
  rw [List.cons_append, List.cons_append] at hcut
  simp only [scanNumber, hcut]
  rw [← List.cons_append, ← List.cons_append] at *
  rw [List.take_append_of_le_length hn, List.take_append_of_le_length hn]

theorem Token.scanWord_cut (hzs : Inert zs) (h : (scanWord c (xs ++ ys)).2 ≤ xs.length) :
    scanWord c (xs ++ zs) = scanWord c (xs ++ ys) := by
  simp only [scanWord, takeWhile_append_of_le (takeWhile_of_inert rfl hzs) h]

/-- Of a string that is closed, nothing after it is looked at. -/
theorem scanQuoted_take {quote : Char} {cs value : List Char} {n : Nat}
    (h : scanQuoted quote cs = (some value, n)) (zs : List Char) :
    scanQuoted quote (cs.take n ++ zs) = (some value, n) := by
  fun_induction scanQuoted quote cs generalizing value n with
  | case1 => cases h
  | case2 => cases h
  | case3 c rest v m hv ih =>
    obtain ⟨hvalue, rfl⟩ := Prod.mk.inj h
    obtain ⟨u, rfl, rfl⟩ := Option.map_eq_some_iff.1 hvalue
    simp [List.take_succ_cons, scanQuoted, ih hv]
  | case4 => cases h
  | case5 rest hend hescape hline =>
    cases h
    have hq : quote ≠ '\\' := ne_backslash hend hescape
    simp [scanQuoted, hq, hline]
  | case6 c rest hend hescape hline hquote v m hv ih =>
    obtain ⟨hvalue, rfl⟩ := Prod.mk.inj h
    obtain ⟨u, rfl, rfl⟩ := Option.map_eq_some_iff.1 hvalue
    have hc : c ≠ '\\' := ne_backslash hend hescape
    simp [List.take_succ_cons, scanQuoted, ih hv, hc, hline, hquote]

theorem Token.scanString_cut {quote : Char} (hn : (scanString quote (xs ++ ys)).2 ≤ xs.length)
    (hvalid : (scanString quote (xs ++ ys)).1 ≠ .invalid) :
    scanString quote (xs ++ zs) = scanString quote (xs ++ ys) := by
  unfold scanString at *
  split at hn
  · next value n hquoted =>
    have htake := scanQuoted_take hquoted (xs.drop n ++ zs)
    rw [List.take_append_of_le_length hn, ← List.append_assoc, List.take_append_drop] at htake
    rw [htake]
  · next hquoted =>
    rw [hquoted] at hvalid
    exact absurd rfl hvalid

theorem Token.scanEqual_cut {bare joined : Symbol} (hzs : Inert zs)
    (hn : (scanEqual bare joined (xs ++ ys)).2 ≤ xs.length) :
    scanEqual bare joined (xs ++ zs) = scanEqual bare joined (xs ++ ys) := by
  cases xs with
  | nil =>
    unfold scanEqual at *
    split at hn
    · exact absurd hn (Nat.not_succ_le_zero 0)
    · cases hzs <;> rfl
  | cons d xs => by_cases hd : d = '=' <;> simp [scanEqual, hd]

theorem Token.scanEquals_cut {bare loose strict : Symbol} (hzs : Inert zs)
    (hn : (scanEquals bare loose strict (xs ++ ys)).2 ≤ xs.length) :
    scanEquals bare loose strict (xs ++ zs) = scanEquals bare loose strict (xs ++ ys) := by
  match xs with
  | [] =>
    unfold scanEquals at *
    split at hn
    · exact absurd hn (Nat.not_succ_le_zero 1)
    · exact absurd hn (Nat.not_succ_le_zero 0)
    · cases hzs <;> rfl
  | [d] =>
    by_cases hd : d = '='
    · subst hd
      cases ys with
      | nil => cases hzs <;> simp [scanEquals]
      | cons e ys =>
        have he : e ≠ '=' := by
          rintro rfl
          exact absurd hn (Nat.not_succ_le_self 1)
        cases hzs <;> simp [scanEquals, he]
    · simp [scanEquals, hd]
  | d :: e :: xs => by_cases hd : d = '=' <;> by_cases he : e = '=' <;> simp [scanEquals, hd, he]

theorem Token.scanDoubled_cut {d : Char} {s : Symbol}
    (hn : (scanDoubled d s (xs ++ ys)).2 ≤ xs.length)
    (hvalid : (scanDoubled d s (xs ++ ys)).1 ≠ .invalid) :
    scanDoubled d s (xs ++ zs) = scanDoubled d s (xs ++ ys) := by
  cases xs with
  | nil =>
    cases ys with
    | nil => exact absurd rfl hvalid
    | cons e ys =>
      by_cases he : e = d
      · simp [scanDoubled, he] at hn
      · simp [scanDoubled, he] at hvalid
  | cons => rfl

/-- **A semicolon, or the end, anywhere after a token leaves it what it is.** -/
theorem Token.scan_cut (hzs : Inert zs) (hn : (scan c (xs ++ ys)).2 ≤ xs.length)
    (hvalid : (scan c (xs ++ ys)).1 ≠ .invalid) :
    scan c (xs ++ zs) = scan c (xs ++ ys) := by
  revert hn hvalid
  unfold scan
  split
  all_goals intro hn hvalid
  case h_14 =>
    cases xs with
    | nil =>
      by_cases hdigit : startsWithDigit ys
      · -- a point alone is no number
        rw [List.nil_append, if_pos hdigit] at hn hvalid
        have hcut := @scanNumber_cut [] ys [] '.' .nil hn
        exact absurd (congrArg Prod.fst hcut).symm hvalid
      · rw [List.nil_append, List.nil_append, if_neg hdigit]
        cases hzs <;> rfl
    | cons d xs =>
      by_cases hd : d.isDigit
      · simp only [List.cons_append, startsWithDigit, hd, ↓reduceIte] at hn ⊢
        exact @scanNumber_cut (d :: xs) ys zs '.' hzs hn
      · simp only [List.cons_append, startsWithDigit, hd, Bool.false_eq_true, ↓reduceIte]
  case h_25 =>
    split at hn
    · next hdigit =>
      rw [if_pos hdigit, if_pos hdigit]
      exact scanNumber_cut hzs hn
    · next hdigit =>
      rw [if_neg hdigit, if_neg hdigit]
      split at hn
      · next hword =>
        rw [if_pos hword, if_pos hword]
        exact scanWord_cut hzs hn
      · next hword => rw [if_neg hword, if_neg hword]
  all_goals
    first
    | rfl
    | exact scanEqual_cut hzs hn
    | exact scanEquals_cut hzs hn
    | exact scanDoubled_cut hn hvalid
    | exact scanString_cut hn hvalid

/-! ## Tokens in their texts -/

theorem scanQuoted_le (quote : Char) (cs : List Char) : (scanQuoted quote cs).2 ≤ cs.length := by
  fun_induction scanQuoted quote cs with
  | case1 => exact Nat.le_refl 0
  | case2 => exact Nat.le_refl 1
  | case3 c rest v m hv ih =>
    rw [hv] at ih
    exact Nat.add_le_add_right ih 2
  | case4 => exact Nat.succ_pos _
  | case5 => exact Nat.succ_pos _
  | case6 c rest hend hescape hline hquote v m hv ih =>
    rw [hv] at ih
    exact Nat.succ_le_succ ih

theorem Token.scanNumber_le (cs : List Char) : (scanNumber (c :: cs)).2 ≤ cs.length := by
  have := numberLength_le (c :: cs)
  rw [List.length_cons] at this
  unfold scanNumber
  dsimp only
  split <;> dsimp only <;> omega

theorem Token.scanString_le (quote : Char) (cs : List Char) :
    (scanString quote cs).2 ≤ cs.length := by
  have := scanQuoted_le quote cs
  unfold scanString
  split <;> simp_all

theorem Token.scanEqual_le (bare joined : Symbol) (cs : List Char) :
    (scanEqual bare joined cs).2 ≤ cs.length := by
  unfold scanEqual
  split <;> simp

theorem Token.scanEquals_le (bare loose strict : Symbol) (cs : List Char) :
    (scanEquals bare loose strict cs).2 ≤ cs.length := by
  unfold scanEquals
  split <;> simp

theorem Token.scanDoubled_le (d : Char) (s : Symbol) (cs : List Char) :
    (scanDoubled d s cs).2 ≤ cs.length := by
  unfold scanDoubled
  split
  · split <;> simp
  · simp

/-- A token is in its text. -/
theorem Token.scan_le (c : Char) (cs : List Char) : (scan c cs).2 ≤ cs.length := by
  unfold scan
  split
  case h_14 =>
    split
    · exact scanNumber_le cs
    · exact Nat.zero_le _
  case h_25 =>
    split
    · exact scanNumber_le cs
    split
    · exact (List.takeWhile_prefix _).length_le
    · exact Nat.zero_le _
  all_goals
    first
    | exact Nat.zero_le _
    | exact scanEqual_le _ _ cs
    | exact scanEquals_le _ _ _ cs
    | exact scanDoubled_le _ _ cs
    | exact scanString_le _ cs

end

/-! ## White space and comments -/

/-- A comment that is closed before a text ends is the same whatever comes after. -/
theorem blockCommentLength_append {star : Bool} {zs : List Char}
    (h : blockCommentLength star (xs ++ ys) < xs.length) :
    blockCommentLength star (xs ++ zs) = blockCommentLength star (xs ++ ys) := by
  induction xs generalizing star with
  | nil => exact absurd h (Nat.not_lt_zero _)
  | cons c xs ih =>
    simp only [List.cons_append, blockCommentLength, List.length_cons] at h ⊢
    split
    · rfl
    · next hc =>
      rw [if_neg hc] at h
      rw [ih (Nat.lt_of_succ_lt_succ h)]

theorem separatorLength_cut (hzs : Inert zs) (h : separatorLength (xs ++ ys) < xs.length) :
    separatorLength (xs ++ zs) = separatorLength (xs ++ ys) := by
  match xs with
  | [] => exact absurd h (Nat.not_lt_zero _)
  | [c] =>
    have hzero : separatorLength (c :: ys) = 0 := Nat.lt_one_iff.1 h
    have hc : isBlank c = false := by
      refine Bool.eq_false_iff.2 fun hc => ?_
      have hslash : c ≠ '/' := by
        rintro rfl
        exact absurd hc (by decide)
      simp [separatorLength, hslash, hc] at hzero
    rw [List.singleton_append, List.singleton_append, hzero]
    by_cases hslash : c = '/'
    · subst hslash
      cases hzs <;> simp [separatorLength, hc]
    · exact separatorLength_eq_zero hslash hc
  | c :: d :: xs =>
    by_cases hslash : c = '/'
    · subst hslash
      by_cases hline : d = '/'
      · subst hline
        simp only [List.cons_append, separatorLength, List.length_cons] at h ⊢
        have hlt : ((xs ++ ys).takeWhile fun c => !endsLine c).length < xs.length := by omega
        rw [takeWhile_append_of_lt hlt]
      by_cases hblock : d = '*'
      · subst hblock
        simp only [List.cons_append, separatorLength, List.length_cons] at h ⊢
        have hlt : blockCommentLength false (xs ++ ys) < xs.length := by omega
        rw [blockCommentLength_append hlt]
      · simp [separatorLength, hline, hblock]
    · simp [separatorLength, hslash]

/-- White space or a comment is passed over, and then what comes after it. -/
theorem layoutLength_succ {cs : List Char} {n : Nat} (h : separatorLength cs = n + 1) :
    layoutLength cs = n + 1 + layoutLength (cs.drop (n + 1)) := by
  rw [layoutLength]
  split
  · next hzero => exact nomatch h.symm.trans hzero
  · next m hm =>
    obtain rfl : n = m := Nat.succ.inj (h.symm.trans hm)
    cases cs with
    | nil => exact nomatch h
    | cons c rest => rfl

/-- **A semicolon, or the end, after a token leaves what is before it as it is.** -/
theorem layoutLength_cut (hzs : Inert zs) (h : layoutLength (xs ++ ys) < xs.length) :
    layoutLength (xs ++ zs) = layoutLength (xs ++ ys) := by
  induction hn : xs.length using Nat.strongRecOn generalizing xs with
  | ind n ih =>
    cases hs : separatorLength (xs ++ ys) with
    | zero =>
      rw [layoutLength_eq_zero hs] at h ⊢
      exact layoutLength_eq_zero ((separatorLength_cut hzs (hs ▸ h)).trans hs)
    | succ m =>
      rw [layoutLength_succ hs] at h ⊢
      have hlt : separatorLength (xs ++ ys) < xs.length := by omega
      have hle : m + 1 ≤ xs.length := by omega
      rw [layoutLength_succ ((separatorLength_cut hzs hlt).trans hs)]
      rw [List.drop_append_of_le_length hle] at h ⊢
      rw [List.drop_append_of_le_length hle]
      have hdrop : (xs.drop (m + 1)).length = n - (m + 1) := by rw [List.length_drop, hn]
      rw [ih _ (by omega) (by rw [hdrop]; omega) hdrop]

/-! ## Texts that are cut -/

/-- The second text is the first, or the first up to a semicolon or to an earlier end. -/
def Cuts (cs cs' : List Char) : Prop :=
  cs' = cs ∨ ∃ front back after, cs = front ++ back ∧ cs' = front ++ after ∧ Inert after

/-- The first token of a text does not change if the text is cut after it. -/
theorem Lexeme.ofChars_cut {cs rest more : List Char} {c : Char} {t : Token} {n : Nat}
    (h : cs.drop (layoutLength cs) = c :: rest) (hscan : Token.scan c rest = (t, n))
    (ht : t ≠ .invalid) (hmore : Cuts (rest.drop n) more) (q : Place) :
    let start := q.after (cs.take (layoutLength cs))
    let stop := start.after (c :: rest.take n)
    ofChars q (cs.take (layoutLength cs) ++ (c :: rest.take n ++ more)) =
      ⟨t, start, stop, start.line != q.line⟩ :: ofChars stop more := by
  generalize hgap : cs.take (layoutLength cs) = gap
  have hcs : cs = gap ++ (c :: rest.take n ++ rest.drop n) := by
    rw [← hgap, List.cons_append, List.take_append_drop, ← h, List.take_append_drop]
  obtain rfl | ⟨front, back, after, hrest, rfl, hafter⟩ := hmore
  · rw [← hcs, ← hgap]
    exact ofChars_cons h hscan
  have hlength : layoutLength cs = gap.length := by
    have := congrArg List.length h
    rw [List.length_drop, List.length_cons] at this
    rw [← hgap, List.length_take]
    omega
  have hfront : cs = gap ++ (c :: rest.take n ++ front) ++ back := by
    rw [hcs, hrest]
    simp
  have hlayout : layoutLength (gap ++ (c :: rest.take n ++ front) ++ after) =
      gap.length := by
    rw [← hlength, hfront]
    refine layoutLength_cut hafter ?_
    rw [← hfront, hlength]
    simp
  have hrest' : rest = rest.take n ++ front ++ back := by
    rw [List.append_assoc, ← hrest, List.take_append_drop]
  have hn : n ≤ rest.length := by
    have := Token.scan_le c rest
    rwa [hscan] at this
  have hlengthTake : (rest.take n).length = n := List.length_take_of_le hn
  have hscan' : Token.scan c (rest.take n ++ front ++ after) = (t, n) := by
    rw [← hscan]
    conv => rhs; rw [hrest']
    refine Token.scan_cut hafter ?_ ?_ <;> rw [← hrest', hscan]
    · rw [List.length_append, hlengthTake]
      exact Nat.le_add_right ..
    · exact ht
  have hdrop : (gap ++ (c :: rest.take n ++ front) ++ after).drop (layoutLength
      (gap ++ (c :: rest.take n ++ front) ++ after)) =
      c :: (rest.take n ++ front ++ after) := by
    rw [hlayout, List.append_assoc, List.drop_left]
    rfl
  have hcons := ofChars_cons (p := q) hdrop hscan'
  rw [hlayout] at hcons
  simp only [List.append_assoc, List.take_left, List.cons_append] at hcons ⊢
  rw [List.take_left' hlengthTake, List.drop_left' hlengthTake] at hcons
  exact hcons


end Requisite.Source
