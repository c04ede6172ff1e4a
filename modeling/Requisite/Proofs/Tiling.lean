/-
  Where the tokens of a text stand.

  A scanner is what is left of a text and the place where that begins.  Each of
  its steps passes over white space and comments and takes a token, so that the
  text before the scanner is always what it has passed over and taken.

  * `slice?`: the part of a text between two byte offsets;
  * `IsLayout`: white space and comments;
  * `Scanner.next`: the next token, and the scanner after it;
  * `Scanner.Stands`: what of a text a scanner has passed;
  * `Scanner.Stands.next`: what a step passes over and takes;
  * `Lexeme.ofChars_eq`: the tokens of a text are those that steps take, up to `eof`.
-/
import Requisite.Proofs.Layout

namespace Requisite.Source

open Requisite

/-! ## Places -/

namespace Place

variable (p : Place) (cs ds : List Char)

theorem after_append : p.after (cs ++ ds) = (p.after cs).after ds := List.foldl_append

/-- A place is as many bytes further on as the characters before it take. -/
theorem offset_after : (p.after cs).offset = p.offset + (String.ofList cs).utf8ByteSize := by
  induction cs generalizing p with
  | nil => simp [after]
  | cons c cs ih =>
    have h : (p.after (c :: cs)).offset = ((p.next c).after cs).offset := rfl
    rw [h, ih, String.ofList_cons, String.utf8ByteSize_append, String.utf8ByteSize_singleton]
    simp only [next]
    omega

/-- A place is as many lines further down as there are line feeds before it. -/
theorem line_after_eq : (p.after cs).line = p.line + cs.count '\n' := by
  induction cs generalizing p with
  | nil => simp [after]
  | cons c cs ih =>
    have h : (p.after (c :: cs)).line = ((p.next c).after cs).line := rfl
    rw [h, ih, List.count_cons]
    simp only [next, beq_iff_eq]
    split <;> omega

/-- Only a line feed leads to another line. -/
theorem line_after_bne : ((p.after cs).line != p.line) = cs.contains '\n' := by
  rw [line_after_eq, Bool.eq_iff_iff, bne_iff_ne, List.contains_iff_mem, ← List.count_pos_iff]
  omega

end Place

/-- The part of a text between two byte offsets, if these are in order, inside the text and not
    inside a character. -/
def slice? (s : String) (start stop : Nat) : Option String :=
  if h : (⟨start⟩ : String.Pos.Raw).IsValid s ∧ (⟨stop⟩ : String.Pos.Raw).IsValid s ∧
      start ≤ stop then
    some (s.slice ⟨_, h.1⟩ ⟨_, h.2.1⟩ h.2.2).copy
  else none

section
variable {s : String} {before middle after : List Char}

/-- The place after some of the characters of a text is no place inside a character. -/
theorem isValid_after (h : s.toList = before ++ after) :
    (⟨(Place.start.after before).offset⟩ : String.Pos.Raw).IsValid s := by
  refine String.Pos.Raw.isValid_iff_exists_append.2
    ⟨String.ofList before, String.ofList after, ?_, ?_⟩
  · rw [← String.toList_inj, String.toList_append, String.toList_ofList, String.toList_ofList, h]
  · rw [Place.offset_after]
    simp [Place.start, String.rawEndPos]

/-- Between two places stand the characters that lead from one to the other. -/
theorem slice?_after (h : s.toList = before ++ middle ++ after) :
    slice? s (Place.start.after before).offset (Place.start.after (before ++ middle)).offset =
      some (String.ofList middle) := by
  have hs : s = String.ofList before ++ String.ofList middle ++ String.ofList after := by
    rw [← String.toList_inj]
    simp [h]
  have hle : (Place.start.after before).offset ≤
      (Place.start.after (before ++ middle)).offset := by
    simp only [Place.offset_after, String.ofList_append, String.utf8ByteSize_append]
    omega
  have hstart : (⟨(Place.start.after before).offset⟩ : String.Pos.Raw).IsValid s :=
    isValid_after (h.trans (List.append_assoc ..))
  have hstop := isValid_after h
  rw [slice?, dif_pos ⟨hstart, hstop, hle⟩, Option.some_inj]
  refine (String.copy_slice_eq_iff_splits.2
    ⟨String.ofList before, String.ofList after, ⟨?_, ?_⟩, ⟨hs, ?_⟩⟩).2
  · rw [hs, String.append_assoc]
  · simp [Place.offset_after, Place.start, String.rawEndPos]
  · simp [Place.offset_after, Place.start, String.rawEndPos]

end

/-! ## White space and comments -/

/-- White space and comments; `last` says whether the text ends after them.  A line comment lasts
    to the end of its line or of the text, and no block comment may be open but one at the end. -/
inductive IsLayout (last : Bool) : List Char → Prop
  | nil : IsLayout last []
  | blank {c : Char} {rest : List Char} (hc : isBlank c) (hrest : IsLayout last rest) :
    IsLayout last (c :: rest)
  | line {comment rest : List Char} (hcomment : ∀ c ∈ comment, endsLine c = false)
    (hstop : ∀ c ∈ rest.head?, endsLine c) (hend : rest = [] → last)
    (hrest : IsLayout last rest) : IsLayout last ('/' :: '/' :: (comment ++ rest))
  | block {comment rest : List Char} (hcomment : ¬['*', '/'] <:+: comment)
    (hrest : IsLayout last rest) :
    IsLayout last ('/' :: '*' :: (comment ++ '*' :: '/' :: rest))
  | unclosed {comment : List Char} (hcomment : ¬['*', '/'] <:+: comment) (hend : last) :
    IsLayout last ('/' :: '*' :: comment)

theorem closing_infix_cons {c : Char} {cs : List Char} :
    ['*', '/'] <:+: c :: cs ↔ (c = '*' ∧ cs.head? = some '/') ∨ ['*', '/'] <:+: cs := by
  rw [List.infix_cons_iff, List.cons_prefix_cons]
  refine or_congr_left (and_congr eq_comm ?_)
  cases cs with
  | nil => simp
  | cons d cs => simp [List.cons_prefix_cons, eq_comm]

/-- A block comment is read up to the first `*/`, or to the end of the text if there is none;
    `star` stands for a star before it. -/
theorem blockComment_take (star : Bool) (cs : List Char) :
    (∃ comment, (if star then ['*'] else []) ++ cs.take (blockCommentLength star cs) =
        comment ++ ['*', '/'] ∧ ¬['*', '/'] <:+: comment) ∨
      (cs.length = blockCommentLength star cs ∧
        ¬['*', '/'] <:+: (if star then ['*'] else []) ++ cs) := by
  induction cs generalizing star with
  | nil => exact .inr ⟨rfl, by cases star <;> simp [List.infix_cons_iff]⟩
  | cons c cs ih =>
    by_cases hc : star = true ∧ c = '/'
    · obtain ⟨rfl, rfl⟩ := hc
      exact .inl ⟨[], rfl, by simp⟩
    · have hstep : blockCommentLength star (c :: cs) = blockCommentLength (c == '*') cs + 1 := by
        rw [blockCommentLength, if_neg (by simpa using hc)]
      rw [hstep, List.take_succ_cons]
      by_cases hstar : c = '*'
      · subst hstar
        rcases ih true with ⟨comment, htake, hcomment⟩ | ⟨hlength, hcomment⟩
        · -- the comment may be closed by the star at hand
          have hhead : comment.head? ≠ some '/' := by
            cases comment with
            | nil => exact nofun
            | cons d comment =>
              obtain rfl : '*' = d := (List.cons.inj htake).1
              exact nofun
          refine .inl ⟨(if star then ['*'] else []) ++ comment, ?_, ?_⟩
          · rw [List.append_assoc, ← htake]
            rfl
          · cases star <;> simp [closing_infix_cons, hhead, hcomment]
        · refine .inr ⟨congrArg (· + 1) hlength, ?_⟩
          cases star with
          | false => exact hcomment
          | true => exact fun h => (closing_infix_cons.1 h).elim (by simp) hcomment
      · rcases ih false with ⟨comment, htake, hcomment⟩ | ⟨hlength, hcomment⟩
        · refine .inl ⟨(if star then ['*'] else []) ++ c :: comment, ?_, ?_⟩
          · have hcs : cs.take (blockCommentLength false cs) = comment ++ ['*', '/'] := htake
            rw [beq_eq_false_iff_ne.2 hstar, hcs, List.append_assoc, List.cons_append]
          · cases star <;> simp_all [closing_infix_cons]
        · refine .inr ⟨?_, ?_⟩
          · rw [beq_eq_false_iff_ne.2 hstar, ← hlength, List.length_cons]
          · cases star <;> simp_all [closing_infix_cons]

/-- A blank is passed over. -/
theorem layoutLength_blank {c : Char} (hc : isBlank c) (rest : List Char) :
    layoutLength (c :: rest) = 1 + layoutLength rest := by
  have hslash : c ≠ '/' := by
    rintro rfl
    exact absurd hc (by decide)
  have hseparator : separatorLength (c :: rest) = 1 := by
    unfold separatorLength
    split
    · next h => exact absurd (List.cons.inj h).1 hslash
    · next h => exact absurd (List.cons.inj h).1 hslash
    · next h =>
      obtain ⟨rfl, -⟩ := List.cons.inj h
      exact if_pos hc
    · next h => exact nomatch h
  rw [layoutLength]
  split
  · next h => exact absurd (hseparator.symm.trans h) (by decide)
  · next n h =>
    obtain rfl : 0 = n := Nat.succ.inj (hseparator.symm.trans h)
    rfl

/-- What ends a line is white space. -/
theorem isBlank_of_endsLine {c : Char} (h : endsLine c) : isBlank c := by
  simp only [endsLine, Bool.or_eq_true, beq_iff_eq] at h
  rcases h with rfl | rfl <;> rfl

namespace IsLayout

variable {gap : List Char} {last : Bool}

/-- A line comment, before white space and comments that go on where it ends. -/
theorem lineComment {comment after : List Char} (hcomment : ∀ c ∈ comment, endsLine c = false)
    (hafter : ∀ d ∈ after.head?, endsLine d) (hgap : IsLayout last gap)
    (hstop : ∀ d ∈ after.head?, endsLine d → gap.head? = some d)
    (hend : after = [] → gap = [] ∧ last) : IsLayout last ('/' :: '/' :: (comment ++ gap)) := by
  have hhead : gap.head? = after.head? := by
    cases after with
    | nil => rw [(hend rfl).1]
    | cons d after => exact hstop d rfl (hafter d rfl)
  refine .line hcomment (hhead ▸ hafter) (fun h => ?_) hgap
  rw [h] at hhead
  exact (hend (List.head?_eq_none_iff.1 hhead.symm)).2

/-- A block comment likewise, if it is not open to the end of the text. -/
theorem blockComment {rest : List Char} (hgap : IsLayout last gap)
    (hend : rest.drop (blockCommentLength false rest) = [] → gap = [] ∧ last) :
    IsLayout last ('/' :: '*' :: (rest.take (blockCommentLength false rest) ++ gap)) := by
  rcases blockComment_take false rest with ⟨comment, htake, hcomment⟩ | ⟨hlength, hcomment⟩
  · have htake : rest.take (blockCommentLength false rest) = comment ++ ['*', '/'] := htake
    rw [htake]
    simpa using IsLayout.block hcomment hgap
  · have hle : rest.length ≤ blockCommentLength false rest := Nat.le_of_eq hlength
    obtain ⟨rfl, hlast⟩ := hend (List.drop_eq_nil_iff.2 hle)
    rw [List.append_nil, List.take_of_length_le hle]
    exact .unclosed hcomment hlast

/-- The separator that a text begins with, before white space and comments that go on where it
    ends. -/
theorem separator {cs : List Char} {n : Nat} (hn : separatorLength cs = n) (hne : n ≠ 0)
    (hgap : IsLayout last gap) (hstop : ∀ d ∈ (cs.drop n).head?, endsLine d → gap.head? = some d)
    (hend : cs.drop n = [] → gap = [] ∧ last) : IsLayout last (cs.take n ++ gap) := by
  unfold separatorLength at hn
  split at hn
  · next rest =>
    subst hn
    have hrest := List.takeWhile_append_dropWhile (p := fun c => !endsLine c) (l := rest)
    generalize hcomment : rest.takeWhile (fun c => !endsLine c) = comment at *
    generalize hafter : rest.dropWhile (fun c => !endsLine c) = after at *
    subst hrest
    rw [Nat.add_comm, List.drop_succ_cons, List.drop_succ_cons, List.drop_left] at hstop hend
    rw [Nat.add_comm, List.take_succ_cons, List.take_succ_cons, List.take_left]
    refine hgap.lineComment (fun c hc => ?_) (fun d hd => ?_) hstop hend
    · rw [← hcomment] at hc
      simpa using List.all_eq_true.1 List.all_takeWhile c hc
    · have hline := List.head?_dropWhile_not (fun c => !endsLine c) (comment ++ after)
      rw [hafter, hd] at hline
      simpa using hline
  · next rest =>
    subst hn
    rw [Nat.add_comm, List.drop_succ_cons, List.drop_succ_cons] at hend
    rw [Nat.add_comm, List.take_succ_cons, List.take_succ_cons]
    exact hgap.blockComment hend
  · next c rest _ _ =>
    have hc : isBlank c := by
      by_contra hc
      exact hne (hn.symm.trans (if_neg hc))
    obtain rfl : 1 = n := (if_pos hc).symm.trans hn
    exact .blank hc hgap
  · exact absurd hn.symm hne

end IsLayout

/-- What a scanner passes over is white space and comments. -/
theorem isLayout_take (cs : List Char) :
    IsLayout (cs.drop (layoutLength cs)).isEmpty (cs.take (layoutLength cs)) := by
  fun_induction layoutLength cs with
  | case1 => exact .nil
  | case2 => exact .nil
  | case3 n c rest h ih =>
    rw [List.take_add, ← List.drop_drop]
    refine ih.separator h (Nat.succ_ne_zero n) (fun d hd hline => ?_) fun hnil => ?_
    · obtain ⟨ds, hds⟩ := List.head?_eq_some_iff.1 hd
      rw [hds, layoutLength_blank (isBlank_of_endsLine hline), Nat.add_comm, List.take_succ_cons]
      rfl
    · rw [hnil]
      exact ⟨List.take_nil, by simp⟩

/-! ## Scanning -/

theorem Token.scan_ne_eof (c : Char) (rest : List Char) : (scan c rest).1 ≠ .eof := fun h =>
  (scanned_of_scan (n := (scan c rest).2) (Prod.ext h rfl) nofun).ne_eof rfl

/-- What is left of a text, and the place where it begins. -/
structure Scanner where
  place : Place
  rest : List Char

namespace Scanner

/-- The scanner at the beginning of a text. -/
def ofText (s : String) : Scanner := ⟨.start, s.toList⟩

/-- The next token, and the scanner after it; where the text has ended, `eof` comes again. -/
def next (c : Scanner) : Lexeme × Scanner :=
  let gap := layoutLength c.rest
  let start := c.place.after (c.rest.take gap)
  let newline := start.line != c.place.line
  match c.rest.drop gap with
  | [] => (⟨.eof, start, start, newline⟩, ⟨start, []⟩)
  | d :: rest =>
    let (token, n) := Token.scan d rest
    let stop := start.after (d :: rest.take n)
    (⟨token, start, stop, newline⟩, ⟨stop, rest.drop n⟩)

/-- The scanner after `n` tokens. -/
def nth (s : String) : Nat → Scanner
  | 0 => ofText s
  | n + 1 => (nth s n).next.2

/-- A scanner has passed the characters `before` of a text. -/
structure Stands (s : String) (before : List Char) (c : Scanner) : Prop where
  text : s.toList = before ++ c.rest
  place : c.place = Place.start.after before

/-- A scanner passes over `gap` and takes `taken`, which is nothing only where the text ends. -/
structure Steps (c : Scanner) (gap taken : List Char) : Prop where
  rest : c.rest = gap ++ taken ++ c.next.2.rest
  start : c.next.1.start = c.place.after gap
  stop : c.next.1.stop = c.next.1.start.after taken
  place : c.next.2.place = c.next.1.stop
  newline : c.next.1.newline = gap.contains '\n'
  layout : IsLayout (c.next.1.token = .eof) gap
  taken_eq_nil : taken = [] ↔ c.next.1.token = .eof
  rest_eq_nil : c.next.1.token = .eof → c.next.2.rest = []

section
variable {c : Scanner}

theorem next_end (h : c.rest.drop (layoutLength c.rest) = []) :
    c.next = (⟨.eof, c.place.after c.rest, c.place.after c.rest, c.rest.contains '\n'⟩,
      ⟨c.place.after c.rest, []⟩) := by
  have hrest : c.rest.take (layoutLength c.rest) = c.rest :=
    List.take_of_length_le (List.drop_eq_nil_iff.1 h)
  simp only [next, h, hrest, Place.line_after_bne]

theorem next_token {d : Char} {rest : List Char}
    (h : c.rest.drop (layoutLength c.rest) = d :: rest) :
    c.next =
      let gap := c.rest.take (layoutLength c.rest)
      let taken := d :: rest.take (Token.scan d rest).2
      (⟨(Token.scan d rest).1, c.place.after gap, (c.place.after gap).after taken,
          gap.contains '\n'⟩,
        ⟨(c.place.after gap).after taken, rest.drop (Token.scan d rest).2⟩) := by
  simp only [next, h, Place.line_after_bne]

end

theorem exists_steps (c : Scanner) : ∃ gap taken, c.Steps gap taken := by
  have hlayout := isLayout_take c.rest
  have hrest := List.take_append_drop (layoutLength c.rest) c.rest
  rcases hdrop : c.rest.drop (layoutLength c.rest) with _ | ⟨d, rest⟩
  · rw [hdrop, List.append_nil] at hrest
    rw [hdrop, hrest] at hlayout
    refine ⟨c.rest, [], ?_, ?_, ?_, ?_, ?_, ?_, ?_, ?_⟩ <;> rw [next_end hdrop]
    · simp
    · rfl
    · exact hlayout
    · simp
    · exact fun _ => rfl
  · have hne := Token.scan_ne_eof d rest
    rw [hdrop] at hlayout hrest
    refine ⟨c.rest.take (layoutLength c.rest), d :: rest.take (Token.scan d rest).2,
      ?_, ?_, ?_, ?_, ?_, ?_, ?_, ?_⟩ <;> rw [next_token hdrop]
    · simp [hrest]
    · simpa [hne] using hlayout
    · simp [hne]
    · exact fun h => absurd h hne

/-- What a scanner has passed after a step. -/
theorem Stands.next {s : String} {before gap taken : List Char} {c : Scanner}
    (h : c.Stands s before) (hc : c.Steps gap taken) :
    c.next.2.Stands s (before ++ gap ++ taken) where
  text := by
    rw [h.text, hc.rest]
    simp
  place := by rw [hc.place, hc.stop, hc.start, h.place, Place.after_append, Place.after_append]

/-- Between where a scanner stands and the next token stands what it passes over. -/
theorem Stands.slice?_gap {s : String} {before gap taken : List Char} {c : Scanner}
    (h : c.Stands s before) (hc : c.Steps gap taken) :
    slice? s c.place.offset c.next.1.start.offset = some (String.ofList gap) := by
  rw [hc.start, h.place, ← Place.after_append]
  exact slice?_after (by rw [h.text, hc.rest, List.append_assoc, List.append_assoc])

theorem exists_stands (s : String) (n : Nat) : ∃ before, (nth s n).Stands s before := by
  induction n with
  | zero => exact ⟨[], rfl, rfl⟩
  | succ n ih =>
    obtain ⟨before, hbefore⟩ := ih
    obtain ⟨gap, taken, hsteps⟩ := (nth s n).exists_steps
    exact ⟨_, hbefore.next hsteps⟩

/-- At the end of a text nothing is passed over and nothing taken. -/
theorem Steps.eq_nil {c : Scanner} {gap taken : List Char} (h : c.Steps gap taken)
    (hc : c.rest = []) : gap = [] ∧ taken = [] := by
  have hrest := h.rest
  rw [hc, eq_comm, List.append_eq_nil_iff, List.append_eq_nil_iff] at hrest
  exact hrest.1

end Scanner

/-- The tokens of a text are those that a scanner takes one after the other, up to `eof`. -/
theorem Lexeme.ofChars_eq (c : Scanner) :
    ofChars c.place c.rest =
      c.next.1 :: if c.next.1.token = .eof then [] else ofChars c.next.2.place c.next.2.rest := by
  rw [ofChars]
  split
  · next h =>
    have hrest : c.rest.take (layoutLength c.rest) = c.rest :=
      List.take_of_length_le (List.drop_eq_nil_iff.1 h)
    rw [Scanner.next_end h, hrest, Place.line_after_bne]
    rfl
  · next d rest h =>
    rw [Scanner.next_token h, if_neg (Token.scan_ne_eof d rest), Place.line_after_bne]

end Requisite.Source
