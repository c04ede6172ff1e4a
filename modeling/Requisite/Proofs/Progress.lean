/-
  A parser comes to an end.

  Whatever the text, and wherever in it a call of a reader begins, the call ends
  with an answer or with a syntax error.  With an answer it has taken a token; in
  both cases the depth is as before.

  * `Lexeme.ofChars_induction`: what holds of the tokens of a text, token by token;
  * `Parser.Within`: the states that a parser of a text can be in;
  * `Parser.Ends`: how a call ends;
  * `Parser.calls_end`: so do all of them.
-/
import Requisite.Proofs.Followed
import Requisite.Proofs.Spans

namespace Requisite.Source

/-! ## Tokens of a text -/

/-- Induction on the tokens of a text, by the steps of a scanner. -/
theorem Lexeme.ofChars_induction {motive : Scanner → List Lexeme → Prop}
    (eof : ∀ c : Scanner, c.next.1.token = .eof → motive c [c.next.1])
    (token : ∀ (c : Scanner) (gap taken : List Char), c.Steps gap taken → c.next.1.token ≠ .eof →
      motive c.next.2 (ofChars c.next.2.place c.next.2.rest) →
      motive c (c.next.1 :: ofChars c.next.2.place c.next.2.rest)) (c : Scanner) :
    motive c (ofChars c.place c.rest) := by
  induction hn : c.rest.length using Nat.strong_induction_on generalizing c with
  | _ n ih =>
    obtain ⟨gap, taken, hsteps⟩ := c.exists_steps
    rw [ofChars_eq]
    split
    · next heof => exact eof c heof
    · next heof =>
      refine token c gap taken hsteps heof (ih _ ?_ _ rfl)
      have hpos := List.length_pos_iff.2 (mt hsteps.taken_eq_nil.1 heof)
      have hrest := congrArg List.length hsteps.rest
      simp only [List.length_append] at hrest
      omega

namespace Lexeme.Ordered

/-- The tokens of a text stand in order. -/
theorem ofChars (p : Place) (cs : List Char) : Ordered p (ofChars p cs) := by
  refine ofChars_induction (motive := fun c ls => Ordered c.place ls) (fun c heof => .eof heof)
    (fun c gap taken hsteps heof ih => .cons heof ?_ ?_) ⟨p, cs⟩
  · rw [hsteps.stop, hsteps.start]
    exact Nat.lt_of_le_of_lt (Tiled.le_after c.place gap)
      (Tiled.lt_after (mt hsteps.taken_eq_nil.1 heof))
  · rwa [← hsteps.place]

/-- What begins at a place stops after it. -/
theorem lt_of_mem {p : Place} {ls : List Lexeme} (h : Ordered p ls) {l : Lexeme} (hl : l ∈ ls)
    (heof : l.token ≠ .eof) : p.offset < l.stop.offset := by
  induction h with
  | eof h =>
    obtain rfl := List.mem_singleton.1 hl
    exact absurd h heof
  | cons _ hlt _ ih =>
    rcases List.mem_cons.1 hl with rfl | hl
    · exact hlt
    · exact Nat.lt_trans hlt (ih hl)

/-- What is left after some of the tokens stands in order too. -/
theorem of_append {ls ms : List Lexeme} {previous : Lexeme}
    (h : Ordered previous.stop (ls ++ ms)) (hms : ms ≠ []) :
    Ordered (ls.getLast?.getD previous).stop ms := by
  induction ls generalizing previous with
  | nil => exact h
  | cons l ls ih =>
    rw [List.getLast?_cons, Option.getD_some]
    rw [List.cons_append] at h
    generalize hrest : ls ++ ms = rest at *
    cases h with
    | eof => exact absurd (List.append_eq_nil_iff.1 hrest).2 hms
    | cons _ _ h => exact ih h

end Lexeme.Ordered

/-- With no places for semicolons, tokens are like themselves. -/
theorem Lexeme.Semicoloned.refl (l : Lexeme) (ls : List Lexeme) :
    Semicoloned (fun _ => False) (l :: ls) (l :: ls) := by
  induction ls generalizing l with
  | nil => exact .last (.refl l)
  | cons l' ls ih => exact .plain not_false (.refl l) (ih l')

/-! ## States -/

namespace Parser

/-- The states of a parser of the text `s`: it has passed some of the tokens, nests no deeper than
    it may and never did, and has noted ends of statements where it has been. -/
structure Within (s : String) (w : Parser) : Prop where
  passed : ∃ ls, Lexeme.ofText s = ls ++ w.input.lexemes ∧
    w.previous = ls.getLast?.getD (ofText s).previous
  depth_le : w.depth ≤ maxDepth
  deepest_le : w.deepest ≤ maxDepth
  bareEnds : ∀ p ∈ w.bareEnds, p.offset ≤ w.previous.stop.offset

variable {s : String} {w w' : Parser}

theorem lexemes_ofText (s : String) : (ofText s).input.lexemes = Lexeme.ofText s := by
  rw [ofText, ofLexemes]
  cases h : Lexeme.ofText s with
  | nil =>
    have hordered := Lexeme.Ordered.ofChars .start s.toList
    rw [Lexeme.ofText] at h
    rw [h] at hordered
    cases hordered
  | cons l ls => rfl

theorem within_ofText (s : String) : (ofText s).Within s where
  passed := ⟨[], (lexemes_ofText s).symm, rfl⟩
  depth_le := Nat.zero_le _
  deepest_le := Nat.zero_le _
  bareEnds := nofun

namespace Within

theorem ordered (hw : w.Within s) : w.Ordered := by
  obtain ⟨ls, hls, hprevious⟩ := hw.passed
  refine ⟨?_, hw.bareEnds⟩
  rw [hprevious]
  exact Lexeme.Ordered.of_append (hls ▸ .ofChars .start s.toList) nofun

theorem short (hw : w.Within s) : w.input.rest.length < (Lexeme.ofText s).length := by
  obtain ⟨ls, hls, -⟩ := hw.passed
  rw [hls, List.length_append, Input.lexemes, List.length_cons]
  omega

theorem onward {m : Manner} (hw : w.Within s) (h : w.Onward m w') : w'.Within s where
  passed := by
    obtain ⟨ls, hls, hprevious⟩ := hw.passed
    obtain ⟨ls', hls', -, hprevious'⟩ := h.passed
    refine ⟨ls ++ ls', by rw [hls, hls', List.append_assoc], ?_⟩
    rw [hprevious', hprevious, List.getLast?_append, Option.getD_or]
  depth_le := h.depth ▸ hw.depth_le
  deepest_le := Nat.le_trans h.deepest (Nat.max_le.2 ⟨hw.deepest_le, Nat.le_refl _⟩)
  bareEnds := h.ordered.bareEnds

end Within

/-! ## Calls -/

/-- How a call ends that begins in the state `w`: with an answer after a token at least, or with a
    syntax error.  The reader `p`, which keeps no account, says the same. -/
inductive Ends {α : Type} (s : String) (w : Parser) (p : Parse α) :
    Except Halt α × Parser → Prop
  | answer {a : α} {w' : Parser} {taken : List Lexeme}
    (htaken : w.input.lexemes = taken ++ w'.input.lexemes) (hne : taken ≠ [])
    (hdepth : w'.depth = w.depth) (hwithin : w'.Within s) (hsame : p.run' w.input = .ok a) :
    Ends s w p (.ok a, w')
  | error {e : SyntaxError} {w' : Parser} (hdepth : w'.depth = w.depth) (hwithin : w'.Within s)
    (hsame : p.run' w.input = .error e) : Ends s w p (.error (.error e), w')

theorem level (w : Parser) : Level (fun _ => False) w w.input := ⟨.refl _ _, False.elim⟩

/-- With no places for semicolons, a reader that follows a parser gives the same answers. -/
theorem run'_eq {α : Type} {m : Manner} {p : Parse α} {a : α}
    (h : Meets (fun _ => False) m (.ok a, w') (p.run w.input)) : p.run' w.input = .ok a := by
  obtain ⟨i, hi, -⟩ := h (by cases m <;> exact fun _ => False.elim)
  rw [StateT.run'_eq, hi]
  rfl

theorem Within.ends {α : Type} {k : Nat} {c : Parsing α} {p : Parse α} (hw : w.Within s)
    (h : Follows (fun _ => False) w.depth k .taking c p) (hk : (Lexeme.ofText s).length ≤ k) :
    Ends s w p (c.result w) := by
  have hat : w.At w.depth k w.input.current.token :=
    ⟨hw.ordered, rfl, Nat.lt_of_lt_of_le hw.short hk, rfl⟩
  have hgoes := (h _).goes w hat
  have hmeets := (h _).meets w w.input hat (.inl w.level)
  generalize c.result w = o at hgoes hmeets ⊢
  obtain ⟨(e | _) | a, w'⟩ := o
  · refine .error hgoes.depth (hw.onward hgoes) ?_
    rw [StateT.run'_eq, hmeets fun _ => id]
    rfl
  · exact hgoes.elim
  · obtain ⟨taken, htaken, -⟩ := hgoes.passed
    refine .answer htaken ?_ hgoes.depth (hw.onward hgoes) (run'_eq hmeets)
    rintro rfl
    have := (hgoes.taken rfl).1
    have := congrArg List.length htaken
    simp [Input.lexemes] at this
    omega

theorem at_ofText (s : String) :
    (ofText s).At 0 (Lexeme.ofText s).length (ofText s).input.current.token :=
  ⟨(within_ofText s).ordered, rfl, (within_ofText s).short, rfl⟩

/-- A whole program is read to its end, or up to an error. -/
theorem program_ends (s : String) {limit levels : Nat}
    (hlimit : (Lexeme.ofText s).length ≤ limit) (hlevels : maxDepth < levels) :
    ∃ w', (Parsing.program limit levels).result (ofText s) =
      ((Program.ofText? s).mapError .error, w') ∧ w'.Within s ∧ w'.depth = 0 := by
  have hw := within_ofText s
  have h : FollowsAt (fun _ => False) 0 (Lexeme.ofText s).length .listing
      (ofText s).input.current.token (Parsing.program limit levels)
      (program (nested (Lexeme.ofText s).length maxDepth).statement (Lexeme.ofText s).length) :=
    program_followed hlevels ⟨hlimit, Nat.le_refl _⟩ _
  have hgoes := h.goes _ (at_ofText s)
  have hmeets := h.meets _ _ (at_ofText s) (.inl (level _))
  have hsame : Program.ofText? s = (program (nested (Lexeme.ofText s).length maxDepth).statement
    (Lexeme.ofText s).length).run' (ofText s).input := rfl
  rw [hsame]
  generalize Parsing.result _ (ofText s) = o at hgoes hmeets ⊢
  obtain ⟨(e | _) | a, w'⟩ := o
  · refine ⟨w', ?_, hw.onward hgoes, hgoes.depth⟩
    rw [StateT.run'_eq, hmeets fun _ => id]
    rfl
  · exact hgoes.elim
  · exact ⟨w', by rw [run'_eq hmeets]; rfl, hw.onward hgoes, hgoes.depth⟩

/-- **A parser comes to an end**, and fails cleanly.  In each state that it can be in, which is one
    such state after the other, a call that reads a statement or an expression gives an answer
    and takes a token at least, or it fails with a syntax error.  It does not run out of steps or
    levels, if there are as many steps as tokens and more levels than constructs may nest.  The
    depth after it is that before it, and never more than `maxDepth`.  Therefore whole programs
    are read to the end, or up to an error, with the outcome that the text has. -/
theorem calls_end (s : String) {limit levels : Nat} (hlimit : (Lexeme.ofText s).length ≤ limit)
    (hlevels : maxDepth < levels) :
    (ofText s).Within s ∧
      (∀ w : Parser, w.Within s →
        Ends s w (nested limit (maxDepth - w.depth)).statement
          ((parsers limit levels).statement.result w) ∧
        Ends s w (nested limit (maxDepth - w.depth)).assignment
          ((parsers limit levels).assignment.result w)) ∧
      ∃ w', (Parsing.program limit levels).result (ofText s) =
        ((Program.ofText? s).mapError .error, w') ∧ w'.Within s ∧ w'.depth = 0 := by
  refine ⟨within_ofText s, fun w hw => ?_, program_ends s hlimit hlevels⟩
  have hd : w.depth + (maxDepth - w.depth) = maxDepth := by
    have := hw.depth_le
    omega
  have hfollowed : (parsers limit levels).Followed (fun _ => False) w.depth limit
      (nested limit (maxDepth - w.depth)) :=
    parsers_followed hd (by omega) ⟨Nat.le_refl _, Nat.le_refl _⟩
  exact ⟨hw.ends hfollowed.statement hlimit, hw.ends hfollowed.assignment hlimit⟩

/-- A call whose argument list is not closed. -/
theorem calls_end_unclosed :
    (Lexeme.ofText "f((").length ≤ 4 ∧ maxDepth < 129 ∧ (ofText "f((").Within "f((" ∧
      Ends "f((" (ofText "f((") (nested 4 maxDepth).statement
        ((parsers 4 129).statement.result (ofText "f((")) := by
  have hlimit : (Lexeme.ofText "f((").length ≤ 4 := by decide +kernel
  have h := calls_end "f((" hlimit (by decide : maxDepth < 129)
  exact ⟨hlimit, by decide, h.1, (h.2.1 _ h.1).1⟩

end Parser

end Requisite.Source
