/-
  Semicolons where statements end without one.

  A semicolon that is put where a statement ends without one changes nothing:
  the text is the same program, with the same lines.  It may be put after any of
  these statements, or after several at once.

  * `withSemicolons`: a text with semicolons after some places;
  * `Lexeme.semicoloned_ofChars`: its tokens, beside those of the text;
  * `Program.ofText?_withSemicolons`: the program that it is.
-/
import Requisite.Proofs.Cutting
import Requisite.Proofs.Progress
import Requisite.Proofs.Words

namespace Requisite.Source

open Requisite

/-! ## Texts with more semicolons -/

/-- The text `cs`, which begins at `p`, with a semicolon after each character that ends at one of
    the places `here`. -/
def semicoloned (here : Place → Bool) (p : Place) : List Char → List Char
  | [] => []
  | c :: cs => c :: ((if here (p.next c) then [';'] else []) ++ semicoloned here (p.next c) cs)

/-- A text with a semicolon at each of the places `here`. -/
def withSemicolons (here : Place → Bool) (s : String) : String :=
  .ofList (semicoloned here .start s.toList)

section
variable {here : Place → Bool} {p : Place}

theorem semicoloned_append (xs ys : List Char) :
    semicoloned here p (xs ++ ys) = semicoloned here p xs ++ semicoloned here (p.after xs) ys := by
  induction xs generalizing p with
  | nil => rfl
  | cons c xs ih =>
    have hafter : p.after (c :: xs) = (p.next c).after xs := rfl
    rw [List.cons_append, semicoloned, semicoloned, ih, hafter, List.cons_append,
      List.append_assoc]

theorem lt_next (p : Place) (c : Char) : p.offset < (p.next c).offset :=
  Nat.lt_add_of_pos_right c.utf8Size_pos

/-- Characters before the first of the places. -/
theorem semicoloned_of_le {cs : List Char} (h : ∀ r, here r → r.offset ≤ p.offset) :
    semicoloned here p cs = cs := by
  induction cs generalizing p with
  | nil => rfl
  | cons c cs ih =>
    have hlt := lt_next p c
    have hc : ¬here (p.next c) := fun hhere => Nat.not_le_of_lt hlt (h _ hhere)
    rw [semicoloned, if_neg hc, ih fun r hr => Nat.le_trans (h r hr) (Nat.le_of_lt hlt)]
    rfl

/-- Characters inside of which is none of the places. -/
theorem semicoloned_of_stop {cs : List Char} (hne : cs ≠ [])
    (h : ∀ r, here r → p.offset < r.offset → (p.after cs).offset ≤ r.offset) :
    semicoloned here p cs = cs ++ if here (p.after cs) then [';'] else [] := by
  induction cs generalizing p with
  | nil => exact absurd rfl hne
  | cons c cs ih =>
    have hlt := lt_next p c
    have hafter : p.after (c :: cs) = (p.next c).after cs := rfl
    rw [hafter] at h ⊢
    cases cs with
    | nil =>
      rw [semicoloned, semicoloned, List.append_nil]
      rfl
    | cons d cs =>
      have hc : ¬here (p.next c) := fun hhere =>
        Nat.not_le_of_lt (Tiled.lt_after (List.cons_ne_nil d cs)) (h _ hhere hlt)
      rw [semicoloned, if_neg hc, ih (List.cons_ne_nil d cs) fun r hr hp =>
        h r hr (Nat.lt_trans hlt hp)]
      rfl

/-- A text from its first token on, if none of the places is before the end of the token. -/
theorem semicoloned_token {cs rest : List Char} {c : Char} {gap n : Nat} {stop : Place}
    (hcons : cs.drop gap = c :: rest) (hstop : stop = p.after (cs.take gap ++ c :: rest.take n))
    (h : ∀ r, here r → p.offset < r.offset → stop.offset ≤ r.offset) :
    semicoloned here p cs = cs.take gap ++ (c :: rest.take n ++
      ((if here stop then [';'] else []) ++ semicoloned here stop (rest.drop n))) := by
  have hcs : cs = (cs.take gap ++ c :: rest.take n) ++ rest.drop n := by
    rw [List.append_assoc, List.cons_append, List.take_append_drop, ← hcons,
      List.take_append_drop]
  conv => lhs; rw [hcs]
  rw [semicoloned_append, semicoloned_of_stop (by simp) (hstop ▸ h), ← hstop]
  simp only [List.append_assoc]

end

theorem cuts_semicoloned (here : Place → Bool) (p : Place) (cs : List Char) :
    Cuts cs (semicoloned here p cs) := by
  induction cs generalizing p with
  | nil => exact .inl rfl
  | cons c cs ih =>
    rw [semicoloned]
    split
    · exact .inr ⟨[c], cs, _, rfl, rfl, .semicolon _⟩
    · obtain h | ⟨front, back, after, hcs, h, hafter⟩ := ih (p.next c)
      · exact .inl (congrArg (c :: ·) h)
      · exact .inr ⟨c :: front, back, after, congrArg (c :: ·) hcs, congrArg (c :: ·) h, hafter⟩

/-- With a semicolon in front, if there is to be one. -/
theorem cuts_semicolon (here : Place → Bool) (p : Place) (cs : List Char) :
    Cuts cs ((if here p then [';'] else []) ++ semicoloned here p cs) := by
  split
  · exact .inr ⟨[], cs, _, rfl, rfl, .semicolon _⟩
  · exact cuts_semicoloned here p cs

/-! ## Their tokens -/

namespace Lexeme

/-- The semicolon that a text begins with. -/
theorem ofChars_semicolon (p : Place) (cs : List Char) :
    ofChars p (';' :: cs) =
      ⟨.symbol .semicolon, p, p.next ';', false⟩ :: ofChars (p.next ';') cs := by
  have hlayout : layoutLength (';' :: cs) = 0 := layoutLength_eq_zero rfl
  have hdrop : (';' :: cs).drop (layoutLength (';' :: cs)) = ';' :: cs := by rw [hlayout]; rfl
  have hcons := ofChars_cons (p := p) hdrop (show Token.scan ';' cs = (.symbol .semicolon, 0) from rfl)
  rw [hlayout] at hcons
  simpa [Place.after] using hcons

/-- Tokens of a text, and of the text with more semicolons. -/
theorem semicoloned_ofChars {here : Place → Bool} {p q : Place} {cs : List Char}
    (hline : q.line = p.line) (hvalid : ∀ l ∈ ofChars p cs, l.token ≠ .invalid)
    (hends : ∀ r, here r → p.offset < r.offset →
      ∃ l ∈ ofChars p cs, l.token ≠ .eof ∧ l.stop = r) :
    Semicoloned (fun r => here r) (ofChars p cs) (ofChars q (semicoloned here p cs)) := by
  have hlines {p q : Place} (h : q.line = p.line) (cs : List Char) :
      (q.after cs).line = (p.after cs).line := by
    rw [Place.line_after_eq, Place.line_after_eq, h]
  fun_induction ofChars p cs generalizing q with
  | case1 p cs gap start newline =>
    rename_i hnil
    have hself : semicoloned here p cs = cs := by
      refine semicoloned_of_le fun r hr => Nat.le_of_not_lt fun hlt => ?_
      obtain ⟨l, hl, heof, -⟩ := hends r hr hlt
      obtain rfl := List.mem_singleton.1 hl
      exact heof rfl
    have hstart := hlines hline (cs.take (layoutLength cs))
    rw [hself, ofChars_nil hnil]
    exact .last ⟨rfl, by rw [hstart, hline], hstart⟩
  | case2 p cs gap start newline c rest hcons t n hscan stop =>
    rename_i ih
    have hstop : stop = p.after (cs.take gap ++ c :: rest.take n) := (Place.after_append ..).symm
    have hordered := Ordered.ofChars stop (rest.drop n)
    have hbefore (r : Place) (hr : here r) (hlt : p.offset < r.offset) :
        stop.offset ≤ r.offset := by
      obtain ⟨l, hl, heof, rfl⟩ := hends r hr hlt
      rcases List.mem_cons.1 hl with rfl | hl
      · exact Nat.le_refl _
      · exact Nat.le_of_lt (hordered.lt_of_mem hl heof)
    have hvalid' := List.forall_mem_cons.1 hvalid
    have hstart := hlines hline (cs.take gap)
    have hstopLine := hlines hstart (c :: rest.take n)
    have halike : Alike ⟨t, start, stop, newline⟩ ⟨t, q.after (cs.take gap),
        (q.after (cs.take gap)).after (c :: rest.take n),
        (q.after (cs.take gap)).line != q.line⟩ := ⟨rfl, by rw [hstart, hline], hstart⟩
    have hends' (r : Place) (hr : here r) (hlt : stop.offset < r.offset) :
        ∃ l ∈ ofChars stop (rest.drop n), l.token ≠ .eof ∧ l.stop = r := by
      have hle : p.offset ≤ stop.offset := hstop ▸ Tiled.le_after p _
      obtain ⟨l, hl, heof, rfl⟩ := hends r hr (Nat.lt_of_le_of_lt hle hlt)
      rcases List.mem_cons.1 hl with rfl | hl
      · exact absurd hlt (Nat.lt_irrefl _)
      · exact ⟨l, hl, heof, rfl⟩
    rw [semicoloned_token hcons hstop hbefore,
      ofChars_cut hcons hscan hvalid'.1 (cuts_semicolon here stop _) q]
    by_cases hhere : here stop
    · rw [if_pos hhere, List.singleton_append, ofChars_semicolon]
      exact .ended hhere halike rfl (ih hstopLine hvalid'.2 hends')
    · rw [if_neg hhere, List.nil_append]
      exact .plain hhere halike (ih hstopLine hvalid'.2 hends')

end Lexeme

/-! ## Programs -/

theorem Lexeme.Semicoloned.length_le {K : Place → Prop} {ls ms : List Lexeme}
    (h : Semicoloned K ls ms) : ls.length ≤ ms.length := by
  induction h <;> simp only [List.length_cons] at * <;> omega

/-- Statements without a semicolon end where one of the tokens does. -/
theorem Program.stop_of_mem_bareEnds {s : String} {p : Program} (h : ofText? s = .ok p)
    {r : Place} (hr : r ∈ bareEnds s) :
    Place.start.offset < r.offset ∧ ∃ l ∈ Lexeme.ofText s, l.token ≠ .eof ∧ l.stop = r := by
  obtain ⟨w', hresult, -⟩ := Parser.program_ends s (Nat.le_refl _) (Nat.lt_succ_self maxDepth)
  have hfollows : FollowsAt (fun _ => False) 0 (Lexeme.ofText s).length .listing
      (Parser.ofText s).input.current.token
      (Parsing.program (Lexeme.ofText s).length (maxDepth + 1))
      (program (nested (Lexeme.ofText s).length maxDepth).statement (Lexeme.ofText s).length) :=
    program_followed (Nat.lt_succ_self maxDepth) ⟨Nat.le_refl _, Nat.le_refl _⟩ _
  have hgoes := hfollows.goes _ (Parser.at_ofText s)
  rw [bareEnds, hresult] at hr
  rw [hresult, h] at hgoes
  obtain ⟨hlt, hstops⟩ := hgoes.noted r hr nofun
  obtain rfl | hl := hstops
  · exact absurd hlt (Nat.lt_irrefl _)
  · exact ⟨hlt, Parser.lexemes_ofText s ▸ hl⟩

/-- **Semicolons that are left out mean what semicolons mean.**  Put after the last token of a
    statement that ends without one, or of several such statements, they leave the text the same
    program, the lines of its `throw`s included. -/
theorem Program.ofText?_withSemicolons {s : String} {p : Program} (h : ofText? s = .ok p)
    {here : Place → Bool} (hhere : ∀ r, here r → r ∈ bareEnds s) :
    ofText? (withSemicolons here s) = .ok p := by
  have hstops (r : Place) (hr : here r) := stop_of_mem_bareEnds h (hhere r hr)
  have hvalid : ∀ l ∈ Lexeme.ofText s, l.token ≠ .invalid := by
    intro l hl hinvalid
    have htoken := List.mem_map_of_mem (f := Lexeme.token) hl
    rw [(Lexeme.map_token_ofText s).1, hinvalid, List.mem_append] at htoken
    exact htoken.elim (tells h).valid (by simp)
  have hsemicoloned : Lexeme.Semicoloned (fun r => here r) (Lexeme.ofText s)
      (Lexeme.ofText (withSemicolons here s)) := by
    rw [Lexeme.ofText, Lexeme.ofText, withSemicolons, String.toList_ofList]
    exact Lexeme.semicoloned_ofChars rfl hvalid fun r hr _ => (hstops r hr).2
  generalize withSemicolons here s = text at hsemicoloned ⊢
  have hfollows : FollowsAt (fun r => here r) 0 (Lexeme.ofText s).length .listing
      (Parser.ofText s).input.current.token
      (Parsing.program (Lexeme.ofText s).length (maxDepth + 1))
      (program (nested (Lexeme.ofText text).length maxDepth).statement
        (Lexeme.ofText text).length) :=
    program_followed (Nat.lt_succ_self maxDepth) ⟨Nat.le_refl _, hsemicoloned.length_le⟩ _
  have hlevel : Level (fun r => here r) (.ofText s) (Parser.ofText text).input := by
    refine ⟨?_, fun hr => absurd (hstops _ hr).1 (Nat.lt_irrefl _)⟩
    rwa [Parser.lexemes_ofText, Parser.lexemes_ofText]
  have hmeets := hfollows.meets _ _ (Parser.at_ofText s) (.inl hlevel)
  obtain ⟨w', hresult, -⟩ := Parser.program_ends s (Nat.le_refl _) (Nat.lt_succ_self maxDepth)
  rw [hresult, h] at hmeets
  obtain ⟨j, hj, -⟩ := hmeets fun r hr _ => by
    have hnoted := hhere r hr
    rwa [bareEnds, hresult] at hnoted
  show StateT.run' _ (Parser.ofText text).input = _
  rw [StateT.run'_eq, hj]
  rfl

/-- Two semicolons, one before an `else`. -/
theorem Program.ofText?_withSemicolons_else :
    bareEnds "if (a) b\nelse throw c" = [⟨21, 2⟩, ⟨8, 1⟩] ∧
      withSemicolons (· ∈ bareEnds "if (a) b\nelse throw c") "if (a) b\nelse throw c" =
        "if (a) b;\nelse throw c;" ∧
      ofText? "if (a) b;\nelse throw c;" =
        .ok [.conditional (.name "a") (.expression (.name "b")) (some (.throw (.name "c") 2))] := by
  have hlexemes : Lexeme.ofText "if (a) b\nelse throw c" =
      [⟨.keyword .ifWord, ⟨0, 1⟩, ⟨2, 1⟩, false⟩, ⟨.symbol .leftParen, ⟨3, 1⟩, ⟨4, 1⟩, false⟩,
        ⟨.identifier "a", ⟨4, 1⟩, ⟨5, 1⟩, false⟩, ⟨.symbol .rightParen, ⟨5, 1⟩, ⟨6, 1⟩, false⟩,
        ⟨.identifier "b", ⟨7, 1⟩, ⟨8, 1⟩, false⟩, ⟨.keyword .elseWord, ⟨9, 2⟩, ⟨13, 2⟩, true⟩,
        ⟨.keyword .throwWord, ⟨14, 2⟩, ⟨19, 2⟩, false⟩, ⟨.identifier "c", ⟨20, 2⟩, ⟨21, 2⟩, false⟩,
        ⟨.eof, ⟨21, 2⟩, ⟨21, 2⟩, false⟩] := by
    decide +kernel
  have hends : bareEnds "if (a) b\nelse throw c" = [⟨21, 2⟩, ⟨8, 1⟩] := by decide +kernel
  have hread : ofText? "if (a) b\nelse throw c" =
      .ok [.conditional (.name "a") (.expression (.name "b")) (some (.throw (.name "c") 2))] :=
    ofText?_of_lexemes hlexemes rfl
  have htext : withSemicolons (· ∈ bareEnds "if (a) b\nelse throw c") "if (a) b\nelse throw c" =
      "if (a) b;\nelse throw c;" := by
    rw [hends]
    decide +kernel
  exact ⟨hends, htext, htext ▸ ofText?_withSemicolons hread fun r hr => of_decide_eq_true hr⟩

end Requisite.Source
