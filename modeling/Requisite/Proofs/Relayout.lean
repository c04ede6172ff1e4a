/-
  Two layouts of the same tokens.

  White space and comments tell the grammar nothing but where new lines begin: of
  two texts with the same tokens, and with line feeds between the same of them,
  the trees are the same but for lines, or the errors are.

  * `breaks`: where line feeds stand between the tokens of a text;
  * `Relaid`: inputs that differ in places only;
  * `Program.outcome`: what a text is, but for lines;
  * `Program.outcome_relaid`: the outcome depends on the tokens of the text and
    the line feeds between them.
-/
import Requisite.Proofs.Lockstep
import Requisite.Proofs.Tiling
import Mathlib.Data.List.Chain

namespace Requisite.Source

open Requisite

/-! ## Line feeds -/

/-- Whether a line feed stands between two tokens of a text. -/
def breakBetween (s : String) (l m : Lexeme) : Bool :=
  (slice? s l.stop.offset m.start.offset).any fun gap => gap.toList.contains '\n'

/-- For each token of a text but the first, whether a line feed stands between the token before
    and it. -/
def breaks (s : String) : List Bool :=
  let ls := (Lexeme.ofText s).dropLast
  ls.zipWith (breakBetween s) ls.tail

/-- The tokens that scanners take know of the line feeds before them. -/
theorem isChain_ofChars {s : String} {before : List Char} {c : Scanner} (h : c.Stands s before) :
    (Lexeme.ofChars c.place c.rest).IsChain fun l m => m.newline = breakBetween s l m := by
  induction hn : c.rest.length using Nat.strong_induction_on generalizing before c with
  | _ n ih =>
    obtain ⟨gap, taken, hc⟩ := c.exists_steps
    rw [Lexeme.ofChars_eq]
    split
    · exact .singleton _
    · next heof =>
      have hnext := h.next hc
      have hlength : c.next.2.rest.length < n := by
        have hpos := List.length_pos_iff.2 (mt hc.taken_eq_nil.1 heof)
        have hrest := congrArg List.length hc.rest
        simp only [List.length_append] at hrest
        omega
      have hchain := ih _ hlength hnext rfl
      obtain ⟨gap', taken', hc'⟩ := c.next.2.exists_steps
      rw [Lexeme.ofChars_eq] at hchain ⊢
      refine List.isChain_cons_cons.2 ⟨?_, hchain⟩
      rw [breakBetween, ← hc.place, hnext.slice?_gap hc', hc'.newline]
      simp

theorem zipWith_breakBetween {s : String} {ls : List Lexeme}
    (h : ls.IsChain fun l m => m.newline = breakBetween s l m) :
    ls.zipWith (breakBetween s) ls.tail = ls.tail.map Lexeme.newline := by
  induction h with
  | nil => rfl
  | singleton => rfl
  | cons_cons hlm _ ih =>
    rw [List.tail_cons, List.zipWith_cons_cons, List.map_cons, hlm]
    exact congrArg _ ih

theorem breaks_eq (s : String) : breaks s = (Lexeme.ofText s).dropLast.tail.map Lexeme.newline := by
  have h : (Lexeme.ofText s).IsChain fun l m => m.newline = breakBetween s l m :=
    isChain_ofChars (c := .ofText s) ⟨(List.nil_append _).symm, rfl⟩
  exact zipWith_breakBetween h.dropLast

/-! ## Inputs -/

/-- Inputs with the same tokens, where new lines begin before the same of those after the token at
    hand, and if `settled` before the token at hand too.  Before `eof` it does not matter. -/
structure Relaid (settled : Bool) (i j : Input) : Prop where
  holds : ∃ ts, i.Holds ts ∧ j.Holds ts
  newline_eq : settled → i.current.token ≠ .eof → i.current.newline = j.current.newline
  rest : List.Forall₂ (fun l m => l.token ≠ .eof → l.newline = m.newline) i.rest j.rest

namespace Relaid

variable {settled : Bool} {i j : Input}

theorem token_eq (h : Relaid settled i j) : i.current.token = j.current.token := by
  obtain ⟨ts, hi, hj⟩ := h.holds
  exact (List.cons.inj (hi.trans hj.symm)).1

theorem next (h : Relaid settled i j) (ht : i.current.token ≠ .eof) :
    Relaid true i.next j.next := by
  obtain ⟨ts, hi, hj⟩ := h.holds
  obtain ⟨us, rfl, hinext⟩ := hi.eq_cons ht
  obtain ⟨vs, hvs, hjnext⟩ := hj.eq_cons (h.token_eq ▸ ht)
  obtain rfl : us = vs := (List.cons.inj hvs).2
  obtain ⟨current, rest⟩ := i
  obtain ⟨current', rest'⟩ := j
  cases h.rest with
  | nil => simp [Input.Holds] at hi
  | cons hlm hrest => exact ⟨⟨us, hinext, hjnext⟩, fun _ => hlm, hrest⟩

end Relaid

/-- Readers keep inputs that differ in places only; so do the errors. -/
def relaid : Lockstep where
  inputs := Relaid
  errors e f := e.complaint = f.complaint
  unsettled h := { h with newline_eq := nofun }
  token_eq := Relaid.token_eq
  newline_eq h := h.newline_eq rfl
  next := Relaid.next
  fail _ _ := rfl

/-- Texts with the same tokens, and line feeds between the same of them. -/
theorem relaid_ofText {s t : String} (htokens : Token.ofText s = Token.ofText t)
    (hbreaks : breaks s = breaks t) :
    Relaid false (.ofLexemes (Lexeme.ofText s)) (.ofLexemes (Lexeme.ofText t)) := by
  have hs := (Lexeme.map_token_ofText s).1
  have ht := (Lexeme.map_token_ofText t).1
  rw [← htokens] at ht
  refine ⟨⟨_, Input.holds_ofLexemes hs, Input.holds_ofLexemes ht⟩, nofun, ?_⟩
  obtain ⟨ls, es, hls, hlsTokens, hes⟩ := List.map_eq_append_iff.1 hs
  obtain ⟨ms, fs, hms, hmsTokens, hfs⟩ := List.map_eq_append_iff.1 ht
  obtain ⟨e, rfl, heof⟩ := List.map_eq_singleton_iff.1 hes
  obtain ⟨f, rfl, -⟩ := List.map_eq_singleton_iff.1 hfs
  rw [breaks_eq, breaks_eq, hls, hms, List.dropLast_concat, List.dropLast_concat] at hbreaks
  rw [hls, hms]
  cases ls with
  | nil =>
    obtain rfl : ms = [] := List.map_eq_nil_iff.1 (hmsTokens.trans hlsTokens.symm)
    exact .nil
  | cons l ls =>
    cases ms with
    | nil => exact nomatch hmsTokens.trans hlsTokens.symm
    | cons m ms =>
      have hnewline : List.Forall₂ (fun l m : Lexeme => l.newline = m.newline) ls ms := by
        rw [← List.forall₂_map_right_iff, ← List.forall₂_map_left_iff, List.forall₂_eq_eq_eq]
        exact hbreaks
      have hrest : List.Forall₂ (fun l m : Lexeme => l.token ≠ .eof → l.newline = m.newline)
          ls ms := by
        refine hnewline.imp ?_
        intro l m hlm _
        exact hlm
      exact List.rel_append hrest (.cons (fun he => absurd heof he) .nil)

/-! ## Programs -/

/-- What a text is, but for lines: a program, or a complaint. -/
def Program.outcome (s : String) : Except Complaint Program :=
  ((ofText? s).map (onLine 1)).mapError SyntaxError.complaint

/-- **Layout does not change the tree**: texts with the same tokens, and with line feeds between
    the same of them, are the same program but for the lines of its `throw`s, or have the same
    complaint.  Where else there is white space, which, and where comments stand does not matter;
    nor does what comes before the first token or after the last one. -/
theorem Program.outcome_relaid {s t : String} (htokens : Token.ofText s = Token.ofText t)
    (hbreaks : breaks s = breaks t) : outcome s = outcome t := by
  have hlength : (Lexeme.ofText s).length = (Lexeme.ofText t).length := by
    have hs := congrArg List.length (Lexeme.map_token_ofText s).1
    have ht := congrArg List.length (Lexeme.map_token_ofText t).1
    rw [List.length_map, htokens] at hs
    rw [List.length_map] at ht
    exact hs.trans ht.symm
  have hread := relaid.program
    (relaid.nested (Lexeme.ofText s).length maxDepth).statement (Lexeme.ofText s).length false
    _ _ _ (relaid_ofText htokens hbreaks) rfl
  unfold outcome ofText? ofLexemes?
  rw [StateT.run'_eq, StateT.run'_eq, ← hlength]
  generalize StateT.run _ (Input.ofLexemes (Lexeme.ofText s)) = r at hread ⊢
  generalize StateT.run _ (Input.ofLexemes (Lexeme.ofText t)) = r' at hread ⊢
  cases hread with
  | ok hkey _ => exact congrArg Except.ok hkey
  | error he => exact congrArg Except.error he

/-- Two layouts of two names, the second with a comment that is not closed. -/
theorem Program.outcome_relaid_commented :
    Token.ofText "a // b\nc" = Token.ofText " a\n/* x */\tc /* y" ∧
      breaks "a // b\nc" = breaks " a\n/* x */\tc /* y" ∧
      outcome "a // b\nc" = outcome " a\n/* x */\tc /* y" := by
  have htokens : Token.ofText "a // b\nc" = Token.ofText " a\n/* x */\tc /* y" := by
    decide +kernel
  have hbreaks : breaks "a // b\nc" = breaks " a\n/* x */\tc /* y" := by decide +kernel
  exact ⟨htokens, hbreaks, outcome_relaid htokens hbreaks⟩

end Requisite.Source
