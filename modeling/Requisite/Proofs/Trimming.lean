/-
  White space at the ends of a program.

  The prompt takes white space off the ends of what is typed before it reads it.
  A token ends with a character that is no white space, so that none is lost, and a
  comment at the end of a text is a comment without the white space after it.

  * `Inked`: texts that do not end with white space;
  * `layoutLength_inked`: their comments at the end;
  * `Lexeme.ofChars_inked`: their tokens;
  * `Program.outcome_trim`: a program is the same one when it is trimmed.
-/
import Requisite.Proofs.Complete
import Requisite.Proofs.Cutting
import Requisite.Proofs.Relayout

namespace Requisite.Source

open Requisite

/-! ## The end of a text -/

/-- The text does not end with white space. -/
def Inked (cs : List Char) : Prop := ∀ c ∈ cs.getLast?, isBlank c = false

section
variable {cs ws taken rest : List Char}

theorem Inked.of_append (h : Inked (taken ++ rest)) : Inked rest := by
  intro c hc
  exact h c (by rw [List.getLast?_append, hc]; rfl)

/-- Before white space at the end, what ends with something else leaves all of the white space. -/
theorem Inked.exists_rest (h : Inked taken) (hws : ∀ c ∈ ws, isBlank c)
    (heq : taken ++ rest = cs ++ ws) : ∃ more, cs = taken ++ more ∧ rest = more ++ ws := by
  obtain ⟨more, hcs, hrest⟩ | ⟨blanks, htaken, hsplit⟩ := List.append_eq_append_iff.1 heq
  · exact ⟨more, hcs, hrest⟩
  · rcases List.eq_nil_or_concat blanks with rfl | ⟨front, c, rfl⟩
    · exact ⟨[], by simpa using htaken.symm, by simpa using hsplit.symm⟩
    · have hblank : isBlank c := hws c (by simp [hsplit])
      have hink : isBlank c = false := h c (by simp [htaken])
      exact absurd (hblank.symm.trans hink) nofun

end

/-- Tokens do not end with white space. -/
theorem Scanned.inked {c : Char} {rest : List Char} {t : Token} {n : Nat}
    (h : Scanned c rest t n) : Inked (c :: rest.take n) := by
  intro d hd
  obtain ⟨e, hlast, hblank, -⟩ := last_scanned h
  obtain rfl : e = d := Option.some.inj (hlast.symm.trans hd)
  exact hblank

/-! ## Comments at the end -/

section
variable {cs ws : List Char}

/-- A block comment that goes on to the end of a text, or further, ends with the text where that
    ends. -/
theorem blockCommentLength_eq {star : Bool}
    (h : cs.length ≤ blockCommentLength star (cs ++ ws)) :
    blockCommentLength star cs = cs.length := by
  induction cs generalizing star with
  | nil => rfl
  | cons c cs ih =>
    simp only [List.cons_append, blockCommentLength, List.length_cons] at h ⊢
    split
    · next hc =>
      rw [if_pos hc] at h
      omega
    · next hc =>
      rw [if_neg hc] at h
      rw [ih (Nat.le_of_succ_le_succ h)]

/-- A character that is no white space is no comment, whatever white space comes after it. -/
theorem separatorLength_cons_blank {c : Char} (hc : isBlank c = false)
    (hws : ∀ c ∈ ws, isBlank c) : separatorLength (c :: ws) = 0 := by
  by_cases hslash : c = '/'
  · subst hslash
    cases ws with
    | nil => rfl
    | cons w ws =>
      have hw : isBlank w := hws w List.mem_cons_self
      have hline : w ≠ '/' := ne_of_isBlank hw rfl
      have hblock : w ≠ '*' := ne_of_isBlank hw rfl
      simp [separatorLength, hline, hblock, hc]
  · exact separatorLength_eq_zero hslash hc

/-- A comment that goes on to the end of a text, or further, ends with the text where that ends. -/
theorem separatorLength_eq (hcs : Inked cs) (hne : cs ≠ []) (hws : ∀ c ∈ ws, isBlank c)
    (h : cs.length ≤ separatorLength (cs ++ ws)) : separatorLength cs = cs.length := by
  have hslash : isBlank '/' = false := rfl
  match cs with
  | [] => exact absurd rfl hne
  | [c] =>
    rw [List.singleton_append, separatorLength_cons_blank (hcs c rfl) hws] at h
    exact absurd h (Nat.not_succ_le_zero 0)
  | c :: d :: cs =>
    by_cases hc : c = '/'
    · subst hc
      by_cases hline : d = '/'
      · subst hline
        simp only [List.cons_append, separatorLength, List.length_cons] at h ⊢
        have hall : (cs.takeWhile fun c => !endsLine c).length = cs.length := by
          rw [List.takeWhile_append] at h
          split at h
          · assumption
          · have := (List.takeWhile_prefix (l := cs) fun c => !endsLine c).length_le
            omega
        omega
      by_cases hblock : d = '*'
      · subst hblock
        simp only [List.cons_append, separatorLength, List.length_cons] at h ⊢
        have := @blockCommentLength_eq cs ws false (by omega)
        omega
      · simp [separatorLength, hline, hblock, hslash] at h
    · have hone : separatorLength (c :: d :: (cs ++ ws)) ≤ 1 := by
        cases hblank : isBlank c <;> simp [separatorLength, hc, hblank]
      simp only [List.cons_append, List.length_cons] at h
      omega

/-- White space and comments that are all of a text are so without the white space at its end. -/
theorem layoutLength_inked (hcs : Inked cs) (hws : ∀ c ∈ ws, isBlank c)
    (h : (cs ++ ws).length ≤ layoutLength (cs ++ ws)) : layoutLength cs = cs.length := by
  induction hn : cs.length using Nat.strongRecOn generalizing cs with
  | ind n ih =>
    subst hn
    by_cases hne : cs = []
    · subst hne
      rw [layoutLength_eq_zero rfl]
      rfl
    cases hs : separatorLength (cs ++ ws) with
    | zero =>
      rw [layoutLength_eq_zero hs, List.length_append] at h
      exact absurd (List.length_eq_zero_iff.1 (by omega)) hne
    | succ m =>
      rw [layoutLength_succ hs, List.length_append] at h
      rcases Nat.lt_or_ge (m + 1) cs.length with hlt | hge
      · have hsame : separatorLength cs = m + 1 := by
          have := separatorLength_cut .nil (hs ▸ hlt)
          rwa [List.append_nil, hs] at this
        have hrest : Inked (cs.drop (m + 1)) :=
          @Inked.of_append (cs.take (m + 1)) _ (by rwa [List.take_append_drop])
        rw [List.drop_append_of_le_length (Nat.le_of_lt hlt)] at h
        have hlength : (cs.drop (m + 1)).length = cs.length - (m + 1) := List.length_drop
        rw [layoutLength_succ hsame, ih _ (by omega) hrest (by rw [List.length_append]; omega) rfl]
        omega
      · have hsame := separatorLength_eq hcs hne hws (hs ▸ hge)
        obtain ⟨k, hk⟩ := Nat.exists_eq_succ_of_ne_zero (mt List.length_eq_zero_iff.1 hne)
        rw [layoutLength_succ (hsame.trans hk), ← Nat.succ_eq_add_one, ← hk, List.drop_length,
          layoutLength_eq_zero rfl]
        rfl

end

/-! ## Tokens -/

namespace Lexeme

/-- The tokens of a text are those of the text with white space at its end, if they are valid. -/
theorem ofChars_inked {p : Place} {cs ws : List Char} (hcs : Inked cs) (hws : ∀ c ∈ ws, isBlank c)
    (hvalid : ∀ l ∈ ofChars p (cs ++ ws), l.token ≠ .invalid) :
    ∃ ls e f, ofChars p (cs ++ ws) = ls ++ [e] ∧ ofChars p cs = ls ++ [f] ∧ e.token = f.token := by
  induction hn : cs.length using Nat.strongRecOn generalizing p cs with
  | ind n ih =>
    subst hn
    cases hdrop : (cs ++ ws).drop (layoutLength (cs ++ ws)) with
    | nil =>
      have hlayout := layoutLength_inked hcs hws (List.drop_eq_nil_iff.1 hdrop)
      have hnil : cs.drop (layoutLength cs) = [] := by rw [hlayout, List.drop_length]
      exact ⟨[], _, _, ofChars_nil hdrop, ofChars_nil hnil, rfl⟩
    | cons c rest =>
      obtain ⟨t, m, hscan⟩ : ∃ t m, Token.scan c rest = (t, m) := ⟨_, _, rfl⟩
      obtain ⟨ht, hvalid⟩ := List.forall_mem_cons.1 (ofChars_cons hdrop hscan ▸ hvalid)
      have hsplit : (cs ++ ws).take (layoutLength (cs ++ ws)) ++ c :: rest.take m ++ rest.drop m =
          cs ++ ws := by
        rw [List.append_assoc, List.cons_append, List.take_append_drop, ← hdrop,
          List.take_append_drop]
      have hink : Inked ((cs ++ ws).take (layoutLength (cs ++ ws)) ++ c :: rest.take m) := by
        intro d hd
        rw [List.getLast?_append_cons] at hd
        exact (scanned_of_scan hscan ht).inked d hd
      obtain ⟨more, hmore, hrest⟩ := hink.exists_rest hws hsplit
      have hcut : Cuts (rest.drop m) more := .inr ⟨more, ws, [], hrest, by simp, .nil⟩
      have hcons : ofChars p (cs ++ ws) = _ :: ofChars _ (rest.drop m) := ofChars_cons hdrop hscan
      have hfirst : ofChars p (_ ++ (_ ++ more)) = _ :: ofChars _ more :=
        ofChars_cut hdrop hscan ht hcut p
      have hlt : more.length < cs.length := by
        rw [hmore, List.length_append, List.length_append, List.length_cons]
        omega
      rw [hrest] at hvalid
      obtain ⟨ls, e, f, hls, hls', hef⟩ := ih _ hlt (hmore ▸ hcs).of_append hvalid rfl
      rw [hrest, hls] at hcons
      rw [← List.append_assoc, ← hmore, hls'] at hfirst
      exact ⟨_ :: ls, e, f, hcons, hfirst, hef⟩

end Lexeme

/-! ## White space before a text -/

/-- How much is passed over does not depend on the white space before it. -/
theorem layoutLength_append {ws : List Char} (hws : ∀ c ∈ ws, isBlank c) (cs : List Char) :
    layoutLength (ws ++ cs) = ws.length + layoutLength cs := by
  induction ws with
  | nil => rw [List.nil_append, List.length_nil, Nat.zero_add]
  | cons c ws ih =>
    obtain ⟨hc, hws⟩ := List.forall_mem_cons.1 hws
    rw [List.cons_append, layoutLength_blank hc, ih hws, List.length_cons]
    omega

namespace Lexeme

/-- Which tokens are scanned, and whether there are line feeds before them, does not depend on
    where the text begins. -/
theorem ofChars_place (p q : Place) (cs : List Char) :
    (ofChars p cs).map token = (ofChars q cs).map token ∧
      (ofChars p cs).map newline = (ofChars q cs).map newline := by
  fun_induction ofChars p cs generalizing q with
  | case1 p cs gap start newline =>
    rename_i hnil
    simp [ofChars_nil hnil, newline, start, gap, Place.line_after_bne]
  | case2 p cs gap start newline c rest hcons t n hscan stop =>
    rename_i ih
    obtain ⟨htokens, hnewlines⟩ := ih ((q.after (cs.take gap)).after (c :: rest.take n))
    rw [ofChars_cons hcons hscan]
    simp [htokens, hnewlines, newline, start, gap, Place.line_after_bne]

/-- White space before a text changes nothing but where the tokens stand and the line feed before
    the first. -/
theorem ofChars_append {ws : List Char} (hws : ∀ c ∈ ws, isBlank c) (p : Place) (cs : List Char) :
    ∃ l m ls, ofChars p (ws ++ cs) = l :: ls ∧ ofChars (p.after ws) cs = m :: ls ∧
      l.token = m.token := by
  have hlayout := layoutLength_append hws cs
  have hplace : p.after ((ws ++ cs).take (layoutLength (ws ++ cs))) =
      (p.after ws).after (cs.take (layoutLength cs)) := by
    rw [hlayout, List.take_length_add_append, Place.after_append]
  cases hdrop : cs.drop (layoutLength cs) with
  | nil =>
    have hnil : (ws ++ cs).drop (layoutLength (ws ++ cs)) = [] := by
      rw [hlayout, List.drop_length_add_append, hdrop]
    exact ⟨_, _, [], ofChars_nil hnil, ofChars_nil hdrop, rfl⟩
  | cons c rest =>
    have hcons : (ws ++ cs).drop (layoutLength (ws ++ cs)) = c :: rest := by
      rw [hlayout, List.drop_length_add_append, hdrop]
    have hleft := ofChars_cons (p := p) hcons rfl
    rw [hplace] at hleft
    exact ⟨_, _, _, hleft, ofChars_cons hdrop rfl, rfl⟩

end Lexeme

/-! ## Programs -/

theorem inked_trim (cs : List Char) : Inked (trim cs) := by
  intro c hc
  rw [getLast?_trim] at hc
  simpa using List.find?_some hc

/-- A text with valid tokens only has the same tokens when it is trimmed, and line feeds between
    the same of them. -/
theorem Lexeme.ofChars_trim {cs : List Char}
    (hvalid : .invalid ∉ (ofChars .start cs).map token) :
    (ofChars .start (trim cs)).map token = (ofChars .start cs).map token ∧
      (ofChars .start (trim cs)).dropLast.tail.map newline =
        (ofChars .start cs).dropLast.tail.map newline := by
  obtain ⟨before, after, hcs, hbefore, hafter⟩ := exists_trim cs
  obtain ⟨l, m, ls, hl, hm, hlm⟩ := ofChars_append hbefore .start (trim cs ++ after)
  rw [← hcs] at hl
  have hvalid' : ∀ k ∈ ofChars (Place.start.after before) (trim cs ++ after),
      k.token ≠ .invalid := by
    rw [hl, List.map_cons, hlm, ← List.map_cons, ← hm] at hvalid
    intro k hk hinvalid
    exact hvalid (List.mem_map.2 ⟨k, hk, hinvalid⟩)
  obtain ⟨ks, e, f, hwith, hwithout, hef⟩ := ofChars_inked (inked_trim cs) hafter hvalid'
  have hplace := ofChars_place .start (Place.start.after before) (trim cs)
  have hks : m :: ls = ks ++ [e] := hm.symm.trans hwith
  constructor
  · calc (ofChars .start (trim cs)).map token
        = (ofChars (Place.start.after before) (trim cs)).map token :=
          hplace.1
      _ = (m :: ls).map token := by rw [hwithout, hks, List.map_append, List.map_append]; simp [hef]
      _ = (ofChars .start cs).map token := by rw [hl, List.map_cons, List.map_cons, hlm]
  · calc (ofChars .start (trim cs)).dropLast.tail.map newline
        = (ofChars (Place.start.after before) (trim cs)).dropLast.tail.map newline := by
          rw [List.map_tail, List.map_dropLast, hplace.2, ← List.map_dropLast, ← List.map_tail]
      _ = (m :: ls).dropLast.tail.map newline := by
          rw [hwithout, hks, List.dropLast_concat, List.dropLast_concat]
      _ = (ofChars .start cs).dropLast.tail.map newline := by
          rw [hl]
          cases ls <;> rfl

/-- **A program is the same one without the white space at its ends**, but for the lines of its
    `throw`s. -/
theorem Program.outcome_trim {s : String} {p : Program} (h : ofText? s = .ok p) :
    outcome (.ofList (trim s.toList)) = outcome s := by
  have hvalid : .invalid ∉ (Lexeme.ofText s).map Lexeme.token := by
    rw [(Lexeme.map_token_ofText s).1, List.mem_append, not_or]
    exact ⟨(tells h).valid, by decide⟩
  obtain ⟨htokens, hbreaks⟩ := Lexeme.ofChars_trim hvalid
  have htrimmed : Lexeme.ofText (.ofList (trim s.toList)) =
      Lexeme.ofChars .start (trim s.toList) := by
    rw [Lexeme.ofText, String.toList_ofList]
  refine outcome_relaid ?_ ?_
  · rw [Token.ofText, Token.ofText, htrimmed, htokens]
    rfl
  · rw [breaks_eq, breaks_eq, htrimmed, hbreaks]
    rfl

theorem Program.exists_ofText?_trim {s : String} {p : Program} (h : ofText? s = .ok p) :
    ∃ q, ofText? (.ofList (trim s.toList)) = .ok q := by
  have hsame := outcome_trim h
  simp only [outcome, h] at hsame
  cases hq : ofText? (.ofList (trim s.toList)) with
  | ok q => exact ⟨q, rfl⟩
  | error e =>
    rw [hq] at hsame
    exact nomatch hsame

end Requisite.Source
