/-
  A line in colours is the same line.

  Words and single characters are written one after the other, each as it stands
  or between sequences that set properties.  Such a sequence is one wherever it
  stands, so that dropping them could take some of the line with it.  It does not:
  the bracket after an escape of the line is written in a colour, and then there is
  something between the two.

  * `withoutSettings`: a text without the sequences that set properties;
  * `Dressed`: a text as it stands, or between such sequences;
  * `CutUp`: a line as whole words and single characters;
  * `cutUp_piecesFrom`: how the loop over a line cuts it;
  * `CutUp.withoutSettings_written`: without the sequences, the pieces are the line;
  * `highlighted_keeps_text`: both, of a line in colours.
-/
import Requisite.Prompt.Highlight

namespace Requisite.Prompt

open Requisite

/-! ## Sequences that set properties -/

/-- The length of the sequence at the beginning of a text that sets a property: an escape, a
    bracket, digits and the letter m.  It is 0 if there is none. -/
def settingLength : List Char → Nat
  | '\x1b' :: '[' :: rest =>
    let digits := rest.takeWhile Char.isDigit
    if (rest.drop digits.length).head? = some 'm' then digits.length + 3 else 0
  | _ => 0

/-- A text without the sequences that set properties, after its first `n` characters. -/
def dropSettings : Nat → List Char → List Char
  | _, [] => []
  | n + 1, _ :: rest => dropSettings n rest
  | 0, c :: rest =>
    match settingLength (c :: rest) with
    | 0 => c :: dropSettings 0 rest
    | n + 1 => dropSettings n rest

/-- A text without the sequences that set properties. -/
def withoutSettings (text : List Char) : List Char := dropSettings 0 text

/-- The sequences that set some properties. -/
def settings (ns : List Nat) : List Char := ns.flatMap fun n => (setting n).toList

/-- A text as it stands, or between sequences that set properties. -/
inductive Dressed (text : List Char) : List Char → Prop
  | plain : Dressed text text
  | wrapped {before after : List Nat} (hbefore : before ≠ []) (hafter : after ≠ []) :
    Dressed text (settings before ++ text ++ settings after)

theorem dropSettings_length_append (before rest : List Char) :
    dropSettings before.length (before ++ rest) = withoutSettings rest := by
  induction before with
  | nil => rfl
  | cons c before ih => exact ih

theorem toList_setting (n : Nat) :
    (setting n).toList = '\x1b' :: '[' :: (Nat.toDigits 10 n ++ ['m']) := by
  simp [setting]

theorem settingLength_setting (n : Nat) (rest : List Char) :
    settingLength ((setting n).toList ++ rest) = (setting n).toList.length := by
  have hdigits : (Nat.toDigits 10 n ++ ('m' :: rest)).takeWhile Char.isDigit =
      Nat.toDigits 10 n := by
    rw [List.takeWhile_append_of_pos fun c hc =>
      Nat.isDigit_of_mem_toDigits (by decide) (by decide) hc]
    simp
  rw [toList_setting]
  simp [settingLength, hdigits]

/-- A sequence at the beginning of a text is dropped. -/
theorem withoutSettings_append_of_length {before rest : List Char} (hne : before ≠ [])
    (h : settingLength (before ++ rest) = before.length) :
    withoutSettings (before ++ rest) = withoutSettings rest := by
  obtain ⟨c, before, rfl⟩ := List.exists_cons_of_ne_nil hne
  have hdrop : dropSettings 0 (c :: before ++ rest) =
      dropSettings before.length (before ++ rest) := by
    rw [List.cons_append, dropSettings, ← List.cons_append, h]
    rfl
  exact hdrop.trans (dropSettings_length_append before rest)

theorem withoutSettings_setting (n : Nat) (rest : List Char) :
    withoutSettings ((setting n).toList ++ rest) = withoutSettings rest :=
  withoutSettings_append_of_length (by simp [toList_setting]) (settingLength_setting n rest)

theorem withoutSettings_settings (ns : List Nat) (rest : List Char) :
    withoutSettings (settings ns ++ rest) = withoutSettings rest := by
  induction ns with
  | nil => rfl
  | cons n ns ih =>
    rw [settings, List.flatMap_cons, List.append_assoc, withoutSettings_setting]
    exact ih

/-- What begins no sequence stays. -/
theorem withoutSettings_cons {c : Char} {rest : List Char} (h : settingLength (c :: rest) = 0) :
    withoutSettings (c :: rest) = c :: withoutSettings rest := by
  rw [withoutSettings, dropSettings, h]
  rfl

theorem settingLength_of_ne {c : Char} (h : c ≠ '\x1b') (rest : List Char) :
    settingLength (c :: rest) = 0 := by
  rw [settingLength]
  rintro rest' ⟨⟩
  exact h rfl

/-- No sequence begins with an escape that has no bracket after it. -/
theorem settingLength_escape {rest : List Char} (h : rest.head? ≠ some '[') :
    settingLength ('\x1b' :: rest) = 0 := by
  rw [settingLength]
  rintro rest' ⟨⟩
  exact h rfl

theorem withoutSettings_append {text : List Char} (h : '\x1b' ∉ text) (rest : List Char) :
    withoutSettings (text ++ rest) = text ++ withoutSettings rest := by
  induction text with
  | nil => rfl
  | cons c text ih =>
    obtain ⟨hc, htext⟩ : '\x1b' ≠ c ∧ '\x1b' ∉ text := by simpa using h
    rw [List.cons_append, withoutSettings_cons (settingLength_of_ne hc.symm _), ih htext,
      List.cons_append]

/-! ## Pieces -/

/-- The properties that are set before a piece. -/
def Style.before : Style → List Nat
  | .plain => []
  | .coloured c => [c.code]
  | .strong c => [1, c.code]

/-- The properties that are set after a piece. -/
def Style.after : Style → List Nat
  | .plain => []
  | .coloured _ => [39]
  | .strong _ => [39, 0]

namespace Piece

theorem toList_render (p : Piece) :
    p.render.toList = settings p.style.before ++ p.text ++ settings p.style.after := by
  obtain ⟨text, style⟩ := p
  cases style <;>
    simp [render, Colour.paint, bold, Style.before, Style.after, settings]

theorem dressed_render (p : Piece) : Dressed p.text p.render.toList := by
  rw [toList_render]
  obtain ⟨text, style⟩ := p
  cases style with
  | plain => simpa [Style.before, Style.after, settings] using Dressed.plain
  | coloured c => exact .wrapped (List.cons_ne_nil _ _) (List.cons_ne_nil _ _)
  | strong c => exact .wrapped (List.cons_ne_nil _ _) (List.cons_ne_nil _ _)

/-- Of a piece without an escape the text is what stays. -/
theorem withoutSettings_render {p : Piece} (h : '\x1b' ∉ p.text) (rest : List Char) :
    withoutSettings (p.render.toList ++ rest) = p.text ++ withoutSettings rest := by
  rw [toList_render, List.append_assoc, List.append_assoc, withoutSettings_settings,
    withoutSettings_append h, withoutSettings_settings]

/-- A piece begins with a bracket only if it is plain and its text does. -/
theorem head?_render {p : Piece} (hne : p.text ≠ [])
    (h : p.style = .plain → p.text.head? ≠ some '[') (rest : List Char) :
    (p.render.toList ++ rest).head? ≠ some '[' := by
  obtain ⟨text, style⟩ := p
  obtain ⟨c, text, rfl⟩ := List.exists_cons_of_ne_nil hne
  rw [toList_render]
  cases style with
  | plain => simpa [Style.before, settings] using h rfl
  | coloured colour => simp [Style.before, settings, toList_setting]
  | strong colour => simp [Style.before, settings, toList_setting]

end Piece

/-! ## The pieces of a line -/

/-- The pieces are the words of the line and the characters between them, in order and each in its
    style.  Words are whole: after one there is no character that could belong to it. -/
inductive CutUp (command : Bool) : List Char → List Piece → Prop
  | nil : CutUp command [] []
  | mark {c : Char} {rest : List Char} {pieces : List Piece} (hc : isWordChar c = false)
    (hrest : CutUp command rest pieces) :
    CutUp command (c :: rest) (⟨[c], charStyle command c⟩ :: pieces)
  | word {text rest : List Char} {pieces : List Piece} (hne : text ≠ [])
    (htext : ∀ c ∈ text, isWordChar c) (hstop : ∀ c ∈ rest.head?, isWordChar c = false)
    (hrest : CutUp command rest pieces) :
    CutUp command (text ++ rest) (⟨text, wordStyle text⟩ :: pieces)

section
variable {command : Bool} {line word : List Char} {pieces : List Piece}

/-- A word ends where something comes after it that is cut up and does not begin with a word. -/
theorem cutUp_wordPieces (hword : ∀ c ∈ word, isWordChar c)
    (hstop : ∀ c ∈ line.head?, isWordChar c = false) (h : CutUp command line pieces) :
    CutUp command (word.reverse ++ line) (wordPieces word ++ pieces) := by
  rw [wordPieces]
  split
  next hnil => simpa [hnil] using h
  next hne =>
    have hreverse : ∀ c ∈ word.reverse, isWordChar c :=
      fun c hc => hword c (List.mem_reverse.1 hc)
    exact .word (List.reverse_ne_nil_iff.2 hne) hreverse hstop h

/-- The loop over a line cuts up what it has of a word, followed by the rest of the line. -/
theorem cutUp_piecesFrom (command : Bool) (hword : ∀ c ∈ word, isWordChar c) :
    CutUp command (word.reverse ++ line) (piecesFrom command word line) := by
  induction line generalizing word with
  | nil =>
    have hend : CutUp command [] [] := .nil
    simpa [piecesFrom] using cutUp_wordPieces hword (by simp) hend
  | cons c rest ih =>
    rw [piecesFrom]
    split
    next hc => simpa using ih (List.forall_mem_cons.2 ⟨hc, hword⟩)
    next hc =>
      -- The character ends the word, and after it the loop has nothing of a word.
      have hmark : isWordChar c = false := Bool.eq_false_iff.2 hc
      have hrest : CutUp command rest (piecesFrom command [] rest) := ih (List.forall_mem_nil _)
      exact cutUp_wordPieces hword (by simpa using hmark) (.mark hmark hrest)

theorem cutUp_highlight (line : List Char) :
    CutUp (line.head? == some '.') line (highlight line) :=
  cutUp_piecesFrom _ (List.forall_mem_nil _)

/-- No piece of a line begins with a bracket when it is written, since brackets have a colour. -/
theorem CutUp.head?_written (h : CutUp command line pieces) :
    (pieces.flatMap fun p => p.render.toList).head? ≠ some '[' := by
  cases h with
  | nil => nofun
  | @mark c rest pieces hc hrest =>
    refine Piece.head?_render (List.cons_ne_nil _ _) (fun hplain => ?_) _
    rintro ⟨⟩
    have hyellow : charStyle command '[' = .coloured .yellow := by cases command <;> decide
    exact Style.noConfusion (hyellow.symm.trans hplain)
  | @word text rest pieces hne htext hstop hrest =>
    refine Piece.head?_render hne (fun _ hhead => ?_) _
    exact absurd (htext '[' (List.mem_of_mem_head? hhead)) (by decide)

/-- **Without the sequences, the pieces are the line.**  An escape of the line is a piece that
    stands for itself, and the piece after it does not make a sequence of it. -/
theorem CutUp.withoutSettings_written (h : CutUp command line pieces) :
    withoutSettings (pieces.flatMap fun p => p.render.toList) = line := by
  induction h with
  | nil => rfl
  | @mark c rest pieces hc hrest ih =>
    rw [List.flatMap_cons]
    by_cases hescape : c = '\x1b'
    · subst hescape
      have hplain : charStyle command '\x1b' = .plain := by cases command <;> decide
      rw [hplain, Piece.toList_render]
      exact (withoutSettings_cons (settingLength_escape hrest.head?_written)).trans
        (congrArg _ ih)
    · rw [Piece.withoutSettings_render (by simpa using Ne.symm hescape), ih]
      rfl
  | @word text rest pieces hne htext hstop hrest ih =>
    have hescape : '\x1b' ∉ text := fun hmem => absurd (htext _ hmem) (by decide)
    rw [List.flatMap_cons, Piece.withoutSettings_render hescape, ih]

end

/-! ## A line in colours -/

/-- **A line in colours is the same line.**  What is written are the whole words and the single
    characters of the line, in order, each as it stands or between sequences that set properties.
    Without such sequences what is written is the line, whether or not there are some in it. -/
theorem highlighted_keeps_text (line : String) :
    (∃ pieces, CutUp (line.toList.head? == some '.') line.toList pieces ∧
      pieces.flatMap Piece.text = line.toList ∧
      highlighted line = String.join (pieces.map Piece.render) ∧
      ∀ p ∈ pieces, Dressed p.text p.render.toList) ∧
    withoutSettings (highlighted line).toList = line.toList := by
  have hcut := cutUp_highlight line.toList
  refine ⟨⟨highlight line.toList, hcut, flatten_highlight _, rfl,
    fun p _ => p.dressed_render⟩, ?_⟩
  rw [highlighted, String.toList_join, List.flatMap_map]
  exact hcut.withoutSettings_written

/-- The sequence in this line would be taken, but it is none any more in the line in colours. -/
example : withoutSettings "\x1b[1mif".toList = "if".toList ∧
    highlighted "\x1b[1mif" = "\x1b\x1b[33m[\x1b[39m1mif" := by
  decide +kernel

end Requisite.Prompt
