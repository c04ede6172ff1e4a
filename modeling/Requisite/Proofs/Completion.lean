/-
  Completion at the cursor.

  A line is cut at byte positions: the word at the cursor begins one byte after the
  start of the last delimiter, and what is missing of a known word begins after as
  many bytes as the word has.  The second cut always falls between characters, the
  first one if the delimiter is one byte long.

  * `LongestWord`: the longest end of a text that consists of parts of words;
  * `currentWord?_delimited`: where the word after a delimiter is cut out;
  * `candidate?_append`: what is missing of a known word can be cut out;
  * `completion_offers`: what is offered after a delimiter of one byte;
  * `completion_withheld`: nothing is offered for no word, and nothing can be cut after
    a longer delimiter.
-/
import Mathlib.Data.List.TakeWhile
import Requisite.Prompt.Words

namespace Requisite.Prompt

open Requisite

/-! ## The word at the cursor -/

/-- The last character of a text that is no part of a word. -/
def lastDelimiter? (before : List Char) : Option Char :=
  before.reverse.find? fun c => !isWordPart c

/-- The word is an end of the text and consists of parts of words, and every other such end is an
    end of the word. -/
structure LongestWord (before word : List Char) : Prop where
  ends : word <:+ before
  parts : ∀ c ∈ word, isWordPart c
  longest : ∀ other, other <:+ before → (∀ c ∈ other, isWordPart c) → other <:+ word

section
variable {earlier word : List Char} {d : Char}

/-- A text is a word, or a delimiter is before the word at its end. -/
theorem exists_word (before : List Char) :
    ∃ word, (∀ c ∈ word, isWordPart c) ∧
      (before = word ∨ ∃ earlier d, before = earlier ++ d :: word ∧ isWordPart d = false) := by
  have hall : ∀ c ∈ before.reverse.takeWhile isWordPart, isWordPart c :=
    fun c hc => List.mem_takeWhile_imp hc
  have hsplit : before.reverse.takeWhile isWordPart ++ before.reverse.dropWhile isWordPart =
    before.reverse := List.takeWhile_append_dropWhile
  refine ⟨(before.reverse.takeWhile isWordPart).reverse,
    fun c hc => hall c (List.mem_reverse.1 hc), ?_⟩
  cases hrest : before.reverse.dropWhile isWordPart with
  | nil =>
    rw [hrest, List.append_nil] at hsplit
    exact .inl (by rw [hsplit, List.reverse_reverse])
  | cons d earlier =>
    rw [hrest] at hsplit
    refine .inr ⟨earlier.reverse, d, ?_, ?_⟩
    · have := congrArg List.reverse hsplit
      simpa using this.symm
    · have hd := List.head_dropWhile_not isWordPart (l := before.reverse) (by simp [hrest])
      simpa [hrest] using hd

theorem LongestWord.self (hword : ∀ c ∈ word, isWordPart c) : LongestWord word word :=
  ⟨List.suffix_rfl, hword, fun _ hother _ => hother⟩

/-- No longer end consists of parts of words, since it would contain the delimiter. -/
theorem LongestWord.delimited (hword : ∀ c ∈ word, isWordPart c) (hd : isWordPart d = false) :
    LongestWord (earlier ++ d :: word) word where
  ends := ⟨earlier ++ [d], by simp⟩
  parts := hword
  longest other hother hparts := by
    have hends : d :: word <:+ earlier ++ d :: word := List.suffix_append ..
    rcases Nat.lt_or_ge word.length other.length with hlonger | hshorter
    · have hwithin : d :: word <:+ other := List.suffix_of_suffix_length_le hends hother hlonger
      have := hparts d (hwithin.subset List.mem_cons_self)
      simp [hd] at this
    · exact List.suffix_of_suffix_length_le hother ((List.suffix_cons d word).trans hends) hshorter

theorem lastDelimiter?_delimited (hword : ∀ c ∈ word, isWordPart c) (hd : isWordPart d = false) :
    lastDelimiter? (earlier ++ d :: word) = some d := by
  have hnone : word.reverse.find? (fun c => !isWordPart c) = none := by simpa using hword
  simp [lastDelimiter?, List.find?_append, hnone, hd]

theorem lastDelimiterAt?_word (hword : ∀ c ∈ word, isWordPart c) : lastDelimiterAt? word = none := by
  have hnil : word.reverse.dropWhile isWordPart = [] :=
    List.dropWhile_eq_nil_iff.2 fun c hc => hword c (List.mem_reverse.1 hc)
  rw [lastDelimiterAt?, hnil]

theorem lastDelimiterAt?_delimited (hword : ∀ c ∈ word, isWordPart c) (hd : isWordPart d = false) :
    lastDelimiterAt? (earlier ++ d :: word) = some (byteSize earlier) := by
  have hrest : (earlier ++ d :: word).reverse.dropWhile isWordPart = d :: earlier.reverse := by
    rw [List.reverse_append, List.reverse_cons, List.append_assoc,
      List.dropWhile_append_of_pos (by simpa using hword), List.singleton_append,
      List.dropWhile_cons_of_neg (by simp [hd])]
  simp only [lastDelimiterAt?, hrest, List.reverse_reverse]

theorem currentWord?_word (hword : ∀ c ∈ word, isWordPart c) :
    currentWord? word = some (0, word) := by
  simp [currentWord?, lastDelimiterAt?_word hword, dropBytes?]

/-- The word after a delimiter is cut out one byte after the delimiter's start, which only is a
    place between characters if the delimiter has no more bytes. -/
theorem currentWord?_delimited (hword : ∀ c ∈ word, isWordPart c) (hd : isWordPart d = false) :
    currentWord? (earlier ++ d :: word) =
      if d.utf8Size = 1 then some (byteSize earlier + 1, word) else none := by
  have hcut := dropBytes?_byteSize earlier (d :: word) 1
  have hsize := d.utf8Size_pos
  rw [dropBytes?] at hcut
  simp only [currentWord?, lastDelimiterAt?_delimited hword hd, hcut]
  by_cases hone : d.utf8Size = 1
  · simp [hone, dropBytes?]
  · rw [if_neg (by omega), if_neg hone, Option.map_none]

end

/-- After a delimiter of one byte, the longest word is what is cut out, from where it starts. -/
theorem exists_currentWord? {before : List Char}
    (h : ∀ d ∈ lastDelimiter? before, d.utf8Size = 1) :
    ∃ earlier word, before = earlier ++ word ∧ LongestWord before word ∧
      currentWord? before = some (byteSize earlier, word) := by
  obtain ⟨word, hword, hwhole | ⟨earlier, d, rfl, hd⟩⟩ := exists_word before
  · subst hwhole
    exact ⟨[], before, rfl, .self hword, currentWord?_word hword⟩
  · have hone : d.utf8Size = 1 := h d (lastDelimiter?_delimited hword hd)
    refine ⟨earlier ++ [d], word, by simp, .delimited hword hd, ?_⟩
    rw [currentWord?_delimited hword hd, if_pos hone, byteSize_append, byteSize, byteSize, hone]

/-! ## Candidates -/

/-- What is missing of a word can be cut out of it. -/
theorem candidate?_append {word missing : List Char} {w : String} (h : w.toList = word ++ missing) :
    candidate? word w = some ⟨w, String.ofList missing⟩ := by
  have hcut := dropBytes?_byteSize word missing 0
  rw [Nat.add_zero, dropBytes?] at hcut
  rw [candidate?, h, hcut, Option.map_some]

/-- The candidates are the known words that begin with what is typed, all of them in order, and
    with what is missing put after it each is its word. -/
structure Offered (word : List Char) (cs : List Candidate) : Prop where
  words : cs.map Candidate.word = knownWords.filter fun w => word.isPrefixOf w.toList
  completes : ∀ c ∈ cs, c.word.toList = word ++ c.missing.toList

/-- What is missing can be cut out of every word of a list that begins with what is typed. -/
theorem exists_mapM_candidate? {word : List Char} {ws : List String}
    (h : ∀ w ∈ ws, word.isPrefixOf w.toList) :
    ∃ cs, ws.mapM (candidate? word) = some cs ∧ cs.map Candidate.word = ws ∧
      ∀ c ∈ cs, c.word.toList = word ++ c.missing.toList := by
  induction ws with
  | nil => exact ⟨[], rfl, rfl, nofun⟩
  | cons w ws ih =>
    obtain ⟨missing, hmissing⟩ := List.isPrefixOf_iff_prefix.1 (h w List.mem_cons_self)
    obtain ⟨cs, hcs, hwords, hcompletes⟩ := ih fun w hw => h w (List.mem_cons_of_mem _ hw)
    refine ⟨⟨w, String.ofList missing⟩ :: cs, ?_, ?_, ?_⟩
    · rw [List.mapM_cons, candidate?_append hmissing.symm, hcs]
      rfl
    · rw [List.map_cons, hwords]
    · exact List.forall_mem_cons.2 ⟨by simp [hmissing], hcompletes⟩

/-- Once the word is cut out, nothing is in the way of what is offered for it. -/
theorem exists_complete? {before word : List Char} {start : Nat}
    (h : currentWord? before = some (start, word)) :
    ∃ cs, complete? before = some cs ∧ (word = [] → cs = []) ∧ (word ≠ [] → Offered word cs) := by
  rw [complete?, h]
  by_cases hword : word = []
  · exact ⟨[], by simp [hword], fun _ => rfl, fun hne => absurd hword hne⟩
  · obtain ⟨cs, hcs, hwords, hcompletes⟩ := @exists_mapM_candidate? word
      (knownWords.filter fun w => word.isPrefixOf w.toList) fun w hw => (List.mem_filter.1 hw).2
    exact ⟨cs, by simpa [hword] using hcs, fun hnil => absurd hnil hword,
      fun _ => ⟨hwords, hcompletes⟩⟩

/-- A hint is what is missing of a known word. -/
def HintFor (word : List Char) (hint : String) : Prop :=
  ∃ w ∈ knownWords, ∃ missing, w.toList = word ++ missing ∧
    hint = dimmed (String.ofList missing)

/-- Once the word is cut out, nothing is in the way of a hint for it. -/
theorem exists_hint? {before word : List Char} {start : Nat}
    (h : currentWord? before = some (start, word)) (after : List Char) :
    ∃ hint, hint? before after = some hint ∧ ∀ text ∈ hint, HintFor word text := by
  rw [hint?]
  split
  next => exact ⟨none, rfl, nofun⟩
  next =>
    simp only [h, Option.bind_eq_bind, Option.bind_some]
    split
    next => exact ⟨none, rfl, nofun⟩
    next =>
      split
      next => exact ⟨none, rfl, nofun⟩
      next w hfind =>
        have hw := List.find?_some hfind
        rw [Bool.and_eq_true] at hw
        obtain ⟨missing, hmissing⟩ := List.isPrefixOf_iff_prefix.1 hw.1
        rw [candidate?_append hmissing.symm]
        refine ⟨some (dimmed (String.ofList missing)), rfl, ?_⟩
        rintro _ ⟨⟩
        exact ⟨w, List.mem_of_find?_eq_some hfind, missing, hmissing.symm, rfl⟩

/-! ## Completion -/

/-- **What is offered after a delimiter of one byte**, or in a text without delimiters: the word at
    the cursor is the longest one, nothing that has to be cut is cut amid a character, and every
    known word that begins with the word is offered, in order, if there is one.  A hint, too, is
    what is missing of a known word. -/
theorem completion_offers {before : List Char} (h : ∀ d ∈ lastDelimiter? before, d.utf8Size = 1)
    (after : List Char) :
    ∃ earlier word, before = earlier ++ word ∧ LongestWord before word ∧
      currentWord? before = some (byteSize earlier, word) ∧
      (∃ cs, complete? before = some cs ∧ (word = [] → cs = []) ∧ (word ≠ [] → Offered word cs)) ∧
      ∃ hint, hint? before after = some hint ∧ ∀ text ∈ hint, HintFor word text := by
  obtain ⟨earlier, word, hbefore, hlongest, hcurrent⟩ := exists_currentWord? h
  exact ⟨earlier, word, hbefore, hlongest, hcurrent, exists_complete? hcurrent,
    exists_hint? hcurrent after⟩

/-- The space is what delimits the word, whatever the arrow before it takes. -/
theorem completion_offers_afterArrow :
    (∀ d ∈ lastDelimiter? "→ requ".toList, d.utf8Size = 1) ∧
    currentWord? "→ requ".toList = some (4, "requ".toList) ∧
    LongestWord "→ requ".toList "requ".toList ∧
    Offered "requ".toList [⟨"require", "ire"⟩, ⟨"require.resolve", "ire.resolve"⟩] ∧
    HintFor "requ".toList (dimmed "ire") := by
  have hspace : lastDelimiter? "→ requ".toList = some ' ' := by decide +kernel
  have hshort : ∀ d ∈ lastDelimiter? "→ requ".toList, d.utf8Size = 1 := by
    rw [hspace]
    rintro d ⟨⟩
    rfl
  obtain ⟨earlier, word, -, hlongest, hcurrent, ⟨cs, hcs, -, hoffered⟩, hint, hhint, hfor⟩ :=
    completion_offers hshort []
  have hword : currentWord? "→ requ".toList = some (4, "requ".toList) := by decide +kernel
  obtain rfl : "requ".toList = word :=
    (Prod.mk.inj (Option.some.inj (hword.symm.trans hcurrent))).2
  have hcandidates : complete? "→ requ".toList =
    some [⟨"require", "ire"⟩, ⟨"require.resolve", "ire.resolve"⟩] := by decide +kernel
  obtain rfl := Option.some.inj (hcandidates.symm.trans hcs)
  have hgiven : hint? "→ requ".toList [] = some (some (dimmed "ire")) := by decide +kernel
  obtain rfl := Option.some.inj (hgiven.symm.trans hhint)
  exact ⟨hshort, hword, hlongest, hoffered (by decide), hfor _ rfl⟩

/-- **Where nothing is offered.**  No word is begun after a space, and then none is offered, though
    every word begins with nothing; after an arrow, which has three bytes, there is no place to
    cut. -/
theorem completion_withheld :
    (LongestWord "1 + ".toList [] ∧ complete? "1 + ".toList = some [] ∧ ¬ Offered [] []) ∧
      LongestWord "→re".toList "re".toList ∧ currentWord? "→re".toList = none ∧
      complete? "→re".toList = none ∧ hint? "→re".toList [] = none := by
  refine ⟨⟨?_, by decide +kernel, fun h => ?_⟩, ?_, by decide +kernel, by decide +kernel,
    by decide +kernel⟩
  · exact @LongestWord.delimited "1 +".toList [] ' ' nofun (by decide)
  · exact absurd h.words (by decide +kernel)
  · have hword : "re".toList.all isWordPart := by decide
    exact @LongestWord.delimited [] "re".toList '→' (List.all_eq_true.1 hword) (by decide +kernel)

end Requisite.Prompt
