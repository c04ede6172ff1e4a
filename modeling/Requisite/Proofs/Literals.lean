/-
  The number that begins a text.

  Of all literals that a text begins with, the longest is scanned: digits are taken
  as long as there are some, a point or an exponent only with digits after it.

  * `LongestNumeral`: the longest literal that a text begins with;
  * `longestNumeral_take`: it is the one that is scanned;
  * `Scanner.next_number`: wherever in a text a number may begin, the next token is
    that literal, with its value.
-/
import Requisite.Proofs.Tiling

namespace Requisite.Source

open Requisite

/-! ## The longest literal -/

/-- The text is a literal that `cs` begins with, and begins with every other one. -/
structure LongestNumeral (cs text : List Char) : Prop where
  begins : text <+: cs
  isNumeral : IsNumeral text
  longest : ∀ other, other <+: cs → IsNumeral other → other <+: text

/-- **The longest literal is scanned.** -/
theorem longestNumeral_take {c : Char} {rest : List Char} (h : startsNumber c rest) :
    LongestNumeral (c :: rest) ((c :: rest).take (numberLength (c :: rest))) where
  begins := List.take_prefix _ _
  isNumeral := isNumeral_take h
  longest other hother hnumeral := by
    obtain ⟨more, hmore⟩ := hother
    have hlength := length_le_numberLength hnumeral more
    rw [hmore] at hlength
    refine List.prefix_of_prefix_length_le ⟨more, hmore⟩ (List.take_prefix _ _) ?_
    rw [List.length_take]
    exact Nat.le_min.2 ⟨hlength, List.IsPrefix.length_le ⟨more, hmore⟩⟩

/-- A token that begins like a number is the longest literal, with its value. -/
theorem Token.scan_number {c : Char} {rest : List Char} (h : startsNumber c rest) :
    ∃ text x, LongestNumeral (c :: rest) text ∧ Binary64.ofText? text = some x ∧
      c :: rest.take (scan c rest).2 = text ∧ (scan c rest).1 = .number x := by
  have hlongest := longestNumeral_take h
  obtain ⟨x, hx⟩ := Binary64.exists_ofText? hlongest.isNumeral
  refine ⟨_, x, hlongest, hx, ?_⟩
  obtain ⟨n, hn⟩ := exists_numberLength h
  have hscan : scan c rest = (.number x, n) := by
    rw [scan_eq_scanNumber h, scanNumber, hx, hn]
    rfl
  rw [hscan, hn]
  exact ⟨rfl, rfl⟩

namespace Scanner

/-- **Numbers are scanned as the longest literal.**  Wherever in a text a scanner comes to a digit,
    or to a point with a digit after it, the next token is a number: its text is the longest
    literal that what is left of the text begins with, its value is what that literal is read as,
    and the scanner goes on right after it. -/
theorem next_number (s : String) (n : Nat) {d : Char} {rest : List Char}
    (hcs : (nth s n).rest.drop (layoutLength (nth s n).rest) = d :: rest)
    (hd : startsNumber d rest) :
    ∃ text x, LongestNumeral (d :: rest) text ∧ Binary64.ofText? text = some x ∧
      (nth s n).next.1.token = .number x ∧
      slice? s (nth s n).next.1.start.offset (nth s n).next.1.stop.offset =
        some (String.ofList text) ∧
      d :: rest = text ++ (nth s (n + 1)).rest := by
  obtain ⟨before, hbefore⟩ := exists_stands s n
  obtain ⟨text, x, hlongest, hx, htext, htoken⟩ := Token.scan_number hd
  have hnext := next_token hcs
  simp only [htext, htoken] at hnext
  have hrest : d :: rest = text ++ (nth s n).next.2.rest := by
    rw [hnext, ← htext, List.cons_append, List.take_append_drop]
  refine ⟨text, x, hlongest, hx, by rw [hnext], ?_, hrest⟩
  have hs : s.toList = before ++ (nth s n).rest.take (layoutLength (nth s n).rest) ++ text ++
      (nth s n).next.2.rest := by
    rw [List.append_assoc, ← hrest, ← hcs, List.append_assoc, List.take_append_drop, hbefore.text]
  rw [hnext]
  simpa only [Place.after_append, ← hbefore.place] using slice?_after hs

/-- A second point, and a mark without digits, end numbers. -/
theorem next_number_pointed :
    (nth "a = 1.5e+3.25e" 2).rest.drop (layoutLength (nth "a = 1.5e+3.25e" 2).rest) =
        '1' :: ".5e+3.25e".toList ∧
      startsNumber '1' ".5e+3.25e".toList ∧
      LongestNumeral ('1' :: ".5e+3.25e".toList) "1.5e+3".toList ∧
      (nth "a = 1.5e+3.25e" 2).next.1.token = .number ⟨0x4097700000000000⟩ ∧
      (nth "a = 1.5e+3.25e" 3).rest = ".25e".toList := by
  have hcs : (nth "a = 1.5e+3.25e" 2).rest.drop (layoutLength (nth "a = 1.5e+3.25e" 2).rest) =
      '1' :: ".5e+3.25e".toList := by decide +kernel
  have hd : startsNumber '1' ".5e+3.25e".toList := by decide
  have hslice : slice? "a = 1.5e+3.25e" (nth "a = 1.5e+3.25e" 2).next.1.start.offset
      (nth "a = 1.5e+3.25e" 2).next.1.stop.offset = some "1.5e+3" := by decide +kernel
  have htoken : (nth "a = 1.5e+3.25e" 2).next.1.token = .number ⟨0x4097700000000000⟩ := by
    decide +kernel
  obtain ⟨text, x, hlongest, -, -, htext, hrest⟩ := next_number "a = 1.5e+3.25e" 2 hcs hd
  obtain rfl : text = "1.5e+3".toList := by
    rw [← String.toList_ofList (l := text), Option.some.inj (htext.symm.trans hslice)]
  have hsplit : '1' :: ".5e+3.25e".toList = "1.5e+3".toList ++ ".25e".toList := by decide +kernel
  exact ⟨hcs, hd, hlongest, htoken, List.append_cancel_left (hrest.symm.trans hsplit)⟩

end Scanner

end Requisite.Source
