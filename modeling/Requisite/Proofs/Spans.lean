/-
  Tokens tile their text.

  Taken one after the other, the tokens of a text and the white space and comments
  between them are all of the text, each in its place.  What a parser looks up in
  the text between two tokens is there.

  * `Lexeme.nth`: the tokens of a text, one by one;
  * `Tiled`: how they stand in it;
  * `Cursor`: a parser between two tokens;
  * `Cursor.Sound`: what a parser looks up in the text;
  * `Visits`: readers that leave a parser between two tokens;
  * `tokens_tile`: the tokens of every text tile it, and a parser finds what it
    looks up.
-/
import Requisite.Proofs.Lockstep
import Requisite.Proofs.Tiling
import Mathlib.Data.Nat.Find

namespace Requisite.Source

open Requisite

/-! ## Tokens one by one -/

/-- The token `n` of a text, from 0; `eof` comes again and again. -/
def Lexeme.nth (s : String) (n : Nat) : Lexeme := (Scanner.nth s n).next.1

/-- Where the token before token `n` ends, or the text begins. -/
def Lexeme.stopBefore (s : String) : Nat → Nat
  | 0 => 0
  | n + 1 => (nth s n).stop.offset

section
variable {s : String} {k n : Nat}

/-- What is left after some tokens, each of which took a character. -/
theorem Scanner.length_rest_nth (h : ∀ m < n, (Lexeme.nth s m).token ≠ .eof) :
    (nth s n).rest.length + n ≤ s.length := by
  induction n with
  | zero => exact Nat.le_of_eq String.length_toList
  | succ n ih =>
    obtain ⟨gap, taken, hsteps⟩ := (nth s n).exists_steps
    have htaken : taken ≠ [] := mt hsteps.taken_eq_nil.1 (h n (Nat.lt_succ_self n))
    have hpos := List.length_pos_iff.2 htaken
    have hrest := congrArg List.length hsteps.rest
    have hn := ih fun m hm => h m (Nat.lt_succ_of_lt hm)
    simp only [List.length_append] at hrest
    simp only [nth]
    omega

/-- After `eof` comes `eof`. -/
theorem Lexeme.token_nth_of_le (h : (nth s k).token = .eof) (hn : k ≤ n) :
    (nth s n).token = .eof ∧ (Scanner.nth s (n + 1)).rest = [] := by
  induction n, hn using Nat.le_induction with
  | base =>
    obtain ⟨gap, taken, hsteps⟩ := (Scanner.nth s k).exists_steps
    exact ⟨h, hsteps.rest_eq_nil h⟩
  | succ n _ ih =>
    obtain ⟨gap, taken, hsteps⟩ := (Scanner.nth s (n + 1)).exists_steps
    have heof := hsteps.taken_eq_nil.1 (hsteps.eq_nil ih.2).2
    exact ⟨heof, hsteps.rest_eq_nil heof⟩

/-- There are no more tokens before `eof` than there are characters. -/
theorem Lexeme.exists_eof (s : String) :
    ∃ k ≤ s.length, ∀ n, (nth s n).token = .eof ↔ k ≤ n := by
  have hsome : ∃ k, (nth s k).token = .eof := by
    by_contra hnone
    have := Scanner.length_rest_nth (s := s) (n := s.length + 1) fun m _ h => hnone ⟨m, h⟩
    omega
  have hbefore : ∀ m < Nat.find hsome, (nth s m).token ≠ .eof := fun m hm => Nat.find_min hsome hm
  refine ⟨Nat.find hsome, ?_, fun n => ⟨fun h => Nat.find_min' hsome h, fun h => ?_⟩⟩
  · have := Scanner.length_rest_nth hbefore
    omega
  · exact (token_nth_of_le (Nat.find_spec hsome) h).1

/-- The tokens of a text are the first `k`, and `eof`. -/
theorem Lexeme.ofText_eq_map (h : ∀ n, (nth s n).token = .eof ↔ k ≤ n) :
    ofText s = (List.range (k + 1)).map (nth s) := by
  have hfrom (n m : Nat) (hk : n + m = k) :
      ofChars (Scanner.nth s n).place (Scanner.nth s n).rest =
        (List.range' n (m + 1)).map (nth s) := by
    induction m generalizing n with
    | zero =>
      have heof : (nth s n).token = .eof := (h n).2 (by omega)
      rw [ofChars_eq]
      exact congrArg _ (if_pos heof)
    | succ m ih =>
      have heof : (nth s n).token ≠ .eof := mt (h n).1 (by omega)
      rw [ofChars_eq, List.range'_succ, List.map_cons, ← ih (n + 1) (by omega)]
      exact congrArg _ (if_neg heof)
  rw [List.range_eq_range']
  exact hfrom 0 k (Nat.zero_add k)

end

/-! ## Tiles -/

/-- How the tokens of a text stand in it, `k` of which come before `eof`. -/
structure Tiled (s : String) (k : Nat) : Prop where
  count_le : k ≤ s.length
  ofText_eq : Lexeme.ofText s = (List.range (k + 1)).map (Lexeme.nth s)
  /-- from token `k` on comes `eof` -/
  token_eq_eof (n : Nat) : (Lexeme.nth s n).token = .eof ↔ k ≤ n
  /-- where tokens begin and end is inside the text and not inside a character -/
  isValid (n : Nat) : (⟨(Lexeme.nth s n).start.offset⟩ : String.Pos.Raw).IsValid s ∧
    (⟨(Lexeme.nth s n).stop.offset⟩ : String.Pos.Raw).IsValid s
  nonempty {n : Nat} : n < k → (Lexeme.nth s n).start.offset < (Lexeme.nth s n).stop.offset
  ordered {m n : Nat} : m < n → (Lexeme.nth s m).stop.offset ≤ (Lexeme.nth s n).start.offset
  /-- before each token stand white space and comments, the last of which may be open only before
      `eof` -/
  gap (n : Nat) : ∃ gap, slice? s (Lexeme.stopBefore s n) (Lexeme.nth s n).start.offset = some gap ∧
    IsLayout (k ≤ n) gap.toList
  /-- `eof` stands where the text ends -/
  eof {n : Nat} : k ≤ n → (Lexeme.nth s n).start.offset = s.utf8ByteSize ∧
    (Lexeme.nth s n).stop.offset = s.utf8ByteSize

namespace Tiled

variable (s : String) (n : Nat)

theorem stopBefore_eq : Lexeme.stopBefore s n = (Scanner.nth s n).place.offset := by
  cases n with
  | zero => rfl
  | succ n =>
    obtain ⟨gap, taken, hsteps⟩ := (Scanner.nth s n).exists_steps
    exact (congrArg Place.offset hsteps.place).symm

/-- What comes before a token, and the token. -/
theorem exists_pieces : ∃ before gap taken,
    (Scanner.nth s n).Stands s before ∧ (Scanner.nth s n).Steps gap taken := by
  obtain ⟨before, hstands⟩ := Scanner.exists_stands s n
  obtain ⟨gap, taken, hsteps⟩ := (Scanner.nth s n).exists_steps
  exact ⟨before, gap, taken, hstands, hsteps⟩

variable {s n}

theorem start_eq {before gap taken : List Char} (hstands : (Scanner.nth s n).Stands s before)
    (hsteps : (Scanner.nth s n).Steps gap taken) :
    (Lexeme.nth s n).start = Place.start.after (before ++ gap) := by
  rw [Lexeme.nth, hsteps.start, hstands.place, Place.after_append]

theorem stop_eq {before gap taken : List Char} (hstands : (Scanner.nth s n).Stands s before)
    (hsteps : (Scanner.nth s n).Steps gap taken) :
    (Lexeme.nth s n).stop = Place.start.after (before ++ gap ++ taken) := by
  rw [Place.after_append, ← start_eq hstands hsteps]
  exact hsteps.stop

theorem le_after (p : Place) (cs : List Char) : p.offset ≤ (p.after cs).offset := by
  rw [Place.offset_after]
  exact Nat.le_add_right ..

theorem lt_after {p : Place} {cs : List Char} (h : cs ≠ []) : p.offset < (p.after cs).offset := by
  obtain ⟨c, cs, rfl⟩ := List.exists_cons_of_ne_nil h
  have := c.utf8Size_pos
  rw [Place.offset_after, String.ofList_cons, String.utf8ByteSize_append,
    String.utf8ByteSize_singleton]
  omega

theorem stopBefore_le (n : Nat) : Lexeme.stopBefore s n ≤ (Lexeme.nth s n).start.offset := by
  obtain ⟨before, gap, taken, -, hsteps⟩ := exists_pieces s n
  rw [stopBefore_eq, Lexeme.nth, hsteps.start]
  exact le_after _ gap

theorem start_le_stop (n : Nat) : (Lexeme.nth s n).start.offset ≤ (Lexeme.nth s n).stop.offset := by
  obtain ⟨before, gap, taken, -, hsteps⟩ := exists_pieces s n
  rw [Lexeme.nth, hsteps.stop]
  exact le_after _ taken

/-- The tokens of a text tile it. -/
theorem of_eof {k : Nat} (hk : k ≤ s.length)
    (heof : ∀ n, (Lexeme.nth s n).token = .eof ↔ k ≤ n) : Tiled s k where
  count_le := hk
  ofText_eq := Lexeme.ofText_eq_map heof
  token_eq_eof := heof
  isValid n := by
    obtain ⟨before, gap, taken, hstands, hsteps⟩ := exists_pieces s n
    have htext : s.toList = before ++ gap ++ (taken ++ (Scanner.nth s n).next.2.rest) := by
      rw [hstands.text, hsteps.rest]
      simp
    rw [start_eq hstands hsteps, stop_eq hstands hsteps]
    exact ⟨isValid_after htext, isValid_after (htext.trans (List.append_assoc ..).symm)⟩
  nonempty {n} h := by
    obtain ⟨before, gap, taken, hstands, hsteps⟩ := exists_pieces s n
    have htaken : taken ≠ [] := mt hsteps.taken_eq_nil.1 (mt (heof n).1 (Nat.not_le_of_lt h))
    rw [Lexeme.nth, hsteps.stop]
    exact lt_after htaken
  ordered {m n} h := by
    induction n, h using Nat.le_induction with
    | base => exact stopBefore_le (m + 1)
    | succ n _ ih =>
      calc (Lexeme.nth s m).stop.offset
        _ ≤ (Lexeme.nth s n).start.offset := ih
        _ ≤ (Lexeme.nth s n).stop.offset := start_le_stop n
        _ ≤ (Lexeme.nth s (n + 1)).start.offset := stopBefore_le (n + 1)
  gap n := by
    obtain ⟨before, gap, taken, hstands, hsteps⟩ := exists_pieces s n
    refine ⟨String.ofList gap, ?_, ?_⟩
    · rw [stopBefore_eq]
      exact hstands.slice?_gap hsteps
    · have hlayout := hsteps.layout
      rw [String.toList_ofList]
      rwa [← decide_eq_decide.2 (heof n)]
  eof {n} h := by
    obtain ⟨before, gap, taken, hstands, hsteps⟩ := exists_pieces s n
    have hn := (heof n).2 h
    obtain rfl : taken = [] := hsteps.taken_eq_nil.2 hn
    have htext := hstands.text
    rw [hsteps.rest, hsteps.rest_eq_nil hn, List.append_nil, List.append_nil] at htext
    have hend : (Lexeme.nth s n).start.offset = s.utf8ByteSize := by
      rw [start_eq hstands hsteps, ← htext, Place.offset_after, String.ofList_toList]
      exact Nat.zero_add _
    refine ⟨hend, ?_⟩
    rw [stop_eq hstands hsteps, List.append_nil, ← start_eq hstands hsteps, hend]

end Tiled

/-! ## Parsers -/

/-- What a parser knows of its place: the token it took last, the one at hand, and the scanner
    after that. -/
structure Cursor where
  previous : Lexeme
  current : Lexeme
  scanner : Scanner

namespace Cursor

/-- Before the first token of a text an empty one is taken for the last. -/
def ofText (s : String) : Cursor :=
  let (l, c) := (Scanner.ofText s).next
  ⟨⟨.eof, .start, .start, false⟩, l, c⟩

/-- Goes on to the next token. -/
def advance (u : Cursor) : Cursor :=
  let (l, c) := u.scanner.next
  ⟨u.current, l, c⟩

/-- The cursor after `n` tokens. -/
def nth (s : String) : Nat → Cursor
  | 0 => ofText s
  | n + 1 => (nth s n).advance

/-- The tokens that are left, up to `eof`. -/
def input (u : Cursor) : Input :=
  ⟨u.current,
    if u.current.token = .eof then [] else Lexeme.ofChars u.scanner.place u.scanner.rest⟩

/-- What is looked up in the text between two tokens is there: whether a line feed stands between
    the token taken last and the one at hand, and how many stand before that. -/
structure Sound (s : String) (u : Cursor) : Prop where
  ordered : u.previous.stop.offset ≤ u.current.start.offset
  newline : ∃ gap, slice? s u.previous.stop.offset u.current.start.offset = some gap ∧
    u.current.newline = gap.toList.contains '\n'
  line : ∃ front, slice? s 0 u.current.start.offset = some front ∧
    u.current.start.line = front.toList.count '\n' + 1

theorem nth_eq (s : String) (n : Nat) :
    (nth s n).current = Lexeme.nth s n ∧ (nth s n).scanner = Scanner.nth s (n + 1) ∧
      (nth s n).previous.stop.offset = Lexeme.stopBefore s n := by
  induction n with
  | zero => exact ⟨rfl, rfl, rfl⟩
  | succ n ih =>
    obtain ⟨hcurrent, hscanner, -⟩ := ih
    refine ⟨?_, ?_, congrArg (fun l => l.stop.offset) hcurrent⟩
    · exact congrArg (fun c => c.next.1) hscanner
    · exact congrArg (fun c => c.next.2) hscanner

/-- What a parser looks up between two tokens is there. -/
theorem sound (s : String) (n : Nat) : (nth s n).Sound s := by
  obtain ⟨hcurrent, -, hprevious⟩ := nth_eq s n
  obtain ⟨before, gap, taken, hstands, hsteps⟩ := Tiled.exists_pieces s n
  have htext : s.toList = [] ++ (before ++ gap) ++ (taken ++ (Scanner.nth s n).next.2.rest) := by
    rw [hstands.text, hsteps.rest]
    simp
  constructor
  · rw [hcurrent, hprevious]
    exact Tiled.stopBefore_le n
  · refine ⟨String.ofList gap, ?_, ?_⟩
    · rw [hcurrent, hprevious, Tiled.stopBefore_eq]
      exact hstands.slice?_gap hsteps
    · rw [hcurrent, String.toList_ofList]
      exact hsteps.newline
  · refine ⟨String.ofList (before ++ gap), ?_, ?_⟩
    · rw [hcurrent, Tiled.start_eq hstands hsteps]
      exact slice?_after htext
    · rw [hcurrent, Tiled.start_eq hstands hsteps, Place.line_after_eq, String.toList_ofList]
      exact Nat.add_comm ..

/-- The input that a parser begins with is all tokens of its text. -/
theorem input_ofText (s : String) : (ofText s).input = .ofLexemes (Lexeme.ofText s) := by
  rw [Lexeme.ofText]
  have h := Lexeme.ofChars_eq (.ofText s)
  exact (congrArg Input.ofLexemes h).symm

theorem next_input {u : Cursor} (h : u.current.token ≠ .eof) : u.input.next = u.advance.input := by
  have hrest : u.input.rest = Lexeme.ofChars u.scanner.place u.scanner.rest := if_neg h
  rw [Lexeme.ofChars_eq] at hrest
  rw [Input.next, hrest]
  rfl

end Cursor

/-! ## Readers -/

/-- Readers leave a parser after token `n` of the text or a later one, or fail on the line of
    one. -/
def visited (s : String) (n : Nat) : Lockstep where
  inputs _ i j := i = j ∧ ∃ m, n ≤ m ∧ i = (Cursor.nth s m).input
  errors e _ := ∃ m, n ≤ m ∧ e.line = (Cursor.nth s m).current.start.line
  unsettled h := h
  token_eq h := congrArg (fun i => i.current.token) h.1
  newline_eq h _ := congrArg (fun i => i.current.newline) h.1
  next := by
    rintro _ _ _ ⟨rfl, m, hm, rfl⟩ ht
    exact ⟨rfl, m + 1, Nat.le_succ_of_le hm, Cursor.next_input ht⟩
  fail := by
    rintro _ _ _ _ ⟨rfl, m, hm, rfl⟩
    exact ⟨m, hm, rfl⟩

/-- Wherever between two tokens of the text it begins, the reader comes to stand there or further
    on between two tokens, or fails on the line of one. -/
def Visits {α : Type} (s : String) (p : Parse α) : Prop :=
  ∀ n, match p.run (Cursor.nth s n).input with
    | .ok (_, i) => ∃ m, n ≤ m ∧ i = (Cursor.nth s m).input
    | .error e => ∃ m, n ≤ m ∧ e.line = (Cursor.nth s m).current.start.line

theorem Visits.of_agrees {α κ : Type} {s : String} {p : Parse α} {before after : Bool}
    {key : α → κ} (h : ∀ n, (visited s n).Agrees before after key p p) : Visits s p := by
  intro n
  have hmeets := h n _ _ _ ⟨rfl, n, Nat.le_refl n, rfl⟩ rfl
  generalize p.run _ = r at hmeets ⊢
  cases hmeets with
  | ok _ hij => exact hij.2
  | error he => exact he

/-- **The tokens of a text tile it**: a scanner comes to `eof` after at most as many tokens as there
    are characters, and stays there.  Each token before takes characters of the text, in order,
    and between them stand white space and comments only.  A parser that goes on by one token
    after the other finds what it looks up in the text; the readers of the grammar go on in this
    way, wherever they begin. -/
theorem tokens_tile (s : String) :
    (∃ k, Tiled s k) ∧ (∀ n, (Cursor.nth s n).Sound s) ∧
      (Cursor.nth s 0).input = .ofLexemes (Lexeme.ofText s) ∧
      ∀ limit n, Visits s (nested limit n).statement ∧ Visits s (nested limit n).assignment ∧
        Visits s (nested limit n).unary ∧
        ∀ steps, Visits s (program (nested limit n).statement steps) := by
  obtain ⟨k, hk, heof⟩ := Lexeme.exists_eof s
  refine ⟨⟨k, .of_eof hk heof⟩, Cursor.sound s, Cursor.input_ofText s, fun limit n => ?_⟩
  have h (m : Nat) := (visited s m).nested limit n
  exact ⟨.of_agrees fun m => (h m).statement true, .of_agrees fun m => (h m).assignment true,
    .of_agrees fun m => (h m).unary true,
    fun steps => .of_agrees fun m => Lockstep.program (h m).statement steps true⟩

end Requisite.Source
