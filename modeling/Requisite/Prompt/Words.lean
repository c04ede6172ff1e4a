/-
  The words that the prompt knows, and the completion of what is typed.

  * `knownWords`: keywords, literals, globals and commands;
  * `dropBytes?`: texts are cut at byte positions, which may lie inside a character;
  * `currentWord?`: the word that ends at the cursor;
  * `complete?`, `hint?`: known words that go on from there.
-/
import Requisite.Prompt.Command
import Requisite.Source.Token
import Requisite.Text.Alphanumeric
import Requisite.Text.Paint

namespace Requisite.Prompt

open Requisite Requisite.Source

/-! ## Known words -/

def keywords : List String := Keyword.all.map Keyword.text

/-- Names and words with a fixed value. -/
def literals : List String := ["true", "false", "null", "undefined", "NaN", "Infinity"]

/-- The names that every session or module sees. -/
def builtins : List String := ["console", "require", "module", "exports"]

/-- The members of the built-in names. -/
def builtinMembers : List String :=
  ["console.log", "console.error", "console.warn", "require.resolve"]

/-- All words that are offered, in the order in which they are. -/
def knownWords : List String :=
  keywords ++ literals ++ builtins ++ builtinMembers ++ Command.all.map Command.dotted

/-! ## Bytes -/

/-- The number of bytes of a text. -/
def byteSize : List Char → Nat
  | [] => 0
  | c :: rest => c.utf8Size + byteSize rest

theorem byteSize_append (before after : List Char) :
    byteSize (before ++ after) = byteSize before + byteSize after := by
  induction before with
  | nil => rw [List.nil_append, byteSize, Nat.zero_add]
  | cons c before ih => rw [List.cons_append, byteSize, byteSize, ih, Nat.add_assoc]

/-- A text without its first `n` bytes, if these are whole characters of it. -/
def dropBytes? : Nat → List Char → Option (List Char)
  | 0, cs => some cs
  | _ + 1, [] => none
  | n + 1, c :: rest => if c.utf8Size ≤ n + 1 then dropBytes? (n + 1 - c.utf8Size) rest else none

/-- A character that is within the first `n` bytes is dropped with its bytes. -/
theorem dropBytes?_cons {c : Char} {n : Nat} (h : c.utf8Size ≤ n) (rest : List Char) :
    dropBytes? n (c :: rest) = dropBytes? (n - c.utf8Size) rest := by
  cases n with
  | zero => exact absurd c.utf8Size_pos (Nat.not_lt.2 h)
  | succ n => exact if_pos h

/-- As many bytes as a text has are that text. -/
theorem dropBytes?_byteSize (before after : List Char) (n : Nat) :
    dropBytes? (byteSize before + n) (before ++ after) = dropBytes? n after := by
  induction before with
  | nil => rw [byteSize, Nat.zero_add, List.nil_append]
  | cons c before ih =>
    rw [byteSize, List.cons_append, dropBytes?_cons (by omega), Nat.add_assoc,
      Nat.add_sub_cancel_left, ih]

/-! ## The word at the cursor -/

def isWordChar (c : Char) : Bool := isAlphanumeric c || c == '_'

/-- Words that are completed may have dots in them. -/
def isWordPart (c : Char) : Bool := isWordChar c || c == '.'

/-- The byte position of the last character of a text that is no part of a word. -/
def lastDelimiterAt? (before : List Char) : Option Nat :=
  match before.reverse.dropWhile isWordPart with
  | [] => none
  | _ :: earlier => some (byteSize earlier.reverse)

/-- The word at the end of the text before the cursor, with the byte position where it starts:
    one byte after the start of the last delimiter.  If that is amid the delimiter, there is no
    place to cut. -/
def currentWord? (before : List Char) : Option (Nat × List Char) :=
  let start := match lastDelimiterAt? before with
    | some i => i + 1
    | none => 0
  (dropBytes? start before).map fun word => (start, word)

/-! ## Completion -/

/-- A word that may be meant. -/
structure Candidate where
  word : String
  /-- what is missing of the word -/
  missing : String
deriving DecidableEq, Repr

/-- The known word `w` as a candidate for what begins with the bytes of `word`. -/
def candidate? (word : List Char) (w : String) : Option Candidate :=
  (dropBytes? (byteSize word) w.toList).map fun missing => ⟨w, String.ofList missing⟩

/-- The words that may be meant at the cursor, if all that has to be cut can be. -/
def complete? (before : List Char) : Option (List Candidate) := do
  let (_, word) ← currentWord? before
  if word = [] then return []
  else (knownWords.filter fun w => word.isPrefixOf w.toList).mapM (candidate? word)

/-- The least number of bytes typed for which a hint is given. -/
def minHinted : Nat := 2

/-- What may follow at the end of a line, if all that has to be cut can be: what is missing of
    the first known word that is longer than the one typed.  Elsewhere there is no hint. -/
def hint? (before after : List Char) : Option (Option String) :=
  if after ≠ [] then some none
  else do
    let (_, word) ← currentWord? before
    if byteSize word < minHinted then return none
    else
      match knownWords.find? fun w =>
        word.isPrefixOf w.toList && byteSize word < byteSize w.toList with
      | none => return none
      | some w => return some (dimmed (← candidate? word w).missing)

end Requisite.Prompt
