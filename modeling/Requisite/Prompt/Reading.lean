/-
  Reading inputs from a stream that is no terminal.

  The stream is cut into lines; an input is one line, or as many as it takes to
  complete it.  A backspace takes back the cluster before it, of which it knows
  the size only up to 256 bytes: after a larger one it may be asked to cut a
  character in two, which breaks the session.

  * `streamLines`: the lines of a stream;
  * `applyBackspaces?`: a line as it was meant;
  * `readInput`: the next input and the lines after it.
-/
import Requisite.Prompt.Balance
import Requisite.Prompt.Words
import Requisite.Text.Grapheme

namespace Requisite.Prompt

open Requisite

/-! ## Lines -/

/-- Bytes put before lines of bytes: a line feed ends a line. -/
def consByte (b : UInt8) : List (List UInt8) → List (List UInt8)
  | [] => [[b]]
  | line :: rest => if b = 10 then [b] :: line :: rest else (b :: line) :: rest

/-- The lines of a stream with the line feeds that end them; what is no UTF-8 text is no line
    to read. -/
def streamLines (data : ByteArray) : List (Option String) :=
  (data.data.toList.foldr consByte []).map fun line => String.fromUTF8? ⟨line.toArray⟩

/-- A text without the line end, and the line end. -/
def splitEnding (cs : List Char) : List Char × List Char :=
  match cs.reverse with
  | '\n' :: '\r' :: body => (body.reverse, ['\r', '\n'])
  | '\n' :: body => (body.reverse, ['\n'])
  | _ => (cs, [])

/-! ## Backspaces -/

/-- A text as typed so far. -/
structure Typed where
  /-- its characters, the last first -/
  text : List Char
  /-- the sizes of its clusters, the last first; a size is kept in one byte -/
  sizes : List Nat

namespace Typed

/-- The text with one more cluster. -/
def push (t : Typed) (cluster : List Char) : Typed :=
  ⟨cluster.reverse ++ t.text, byteSize cluster % 256 :: t.sizes⟩

/-- The text without as many bytes as its last cluster is said to have. -/
def takeBack? (t : Typed) : Option Typed :=
  match t.sizes with
  | [] => some t
  | n :: sizes => (dropBytes? n t.text).map fun text => ⟨text, sizes⟩

end Typed

def backspace : Char := '\x08'

/-- A text in which every backspace has taken back the cluster before it, if none has to cut a
    character in two. -/
def applyBackspaces? (cs : List Char) : Option (List Char) := do
  let typed ← (Grapheme.clusters cs).foldlM
    (fun (t : Typed) cluster =>
      if cluster = [backspace] then t.takeBack? else some (t.push cluster))
    ⟨[], []⟩
  return typed.text.reverse

/-! ## Inputs -/

/-- What a stream gives next. -/
inductive Input where
  | text (cs : List Char)
  /-- the stream is at its end, whether or not an input was begun -/
  | ended
  /-- a line is no text -/
  | garbled
  /-- a backspace would cut a character in two -/
  | torn

/-- The next input and the lines after it; `begun` is what was read of the input before, line
    ends included. -/
def readInput (begun : List Char) : List (Option String) → Input × List (Option String)
  | [] => (.ended, [])
  | none :: rest => (.garbled, rest)
  | some line :: rest =>
    let (body, ending) := splitEnding (begun ++ line.toList)
    match applyBackspaces? body with
    | none => (.torn, rest)
    | some cs => if isComplete cs then (.text cs, rest) else readInput (cs ++ ending) rest

/-- An input that was read leaves fewer lines. -/
theorem length_readInput_lt {begun cs : List Char} {lines rest : List (Option String)}
    (h : readInput begun lines = (.text cs, rest)) : rest.length < lines.length := by
  induction lines generalizing begun with
  | nil => simp [readInput] at h
  | cons line lines ih =>
    cases line with
    | none => simp [readInput] at h
    | some line =>
      simp only [readInput] at h
      split at h
      · simp at h
      · split at h
        · simp only [Prod.mk.injEq] at h
          simp [h.2]
        · exact Nat.lt_succ_of_lt (ih h)

end Requisite.Prompt
