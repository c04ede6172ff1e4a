/-
  Whether an input waits for more lines.

  An input is incomplete while a bracket or a string is open in it, or when it
  ends with a character that something has to follow.  A closing bracket that
  does not fit makes an input complete: no further line can mend it.

  * `isBalanced`: brackets and strings;
  * `isComplete`: all of it.
-/
import Requisite.Text.Blank

namespace Requisite.Prompt

open Requisite

/-- The closing bracket for an opening one. -/
def closer? : Char → Option Char
  | '(' => some ')'
  | '[' => some ']'
  | '\x7b' => some '\x7d'
  | _ => none

def isCloser (c : Char) : Bool := c == ')' || c == ']' || c == '\x7d'

/-- Whether the rest of an input leaves nothing open: `awaited` are the closing brackets for the
    open ones, the innermost first; `quote` is the quote that ends the open string, if one is. -/
def closes (awaited : List Char) : Option Char → List Char → Bool
  | none, [] => awaited.isEmpty
  | some _, [] => false
  | some _, ['\\'] => false
  | some q, '\\' :: _ :: rest => closes awaited (some q) rest
  | some q, c :: rest => closes awaited (if c = q then none else some q) rest
  | none, c :: rest =>
    if c = '"' || c = '\'' then closes awaited (some c) rest
    else
      match closer? c with
      | some d => closes (d :: awaited) none rest
      | none =>
        if isCloser c then
          match awaited with
          | d :: outer => if d = c then closes outer none rest else true
          | [] => true
        else closes awaited none rest

/-- Whether no bracket and no string is open at the end, or one is closed that was not open. -/
def isBalanced (input : List Char) : Bool := closes [] none input

/-- What something has to follow. -/
def isContinued (c : Char) : Bool := "\\+-*/=,\x7b([".toList.contains c

/-- Whether an input need not wait for more lines. -/
def isComplete (input : List Char) : Bool :=
  let trimmed := trim input
  isBalanced input && (trimmed.head? == some '.' || !trimmed.getLast?.any isContinued)

end Requisite.Prompt
