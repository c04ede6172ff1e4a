/-
  A line in colours.

  The line is cut into pieces, words and single characters; each piece keeps its
  text and gets a style.

  * `highlight`: the pieces of a line;
  * `flatten_highlight`: the texts of the pieces are the line;
  * `highlighted`: the line as it is written.
-/
import Requisite.Prompt.Words

namespace Requisite.Prompt

open Requisite

/-- How a piece of a line is written. -/
inductive Style where
  | plain
  | coloured (c : Colour)
  | strong (c : Colour)
deriving DecidableEq, Repr

/-- A part of a line. -/
structure Piece where
  text : List Char
  style : Style
deriving DecidableEq, Repr

def Piece.render (p : Piece) : String :=
  let s := String.ofList p.text
  match p.style with
  | .plain => s
  | .coloured c => c.paint s
  | .strong c => bold (c.paint s)

/-- The style of a word. -/
def wordStyle (word : List Char) : Style :=
  let s := String.ofList word
  if keywords.contains s then .strong .magenta
  else if literals.contains s then .coloured .blue
  else if builtins.contains s then .coloured .cyan
  else if word.all Char.isDigit then .coloured .yellow
  else .plain

def isBracket (c : Char) : Bool := "()[]\x7b\x7d".toList.contains c

def isOperator (c : Char) : Bool := "+-*/%=<>!&|".toList.contains c

def isQuote (c : Char) : Bool := c == '"' || c == '\''

/-- The style of a character outside words; `command` says whether the line begins with a
    dot. -/
def charStyle (command : Bool) (c : Char) : Style :=
  if isBracket c then .coloured .yellow
  else if isOperator c then .coloured .cyan
  else if isQuote c then .coloured .green
  else if c = '.' && command then .coloured .magenta
  else .plain

/-- The piece of a word, if there is one; it is given in reverse order. -/
def wordPieces (word : List Char) : List Piece :=
  if word = [] then [] else [⟨word.reverse, wordStyle word.reverse⟩]

/-- The pieces of the rest of a line after the beginning of a word, which is given in reverse
    order. -/
def piecesFrom (command : Bool) (word : List Char) : List Char → List Piece
  | [] => wordPieces word
  | c :: rest =>
    if isWordChar c then piecesFrom command (c :: word) rest
    else wordPieces word ++ ⟨[c], charStyle command c⟩ :: piecesFrom command [] rest

/-- The pieces of a line. -/
def highlight (line : List Char) : List Piece :=
  piecesFrom (line.head? == some '.') [] line

/-- A line in colours. -/
def highlighted (line : String) : String :=
  String.join ((highlight line.toList).map Piece.render)

/-! ## Laws -/

theorem flatMap_text_wordPieces (word : List Char) :
    (wordPieces word).flatMap Piece.text = word.reverse := by
  simp only [wordPieces]
  split <;> simp [*]

theorem flatMap_text_piecesFrom (command : Bool) (word line : List Char) :
    (piecesFrom command word line).flatMap Piece.text = word.reverse ++ line := by
  induction line generalizing word with
  | nil => simp [piecesFrom, flatMap_text_wordPieces]
  | cons c rest ih =>
    simp only [piecesFrom]
    split <;> simp [ih, flatMap_text_wordPieces]

/-- The texts of the pieces, one after the other, are the line. -/
theorem flatten_highlight (line : List Char) : (highlight line).flatMap Piece.text = line := by
  simp [highlight, flatMap_text_piecesFrom]

end Requisite.Prompt
