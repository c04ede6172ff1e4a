/-
  The tokens of a source text, with their places.

  White space, `//` comments and `/* */` comments separate tokens and mean
  nothing else, but for the line feeds in them, which may end a statement.

  * `layoutLength`: how much of a text is white space and comments before the
    next token;
  * `Token.scan`: the token that begins with a given character, and how many of
    the characters after it belong to it;
  * `Lexeme.ofText`: all tokens of a text, the last one being `eof`.
-/
import Requisite.Source.Token
import Requisite.Text.Blank
import Requisite.Text.Identifier

namespace Requisite.Source

open Requisite

/-! ## White space and comments -/

/-- The length of a comment's rest up to and with its `*/`, or of all that follows if it is not
    closed; `star` says whether a star comes just before. -/
def blockCommentLength (star : Bool) : List Char → Nat
  | [] => 0
  | c :: rest =>
    if star && c == '/' then 1
    else blockCommentLength (c == '*') rest + 1

/-- Whether a character ends a line comment. -/
def endsLine (c : Char) : Bool := c == '\n' || c == '\r'

/-- The length of the white space or the comment that a text begins with; zero if it begins
    with neither. -/
def separatorLength : List Char → Nat
  | '/' :: '/' :: rest => 2 + (rest.takeWhile fun c => !endsLine c).length
  | '/' :: '*' :: rest => 2 + blockCommentLength false rest
  | c :: _ => if isBlank c then 1 else 0
  | [] => 0

/-- The length of all white space and comments that a text begins with. -/
def layoutLength (cs : List Char) : Nat :=
  match h : separatorLength cs with
  | 0 => 0
  | n + 1 =>
    match cs with
    | [] => 0
    | c :: rest => n + 1 + layoutLength ((c :: rest).drop (n + 1))
termination_by cs.length
decreasing_by simp only [List.length_drop, List.length_cons]; omega

/-! ## Literals and names -/

/-- What a character means after a backslash in a string. -/
def unescape (c : Char) : Char :=
  if c = 'n' then '\n'
  else if c = 'r' then '\r'
  else if c = 't' then '\t'
  else if c = '0' then Char.ofNat 0
  else c

/-- A string's rest after its opening quote: the characters it denotes, and how many of the
    text it takes.  A line feed or the end of the text before the closing quote leaves it
    without a value; the line feed still belongs to it. -/
def scanQuoted (quote : Char) : List Char → Option (List Char) × Nat
  | [] => (none, 0)
  | '\\' :: [] => (none, 1)
  | '\\' :: c :: rest =>
    let (value, n) := scanQuoted quote rest
    (value.map (unescape c :: ·), n + 2)
  | c :: rest =>
    if c = '\n' then (none, 1)
    else if c = quote then (some [], 1)
    else
      let (value, n) := scanQuoted quote rest
      (value.map (c :: ·), n + 1)

/-- The number of digits that a text begins with. -/
def digitsLength (cs : List Char) : Nat := (cs.takeWhile Char.isDigit).length

/-- The length of an exponent: `e` or `E`, an optional sign and digits; without digits there is
    none. -/
def exponentLength : List Char → Nat
  | e :: rest =>
    if e = 'e' ∨ e = 'E' then
      let mark := match rest with
        | '+' :: _ | '-' :: _ => 2
        | _ => 1
      match digitsLength (rest.drop (mark - 1)) with
      | 0 => 0
      | n => mark + n
    else 0
  | [] => 0

/-- The length of a fraction: a point and digits; a point without digits is none. -/
def fractionLength : List Char → Nat
  | '.' :: rest =>
    match digitsLength rest with
    | 0 => 0
    | n => n + 1
  | _ => 0

/-- The length of the longest number that a text begins with: digits, a fraction, an
    exponent. -/
def numberLength (cs : List Char) : Nat :=
  let whole := digitsLength cs
  let fraction := fractionLength (cs.drop whole)
  whole + fraction + exponentLength (cs.drop (whole + fraction))

/-! ## Tokens -/

/-- Whether a digit comes next. -/
def startsWithDigit : List Char → Bool
  | c :: _ => c.isDigit
  | [] => false

namespace Token

/-- The number that a text begins with, and the length of its rest after the first
    character. -/
def scanNumber (cs : List Char) : Token × Nat :=
  let n := numberLength cs
  match Binary64.ofText? (cs.take n) with
  | some x => (number x, n - 1)
  | none => (invalid, n - 1)

/-- The word that begins with `c`. -/
def scanWord (c : Char) (rest : List Char) : Token × Nat :=
  let tail := rest.takeWhile isIdentifierContinue
  (ofWord (String.ofList (c :: tail)), tail.length)

/-- The string that begins with a quote. -/
def scanString (quote : Char) (rest : List Char) : Token × Nat :=
  match scanQuoted quote rest with
  | (some value, n) => (string (String.ofList value), n)
  | (none, n) => (invalid, n)

/-- A symbol that a following `=` makes into another. -/
def scanEqual (bare joined : Symbol) : List Char → Token × Nat
  | '=' :: _ => (symbol joined, 1)
  | _ => (symbol bare, 0)

/-- `=`, `==` and `===`, or `!`, `!=` and `!==`. -/
def scanEquals (bare loose strict : Symbol) : List Char → Token × Nat
  | '=' :: '=' :: _ => (symbol strict, 2)
  | '=' :: _ => (symbol loose, 1)
  | _ => (symbol bare, 0)

/-- A symbol of two equal characters, which has no form of one. -/
def scanDoubled (c : Char) (s : Symbol) : List Char → Token × Nat
  | d :: _ => if d = c then (symbol s, 1) else (invalid, 0)
  | [] => (invalid, 0)

/-- The token that begins with `c`, and how many of the characters after it belong to it. -/
def scan (c : Char) (rest : List Char) : Token × Nat :=
  match c with
  | '{' => (symbol .leftBrace, 0)
  | '}' => (symbol .rightBrace, 0)
  | '(' => (symbol .leftParen, 0)
  | ')' => (symbol .rightParen, 0)
  | '[' => (symbol .leftBracket, 0)
  | ']' => (symbol .rightBracket, 0)
  | ';' => (symbol .semicolon, 0)
  | ',' => (symbol .comma, 0)
  | ':' => (symbol .colon, 0)
  | '?' => (symbol .question, 0)
  | '*' => (symbol .star, 0)
  | '/' => (symbol .slash, 0)
  | '%' => (symbol .percent, 0)
  | '.' => if startsWithDigit rest then scanNumber (c :: rest) else (symbol .dot, 0)
  | '+' => scanEqual .plus .plusEqual rest
  | '-' => scanEqual .minus .minusEqual rest
  | '<' => scanEqual .lessThan .lessThanEqual rest
  | '>' => scanEqual .greaterThan .greaterThanEqual rest
  | '=' => scanEquals .equal .equalEqual .strictEqual rest
  | '!' => scanEquals .bang .notEqual .strictNotEqual rest
  | '&' => scanDoubled '&' .ampersandAmpersand rest
  | '|' => scanDoubled '|' .pipePipe rest
  | '"' => scanString '"' rest
  | '\'' => scanString '\'' rest
  | c =>
    if c.isDigit then scanNumber (c :: rest)
    else if isIdentifierStart c then scanWord c rest
    else (invalid, 0)

end Token

/-! ## Places -/

/-- A place in a text: bytes before it, and the number of its line, from 1. -/
structure Place where
  offset : Nat
  line : Nat
deriving DecidableEq, Repr

namespace Place

/-- The first place of a text. -/
def start : Place := ⟨0, 1⟩

/-- The place after a character. -/
def next (p : Place) (c : Char) : Place :=
  ⟨p.offset + c.utf8Size, if c = '\n' then p.line + 1 else p.line⟩

/-- The place after some characters. -/
def after (p : Place) (cs : List Char) : Place := cs.foldl next p

end Place

/-- A token with the places where it begins and where the next character stands. -/
structure Lexeme where
  token : Token
  start : Place
  stop : Place
  /-- whether a line feed stands between the token before and this one -/
  newline : Bool
deriving DecidableEq, Repr

namespace Lexeme

/-- The bytes of a lexeme. -/
def length (l : Lexeme) : Nat := l.stop.offset - l.start.offset

/-- The tokens of a text that begins at `p`. -/
def ofChars (p : Place) (cs : List Char) : List Lexeme :=
  let gap := layoutLength cs
  let start := p.after (cs.take gap)
  let newline := start.line != p.line
  match _h : cs.drop gap with
  | [] => [⟨.eof, start, start, newline⟩]
  | c :: rest =>
    let (token, n) := Token.scan c rest
    let stop := start.after (c :: rest.take n)
    ⟨token, start, stop, newline⟩ :: ofChars stop (rest.drop n)
termination_by cs.length
decreasing_by
  have := congrArg List.length _h
  simp only [List.length_drop, List.length_cons] at this ⊢
  omega

/-- The tokens of a text, `eof` last. -/
def ofText (s : String) : List Lexeme := ofChars .start s.toList

end Lexeme

end Requisite.Source
