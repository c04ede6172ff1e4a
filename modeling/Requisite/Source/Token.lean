/-
  The words of a source text.

  A token is a literal, a name, a keyword or a symbol.  `invalid` stands for
  characters that begin no token, `eof` for the end of the text.

  * `Keyword.ofText?`, `Token.ofWord`: what an identifier-like word is;
  * `Token.describe`: a token in a message.
-/
import Requisite.Number.Text
import Requisite.Text.Quoted

namespace Requisite.Source

open Requisite

/-! ## Keywords and symbols -/

/-- The words that names may not be, the literals `true`, `false` and `null` apart. -/
inductive Keyword where
  | constWord | elseWord | functionWord | ifWord | letWord | returnWord | throwWord
  | typeofWord | varWord | whileWord
deriving DecidableEq, Repr

namespace Keyword

def all : List Keyword :=
  [constWord, elseWord, functionWord, ifWord, letWord, returnWord, throwWord, typeofWord,
    varWord, whileWord]

/-- The spelling of a keyword. -/
def text : Keyword → String
  | constWord => "const"
  | elseWord => "else"
  | functionWord => "function"
  | ifWord => "if"
  | letWord => "let"
  | returnWord => "return"
  | throwWord => "throw"
  | typeofWord => "typeof"
  | varWord => "var"
  | whileWord => "while"

def ofText? (s : String) : Option Keyword := all.find? fun k => k.text = s

end Keyword

/-- Brackets, separators and operators. -/
inductive Symbol where
  | leftBrace | rightBrace | leftParen | rightParen | leftBracket | rightBracket
  | semicolon | comma | colon | dot | question
  | plus | minus | star | slash | percent | bang
  | lessThan | lessThanEqual | greaterThan | greaterThanEqual
  | equalEqual | notEqual | strictEqual | strictNotEqual
  | ampersandAmpersand | pipePipe
  | equal | plusEqual | minusEqual
deriving DecidableEq, Repr

/-! ## Tokens -/

inductive Token where
  | number (value : Binary64)
  | string (value : String)
  | identifier (name : String)
  | boolean (value : Bool)
  | null
  | keyword (k : Keyword)
  | symbol (s : Symbol)
  /-- characters that begin no token -/
  | invalid
  /-- the end of the text -/
  | eof
deriving DecidableEq, Repr, Inhabited

namespace Token

/-- A word is a literal or a keyword if it is spelled like one, and else a name. -/
def ofWord (s : String) : Token :=
  if s = "true" then boolean true
  else if s = "false" then boolean false
  else if s = "null" then null
  else match Keyword.ofText? s with
    | some k => keyword k
    | none => identifier s

def isKeyword : Token → Bool
  | keyword _ => true
  | _ => false

end Token

/-! ## Names in messages -/

/-- The name of a keyword's token. -/
def Keyword.name : Keyword → String
  | constWord => "Const"
  | elseWord => "Else"
  | functionWord => "Function"
  | ifWord => "If"
  | letWord => "Let"
  | returnWord => "Return"
  | throwWord => "Throw"
  | typeofWord => "Typeof"
  | varWord => "Var"
  | whileWord => "While"

/-- The name of a symbol's token. -/
def Symbol.name : Symbol → String
  | leftBrace => "LeftBrace"
  | rightBrace => "RightBrace"
  | leftParen => "LeftParen"
  | rightParen => "RightParen"
  | leftBracket => "LeftBracket"
  | rightBracket => "RightBracket"
  | semicolon => "Semicolon"
  | comma => "Comma"
  | colon => "Colon"
  | dot => "Dot"
  | question => "Question"
  | plus => "Plus"
  | minus => "Minus"
  | star => "Star"
  | slash => "Slash"
  | percent => "Percent"
  | bang => "Bang"
  | lessThan => "LessThan"
  | lessThanEqual => "LessThanEqual"
  | greaterThan => "GreaterThan"
  | greaterThanEqual => "GreaterThanEqual"
  | equalEqual => "EqualEqual"
  | notEqual => "NotEqual"
  | strictEqual => "StrictEqual"
  | strictNotEqual => "StrictNotEqual"
  | ampersandAmpersand => "AmpersandAmpersand"
  | pipePipe => "PipePipe"
  | equal => "Equal"
  | plusEqual => "PlusEqual"
  | minusEqual => "MinusEqual"

namespace Token

/-- The name of the kind of a token. -/
def kindName : Token → String
  | number _ => "Number"
  | string _ => "String"
  | identifier _ => "Identifier"
  | boolean true => "True"
  | boolean false => "False"
  | null => "Null"
  | keyword k => k.name
  | symbol s => s.name
  | invalid => "Invalid"
  | eof => "Eof"

/-- A token in a message: its kind and what it holds. -/
def describe (t : Token) : String :=
  match t with
  | number x => t.kindName ++ "(" ++ x.sourceText ++ ")"
  | string s | identifier s => t.kindName ++ "(" ++ quoted s ++ ")"
  | _ => t.kindName

end Token

end Requisite.Source
