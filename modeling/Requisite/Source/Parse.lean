/-
  Reading a list of tokens from its front.

  * `SyntaxError`: what is wrong, and on which line;
  * `Input`: the token at hand and those after it;
  * `Parse`: a reader that takes tokens from the input, or fails with the line
    of the token at hand;
  * `Reading`: what readers do, whatever else they keep.
-/
import Requisite.Source.Lexeme

namespace Requisite.Source

/-! ## Errors -/

/-- What a program text breaks. -/
inductive Complaint where
  | expected (wanted : Symbol) (found : Token)
  | expectedIdentifier (found : Token)
  | unexpected (found : Token)
  /-- where an object literal needs a key -/
  | unexpectedInObject (found : Token)
  /-- a constant that is declared without a value -/
  | missingInitializer (name : String)
  /-- an assignment to what is neither a name nor a member -/
  | invalidTarget
  | tooDeep
deriving DecidableEq, Repr

def Complaint.message : Complaint → String
  | expected wanted found => s!"Expected {wanted.name}, found {found.describe}"
  | expectedIdentifier found => s!"Expected identifier, found {found.describe}"
  | unexpected found => s!"Unexpected token: {found.describe}"
  | unexpectedInObject found => s!"Unexpected token in object literal: {found.describe}"
  | missingInitializer name => s!"Missing initializer in const '{name}'"
  | invalidTarget => "Invalid assignment target"
  | tooDeep => "Expression or block nested too deeply"

structure SyntaxError where
  complaint : Complaint
  line : Nat
deriving DecidableEq, Repr

def SyntaxError.message (e : SyntaxError) : String :=
  s!"{e.complaint.message} (line {e.line})"

/-! ## Input -/

/-- The tokens that are left: the one at hand and those after it.  The last of all is `eof`,
    which is never taken. -/
structure Input where
  current : Lexeme
  rest : List Lexeme

namespace Input

/-- The input that holds the tokens of a text. -/
def ofLexemes : List Lexeme → Input
  | [] => ⟨⟨.eof, .start, .start, false⟩, []⟩
  | l :: ls => ⟨l, ls⟩

/-- The input after the token at hand. -/
def next (i : Input) : Input :=
  match i.rest with
  | [] => i
  | l :: ls => ⟨l, ls⟩

end Input

/-! ## Readers -/

/-- A reader of part of a program. -/
abbrev Parse (α : Type) := StateT Input (Except SyntaxError) α

namespace Parse

/-- The token at hand. -/
def token : Parse Token := do return (← get).current.token

/-- Goes on to the next token. -/
def advance : Parse Unit := modify Input.next

/-- Fails on the line of the token at hand. -/
def fail {α : Type} (c : Complaint) : Parse α := do
  throw ⟨c, (← get).current.start.line⟩

/-- Takes the symbol `s`. -/
def expect (s : Symbol) : Parse Unit := do
  let t ← token
  if t = .symbol s then advance else fail (.expected s t)

/-- Takes the symbol `s` if it is at hand, and says whether it was. -/
def accept (s : Symbol) : Parse Bool := do
  if (← token) = .symbol s then
    advance
    return true
  else return false

/-- Takes a name. -/
def identifier : Parse String := do
  match ← token with
  | .identifier x =>
    advance
    return x
  | t => fail (.expectedIdentifier t)

/-- Whether a statement may end before the token at hand: at a semicolon, a closing brace or
    the end of the text, or where a new line begins. -/
def atStatementEnd : Parse Bool := do
  let l := (← get).current
  return l.token = .symbol .semicolon || l.token = .symbol .rightBrace || l.token = .eof ||
    l.newline

/-- Takes a semicolon, unless the statement may end without one. -/
def endStatement : Parse Unit := do
  if !(← accept .semicolon) then
    if !(← atStatementEnd) then
      fail (.expected .semicolon (← token))

end Parse

/-! ## Other readers -/

/-- What readers do.  The grammar is written in these, so that it has one text for readers that
    give an answer and for readers that also keep account of what they do. -/
class Reading (m : Type → Type) where
  input : m Input
  token : m Token
  advance : m Unit
  fail {α : Type} (c : Complaint) : m α
  expect (s : Symbol) : m Unit
  accept (s : Symbol) : m Bool
  identifier : m String
  atStatementEnd : m Bool
  endStatement : m Unit
  /-- what a loop answers that has no steps left -/
  outOfSteps {α : Type} (answer : α) : m α

instance : Reading Parse where
  input := get
  token := Parse.token
  advance := Parse.advance
  fail := Parse.fail
  expect := Parse.expect
  accept := Parse.accept
  identifier := Parse.identifier
  atStatementEnd := Parse.atStatementEnd
  endStatement := Parse.endStatement
  outOfSteps := pure

end Requisite.Source
