/-
  A parser with its state.

  A parser reads by the same grammar as the readers that only answer, and keeps
  account of it: of the token before the one at hand, of how deeply the
  constructs nest that it is reading, and of where statements ended without a
  semicolon.

  * `Parser`: the state, which is kept whatever the outcome;
  * `Parsing`: readers with such a state, where running out of steps or of levels
    is an outcome of its own;
  * `Parsing.deeper`: a construct that nests, up to `maxDepth`;
  * `parsers`: the readers of what nests, whatever the depth;
  * `Parsing.program`, `Program.bareEnds`: whole programs.
-/
import Requisite.Source.Grammar

namespace Requisite.Source

/-! ## States -/

structure Parser where
  input : Input
  /-- the token before the one at hand -/
  previous : Lexeme
  /-- how many constructs that nest are being read, one in the other -/
  depth : Nat
  /-- the greatest depth so far -/
  deepest : Nat
  /-- where statements ended without a semicolon, the latest first -/
  bareEnds : List Place

namespace Parser

def ofLexemes (ls : List Lexeme) : Parser :=
  ⟨.ofLexemes ls, ⟨.eof, .start, .start, false⟩, 0, 0, []⟩

/-- The parser at the beginning of a text. -/
def ofText (s : String) : Parser := ofLexemes (Lexeme.ofText s)

/-- Goes on to the input that is left after a token at most. -/
def moveTo (w : Parser) (i : Input) : Parser :=
  { w with
    input := i
    previous := if i.rest.length < w.input.rest.length then w.input.current else w.previous }

/-- Begins to read a construct that nests. -/
def enter (w : Parser) : Parser :=
  { w with depth := w.depth + 1, deepest := max w.deepest (w.depth + 1) }

def leave (w : Parser) : Parser := { w with depth := w.depth - 1 }

/-- Notes that a statement ends here without a semicolon. -/
def noteEnd (w : Parser) : Parser := { w with bareEnds := w.previous.stop :: w.bareEnds }

end Parser

/-! ## Readers -/

/-- Why a parser ends without an answer. -/
inductive Halt where
  | error (e : SyntaxError)
  /-- a loop had no steps left, or a construct no levels -/
  | exhausted

/-- A reader that keeps the state of a parser. -/
abbrev Parsing (α : Type) := ExceptT Halt (StateM Parser) α

namespace Parsing

variable {α β : Type}

/-- The outcome of a reader from a state, and the state after it. -/
def result (p : Parsing α) (w : Parser) : Except Halt α × Parser := p w

/-- What a reader does that takes a token at most. -/
def ofParse (p : Parse α) : Parsing α := fun w =>
  match p.run w.input with
  | .ok (a, i) => (.ok a, w.moveTo i)
  | .error e => (.error (.error e), w)

def exhausted : Parsing α := throw .exhausted

/-- Takes a semicolon, unless the statement may end without one. -/
def endStatement : Parsing Unit := do
  if !(← ofParse (Parse.accept .semicolon)) then
    if ← ofParse Parse.atStatementEnd then modify Parser.noteEnd
    else ofParse (Parse.fail (.expected .semicolon (← ofParse Parse.token)))

instance : Reading Parsing where
  input := ofParse get
  token := ofParse Parse.token
  advance := ofParse Parse.advance
  fail c := ofParse (Parse.fail c)
  expect s := ofParse (Parse.expect s)
  accept s := ofParse (Parse.accept s)
  identifier := ofParse Parse.identifier
  atStatementEnd := ofParse Parse.atStatementEnd
  endStatement := endStatement
  outOfSteps _ := exhausted

/-- A construct that nests.  The depth is as before in the end, whatever the outcome. -/
def deeper (p : Parsing α) : Parsing α := fun w =>
  if maxDepth ≤ w.depth then (Reading.fail .tooDeep : Parsing α).result w
  else
    let (r, w) := p.result w.enter
    (r, w.leave)

/-! ## Outcomes -/

section
variable (w : Parser)

@[simp] theorem result_pure (a : α) : (pure a : Parsing α).result w = (.ok a, w) := rfl

@[simp] theorem result_exhausted :
    (exhausted : Parsing α).result w = (.error .exhausted, w) := rfl

@[simp] theorem result_modify (f : Parser → Parser) :
    (modify f : Parsing Unit).result w = (.ok (), f w) := rfl

theorem result_bind (p : Parsing α) (k : α → Parsing β) :
    (p >>= k).result w = match p.result w with
      | (.ok a, v) => (k a).result v
      | (.error h, v) => (.error h, v) := by
  show (ExceptT.bindCont k (p w).1) (p w).2 = _
  unfold result
  rcases p w with ⟨_ | a, v⟩ <;> rfl

theorem result_deeper (p : Parsing α) :
    p.deeper.result w =
      if maxDepth ≤ w.depth then (Reading.fail .tooDeep : Parsing α).result w
      else ((p.result w.enter).1, (p.result w.enter).2.leave) := rfl

end

end Parsing

/-! ## Programs -/

/-- The readers of what nests, which have `levels` levels at most. -/
def parsers (limit : Nat) : Nat → Readers Parsing
  | 0 => ⟨.exhausted, .exhausted, .exhausted⟩
  | levels + 1 =>
    let inner := parsers limit levels
    ⟨(statement limit inner).deeper, (assignment limit inner).deeper, (unary limit inner).deeper⟩

/-- The reader of whole programs; a list has `limit` items at most. -/
def Parsing.program (limit levels : Nat) : Parsing Program :=
  Source.program (parsers limit levels).statement limit

/-- Where statements of a program end without a semicolon, the last first. -/
def Program.bareEnds (s : String) : List Place :=
  ((Parsing.program (Lexeme.ofText s).length (maxDepth + 1)).result (.ofText s)).2.bareEnds

end Requisite.Source
