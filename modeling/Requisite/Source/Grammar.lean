/-
  The grammar of programs.

  Three constructs nest: statements, assignments (every expression is one) and
  the operands of unary operators.  `Readers` holds their readers for one depth,
  and each production of the grammar is a function of the readers one level
  deeper; `nested` stacks `maxDepth` levels of them upon readers that refuse.

  The lists of the grammar (statements, arguments, operator chains, ...) are
  read by loops that take at most `limit` steps, where `limit` is the number of
  tokens of the text: each step takes a token.

  * `operators`: operator chains, one per level of precedence, grouped to the
    left;
  * `nested`: the readers at each depth;
  * `Program.ofText?`: the program that a text is, or its first error.
-/
import Requisite.Source.Parse
import Requisite.Source.Tree

namespace Requisite.Source

open Reading

/-- How deeply statements, assignments and unary operands may nest. -/
def maxDepth : Nat := 128

/-- The readers of what nests, all of one depth. -/
structure Readers (m : Type → Type) where
  statement : m Stmt
  assignment : m Expr
  /-- an operand with its unary operators -/
  unary : m Expr

/-- Such readers that give answers. -/
abbrev Nested := Readers Parse

variable {m : Type → Type} [Monad m] [Reading m]

section
variable (limit : Nat) (inner : Readers m)

/-! ## Lists -/

/-- Statements up to a closing brace or the end of the text. -/
def statements (statement : m Stmt) : Nat → m (List Stmt)
  | 0 => outOfSteps []
  | steps + 1 => do
    let t ← token
    if t = .symbol .rightBrace ∨ t = .eof then return []
    else
      let s ← statement
      return s :: (← statements statement steps)

/-- One or more items with commas between them. -/
def separated {α : Type} (item : m α) : Nat → m (List α)
  | 0 => outOfSteps []
  | steps + 1 => do
    let x ← item
    if ← accept .comma then return x :: (← separated item steps)
    else return [x]

/-- Items with a comma after each, which the last may lack, up to the closing symbol. -/
def terminated {α : Type} (close : Symbol) (item : m α) : Nat → m (List α)
  | 0 => outOfSteps []
  | steps + 1 => do
    let t ← token
    if t = .symbol close ∨ t = .eof then return []
    else
      let x ← item
      if (← token) ≠ .symbol close then expect .comma
      return x :: (← terminated close item steps)

/-- Items in parentheses, the opening one being taken, with commas between them. -/
def listed {α : Type} (item : m α) : m (List α) := do
  let items ← if (← token) = .symbol .rightParen then pure [] else separated item limit
  expect .rightParen
  return items

/-- Statements in braces, the opening one being taken. -/
def braced : m (List Stmt) := do
  let body ← statements inner.statement limit
  expect .rightBrace
  return body

/-! ## Primary expressions -/

/-- The parameters and the body of a function. -/
def functionRest : m (List String × List Stmt) := do
  expect .leftParen
  let params ← listed limit identifier
  expect .leftBrace
  return (params, ← braced limit inner)

/-- A function expression after its keyword; the name may be missing. -/
def functionExpression : m Expr := do
  let name ← match ← token with
    | .identifier x => do
      advance
      pure (some x)
    | _ => pure none
  let (params, body) ← functionRest limit inner
  return .function name params body

/-- The key that a token stands for in an object literal. -/
def keyOf? : Token → Option String
  | .identifier x => some x
  | .string s => some s
  | .number x => some x.scriptText
  | _ => none

/-- A property of an object literal.  A name alone is a key and the variable that holds its
    value. -/
def property : m (String × Expr) := do
  let t ← token
  match keyOf? t with
  | none => fail (.unexpectedInObject t)
  | some key => do
    advance
    let short := t = .identifier key
    if short ∧ (← token) ≠ .symbol .colon then return (key, .name key)
    else
      expect .colon
      return (key, ← inner.assignment)

/-- A literal, a name, a function, or an expression in brackets of some kind. -/
def primary : m Expr := do
  match ← token with
  | .number x => do
    advance
    return .number x
  | .string s => do
    advance
    return .string s
  | .boolean b => do
    advance
    return .boolean b
  | .null => do
    advance
    return .null
  | .identifier x => do
    advance
    return .name x
  | .keyword .functionWord => do
    advance
    functionExpression limit inner
  | .symbol .leftParen => do
    advance
    let e ← inner.assignment
    expect .rightParen
    return e
  | .symbol .leftBracket => do
    advance
    let items ← terminated .rightBracket inner.assignment limit
    expect .rightBracket
    return .array items
  | .symbol .leftBrace => do
    advance
    let entries ← terminated .rightBrace (property inner) limit
    expect .rightBrace
    return .object entries
  | t => fail (.unexpected t)

/-! ## Calls, members and operators -/

/-- The calls and member accesses that follow an expression. -/
def suffixes : Nat → Expr → m Expr
  | 0, e => outOfSteps e
  | steps + 1, e => do
    match ← token with
    | .symbol .leftParen => do
      advance
      let args ← listed limit inner.assignment
      suffixes steps (.call e args)
    | .symbol .dot => do
      advance
      let key ← identifier
      suffixes steps (.dot e key)
    | .symbol .leftBracket => do
      advance
      let key ← inner.assignment
      expect .rightBracket
      suffixes steps (.index e key)
    | _ => return e

/-- An operand: unary operators, then a primary expression with what follows it. -/
def unary : m Expr := do
  match UnaryOp.ofToken? (← token) with
  | some op => do
    advance
    return .unary op (← inner.unary)
  | none => do
    suffixes limit inner limit (← primary limit inner)

/-- The operands of a chain of operators of one precedence that follow `left`, grouped to the
    left. -/
def chain (level : Nat) (operand : m Expr) : Nat → Expr → m Expr
  | 0, left => outOfSteps left
  | steps + 1, left => do
    match Infix.ofToken? level (← token) with
    | some op => do
      advance
      let right ← operand
      chain level operand steps (op.apply left right)
    | none => return left

/-- Expressions whose operators all have precedence at most `level`. -/
def operators : Nat → m Expr
  | 0 => unary limit inner
  | level + 1 => do
    chain (level + 1) (operators level) limit (← operators level)

/-- `test ? consequent : alternate`, or the test alone. -/
def conditional : m Expr := do
  let test ← operators limit inner Infix.loosest
  if ← accept .question then
    let consequent ← inner.assignment
    expect .colon
    return .conditional test consequent (← inner.assignment)
  else return test

/-- An assignment, or an expression without one. -/
def assignment : m Expr := do
  let target ← conditional limit inner
  match AssignOp.ofToken? (← token) with
  | some op => do
    if target.isTarget then
      advance
      return .assign op target (← inner.assignment)
    else fail .invalidTarget
  | none => return target

/-! ## Statements -/

/-- A name that is declared, with its value if it has one; a constant needs one. -/
def binding (kind : BindingKind) : m (String × Option Expr) := do
  let name ← identifier
  if ← accept .equal then return (name, some (← inner.assignment))
  else if kind = .constant then fail (.missingInitializer name)
  else return (name, none)

def statement : m Stmt := do
  let l := (← input).current
  match BindingKind.ofToken? l.token with
  | some kind => do
    advance
    let bindings ← separated (binding inner kind) limit
    endStatement
    return .declare kind bindings
  | none =>
    match l.token with
    | .keyword .functionWord => do
      advance
      let name ← identifier
      let (params, body) ← functionRest limit inner
      return .function name params body
    | .keyword .ifWord => do
      advance
      expect .leftParen
      let test ← inner.assignment
      expect .rightParen
      let consequent ← inner.statement
      if (← token) = .keyword .elseWord then
        advance
        return .conditional test consequent (some (← inner.statement))
      else return .conditional test consequent none
    | .keyword .whileWord => do
      advance
      expect .leftParen
      let test ← inner.assignment
      expect .rightParen
      return .while test (← inner.statement)
    | .keyword .returnWord => do
      advance
      let value ← if ← atStatementEnd then pure none else some <$> inner.assignment
      endStatement
      return .return value
    | .keyword .throwWord => do
      advance
      let value ← inner.assignment
      endStatement
      return .throw value l.start.line
    | .symbol .leftBrace => do
      advance
      return .block (← braced limit inner)
    | .symbol .semicolon => do
      advance
      return .empty
    | _ => do
      let e ← inner.assignment
      endStatement
      return .expression e

end

/-! ## Depth -/

/-- The readers that may nest `n` levels deep. -/
def nested (limit : Nat) : Nat → Nested
  | 0 => ⟨fail .tooDeep, fail .tooDeep, fail .tooDeep⟩
  | n + 1 =>
    let inner := nested limit n
    ⟨statement limit inner, assignment limit inner, unary limit inner⟩

/-- All statements of the input. -/
def program (statement : m Stmt) : Nat → m Program
  | 0 => outOfSteps []
  | steps + 1 => do
    if (← token) = .eof then return []
    else
      let s ← statement
      return s :: (← program statement steps)

namespace Program

/-- The program that tokens make up. -/
def ofLexemes? (ls : List Lexeme) : Except SyntaxError Program :=
  (program (nested ls.length maxDepth).statement ls.length).run' (.ofLexemes ls)

/-- The program that a text is. -/
def ofText? (s : String) : Except SyntaxError Program :=
  ofLexemes? (Lexeme.ofText s)

/-- A text is read once its tokens are known. -/
theorem ofText?_of_lexemes {s : String} {ls : List Lexeme} {o : Except SyntaxError Program}
    (hs : Lexeme.ofText s = ls) (h : ofLexemes? ls = o) : ofText? s = o := by
  subst hs
  exact h

end Program

end Requisite.Source
