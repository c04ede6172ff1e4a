/-
  Trees in print.

  A tree is printed as a list of tokens.  Operands, callees, objects, initial
  values and expression statements stand in parentheses, the keys of object
  literals are strings, and no semicolon is left out.

  * `Expr.print`, `Stmt.print`: the tokens of a tree;
  * `Expr.levels`, `Stmt.levels`: how many statements, assignments and unary
    operands are open at once while the printed tree is read;
  * `Expr.isValid`, `Stmt.isValid`: what the grammar asks of a tree;
  * `Expr.onLine`, `Stmt.onLine`: a tree whose `throw`s all stand on one line.
-/
import Requisite.Source.Grammar

namespace Requisite.Source

open Requisite

/-! ## Operators and keywords -/

def UnaryOp.token : UnaryOp → Token
  | minus => .symbol .minus
  | plus => .symbol .plus
  | not => .symbol .bang
  | typeOf => .keyword .typeofWord

@[simp] theorem UnaryOp.ofToken?_token (op : UnaryOp) : ofToken? op.token = some op := by
  cases op <;> rfl

def BinaryOp.symbol : BinaryOp → Symbol
  | add => .plus
  | subtract => .minus
  | multiply => .star
  | divide => .slash
  | modulo => .percent
  | equal => .equalEqual
  | notEqual => .notEqual
  | strictEqual => .strictEqual
  | strictNotEqual => .strictNotEqual
  | less => .lessThan
  | lessEqual => .lessThanEqual
  | greater => .greaterThan
  | greaterEqual => .greaterThanEqual

def LogicalOp.symbol : LogicalOp → Symbol
  | and => .ampersandAmpersand
  | or => .pipePipe

def Infix.symbol : Infix → Symbol
  | binary op => op.symbol
  | logical op => op.symbol

@[simp] theorem Infix.ofSymbol?_symbol (op : Infix) : ofSymbol? op.symbol = some op := by
  rcases op with op | op <;> cases op <;> rfl

def AssignOp.symbol : AssignOp → Symbol
  | assign => .equal
  | add => .plusEqual
  | subtract => .minusEqual

@[simp] theorem AssignOp.ofToken?_symbol (op : AssignOp) :
    ofToken? (.symbol op.symbol) = some op := by
  cases op <;> rfl

/-- The keyword that begins a declaration. -/
def BindingKind.keyword : BindingKind → Keyword
  | var => .varWord
  | lexical => .letWord
  | constant => .constWord

@[simp] theorem BindingKind.ofToken?_keyword (kind : BindingKind) :
    ofToken? (.keyword kind.keyword) = some kind := by
  cases kind <;> rfl

/-! ## Tokens of trees -/

/-- Tokens in parentheses. -/
def grouped (ts : List Token) : List Token :=
  .symbol .leftParen :: (ts ++ [.symbol .rightParen])

/-- Tokens in braces. -/
def inBraces (ts : List Token) : List Token :=
  .symbol .leftBrace :: (ts ++ [.symbol .rightBrace])

/-- Tokens in square brackets. -/
def bracketed (ts : List Token) : List Token :=
  .symbol .leftBracket :: (ts ++ [.symbol .rightBracket])

/-- Pieces with commas between them. -/
def commas (pieces : List (List Token)) : List Token := [Token.symbol .comma].intercalate pieces

@[simp] theorem commas_singleton (ts : List Token) : commas [ts] = ts := by
  simp [commas]

theorem commas_cons_cons (ts us : List Token) (rest : List (List Token)) :
    commas (ts :: us :: rest) = ts ++ .symbol .comma :: commas (us :: rest) := by
  simp [commas]

/-- The name of a function, if it has one. -/
def printName : Option String → List Token
  | some x => [.identifier x]
  | none => []

/-- Parameters, then a body. -/
def printFunction (params : List String) (body : List Token) : List Token :=
  grouped (commas (params.map fun x => [.identifier x])) ++ inBraces body

mutual

/-- The tokens of an expression. -/
def Expr.print : Expr → List Token
  | .number x => [.number x]
  | .string s => [.string s]
  | .boolean b => [.boolean b]
  | .null => [.null]
  | .name x => [.identifier x]
  | .array items => bracketed (commas (printItems items))
  | .object entries => inBraces (commas (printEntries entries))
  | .function name params body =>
    .keyword .functionWord :: (printName name ++ printFunction params (printBody body).flatten)
  | .unary op e => op.token :: grouped e.print
  | .binary op a b => grouped a.print ++ .symbol op.symbol :: grouped b.print
  | .logical op a b => grouped a.print ++ .symbol op.symbol :: grouped b.print
  | .assign op target e => grouped target.print ++ .symbol op.symbol :: grouped e.print
  | .conditional test a b =>
    grouped test.print ++
      .symbol .question :: (grouped a.print ++ .symbol .colon :: grouped b.print)
  | .call callee args => grouped callee.print ++ grouped (commas (printItems args))
  | .dot object key => grouped object.print ++ [.symbol .dot, .identifier key]
  | .index object key => grouped object.print ++ bracketed key.print

def printItems : List Expr → List (List Token)
  | [] => []
  | e :: rest => e.print :: printItems rest

def printEntries : List (String × Expr) → List (List Token)
  | [] => []
  | (key, e) :: rest => (.string key :: .symbol .colon :: e.print) :: printEntries rest

/-- The tokens of a statement. -/
def Stmt.print : Stmt → List Token
  | .declare kind bindings =>
    .keyword kind.keyword :: (commas (printBindings bindings) ++ [.symbol .semicolon])
  | .function name params body =>
    .keyword .functionWord :: .identifier name :: printFunction params (printBody body).flatten
  | .expression e => grouped e.print ++ [.symbol .semicolon]
  | .block body => inBraces (printBody body).flatten
  | .conditional test a none => .keyword .ifWord :: (grouped test.print ++ a.print)
  | .conditional test a (some b) =>
    .keyword .ifWord :: (grouped test.print ++ (a.print ++ .keyword .elseWord :: b.print))
  | .while test body => .keyword .whileWord :: (grouped test.print ++ body.print)
  | .return none => [.keyword .returnWord, .symbol .semicolon]
  | .return (some e) => .keyword .returnWord :: (e.print ++ [.symbol .semicolon])
  | .throw e _ => .keyword .throwWord :: (e.print ++ [.symbol .semicolon])
  | .empty => [.symbol .semicolon]

def printBindings : List (String × Option Expr) → List (List Token)
  | [] => []
  | (x, none) :: rest => [.identifier x] :: printBindings rest
  | (x, some e) :: rest =>
    (.identifier x :: .symbol .equal :: grouped e.print) :: printBindings rest

def printBody : List Stmt → List (List Token)
  | [] => []
  | s :: rest => s.print :: printBody rest

end

/-- The tokens of a program. -/
def Program.print (p : Program) : List Token := (printBody p).flatten

/-! ## Levels -/

mutual

/-- How many levels of readers an expression takes when it is read as an assignment.  What is in
    parentheses or brackets is read one level further in; the operand of a unary operator, the
    value of an assignment and the branches of a choice are a level of their own. -/
def Expr.levels : Expr → Nat
  | .number _ | .string _ | .boolean _ | .null | .name _ => 1
  | .array items => 1 + itemsLevels items
  | .object entries => 1 + entriesLevels entries
  | .function _ _ body => 1 + bodyLevels body
  | .unary _ e => 2 + e.levels
  | .binary _ a b | .logical _ a b => 1 + max a.levels b.levels
  | .assign _ target e => 1 + max target.levels (1 + e.levels)
  | .conditional test a b => 1 + max test.levels (1 + max a.levels b.levels)
  | .call callee args => 1 + max callee.levels (itemsLevels args)
  | .dot object _ => 1 + object.levels
  | .index object key => 1 + max object.levels key.levels

def itemsLevels : List Expr → Nat
  | [] => 0
  | e :: rest => max e.levels (itemsLevels rest)

def entriesLevels : List (String × Expr) → Nat
  | [] => 0
  | (_, e) :: rest => max e.levels (entriesLevels rest)

/-- How many levels of readers a statement takes.  Expression statements and initial values are
    in parentheses. -/
def Stmt.levels : Stmt → Nat
  | .declare _ bindings => 1 + bindingsLevels bindings
  | .function _ _ body => 1 + bodyLevels body
  | .expression e => 2 + e.levels
  | .block body => 1 + bodyLevels body
  | .conditional test a none => 1 + max test.levels a.levels
  | .conditional test a (some b) => 1 + max test.levels (max a.levels b.levels)
  | .while test body => 1 + max test.levels body.levels
  | .return none => 1
  | .return (some e) => 1 + e.levels
  | .throw e _ => 1 + e.levels
  | .empty => 1

def bindingsLevels : List (String × Option Expr) → Nat
  | [] => 0
  | (_, none) :: rest => bindingsLevels rest
  | (_, some e) :: rest => max (1 + e.levels) (bindingsLevels rest)

def bodyLevels : List Stmt → Nat
  | [] => 0
  | s :: rest => max s.levels (bodyLevels rest)

end

/-- How many levels of readers a program takes. -/
def Program.levels (p : Program) : Nat := bodyLevels p

theorem Expr.levels_pos (e : Expr) : 0 < e.levels := by
  cases e <;> simp only [Expr.levels] <;> omega

theorem Stmt.levels_pos (s : Stmt) : 0 < s.levels := by
  cases s with
  | conditional test a b => cases b <;> simp only [Stmt.levels] <;> omega
  | «return» e => cases e <;> simp only [Stmt.levels] <;> omega
  | _ => simp only [Stmt.levels]; omega

/-! ## Rules of the grammar -/

/-- Whether a following `else` would belong to the statement. -/
def Stmt.endsOpen : Stmt → Bool
  | .conditional _ _ none => true
  | .conditional _ _ (some b) => b.endsOpen
  | .while _ body => body.endsOpen
  | _ => false

mutual

/-- Assignments have targets; the rest is about the statements of functions. -/
def Expr.isValid : Expr → Bool
  | .number _ | .string _ | .boolean _ | .null | .name _ => true
  | .array items => itemsValid items
  | .object entries => entriesValid entries
  | .function _ _ body => bodyValid body
  | .unary _ e => e.isValid
  | .binary _ a b | .logical _ a b => a.isValid && b.isValid
  | .assign _ target e => target.isTarget && target.isValid && e.isValid
  | .conditional test a b => test.isValid && a.isValid && b.isValid
  | .call callee args => callee.isValid && itemsValid args
  | .dot object _ => object.isValid
  | .index object key => object.isValid && key.isValid

def itemsValid : List Expr → Bool
  | [] => true
  | e :: rest => e.isValid && itemsValid rest

def entriesValid : List (String × Expr) → Bool
  | [] => true
  | (_, e) :: rest => e.isValid && entriesValid rest

/-- A declaration declares something, constants have values, and an `else` belongs to the
    statement that it is part of. -/
def Stmt.isValid : Stmt → Bool
  | .declare kind bindings => !bindings.isEmpty && bindingsValid kind bindings
  | .function _ _ body => bodyValid body
  | .expression e => e.isValid
  | .block body => bodyValid body
  | .conditional test a none => test.isValid && a.isValid
  | .conditional test a (some b) => test.isValid && a.isValid && !a.endsOpen && b.isValid
  | .while test body => test.isValid && body.isValid
  | .return none => true
  | .return (some e) => e.isValid
  | .throw e _ => e.isValid
  | .empty => true

def bindingsValid (kind : BindingKind) : List (String × Option Expr) → Bool
  | [] => true
  | (_, none) :: rest => kind != .constant && bindingsValid kind rest
  | (_, some e) :: rest => e.isValid && bindingsValid kind rest

def bodyValid : List Stmt → Bool
  | [] => true
  | s :: rest => s.isValid && bodyValid rest

end

/-- What the grammar asks of a program.  That its names are names, and that its numbers can be
    written, is asked of its tokens. -/
def Program.isValid (p : Program) : Bool := bodyValid p

/-! ## Lines -/

mutual

/-- The expression with every `throw` in it on line `line`. -/
def Expr.onLine (line : Nat) : Expr → Expr
  | .array items => .array (itemsOnLine line items)
  | .object entries => .object (entriesOnLine line entries)
  | .function name params body => .function name params (bodyOnLine line body)
  | .unary op e => .unary op (e.onLine line)
  | .binary op a b => .binary op (a.onLine line) (b.onLine line)
  | .logical op a b => .logical op (a.onLine line) (b.onLine line)
  | .assign op target e => .assign op (target.onLine line) (e.onLine line)
  | .conditional test a b => .conditional (test.onLine line) (a.onLine line) (b.onLine line)
  | .call callee args => .call (callee.onLine line) (itemsOnLine line args)
  | .dot object key => .dot (object.onLine line) key
  | .index object key => .index (object.onLine line) (key.onLine line)
  | e => e

def itemsOnLine (line : Nat) : List Expr → List Expr
  | [] => []
  | e :: rest => e.onLine line :: itemsOnLine line rest

def entriesOnLine (line : Nat) : List (String × Expr) → List (String × Expr)
  | [] => []
  | (key, e) :: rest => (key, e.onLine line) :: entriesOnLine line rest

/-- The statement with every `throw` in it on line `line`. -/
def Stmt.onLine (line : Nat) : Stmt → Stmt
  | .declare kind bindings => .declare kind (bindingsOnLine line bindings)
  | .function name params body => .function name params (bodyOnLine line body)
  | .expression e => .expression (e.onLine line)
  | .block body => .block (bodyOnLine line body)
  | .conditional test a none => .conditional (test.onLine line) (a.onLine line) none
  | .conditional test a (some b) =>
    .conditional (test.onLine line) (a.onLine line) (some (b.onLine line))
  | .while test body => .while (test.onLine line) (body.onLine line)
  | .return none => .return none
  | .return (some e) => .return (some (e.onLine line))
  | .throw e _ => .throw (e.onLine line) line
  | .empty => .empty

def bindingsOnLine (line : Nat) : List (String × Option Expr) → List (String × Option Expr)
  | [] => []
  | (x, none) :: rest => (x, none) :: bindingsOnLine line rest
  | (x, some e) :: rest => (x, some (e.onLine line)) :: bindingsOnLine line rest

def bodyOnLine (line : Nat) : List Stmt → List Stmt
  | [] => []
  | s :: rest => s.onLine line :: bodyOnLine line rest

end

theorem Expr.isTarget_onLine (line : Nat) (e : Expr) : (e.onLine line).isTarget = e.isTarget := by
  cases e <;> rfl

/-- The program with every `throw` in it on line `line`: but for these lines, the program. -/
def Program.onLine (line : Nat) (p : Program) : Program := bodyOnLine line p

end Requisite.Source
