/-
  Programs as trees.

  * `Expr`, `Stmt`: expressions and statements;
  * `Infix`: the operators that stand between two operands, with their
    precedences.
-/
import Requisite.Number.Binary64
import Requisite.Source.Token

namespace Requisite.Source

open Requisite

/-! ## Operators -/

inductive UnaryOp where
  | minus | plus | not | typeOf
deriving DecidableEq, Repr

inductive BinaryOp where
  | add | subtract | multiply | divide | modulo
  | equal | notEqual | strictEqual | strictNotEqual
  | less | lessEqual | greater | greaterEqual
deriving DecidableEq, Repr

/-- Operators that evaluate their second operand only if the first leaves the answer open. -/
inductive LogicalOp where
  | and | or
deriving DecidableEq, Repr

inductive AssignOp where
  | assign | add | subtract
deriving DecidableEq, Repr

/-- How a declaration binds its names. -/
inductive BindingKind where
  /-- in the scope of the whole function -/
  | var
  /-- in the innermost block -/
  | lexical
  /-- in the innermost block, once and for all -/
  | constant
deriving DecidableEq, Repr

/-! ## Trees -/

mutual

inductive Expr where
  | number (value : Binary64)
  | string (value : String)
  | boolean (value : Bool)
  | null
  | name (x : String)
  | array (items : List Expr)
  | object (entries : List (String × Expr))
  | function (name : Option String) (params : List String) (body : List Stmt)
  | unary (op : UnaryOp) (operand : Expr)
  | binary (op : BinaryOp) (left right : Expr)
  | logical (op : LogicalOp) (left right : Expr)
  | assign (op : AssignOp) (target value : Expr)
  | conditional (test consequent alternate : Expr)
  | call (callee : Expr) (args : List Expr)
  /-- `object.key` -/
  | dot (object : Expr) (key : String)
  /-- `object[key]` -/
  | index (object key : Expr)

inductive Stmt where
  | declare (kind : BindingKind) (bindings : List (String × Option Expr))
  | function (name : String) (params : List String) (body : List Stmt)
  | expression (e : Expr)
  | block (body : List Stmt)
  | conditional (test : Expr) (consequent : Stmt) (alternate : Option Stmt)
  | while (test : Expr) (body : Stmt)
  | return (value : Option Expr)
  /-- the line is that of the keyword -/
  | throw (value : Expr) (line : Nat)
  | empty

end

instance : Inhabited Expr := ⟨.null⟩
instance : Inhabited Stmt := ⟨.empty⟩

/-- A program is the list of its statements. -/
abbrev Program := List Stmt

/-- Whether an expression may stand before an assignment operator. -/
def Expr.isTarget : Expr → Bool
  | .name _ | .dot _ _ | .index _ _ => true
  | _ => false

/-! ## Precedence -/

/-- An operator between two operands. -/
inductive Infix where
  | binary (op : BinaryOp)
  | logical (op : LogicalOp)
deriving DecidableEq, Repr

namespace Infix

/-- How tightly an operator binds its operands: 1 is the tightest. -/
def precedence : Infix → Nat
  | binary op => match op with
    | .multiply | .divide | .modulo => 1
    | .add | .subtract => 2
    | .less | .lessEqual | .greater | .greaterEqual => 3
    | .equal | .notEqual | .strictEqual | .strictNotEqual => 4
  | logical .and => 5
  | logical .or => 6

/-- The precedence of the loosest operator. -/
def loosest : Nat := 6

/-- The expression that an operator makes of its operands. -/
def apply : Infix → Expr → Expr → Expr
  | binary op, left, right => .binary op left right
  | logical op, left, right => .logical op left right

def ofSymbol? : Symbol → Option Infix
  | .plus => some (binary .add)
  | .minus => some (binary .subtract)
  | .star => some (binary .multiply)
  | .slash => some (binary .divide)
  | .percent => some (binary .modulo)
  | .equalEqual => some (binary .equal)
  | .notEqual => some (binary .notEqual)
  | .strictEqual => some (binary .strictEqual)
  | .strictNotEqual => some (binary .strictNotEqual)
  | .lessThan => some (binary .less)
  | .lessThanEqual => some (binary .lessEqual)
  | .greaterThan => some (binary .greater)
  | .greaterThanEqual => some (binary .greaterEqual)
  | .ampersandAmpersand => some (logical .and)
  | .pipePipe => some (logical .or)
  | _ => none

/-- The operator of precedence `level` that a token stands for. -/
def ofToken? (level : Nat) : Token → Option Infix
  | .symbol s => (ofSymbol? s).filter fun op => op.precedence = level
  | _ => none

end Infix

def UnaryOp.ofToken? : Token → Option UnaryOp
  | .symbol .bang => some .not
  | .symbol .minus => some .minus
  | .symbol .plus => some .plus
  | .keyword .typeofWord => some .typeOf
  | _ => none

def AssignOp.ofToken? : Token → Option AssignOp
  | .symbol .equal => some .assign
  | .symbol .plusEqual => some .add
  | .symbol .minusEqual => some .subtract
  | _ => none

/-- The operator that an assignment applies to the old and the new value. -/
def AssignOp.binary? : AssignOp → Option BinaryOp
  | .assign => none
  | .add => some .add
  | .subtract => some .subtract

def BindingKind.ofToken? : Token → Option BindingKind
  | .keyword .varWord => some .var
  | .keyword .letWord => some .lexical
  | .keyword .constWord => some .constant
  | _ => none

end Requisite.Source
