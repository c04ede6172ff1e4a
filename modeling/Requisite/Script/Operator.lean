/-
  The operators on values.

  `+` joins texts as soon as one operand is a string or a reference; the other
  arithmetic operators work on numbers.  Two strings are ordered by their
  characters, all else as numbers.

  * `Heap.binary`: the operators with two operands;
  * `unary`: those with one;
  * `settles`: when a logical operator leaves its right operand alone.
-/
import Requisite.Script.Display

namespace Requisite.Script

open Requisite Requisite.Source

/-- Whether `+` joins a value as text. -/
def joinsText : Value → Bool
  | .string _ => true
  | v => v.isReference

/-- The outcome of comparing two values, if they can be ordered. -/
inductive Comparison where
  | less | equal | greater
  /-- one of them is not a number -/
  | unordered
deriving DecidableEq, Repr

/-- Compares two values. -/
def compareValues : Value → Value → Comparison
  | .string s, .string t => if s < t then .less else if s = t then .equal else .greater
  | a, b =>
    let x := a.toNumber
    let y := b.toNumber
    if x.lt y then .less
    else if x.eq y then .equal
    else if y.lt x then .greater
    else .unordered

/-- The value of an operator with two operands. -/
def Heap.binary (h : Heap) (op : BinaryOp) (a b : Value) : Value :=
  match op with
  | .add =>
    if joinsText a || joinsText b then .string (h.display a ++ h.display b)
    else .number (a.toNumber.add b.toNumber)
  | .subtract => .number (a.toNumber.sub b.toNumber)
  | .multiply => .number (a.toNumber.mul b.toNumber)
  | .divide => .number (a.toNumber.div b.toNumber)
  | .modulo => .number (a.toNumber.mod b.toNumber)
  | .equal => .boolean (a.looseEq b)
  | .notEqual => .boolean (!a.looseEq b)
  | .strictEqual => .boolean (a.strictEq b)
  | .strictNotEqual => .boolean (!a.strictEq b)
  | .less => .boolean (compareValues a b == .less)
  | .lessEqual => .boolean (compareValues a b == .less || compareValues a b == .equal)
  | .greater => .boolean (compareValues a b == .greater)
  | .greaterEqual => .boolean (compareValues a b == .greater || compareValues a b == .equal)

/-- The value of an operator with one operand. -/
def unary (op : UnaryOp) (v : Value) : Value :=
  match op with
  | .minus => .number v.toNumber.neg
  | .plus => .number v.toNumber
  | .not => .boolean (!v.truthy)
  | .typeOf => .string v.typeOf

/-- Whether the left operand of a logical operator settles its value. -/
def settles : LogicalOp → Value → Bool
  | .and, v => !v.truthy
  | .or, v => v.truthy

end Requisite.Script
