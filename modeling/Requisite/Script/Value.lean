/-
  The values of scripts.

  Objects, arrays and functions are references into the heap: a value holds only
  their number, and two references are equal when they are the same.

  * `strictEq`, `looseEq`: the equalities `===` and `==`;
  * `truthy`, `toNumber`, `typeOf`: conversions that need no heap.
-/
import Requisite.Number.Text
import Requisite.Text.Blank

namespace Requisite.Script

open Requisite

/-! ## References -/

structure ObjectId where
  index : Nat
deriving DecidableEq, Repr, Hashable

structure ArrayId where
  index : Nat
deriving DecidableEq, Repr, Hashable

structure FunctionId where
  index : Nat
deriving DecidableEq, Repr, Hashable

structure ScopeId where
  index : Nat
deriving DecidableEq, Repr, Hashable

/-! ## Values -/

inductive Value where
  | undefined
  | null
  | boolean (b : Bool)
  | number (x : Binary64)
  | string (s : String)
  | object (id : ObjectId)
  | array (id : ArrayId)
  | function (id : FunctionId)
deriving DecidableEq, Repr

instance : Inhabited Value := ⟨.undefined⟩

namespace Value

def isUndefined : Value → Bool
  | undefined => true
  | _ => false

/-- Neither `undefined` nor `null` says anything. -/
def isNullish : Value → Bool
  | undefined | null => true
  | _ => false

def isFunction : Value → Bool
  | function _ => true
  | _ => false

/-- Whether a value refers into the heap. -/
def isReference : Value → Bool
  | object _ | array _ | function _ => true
  | _ => false

/-! ## Conversions -/

/-- What a value counts as in a condition. -/
def truthy : Value → Bool
  | undefined | null => false
  | boolean b => b
  | number x => !x.isNaN && !x.isZero
  | string s => s ≠ ""
  | object _ | array _ | function _ => true

/-- The number that a text between blanks denotes; nothing denotes zero. -/
def numberOfText (s : String) : Binary64 :=
  match trim s.toList with
  | [] => .zero
  | cs => (Binary64.ofText? cs).getD .nan

/-- The number that a value counts as. -/
def toNumber : Value → Binary64
  | undefined => .nan
  | null => .zero
  | boolean b => if b then .one else .zero
  | number x => x
  | string s => numberOfText s
  | object _ | array _ | function _ => .nan

/-- The name of a value's type. -/
def typeOf : Value → String
  | undefined => "undefined"
  | null => "object"
  | boolean _ => "boolean"
  | number _ => "number"
  | string _ => "string"
  | object _ | array _ => "object"
  | function _ => "function"

/-! ## Equality -/

/-- Equality without conversion: numbers as numbers, references by identity. -/
def strictEq : Value → Value → Bool
  | number x, number y => x.eq y
  | a, b => a = b

/-- Whether two values are primitives of different types other than `undefined` and `null`. -/
def differInType : Value → Value → Bool
  | number _, string _ | number _, boolean _ | string _, number _ | string _, boolean _
  | boolean _, number _ | boolean _, string _ => true
  | _, _ => false

/-- Equality with conversion: `undefined` and `null` equal each other and nothing else, and
    primitives of different types are compared as numbers. -/
def looseEq (a b : Value) : Bool :=
  if a.isNullish && b.isNullish then true
  else if a.isNullish || b.isNullish then false
  else if differInType a b then a.toNumber.eq b.toNumber
  else strictEq a b

end Value

end Requisite.Script
