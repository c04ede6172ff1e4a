/-
  The heap of scripts: objects, arrays, functions and scopes.

  Whatever is allocated keeps its number for good.  A scope is made with its
  outer scope at hand, so outer scopes have smaller numbers and every chain of
  scopes ends.

  * `newObject`, `newArray`, `newFunction`, `newScope`: allocation;
  * `properties`, `items`, `function?`: reading;
  * `holder?`: the nearest scope that binds a name;
  * `declare`, `get?`, `assign`: the bindings of scopes.
-/
import Requisite.OrderedMap
import Requisite.Script.Value
import Requisite.Source.Tree

namespace Requisite.Script

open Requisite Requisite.Source

/-! ## What the heap holds -/

/-- The properties of an object or a function, in the order of their keys' first writing. -/
abbrev Properties := OrderedMap String Value

/-- The functions that scripts do not define. -/
inductive Native where
  | log | error | warn
  /-- loads a module -/
  | require
  /-- finds the file of a module -/
  | resolve
deriving DecidableEq, Repr

/-- What a function does when it is called. -/
inductive Code where
  | script (params : List String) (body : List Stmt) (closure : ScopeId)
  | native (n : Native)

structure Function where
  name : Option String
  code : Code
  properties : Properties

/-- The number of parameters; functions that scripts do not define have none. -/
def Function.arity (f : Function) : Nat :=
  match f.code with
  | .script params _ _ => params.length
  | .native _ => 0

structure Binding where
  value : Value
  writable : Bool

structure Scope where
  bindings : OrderedMap String Binding
  outer : Option ScopeId

structure Heap where
  objects : Array Properties
  arrays : Array (Array Value)
  functions : Array Function
  scopes : Array Scope

instance : Inhabited Heap := ⟨⟨#[], #[], #[], #[]⟩⟩

namespace Heap

def empty : Heap := ⟨#[], #[], #[], #[]⟩

/-! ## Objects, arrays and functions -/

def newObject (h : Heap) (ps : Properties) : ObjectId × Heap :=
  (⟨h.objects.size⟩, { h with objects := h.objects.push ps })

def newArray (h : Heap) (items : Array Value) : ArrayId × Heap :=
  (⟨h.arrays.size⟩, { h with arrays := h.arrays.push items })

def newFunction (h : Heap) (f : Function) : FunctionId × Heap :=
  (⟨h.functions.size⟩, { h with functions := h.functions.push f })

/-- The properties of an object. -/
def properties (h : Heap) (o : ObjectId) : Properties := (h.objects[o.index]?).getD .empty

/-- The items of an array. -/
def items (h : Heap) (a : ArrayId) : Array Value := (h.arrays[a.index]?).getD #[]

def function? (h : Heap) (f : FunctionId) : Option Function := h.functions[f.index]?

def modifyProperties (h : Heap) (o : ObjectId) (f : Properties → Properties) : Heap :=
  { h with objects := h.objects.modify o.index f }

def modifyItems (h : Heap) (a : ArrayId) (f : Array Value → Array Value) : Heap :=
  { h with arrays := h.arrays.modify a.index f }

def modifyFunction (h : Heap) (id : FunctionId) (f : Function → Function) : Heap :=
  { h with functions := h.functions.modify id.index f }

/-- Writes an item of an array, which grows with `undefined` as far as needed. -/
def setItem (items : Array Value) (i : Nat) (v : Value) : Array Value :=
  if i < items.size then items.set! i v
  else (items ++ Array.replicate (i - items.size) Value.undefined).push v

/-! ## Scopes -/

/-- A scope without bindings inside `outer`. -/
def newScope (h : Heap) (outer : Option ScopeId) : ScopeId × Heap :=
  (⟨h.scopes.size⟩, { h with scopes := h.scopes.push ⟨.empty, outer⟩ })

/-- The nearest scope that binds `x`, from `s` outward. -/
def holder? (h : Heap) (s : ScopeId) (x : String) : Option ScopeId :=
  match h.scopes[s.index]? with
  | none => none
  | some scope =>
    if scope.bindings.contains x then some s
    else
      match scope.outer with
      | none => none
      | some o => if o.index < s.index then h.holder? o x else none
termination_by s.index

/-- The binding of `x` in the scope `s` itself. -/
def bindingIn? (h : Heap) (s : ScopeId) (x : String) : Option Binding :=
  (h.scopes[s.index]?).bind fun scope => scope.bindings.get? x

/-- The nearest binding of `x`. -/
def binding? (h : Heap) (s : ScopeId) (x : String) : Option Binding :=
  (h.holder? s x).bind fun t => h.bindingIn? t x

/-- The value of `x`, seen from the scope `s`. -/
def get? (h : Heap) (s : ScopeId) (x : String) : Option Value :=
  (h.binding? s x).map Binding.value

/-- Whether `x` is bound in the scope `s` itself. -/
def hasOwn (h : Heap) (s : ScopeId) (x : String) : Bool := (h.bindingIn? s x).isSome

/-- Binds `x` in the scope `s` itself, anew if it is bound there. -/
def declare (h : Heap) (s : ScopeId) (x : String) (v : Value) (writable : Bool) : Heap :=
  { h with scopes := h.scopes.modify s.index fun scope =>
      { scope with bindings := scope.bindings.set x ⟨v, writable⟩ } }

/-- Why an assignment is refused. -/
inductive AssignFailure where
  | unbound
  | constant
deriving DecidableEq, Repr

/-- Why an assignment to `x`, seen from the scope `s`, is refused, if it is. -/
def assignFailure? (h : Heap) (s : ScopeId) (x : String) : Option AssignFailure :=
  match h.binding? s x with
  | none => some .unbound
  | some b => if b.writable then none else some .constant

/-- Gives the nearest binding of `x` another value, whether or not it is writable. -/
def overwrite (h : Heap) (s : ScopeId) (x : String) (v : Value) : Heap :=
  match h.holder? s x with
  | none => h
  | some t => h.declare t x v true

/-- Gives the nearest binding of `x` another value. -/
def assign (h : Heap) (s : ScopeId) (x : String) (v : Value) : Except AssignFailure Heap :=
  match h.assignFailure? s x with
  | some e => .error e
  | none => .ok (h.overwrite s x v)

end Heap

end Requisite.Script
