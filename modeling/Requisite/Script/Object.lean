/-
  An object in two halves: the values of its keys, and the keys in their order.

  The halves are written one after the other.  A key that is new comes last in the
  order, and one that is deleted leaves it.

  * `get?`, `has`, `keys`, `size`, `isEmpty`, `entries`: reading;
  * `set`, `delete`, `ofList`: writing.
-/
import Std.Data.HashMap
import Requisite.Script.Value

namespace Requisite.Script

/-- The properties of an object: their values by their keys, and the keys in the order of their
    first writing. -/
structure Object where
  values : Std.HashMap String Value
  order : List String

namespace Object

def empty : Object := ⟨∅, []⟩

def get? (o : Object) (k : String) : Option Value := o.values[k]?

def has (o : Object) (k : String) : Bool := o.values.contains k

/-- Writes a property; a key that is new comes last. -/
def set (o : Object) (k : String) (v : Value) : Object :=
  ⟨o.values.insert k v, if o.has k then o.order else o.order ++ [k]⟩

/-- Deletes a property, and tells whether there was one. -/
def delete (o : Object) (k : String) : Bool × Object :=
  if o.has k then (true, ⟨o.values.erase k, o.order.filter fun j => j ≠ k⟩) else (false, o)

/-- The keys, in order. -/
def keys (o : Object) : List String := o.order

def size (o : Object) : Nat := o.order.length

def isEmpty (o : Object) : Bool := o.order.isEmpty

/-- The value of a property; one that there is not is `undefined`. -/
def read (o : Object) (k : String) : Value := (o.get? k).getD .undefined

/-- The properties, in order. -/
def entries (o : Object) : List (String × Value) := o.order.map fun k => (k, o.read k)

/-- The properties written one after the other. -/
def ofList (entries : List (String × Value)) : Object :=
  entries.foldl (fun o e => o.set e.1 e.2) empty

/-! ## Laws -/

@[simp] theorem get?_empty (k : String) : empty.get? k = none := by simp [empty, get?]

theorem has_eq_isSome (o : Object) (k : String) : o.has k = (o.get? k).isSome :=
  Std.HashMap.contains_eq_isSome_getElem?

theorem get?_set (o : Object) (k j : String) (v : Value) :
    (o.set k v).get? j = if j = k then some v else o.get? j := by
  simp only [set, get?, Std.HashMap.getElem?_insert, beq_iff_eq, @eq_comm _ k]

theorem get?_delete (o : Object) (k j : String) :
    (o.delete k).2.get? j = if j = k then none else o.get? j := by
  unfold delete
  split
  · simp only [get?, Std.HashMap.getElem?_erase, beq_iff_eq, @eq_comm _ k]
  · next h =>
    rw [has_eq_isSome, Option.not_isSome_iff_eq_none] at h
    split
    · next hj => rw [hj, h]
    · rfl

theorem fst_delete (o : Object) (k : String) : (o.delete k).1 = o.has k := by
  unfold delete
  cases o.has k <;> rfl

end Object

end Requisite.Script
