/-
  Members of values: reading and writing `object[key]`.

  * `arrayIndex?`: the index that a key is;
  * `Heap.getMember`, `Heap.setMember`: members of every kind of value.
-/
import Requisite.Script.Error

namespace Requisite.Script

open Requisite

/-- The indices that a word of 64 bits holds. -/
def indexLimit : Nat := 0x10000000000000000

/-- The index that a key denotes: decimal digits without a leading zero, and below
    `indexLimit`.  A plus sign may stand before digits of any kind. -/
def arrayIndex? (key : String) : Option Nat :=
  match key.toList with
  | [] => none
  | '0' :: _ :: _ => none
  | cs =>
    let digits := match cs with
      | '+' :: ds => ds
      | ds => ds
    if digits ≠ [] ∧ digits.all Char.isDigit ∧ ofDecimalDigits digits < indexLimit then
      some (ofDecimalDigits digits)
    else none

namespace Heap

/-- A member of a value.  Only `undefined` and `null` refuse to be read. -/
def getMember (h : Heap) (object : Value) (key : String) : Except Fault Value :=
  match object with
  | .undefined | .null => .error (.unreadable (h.display object) key)
  | .object o => .ok (((h.properties o).get? key).getD .undefined)
  | .array a =>
    let items := h.items a
    if key = "length" then .ok (.number (Binary64.ofNat items.size))
    else .ok (((arrayIndex? key).bind fun i => items[i]?).getD .undefined)
  | .string s =>
    if key = "length" then .ok (.number (Binary64.ofNat s.length))
    else
      let c := (arrayIndex? key).bind fun i => s.toList[i]?
      .ok ((c.map fun c => .string (String.ofList [c])).getD .undefined)
  | .function id =>
    match h.function? id with
    | none => .ok .undefined
    | some f =>
      if key = "name" then .ok (.string (f.name.getD ""))
      else if key = "length" then .ok (.number (Binary64.ofNat f.arity))
      else .ok ((f.properties.get? key).getD .undefined)
  | .boolean _ | .number _ => .ok .undefined

/-- Why writing a member of a value is refused, if it is. -/
def memberFault? (h : Heap) (object : Value) (key : String) : Option Fault :=
  match object with
  | .undefined | .null => some (.unwritable (h.display object) key)
  | .array _ => if (arrayIndex? key).isSome then none else some (.notIndex key)
  | _ => none

/-- The heap after a member of a value is written, as far as it can be.  A member of a primitive
    is written to nowhere. -/
def overwriteMember (h : Heap) (object : Value) (key : String) (v : Value) : Heap :=
  match object with
  | .object o => h.modifyProperties o fun ps => ps.set key v
  | .array a =>
    match arrayIndex? key with
    | some i => h.modifyItems a fun items => setItem items i v
    | none => h
  | .function id =>
    h.modifyFunction id fun f => { f with properties := f.properties.set key v }
  | _ => h

/-- The heap after a member of a value is written. -/
def setMember (h : Heap) (object : Value) (key : String) (v : Value) : Except Fault Heap :=
  match h.memberFault? object key with
  | some e => .error e
  | none => .ok (h.overwriteMember object key v)

end Heap

end Requisite.Script
