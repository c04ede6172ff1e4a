/-
  The operations of the cache, through its records, its contexts and its index.

  Paths with the same components are the same place: `record?` cannot tell them
  apart, and each operation changes the record of one place only.
-/
import Requisite.Loader.Cache

namespace Requisite.Loader

open Requisite Requisite.Script

namespace Cache

variable (c : Cache) (p q : Path)

/-! ## Records -/

theorem record?_congr {p q : Path} (h : p.components = q.components) : c.record? p = c.record? q := by
  simp [record?, h]

theorem record?_setRecord (r : Record) :
    (c.setRecord p r).record? q =
      if q.components = p.components then some r else c.record? q := by
  simp only [record?, setRecord, OrderedMap.get?_set]
  split <;> simp

theorem record?_reserve (r : Reservation) :
    (c.reserve r).record? q =
      if q.components = r.path.components then some ⟨r.id, r.path, r.placeholder, .resolving⟩
      else c.record? q :=
  c.record?_setRecord _ _ _

/-- A record that is not loaded is there with the new exports after it is finished. -/
theorem record?_commit_of_resolving {r : Reservation} {record : Record} (v : Value)
    (h : c.record? r.path = some record) (hs : record.state = .resolving) :
    (c.commit r v).1 = v ∧ (c.commit r v).2.record? q =
      if q.components = r.path.components then some { record with exports := v, state := .loaded }
      else c.record? q := by
  simp [commit, finish, h, Record.isLoaded, hs, record?_setRecord]

/-- A record that is not loaded is gone after it is abandoned. -/
theorem record?_abandon_of_resolving {r : Reservation} {record : Record}
    (h : c.record? r.path = some record) (hs : record.state = .resolving) :
    (c.abandon r).record? q =
      if q.components = r.path.components then none else c.record? q := by
  simp only [abandon, h, Record.isLoaded, hs]
  simp only [record?, reduceCtorEq, decide_false, Bool.false_eq_true, ↓reduceIte,
    OrderedMap.get?_erase]
  split <;> simp

/-- The module at a path is on record as being at work. -/
def Resolving (c : Cache) (p : Path) : Prop := ∃ r, c.record? p = some r ∧ r.state = .resolving

@[simp] theorem record?_pushContext : (c.pushContext p).record? q = c.record? q := rfl

@[simp] theorem record?_truncate (n : Nat) : (c.truncate n).record? q = c.record? q := rfl

@[simp] theorem record?_remember (dir : Path) (id : String) :
    (c.remember dir id p).record? q = c.record? q := rfl

/-! ## Contexts -/

@[simp] theorem contexts_reserve (r : Reservation) : (c.reserve r).contexts = c.contexts := rfl

@[simp] theorem contexts_commit (r : Reservation) (v : Value) :
    (c.commit r v).2.contexts = c.contexts := by
  unfold commit finish
  split
  · rfl
  · split <;> rfl

@[simp] theorem contexts_abandon (r : Reservation) : (c.abandon r).contexts = c.contexts := by
  unfold abandon
  split
  · split <;> rfl
  · rfl

@[simp] theorem contexts_put (id : String) (v : Value) : (c.put id p v).2.contexts = c.contexts :=
  c.contexts_commit ⟨id, p, v⟩ v

@[simp] theorem contexts_remember (dir : Path) (id : String) :
    (c.remember dir id p).contexts = c.contexts := rfl

/-- What is pushed is gone when the stack is cut back to its depth before. -/
theorem contexts_truncate {c' : Cache} (h : c'.contexts = p :: c.contexts) :
    (c'.truncate c.contextDepth).contexts = c.contexts := by
  simp [truncate, contextDepth, h]

/-! ## Index -/

@[simp] theorem index_reserve (r : Reservation) : (c.reserve r).index = c.index := rfl

@[simp] theorem index_commit (r : Reservation) (v : Value) :
    (c.commit r v).2.index = c.index := by
  unfold commit finish
  split
  · rfl
  · split <;> rfl

@[simp] theorem index_abandon (r : Reservation) : (c.abandon r).index = c.index := by
  unfold abandon
  split
  · split <;> rfl
  · rfl

@[simp] theorem index_put (id : String) (v : Value) : (c.put id p v).2.index = c.index :=
  c.index_commit ⟨id, p, v⟩ v

/-- What the index remembers after a module is forgotten, it remembered before. -/
theorem get?_index_delete (h : c.index.keys.Nodup) {k : List Component × String} {q : Path}
    (hq : (c.delete p).2.index.get? k = some q) : c.index.get? k = some q :=
  OrderedMap.lookup_of_filter h hq

theorem nodup_index_delete (h : c.index.keys.Nodup) : (c.delete p).2.index.keys.Nodup :=
  h.sublist (List.filter_sublist.map Prod.fst)

/-- An identifier is found in the index with its exports iff the module it led to is loaded. -/
theorem lookup_eq_some_iff {dir : Path} {id : String} {v : Value} :
    c.lookup dir id = some v ↔ ∃ p r, c.index.get? (dir.components, id) = some p ∧
      c.record? p = some r ∧ r.state = .loaded ∧ r.exports = v := by
  simp only [lookup, Option.bind_eq_bind, Option.bind_eq_some_iff, Record.isLoaded,
    decide_eq_true_eq]
  constructor
  · rintro ⟨p, hp, r, hr, hv⟩
    split at hv
    · next hs => exact ⟨p, r, hp, hr, hs, by simpa using hv⟩
    · simp at hv
  · rintro ⟨p, r, hp, hr, hs, rfl⟩
    exact ⟨p, hp, r, hr, by simp [hs]⟩

end Cache

end Requisite.Loader
