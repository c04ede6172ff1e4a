/-
  What is published stays.

  Modules are put, reserved, committed and abandoned in any order, with any
  number of reservations for one path at a time.  What has been loaded is not
  replaced by any of this, unless the path is reserved once more.

  * `Call`, `Cache.perform`: one operation, its answer and what it leaves;
  * `Cache.record?_perform`: a loaded record through one operation;
  * `Cache.published_lasts`: a loaded record through any number of them;
  * `Cache.published_replaced`: a reservation does not spare what is published.
-/
import Requisite.Proofs.Cache

namespace Requisite.Loader

open Requisite Requisite.Script

/-! ## Operations -/

/-- An operation of the cache. -/
inductive Call where
  | put (id : String) (p : Path) (exports : Value)
  | reserve (r : Reservation)
  | commit (r : Reservation) (exports : Value)
  | abandon (r : Reservation)
  | remember (dir : Path) (id : String) (p : Path)
  | lookup (dir : Path) (id : String)
  | pushContext (dir : Path)
  | popContext
  | truncate (depth : Nat)
  | delete (p : Path)
  | clear

namespace Call

/-- The operation takes the record of the path away. -/
def Forgets (p : Path) : Call → Prop
  | delete q => q.components = p.components
  | clear => True
  | _ => False

/-- The operation is a reservation of the path. -/
def Reserves (p : Path) : Call → Prop
  | reserve r => r.path.components = p.components
  | _ => False

/-- The operation gives exports to the module at the path. -/
def Publishes (p : Path) : Call → Prop
  | put _ q _ => q.components = p.components
  | commit r _ => r.path.components = p.components
  | _ => False

end Call

namespace Cache

/-- The exports that an operation answers with, if it answers with any, and the cache after it. -/
def perform (c : Cache) : Call → Option Value × Cache
  | .put id p v => (some (c.put id p v).1, (c.put id p v).2)
  | .reserve r => (none, c.reserve r)
  | .commit r v => (some (c.commit r v).1, (c.commit r v).2)
  | .abandon r => (none, c.abandon r)
  | .remember dir id p => (none, c.remember dir id p)
  | .lookup dir id => (c.lookup dir id, c)
  | .pushContext dir => (none, c.pushContext dir)
  | .popContext => (none, c.popContext.2)
  | .truncate depth => (none, c.truncate depth)
  | .delete p => ((c.delete p).1.map Record.exports, (c.delete p).2)
  | .clear => (none, c.clear)

/-- The cache after some operations. -/
def performAll (c : Cache) (calls : List Call) : Cache :=
  calls.foldl (fun c call => (c.perform call).2) c

/-! ## Loaded records -/

section
variable {c : Cache} {p : Path} {r : Record} (h : c.record? p = some r) (hr : r.state = .loaded)
include h hr

/-- Finishing any module leaves a loaded record as it is. -/
theorem record?_finish_of_loaded (id : String) (q : Path) (v : Value) :
    (c.finish id q v).2.record? p = some r := by
  unfold finish
  by_cases hq : p.components = q.components
  · rw [← c.record?_congr hq, h]
    simp [Record.isLoaded, hr, h]
  · split
    · rw [record?_setRecord, if_neg hq, h]
    · split
      · exact h
      · rw [record?_setRecord, if_neg hq, h]

/-- A loaded module keeps its exports when it is finished again, and they are the answer. -/
theorem finish_of_loaded {q : Path} (hq : q.components = p.components) (id : String) (v : Value) :
    (c.finish id q v).1 = r.exports := by
  unfold finish
  rw [c.record?_congr hq, h]
  simp [Record.isLoaded, hr]

/-- A reservation that is abandoned leaves a loaded record as it is. -/
theorem record?_abandon_of_loaded (s : Reservation) : (c.abandon s).record? p = some r := by
  unfold abandon
  by_cases hs : p.components = s.path.components
  · rw [← c.record?_congr hs, h]
    simp [Record.isLoaded, hr, h]
  · split
    · split
      · exact h
      · rw [record?, OrderedMap.get?_erase, if_neg hs]
        exact h
    · exact h

/-- **A loaded record through one operation** that neither forgets nor reserves its path. -/
theorem record?_perform {call : Call} (hf : ¬ call.Forgets p) (hs : ¬ call.Reserves p) :
    (c.perform call).2.record? p = some r := by
  cases call with
  | put id q v => exact record?_finish_of_loaded h hr id q v
  | reserve s => exact (c.record?_reserve p s).trans ((if_neg (Ne.symm hs)).trans h)
  | commit s v => exact record?_finish_of_loaded h hr s.id s.path v
  | abandon s => exact record?_abandon_of_loaded h hr s
  | delete q =>
    have herase : (c.delete q).2.record? p = c.record? p := by
      simp only [delete, record?, OrderedMap.get?_erase]
      rw [if_neg (Ne.symm hf)]
    exact herase.trans h
  | clear => exact absurd trivial hf
  | remember | lookup | pushContext | popContext | truncate => exact h

theorem perform_of_publishes {call : Call} (hc : call.Publishes p) :
    (c.perform call).1 = some r.exports := by
  cases call with
  | put id q v => exact congrArg some (finish_of_loaded h hr hc id v)
  | commit s v => exact congrArg some (finish_of_loaded h hr hc s.id v)
  | _ => exact hc.elim

theorem record?_performAll {calls : List Call}
    (hcalls : ∀ call ∈ calls, ¬ call.Forgets p ∧ ¬ call.Reserves p) :
    (c.performAll calls).record? p = some r := by
  induction calls generalizing c with
  | nil => exact h
  | cons call calls ih =>
    obtain ⟨⟨hf, hs⟩, hcalls⟩ := List.forall_mem_cons.1 hcalls
    exact ih (record?_perform h hr hf hs) hcalls

/-- **What is published lasts.**  The record of a loaded module stays as it is through all
    operations that neither delete the module nor reserve its path, and whoever then puts or
    commits a module at the path is answered with the exports on record. -/
theorem published_lasts {calls : List Call}
    (hcalls : ∀ call ∈ calls, ¬ call.Forgets p ∧ ¬ call.Reserves p) :
    (c.performAll calls).record? p = some r ∧
      ∀ call : Call, call.Publishes p →
        ((c.performAll calls).perform call).1 = some r.exports := by
  have hlast := record?_performAll h hr hcalls
  exact ⟨hlast, fun _ hc => perform_of_publishes hlast hr hc⟩

end

/-- Two reservations of one path are open when the module is put there: one is abandoned, the
    other committed with other exports. -/
theorem published_lasts_reservedTwice :
    let first : Reservation := ⟨"./a", ⟨"/a.js"⟩, .object ⟨0⟩⟩
    let second : Reservation := ⟨"/a", ⟨"/a.js"⟩, .object ⟨1⟩⟩
    let c := empty.performAll [.reserve first, .reserve second, .put "a" ⟨"/a.js"⟩ .null]
    let calls : List Call := [.abandon first, .reserve ⟨"b", ⟨"/b.js"⟩, .object ⟨2⟩⟩]
    c.record? ⟨"/a.js"⟩ = some ⟨"/a", ⟨"/a.js"⟩, .null, .loaded⟩ ∧
      (∀ call ∈ calls, ¬ call.Forgets ⟨"/a.js"⟩ ∧ ¬ call.Reserves ⟨"/a.js"⟩) ∧
      (c.performAll calls).record? ⟨"/a.js"⟩ = some ⟨"/a", ⟨"/a.js"⟩, .null, .loaded⟩ ∧
      ((c.performAll calls).perform (.commit second (.object ⟨1⟩))).1 = some .null := by
  intro first second c calls
  have h : c.record? ⟨"/a.js"⟩ = some ⟨"/a", ⟨"/a.js"⟩, .null, .loaded⟩ := by decide
  have hother : Path.components ⟨"/b.js"⟩ ≠ Path.components ⟨"/a.js"⟩ := by decide
  have hcalls : ∀ call ∈ calls, ¬ call.Forgets ⟨"/a.js"⟩ ∧ ¬ call.Reserves ⟨"/a.js"⟩ := by
    simp only [calls, List.forall_mem_cons]
    exact ⟨⟨nofun, nofun⟩, ⟨nofun, hother⟩, nofun⟩
  obtain ⟨hlast, hanswer⟩ := published_lasts h rfl hcalls
  exact ⟨h, hcalls, hlast, hanswer _ rfl⟩

/-- A reservation takes the exports of a loaded module off the record, although it is not
    deleted. -/
theorem published_replaced :
    ¬ ∀ (before after : List Call) (p : Path) (r : Record),
      (empty.performAll before).record? p = some r → r.state = .loaded →
      (∀ call ∈ after, ¬ call.Forgets p) →
      ∃ r', (empty.performAll (before ++ after)).record? p = some r' ∧ r'.state = .loaded ∧
        r'.exports = r.exports := by
  intro hlasts
  obtain ⟨r', hr', hs, -⟩ := hlasts [.put "a" ⟨"/a.js"⟩ .null]
    [.reserve ⟨"./a", ⟨"/a.js"⟩, .object ⟨0⟩⟩] ⟨"/a.js"⟩ ⟨"a", ⟨"/a.js"⟩, .null, .loaded⟩
    (by decide) rfl (by simp [Call.Forgets])
  have hreserved : (empty.performAll [.put "a" ⟨"/a.js"⟩ .null,
      .reserve ⟨"./a", ⟨"/a.js"⟩, .object ⟨0⟩⟩]).record? ⟨"/a.js"⟩ =
      some ⟨"./a", ⟨"/a.js"⟩, .object ⟨0⟩, .resolving⟩ := by decide
  rw [List.singleton_append, hreserved] at hr'
  cases hr'
  exact absurd hs nofun

end Cache

end Requisite.Loader
