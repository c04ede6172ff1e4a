/-
  How runs end, and what they keep.

  * `Ends x w o w'`: the run `x` from `w` comes to an end in `w'`, with the
    outcome `o`; what is out of fuel has no end;
  * `Keeps R x`: however the run `x` ends, `R` holds between the world where it
    began and the world where it ends.

  A relation is `Modular` if it holds of all that leaves the modules alone, in
  any number of steps: what scripts do by themselves keeps every such relation.
-/
import Requisite.Machine.Eval

namespace Requisite.Machine

open Requisite Requisite.Source Requisite.Script Requisite.Loader

namespace Run

variable {ε ε' α β : Type}

/-! ## Ends -/

/-- The outcome of a run that has an end. -/
def ended : Except ε α → Except (Stop ε) α
  | .ok a => .ok a
  | .error e => .error (.error e)

/-- The run `x` from `w` ends in `w'`, with the outcome `o`. -/
def Ends (x : Run ε α) (w : World) (o : Except ε α) (w' : World) : Prop :=
  x.result w = (ended o, w')

section
variable {x : Run ε α} {w w' : World} {o : Except ε α}

theorem ends_ok {a : α} : x.Ends w (.ok a) w' ↔ x.result w = (.ok a, w') := Iff.rfl

/-- What a run gives it ends with. -/
theorem ends_of_toOption {a : α} (h : (x.result w).1.toOption = some a) :
    x.Ends w (.ok a) (x.result w).2 := by
  refine ends_ok.2 (Prod.ext ?_ rfl)
  cases ho : (x.result w).1 with
  | error e =>
    rw [ho] at h
    cases h
  | ok b =>
    rw [ho] at h
    cases h
    rfl

/-- A run has at most one end. -/
theorem Ends.unique {o' : Except ε α} {w'' : World} (h : x.Ends w o w') (h' : x.Ends w o' w'') :
    o = o' ∧ w' = w'' := by
  have he := Prod.mk.inj (h.symm.trans h')
  refine ⟨?_, he.2⟩
  cases o <;> cases o' <;> simp_all [ended]

@[simp] theorem ends_pure {a : α} : (pure a : Run ε α).Ends w o w' ↔ o = .ok a ∧ w' = w := by
  cases o <;> simp [Ends, ended, eq_comm]

@[simp] theorem ends_fail {e : ε} : (fail e : Run ε α).Ends w o w' ↔ o = .error e ∧ w' = w := by
  cases o <;> simp [Ends, ended, eq_comm]

@[simp] theorem not_ends_outOfFuel : ¬(outOfFuel : Run ε α).Ends w o w' := by
  cases o <;> simp [Ends, ended]

@[simp] theorem ends_modify {f : World → World} {o : Except ε Unit} :
    (modify f : Run ε Unit).Ends w o w' ↔ o = .ok () ∧ w' = f w := by
  cases o <;> simp [Ends, ended, eq_comm]

@[simp] theorem ends_modules {o : Except ε Modules} :
    (modules : Run ε Modules).Ends w o w' ↔ o = .ok w.modules ∧ w' = w := by
  cases o <;> simp [Ends, ended, eq_comm]

@[simp] theorem ends_heap {o : Except ε Heap} :
    (heap : Run ε Heap).Ends w o w' ↔ o = .ok w.heap ∧ w' = w := by
  cases o <;> simp [Ends, ended, eq_comm]

@[simp] theorem ends_modifyGetHeap {f : Heap → α × Heap} :
    (modifyGetHeap f : Run ε α).Ends w o w' ↔
      o = .ok (f w.heap).1 ∧ w' = { w with heap := (f w.heap).2 } := by
  cases o <;> simp [Ends, ended, eq_comm]

@[simp] theorem ends_newObject {ps : Properties} {o : Except ε ObjectId} :
    (newObject ps : Run ε ObjectId).Ends w o w' ↔
      o = .ok (w.heap.newObject ps).1 ∧ w' = { w with heap := (w.heap.newObject ps).2 } :=
  ends_modifyGetHeap

@[simp] theorem ends_modifyCache {f : Cache → Cache} {o : Except ε Unit} :
    (modifyCache f : Run ε Unit).Ends w o w' ↔
      o = .ok () ∧ w' = { w with modules := { w.modules with cache := f w.modules.cache } } := by
  cases o <;> simp [Ends, ended, eq_comm]

@[simp] theorem ends_note {a : Action} {o : Except ε Unit} :
    (note a : Run ε Unit).Ends w o w' ↔
      o = .ok () ∧ w' = { w with modules :=
        { w.modules with journal := ⟨a, w.modules.cache⟩ :: w.modules.journal } } := by
  cases o <;> simp [Ends, ended, eq_comm]

end

section
variable {x : Run ε α} {w w' : World}

theorem ends_bind {f : α → Run ε β} {o : Except ε β} :
    (x >>= f).Ends w o w' ↔
      (∃ a v, x.Ends w (.ok a) v ∧ (f a).Ends v o w') ∨
        ∃ e, x.Ends w (.error e) w' ∧ o = .error e := by
  unfold Ends
  rw [result_bind]
  rcases x.result w with ⟨(_ | e) | a, v⟩ <;> cases o <;>
    grind [ended]

theorem ends_bind_of {f : α → Run ε β} {o : Except ε β} {a : α} {v : World}
    (h : x.Ends w (.ok a) v) : (x >>= f).Ends w o w' ↔ (f a).Ends v o w' := by
  rw [ends_ok] at h
  unfold Ends
  rw [result_bind, h]

theorem ends_modules_bind {f : Modules → Run ε α} {o : Except ε α} :
    (modules >>= f).Ends w o w' ↔ (f w.modules).Ends w o w' := Iff.rfl

theorem ends_heap_bind {f : Heap → Run ε α} {o : Except ε α} :
    (heap >>= f).Ends w o w' ↔ (f w.heap).Ends w o w' := Iff.rfl

theorem ends_get_bind {f : World → Run ε α} {o : Except ε α} :
    (get >>= f).Ends w o w' ↔ (f w).Ends w o w' := Iff.rfl

theorem ends_bind_ok {f : α → Run ε β} {b : β} :
    (x >>= f).Ends w (.ok b) w' ↔ ∃ a v, x.Ends w (.ok a) v ∧ (f a).Ends v (.ok b) w' := by
  simp [ends_bind]

theorem ends_mapError {f : ε → ε'} {o : Except ε' α} :
    (x.mapError f).Ends w o w' ↔
      (∃ a, x.Ends w (.ok a) w' ∧ o = .ok a) ∨ ∃ e, x.Ends w (.error e) w' ∧ o = .error (f e) := by
  unfold Ends
  rw [result_mapError]
  rcases x.result w with ⟨(_ | e) | a, v⟩ <;> cases o <;>
    grind [ended]

theorem ends_tryCatch {h : Stop ε → Run ε α} {o : Except ε α}
    (hx : ∀ w w', ¬(h .outOfFuel).Ends w o w') :
    (tryCatch x h : Run ε α).Ends w o w' ↔
      (∃ a, x.Ends w (.ok a) w' ∧ o = .ok a) ∨
        ∃ e v, x.Ends w (.error e) v ∧ (h (.error e)).Ends v o w' := by
  unfold Ends at hx ⊢
  rw [result_tryCatch]
  rcases x.result w with ⟨(_ | e) | a, v⟩ <;> cases o <;>
    grind [ended]

theorem ends_andThen {f : World → World} {o : Except ε α} :
    (x.andThen f).Ends w o w' ↔ ∃ v, x.Ends w o v ∧ w' = f v := by
  unfold Ends
  rw [result_andThen]
  rcases x.result w with ⟨(_ | e) | a, v⟩ <;> cases o <;>
    grind [ended]

end

end Run

open Run

/-! ## Parts of a step -/

/-- The identifier among the arguments of a call is read without a change to the world. -/
theorem ends_identifierOf {args : List Value} {w w' : World} {o : Except ScriptError String}
    (h : (identifierOf args).Ends w o w') : w' = w := by
  unfold identifierOf at h
  split at h
  · split at h
    · exact (ends_fail.1 h).2
    · exact (ends_pure.1 h).2
  · exact (ends_fail.1 h).2
  · exact (ends_fail.1 h).2

theorem ends_apart {α : Type} {x : ScriptRun α} {w w' : World} {o : Except ScriptError α} :
    (apart x).Ends w o w' ↔
      ∃ v, x.Ends { w with depth := 0 } o v ∧ w' = { v with depth := w.depth } := by
  unfold Ends
  rw [result_apart]
  rcases x.result { w with depth := 0 } with ⟨(_ | e) | a, v⟩ <;> cases o <;>
    grind [ended]

theorem ends_resolve {id : String} {w w' : World} {o : Except LoaderError Path} :
    (resolve id).Ends w o w' ↔
      o = w.modules.resolver.resolve w.modules.files id w.modules.cache.currentContext ∧
        w' = w := by
  unfold resolve
  rw [ends_modules_bind]
  cases w.modules.resolver.resolve w.modules.files id w.modules.cache.currentContext <;> simp

end Requisite.Machine
