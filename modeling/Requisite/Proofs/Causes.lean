/-
  The innermost error of the loader.

  An error leads to the error that it goes back to, and so on to the end.  The
  loads of modules that failed inside one another are followed down to the last
  error of the loader on this way; but a host may also wrap the error of a script,
  and there the search for the root cause stops.  The errors of `require` have no
  such layer.

  * `Source.chain`, `lastLoader?`: the way of an error, and the last error of the
    loader on it;
  * `LoaderError.rewrapped?`: the error of a script that was wrapped once more;
  * `LoaderError.lastLoader?_chain`: the last error of the loader on the way of
    another;
  * `rootCause_innermost`: when that is the root cause;
  * `rootCause_stops`: an error of the loader behind a layer.
-/
import Requisite.Proofs.Passage

namespace Requisite.Script

/-! ## The way of an error -/

namespace Source

/-- An error and all that it goes back to. -/
def chain : Source → List Source
  | script e => e.chain
  | loader e => e.chain
  | other text => [other text]

def loader? : Source → Option LoaderError
  | loader e => some e
  | _ => none

/-- The chain of an error is the error and the chain of its source. -/
theorem chain_eq (s : Source) : s.chain = s :: s.source?.elim [] chain := by
  cases s with
  | script e =>
    cases e with
    | host cause => cases cause <;> rfl
    | _ => rfl
  | loader e => cases e <;> rfl
  | other text => rfl

end Source

/-- The last error of the loader among some errors. -/
def lastLoader? (errors : List Source) : Option LoaderError :=
  (errors.filterMap Source.loader?).getLast?

theorem lastLoader?_loader_cons (e : LoaderError) (errors : List Source) :
    lastLoader? (.loader e :: errors) = (lastLoader? errors).or (some e) := by
  simp [lastLoader?, Source.loader?, List.getLast?_cons]

theorem lastLoader?_script_cons (e : ScriptError) (errors : List Source) :
    lastLoader? (.script e :: errors) = lastLoader? errors := rfl

theorem mem_of_lastLoader? {e : LoaderError} {errors : List Source}
    (h : lastLoader? errors = some e) : .loader e ∈ errors := by
  obtain ⟨s, hs, he⟩ := List.mem_filterMap.1 (List.mem_of_getLast? h)
  cases s with
  | loader e' =>
    cases he
    exact hs
  | _ => cases he

namespace LoaderError

/-- The error of a script that a host wrapped to raise it in the script of the module. -/
def rewrapped? : LoaderError → Option ScriptError
  | failed _ (.host (.script x)) => some x
  | _ => none

/-! ## The root cause -/

theorem rootCause_rootCause (e : LoaderError) : e.rootCause.rootCause = e.rootCause := by
  fun_induction rootCause e with
  | case1 path e ih => exact ih
  | case2 e h =>
    rw [rootCause]
    exact h

/-- The root cause is on the way of the error. -/
theorem chain_rootCause_isSuffix (e : LoaderError) : e.rootCause.chain <:+ e.chain := by
  fun_induction rootCause e with
  | case1 path e ih =>
    obtain ⟨front, hfront⟩ := ih
    refine ⟨.loader (.failed path (.host (.loader e))) :: .script (.host (.loader e)) :: front, ?_⟩
    rw [List.cons_append, List.cons_append, hfront]
    rfl
  | case2 e h => exact List.suffix_rfl

/-- **The last error of the loader on the way of another** is the root cause, unless the way goes on
    through the error of a script that was wrapped once more, and comes to one there. -/
theorem lastLoader?_chain (e : LoaderError) : lastLoader? e.chain =
    (e.rootCause.rewrapped?.bind fun x => lastLoader? x.chain).or (some e.rootCause) := by
  fun_induction rootCause e with
  | case1 path e ih =>
    rw [chain, ScriptError.chain, lastLoader?_loader_cons, lastLoader?_script_cons, ih]
    cases e.rootCause.rewrapped?.bind fun x => lastLoader? x.chain <;> rfl
  | case2 e h =>
    cases e with
    | failed path x =>
      cases x with
      | host cause =>
        cases cause with
        | loader e => exact absurd rfl (h path e)
        | script x =>
          rw [chain, ScriptError.chain, lastLoader?_loader_cons, lastLoader?_script_cons]
          rfl
        | other text => rfl
      | _ => rfl
    | _ => rfl

end LoaderError

mutual

/-- An error is larger than the errors of the loader that it goes back to. -/
theorem ScriptError.sizeOf_of_mem_chain {e : LoaderError} :
    (x : ScriptError) → .loader e ∈ x.chain → sizeOf e < sizeOf x
  | .host (.loader e'), h => by
    have hle := LoaderError.sizeOf_of_mem_chain e' (by simpa [ScriptError.chain] using h)
    simp only [ScriptError.host.sizeOf_spec, HostCause.loader.sizeOf_spec]
    omega
  | .host (.script x), h => by
    have hlt := ScriptError.sizeOf_of_mem_chain x (by simpa [ScriptError.chain] using h)
    simp only [ScriptError.host.sizeOf_spec, HostCause.script.sizeOf_spec]
    omega
  | .host (.other _), h | .malformed _, h | .fault _, h | .stated _ _, h | .thrown _ _, h => by
    simp [ScriptError.chain] at h

theorem LoaderError.sizeOf_of_mem_chain {e : LoaderError} :
    (e' : LoaderError) → .loader e ∈ e'.chain → sizeOf e ≤ sizeOf e'
  | .failed p x, h => by
    rcases List.mem_cons.1 h with heq | h
    · cases heq
      exact Nat.le_refl _
    · have hlt := ScriptError.sizeOf_of_mem_chain x h
      simp only [LoaderError.failed.sizeOf_spec]
      omega
  | .unreadable _ _, h | .notFound _ _, h | .unsupported _ _, h | .badManifest _, h
  | .badConfig _, h =>
    Nat.le_of_eq (congrArg sizeOf (by simpa [LoaderError.chain] using h))

end

namespace LoaderError

theorem sizeOf_of_rewrapped? {e : LoaderError} {x : ScriptError} (h : e.rewrapped? = some x) :
    sizeOf x < sizeOf e := by
  unfold rewrapped? at h
  split at h
  · cases h
    simp only [failed.sizeOf_spec, ScriptError.host.sizeOf_spec, HostCause.script.sizeOf_spec]
    omega
  · cases h

/-- The root cause is the last error of the loader if and only if there is none behind a layer. -/
theorem lastLoader?_chain_eq_rootCause_iff (e : LoaderError) :
    lastLoader? e.chain = some e.rootCause ↔
      ∀ x, e.rootCause.rewrapped? = some x → lastLoader? x.chain = none := by
  rw [lastLoader?_chain]
  cases hr : e.rootCause.rewrapped? with
  | none => simp
  | some x =>
    rw [Option.bind_some]
    constructor
    · rintro h y ⟨⟩
      refine Option.eq_none_iff_forall_ne_some.2 fun l hl => ?_
      rw [hl, Option.some_or, Option.some.injEq] at h
      have hlt := x.sizeOf_of_mem_chain (mem_of_lastLoader? hl)
      have hlt' := sizeOf_of_rewrapped? hr
      rw [h] at hlt
      omega
    · intro h
      rw [h x rfl, Option.none_or]

theorem IsOriginal.rewrapped?_eq_none {e : LoaderError} (h : e.IsOriginal) :
    e.rewrapped? = none := by
  cases e with
  | failed => cases h
  | _ => rfl

end LoaderError

end Requisite.Script

namespace Requisite.Machine

open Requisite Requisite.Script Requisite.Loader

/-! ## Errors of `require` -/

/-- No layer is wrapped around the error of a script on its way to the host. -/
theorem rewrapped?_rootCause {n : Nat} {id : String} {w w' : World} {e : LoaderError}
    (h : (require n id).Ends w (.error e) w') : e.rootCause.rewrapped? = none := by
  rw [require, ← observed_idle] at h
  have hbegun : Within (fun _ w => w) n (.require id) w n [(.require id, w)] := .begun
  obtain ⟨j, u, frames, x, v, i, hin, hr⟩ := hbegun.exists_raised ⟨e, rfl, h⟩
  obtain ⟨w'', ⟨e', he, hend⟩, -⟩ := hin.fails rfl (Evaluator.fails_watched.2 hr.fails)
  cases (h.unique hend).1
  cases hr.origin with
  | searched _ hp | required hp =>
    have h₀ := Resolver.isOriginal_of_resolve _ _ _ hp
    rw [(h₀.passes he).2, h₀.rewrapped?_eq_none]
  | @read _ path _ reason =>
    have h₀ : (LoaderError.unreadable path reason).IsOriginal := trivial
    rw [(h₀.passes he).2, h₀.rewrapped?_eq_none]
  | own _ hx =>
    obtain ⟨outer, p, -, -, hroot⟩ := ScriptError.passes (by rintro e₀ rfl; cases hx) he
    rw [hroot]
    cases x with
    | host => cases hx
    | _ => rfl
  | parsed =>
    obtain ⟨outer, p, -, -, hroot⟩ := ScriptError.passes (by rintro e₀ ⟨⟩) he
    rw [hroot]
    rfl

/-- **The root cause is the innermost error of the loader**, as far as loads fail inside one
    another.  The way of an error goes from each error to the one that it goes back to.  The root
    cause is on this way, and is its own root cause.  It is the last error of the loader there if
    and only if its script did not fail with a wrapped error of a script behind which there is
    another one; the errors that `require` ends with never have such a layer. -/
theorem rootCause_innermost (e : LoaderError) :
    (∀ s : Script.Source, s.chain = s :: s.source?.elim [] Script.Source.chain) ∧
    e.rootCause.chain <:+ e.chain ∧ e.rootCause.rootCause = e.rootCause ∧
    (lastLoader? e.chain = some e.rootCause ↔
      ∀ x, e.rootCause.rewrapped? = some x → lastLoader? x.chain = none) ∧
    ∀ n id w w', (require n id).Ends w (.error e) w' → lastLoader? e.chain = some e.rootCause := by
  refine ⟨Script.Source.chain_eq, e.chain_rootCause_isSuffix, e.rootCause_rootCause,
    e.lastLoader?_chain_eq_rootCause_iff, fun n id w w' h => ?_⟩
  rw [e.lastLoader?_chain_eq_rootCause_iff, rewrapped?_rootCause h]
  rintro x ⟨⟩

/-- A module requires a malformed one: the innermost error is that of loading the latter. -/
theorem rootCause_innermost_ofPair : ∃ s e w', (require 20 "./a").Ends .ofPair (.error e) w' ∧
    lastLoader? e.chain = some (.failed ⟨"/b.js"⟩ (.malformed s)) := by
  obtain ⟨s, w', h⟩ := ends_require_ofPair
  exact ⟨s, _, w', h, (rootCause_innermost _).2.2.2.2 _ _ _ _ h⟩

/-- The script of a module fails with an error of the host that is the error of another script,
    which required a missing module.  The root cause is the error of loading the first module,
    although the way goes on to the missing one. -/
theorem rootCause_stops :
    let e : LoaderError :=
      .failed ⟨"/a.js"⟩ (.host (.script (.host (.loader (.notFound "./m" [])))))
    e.rootCause = e ∧ lastLoader? e.chain = some (.notFound "./m" []) ∧
      lastLoader? e.chain ≠ some e.rootCause :=
  ⟨rfl, rfl, nofun⟩

end Requisite.Machine
