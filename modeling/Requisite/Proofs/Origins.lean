/-
  How errors come about.

  A job fails because a job that it asks for fails, or with an error of its own.

  * `Run.ErrsIn P x`: whatever error the run `x` ends with, it is of the kind `P`;
  * `Evaluator.Raises`: a job fails though nothing that it asks for does;
  * `Origin`: what there is for an error to come from;
  * `Evaluator.Raises.origin`: what a job raises by itself comes from there.
-/
import Requisite.Proofs.Errors

namespace Requisite.Script

/-- The errors of a search for a module, and of reading its file. -/
def LoaderError.IsOriginal : LoaderError → Prop
  | notFound _ _ | unsupported _ _ | unreadable _ _ | badManifest _ => True
  | failed _ _ | badConfig _ => False

end Requisite.Script

namespace Requisite.Loader.Resolver

open Requisite.Script

variable (r : Resolver) (fs : FileSystem) (id : String)

theorem isOriginal_of_manifestMain {dir : Path} {e : LoaderError}
    (h : r.manifestMain fs dir = .error e) : e.IsOriginal := by
  unfold manifestMain at h
  grind [LoaderError.IsOriginal]

/-- A candidate that decides with an error that it is itself got it from a manifest. -/
theorem isOriginal_of_broken {root : Path} {e : LoaderError}
    (h : .broken e ∈ r.rootCandidates fs id root) : e.IsOriginal := by
  have hfile (p : Path) : .broken e ∉ r.fileCandidates p := by
    unfold fileCandidates
    split <;> simp
  have hmain (dir : Path) (main : Option String) : .broken e ∉ r.mainCandidates dir main := by
    cases main <;> simp [mainCandidates, hfile]
  simp only [rootCandidates, List.mem_append, List.mem_flatMap] at h
  rcases h with h | ⟨dir, -, h⟩
  · split at h
    · cases h
    · exact absurd h (hfile root)
  · rw [entryCandidates_eq] at h
    split at h
    · next hm =>
      obtain rfl : e = _ := by simpa using h
      exact r.isOriginal_of_manifestMain fs hm
    · exact absurd h (hmain dir _)

/-- **A search for a module fails with an error of its own**, and never with that of a script. -/
theorem isOriginal_of_resolve {context : Option Path} {e : LoaderError}
    (h : r.resolve fs id context = .error e) : e.IsOriginal := by
  rcases r.resolve_cases fs id h with ⟨_, he⟩ | ⟨_, he⟩ | ⟨_, he, -⟩ | ⟨e', he, hbroken⟩
  · cases he
    trivial
  · cases he
    trivial
  · cases he
  · cases he
    obtain ⟨root, -, hroot⟩ := List.mem_flatMap.1 hbroken
    exact r.isOriginal_of_broken fs id hroot

end Requisite.Loader.Resolver

namespace Requisite.Machine

open Requisite Requisite.Source Requisite.Script Requisite.Loader

open Run

/-! ## Kinds of errors -/

/-- All errors that a run may end with are of the kind `P`. -/
def Run.ErrsIn {ε α : Type} (P : ε → Prop) (x : Run ε α) : Prop :=
  ∀ ⦃w e w'⦄, x.Ends w (.error e) w' → P e

namespace Run.ErrsIn

variable {ε α : Type} {P : ε → Prop} {x : Run ε α}

/-- A run that always succeeds has no errors. -/
theorem ok (h : ∀ w, ∃ a v, x.result w = (.ok a, v)) : x.ErrsIn P := by
  intro w e w' he
  obtain ⟨a, v, ha⟩ := h w
  cases (ends_ok.2 ha).unique he |>.1

theorem fail {e : ε} (h : P e) : (Run.fail e : Run ε α).ErrsIn P := by
  intro w e' w' he
  obtain ⟨he, -⟩ := ends_fail.1 he
  cases he
  exact h

theorem bind {β : Type} {f : α → Run ε β} (hx : x.ErrsIn P) (hf : ∀ a, (f a).ErrsIn P) :
    (x >>= f).ErrsIn P := by
  intro w e w' h
  rcases ends_bind.1 h with ⟨a, v, -, h⟩ | ⟨e', h, he⟩
  · exact hf a h
  · cases he
    exact hx h

end Run.ErrsIn

/-- What scripts are put together from has no errors of its own, whatever the kind. -/
theorem lawful_errsIn (P : ScriptError → Prop) : Run.Lawful fun x => x.ErrsIn P where
  pure a := .ok fun w => ⟨a, w, rfl⟩
  heap := .ok fun w => ⟨w.heap, w, rfl⟩
  modifyHeap _ := .ok fun _ => ⟨(), _, rfl⟩
  modifyGetHeap _ := .ok fun _ => ⟨_, _, rfl⟩
  outOfFuel h := absurd h not_ends_outOfFuel
  bind := .bind

/-- What scripts do by themselves has errors of their own only. -/
theorem tolerant_errsIn : Run.Tolerant fun x => x.ErrsIn ScriptError.IsOwn where
  toLawful := lawful_errsIn _
  fail := .fail

namespace Evaluator

/-- An evaluator that never fails. -/
def Unfailing (m : Evaluator) : Prop := ∀ j w x w', ¬m.Fails w x w' j

namespace Unfailing

variable {m : Evaluator} (hm : m.Unfailing)
include hm

theorem has (P : ScriptError → Prop) : m.Has fun x => x.ErrsIn P where
  eval s e w x w' h := absurd h (hm (.eval s e) w x w')
  target s e w x w' h := absurd h (hm (.target s e) w x w')
  exec s vars stmt w x w' h := absurd h (hm (.exec s vars stmt) w x w')
  call f args w x w' h := absurd h (hm (.call f args) w x w')

/-- A script's function fails only because too many are at work. -/
theorem callScript {params : List String} {body : List Stmt} {closure : ScopeId}
    {args : List Value} {w w' : World} {x : ScriptError}
    (h : (m.callScript params body closure args).Ends w (.error x) w') :
    maxCalls ≤ w.depth ∧ x = .fault .stackExhausted := by
  unfold Evaluator.callScript deeper at h
  rw [ends_get_bind] at h
  split at h
  · next hd =>
    obtain ⟨hx, -⟩ := ends_fail.1 h
    cases hx
    exact ⟨hd, rfl⟩
  · rw [ends_bind_of (ends_modify.2 ⟨rfl, rfl⟩)] at h
    obtain ⟨v, hv, -⟩ := ends_andThen.1 h
    have hin := (lawful_errsIn fun _ => False).body fun s => (hm.has _).exec s s
    exact (hin params body closure args hv).elim

end Unfailing

end Evaluator

/-! ## Raising -/

/-- What the error is that a job begun in a world raises by itself, as scripts see it. -/
inductive Origin : Job → World → ScriptError → Prop
  | own {j w x} : j.isScript → x.IsOwn → Origin j w x
  /-- a search that a script asks for by `require.resolve` -/
  | searched {f args id w e} : codeOf? w.heap f = some (.native .resolve) →
      w.modules.resolver.resolve w.modules.files id w.modules.cache.currentContext = .error e →
      Origin (.call f args) w (.host (.loader e))
  | required {id w e} :
      w.modules.resolver.resolve w.modules.files id w.modules.cache.currentContext = .error e →
      Origin (.require id) w (.host (.loader e))
  | read {id path w reason} : w.modules.files.readText path = .error reason →
      Origin (.load id path) w (.host (.loader (.unreadable path reason)))
  | parsed {r text w e} : Program.ofText? text = .error e → Origin (.body r text) w (.malformed e)

namespace Evaluator

variable {m : Evaluator} {j : Job} {w w' : World} {x : ScriptError}

/-- What the error of a native function is if the requests of its caller never fail. -/
theorem Unfailing.origin_native (hm : m.Unfailing) {f : Value} {args : List Value} {native : Native}
    (hcode : codeOf? w.heap f = some (.native native))
    (h : (m.callNative args native).Ends w (.error x) w') : Origin (.call f args) w x := by
  cases native with
  | log | error | warn => cases ((Run.ErrsIn.ok (P := fun _ => False) fun _ => ⟨_, _, rfl⟩) h)
  | require =>
    have hx : (m.callNative args .require).ErrsIn ScriptError.IsOwn := by
      refine .bind (.ok fun _ => ⟨_, _, rfl⟩) fun ms => ?_
      split
      · refine .bind (tolerant_errsIn.identifierOf args) fun id w e w' he => ?_
        rcases ends_mapError.1 he with ⟨_, -, he⟩ | ⟨e, he, -⟩
        · cases he
        · exact absurd ⟨e, rfl, he⟩ (hm (.require id) w (.host (.loader e)) w')
      · exact .fail trivial
    exact .own rfl (hx h)
  | resolve =>
    unfold callNative at h
    rw [ends_modules_bind] at h
    split at h
    · rcases ends_bind.1 h with ⟨id, v, hid, hp⟩ | ⟨e, he, hx⟩
      · obtain rfl := ends_identifierOf hid
        rcases ends_bind.1 hp with ⟨p, v, -, hp⟩ | ⟨e, he, hx⟩
        · cases (ends_pure.1 hp).1
        · cases hx
          rcases ends_mapError.1 he with ⟨_, -, hx⟩ | ⟨e, he', hx⟩
          · cases hx
          · cases hx
            exact .searched hcode (ends_resolve.1 he').1.symm
      · cases hx
        exact .own rfl (tolerant_errsIn.identifierOf args he)
    · obtain ⟨hx, -⟩ := ends_fail.1 h
      cases hx
      exact .own rfl trivial

/-- What the error of a job is if its requests never fail. -/
theorem Unfailing.origin (hm : m.Unfailing) (h : m.next.Fails w x w' j) : Origin j w x := by
  cases j with
  | eval s e => exact .own rfl (tolerant_errsIn.evalStep (hm.has _) s e h)
  | target s e => exact .own rfl (tolerant_errsIn.evalTargetStep (hm.has _) s e h)
  | exec s vars stmt => exact .own rfl (tolerant_errsIn.execStep (hm.has _) s vars stmt h)
  | call f args =>
    have hc : (m.callStep f args).Ends w (.error x) w' := h
    unfold callStep at hc
    rw [ends_heap_bind] at hc
    rcases hcode : codeOf? w.heap f with _ | ⟨params, body, closure⟩ | native <;>
      rw [hcode] at hc
    · have hP := tolerant_errsIn
      exact .own rfl (hP.bind hP.heap (fun _ => hP.fault _) hc)
    · obtain ⟨-, rfl⟩ := hm.callScript hc
      exact .own rfl trivial
    · exact hm.origin_native hcode hc
  | require id =>
    obtain ⟨e, rfl, he⟩ := h
    rcases ends_requireStep.1 he with ⟨_, -, ho, -⟩ | ⟨-, ⟨e', he', ho⟩ | ⟨path, -, h⟩⟩
    · cases ho
    · cases ho
      exact .required (ends_resolve.1 he').1.symm
    · rcases h with ⟨e', he', -⟩ | ⟨_, _, -, ho, -⟩
      · exact absurd ⟨e', rfl, he'⟩ (hm (.load id path) w (.host (.loader e')) w')
      · cases ho
  | load id path =>
    obtain ⟨e, rfl, he⟩ := h
    rcases ends_loadStep.1 he with ⟨_, -, ho, -⟩ | ⟨-, ⟨reason, hr, ho, -⟩ | ⟨text, r, v, -, -, h⟩⟩
    · cases ho
    · cases ho
      exact .read hr
    · rcases ends_loadReserved.1 h with ⟨e', u, hu, -, -⟩ | ⟨_, _, -, ho, -⟩
      · exact absurd hu (hm (.body r text) v e' u)
      · cases ho
  | body r text =>
    rcases ends_runModuleStep.1 h with
      ⟨e, he, ho, -⟩ | ⟨body, args, module, w₁, c, w₂, -, -, hc, w₃, -, h⟩
    · cases ho
      exact .parsed he
    · rcases h with ⟨e, rfl, -, -⟩ | ⟨v, rfl, h⟩
      · -- the functions of a module are counted from none
        exact absurd (hm.callScript hc).1 (Nat.not_le.2 (by decide : 0 < maxCalls))
      · cases (ends_harvest.1 h).2

end Evaluator

/-- The run that is out of fuel where `x` fails. -/
def Run.hushed {ε α : Type} (x : Run ε α) : Run ε α := tryCatch x fun _ => outOfFuel

namespace Run

variable {ε α : Type} {x : Run ε α} {w w' : World}

theorem not_ends_hushed {e : ε} : ¬x.hushed.Ends w (.error e) w' := by
  unfold hushed Ends
  rw [result_tryCatch]
  rcases x.result w with ⟨_ | a, v⟩ <;> simp [ended]

theorem result_hushed (h : ∀ e v, ¬x.Ends w (.error e) v) : x.hushed.result w = x.result w := by
  unfold hushed
  rw [result_tryCatch]
  rcases hx : x.result w with ⟨(e | _) | a, v⟩
  · exact absurd hx (h e v)
  · rfl
  · rfl

end Run

namespace Evaluator

variable {m : Evaluator} {j k : Job} {w w' v : World} {x : ScriptError}

/-- The evaluator that is out of fuel where `m` fails. -/
def hushed (m : Evaluator) : Evaluator where
  turns := m.turns
  eval s e := (m.eval s e).hushed
  evalTarget s e := (m.evalTarget s e).hushed
  exec s vars stmt := (m.exec s vars stmt).hushed
  call f args := (m.call f args).hushed
  require id := (m.require id).hushed
  load id path := (m.load id path).hushed
  runModule r text := (m.runModule r text).hushed

theorem unfailing_hushed : m.hushed.Unfailing := by
  intro j w x w' h
  cases j with
  | require | load =>
    obtain ⟨e, -, he⟩ := h
    exact not_ends_hushed he
  | eval | target | exec | call | body => exact not_ends_hushed h

theorem agree_hushed (h : ∀ x v', ¬m.Fails v x v' k) : m.Agree m.hushed k v := by
  cases k with
  | require | load => exact result_hushed fun e v' he => h (.host (.loader e)) v' ⟨e, rfl, he⟩
  | eval | target | exec | call | body => exact result_hushed h

/-- A job that asks `m` for what it needs fails, though nothing that it asks for does. -/
structure Raises (m : Evaluator) (w : World) (x : ScriptError) (w' : World) (j : Job) : Prop where
  fails : m.next.Fails w x w' j
  itself {k v y v'} : Asks m j w k v → ¬m.Fails v y v' k

/-- **What a job raises by itself**: an error of a script is its own, and an error of the loader is
    that of a search or of reading a file. -/
theorem Raises.origin (h : m.Raises w x w' j) : Origin j w x := by
  -- what the job asks for does not fail, so it does the same if failures are hushed up
  have ha : m.next.Agree m.hushed.next j w :=
    agree_next rfl fun k v hask => agree_hushed fun y v' => h.itself hask
  exact unfailing_hushed.origin (ha.fails h.fails)

end Evaluator

end Requisite.Machine
