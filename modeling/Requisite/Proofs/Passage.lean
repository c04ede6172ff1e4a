/-
  Errors on their way to the host.

  An error that a job raises ends all jobs that are open, up to the call of the
  host.  Scripts pass it on as it is, and each module that is open adds one
  layer.  Nothing runs any more meanwhile: an observer that is told of every job
  that begins would leave a trace in the world.

  * `ScriptError.within`, `LoaderError.within`: errors with layers;
  * `observed watch n`: the evaluator `evaluator n` with an observer;
  * `Within`, `Raised`: the jobs that are open in the course of a job, and errors
    that are raised there;
  * `Within.exists_raised`, `Within.fails`: a job that fails has had an error
    raised within it, and with any error that is raised within it it fails;
  * `require_error_nests`: the error of a `require` of the host.
-/
import Requisite.Proofs.Origins

namespace Requisite.Script

/-- An error as scripts see it that comes from within the loads of modules, the outermost first. -/
def ScriptError.within (x : ScriptError) : List Path → ScriptError
  | [] => x
  | p :: ps => .host (.loader (.failed p (x.within ps)))

/-- An error of the loader that comes from within the loads of modules, the outermost first. -/
def LoaderError.within (e : LoaderError) : List Path → LoaderError
  | [] => e
  | p :: ps => .failed p (.host (.loader (e.within ps)))

theorem ScriptError.within_concat (x : ScriptError) (ps : List Path) (p : Path) :
    x.within (ps ++ [p]) = (host (.loader (.failed p x))).within ps := by
  induction ps with
  | nil => rfl
  | cons q ps ih => rw [List.cons_append, within, within, ih]

theorem LoaderError.within_host (e : LoaderError) (ps : List Path) :
    (ScriptError.host (.loader e)).within ps = .host (.loader (e.within ps)) := by
  induction ps with
  | nil => rfl
  | cons p ps ih => rw [ScriptError.within, ih, LoaderError.within]

/-- Layers do not hide the cause. -/
theorem LoaderError.rootCause_within (e : LoaderError) (ps : List Path) :
    (e.within ps).rootCause = e.rootCause := by
  induction ps with
  | nil => rfl
  | cons p ps ih => rwa [within, rootCause]

/-- An original error that passes through modules is the cause of what comes out. -/
theorem LoaderError.IsOriginal.passes {e₀ e : LoaderError} (h : e₀.IsOriginal) {ps : List Path}
    (he : (ScriptError.host (.loader e₀)).within ps = .host (.loader e)) :
    e = e₀.within ps ∧ e.rootCause = e₀ := by
  rw [e₀.within_host] at he
  cases he
  refine ⟨rfl, ?_⟩
  rw [e₀.rootCause_within]
  cases e₀ with
  | failed => cases h
  | _ => rfl

/-- The error of a script comes out as that of the load of its module. -/
theorem ScriptError.passes {x : ScriptError} (hx : ∀ e₀, x ≠ .host (.loader e₀)) {e : LoaderError}
    {ps : List Path} (he : x.within ps = .host (.loader e)) :
    ∃ outer p, ps = outer ++ [p] ∧ e = (LoaderError.failed p x).within outer ∧
      e.rootCause = .failed p x := by
  rcases ps.eq_nil_or_concat with rfl | ⟨outer, p, rfl⟩
  · exact absurd he (hx e)
  · rw [List.concat_eq_append, within_concat, LoaderError.within_host] at he
    cases he
    refine ⟨outer, p, List.concat_eq_append, rfl, ?_⟩
    rw [LoaderError.rootCause_within, LoaderError.rootCause]
    rintro q e' ⟨⟩
    exact hx e' rfl

end Requisite.Script

namespace Requisite.Machine

open Requisite Requisite.Source Requisite.Script Requisite.Loader

open Run

/-! ## Observers -/

/-- What an observer does when it is told that a job begins. -/
abbrev Observer := Job → World → World

/-- The evaluator that tells an observer of each job, and then does it as `m` does. -/
def Evaluator.watched (m : Evaluator) (watch : Observer) : Evaluator where
  turns := m.turns
  eval s e := do
    modify (watch (.eval s e))
    m.eval s e
  evalTarget s e := do
    modify (watch (.target s e))
    m.evalTarget s e
  exec s vars stmt := do
    modify (watch (.exec s vars stmt))
    m.exec s vars stmt
  call f args := do
    modify (watch (.call f args))
    m.call f args
  require id := do
    modify (watch (.require id))
    m.require id
  load id path := do
    modify (watch (.load id path))
    m.load id path
  runModule r text := do
    modify (watch (.body r text))
    m.runModule r text

/-- The evaluator that goes at most `n` steps deep and tells an observer of each job. -/
def observed (watch : Observer) : Nat → Evaluator
  | 0 => .exhausted
  | n + 1 => (observed watch n).next.watched watch

/-- An observer that does nothing makes no difference. -/
theorem observed_idle (n : Nat) : observed (fun _ w => w) n = evaluator n := by
  induction n with
  | zero => rfl
  | succ n ih =>
    rw [evaluator_succ, ← ih]
    rfl

section
variable {watch : Observer} {m : Evaluator} {j : Job} {w w' : World} {x : ScriptError}

/-- A job that is observed begins when the observer is done. -/
theorem Evaluator.fails_watched :
    (m.watched watch).Fails w x w' j ↔ m.Fails (watch j w) x w' j := by
  cases j <;> exact Iff.rfl

theorem Evaluator.not_fails_exhausted : ¬Evaluator.exhausted.Fails w x w' j := by
  intro h
  cases j with
  | require | load =>
    obtain ⟨e, -, he⟩ := h
    exact not_ends_outOfFuel he
  | eval | target | exec | call | body => exact not_ends_outOfFuel h

end

/-! ## Within a job -/

/-- The jobs that are open in the course of the job `top`, begun in `start` with at most `n` steps
    to go, the innermost first, each with the world where it is asked for; the innermost may go at
    most `i` steps deep. -/
inductive Within (watch : Observer) (n : Nat) (top : Job) (start : World) :
    Nat → List (Job × World) → Prop
  | begun : Within watch n top start n [(top, start)]
  | asked {i j w k v frames} : Within watch n top start (i + 1) ((j, w) :: frames) →
      Asks (observed watch i) j (watch j w) k v →
      Within watch n top start i ((k, v) :: (j, w) :: frames)

/-- In the course of the job `top` the job `j`, asked for in `u` by the innermost of `frames`,
    raises the error `x` by itself, and ends in `v` with it. -/
def Raised (watch : Observer) (n : Nat) (top : Job) (start : World) (j : Job) (u : World)
    (frames : List (Job × World)) (x : ScriptError) (v : World) : Prop :=
  ∃ i, Within watch n top start (i + 1) ((j, u) :: frames) ∧
    (observed watch i).Raises (watch j u) x v j

/-- The modules that are reserved and not yet finished, the outermost first. -/
def openModules (frames : List (Job × World)) : List Path := (atWork frames).reverse

theorem openModules_cons (k : Job) (v : World) (frames : List (Job × World)) :
    openModules ((k, v) :: frames) = openModules frames ++ k.module?.toList := by
  cases k with
  | body r text => exact List.reverse_cons
  | _ => exact (List.append_nil _).symm

/-- An error is told from within the module of the job that had it, if that is one. -/
theorem within_openModules_cons (x : ScriptError) (k : Job) (v : World)
    (frames : List (Job × World)) :
    x.within (openModules ((k, v) :: frames)) = (k.told x).within (openModules frames) := by
  rw [openModules_cons]
  cases k with
  | body r text => exact x.within_concat _ _
  | _ => exact congrArg x.within (List.append_nil _)

namespace Within

variable {watch : Observer} {n i : Nat} {top j : Job} {start w w' : World}
  {frames : List (Job × World)} {x : ScriptError}

/-- **A job that fails has had an error raised within it.** -/
theorem exists_raised (h : Within watch n top start i ((j, w) :: frames))
    (hf : (observed watch i).Fails w x w' j) :
    ∃ k u rest y v, Raised watch n top start k u rest y v := by
  -- along the jobs that fail, up to the last; each of them is asked for by the one before
  induction i generalizing j w frames x w' with
  | zero => exact absurd hf Evaluator.not_fails_exhausted
  | succ i ih =>
    by_cases hex : ∃ k v y v', Asks (observed watch i) j (watch j w) k v ∧
      (observed watch i).Fails v y v' k
    · obtain ⟨k, v, y, v', hask, hk⟩ := hex
      exact ih (h.asked hask) hk
    · refine ⟨j, w, frames, x, w', i, h, Evaluator.fails_watched.1 hf, fun hask hk => ?_⟩
      exact hex ⟨_, _, _, _, hask, hk⟩

/-- **A job of a script fails with any error that is raised within it**: modules are abandoned, and
    nothing else is done. -/
theorem fails (hs : top.isScript) (h : Within watch n top start i ((j, w) :: frames))
    (hf : (observed watch i).Fails w x w' j) :
    ∃ v, (observed watch n).Fails start (x.within (openModules ((j, w) :: frames))) v top ∧
      Undone (openModules ((j, w) :: frames)) w' v := by
  generalize hst : (j, w) :: frames = stack at h
  -- from the innermost job down to `top`, which has no module of its own
  induction h generalizing j w frames x w' with
  | begun =>
    cases hst
    have ho : openModules [(top, start)] = [] := by
      rw [openModules_cons, module?_of_isScript hs]
      rfl
    rw [ho]
    exact ⟨w', hf, .refl⟩
  | asked h hask ih =>
    cases hst
    obtain ⟨u, hu, hun⟩ := hask.fails hf
    obtain ⟨v, hv, hun'⟩ := ih (Evaluator.fails_watched.2 hu) rfl
    refine ⟨v, ?_, ?_⟩
    · rw [within_openModules_cons]
      exact hv
    · rw [openModules_cons]
      exact hun.trans hun'

end Within

/-! ## The error of a `require` -/

/-- **Errors of the loader pass through scripts intact.**  When a `require` of the host fails, an
    error was raised within it, and the error of the `require` is that one, with a layer for each
    module that was open, in their order.  If it was an error of a search or of reading a file, that
    is the root cause; if it was the error of a script, the root cause is that of the load of its
    module.  From the moment when the error is raised nothing runs: whatever an observer does when a
    job begins, the world is left as it is, but for the modules that are abandoned. -/
theorem require_error_nests :
    (∀ n, observed (fun _ w => w) n = evaluator n) ∧
    ∀ watch n id w e w', ((observed watch n).require id).Ends w (.error e) w' →
      (∃ j u frames x v, Raised watch n (.require id) w j u frames x v) ∧
      ∀ j u frames x v, Raised watch n (.require id) w j u frames x v →
        Undone (openModules ((j, u) :: frames)) v w' ∧ Origin j (watch j u) x ∧
        ((∃ e₀ : LoaderError, x = .host (.loader e₀) ∧ e₀.IsOriginal ∧
            e = e₀.within (openModules ((j, u) :: frames)) ∧ e.rootCause = e₀) ∨
          ∃ outer p, (x.IsOwn ∨ ∃ s, x = .malformed s) ∧
            openModules ((j, u) :: frames) = outer ++ [p] ∧
            e = (LoaderError.failed p x).within outer ∧ e.rootCause = .failed p x) := by
  refine ⟨observed_idle, fun watch n id w e w' h => ⟨Within.begun.exists_raised ⟨e, rfl, h⟩, ?_⟩⟩
  rintro j u frames x v ⟨i, hin, hr⟩
  obtain ⟨w'', ⟨e', he, hend⟩, hun⟩ := hin.fails rfl (Evaluator.fails_watched.2 hr.fails)
  obtain ⟨heq, rfl⟩ := h.unique hend
  cases heq
  refine ⟨hun, hr.origin, ?_⟩
  cases hr.origin with
  | searched _ hp | required hp =>
    have h₀ := Resolver.isOriginal_of_resolve _ _ _ hp
    exact .inl ⟨_, rfl, h₀, h₀.passes he⟩
  | @read _ path _ reason =>
    have h₀ : (LoaderError.unreadable path reason).IsOriginal := trivial
    exact .inl ⟨_, rfl, h₀, h₀.passes he⟩
  | own _ hx =>
    obtain ⟨outer, p, h⟩ := ScriptError.passes (by rintro e₀ rfl; cases hx) he
    exact .inr ⟨outer, p, .inl hx, h⟩
  | @parsed _ _ _ s =>
    obtain ⟨outer, p, h⟩ := ScriptError.passes (by rintro e₀ ⟨⟩) he
    exact .inr ⟨outer, p, .inr ⟨s, rfl⟩, h⟩

/-! ### Two modules -/

/-- A fresh loader in the directory `/`, where the module `a.js` requires the malformed `b.js`. -/
def World.ofPair : World :=
  World.bare.withLoader .atRoot (.ofTexts [("/a.js", "require('./b')"), ("/b.js", "?")])

/-- The two modules an outcome's error has a layer for, if its root cause is a malformed text. -/
def malformedWithin? : Except (Stop LoaderError) Value → Option (Path × Path)
  | .error (.error (.failed p (.host (.loader (.failed q (.malformed _)))))) => some (p, q)
  | _ => none

theorem of_malformedWithin? {o : Except (Stop LoaderError) Value} {p q : Path}
    (h : malformedWithin? o = some (p, q)) :
    ∃ s, o = .error (.error (.failed p (.host (.loader (.failed q (.malformed s)))))) := by
  unfold malformedWithin? at h
  split at h
  · cases h
    exact ⟨_, rfl⟩
  · cases h

/-- The error has a layer for each of the two. -/
theorem ends_require_ofPair : ∃ s w', (require 20 "./a").Ends .ofPair
    (.error (.failed ⟨"/a.js"⟩ (.host (.loader (.failed ⟨"/b.js"⟩ (.malformed s)))))) w' := by
  have h : malformedWithin? ((require 20 "./a").result .ofPair).1 =
      some (⟨"/a.js"⟩, ⟨"/b.js"⟩) := by decide +kernel
  obtain ⟨s, hs⟩ := of_malformedWithin? h
  exact ⟨s, ((require 20 "./a").result .ofPair).2, Prod.ext hs rfl⟩

/-- The error is raised when both are open, and when it comes out both are abandoned. -/
theorem require_error_nests_ofPair : ∃ s w' j u frames v,
    (require 20 "./a").Ends .ofPair
      (.error (.failed ⟨"/a.js"⟩ (.host (.loader (.failed ⟨"/b.js"⟩ (.malformed s)))))) w' ∧
    Raised (fun _ w => w) 20 (.require "./a") .ofPair j u frames (.malformed s) v ∧
    openModules ((j, u) :: frames) = [⟨"/a.js"⟩, ⟨"/b.js"⟩] ∧
    Undone [⟨"/a.js"⟩, ⟨"/b.js"⟩] v w' := by
  obtain ⟨s, w', h⟩ := ends_require_ofPair
  have hidle := h
  rw [require, ← observed_idle] at hidle
  obtain ⟨⟨j, u, frames, x, v, hraised⟩, hall⟩ := require_error_nests.2 _ _ _ _ _ _ hidle
  obtain ⟨hun, -, ⟨e₀, -, h₀, -, hroot⟩ | ⟨outer, p, -, hop, he, hroot⟩⟩ := hall _ _ _ _ _ hraised
  · subst hroot
    cases h₀
  · cases hroot
    have houter : outer = [⟨"/a.js"⟩] := by
      rcases outer with _ | ⟨q, _ | ⟨q', outer⟩⟩
      · exact nomatch (LoaderError.failed.inj he).2
      · cases he
        rfl
      · cases he
    subst houter
    rw [hop] at hun
    exact ⟨s, w', j, u, frames, v, h, hraised, hop, hun⟩

end Requisite.Machine
