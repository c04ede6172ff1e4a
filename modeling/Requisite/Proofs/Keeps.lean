/-
  What scripts keep.

  `R true` relates the worlds before and after a success, `R false` those before
  and after a failure.  Such a relation is `Modular` if it holds of all that
  leaves the modules alone, in any number of steps.  Scripts by themselves keep
  every such relation; so whether a whole evaluator keeps it depends on
  `require` only.

  * `Run.Keeps R x`: however the run `x` ends, `R` holds between the world where
    it began and the world where it ends;
  * `Evaluator.Keeps.next`: one step deeper, given that `require` keeps `R`;
  * `Asks.keeps`: from where a step of a script begins to where it asks for
    more.
-/
import Requisite.Proofs.Laws

namespace Requisite.Machine

open Requisite Requisite.Source Requisite.Script Requisite.Loader

open Run

/-- A relation that holds of all that leaves the modules alone, in any number of steps of which
    only the last may fail. -/
structure Modular (R : Bool → World → World → Prop) : Prop where
  idle {ok : Bool} {w w' : World} : w'.modules = w.modules → R ok w w'
  trans {ok : Bool} {u v w : World} : R true u v → R ok v w → R ok u w
  /-- what leaves the modules alone may follow, also after a failure -/
  tidy {ok : Bool} {u v w : World} : R ok u v → w.modules = v.modules → R ok u w

/-- Holds between the beginning and the end of a run, however it ends. -/
def Run.Keeps {ε α : Type} (R : Bool → World → World → Prop) (x : Run ε α) : Prop :=
  ∀ ⦃w o w'⦄, x.Ends w o w' → R o.isOk w w'

variable {R : Bool → World → World → Prop}

/-! ## Runs -/

section
variable {ε ε' α β : Type} {x : Run ε α}

/-- What never touches the modules keeps every modular relation. -/
theorem Modular.keeps (hR : Modular R) (h : ∀ w, (x.result w).2.modules = w.modules) :
    x.Keeps R := by
  intro w o w' hx
  have hm := h w
  rw [Ends] at hx
  rw [hx] at hm
  exact hR.idle hm

namespace Run.Keeps

theorem pure (hR : Modular R) (a : α) : (Pure.pure a : Run ε α).Keeps R := hR.keeps fun _ => rfl

theorem fail (hR : Modular R) (e : ε) : (Run.fail e : Run ε α).Keeps R := hR.keeps fun _ => rfl

theorem fault (hR : Modular R) (f : Fault) : (Run.fault f : ScriptRun α).Keeps R :=
  hR.keeps fun _ => rfl

theorem outOfFuel : (Run.outOfFuel : Run ε α).Keeps R := fun _ _ _ h =>
  absurd h not_ends_outOfFuel

theorem heap (hR : Modular R) : (Run.heap : Run ε Heap).Keeps R := hR.keeps fun _ => rfl

theorem modifyHeap (hR : Modular R) (f : Heap → Heap) : (Run.modifyHeap f : Run ε Unit).Keeps R :=
  hR.keeps fun _ => rfl

theorem modifyGetHeap (hR : Modular R) (f : Heap → α × Heap) :
    (Run.modifyGetHeap f : Run ε α).Keeps R := hR.keeps fun _ => rfl

theorem bind (hR : Modular R) {f : α → Run ε β} (hx : x.Keeps R) (hf : ∀ a, (f a).Keeps R) :
    (x >>= f).Keeps R := by
  intro w o w' h
  rcases ends_bind.1 h with ⟨a, v, hv, hw⟩ | ⟨e, hw, rfl⟩
  · exact hR.trans (hx hv) (hf a hw)
  · exact hx hw

theorem map (hR : Modular R) {f : α → β} (hx : x.Keeps R) : (f <$> x).Keeps R := by
  rw [map_eq_pure_bind]
  exact bind hR hx fun a => pure hR (f a)

theorem mapError {f : ε → ε'} (hx : x.Keeps R) : (x.mapError f).Keeps R := by
  intro w o w' h
  rcases ends_mapError.1 h with ⟨a, hw, rfl⟩ | ⟨e, hw, rfl⟩ <;> exact hx hw

end Run.Keeps

end

/-! ## Scripts by themselves -/

section
variable (hR : Modular R)
include hR

/-- What scripts are put together from keeps every modular relation. -/
theorem Modular.tolerant : Run.Tolerant fun x => x.Keeps R where
  pure := .pure hR
  heap := .heap hR
  modifyHeap := .modifyHeap hR
  modifyGetHeap := .modifyGetHeap hR
  outOfFuel h := absurd h not_ends_outOfFuel
  bind := .bind hR
  fail _ := .fail hR _

theorem keeps_deeper {α : Type} {x : ScriptRun α} (hx : x.Keeps R) : (deeper x).Keeps R := by
  refine .bind hR (hR.keeps fun _ => rfl) fun w => ?_
  split
  · exact .fault hR _
  · refine .bind hR (hR.keeps fun _ => rfl) fun _ w o w' h => ?_
    obtain ⟨v, hv, rfl⟩ := ends_andThen.1 h
    exact hR.tidy (hx hv) rfl

theorem keeps_resolve (id : String) : (resolve id).Keeps R := by
  intro w o w' h
  exact hR.idle (congrArg World.modules (ends_resolve.1 h).2)

end

/-! ## Evaluators -/

/-- What an evaluator does keeps a relation: all that scripts do, calls to `require` included. -/
structure Evaluator.Keeps (R : Bool → World → World → Prop) (m : Evaluator) : Prop where
  eval (s : ScopeId) (e : Expr) : (m.eval s e).Keeps R
  target (s : ScopeId) (e : Expr) : (m.evalTarget s e).Keeps R
  exec (s vars : ScopeId) (stmt : Stmt) : (m.exec s vars stmt).Keeps R
  call (f : Value) (args : List Value) : (m.call f args).Keeps R
  require (id : String) : (m.require id).Keeps R

namespace Evaluator.Keeps

variable {m : Evaluator} (hR : Modular R) (h : m.Keeps R)
include h

theorem has : m.Has fun x => x.Keeps R := ⟨h.eval, h.target, h.exec, h.call⟩

include hR

theorem callScript (params : List String) (body : List Stmt) (closure : ScopeId)
    (args : List Value) : (m.callScript params body closure args).Keeps R :=
  keeps_deeper hR (hR.tolerant.body (fun s => h.exec s s) params body closure args)

theorem callNative (args : List Value) (native : Native) : (m.callNative args native).Keeps R := by
  have hid := hR.tolerant.identifierOf args
  cases native with
  | log => exact hR.keeps fun _ => rfl
  | error => exact hR.keeps fun _ => rfl
  | warn => exact hR.keeps fun _ => rfl
  | require =>
    refine .bind hR (hR.keeps fun _ => rfl) fun ms => ?_
    split
    · exact .bind hR hid fun id => .mapError (h.require id)
    · exact .fault hR _
  | resolve =>
    refine .bind hR (hR.keeps fun _ => rfl) fun ms => ?_
    split
    · exact .bind hR hid fun id => .map hR (.mapError (keeps_resolve hR id))
    · exact .fault hR _

theorem callStep (f : Value) (args : List Value) : (m.callStep f args).Keeps R := by
  refine .bind hR (.heap hR) fun heap => ?_
  split
  · exact .bind hR (.heap hR) fun _ => .fault hR _
  · exact h.callScript hR _ _ _ args
  · exact h.callNative hR args _

/-- An evaluator that goes one step deeper keeps a relation if one step of `require` does. -/
theorem next (hreq : ∀ id, (m.requireStep id).Keeps R) : m.next.Keeps R where
  eval := hR.tolerant.evalStep h.has
  target := hR.tolerant.evalTargetStep h.has
  exec := hR.tolerant.execStep h.has
  call := h.callStep hR
  require := hreq

end Evaluator.Keeps

/-- What an evaluator does keeps `R`, and what the script of a reserved module does obeys `B`. -/
structure Evaluator.Obeys (R : Bool → World → World → Prop)
    (B : Reservation → Except ScriptError Value → World → World → Prop) (m : Evaluator) : Prop
    extends m.Keeps R where
  load (id : String) (path : Path) : (m.load id path).Keeps R
  body (r : Reservation) (text : String) {w w' : World} {o : Except ScriptError Value} :
    (m.runModule r text).Ends w o w' → B r o w w'

/-- What the three steps of the loader keep, all evaluators keep. -/
theorem Evaluator.Obeys.evaluator (hR : Modular R)
    {B : Reservation → Except ScriptError Value → World → World → Prop}
    (hreq : ∀ n, (evaluator n).Obeys R B → ∀ id, ((evaluator n).requireStep id).Keeps R)
    (hload : ∀ n, (evaluator n).Obeys R B → ∀ id path, ((evaluator n).loadStep id path).Keeps R)
    (hbody : ∀ n, (evaluator n).Obeys R B → ∀ r text {w o w'},
      ((evaluator n).runModuleStep r text).Ends w o w' → B r o w w') (n : Nat) :
    (evaluator n).Obeys R B := by
  induction n with
  | zero =>
    refine ⟨⟨?_, ?_, ?_, ?_, ?_⟩, ?_, fun _ _ _ _ _ h => absurd h not_ends_outOfFuel⟩ <;>
      intros <;> exact .outOfFuel
  | succ n ih =>
    have hs := ih.toKeeps.next hR (hreq n ih)
    rw [evaluator_succ]
    exact ⟨hs, hload n ih, fun r text _ _ _ h => hbody n ih r text h⟩

/-! ## Asking -/

/-- Whether a job is that of a script, and none of the loader's own. -/
def Job.isScript : Job → Bool
  | load _ _ | body _ _ => false
  | _ => true

section
variable {m : Evaluator} (hR : Modular R) (h : m.Keeps R)
include hR h

theorem Comes.keeps {s vars : ScopeId} {body : List Stmt} {w w' : World} {stmt : Stmt}
    (hc : Comes (m.exec s vars) body w stmt w') : R true w w' := by
  obtain ⟨before, after, v, -, hv⟩ := hc
  exact hR.tolerant.execList (h.exec s vars) _ before hv

theorem ComesCalled.keeps {params : List String} {body : List Stmt} {closure s : ScopeId}
    {args : List Value} {w w' : World} {stmt : Stmt}
    (hc : ComesCalled m params body closure args w s stmt w') : R true w w' := by
  obtain ⟨-, v, hv, hs⟩ := hc
  have hd : R true w { w with depth := w.depth + 1 } := hR.idle rfl
  have he : R true { w with depth := w.depth + 1 } v :=
    hR.tolerant.enter params body closure args hv
  exact hR.trans (hR.trans hd he) (hs.keeps hR h)

theorem Turned.keeps {s vars : ScopeId} {a : Expr} {b : Stmt} {n : Nat} {w w' : World}
    (hT : Turned (m.eval s a) (m.exec s vars b) n w w') : R true w w' := by
  induction hT with
  | zero => exact hR.idle rfl
  | succ ht _ hb _ ih => exact hR.trans (hR.trans (h.eval s a ht) (h.exec s vars b hb)) ih

/-- From where a step of a script begins to where it asks for more. -/
theorem Asks.keeps {j k : Job} {w v : World} (ha : Asks m j w k v) (hj : j.isScript) : R true w v := by
  cases ha with
  | item hb => exact hR.tolerant.mapM (h.eval _) _ hb
  | entry hb => exact hR.tolerant.mapM (hR.tolerant.evalEntry h.has _) _ hb
  | right hv | alternate hv _ | consequent hv _ | second hv _ => exact h.eval _ _ hv
  | key hv | targetKey hv | branch hv _ | otherwise hv _ => exact h.eval _ _ hv
  | assigned _ hp => exact h.target _ _ hp
  | added _ hp ho => exact hR.trans (h.target _ _ hp) (hR.tolerant.read _ _ ho)
  | argument hf _ hb => exact hR.trans (h.eval _ _ hf) (hR.tolerant.mapM (h.eval _) _ hb)
  | called hf _ hb => exact hR.trans (h.eval _ _ hf) (hR.tolerant.mapM (h.eval _) _ hb)
  | initial hb => exact hR.tolerant.forM (hR.tolerant.execBinding h.has _ _ _) _ hb
  | statement hi hh hc =>
    have h₁ := Run.Keeps.modifyGetHeap hR _ hi
    exact hR.trans (hR.trans h₁ (hR.tolerant.hoist _ _ hh)) (hc.keeps hR h)
  | whileTest hT _ => exact hT.keeps hR h
  | whileBody hT _ hv _ => exact hR.trans (hT.keeps hR h) (h.eval _ _ hv)
  | script _ hc => exact hc.keeps hR h
  | body | moduleStatement => simp [Job.isScript] at hj
  | _ => exact hR.idle rfl

end

end Requisite.Machine
