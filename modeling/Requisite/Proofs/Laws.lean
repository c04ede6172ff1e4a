/-
  Properties of runs, part by part.

  What scripts do is put together from a few kinds of runs.  A property that
  holds of these, and of two runs one after the other if it holds of both, holds
  of all that scripts do by themselves; and of a step of an evaluator, if it
  holds of what the evaluator does.

  * `Run.Lawful P`: `P` holds of what never fails by itself, and of sequences;
  * `Run.Tolerant P`: `P` also holds of the errors that scripts make;
  * `Evaluator.Has P m`: `P` holds of what the evaluator `m` does;
  * `Tolerant.evalStep`, `Tolerant.evalTargetStep`, `Tolerant.execStep`: one step
    deeper.
-/
import Requisite.Proofs.Asks

namespace Requisite.Script

/-- The errors that a script makes itself. -/
def ScriptError.IsOwn : ScriptError → Prop
  | fault _ | thrown _ _ => True
  | _ => False

end Requisite.Script

namespace Requisite.Machine

open Requisite Requisite.Source Requisite.Script Requisite.Loader

open Run

/-- A property that holds of runs that look at the heap or change it, and of sequences. -/
structure Run.Lawful (P : {α : Type} → ScriptRun α → Prop) : Prop where
  pure {α : Type} (a : α) : P (Pure.pure a : ScriptRun α)
  heap : P (Run.heap : ScriptRun Heap)
  modifyHeap (f : Heap → Heap) : P (Run.modifyHeap f : ScriptRun Unit)
  modifyGetHeap {α : Type} (f : Heap → α × Heap) : P (Run.modifyGetHeap f : ScriptRun α)
  outOfFuel {α : Type} : P (Run.outOfFuel : ScriptRun α)
  bind {α β : Type} {x : ScriptRun α} {f : α → ScriptRun β} : P x → (∀ a, P (f a)) → P (x >>= f)

/-- The property also holds of a script's own errors. -/
structure Run.Tolerant (P : {α : Type} → ScriptRun α → Prop) : Prop extends Run.Lawful P where
  fail {α : Type} {e : ScriptError} : e.IsOwn → P (Run.fail e : ScriptRun α)

variable {P : {α : Type} → ScriptRun α → Prop}

/-! ## Lists and loops -/

namespace Run.Lawful

variable (hP : Lawful P) {α β : Type}
include hP

theorem map {x : ScriptRun α} {f : α → β} (hx : P x) : P (f <$> x) := by
  rw [map_eq_pure_bind]
  exact hP.bind hx fun a => hP.pure (f a)

theorem mapM {f : α → ScriptRun β} (hf : ∀ a, P (f a)) (l : List α) : P (l.mapM f) := by
  induction l with
  | nil => exact hP.pure []
  | cons a l ih =>
    rw [List.mapM_cons]
    exact hP.bind (hf a) fun b => hP.bind ih fun bs => hP.pure (b :: bs)

theorem forM {f : α → ScriptRun Unit} (hf : ∀ a, P (f a)) (l : List α) : P (l.forM f) := by
  induction l with
  | nil => exact hP.pure ()
  | cons a l ih => exact hP.bind (hf a) fun _ => ih

theorem hoist (s : ScopeId) (body : List Stmt) : P (Machine.hoist s body) := by
  fun_induction Machine.hoist s body with
  | case1 => exact hP.pure ()
  | case2 name params body rest ih =>
    exact hP.bind (hP.modifyGetHeap _) fun f => hP.bind (hP.modifyHeap _) fun _ => ih
  | case3 stmt rest _ ih => exact ih

theorem bindParams (s : ScopeId) (params : List String) (args : List Value) :
    P (Machine.bindParams s params args) := by
  fun_induction Machine.bindParams s params args with
  | case1 => exact hP.pure ()
  | case2 p ps ih => exact hP.bind (hP.modifyHeap _) fun _ => ih
  | case3 p ps v vs ih => exact hP.bind (hP.modifyHeap _) fun _ => ih

theorem enter (params : List String) (body : List Stmt) (closure : ScopeId) (args : List Value) :
    P (Machine.enter params body closure args) :=
  hP.bind (hP.modifyGetHeap _) fun s => hP.bind (hP.bindParams s params args) fun _ =>
    hP.bind (hP.hoist s body) fun _ => hP.pure s

theorem execList {exec : Stmt → ScriptRun Completion} (h : ∀ stmt, P (exec stmt)) (last : Value)
    (body : List Stmt) : P (Machine.execList exec last body) := by
  induction body generalizing last with
  | nil => exact hP.pure _
  | cons stmt rest ih =>
    refine hP.bind (h stmt) fun c => ?_
    cases c with
    | normal v => exact ih v
    | returned v => exact hP.pure _

theorem loop {test : ScriptRun Value} {body : ScriptRun Completion} (ht : P test) (hb : P body)
    (n : Nat) (last : Value) : P (Machine.loop test body n last) := by
  induction n generalizing last with
  | zero => exact hP.outOfFuel
  | succ n ih =>
    refine hP.bind ht fun v => ?_
    split
    · refine hP.bind hb fun c => ?_
      cases c with
      | normal v => exact ih v
      | returned v => exact hP.pure _
    · exact hP.pure _

/-- The run of a function's body, from where it is entered. -/
theorem body {exec : ScopeId → Stmt → ScriptRun Completion} (h : ∀ s stmt, P (exec s stmt))
    (params : List String) (body : List Stmt) (closure : ScopeId) (args : List Value) :
    P (do
      let s ← Machine.enter params body closure args
      return (← Machine.execList (exec s) .undefined body).result : ScriptRun Value) :=
  hP.bind (hP.enter params body closure args) fun s => hP.map (hP.execList (h s) _ body)

end Run.Lawful

/-! ## Names and members -/

namespace Run.Tolerant

variable (hP : Tolerant P)
include hP

theorem fault {α : Type} (f : Fault) : P (Run.fault f : ScriptRun α) := hP.fail trivial

theorem readName (s : ScopeId) (x : String) : P (Machine.readName s x) := by
  refine hP.bind hP.heap fun h => ?_
  split
  · exact hP.pure _
  · exact hP.fault _

theorem readMember (object : Value) (key : String) : P (Machine.readMember object key) := by
  refine hP.bind hP.heap fun h => ?_
  unfold ofFault
  split
  · exact hP.pure _
  · exact hP.fault _

theorem read (s : ScopeId) (place : Target) : P (place.read s) := by
  cases place with
  | name x => exact hP.readName s x
  | member object key => exact hP.readMember object key

theorem write (s : ScopeId) (v : Value) (place : Target) : P (place.write s v) := by
  cases place with
  | name x =>
    refine hP.bind hP.heap fun h => ?_
    split
    · exact hP.fault _
    · exact hP.fault _
    · exact hP.modifyHeap _
  | member object key =>
    refine hP.bind hP.heap fun h => ?_
    split
    · exact hP.fault _
    · exact hP.modifyHeap _

theorem identifierOf (args : List Value) : P (Machine.identifierOf args) := by
  unfold Machine.identifierOf
  split
  · split
    · exact hP.fault _
    · exact hP.pure _
  · exact hP.fault _
  · exact hP.fault _

end Run.Tolerant

/-! ## Steps -/

/-- The property holds of all that an evaluator does for scripts. -/
structure Evaluator.Has (P : {α : Type} → ScriptRun α → Prop) (m : Evaluator) : Prop where
  eval (s : ScopeId) (e : Expr) : P (m.eval s e)
  target (s : ScopeId) (e : Expr) : P (m.evalTarget s e)
  exec (s vars : ScopeId) (stmt : Stmt) : P (m.exec s vars stmt)
  call (f : Value) (args : List Value) : P (m.call f args)

namespace Run.Tolerant

variable {m : Evaluator} (hP : Tolerant P) (h : m.Has P)
include hP h

theorem evalEntry (s : ScopeId) (entry : String × Expr) : P (m.evalEntry s entry) :=
  hP.bind (h.eval s entry.2) fun _ => hP.pure _

theorem evalAssigned (s : ScopeId) (op : AssignOp) (place : Target) (e : Expr) :
    P (m.evalAssigned s op place e) := by
  unfold Evaluator.evalAssigned
  split
  · exact h.eval s e
  · exact hP.bind (hP.read s place) fun _ => hP.bind (h.eval s e) fun _ =>
      hP.bind hP.heap fun _ => hP.pure _

theorem evalInitial (s : ScopeId) (e : Option Expr) : P (m.evalInitial s e) := by
  cases e with
  | none => exact hP.pure _
  | some e => exact h.eval s e

theorem execBinding (s vars : ScopeId) (kind : BindingKind) (b : String × Option Expr) :
    P (m.execBinding s vars kind b) := by
  refine hP.bind (hP.evalInitial h s b.2) fun v => ?_
  cases kind <;> exact hP.modifyHeap _

theorem evalStep (s : ScopeId) (e : Expr) : P (m.evalStep s e) := by
  cases e with
  | number | string | boolean | null => exact hP.pure _
  | name x => exact hP.readName s x
  | array items =>
    exact hP.bind (hP.mapM (h.eval s) items) fun _ => hP.map (hP.modifyGetHeap _)
  | object entries =>
    exact hP.bind (hP.mapM (hP.evalEntry h s) entries) fun _ => hP.map (hP.modifyGetHeap _)
  | function name params body =>
    refine hP.bind (hP.modifyGetHeap _) fun _ => hP.bind (hP.modifyGetHeap _) fun _ => ?_
    cases name with
    | none => exact hP.pure _
    | some x => exact hP.bind (hP.modifyHeap _) fun _ => hP.pure _
  | unary op e =>
    by_cases ht : op = .typeOf → ∀ x, e ≠ .name x
    · rw [Evaluator.evalStep_unary ht]
      exact hP.map (h.eval s e)
    · have ⟨hop, x, hx⟩ : op = .typeOf ∧ ∃ x, e = .name x := by simpa using ht
      subst hop hx
      exact hP.bind hP.heap fun _ => hP.pure _
  | binary op a b =>
    exact hP.bind (h.eval s a) fun _ => hP.bind (h.eval s b) fun _ => hP.map hP.heap
  | logical op a b =>
    refine hP.bind (h.eval s a) fun v => ?_
    split
    · exact hP.pure v
    · exact h.eval s b
  | assign op target e =>
    exact hP.bind (h.target s target) fun place => hP.bind (hP.evalAssigned h s op place e) fun v =>
      hP.bind (hP.write s v place) fun _ => hP.pure v
  | conditional a b c =>
    refine hP.bind (h.eval s a) fun v => ?_
    split
    · exact h.eval s b
    · exact h.eval s c
  | call callee args =>
    refine hP.bind (h.eval s callee) fun f => ?_
    split
    · exact hP.bind (hP.mapM (h.eval s) args) fun vs => h.call f vs
    · exact hP.fault _
  | dot e key => exact hP.bind (h.eval s e) fun v => hP.readMember v key
  | index e k =>
    exact hP.bind (h.eval s e) fun v => hP.bind (h.eval s k) fun _ => hP.bind hP.heap fun _ =>
      hP.readMember v _

theorem evalTargetStep (s : ScopeId) (e : Expr) : P (m.evalTargetStep s e) := by
  cases e with
  | name x => exact hP.pure _
  | dot e key => exact hP.map (h.eval s e)
  | index e k => exact hP.bind (h.eval s e) fun _ => hP.bind (h.eval s k) fun _ => hP.map hP.heap
  | _ => exact hP.fault _

theorem execStep (s vars : ScopeId) (stmt : Stmt) : P (m.execStep s vars stmt) := by
  cases stmt with
  | declare kind bindings =>
    exact hP.bind (hP.forM (hP.execBinding h s vars kind) bindings) fun _ => hP.pure _
  | function | empty => exact hP.pure _
  | expression e => exact hP.map (h.eval s e)
  | block body =>
    exact hP.bind (hP.modifyGetHeap _) fun inner => hP.bind (hP.hoist inner body) fun _ =>
      hP.execList (h.exec inner vars) _ body
  | conditional a b c =>
    refine hP.bind (h.eval s a) fun v => ?_
    split
    · exact h.exec s vars b
    · cases c with
      | none => exact hP.pure _
      | some c => exact h.exec s vars c
  | «while» a b => exact hP.loop (h.eval s a) (h.exec s vars b) _ _
  | «return» e => exact hP.map (hP.evalInitial h s e)
  | throw e line => exact hP.bind (h.eval s e) fun v => hP.fail trivial

end Run.Tolerant

end Requisite.Machine
