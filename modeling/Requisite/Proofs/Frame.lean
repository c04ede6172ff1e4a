/-
  What running a script may touch.

  A frame relates the worlds before and after a run; it knows the scopes that the
  run may declare in.  Scripts allocate, write members and writable names, print,
  and declare in scopes of their own: a frame that allows these steps one by one
  allows whole runs.

  * `Frame.Lawful R`: the frame `R` allows the steps that runs are made of;
  * `Run.Frames R own x`: however the run `x` ends, it stays within `R`;
  * `Job.ownScopes`: the scopes that a job may declare in;
  * `Frame.Lawful.finishes`: every job stays within every lawful frame.
-/
import Requisite.Proofs.Loading
import Requisite.Proofs.Running

namespace Requisite.Machine

open Requisite Requisite.Source Requisite.Script Requisite.Loader

open Run

/-- A relation between the worlds before and after a run that may declare names in the scopes
    `own`. -/
abbrev Frame := (own : ScopeId → Prop) → World → World → Prop

/-- A frame that allows what runs are made of. -/
structure Frame.Lawful (R : Frame) : Prop where
  refl {own : ScopeId → Prop} {w : World} : R own w w
  trans {own : ScopeId → Prop} {u v w : World} : R own u v → R own v w → R own u w
  widen {own own' : ScopeId → Prop} {w w' : World} : (∀ s, own s → own' s) → R own w w' →
    R own' w w'
  object {own : ScopeId → Prop} {w : World} (ps : Properties) :
    R own w { w with heap := (w.heap.newObject ps).2 }
  array {own : ScopeId → Prop} {w : World} (items : Array Value) :
    R own w { w with heap := (w.heap.newArray items).2 }
  function {own : ScopeId → Prop} {w : World} (f : Function) :
    R own w { w with heap := (w.heap.newFunction f).2 }
  /-- a new scope may be declared in from then on -/
  scope {own : ScopeId → Prop} {w w' : World} (outer : Option ScopeId) :
    R (fun s => own s ∨ s = (w.heap.newScope outer).1)
      { w with heap := (w.heap.newScope outer).2 } w' → R own w w'
  declare {own : ScopeId → Prop} {w : World} {s : ScopeId} (x : String) (v : Value)
    (writable : Bool) : own s → R own w { w with heap := w.heap.declare s x v writable }
  name {own : ScopeId → Prop} {w : World} {s : ScopeId} {x : String} (v : Value) :
    w.heap.assignFailure? s x = none → R own w { w with heap := w.heap.overwrite s x v }
  member {own : ScopeId → Prop} {w : World} (object : Value) (key : String) (v : Value) :
    R own w { w with heap := w.heap.overwriteMember object key v }
  output {own : ScopeId → Prop} {w : World} (stdout stderr : String) :
    R own w { w with stdout := stdout, stderr := stderr }
  modules {own : ScopeId → Prop} {w : World} (m : Modules) : R own w { w with modules := m }
  deeper {own : ScopeId → Prop} {w w' : World} : R own { w with depth := w.depth + 1 } w' →
    R own w { w' with depth := w'.depth - 1 }
  apart {own : ScopeId → Prop} {w w' : World} : R own { w with depth := 0 } w' →
    R own w { w' with depth := w.depth }

/-- However a run ends, it stays within a frame. -/
def Run.Frames {ε α : Type} (R : Frame) (own : ScopeId → Prop) (x : Run ε α) : Prop :=
  ∀ ⦃w o w'⦄, x.Ends w o w' → R own w w'

/-- None of the scopes. -/
def noScope : ScopeId → Prop := fun _ => False

variable {R : Frame} {own : ScopeId → Prop}

/-! ## Runs -/

section
variable {ε ε' α β : Type} {x : Run ε α}

namespace Run.Frames

theorem of_noScope (hR : R.Lawful) (h : x.Frames R noScope) : x.Frames R own :=
  fun _ _ _ hx => hR.widen (fun _ => False.elim) (h hx)

/-- What leaves the world as it is stays within every frame. -/
theorem idle (hR : R.Lawful) (h : ∀ w, (x.result w).2 = w) : x.Frames R own := by
  intro w o w' hx
  have hw := h w
  rw [Ends] at hx
  rw [hx] at hw
  obtain rfl : w' = w := hw
  exact hR.refl

theorem pure (hR : R.Lawful) (a : α) : (Pure.pure a : Run ε α).Frames R own := idle hR fun _ => rfl

theorem fail (hR : R.Lawful) (e : ε) : (Run.fail e : Run ε α).Frames R own := idle hR fun _ => rfl

theorem fault (hR : R.Lawful) (f : Fault) : (Run.fault f : ScriptRun α).Frames R own :=
  idle hR fun _ => rfl

theorem heap (hR : R.Lawful) : (Run.heap : Run ε Heap).Frames R own := idle hR fun _ => rfl

theorem modules (hR : R.Lawful) : (Run.modules : Run ε Modules).Frames R own :=
  idle hR fun _ => rfl

theorem outOfFuel : (Run.outOfFuel : Run ε α).Frames R own := fun _ _ _ h =>
  absurd h not_ends_outOfFuel

theorem modify {f : World → World} (h : ∀ w, R own w (f w)) :
    (MonadStateOf.modifyGet fun w => ((), f w) : Run ε Unit).Frames R own := by
  intro w o w' hx
  obtain ⟨-, rfl⟩ := ends_modify.1 hx
  exact h w

theorem modifyGetHeap {f : Heap → α × Heap} (h : ∀ w, R own w { w with heap := (f w.heap).2 }) :
    (Run.modifyGetHeap f : Run ε α).Frames R own := by
  intro w o w' hx
  obtain ⟨-, rfl⟩ := ends_modifyGetHeap.1 hx
  exact h w

theorem bind (hR : R.Lawful) {f : α → Run ε β} (hx : x.Frames R own)
    (hf : ∀ a, (f a).Frames R own) : (x >>= f).Frames R own := by
  intro w o w' h
  rcases ends_bind.1 h with ⟨a, v, hv, hw⟩ | ⟨e, hw, rfl⟩
  · exact hR.trans (hx hv) (hf a hw)
  · exact hx hw

/-- After the heap is read, what was read is known to be the heap. -/
theorem heap_bind {f : Heap → Run ε α} (hf : ∀ ⦃w o w'⦄, (f w.heap).Ends w o w' → R own w w') :
    (Run.heap >>= f).Frames R own := fun _ _ _ h => hf (ends_heap_bind.1 h)

/-- What follows a new scope may declare in it. -/
theorem newScope_bind (hR : R.Lawful) {outer : Option ScopeId} {f : ScopeId → Run ε β}
    (hf : ∀ s, (f s).Frames R fun t => own t ∨ t = s) : (newScope outer >>= f).Frames R own := by
  intro w o w' h
  rw [newScope, ends_bind_of (ends_modifyGetHeap.2 ⟨rfl, rfl⟩)] at h
  exact hR.scope outer (hf _ h)

theorem map (hR : R.Lawful) {f : α → β} (hx : x.Frames R own) : (f <$> x).Frames R own := by
  rw [map_eq_pure_bind]
  exact bind hR hx fun a => pure hR (f a)

theorem mapError {f : ε → ε'} (hx : x.Frames R own) : (x.mapError f).Frames R own := by
  intro w o w' h
  rcases ends_mapError.1 h with ⟨a, hw, rfl⟩ | ⟨e, hw, rfl⟩ <;> exact hx hw

theorem mapM (hR : R.Lawful) {f : α → Run ε β} (hf : ∀ a, (f a).Frames R own) (l : List α) :
    (l.mapM f).Frames R own := by
  induction l with
  | nil => exact pure hR []
  | cons a l ih =>
    rw [List.mapM_cons]
    exact bind hR (hf a) fun b => bind hR ih fun bs => pure hR (b :: bs)

theorem forM (hR : R.Lawful) {f : α → Run ε Unit} (hf : ∀ a, (f a).Frames R own) (l : List α) :
    (l.forM f).Frames R own := by
  induction l with
  | nil => exact pure hR ()
  | cons a l ih => exact bind hR (hf a) fun _ => ih

end Run.Frames

end

/-! ## Parts of scripts -/

section
variable (hR : R.Lawful)
include hR

theorem frames_readName (s : ScopeId) (x : String) : (readName s x).Frames R own := by
  refine .bind hR (.heap hR) fun h => ?_
  split
  · exact .pure hR _
  · exact .fault hR _

theorem frames_writeName (s : ScopeId) (x : String) (v : Value) :
    (writeName s x v).Frames R own := by
  refine .heap_bind fun w o w' h => ?_
  split at h
  · obtain ⟨-, rfl⟩ := ends_fail.1 h
    exact hR.refl
  · obtain ⟨-, rfl⟩ := ends_fail.1 h
    exact hR.refl
  · next hf =>
    obtain ⟨-, rfl⟩ := ends_modify.1 h
    exact hR.name v hf

theorem frames_readMember (object : Value) (key : String) :
    (readMember object key).Frames R own := by
  refine .bind hR (.heap hR) fun h => ?_
  unfold ofFault
  split
  · exact .pure hR _
  · exact .fault hR _

theorem frames_writeMember (object : Value) (key : String) (v : Value) :
    (writeMember object key v).Frames R own := by
  refine .bind hR (.heap hR) fun h => ?_
  split
  · exact .fault hR _
  · exact .modify fun w => hR.member object key v

theorem frames_declare {s : ScopeId} (hs : own s) (x : String) (v : Value) (writable : Bool) :
    (declare s x v writable).Frames R own := .modify fun _ => hR.declare x v writable hs

theorem frames_read (s : ScopeId) (place : Target) : (place.read s).Frames R own := by
  cases place with
  | name x => exact frames_readName hR s x
  | member object key => exact frames_readMember hR object key

theorem frames_write (s : ScopeId) (v : Value) (place : Target) :
    (place.write s v).Frames R own := by
  cases place with
  | name x => exact frames_writeName hR s x v
  | member object key => exact frames_writeMember hR object key v

theorem frames_newFunction {ε : Type} (f : Function) :
    (newFunction f : Run ε FunctionId).Frames R own :=
  .modifyGetHeap fun _ => hR.function f

theorem frames_hoist {s : ScopeId} (hs : own s) (body : List Stmt) :
    (hoist s body).Frames R own := by
  fun_induction hoist s body with
  | case1 => exact .pure hR ()
  | case2 name params body rest ih =>
    exact .bind hR (frames_newFunction hR _) fun f =>
      .bind hR (frames_declare hR hs _ _ _) fun _ => ih
  | case3 stmt rest _ ih => exact ih

theorem frames_bindParams {s : ScopeId} (hs : own s) (params : List String) (args : List Value) :
    (bindParams s params args).Frames R own := by
  fun_induction bindParams s params args with
  | case1 => exact .pure hR ()
  | case2 p ps ih => exact .bind hR (frames_declare hR hs _ _ _) fun _ => ih
  | case3 p ps v vs ih => exact .bind hR (frames_declare hR hs _ _ _) fun _ => ih

theorem frames_execList {exec : Stmt → ScriptRun Completion}
    (h : ∀ stmt, (exec stmt).Frames R own) (last : Value) (body : List Stmt) :
    (execList exec last body).Frames R own := by
  induction body generalizing last with
  | nil => exact .pure hR _
  | cons stmt rest ih =>
    refine .bind hR (h stmt) fun c => ?_
    cases c with
    | normal v => exact ih v
    | returned v => exact .pure hR _

theorem frames_loop {test : ScriptRun Value} {body : ScriptRun Completion}
    (ht : test.Frames R own) (hb : body.Frames R own) (n : Nat) (last : Value) :
    (loop test body n last).Frames R own := by
  induction n generalizing last with
  | zero => exact .outOfFuel
  | succ n ih =>
    refine .bind hR ht fun v => ?_
    split
    · refine .bind hR hb fun c => ?_
      cases c with
      | normal v => exact ih v
      | returned v => exact .pure hR _
    · exact .pure hR _

theorem frames_deeper {α : Type} {x : ScriptRun α} (hx : x.Frames R own) :
    (deeper x).Frames R own := by
  intro w o w' h
  unfold deeper at h
  rw [ends_get_bind] at h
  split at h
  · obtain ⟨-, rfl⟩ := ends_fail.1 h
    exact hR.refl
  · rw [ends_bind_of (ends_modify.2 ⟨rfl, rfl⟩)] at h
    obtain ⟨v, hv, rfl⟩ := ends_andThen.1 h
    exact hR.deeper (hx hv)

theorem frames_resolve (id : String) : (resolve id).Frames R own := by
  intro w o w' h
  obtain ⟨-, rfl⟩ := ends_resolve.1 h
  exact hR.refl

theorem frames_identifierOf (args : List Value) : (identifierOf args).Frames R own := by
  intro w o w' h
  obtain rfl := ends_identifierOf h
  exact hR.refl

theorem frames_beginModule (r : Reservation) : (beginModule r).Frames R own := by
  refine .bind hR (.modifyGetHeap fun w => hR.object _) fun module => ?_
  refine .bind hR (.modifyGetHeap fun w => ?_) fun require => ?_
  · exact hR.trans (hR.function ⟨some "resolve", .native .resolve, .empty⟩) (hR.function _)
  · exact .bind hR (.modify fun w => hR.modules _) fun _ =>
      .bind hR (.modify fun w => hR.modules _) fun _ => .pure hR _

end

/-! ## Evaluators -/

/-- What an evaluator does stays within a frame; only statements declare names, in the innermost
    scope and in that of the function. -/
structure Evaluator.Frames (R : Frame) (m : Evaluator) : Prop where
  eval (s : ScopeId) (e : Expr) : (m.eval s e).Frames R noScope
  target (s : ScopeId) (e : Expr) : (m.evalTarget s e).Frames R noScope
  exec (s vars : ScopeId) (stmt : Stmt) : (m.exec s vars stmt).Frames R fun t => t = s ∨ t = vars
  call (f : Value) (args : List Value) : (m.call f args).Frames R noScope
  require (id : String) : (m.require id).Frames R noScope
  load (id : String) (path : Path) : (m.load id path).Frames R noScope
  body (r : Reservation) (text : String) : (m.runModule r text).Frames R noScope

namespace Evaluator.Frames

variable {m : Evaluator} (hR : R.Lawful) (h : m.Frames R)
include hR h

theorem evalEntry (s : ScopeId) (entry : String × Expr) : (m.evalEntry s entry).Frames R noScope :=
  .bind hR (h.eval s entry.2) fun _ => .pure hR _

theorem evalAssigned (s : ScopeId) (op : AssignOp) (place : Target) (e : Expr) :
    (m.evalAssigned s op place e).Frames R noScope := by
  unfold Evaluator.evalAssigned
  split
  · exact h.eval s e
  · exact .bind hR (frames_read hR s place) fun _ => .bind hR (h.eval s e) fun _ =>
      .bind hR (.heap hR) fun _ => .pure hR _

theorem evalInitial (s : ScopeId) (e : Option Expr) : (m.evalInitial s e).Frames R noScope := by
  cases e with
  | none => exact .pure hR _
  | some e => exact h.eval s e

theorem execBinding (s vars : ScopeId) (kind : BindingKind) (b : String × Option Expr) :
    (m.execBinding s vars kind b).Frames R fun t => t = s ∨ t = vars := by
  refine .bind hR (.of_noScope hR (h.evalInitial hR s b.2)) fun v => ?_
  cases kind with
  | var => exact frames_declare hR (.inr rfl) _ _ _
  | lexical => exact frames_declare hR (.inl rfl) _ _ _
  | constant => exact frames_declare hR (.inl rfl) _ _ _

theorem evalStep (s : ScopeId) (e : Expr) : (m.evalStep s e).Frames R noScope := by
  cases e with
  | number x => exact .pure hR _
  | string t => exact .pure hR _
  | boolean b => exact .pure hR _
  | null => exact .pure hR _
  | name x => exact frames_readName hR s x
  | array items =>
    exact .bind hR (.mapM hR (h.eval s) items) fun _ =>
      .map hR (.modifyGetHeap fun _ => hR.array _)
  | object entries =>
    exact .bind hR (.mapM hR (h.evalEntry hR s) entries) fun _ =>
      .map hR (.modifyGetHeap fun _ => hR.object _)
  | function name params body =>
    refine .newScope_bind hR fun closure => .bind hR (frames_newFunction hR _) fun _ => ?_
    cases name with
    | none => exact .pure hR _
    | some x => exact .bind hR (frames_declare hR (.inr rfl) _ _ _) fun _ => .pure hR _
  | unary op e =>
    by_cases ht : op = .typeOf → ∀ x, e ≠ .name x
    · rw [evalStep_unary ht]
      exact .map hR (h.eval s e)
    · have ⟨hop, x, hx⟩ : op = .typeOf ∧ ∃ x, e = .name x := by simpa using ht
      subst hop hx
      exact .bind hR (.heap hR) fun _ => .pure hR _
  | binary op a b =>
    exact .bind hR (h.eval s a) fun _ => .bind hR (h.eval s b) fun _ => .map hR (.heap hR)
  | logical op a b =>
    refine .bind hR (h.eval s a) fun v => ?_
    split
    · exact .pure hR v
    · exact h.eval s b
  | assign op target e =>
    exact .bind hR (h.target s target) fun place =>
      .bind hR (h.evalAssigned hR s op place e) fun v =>
      .bind hR (frames_write hR s v place) fun _ => .pure hR v
  | conditional a b c =>
    refine .bind hR (h.eval s a) fun v => ?_
    split
    · exact h.eval s b
    · exact h.eval s c
  | call callee args =>
    refine .bind hR (h.eval s callee) fun f => ?_
    split
    · exact .bind hR (.mapM hR (h.eval s) args) fun vs => h.call f vs
    · exact .fault hR _
  | dot e key => exact .bind hR (h.eval s e) fun v => frames_readMember hR v key
  | index e k =>
    exact .bind hR (h.eval s e) fun v => .bind hR (h.eval s k) fun _ =>
      .bind hR (.heap hR) fun _ => frames_readMember hR v _

theorem evalTargetStep (s : ScopeId) (e : Expr) : (m.evalTargetStep s e).Frames R noScope := by
  cases e with
  | name x => exact .pure hR _
  | dot e key => exact .map hR (h.eval s e)
  | index e k =>
    exact .bind hR (h.eval s e) fun _ => .bind hR (h.eval s k) fun _ => .map hR (.heap hR)
  | _ => exact .fault hR _

theorem execStep (s vars : ScopeId) (stmt : Stmt) :
    (m.execStep s vars stmt).Frames R fun t => t = s ∨ t = vars := by
  have heval (e : Expr) : (m.eval s e).Frames R fun t => t = s ∨ t = vars :=
    .of_noScope hR (h.eval s e)
  cases stmt with
  | declare kind bindings =>
    exact .bind hR (.forM hR (h.execBinding hR s vars kind) bindings) fun _ => .pure hR _
  | function name params body => exact .pure hR _
  | expression e => exact .map hR (heval e)
  | block body =>
    refine .newScope_bind hR fun inner => .bind hR (frames_hoist hR (.inr rfl) body) fun _ => ?_
    refine frames_execList hR (fun stmt w o w' hw => ?_) _ body
    -- the statements of a block declare in its scope and in that of the function
    exact hR.widen (fun t ht => ht.elim .inr fun ht => .inl (.inr ht)) (h.exec inner vars stmt hw)
  | conditional a b c =>
    refine .bind hR (heval a) fun v => ?_
    split
    · exact h.exec s vars b
    · cases c with
      | none => exact .pure hR _
      | some c => exact h.exec s vars c
  | «while» a b => exact frames_loop hR (heval a) (h.exec s vars b) _ _
  | «return» e => exact .map hR (.of_noScope hR (h.evalInitial hR s e))
  | throw e line => exact .bind hR (heval e) fun v => .fail hR _
  | empty => exact .pure hR _

theorem callScript (params : List String) (body : List Stmt) (closure : ScopeId)
    (args : List Value) : (m.callScript params body closure args).Frames R noScope := by
  refine frames_deeper hR ?_
  unfold enter
  simp only [bind_assoc, pure_bind]
  refine .newScope_bind hR fun s => .bind hR (frames_bindParams hR (.inr rfl) params args) fun _ => ?_
  refine .bind hR (frames_hoist hR (.inr rfl) body) fun _ => .map hR ?_
  refine frames_execList hR (fun stmt w o w' hw => ?_) _ body
  exact hR.widen (fun t ht => .inr (ht.elim id id)) (h.exec s s stmt hw)

theorem callNative (args : List Value) (native : Native) :
    (m.callNative args native).Frames R noScope := by
  cases native with
  | log =>
    exact .bind hR (.heap hR) fun _ => .bind hR (.modify fun w => hR.output _ w.stderr) fun _ =>
      .pure hR _
  | error | warn =>
    exact .bind hR (.heap hR) fun _ => .bind hR (.modify fun w => hR.output w.stdout _) fun _ =>
      .pure hR _
  | require =>
    refine .bind hR (.modules hR) fun ms => ?_
    split
    · exact .bind hR (frames_identifierOf hR args) fun id => .mapError (h.require id)
    · exact .fault hR _
  | resolve =>
    refine .bind hR (.modules hR) fun ms => ?_
    split
    · exact .bind hR (frames_identifierOf hR args) fun id =>
        .map hR (.mapError (frames_resolve hR id))
    · exact .fault hR _

theorem callStep (f : Value) (args : List Value) : (m.callStep f args).Frames R noScope := by
  refine .bind hR (.heap hR) fun heap => ?_
  split
  · exact .bind hR (.heap hR) fun _ => .fault hR _
  · exact h.callScript hR _ _ _ args
  · exact h.callNative hR args _

theorem requireStep (id : String) : (m.requireStep id).Frames R noScope := by
  refine .bind hR (.modules hR) fun ms => ?_
  split
  · exact .bind hR (.modify fun w => hR.modules _) fun _ => .pure hR _
  · exact .bind hR (frames_resolve hR id) fun path => .bind hR (h.load id path) fun v =>
      .bind hR (.modify fun w => hR.modules _) fun _ => .pure hR _

theorem loadReserved (r : Reservation) (text : String) :
    (m.loadReserved r text).Frames R noScope := by
  intro w o w' hw
  rcases ends_loadReserved.1 hw with ⟨e, u, hu, -, rfl⟩ | ⟨a, u, hu, -, rfl⟩
  · exact hR.trans (h.body r text hu) (hR.modules _)
  · exact hR.trans (h.body r text hu) (hR.modules _)

theorem loadStep (id : String) (path : Path) : (m.loadStep id path).Frames R noScope := by
  refine .bind hR (.modules hR) fun ms => ?_
  split
  · exact .bind hR (.modify fun w => hR.modules _) fun _ => .pure hR _
  · split
    · exact .fail hR _
    · refine .bind hR ?_ fun r => h.loadReserved hR r _
      exact .bind hR (.modifyGetHeap fun w => hR.object _) fun o =>
        .bind hR (.modify fun w => hR.modules _) fun _ =>
        .bind hR (.modify fun w => hR.modules _) fun _ => .pure hR _

theorem runModuleStep (r : Reservation) (text : String) :
    (m.runModuleStep r text).Frames R noScope := by
  intro w o w' hw
  rcases ends_runModuleStep.1 hw with
    ⟨e, -, -, rfl⟩ | ⟨body, args, module, w₁, c, w₂, -, hb, hc, w₃, rfl, hend⟩
  · exact hR.refl
  · have hrun : R noScope w₁ { w₂ with depth := w₁.depth } :=
      hR.apart (h.callScript hR moduleParams body w₁.globals args hc)
    have hw₃ : R noScope w ({ w₂ with depth := w₁.depth }.truncate w.modules.cache.contextDepth) :=
      hR.trans (frames_beginModule hR r hb) (hR.trans hrun (hR.modules _))
    rcases hend with ⟨e, -, -, rfl⟩ | ⟨v, -, hh⟩
    · exact hw₃
    · obtain ⟨rfl, -⟩ := ends_harvest.1 hh
      exact hw₃

/-- An evaluator that goes one step deeper stays within the frame. -/
theorem next : m.next.Frames R where
  eval := h.evalStep hR
  target := h.evalTargetStep hR
  exec := h.execStep hR
  call := h.callStep hR
  require := h.requireStep hR
  load := h.loadStep hR
  body := h.runModuleStep hR

end Evaluator.Frames

/-- All evaluators stay within a lawful frame. -/
theorem Frame.Lawful.frames (hR : R.Lawful) (n : Nat) : (evaluator n).Frames R := by
  induction n with
  | zero => constructor <;> intros <;> exact .outOfFuel
  | succ n ih =>
    rw [evaluator_succ]
    exact ih.next hR

/-! ## Jobs -/

/-- The scopes that a job may declare names in. -/
def Job.ownScopes : Job → ScopeId → Prop
  | exec s vars _ => fun t => t = s ∨ t = vars
  | _ => noScope

/-- **Every job stays within every lawful frame.** -/
theorem Frame.Lawful.finishes (hR : R.Lawful) {n : Nat} {j : Job} {w w' : World} {ok : Bool}
    (h : (evaluator n).Finishes w ok w' j) : R j.ownScopes w w' := by
  have hm : (evaluator n).Frames R := hR.frames n
  cases j with
  | eval | target | exec | call | require | load | body =>
    obtain ⟨o, ho, -⟩ := h
    first
      | exact hm.eval _ _ ho
      | exact hm.target _ _ ho
      | exact hm.exec _ _ _ ho
      | exact hm.call _ _ ho
      | exact hm.require _ ho
      | exact hm.load _ _ ho
      | exact hm.body _ _ ho

end Requisite.Machine
