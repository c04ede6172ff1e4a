/-
  Runs that mimic others.

  The same script may run over two loaders.  What scripts do by themselves never
  looks at the modules; so if the loaders answer alike, the runs do, however
  different the modules are inside.

  * `Run.Blind x`: the run `x` neither looks at the modules nor changes them;
  * `Run.Mimicked T x y`: however the run `x` ends, `y` ends alike over modules
    that are related by `T`;
  * `Twins T`: what is related by `T` answers the loader alike, and is so after
    each of the loader's steps;
  * `Evaluator.Mimicked.next`: one step deeper, given that `require` is mimicked;
  * `evaluator_le`: what ends with some fuel ends alike with more.
-/
import Requisite.Proofs.Keeps
import Requisite.Proofs.Loading

namespace Requisite.Machine

open Requisite Requisite.Source Requisite.Script Requisite.Loader

open Run

/-- Neither looks at the modules nor changes them. -/
def Run.Blind {ε α : Type} (x : Run ε α) : Prop :=
  ∀ w k, x.result (w.withModules k) = ((x.result w).1, (x.result w).2.withModules k)

/-- However `x` ends, `y` ends alike over modules that are related by `T`, and leaves such. -/
def Run.Mimicked {ε α : Type} (T : Modules → Modules → Prop) (x y : Run ε α) : Prop :=
  ∀ ⦃w o w' k⦄, x.Ends w o w' → T w.modules k →
    ∃ k', y.Ends (w.withModules k) o (w'.withModules k') ∧ T w'.modules k'

variable {T : Modules → Modules → Prop}

/-! ## Runs -/

section
variable {ε ε' α β : Type} {x y : Run ε α}

namespace Run.Blind

theorem pure (a : α) : (Pure.pure a : Run ε α).Blind := fun _ _ => rfl

theorem fail (e : ε) : (Run.fail e : Run ε α).Blind := fun _ _ => rfl

theorem fault (f : Fault) : (Run.fault f : ScriptRun α).Blind := fun _ _ => rfl

theorem heap : (Run.heap : Run ε Heap).Blind := fun _ _ => rfl

theorem modifyHeap (f : Heap → Heap) : (Run.modifyHeap f : Run ε Unit).Blind := fun _ _ => rfl

theorem modifyGetHeap (f : Heap → α × Heap) : (Run.modifyGetHeap f : Run ε α).Blind :=
  fun _ _ => rfl

theorem printLine (s : String) : (Run.printLine s : Run ε Unit).Blind := fun _ _ => rfl

theorem printErrorLine (s : String) : (Run.printErrorLine s : Run ε Unit).Blind := fun _ _ => rfl

theorem bind {f : α → Run ε β} (hx : x.Blind) (hf : ∀ a, (f a).Blind) : (x >>= f).Blind := by
  intro w k
  rw [result_bind, result_bind, hx w k]
  rcases x.result w with ⟨_ | a, v⟩
  · rfl
  · exact hf a v k

/-- What is blind does not change the modules. -/
theorem modules_eq (hx : x.Blind) {w w' : World} {o : Except ε α} (h : x.Ends w o w') :
    w'.modules = w.modules := by
  have hw := hx w w.modules
  rw [show w.withModules w.modules = w from rfl, show x.result w = _ from h] at hw
  have he : w' = w'.withModules w.modules := (Prod.mk.inj hw).2
  exact (congrArg World.modules he :)

theorem mimicked (hx : x.Blind) : x.Mimicked T x := by
  intro w o w' k h hT
  refine ⟨k, ?_, by rw [hx.modules_eq h]; exact hT⟩
  have hw := hx w k
  rw [show x.result w = _ from h] at hw
  exact hw

end Run.Blind

namespace Run.Mimicked

theorem pure (a : α) : (Pure.pure a : Run ε α).Mimicked T (Pure.pure a) := (Blind.pure a).mimicked

theorem fault (f : Fault) : (Run.fault f : ScriptRun α).Mimicked T (Run.fault f) :=
  (Blind.fault f).mimicked

theorem fail (e : ε) : (Run.fail e : Run ε α).Mimicked T (Run.fail e) := (Blind.fail e).mimicked

/-- What has no end is mimicked by anything. -/
theorem outOfFuel : (Run.outOfFuel : Run ε α).Mimicked T y := fun _ _ _ _ h =>
  absurd h not_ends_outOfFuel

theorem bind {f g : α → Run ε β} (hx : x.Mimicked T y) (hf : ∀ a, (f a).Mimicked T (g a)) :
    (x >>= f).Mimicked T (y >>= g) := by
  intro w o w' k h hT
  rcases ends_bind.1 h with ⟨a, v, hv, hw⟩ | ⟨e, he, rfl⟩
  · obtain ⟨l, hl, hTl⟩ := hx hv hT
    obtain ⟨k', hk', hT'⟩ := hf a hw hTl
    exact ⟨k', (ends_bind_of hl).2 hk', hT'⟩
  · obtain ⟨k', hk', hT'⟩ := hx he hT
    exact ⟨k', ends_bind.2 (.inr ⟨e, hk', rfl⟩), hT'⟩

/-- Both look at their own modules, which are related. -/
theorem modules_bind {f g : Modules → Run ε α} (hf : ∀ m k, T m k → (f m).Mimicked T (g k)) :
    (Run.modules >>= f).Mimicked T (Run.modules >>= g) :=
  fun w _ _ k h hT => hf w.modules k hT h hT

theorem map {f : α → β} (hx : x.Mimicked T y) : (f <$> x).Mimicked T (f <$> y) := by
  rw [map_eq_pure_bind, map_eq_pure_bind]
  exact bind hx fun a => pure (f a)

theorem mapError {f : ε → ε'} (hx : x.Mimicked T y) : (x.mapError f).Mimicked T (y.mapError f) := by
  intro w o w' k h hT
  rcases ends_mapError.1 h with ⟨a, hw, rfl⟩ | ⟨e, hw, rfl⟩
  · obtain ⟨k', hk', hT'⟩ := hx hw hT
    exact ⟨k', ends_mapError.2 (.inl ⟨a, hk', rfl⟩), hT'⟩
  · obtain ⟨k', hk', hT'⟩ := hx hw hT
    exact ⟨k', ends_mapError.2 (.inr ⟨e, hk', rfl⟩), hT'⟩

theorem mapM {f g : α → Run ε β} (hf : ∀ a, (f a).Mimicked T (g a)) (l : List α) :
    (l.mapM f).Mimicked T (l.mapM g) := by
  induction l with
  | nil => exact pure []
  | cons a l ih =>
    rw [List.mapM_cons, List.mapM_cons]
    exact bind (hf a) fun b => bind ih fun bs => pure (b :: bs)

theorem forM {f g : α → Run ε Unit} (hf : ∀ a, (f a).Mimicked T (g a)) (l : List α) :
    (l.forM f).Mimicked T (l.forM g) := by
  induction l with
  | nil => exact pure ()
  | cons a l ih => exact bind (hf a) fun _ => ih

end Run.Mimicked

end

/-! ## Parts of scripts -/

/-- What scripts do by themselves is blind. -/
theorem tolerant_blind : Run.Tolerant fun x => x.Blind where
  pure := .pure
  heap := .heap
  modifyHeap := .modifyHeap
  modifyGetHeap := .modifyGetHeap
  outOfFuel _ _ := rfl
  bind := .bind
  fail _ := .fail _

theorem mimicked_execList {exec exec' : Stmt → ScriptRun Completion}
    (h : ∀ stmt, (exec stmt).Mimicked T (exec' stmt)) (last : Value) (body : List Stmt) :
    (execList exec last body).Mimicked T (execList exec' last body) := by
  induction body generalizing last with
  | nil => exact .pure _
  | cons stmt rest ih =>
    refine .bind (h stmt) fun c => ?_
    cases c with
    | normal v => exact ih v
    | returned v => exact .pure _

/-- A loop is mimicked by one that may turn as often or more. -/
theorem mimicked_loop {test test' : ScriptRun Value} {body body' : ScriptRun Completion}
    (ht : test.Mimicked T test') (hb : body.Mimicked T body') {n n' : Nat} (hn : n ≤ n')
    (last : Value) : (loop test body n last).Mimicked T (loop test' body' n' last) := by
  induction n generalizing n' last with
  | zero => exact .outOfFuel
  | succ n ih =>
    obtain ⟨n', rfl⟩ : ∃ k, n' = k + 1 := ⟨n' - 1, by omega⟩
    refine .bind ht fun v => ?_
    split
    · refine .bind hb fun c => ?_
      cases c with
      | normal v => exact ih (Nat.le_of_succ_le_succ hn) v
      | returned v => exact .pure _
    · exact .pure _

theorem mimicked_deeper {α : Type} {x y : ScriptRun α} (h : x.Mimicked T y) :
    (deeper x).Mimicked T (deeper y) := by
  intro w o w' k hx hT
  unfold deeper at hx ⊢
  rw [ends_get_bind] at hx
  by_cases hd : maxCalls ≤ w.depth
  · rw [if_pos hd] at hx
    obtain ⟨rfl, rfl⟩ := ends_fail.1 hx
    refine ⟨k, ?_, hT⟩
    rw [ends_get_bind, if_pos (show maxCalls ≤ (w'.withModules k).depth from hd)]
    exact ends_fail.2 ⟨rfl, rfl⟩
  · rw [if_neg hd, ends_bind_of (ends_modify.2 ⟨rfl, rfl⟩)] at hx
    obtain ⟨v, hv, rfl⟩ := ends_andThen.1 hx
    obtain ⟨k', hk', hT'⟩ := h hv hT
    refine ⟨k', ?_, hT'⟩
    rw [ends_get_bind, if_neg (show ¬maxCalls ≤ (w.withModules k).depth from hd),
      ends_bind_of (ends_modify.2 ⟨rfl, rfl⟩)]
    exact ends_andThen.2 ⟨v.withModules k', hk', rfl⟩

/-! ## The loader -/

/-- Modules that are related by `T` answer the loader alike, and they are related after each of its
    steps. -/
structure Twins (T : Modules → Modules → Prop) : Prop where
  alive {m k : Modules} : T m k → k.alive = m.alive
  resolve {m k : Modules} : T m k → ∀ id,
    k.resolver.resolve k.files id k.cache.currentContext =
      m.resolver.resolve m.files id m.cache.currentContext
  record {m k : Modules} : T m k → ∀ p, k.cache.record? p = m.cache.record? p
  readText {m k : Modules} : T m k → ∀ p, k.files.readText p = m.files.readText p
  depth {m k : Modules} : T m k → k.cache.contextDepth = m.cache.contextDepth
  recordHit {m k : Modules} : T m k → ∀ p s, T (m.noted (.recordHit p s)) (k.noted (.recordHit p s))
  reserve {m k : Modules} : T m k → ∀ r, T (m.reserve r) (k.reserve r)
  enter {m k : Modules} : T m k → ∀ r, T (m.enter r) (k.enter r)
  leave {m k : Modules} : T m k → ∀ depth, T (m.leave depth) (k.leave depth)
  commit {m k : Modules} : T m k → ∀ r v,
    (k.cache.commit r v).1 = (m.cache.commit r v).1 ∧ T (m.commit r v) (k.commit r v)
  abandon {m k : Modules} : T m k → ∀ r, T (m.abandon r) (k.abandon r)

section
variable (hT : Twins T)
include hT

theorem mimicked_resolve (id : String) : (resolve id).Mimicked T (resolve id) := by
  intro w o w' k h hk
  obtain ⟨rfl, rfl⟩ := ends_resolve.1 h
  exact ⟨k, ends_resolve.2 ⟨(hT.resolve hk id).symm, rfl⟩, hk⟩

/-- What an identifier leads to, it leads to over the twin. -/
theorem ends_resolve_of_twins {w : World} {k : Modules} (hk : T w.modules k) {id : String}
    {path : Path}
    (hp : w.modules.resolver.resolve w.modules.files id w.modules.cache.currentContext = .ok path) :
    (resolve id).Ends (w.withModules k) (.ok path) (w.withModules k) :=
  ends_resolve.2 ⟨hp.symm.trans (hT.resolve hk id).symm, rfl⟩

theorem mimicked_reserve (id : String) (path : Path) :
    (reserve id path).Mimicked T (reserve id path) := by
  intro w o w' k h hk
  obtain ⟨rfl, rfl⟩ := ends_reserve.1 h
  exact ⟨k.reserve (w.reservation id path), ends_reserve.2 ⟨rfl, rfl⟩, hT.reserve hk _⟩

/-- The script of a module begins alike: its arguments do not depend on the modules. -/
theorem mimicked_beginModule (r : Reservation) : (beginModule r).Mimicked T (beginModule r) := by
  refine .bind (Blind.modifyGetHeap _).mimicked fun module => ?_
  refine .bind (Blind.modifyGetHeap _).mimicked fun require => ?_
  intro w o w' k h hk
  rw [ends_bind_of (ends_modifyCache.2 ⟨rfl, rfl⟩), ends_bind_of (ends_note.2 ⟨rfl, rfl⟩),
    ends_pure] at h
  obtain ⟨rfl, rfl⟩ := h
  refine ⟨k.enter r, ?_, hT.enter hk r⟩
  rw [ends_bind_of (ends_modifyCache.2 ⟨rfl, rfl⟩), ends_bind_of (ends_note.2 ⟨rfl, rfl⟩), ends_pure]
  exact ⟨rfl, rfl⟩

end

/-! ## Evaluators -/

/-- Whatever the evaluator `m` does, `m'` mimics. -/
structure Evaluator.Mimicked (T : Modules → Modules → Prop) (m m' : Evaluator) : Prop where
  turns : m.turns ≤ m'.turns
  eval (s : ScopeId) (e : Expr) : (m.eval s e).Mimicked T (m'.eval s e)
  target (s : ScopeId) (e : Expr) : (m.evalTarget s e).Mimicked T (m'.evalTarget s e)
  exec (s vars : ScopeId) (stmt : Stmt) : (m.exec s vars stmt).Mimicked T (m'.exec s vars stmt)
  call (f : Value) (args : List Value) : (m.call f args).Mimicked T (m'.call f args)
  require (id : String) : (m.require id).Mimicked T (m'.require id)
  load (id : String) (path : Path) : (m.load id path).Mimicked T (m'.load id path)
  body (r : Reservation) (text : String) : (m.runModule r text).Mimicked T (m'.runModule r text)

namespace Evaluator.Mimicked

/-- An evaluator without fuel is mimicked by any. -/
theorem exhausted (m : Evaluator) : Evaluator.exhausted.Mimicked T m where
  turns := Nat.zero_le _
  eval _ _ := .outOfFuel
  target _ _ := .outOfFuel
  exec _ _ _ := .outOfFuel
  call _ _ := .outOfFuel
  require _ := .outOfFuel
  load _ _ := .outOfFuel
  body _ _ := .outOfFuel

variable {m m' : Evaluator} (h : m.Mimicked T m')
include h

theorem evalEntry (s : ScopeId) (entry : String × Expr) :
    (m.evalEntry s entry).Mimicked T (m'.evalEntry s entry) :=
  .bind (h.eval s entry.2) fun _ => .pure _

theorem evalAssigned (s : ScopeId) (op : AssignOp) (place : Target) (e : Expr) :
    (m.evalAssigned s op place e).Mimicked T (m'.evalAssigned s op place e) := by
  unfold Evaluator.evalAssigned
  split
  · exact h.eval s e
  · exact .bind (tolerant_blind.read s place).mimicked fun _ => .bind (h.eval s e) fun _ =>
      .bind Blind.heap.mimicked fun _ => .pure _

theorem evalStep (s : ScopeId) (e : Expr) : (m.evalStep s e).Mimicked T (m'.evalStep s e) := by
  cases e with
  | number x => exact .pure _
  | string t => exact .pure _
  | boolean b => exact .pure _
  | null => exact .pure _
  | name x => exact (tolerant_blind.readName s x).mimicked
  | array items =>
    exact .bind (.mapM (h.eval s) items) fun _ => .map (Blind.modifyGetHeap _).mimicked
  | object entries =>
    exact .bind (.mapM (h.evalEntry s) entries) fun _ => .map (Blind.modifyGetHeap _).mimicked
  | function name params body =>
    refine Blind.mimicked (.bind (.modifyGetHeap _) fun closure => .bind (.modifyGetHeap _) fun f => ?_)
    cases name with
    | none => exact .pure _
    | some x => exact .bind (.modifyHeap _) fun _ => .pure _
  | unary op e =>
    by_cases ht : op = .typeOf → ∀ x, e ≠ .name x
    · rw [evalStep_unary ht, evalStep_unary ht]
      exact .map (h.eval s e)
    · have ⟨hop, x, hx⟩ : op = .typeOf ∧ ∃ x, e = .name x := by simpa using ht
      subst hop hx
      exact .bind Blind.heap.mimicked fun _ => .pure _
  | binary op a b =>
    exact .bind (h.eval s a) fun _ => .bind (h.eval s b) fun _ => .map Blind.heap.mimicked
  | logical op a b =>
    refine .bind (h.eval s a) fun v => ?_
    split
    · exact .pure v
    · exact h.eval s b
  | assign op target e =>
    exact .bind (h.target s target) fun place => .bind (h.evalAssigned s op place e) fun v =>
      .bind (tolerant_blind.write s v place).mimicked fun _ => .pure v
  | conditional a b c =>
    refine .bind (h.eval s a) fun v => ?_
    split
    · exact h.eval s b
    · exact h.eval s c
  | call callee args =>
    refine .bind (h.eval s callee) fun f => ?_
    split
    · exact .bind (.mapM (h.eval s) args) fun vs => h.call f vs
    · exact .fault _
  | dot e key => exact .bind (h.eval s e) fun v => (tolerant_blind.readMember v key).mimicked
  | index e k =>
    exact .bind (h.eval s e) fun v => .bind (h.eval s k) fun _ =>
      .bind Blind.heap.mimicked fun _ => (tolerant_blind.readMember v _).mimicked

theorem evalTargetStep (s : ScopeId) (e : Expr) :
    (m.evalTargetStep s e).Mimicked T (m'.evalTargetStep s e) := by
  cases e with
  | name x => exact .pure _
  | dot e key => exact .map (h.eval s e)
  | index e k =>
    exact .bind (h.eval s e) fun _ => .bind (h.eval s k) fun _ => .map Blind.heap.mimicked
  | _ => exact .fault _

theorem evalInitial (s : ScopeId) (e : Option Expr) :
    (m.evalInitial s e).Mimicked T (m'.evalInitial s e) := by
  cases e with
  | none => exact .pure _
  | some e => exact h.eval s e

theorem execBinding (s vars : ScopeId) (kind : BindingKind) (b : String × Option Expr) :
    (m.execBinding s vars kind b).Mimicked T (m'.execBinding s vars kind b) := by
  refine .bind (h.evalInitial s b.2) fun v => ?_
  cases kind <;> exact (Blind.modifyHeap _).mimicked

theorem execStep (s vars : ScopeId) (stmt : Stmt) :
    (m.execStep s vars stmt).Mimicked T (m'.execStep s vars stmt) := by
  cases stmt with
  | declare kind bindings => exact .bind (.forM (h.execBinding s vars kind) bindings) fun _ => .pure _
  | function name params body => exact .pure _
  | expression e => exact .map (h.eval s e)
  | block body =>
    exact .bind (Blind.modifyGetHeap _).mimicked fun inner =>
      .bind (tolerant_blind.hoist inner body).mimicked fun _ =>
        mimicked_execList (h.exec inner vars) _ body
  | conditional a b c =>
    refine .bind (h.eval s a) fun v => ?_
    split
    · exact h.exec s vars b
    · cases c with
      | none => exact .pure _
      | some c => exact h.exec s vars c
  | «while» a b => exact mimicked_loop (h.eval s a) (h.exec s vars b) h.turns _
  | «return» e => exact .map (h.evalInitial s e)
  | throw e line => exact .bind (h.eval s e) fun v => .fail _
  | empty => exact .pure _

theorem callScript (params : List String) (body : List Stmt) (closure : ScopeId)
    (args : List Value) :
    (m.callScript params body closure args).Mimicked T (m'.callScript params body closure args) :=
  mimicked_deeper (.bind (tolerant_blind.enter params body closure args).mimicked fun s =>
    .map (mimicked_execList (h.exec s s) _ body))

theorem callNative (hT : Twins T) (args : List Value) (native : Native) :
    (m.callNative args native).Mimicked T (m'.callNative args native) := by
  cases native with
  | log => exact Blind.mimicked (.bind .heap fun _ => .bind (.printLine _) fun _ => .pure _)
  | error | warn =>
    exact Blind.mimicked (.bind .heap fun _ => .bind (.printErrorLine _) fun _ => .pure _)
  | require =>
    refine .modules_bind fun ms ks hk => ?_
    rw [hT.alive hk]
    split
    · exact .bind (tolerant_blind.identifierOf args).mimicked fun id => .mapError (h.require id)
    · exact .fault _
  | resolve =>
    refine .modules_bind fun ms ks hk => ?_
    rw [hT.alive hk]
    split
    · exact .bind (tolerant_blind.identifierOf args).mimicked fun id =>
        .map (.mapError (mimicked_resolve hT id))
    · exact .fault _

theorem callStep (hT : Twins T) (f : Value) (args : List Value) :
    (m.callStep f args).Mimicked T (m'.callStep f args) := by
  refine .bind Blind.heap.mimicked fun heap => ?_
  split
  · exact .bind Blind.heap.mimicked fun _ => .fault _
  · exact h.callScript _ _ _ args
  · exact h.callNative hT args _

theorem loadReserved (hT : Twins T) (r : Reservation) (text : String) :
    (m.loadReserved r text).Mimicked T (m'.loadReserved r text) := by
  intro w o w' k hw hk
  rcases ends_loadReserved.1 hw with ⟨e, u, hu, rfl, rfl⟩ | ⟨a, u, hu, rfl, rfl⟩
  · obtain ⟨l, hl, hTl⟩ := h.body r text hu hk
    exact ⟨l.abandon r, ends_loadReserved.2 (.inl ⟨e, _, hl, rfl, rfl⟩), hT.abandon hTl r⟩
  · obtain ⟨l, hl, hTl⟩ := h.body r text hu hk
    obtain ⟨hv, hT'⟩ := hT.commit hTl r a
    exact ⟨l.commit r a, ends_loadReserved.2 (.inr ⟨a, _, hl, congrArg Except.ok hv.symm, rfl⟩), hT'⟩

theorem loadStep (hT : Twins T) (id : String) (path : Path) :
    (m.loadStep id path).Mimicked T (m'.loadStep id path) := by
  refine .modules_bind fun ms ks hk => ?_
  rw [hT.record hk path]
  split
  · next record _ =>
    intro w o w' k hw hk
    rw [ends_bind_of (ends_note.2 ⟨rfl, rfl⟩), ends_pure] at hw
    obtain ⟨rfl, rfl⟩ := hw
    refine ⟨k.noted (.recordHit path record.state), ?_, hT.recordHit hk _ _⟩
    rw [ends_bind_of (ends_note.2 ⟨rfl, rfl⟩), ends_pure]
    exact ⟨rfl, rfl⟩
  · rw [hT.readText hk path]
    split
    · exact .fail _
    · exact .bind (mimicked_reserve hT id path) fun r => h.loadReserved hT r _

theorem runModuleStep (hT : Twins T) (r : Reservation) (text : String) :
    (m.runModuleStep r text).Mimicked T (m'.runModuleStep r text) := by
  intro w o w' k hw hk
  rcases ends_runModuleStep.1 hw with
    ⟨e, hp, rfl, rfl⟩ | ⟨body, args, module, w₁, c, w₂, hp, hb, hc, w₃, rfl, hend⟩
  · exact ⟨k, ends_runModuleStep.2 (.inl ⟨e, hp, rfl, rfl⟩), hk⟩
  · obtain ⟨k₁, hb', hk₁⟩ := mimicked_beginModule hT r hb hk
    obtain ⟨k₂, hc', hk₂⟩ := h.callScript moduleParams body w₁.globals args hc hk₁
    have hdepth := hT.depth hk
    refine ⟨k₂.leave w.modules.cache.contextDepth, ends_runModuleStep.2 (.inr
      ⟨body, args, module, _, c, _, hp, hb', hc', _, rfl, ?_⟩), ?_⟩
    · rw [show (w.withModules k).modules.cache.contextDepth = _ from hdepth]
      rcases hend with ⟨e, rfl, rfl, rfl⟩ | ⟨v, rfl, hh⟩
      · exact .inl ⟨e, rfl, rfl, rfl⟩
      · obtain ⟨rfl, rfl⟩ := ends_harvest.1 hh
        exact .inr ⟨v, rfl, ends_harvest.2 ⟨rfl, rfl⟩⟩
    · have hleave := hT.leave hk₂ w.modules.cache.contextDepth
      rcases hend with ⟨e, -, -, rfl⟩ | ⟨v, -, hh⟩
      · exact hleave
      · obtain ⟨rfl, -⟩ := ends_harvest.1 hh
        exact hleave

/-- One step deeper what evaluators do is mimicked, too, if `require` is. -/
theorem next (hT : Twins T) {req req' : String → LoaderRun Value}
    (hreq : ∀ id, (req id).Mimicked T (req' id)) :
    { m.next with require := req }.Mimicked T { m'.next with require := req' } where
  turns := Nat.succ_le_succ h.turns
  eval := h.evalStep
  target := h.evalTargetStep
  exec := h.execStep
  call := h.callStep hT
  require := hreq
  load := h.loadStep hT
  body := h.runModuleStep hT

end Evaluator.Mimicked

/-! ## More fuel -/

section
variable {ε α : Type} {x y : Run ε α}

/-- A run mimics itself over the same modules. -/
theorem Run.Mimicked.refl (x : Run ε α) : x.Mimicked Eq x := by
  rintro w o w' k h rfl
  exact ⟨w'.modules, h, rfl⟩

/-- What mimics a run over the same modules ends as the run does. -/
theorem Run.Mimicked.ends (h : x.Mimicked Eq y) {w w' : World} {o : Except ε α}
    (hx : x.Ends w o w') : y.Ends w o w' := by
  obtain ⟨k, hk, rfl⟩ := h hx rfl
  exact hk

end

end Requisite.Machine
