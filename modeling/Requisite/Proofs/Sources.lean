/-
  What runs was read.

  The functions of scripts that a heap holds have bodies that were read from texts,
  and so has whatever a run adds to them.  Such runs come upon no assignment without
  a target; a syntax error can only be that of a module they load.

  * `ScriptError.Runtime`: errors that may come up in a run;
  * `Heap.Sourced`: heaps of functions that were read;
  * `Run.Safe`: runs that keep such heaps, with errors of one kind;
  * `Evaluator.Safe`: evaluators that do so for trees that were read;
  * `evaluator_safe`: all evaluators do;
  * `runs_clean`: a program that is read leaves no syntax error for its run.
-/
import Requisite.Machine.Host
import Requisite.Proofs.Origins
import Requisite.Proofs.Targets

namespace Requisite.Script

open Requisite Requisite.Source

/-! ## Errors -/

/-- Whether an error is a syntax error itself; what it goes back to may be one. -/
def ScriptError.isSyntaxError : ScriptError → Bool
  | malformed _ => true
  | fault f => f.kind = .syntaxError
  | stated kind _ => kind = .syntaxError
  | thrown _ _ | host _ => false

/-- An error does not go back to an assignment without a target. -/
def ScriptError.Spared (e : ScriptError) : Prop := Source.script (.fault .invalidTarget) ∉ e.chain

/-- The same of an error of the loader. -/
def LoaderError.Spared (e : LoaderError) : Prop := Source.script (.fault .invalidTarget) ∉ e.chain

/-- An error that may come up while a script runs. -/
structure ScriptError.Runtime (e : ScriptError) : Prop where
  not_syntaxError : e.isSyntaxError = false
  spared : e.Spared

theorem ScriptError.runtime_fault {f : Fault} (h : f ≠ .invalidTarget) : (fault f).Runtime where
  not_syntaxError := by cases f <;> first | rfl | exact absurd rfl h
  spared := by simpa [Spared, chain, eq_comm] using h

theorem ScriptError.runtime_thrown (v : Value) (line : Nat) : (thrown v line).Runtime where
  not_syntaxError := rfl
  spared := by simp [Spared, chain]

theorem ScriptError.runtime_host {e : LoaderError} (h : e.Spared) : (host (.loader e)).Runtime where
  not_syntaxError := rfl
  spared := by simpa [Spared, chain, LoaderError.Spared] using h

theorem ScriptError.spared_malformed (e : SyntaxError) : (malformed e).Spared := by
  simp [Spared, chain]

theorem LoaderError.spared_failed {path : Path} {e : ScriptError} (h : e.Spared) :
    (failed path e).Spared := by
  simpa [Spared, chain, ScriptError.Spared] using h

theorem LoaderError.IsOriginal.spared {e : LoaderError} (h : e.IsOriginal) : e.Spared := by
  cases e with
  | failed | badConfig => exact h.elim
  | _ => simp [Spared, chain]

theorem Heap.getMember_ne {h : Heap} {object : Value} {key : String} {f : Fault}
    (hf : h.getMember object key = .error f) : f ≠ .invalidTarget := by
  unfold getMember at hf
  grind

theorem Heap.memberFault?_ne {h : Heap} {object : Value} {key : String} {f : Fault}
    (hf : h.memberFault? object key = some f) : f ≠ .invalidTarget := by
  unfold memberFault? at hf
  grind

/-! ## Heaps -/

/-- What a function of a script runs was read. -/
def Code.Sourced : Code → Prop
  | script _ body _ => ∀ s ∈ body, (Tree.stmt s).Sourced
  | native _ => True

/-- The functions of scripts in a heap all come from texts that were read. -/
def Heap.Sourced (h : Heap) : Prop := ∀ id f, h.function? id = some f → f.code.Sourced

namespace Heap.Sourced

variable {h h' : Heap}

theorem of_functions (hh : h.Sourced) (he : h'.functions = h.functions) : h'.Sourced := by
  intro id f hf
  rw [function?, he] at hf
  exact hh id f hf

theorem newFunction (hh : h.Sourced) {f : Function} (hf : f.code.Sourced) :
    (h.newFunction f).2.Sourced := by
  intro id g hg
  simp only [Heap.newFunction, function?, Array.getElem?_push] at hg
  split at hg
  · cases hg
    exact hf
  · exact hh id g hg

theorem overwrite (hh : h.Sourced) (s : ScopeId) (x : String) (v : Value) :
    (h.overwrite s x v).Sourced := by
  unfold Heap.overwrite
  split
  · exact hh
  · exact hh.of_functions rfl

/-- Writing a member of a function leaves what it runs. -/
theorem overwriteMember (hh : h.Sourced) (object : Value) (key : String) (v : Value) :
    (h.overwriteMember object key v).Sourced := by
  unfold Heap.overwriteMember
  split
  · exact hh.of_functions rfl
  · split
    · exact hh.of_functions rfl
    · exact hh
  · next id =>
    intro id' g hg
    simp only [modifyFunction, function?, Array.getElem?_modify] at hg
    split at hg
    · obtain ⟨f, hf, rfl⟩ := Option.map_eq_some_iff.1 hg
      exact hh id' f hf
    · exact hh id' g hg
  · exact hh

end Heap.Sourced

end Requisite.Script

namespace Requisite.Machine

open Requisite Requisite.Source Requisite.Script Requisite.Loader

open Run

/-! ## Runs -/

/-- However a run ends, the functions in its heap come from texts if they did before, and its error
    is of the kind `Q`. -/
def Run.Safe {ε α : Type} (Q : ε → Prop) (x : Run ε α) : Prop :=
  ∀ ⦃w o w'⦄, w.heap.Sourced → x.Ends w o w' → w'.heap.Sourced ∧ ∀ e, o = .error e → Q e

namespace Run.Safe

variable {ε ε' α β : Type} {Q : ε → Prop} {x : Run ε α}

theorem pure (a : α) : (Pure.pure a : Run ε α).Safe Q := by
  intro w o w' hw h
  obtain ⟨rfl, rfl⟩ := ends_pure.1 h
  exact ⟨hw, nofun⟩

theorem fail {e : ε} (he : Q e) : (Run.fail e : Run ε α).Safe Q := by
  intro w o w' hw h
  obtain ⟨rfl, rfl⟩ := ends_fail.1 h
  exact ⟨hw, fun _ h => by cases h; exact he⟩

theorem fault {f : Fault} (hf : f ≠ .invalidTarget) :
    (Run.fault f : ScriptRun α).Safe ScriptError.Runtime := fail (ScriptError.runtime_fault hf)

theorem outOfFuel : (Run.outOfFuel : Run ε α).Safe Q := fun _ _ _ _ h =>
  absurd h not_ends_outOfFuel

theorem modify {f : World → World} (hf : ∀ w, w.heap.Sourced → (f w).heap.Sourced) :
    (MonadStateOf.modifyGet fun w => ((), f w) : Run ε Unit).Safe Q := by
  intro w o w' hw h
  obtain ⟨rfl, rfl⟩ := ends_modify.1 h
  exact ⟨hf w hw, nofun⟩

theorem modifyHeap {f : Heap → Heap} (hf : ∀ h, h.Sourced → (f h).Sourced) :
    (Run.modifyHeap f : Run ε Unit).Safe Q := modify fun w hw => hf w.heap hw

theorem modifyGetHeap {f : Heap → α × Heap} (hf : ∀ h, h.Sourced → (f h).2.Sourced) :
    (Run.modifyGetHeap f : Run ε α).Safe Q := by
  intro w o w' hw h
  obtain ⟨rfl, rfl⟩ := ends_modifyGetHeap.1 h
  exact ⟨hf w.heap hw, nofun⟩

theorem bind {f : α → Run ε β} (hx : x.Safe Q) (hf : ∀ a, (f a).Safe Q) : (x >>= f).Safe Q := by
  intro w o w' hw h
  rcases ends_bind.1 h with ⟨a, v, hv, h⟩ | ⟨e, he, rfl⟩
  · exact hf a (hx hw hv).1 h
  · obtain ⟨hw', hQ⟩ := hx hw he
    exact ⟨hw', fun _ h => by cases h; exact hQ e rfl⟩

/-- The heap that is read holds functions that were read. -/
theorem heap_bind {f : Heap → Run ε β} (hf : ∀ h, h.Sourced → (f h).Safe Q) :
    (Run.heap >>= f).Safe Q := fun w _ _ hw h => hf w.heap hw hw (ends_heap_bind.1 h)

theorem modules_bind {f : Modules → Run ε β} (hf : ∀ m, (f m).Safe Q) :
    (Run.modules >>= f).Safe Q := fun w _ _ hw h => hf w.modules hw (ends_modules_bind.1 h)

theorem map {f : α → β} (hx : x.Safe Q) : (f <$> x).Safe Q := by
  rw [map_eq_pure_bind]
  exact bind hx fun a => pure (f a)

theorem map_heap {f : Heap → α} : (f <$> (Run.heap : Run ε Heap)).Safe Q := by
  rw [map_eq_pure_bind]
  exact heap_bind fun h _ => pure (f h)

theorem mapError {Q' : ε' → Prop} {f : ε → ε'} (hx : x.Safe Q) (hf : ∀ e, Q e → Q' (f e)) :
    (x.mapError f).Safe Q' := by
  intro w o w' hw h
  rcases ends_mapError.1 h with ⟨a, ha, rfl⟩ | ⟨e, he, rfl⟩
  · exact ⟨(hx hw ha).1, nofun⟩
  · obtain ⟨hw', hQ⟩ := hx hw he
    exact ⟨hw', fun _ h => by cases h; exact hf e (hQ e rfl)⟩

theorem mapM {f : α → Run ε β} {l : List α} (hf : ∀ a ∈ l, (f a).Safe Q) : (l.mapM f).Safe Q := by
  induction l with
  | nil => exact pure []
  | cons a l ih =>
    rw [List.mapM_cons]
    obtain ⟨ha, hl⟩ := List.forall_mem_cons.1 hf
    exact bind ha fun b => bind (ih hl) fun bs => pure (b :: bs)

theorem forM {f : α → Run ε Unit} {l : List α} (hf : ∀ a ∈ l, (f a).Safe Q) :
    (l.forM f).Safe Q := by
  induction l with
  | nil => exact pure ()
  | cons a l ih =>
    obtain ⟨ha, hl⟩ := List.forall_mem_cons.1 hf
    exact bind ha fun _ => ih hl

end Run.Safe

/-- A run of a script that was read. -/
abbrev Run.Clean {α : Type} (x : ScriptRun α) : Prop := x.Safe ScriptError.Runtime

/-! ## Parts of scripts -/

theorem clean_readName (s : ScopeId) (x : String) : (readName s x).Clean := by
  refine .heap_bind fun h _ => ?_
  split
  · exact .pure _
  · exact .fault nofun

theorem clean_readMember (object : Value) (key : String) : (readMember object key).Clean := by
  refine .heap_bind fun h _ => ?_
  unfold ofFault
  split
  · exact .pure _
  · next hf => exact .fault (Heap.getMember_ne hf)

theorem clean_read (s : ScopeId) (place : Target) : (place.read s).Clean := by
  cases place with
  | name x => exact clean_readName s x
  | member object key => exact clean_readMember object key

theorem clean_write (s : ScopeId) (v : Value) (place : Target) : (place.write s v).Clean := by
  cases place with
  | name x =>
    refine .heap_bind fun h _ => ?_
    split
    · exact .fault nofun
    · exact .fault nofun
    · exact .modifyHeap fun h hh => hh.overwrite s x v
  | member object key =>
    refine .heap_bind fun h _ => ?_
    split
    · next hf => exact .fault (Heap.memberFault?_ne hf)
    · exact .modifyHeap fun h hh => hh.overwriteMember object key v

section
variable {ε : Type} {Q : ε → Prop}

theorem safe_newObject (ps : Properties) : (newObject ps : Run ε ObjectId).Safe Q :=
  .modifyGetHeap fun _ hh => hh.of_functions rfl

theorem safe_newArray (items : Array Value) : (newArray items : Run ε ArrayId).Safe Q :=
  .modifyGetHeap fun _ hh => hh.of_functions rfl

theorem safe_newScope (outer : Option ScopeId) : (newScope outer : Run ε ScopeId).Safe Q :=
  .modifyGetHeap fun _ hh => hh.of_functions rfl

theorem safe_newFunction {f : Function} (hf : f.code.Sourced) :
    (newFunction f : Run ε FunctionId).Safe Q := .modifyGetHeap fun _ hh => hh.newFunction hf

end

theorem clean_declare (s : ScopeId) (x : String) (v : Value) (writable : Bool) :
    (declare s x v writable).Clean := .modifyHeap fun _ hh => hh.of_functions rfl

/-- The bodies of the functions that are bound were read with the body that declares them. -/
theorem clean_hoist (s : ScopeId) {body : List Stmt}
    (hbody : ∀ stmt ∈ body, (Tree.stmt stmt).Sourced) : (hoist s body).Clean := by
  fun_induction hoist s body with
  | case1 => exact .pure ()
  | case2 name params body rest ih =>
    obtain ⟨hfunction, hrest⟩ := List.forall_mem_cons.1 hbody
    have hcode : (Code.script params body s).Sourced := fun stmt hstmt =>
      hfunction.part (List.mem_map_of_mem hstmt)
    exact .bind (safe_newFunction hcode) fun f => .bind (clean_declare _ _ _ _) fun _ => ih hrest
  | case3 stmt rest _ ih => exact ih (List.forall_mem_cons.1 hbody).2

theorem clean_bindParams (s : ScopeId) (params : List String) (args : List Value) :
    (bindParams s params args).Clean := by
  fun_induction bindParams s params args with
  | case1 => exact .pure ()
  | case2 p ps ih => exact .bind (clean_declare _ _ _ _) fun _ => ih
  | case3 p ps v vs ih => exact .bind (clean_declare _ _ _ _) fun _ => ih

theorem clean_enter (params : List String) {body : List Stmt}
    (hbody : ∀ stmt ∈ body, (Tree.stmt stmt).Sourced) (closure : ScopeId) (args : List Value) :
    (enter params body closure args).Clean :=
  .bind (safe_newScope _) fun s => .bind (clean_bindParams s params args) fun _ =>
    .bind (clean_hoist s hbody) fun _ => .pure s

theorem clean_execList {exec : Stmt → ScriptRun Completion} {body : List Stmt}
    (h : ∀ stmt ∈ body, (exec stmt).Clean) (last : Value) : (execList exec last body).Clean := by
  induction body generalizing last with
  | nil => exact .pure _
  | cons stmt rest ih =>
    obtain ⟨hstmt, hrest⟩ := List.forall_mem_cons.1 h
    refine .bind hstmt fun c => ?_
    cases c with
    | normal v => exact ih hrest v
    | returned v => exact .pure _

theorem clean_loop {test : ScriptRun Value} {body : ScriptRun Completion} (ht : test.Clean)
    (hb : body.Clean) (n : Nat) (last : Value) : (loop test body n last).Clean := by
  induction n generalizing last with
  | zero => exact .outOfFuel
  | succ n ih =>
    refine .bind ht fun v => ?_
    split
    · refine .bind hb fun c => ?_
      cases c with
      | normal v => exact ih v
      | returned v => exact .pure _
    · exact .pure _

theorem clean_deeper {α : Type} {x : ScriptRun α} (hx : x.Clean) : (deeper x).Clean := by
  intro w o w' hw h
  unfold deeper at h
  rw [ends_get_bind] at h
  split at h
  · have hfault : (fault .stackExhausted : ScriptRun α).Clean := .fault nofun
    exact hfault hw h
  · rw [ends_bind_of (ends_modify.2 ⟨rfl, rfl⟩)] at h
    obtain ⟨v, hv, rfl⟩ := ends_andThen.1 h
    obtain ⟨hv', he⟩ := hx (w := { w with depth := w.depth + 1 }) hw hv
    exact ⟨hv', he⟩

/-- A search fails with an error of its own. -/
theorem safe_resolve (id : String) : (resolve id).Safe LoaderError.Spared := by
  intro w o w' hw h
  obtain ⟨ho, rfl⟩ := ends_resolve.1 h
  exact ⟨hw, fun e he => (Resolver.isOriginal_of_resolve _ _ _ (ho.symm.trans he)).spared⟩

theorem clean_identifierOf (args : List Value) : (identifierOf args).Clean := by
  unfold identifierOf
  split
  · split
    · exact .fault nofun
    · exact .pure _
  · exact .fault nofun
  · exact .fault nofun

/-- The functions that modules are required by are none of a script. -/
theorem sourced_newRequireIn {h : Heap} (hh : h.Sourced) : (newRequireIn h).2.Sourced := by
  have hresolve : (h.newFunction ⟨some "resolve", .native .resolve, .empty⟩).2.Sourced :=
    hh.newFunction (f := ⟨some "resolve", .native .resolve, .empty⟩) trivial
  exact hresolve.newFunction (f := ⟨some "require", .native .require, _⟩) trivial

theorem clean_beginModule (r : Reservation) : (beginModule r).Clean :=
  .bind (safe_newObject _) fun _ =>
    .bind (.modifyGetHeap fun _ hh => sourced_newRequireIn hh) fun _ =>
    .bind (.modify fun _ hw => hw) fun _ => .bind (.modify fun _ hw => hw) fun _ => .pure _

/-! ## Evaluators -/

/-- Trees and functions that were read run clean, and modules have no other syntax errors than those
    of texts. -/
structure Evaluator.Safe (m : Evaluator) : Prop where
  eval (s : ScopeId) {e : Expr} : (Tree.expr e).Sourced → (m.eval s e).Clean
  target (s : ScopeId) {e : Expr} : (Tree.expr e).Sourced → e.isTarget → (m.evalTarget s e).Clean
  exec (s vars : ScopeId) {stmt : Stmt} : (Tree.stmt stmt).Sourced → (m.exec s vars stmt).Clean
  call (f : Value) (args : List Value) : (m.call f args).Clean
  require (id : String) : (m.require id).Safe LoaderError.Spared
  load (id : String) (path : Path) : (m.load id path).Safe LoaderError.Spared
  body (r : Reservation) (text : String) : (m.runModule r text).Safe ScriptError.Spared

namespace Evaluator.Safe

open Tree

variable {m : Evaluator} (h : m.Safe)
include h

theorem evalEntry (s : ScopeId) {entry : String × Expr} (he : (expr entry.2).Sourced) :
    (m.evalEntry s entry).Clean := .bind (h.eval s he) fun _ => .pure _

theorem evalAssigned (s : ScopeId) (op : AssignOp) (place : Target) {e : Expr}
    (he : (expr e).Sourced) : (m.evalAssigned s op place e).Clean := by
  unfold Evaluator.evalAssigned
  split
  · exact h.eval s he
  · exact .bind (clean_read s place) fun _ => .bind (h.eval s he) fun _ => .map_heap

theorem evalInitial (s : ScopeId) {e : Option Expr} (he : ∀ e' ∈ e, (expr e').Sourced) :
    (m.evalInitial s e).Clean := by
  cases e with
  | none => exact .pure _
  | some e => exact h.eval s (he e rfl)

theorem execBinding (s vars : ScopeId) (kind : BindingKind) {b : String × Option Expr}
    (hb : ∀ e ∈ b.2, (expr e).Sourced) : (m.execBinding s vars kind b).Clean := by
  refine .bind (h.evalInitial s hb) fun v => ?_
  cases kind <;> exact clean_declare _ _ _ _

theorem evalStep (s : ScopeId) {e : Expr} (he : (expr e).Sourced) : (m.evalStep s e).Clean := by
  cases e with
  | number | string | boolean | null => exact .pure _
  | name x => exact clean_readName s x
  | array items =>
    refine .bind (.mapM fun e hmem => h.eval s ?_) fun _ => .map (safe_newArray _)
    exact he.part (List.mem_map_of_mem hmem)
  | object entries =>
    refine .bind (.mapM fun entry hmem => h.evalEntry s ?_) fun _ => .map (safe_newObject _)
    exact he.part (List.mem_map_of_mem hmem)
  | function name params body =>
    refine .bind (safe_newScope _) fun closure => .bind (safe_newFunction ?_) fun _ => ?_
    · exact fun stmt hstmt => he.part (List.mem_map_of_mem hstmt)
    · cases name with
      | none => exact .pure _
      | some x => exact .bind (clean_declare _ _ _ _) fun _ => .pure _
  | unary op e =>
    have hoperand : (expr e).Sourced := he.part (by simp [parts])
    by_cases ht : op = .typeOf → ∀ x, e ≠ .name x
    · rw [evalStep_unary ht]
      exact .map (h.eval s hoperand)
    · obtain ⟨hop, x, hx⟩ : op = .typeOf ∧ ∃ x, e = .name x := by simpa using ht
      subst hop hx
      exact .map_heap
  | binary op a b =>
    exact .bind (h.eval s (he.part (by simp [parts]))) fun _ =>
      .bind (h.eval s (he.part (by simp [parts]))) fun _ => .map_heap
  | logical op a b =>
    refine .bind (h.eval s (he.part (by simp [parts]))) fun v => ?_
    split
    · exact .pure v
    · exact h.eval s (he.part (by simp [parts]))
  | assign op target e =>
    -- the left side of an assignment that was read is a target
    refine .bind (h.target s (he.part (by simp [parts])) he.isTarget) fun place => ?_
    exact .bind (h.evalAssigned s op place (he.part (by simp [parts]))) fun v =>
      .bind (clean_write s v place) fun _ => .pure v
  | conditional a b c =>
    refine .bind (h.eval s (he.part (by simp [parts]))) fun v => ?_
    split
    · exact h.eval s (he.part (by simp [parts]))
    · exact h.eval s (he.part (by simp [parts]))
  | call callee args =>
    refine .bind (h.eval s (he.part (by simp [parts]))) fun f => ?_
    split
    · refine .bind (.mapM fun e hmem => h.eval s ?_) fun vs => h.call f vs
      exact he.part (List.mem_cons_of_mem _ (List.mem_map_of_mem hmem))
    · exact .fault (by simp)
  | dot e key =>
    exact .bind (h.eval s (he.part (by simp [parts]))) fun v => clean_readMember v key
  | index e k =>
    exact .bind (h.eval s (he.part (by simp [parts]))) fun v =>
      .bind (h.eval s (he.part (by simp [parts]))) fun _ =>
      .heap_bind fun _ _ => clean_readMember v _

/-- What is a target is evaluated as one. -/
theorem evalTargetStep (s : ScopeId) {e : Expr} (he : (expr e).Sourced) (ht : e.isTarget) :
    (m.evalTargetStep s e).Clean := by
  cases e with
  | name x => exact .pure _
  | dot e key => exact .map (h.eval s (he.part (by simp [parts])))
  | index e k =>
    exact .bind (h.eval s (he.part (by simp [parts]))) fun _ =>
      .bind (h.eval s (he.part (by simp [parts]))) fun _ => .map_heap
  | _ => cases ht

theorem execStep (s vars : ScopeId) {stmt : Stmt} (hs : (Tree.stmt stmt).Sourced) :
    (m.execStep s vars stmt).Clean := by
  cases stmt with
  | declare kind bindings =>
    refine .bind (.forM fun b hb => h.execBinding s vars kind fun e he => hs.part ?_) fun _ => .pure _
    exact List.mem_filterMap.2 ⟨b, hb, Option.map_eq_some_iff.2 ⟨e, he, rfl⟩⟩
  | function | empty => exact .pure _
  | expression e => exact .map (h.eval s (hs.part (by simp [parts])))
  | block body =>
    have hbody : ∀ stmt ∈ body, (Tree.stmt stmt).Sourced := fun stmt hmem =>
      hs.part (List.mem_map_of_mem hmem)
    exact .bind (safe_newScope _) fun inner => .bind (clean_hoist inner hbody) fun _ =>
      clean_execList (fun stmt hmem => h.exec inner vars (hbody stmt hmem)) _
  | conditional a b c =>
    refine .bind (h.eval s (hs.part (by simp [parts]))) fun v => ?_
    split
    · exact h.exec s vars (hs.part (by simp [parts]))
    · cases c with
      | none => exact .pure _
      | some c => exact h.exec s vars (hs.part (by simp [parts]))
  | «while» a b =>
    exact clean_loop (h.eval s (hs.part (by simp [parts])))
      (h.exec s vars (hs.part (by simp [parts]))) _ _
  | «return» e =>
    refine .map (h.evalInitial s fun e' he' => hs.part ?_)
    exact Option.mem_toList.2 (Option.mem_map_of_mem _ he')
  | throw e line =>
    exact .bind (h.eval s (hs.part (by simp [parts]))) fun v =>
      .fail (ScriptError.runtime_thrown v line)

theorem callScript (params : List String) {body : List Stmt}
    (hbody : ∀ stmt ∈ body, (Tree.stmt stmt).Sourced) (closure : ScopeId) (args : List Value) :
    (m.callScript params body closure args).Clean :=
  clean_deeper (.bind (clean_enter params hbody closure args) fun s =>
    .map (clean_execList (fun stmt hmem => h.exec s s (hbody stmt hmem)) _))

theorem callNative (args : List Value) (native : Native) : (m.callNative args native).Clean := by
  cases native with
  | log | error | warn =>
    exact .heap_bind fun _ _ => .bind (.modify fun _ hw => hw) fun _ => .pure _
  | require =>
    refine .modules_bind fun ms => ?_
    split
    · exact .bind (clean_identifierOf args) fun id =>
        .mapError (h.require id) fun _ => ScriptError.runtime_host
    · exact .fault nofun
  | resolve =>
    refine .modules_bind fun ms => ?_
    split
    · exact .bind (clean_identifierOf args) fun id =>
        .map (.mapError (safe_resolve id) fun _ => ScriptError.runtime_host)
    · exact .fault nofun

/-- A function that is called has a body that was read. -/
theorem callStep (f : Value) (args : List Value) : (m.callStep f args).Clean := by
  refine .heap_bind fun heap hheap => ?_
  split
  · exact .heap_bind fun _ _ => .fault nofun
  · next params body closure hcode =>
    cases f with
    | function id =>
      obtain ⟨f, hf, hcode⟩ := Option.map_eq_some_iff.1 hcode
      have hbody := hheap id f hf
      rw [hcode] at hbody
      exact h.callScript params hbody closure args
    | _ => exact nomatch hcode
  · exact h.callNative args _

theorem requireStep (id : String) : (m.requireStep id).Safe LoaderError.Spared := by
  refine .modules_bind fun ms => ?_
  split
  · exact .bind (.modify fun _ hw => hw) fun _ => .pure _
  · exact .bind (safe_resolve id) fun path => .bind (h.load id path) fun v =>
      .bind (.modify fun _ hw => hw) fun _ => .pure _

theorem loadReserved (r : Reservation) (text : String) :
    (m.loadReserved r text).Safe LoaderError.Spared := by
  intro w o w' hw hend
  rcases ends_loadReserved.1 hend with ⟨e, u, hu, rfl, rfl⟩ | ⟨a, u, hu, rfl, rfl⟩
  · obtain ⟨hu', he⟩ := h.body r text hw hu
    exact ⟨hu', fun _ heq => by cases heq; exact LoaderError.spared_failed (he e rfl)⟩
  · exact ⟨(h.body r text hw hu).1, nofun⟩

theorem loadStep (id : String) (path : Path) : (m.loadStep id path).Safe LoaderError.Spared := by
  refine .modules_bind fun ms => ?_
  split
  · exact .bind (.modify fun _ hw => hw) fun _ => .pure _
  · split
    · exact .fail (LoaderError.IsOriginal.spared trivial)
    · refine .bind ?_ fun r => h.loadReserved r _
      exact .bind (safe_newObject _) fun o => .bind (.modify fun _ hw => hw) fun _ =>
        .bind (.modify fun _ hw => hw) fun _ => .pure _

/-- The script of a module is a program that was read, or its text is none. -/
theorem runModuleStep (r : Reservation) (text : String) :
    (m.runModuleStep r text).Safe ScriptError.Spared := by
  intro w o w' hw hend
  rcases ends_runModuleStep.1 hend with
    ⟨e, -, rfl, rfl⟩ | ⟨body, args, module, w₁, c, w₂, hp, hb, hc, w₃, rfl, hend⟩
  · exact ⟨hw, fun _ heq => by cases heq; exact ScriptError.spared_malformed e⟩
  · have hw₁ := (clean_beginModule r hw hb).1
    have hbody : ∀ stmt ∈ body, (Tree.stmt stmt).Sourced := fun _ => .of_mem hp
    obtain ⟨hw₂, he⟩ := h.callScript moduleParams hbody w₁.globals args
      (w := { w₁ with depth := 0 }) hw₁ hc
    rcases hend with ⟨e, rfl, rfl, rfl⟩ | ⟨v, -, hh⟩
    · exact ⟨hw₂, fun _ heq => by cases heq; exact (he e rfl).spared⟩
    · obtain ⟨rfl, rfl⟩ := ends_harvest.1 hh
      exact ⟨hw₂, nofun⟩

/-- An evaluator that goes one step deeper is safe, too. -/
theorem next : m.next.Safe where
  eval := h.evalStep
  target := h.evalTargetStep
  exec := h.execStep
  call := h.callStep
  require := h.requireStep
  load := h.loadStep
  body := h.runModuleStep

end Evaluator.Safe

/-- All evaluators are safe. -/
theorem evaluator_safe (n : Nat) : (evaluator n).Safe := by
  induction n with
  | zero => constructor <;> intros <;> exact .outOfFuel
  | succ n ih =>
    rw [evaluator_succ]
    exact ih.next

/-! ## Programs -/

/-- Runs a program in a scope; its value is that of the last statement. -/
def runIn (fuel : Nat) (s : ScopeId) (body : List Stmt) : ScriptRun Value := do
  hoist s body
  return (← execList (exec fuel s s) .undefined body).value

/-- Programs are run in the global scope. -/
theorem runProgram_eq (fuel : Nat) (body : List Stmt) :
    runProgram fuel body = (do runIn fuel (← get).globals body) := rfl

/-- **No syntax error is left for a run.**  In a program that is read all assignments, those in the
    bodies of functions included, have a name or a member on the left.  Run in any scope of a heap
    whose functions come from texts, it ends with such a heap again, and so does every call of a
    value there; an error that comes of it is no syntax error, and does not go back to an assignment
    without a target, neither of its own nor of a module's. -/
theorem runs_clean {text : String} {p : Program} (hp : Program.ofText? text = .ok p) :
    (∀ op target e, p.Has (.expr (.assign op target e)) → target.isTarget) ∧
      (∀ n s, (runIn n s p).Clean) ∧ ∀ n f args, (call n f args).Clean := by
  have hbody : ∀ stmt ∈ p, (Tree.stmt stmt).Sourced := fun _ => .of_mem hp
  refine ⟨?_, fun n s => ?_, fun n f args => (evaluator_safe n).call f args⟩
  · rintro op target e ⟨s, hs, hwithin⟩
    exact Program.targeted hp s hs op target e hwithin
  · refine .bind (clean_hoist s hbody) fun _ => .map (clean_execList (fun stmt hmem => ?_) _)
    exact (evaluator_safe n).exec s s (hbody stmt hmem)

/-- The heap to begin with has no functions of scripts. -/
theorem sourced_bare : World.bare.heap.Sourced := by
  have hempty : (Heap.empty.newScope none).2.Sourced := by
    intro id f hf
    simp [Heap.empty, Heap.newScope, Heap.function?] at hf
  have hlog := hempty.newFunction (f := ⟨some "log", .native .log, .empty⟩) trivial
  have herror := hlog.newFunction (f := ⟨some "error", .native .error, .empty⟩) trivial
  have hwarn := herror.newFunction (f := ⟨some "warn", .native .warn, .empty⟩) trivial
  exact hwarn.of_functions rfl

/-- The declaration of a function that assigns to a member. -/
def memberAssigner : List Stmt :=
  [.declare .lexical [("f", some (.function none []
    [.expression (.assign .assign (.dot (.name "a") "b") (.name "c"))]))]]

theorem ofText?_memberAssigner :
    Program.ofText? "let f = function () { a.b = c }" = .ok memberAssigner := by
  have hlexemes : Lexeme.ofText "let f = function () { a.b = c }" =
      [⟨.keyword .letWord, ⟨0, 1⟩, ⟨3, 1⟩, false⟩, ⟨.identifier "f", ⟨4, 1⟩, ⟨5, 1⟩, false⟩,
        ⟨.symbol .equal, ⟨6, 1⟩, ⟨7, 1⟩, false⟩, ⟨.keyword .functionWord, ⟨8, 1⟩, ⟨16, 1⟩, false⟩,
        ⟨.symbol .leftParen, ⟨17, 1⟩, ⟨18, 1⟩, false⟩,
        ⟨.symbol .rightParen, ⟨18, 1⟩, ⟨19, 1⟩, false⟩,
        ⟨.symbol .leftBrace, ⟨20, 1⟩, ⟨21, 1⟩, false⟩, ⟨.identifier "a", ⟨22, 1⟩, ⟨23, 1⟩, false⟩,
        ⟨.symbol .dot, ⟨23, 1⟩, ⟨24, 1⟩, false⟩, ⟨.identifier "b", ⟨24, 1⟩, ⟨25, 1⟩, false⟩,
        ⟨.symbol .equal, ⟨26, 1⟩, ⟨27, 1⟩, false⟩, ⟨.identifier "c", ⟨28, 1⟩, ⟨29, 1⟩, false⟩,
        ⟨.symbol .rightBrace, ⟨30, 1⟩, ⟨31, 1⟩, false⟩, ⟨.eof, ⟨31, 1⟩, ⟨31, 1⟩, false⟩] := by
    decide +kernel
  exact Program.ofText?_of_lexemes hlexemes rfl

/-- The function is the fourth in the heap, after those of the console; calls of it have no syntax
    errors. -/
theorem runs_clean_memberAssigner :
    Program.ofText? "let f = function () { a.b = c }" = .ok memberAssigner ∧
      ∃ w, (runIn 4 World.bare.globals memberAssigner).Ends World.bare (.ok .undefined) w ∧
        w.heap.get? World.bare.globals "f" = some (.function ⟨3⟩) ∧ w.heap.Sourced ∧
        ∀ n args e w', (call n (.function ⟨3⟩) args).Ends w (.error e) w' → e.Runtime := by
  obtain ⟨-, hrun, hcall⟩ := runs_clean ofText?_memberAssigner
  obtain ⟨w, hends⟩ : ∃ w, (runIn 4 World.bare.globals memberAssigner).Ends World.bare
      (.ok .undefined) w := ⟨_, rfl⟩
  have hw := (hrun 4 World.bare.globals sourced_bare hends).1
  refine ⟨ofText?_memberAssigner, w, hends, ?_, hw, fun n args e w' h => ?_⟩
  · cases hends
    decide +kernel
  · exact (hcall n _ args hw h).2 e rfl

end Requisite.Machine
