/-
  The functions that bodies declare.

  The functions that a body declares are bound before it runs; where such a
  declaration stands it does nothing.  So it may stand anywhere in its body.  But
  only the statements of the body itself are looked at: nothing binds a function
  whose declaration is the branch of a conditional or the body of a loop.

  * `functionsFirst`: a body with its declarations of functions in front;
  * `functions_anywhere`: it does what the body does;
  * `Arises`: the jobs that are open at a moment while a program runs;
  * `Stands`: the statements that are reached in the scope of a body;
  * `declaration_bound`: when the declaration of a function is reached, the
    function is bound, if its body declares it;
  * `branch_unbound`: the declaration in the branch of a conditional.
-/
import Requisite.Machine.Host
import Requisite.Proofs.Scopes

namespace Requisite.Source

open Requisite

/-- Whether a statement declares a function. -/
def Stmt.isFunction : Stmt → Bool
  | .function _ _ _ => true
  | _ => false

/-- A body with its declarations of functions in front, each kind of statement in its order. -/
def functionsFirst (body : List Stmt) : List Stmt :=
  body.filter Stmt.isFunction ++ body.filter (! Stmt.isFunction ·)

/-- A body declares a function of the name `f`. -/
def Declares (body : List Stmt) (f : String) : Prop :=
  ∃ params b, Stmt.function f params b ∈ body

/-- A statement is the branch of a conditional or the body of a loop. -/
inductive Stmt.Directly : Stmt → Stmt → Prop
  | consequent {test a b} : Directly a (.conditional test a b)
  | alternate {test a b} : Directly b (.conditional test a (some b))
  | body {test a} : Directly a (.while test a)

section
variable (body : List Stmt)

theorem filter_isFunction_functionsFirst :
    (functionsFirst body).filter Stmt.isFunction = body.filter Stmt.isFunction := by
  simp [functionsFirst, List.filter_append, List.filter_filter]

theorem filter_not_isFunction_functionsFirst :
    (functionsFirst body).filter (! Stmt.isFunction ·) = body.filter (! Stmt.isFunction ·) := by
  simp [functionsFirst, List.filter_append, List.filter_filter]

theorem functionsFirst_eq_nil_iff : functionsFirst body = [] ↔ body = [] := by
  have hperm : (functionsFirst body).Perm body := List.filter_append_perm _ _
  exact ⟨fun h => List.nil_perm.1 (h ▸ hperm), fun h => by rw [h]; rfl⟩

end

end Requisite.Source

namespace Requisite.Script

open Requisite Requisite.Source

namespace Heap

/-- Binds a new function in the scope that it sees. -/
def bindFunction (h : Heap) (s : ScopeId) (f : String) (params : List String)
    (body : List Stmt) : Heap :=
  ((h.newFunction ⟨some f, .script params body s, .empty⟩).2).declare s f
    (.function (h.newFunction ⟨some f, .script params body s, .empty⟩).1) true

/-- In the scope `s` the name `f` is bound to a function that `body` declares, which sees `s`. -/
def BoundTo (h : Heap) (s : ScopeId) (body : List Stmt) (f : String) : Prop :=
  ∃ id params b, .function f params b ∈ body ∧
    h.bindingIn? s f = some ⟨.function id, true⟩ ∧
    h.function? id = some ⟨some f, .script params b s, .empty⟩

/-- What is bound in a scope of `h` is bound there in `h'`, too. -/
def KeepsNames (h h' : Heap) : Prop := ∀ s x, h.hasOwn s x = true → h'.hasOwn s x = true

theorem KeepsNames.refl (h : Heap) : KeepsNames h h := fun _ _ hx => hx

theorem KeepsNames.trans {h h' h'' : Heap} (h₁ : KeepsNames h h') (h₂ : KeepsNames h' h'') :
    KeepsNames h h'' := fun s x hx => h₂ s x (h₁ s x hx)

section
variable {h h' : Heap} {s : ScopeId} {f : String} {body : List Stmt}

theorem hasOwn_of_boundTo (hb : h.BoundTo s body f) : h.hasOwn s f = true := by
  obtain ⟨id, params, b, -, hbind, -⟩ := hb
  simp [hasOwn, hbind]

theorem index_lt_of_hasOwn {x : String} (hx : h.hasOwn s x = true) :
    s.index < h.scopes.size := by
  obtain ⟨b, hb⟩ := Option.isSome_iff_exists.1 hx
  exact index_lt_of_bindingIn? hb

theorem keepsNames_of_spares (hs : Spares (fun _ => False) h h') : KeepsNames h h' := by
  intro s x hx
  have hnames := congrArg Option.isSome ((hs.same s (index_lt_of_hasOwn hx) not_false).names x)
  simpa [hasOwn] using hnames.trans (by simpa [hasOwn] using hx)

theorem keepsNames_newScope (h : Heap) (outer : Option ScopeId) :
    KeepsNames h (h.newScope outer).2 :=
  keepsNames_of_spares (.of_newScope (.of_scopes rfl))

theorem keepsNames_declare (h : Heap) (s : ScopeId) (x : String) (v : Value) (writable : Bool) :
    KeepsNames h (h.declare s x v writable) := by
  intro t y hy
  have hlt := index_lt_of_hasOwn hy
  unfold hasOwn at hy ⊢
  rw [bindingIn?_declare]
  split
  · next hts =>
    rw [← hts.1, Array.getElem?_eq_getElem hlt]
    rfl
  · exact hy

section
variable {params : List String} {b : List Stmt}

theorem size_bindFunction : (h.bindFunction s f params b).scopes.size = h.scopes.size := by
  simp [bindFunction, newFunction, declare]

/-- A function that is bound is found where it was bound. -/
theorem boundTo_bindFunction (hs : s.index < h.scopes.size) (hmem : .function f params b ∈ body) :
    (h.bindFunction s f params b).BoundTo s body f := by
  refine ⟨⟨h.functions.size⟩, params, b, hmem, ?_, ?_⟩
  · unfold bindFunction
    rw [bindingIn?_declare, if_pos ⟨rfl, rfl⟩]
    simp [newFunction, Array.getElem?_eq_getElem hs]
  · simp [bindFunction, newFunction, declare, function?]

/-- Another function in the scope does not change this. -/
theorem BoundTo.bindFunction (hb : h.BoundTo s body f) {g : String} (hg : f ≠ g) :
    (h.bindFunction s g params b).BoundTo s body f := by
  obtain ⟨id, ps, b', hmem, hbind, hfun⟩ := hb
  refine ⟨id, ps, b', hmem, ?_, ?_⟩
  · unfold Heap.bindFunction
    rw [bindingIn?_declare, if_neg fun he => hg he.2]
    exact hbind
  · have hid : id.index < h.functions.size := (Array.getElem?_eq_some_iff.1 hfun).1
    simpa [Heap.bindFunction, newFunction, declare, function?, Array.getElem?_push,
      Nat.ne_of_lt hid] using hfun

end

end

end Heap

end Requisite.Script

namespace Requisite.Machine

open Requisite Requisite.Source Requisite.Script Requisite.Loader

open Run

/-! ## The place of a declaration -/

/-- What a statement returns, if it ends by a `return`. -/
def Completion.returned? : Completion → Option Value
  | normal _ => none
  | returned v => some v

namespace Evaluator

/-- Binds the functions that a body declares, and runs the body. -/
def runBody (m : Evaluator) (s vars : ScopeId) (body : List Stmt) : ScriptRun Completion := do
  hoist s body
  execList (m.exec s vars) .undefined body

/-- Runs a body in the global scope. -/
def runGlobal (m : Evaluator) (body : List Stmt) : ScriptRun Completion := do
  let globals := (← get).globals
  m.runBody globals globals body

end Evaluator

/-- What is bound depends on nothing but the declarations of functions. -/
theorem hoist_filter_isFunction (s : ScopeId) (body : List Stmt) :
    hoist s (body.filter Stmt.isFunction) = hoist s body := by
  fun_induction hoist s body with
  | case1 => rfl
  | case2 name params body rest ih => exact bind_congr fun f => bind_congr fun _ => ih
  | case3 stmt rest hf ih =>
    have hstmt : stmt.isFunction = false := by
      cases stmt with
      | function name params body => exact absurd rfl (hf name params body)
      | _ => rfl
    rw [List.filter_cons_of_neg (by simp [hstmt])]
    exact ih

theorem hoist_functionsFirst (s : ScopeId) (body : List Stmt) :
    hoist s (functionsFirst body) = hoist s body := by
  rw [← hoist_filter_isFunction, filter_isFunction_functionsFirst, hoist_filter_isFunction]

/-- Without fuel the first statement is the last, whatever it is. -/
theorem execList_outOfFuel (last : Value) {body : List Stmt} (h : body ≠ []) :
    execList (fun _ => outOfFuel) last body = outOfFuel := by
  cases body with
  | nil => exact absurd rfl h
  | cons stmt rest => rfl

section
variable {exec : Stmt → ScriptRun Completion}

/-- If declarations of functions do nothing, a body comes to what it does without them, but for the
    value of the last statement. -/
theorem returned?_execList_filter
    (h : ∀ f params body, exec (.function f params body) = pure (.normal .undefined))
    (last last' : Value) (body : List Stmt) :
    Completion.returned? <$> execList exec last body =
      Completion.returned? <$> execList exec last' (body.filter (! Stmt.isFunction ·)) := by
  induction body generalizing last last' with
  | nil => simp [execList, Completion.returned?]
  | cons stmt rest ih =>
    cases hf : stmt.isFunction with
    | true =>
      obtain ⟨f, params, body, rfl⟩ : ∃ f params body, stmt = .function f params body := by
        cases stmt with
        | function f params body => exact ⟨f, params, body, rfl⟩
        | _ => cases hf
      rw [List.filter_cons_of_neg (by simp [hf]), execList, h, pure_bind]
      exact ih .undefined last'
    | false =>
      rw [List.filter_cons_of_pos (by simp [hf]), execList, execList, map_bind, map_bind]
      refine bind_congr fun c => ?_
      cases c with
      | normal v => exact ih v v
      | returned v => rfl

end

namespace Evaluator

variable (n : Nat) (body : List Stmt)

/-- A body does the same with its declarations in front, but for the value of the last statement. -/
theorem returned?_runBody_functionsFirst (s vars : ScopeId) :
    Completion.returned? <$> (evaluator n).runBody s vars (functionsFirst body) =
      Completion.returned? <$> (evaluator n).runBody s vars body := by
  unfold runBody
  rw [hoist_functionsFirst, map_bind, map_bind]
  refine bind_congr fun _ => ?_
  cases n with
  | zero =>
    -- even a declaration takes fuel
    by_cases hb : body = []
    · rw [hb]
      rfl
    · have hb' : functionsFirst body ≠ [] := mt (functionsFirst_eq_nil_iff body).1 hb
      exact congrArg (Completion.returned? <$> ·)
        ((execList_outOfFuel _ hb').trans (execList_outOfFuel _ hb).symm)
  | succ n =>
    have h (f params body) : (evaluator (n + 1)).exec s vars (.function f params body) =
        pure (.normal .undefined) := rfl
    rw [returned?_execList_filter h _ .undefined, filter_not_isFunction_functionsFirst,
      ← returned?_execList_filter h]

theorem returned?_runGlobal_functionsFirst :
    Completion.returned? <$> (evaluator n).runGlobal (functionsFirst body) =
      Completion.returned? <$> (evaluator n).runGlobal body := by
  unfold runGlobal
  rw [map_bind, map_bind]
  exact bind_congr fun w => returned?_runBody_functionsFirst n body w.globals w.globals

theorem returned?_block_functionsFirst (s vars : ScopeId) :
    Completion.returned? <$> (evaluator (n + 1)).exec s vars (.block (functionsFirst body)) =
      Completion.returned? <$> (evaluator (n + 1)).exec s vars (.block body) := by
  show Completion.returned? <$> (newScope (some s) >>= fun inner =>
      (evaluator n).runBody inner vars (functionsFirst body)) =
    Completion.returned? <$> (newScope (some s) >>= fun inner =>
      (evaluator n).runBody inner vars body)
  rw [map_bind, map_bind]
  exact bind_congr fun inner => returned?_runBody_functionsFirst n body inner vars

/-- A call gives what its body returns, or else `undefined`. -/
theorem callScript_eq (m : Evaluator) (params : List String) (closure : ScopeId)
    (args : List Value) : m.callScript params body closure args = deeper (do
      let s ← newScope (some closure)
      bindParams s params args
      return (← Completion.returned? <$> m.runBody s s body).getD .undefined) := by
  have hresult : Completion.result = fun c => c.returned?.getD .undefined := by
    funext c
    cases c <;> rfl
  unfold callScript enter runBody
  simp only [hresult, bind_assoc, pure_bind, map_eq_pure_bind]

theorem callScript_functionsFirst (params : List String) (closure : ScopeId)
    (args : List Value) : (evaluator n).callScript params (functionsFirst body) closure args =
      (evaluator n).callScript params body closure args := by
  rw [callScript_eq, callScript_eq]
  simp only [returned?_runBody_functionsFirst]

end Evaluator

/-- The value of a program is that of the completion of its body. -/
theorem runProgram_eq_runGlobal (n : Nat) (p : Program) :
    runProgram n p = Completion.value <$> (evaluator n).runGlobal p := by
  unfold runProgram Evaluator.runGlobal Evaluator.runBody
  simp only [map_eq_pure_bind, bind_assoc]
  rfl

/-- **A declaration of a function may stand anywhere in its body.**  With its declarations of
    functions in front, a body comes to the same: however it is run, the world afterwards is the
    same, and so are the error and the value that is returned.  This holds of every body in any
    scopes, and so of the bodies of functions, which do not show the value of their last statement,
    of blocks, and of programs, whose value is that of the last statement or that returned. -/
theorem functions_anywhere (n : Nat) (body : List Stmt) :
    (∀ s vars, Completion.returned? <$> (evaluator n).runBody s vars (functionsFirst body) =
      Completion.returned? <$> (evaluator n).runBody s vars body) ∧
    (∀ params closure args,
      (evaluator n).callScript params (functionsFirst body) closure args =
        (evaluator n).callScript params body closure args) ∧
    (∀ s vars,
      Completion.returned? <$> (evaluator (n + 1)).exec s vars (.block (functionsFirst body)) =
        Completion.returned? <$> (evaluator (n + 1)).exec s vars (.block body)) ∧
    Completion.returned? <$> (evaluator n).runGlobal (functionsFirst body) =
      Completion.returned? <$> (evaluator n).runGlobal body ∧
    ∀ p, runProgram n p = Completion.value <$> (evaluator n).runGlobal p :=
  ⟨Evaluator.returned?_runBody_functionsFirst n body,
    Evaluator.callScript_functionsFirst n body, Evaluator.returned?_block_functionsFirst n body,
    Evaluator.returned?_runGlobal_functionsFirst n body, runProgram_eq_runGlobal n⟩

/-! ## Declarations that are reached -/

/-- The jobs that are open at a moment while the program `p`, begun in `w₀`, runs in the scope `s₀`:
    the innermost first, each with the world where it began.  The innermost may go at most `n` steps
    deep; `Evaluator.agree_next` tells that no job is left out. -/
inductive Arises (p : Program) (s₀ : ScopeId) (w₀ : World) : Nat → List (Job × World) → Prop
  | statement {n u stmt v} : (hoist s₀ p).Ends w₀ (.ok ()) u →
      Comes ((evaluator n).exec s₀ s₀) p u stmt v → Arises p s₀ w₀ n [(.exec s₀ s₀ stmt, v)]
  | asked {n j w k v frames} : Arises p s₀ w₀ (n + 1) ((j, w) :: frames) →
      Asks (evaluator n) j w k v → Arises p s₀ w₀ n ((k, v) :: (j, w) :: frames)

/-- In the scope `s` of `body`, which begins to run in `u`, the statement `stmt` is reached in the
    world `v`: it is one of the body's, or stands below one that is reached, with no block between
    them. -/
inductive Stands (s vars : ScopeId) (body : List Stmt) (u : World) : Nat → Stmt → World → Prop
  | own {n stmt v} : Comes ((evaluator n).exec s vars) body u stmt v → Stands s vars body u n stmt v
  | under {n outer w stmt v} : Stands s vars body u (n + 1) outer w → stmt.Directly outer →
      Asks (evaluator n) (.exec s vars outer) w (.exec s vars stmt) v →
      Stands s vars body u n stmt v

/-! ### What is bound before a body runs -/

theorem hoist_function (s : ScopeId) (f : String) (params : List String) (b rest : List Stmt)
    (w : World) : (hoist s (.function f params b :: rest)).result w =
      (hoist s rest).result { w with heap := w.heap.bindFunction s f params b } := rfl

/-- What is bound, or is declared by what is left of a body, is bound in the end. -/
theorem boundTo_of_hoist {s : ScopeId} {body rest : List Stmt} {f : String} {w w' : World}
    (h : (hoist s rest).Ends w (.ok ()) w') (hs : s.index < w.heap.scopes.size)
    (hsub : rest ⊆ body) (hf : w.heap.BoundTo s body f ∨ Declares rest f) :
    w'.heap.BoundTo s body f := by
  induction rest generalizing w with
  | nil =>
    obtain ⟨-, rfl⟩ := ends_pure.1 h
    exact hf.resolve_right fun ⟨_, _, hmem⟩ => nomatch hmem
  | cons stmt rest ih =>
    obtain ⟨hstmt, hrest⟩ := List.cons_subset.1 hsub
    cases stmt with
    | function g params b =>
      rw [Ends, hoist_function] at h
      refine ih h (by rw [Heap.size_bindFunction]; exact hs) hrest ?_
      by_cases hg : f = g
      · subst hg
        exact .inl (Heap.boundTo_bindFunction hs hstmt)
      · refine hf.imp (·.bindFunction hg) ?_
        rintro ⟨params', b', hmem⟩
        cases hmem with
        | head => exact absurd rfl hg
        | tail _ hmem => exact ⟨params', b', hmem⟩
    | _ =>
      refine ih h hs hrest (hf.imp_right ?_)
      rintro ⟨params', b', hmem⟩
      cases hmem with
      | tail _ hmem => exact ⟨params', b', hmem⟩

/-! ### What stays bound while it runs -/

theorem lawful_keepsNames : Frame.Lawful fun _ w w' => w.heap.KeepsNames w'.heap where
  refl := .refl _
  trans := .trans
  widen _ h := h
  object _ := Heap.keepsNames_of_spares (.of_scopes rfl)
  array _ := Heap.keepsNames_of_spares (.of_scopes rfl)
  function _ := Heap.keepsNames_of_spares (.of_scopes rfl)
  scope outer h := (Heap.keepsNames_newScope _ outer).trans h
  declare x v writable _ := Heap.keepsNames_declare _ _ x v writable
  name v hf := Heap.keepsNames_of_spares (.overwrite hf v)
  member object key v := Heap.keepsNames_of_spares (.overwriteMember object key v)
  output _ _ := Heap.keepsNames_of_spares (.of_scopes rfl)
  modules _ := Heap.keepsNames_of_spares (.of_scopes rfl)
  deeper h := h
  apart h := h

section
variable {s vars : ScopeId} {n : Nat} {u v w : World} {body : List Stmt} {stmt : Stmt}

theorem keepsNames_eval {e : Expr} {o : Except ScriptError Value}
    (h : ((evaluator n).eval s e).Ends u o v) : u.heap.KeepsNames v.heap :=
  (lawful_keepsNames.frames n).eval s e h

theorem keepsNames_comes (h : Comes ((evaluator n).exec s vars) body u stmt v) :
    u.heap.KeepsNames v.heap := by
  obtain ⟨before, after, x, -, hbefore⟩ := h
  have hexec := (lawful_keepsNames.frames n).exec s vars
  exact frames_execList lawful_keepsNames hexec _ before hbefore

theorem keepsNames_turned {a : Expr} {k : Nat}
    (h : Turned ((evaluator n).eval s a) ((evaluator n).exec s vars stmt) k u v) :
    u.heap.KeepsNames v.heap := by
  induction h with
  | zero => exact .refl _
  | succ ht _ hb _ ih =>
    exact (keepsNames_eval ht).trans
      (((lawful_keepsNames.frames n).exec s vars stmt hb).trans ih)

/-- What is bound when a conditional or a loop begins is bound when it comes to what stands under
    it. -/
theorem keepsNames_under {outer : Stmt} (hdir : stmt.Directly outer)
    (hask : Asks (evaluator n) (.exec s vars outer) w (.exec s vars stmt) v) :
    w.heap.KeepsNames v.heap := by
  cases hask with
  | statement => cases hdir
  | branch ha | otherwise ha => exact keepsNames_eval ha
  | whileBody hT _ ha => exact (keepsNames_turned hT).trans (keepsNames_eval ha)

/-- What is bound when the body begins is bound when one of its statements is reached. -/
theorem Stands.keepsNames (h : Stands s vars body u n stmt v) : u.heap.KeepsNames v.heap := by
  induction h with
  | own h => exact keepsNames_comes h
  | under _ hdir hask ih => exact ih.trans (keepsNames_under hdir hask)

/-! ### Every statement has its body -/

theorem size_le_of_bindParams {params : List String} {args : List Value}
    (h : (bindParams s params args).Ends u (.ok ()) v) :
    u.heap.scopes.size ≤ v.heap.scopes.size := by
  have hspares : u.heap.Spares (fun _ => True) v.heap :=
    frames_bindParams lawful_spares trivial params args h
  exact hspares.size_le

/-- The scope of a call is made, and the functions of the body are bound in it last. -/
theorem hoist_of_enter {params : List String} {closure : ScopeId} {args : List Value}
    (h : (enter params body closure args).Ends u (.ok s) v) :
    ∃ u₀, (hoist s body).Ends u₀ (.ok ()) v ∧ s.index < u₀.heap.scopes.size := by
  unfold enter newScope at h
  rw [ends_bind_of (ends_modifyGetHeap.2 ⟨rfl, rfl⟩)] at h
  obtain ⟨_, u₀, hparams, h⟩ := ends_bind_ok.1 h
  obtain ⟨_, v', hhoist, h⟩ := ends_bind_ok.1 h
  obtain ⟨he, rfl⟩ := ends_pure.1 h
  cases he
  refine ⟨u₀, hhoist, Nat.lt_of_lt_of_le ?_ (size_le_of_bindParams hparams)⟩
  simp [Heap.newScope]

/-- Who asked for a statement tells where it stands: in the body that is at work, or directly under
    the statement that is open below it. -/
def Located (s vars : ScopeId) (body : List Stmt) (stmt : Stmt) (frames : List (Job × World)) :
    Prop :=
  stmt ∈ body ∨
    ∃ outer w rest, frames = (.exec s vars outer, w) :: rest ∧ stmt.Directly outer

/-- The functions of a body were bound in the scope `s`, and there the statement stands that is
    reached in `v`. -/
def Prepared (s vars : ScopeId) (n : Nat) (stmt : Stmt) (v : World)
    (frames : List (Job × World)) : Prop :=
  ∃ body u₀ u, (hoist s body).Ends u₀ (.ok ()) u ∧ s.index < u₀.heap.scopes.size ∧
    Stands s vars body u n stmt v ∧ Located s vars body stmt frames

namespace Prepared

variable {frames : List (Job × World)}

theorem of_comes (hhoist : (hoist s body).Ends w (.ok ()) u) (hs : s.index < w.heap.scopes.size)
    (h : Comes ((evaluator n).exec s vars) body u stmt v) : Prepared s vars n stmt v frames := by
  have hmem : stmt ∈ body := by
    obtain ⟨before, after, x, rfl, -⟩ := h
    simp
  exact ⟨body, w, u, hhoist, hs, .own h, .inl hmem⟩

theorem of_comesCalled {params : List String} {closure : ScopeId} {args : List Value}
    (h : ComesCalled (evaluator n) params body closure args w s stmt v) :
    Prepared s s n stmt v frames := by
  obtain ⟨-, u, henter, hcomes⟩ := h
  obtain ⟨u₀, hhoist, hs⟩ := hoist_of_enter henter
  exact .of_comes hhoist hs hcomes

/-- A branch, or the body of a loop, runs in the scope of the statement that it stands under. -/
theorem under {outer : Stmt} (h : Prepared s vars (n + 1) outer w frames)
    (hdir : stmt.Directly outer)
    (hask : Asks (evaluator n) (.exec s vars outer) w (.exec s vars stmt) v) :
    Prepared s vars n stmt v ((.exec s vars outer, w) :: frames) := by
  obtain ⟨body, u₀, u, hhoist, hs, hstands, -⟩ := h
  exact ⟨body, u₀, u, hhoist, hs, .under hstands hdir hask, .inr ⟨outer, w, frames, rfl, hdir⟩⟩

end Prepared

/-- **Before a statement is reached** the functions of the body where it stands were bound. -/
theorem Arises.prepared {p : Program} {s₀ : ScopeId} {w₀ : World}
    (hs₀ : s₀.index < w₀.heap.scopes.size) {frames : List (Job × World)}
    (h : Arises p s₀ w₀ n ((.exec s vars stmt, v) :: frames)) :
    Prepared s vars n stmt v frames := by
  generalize hstack : (Job.exec s vars stmt, v) :: frames = stack at h
  -- blocks and calls bind the functions of their own bodies; a branch and the body of a loop are
  -- reached in the scope of the statement around them
  induction h generalizing s vars stmt v frames with
  | statement hhoist hcomes =>
    cases hstack
    exact .of_comes hhoist hs₀ hcomes
  | asked _ hask ih =>
    cases hstack
    have hask' := hask
    cases hask with
    | statement hscope hhoist hcomes =>
      obtain ⟨hi, rfl⟩ := ends_modifyGetHeap.1 hscope
      cases hi
      exact .of_comes hhoist (by simp [Heap.newScope]) hcomes
    | script _ hcomes => exact .of_comesCalled hcomes
    | moduleStatement _ _ hcomes => exact .of_comesCalled hcomes
    | branch => exact (ih rfl).under .consequent hask'
    | otherwise => exact (ih rfl).under .alternate hask'
    | whileBody => exact (ih rfl).under .body hask'

end

/-- **A declaration that is reached.**  Whenever a run comes to the declaration of a function, be it
    in a program, the body of a function or a block, or under a conditional or a loop in one of these:
    the functions that this body declares were bound in its scope before it began to run.  If the
    name is one of theirs, it was bound to one of them, and is bound in the scope still.  And it is
    one of theirs, unless the statement that is open below is a conditional or a loop with the
    declaration directly under it. -/
theorem declaration_bound {p : Program} {s₀ : ScopeId} {w₀ : World}
    (hs₀ : s₀.index < w₀.heap.scopes.size) {n : Nat} {s vars : ScopeId} {f : String}
    {params : List String} {b : List Stmt} {v : World} {frames : List (Job × World)}
    (h : Arises p s₀ w₀ n ((.exec s vars (.function f params b), v) :: frames)) :
    ∃ body u₀ u, (hoist s body).Ends u₀ (.ok ()) u ∧
      Stands s vars body u n (.function f params b) v ∧
      (Declares body f → u.heap.BoundTo s body f ∧ v.heap.hasOwn s f = true) ∧
      Located s vars body (.function f params b) frames := by
  obtain ⟨body, u₀, u, hhoist, hs, hstands, hlocated⟩ := h.prepared hs₀
  refine ⟨body, u₀, u, hhoist, hstands, fun hf => ?_, hlocated⟩
  have hbound := boundTo_of_hoist hhoist hs (List.Subset.refl body) (.inr hf)
  exact ⟨hbound, hstands.keepsNames s f (Heap.hasOwn_of_boundTo hbound)⟩

/-- The statements of the block in `if (true) { let f = null; function f() { } }`. -/
def redeclared : List Stmt := [.declare .lexical [("f", some .null)], .function "f" [] []]

/-- The declaration in the block is reached when the name has got another value; it is bound in the
    block. -/
theorem declaration_bound_redeclared : ∃ v frames,
    Arises [.conditional (.boolean true) (.block redeclared) none] World.bare.globals World.bare 3
      ((.exec ⟨1⟩ World.bare.globals (.function "f" [] []), v) :: frames) ∧
    v.heap.get? ⟨1⟩ "f" = some .null ∧ v.heap.hasOwn ⟨1⟩ "f" = true := by
  have hif : Arises [.conditional (.boolean true) (.block redeclared) none] World.bare.globals
      World.bare 5 [(.exec World.bare.globals World.bare.globals
        (.conditional (.boolean true) (.block redeclared) none), World.bare)] :=
    .statement (u := World.bare) rfl ⟨[], [], .undefined, rfl, rfl⟩
  have hblock := hif.asked (.branch (v := .boolean true) rfl rfl)
  have hdecl := hblock.asked
    (k := .exec ⟨1⟩ World.bare.globals (.function "f" [] []))
    (.statement rfl rfl ⟨[.declare .lexical [("f", some .null)]], [], .undefined, rfl, rfl⟩)
  refine ⟨_, _, hdecl, by decide +kernel, ?_⟩
  obtain ⟨body, u₀, u, -, -, hbound, hmem | ⟨outer, w, rest, hframes, -⟩⟩ :=
    declaration_bound (by decide) hdecl
  · exact (hbound ⟨[], [], hmem⟩).2
  · cases hframes

/-- The program `if (true) function f() { return true } f()`. -/
def declaringBranch : Program :=
  [.conditional (.boolean true) (.function "f" [] [.return (some (.boolean true))]) none,
    .expression (.call (.name "f") [])]

theorem ofText?_declaringBranch :
    Program.ofText? "if (true) function f() { return true } f()" = .ok declaringBranch := by
  have hlexemes : Lexeme.ofText "if (true) function f() { return true } f()" =
      [⟨.keyword .ifWord, ⟨0, 1⟩, ⟨2, 1⟩, false⟩, ⟨.symbol .leftParen, ⟨3, 1⟩, ⟨4, 1⟩, false⟩,
        ⟨.boolean true, ⟨4, 1⟩, ⟨8, 1⟩, false⟩, ⟨.symbol .rightParen, ⟨8, 1⟩, ⟨9, 1⟩, false⟩,
        ⟨.keyword .functionWord, ⟨10, 1⟩, ⟨18, 1⟩, false⟩,
        ⟨.identifier "f", ⟨19, 1⟩, ⟨20, 1⟩, false⟩, ⟨.symbol .leftParen, ⟨20, 1⟩, ⟨21, 1⟩, false⟩,
        ⟨.symbol .rightParen, ⟨21, 1⟩, ⟨22, 1⟩, false⟩,
        ⟨.symbol .leftBrace, ⟨23, 1⟩, ⟨24, 1⟩, false⟩,
        ⟨.keyword .returnWord, ⟨25, 1⟩, ⟨31, 1⟩, false⟩, ⟨.boolean true, ⟨32, 1⟩, ⟨36, 1⟩, false⟩,
        ⟨.symbol .rightBrace, ⟨37, 1⟩, ⟨38, 1⟩, false⟩,
        ⟨.identifier "f", ⟨39, 1⟩, ⟨40, 1⟩, false⟩, ⟨.symbol .leftParen, ⟨40, 1⟩, ⟨41, 1⟩, false⟩,
        ⟨.symbol .rightParen, ⟨41, 1⟩, ⟨42, 1⟩, false⟩, ⟨.eof, ⟨42, 1⟩, ⟨42, 1⟩, false⟩] := by
    decide +kernel
  exact Program.ofText?_of_lexemes hlexemes rfl

/-- **The branch of a conditional declares nothing.**  The declaration is reached in the global
    scope and the name is not bound there, so that the call after it fails. -/
theorem branch_unbound : ∃ v frames w,
    Program.ofText? "if (true) function f() { return true } f()" = .ok declaringBranch ∧
    Arises declaringBranch World.bare.globals World.bare 4
      ((.exec World.bare.globals World.bare.globals
        (.function "f" [] [.return (some (.boolean true))]), v) :: frames) ∧
    v.heap.hasOwn World.bare.globals "f" = false ∧
    (runProgram 5 declaringBranch).Ends World.bare (.error (.fault (.notDefined "f"))) w := by
  have hif : Arises declaringBranch World.bare.globals World.bare 5 [(.exec World.bare.globals
      World.bare.globals (.conditional (.boolean true)
        (.function "f" [] [.return (some (.boolean true))]) none), World.bare)] :=
    .statement (u := World.bare) rfl ⟨[], _, .undefined, rfl, rfl⟩
  have hdecl := hif.asked (.branch (v := .boolean true) rfl rfl)
  have hname : (readName World.bare.globals "f").Ends World.bare
      (.error (.fault (.notDefined "f"))) World.bare := by
    have hget : World.bare.heap.get? World.bare.globals "f" = none := by decide +kernel
    unfold readName
    rw [ends_heap_bind, hget]
    rfl
  have hcall : ((evaluator 5).exec World.bare.globals World.bare.globals
      (.expression (.call (.name "f") []))).Ends World.bare
        (.error (.fault (.notDefined "f"))) World.bare :=
    ends_bind.2 (.inr ⟨_, ends_bind.2 (.inr ⟨_, hname, rfl⟩), rfl⟩)
  refine ⟨_, _, World.bare, ofText?_declaringBranch, hdecl, by decide +kernel, ?_⟩
  have hhoist : (hoist World.bare.globals declaringBranch).Ends World.bare (.ok ()) World.bare :=
    rfl
  have hskip : ((evaluator 5).exec World.bare.globals World.bare.globals
      (.conditional (.boolean true) (.function "f" [] [.return (some (.boolean true))]) none)).Ends
        World.bare (.ok (.normal .undefined)) World.bare := rfl
  refine ends_get_bind.2 ((ends_bind_of hhoist).2 (ends_bind.2 (.inr ⟨_, ?_, rfl⟩)))
  exact (ends_bind_of hskip).2 (ends_bind.2 (.inr ⟨_, hcall, rfl⟩))

end Requisite.Machine
