/-
  The depth of calls.

  A machine counts the script functions at work, and refuses a call when there are
  too many.  The count is kept by hand, up before a body runs and down after it; it
  is right at every moment, however bodies end.

  * `SameDepth`, `lawful_depth`: whatever runs, the count is afterwards what it was;
  * `AtHost`, `Ongoing`: the worlds between the calls of a host, and the jobs that
    are open in such a call;
  * `callsAtWork`: how many of them are calls of script functions;
  * `Asks.depth_eq`, `Ongoing.depth_eq`: the count is that number, after one step
    and throughout;
  * `depth_exact`: so calls are refused if and only if there are `200` at work.
-/
import Requisite.Proofs.Scopes

namespace Requisite.Script

/-- A name that is declared in a new scope has its value there. -/
theorem Heap.get?_declare_newScope (h : Heap) (outer : Option ScopeId) (x : String) (v : Value)
    (writable : Bool) :
    ((h.newScope outer).2.declare (h.newScope outer).1 x v writable).get? (h.newScope outer).1 x =
      some v := by
  have hscope : ((h.newScope outer).2.declare (h.newScope outer).1 x v writable).scopes[
      (h.newScope outer).1.index]? = some ⟨OrderedMap.empty.set x ⟨v, writable⟩, outer⟩ := by
    simp [declare, newScope, Array.getElem_modify]
  have hholder : ((h.newScope outer).2.declare (h.newScope outer).1 x v writable).holder?
      (h.newScope outer).1 x = some (h.newScope outer).1 := by
    rw [holder?, hscope]
    simp [OrderedMap.contains, OrderedMap.get?_set]
  rw [get?, binding?, hholder]
  simp [bindingIn?, hscope, OrderedMap.get?_set]

end Requisite.Script

namespace Requisite.Machine

open Requisite Requisite.Source Requisite.Script Requisite.Loader

open Run

/-! ## Runs -/

/-- The count is what it was. -/
def SameDepth : Frame := fun _ w w' => w'.depth = w.depth

/-- However a run ends, the count is what it was. -/
theorem lawful_depth : SameDepth.Lawful where
  refl := rfl
  trans h h' := h'.trans h
  widen _ h := h
  object _ := rfl
  array _ := rfl
  function _ := rfl
  scope _ h := h
  declare _ _ _ _ := rfl
  name _ _ := rfl
  member _ _ _ := rfl
  output _ _ := rfl
  modules _ := rfl
  deeper h := Nat.sub_eq_of_eq_add h
  apart _ := rfl

/-- Whatever scopes a run may declare in. -/
theorem Run.Frames.depth_eq {ε α : Type} {x : Run ε α} {w w' : World} {o : Except ε α}
    (h : x.Frames SameDepth fun _ => True) (hx : x.Ends w o w') : w'.depth = w.depth := h hx

theorem frames_enter {R : Frame} (hR : R.Lawful) {own : ScopeId → Prop} (params : List String)
    (body : List Stmt) (closure : ScopeId) (args : List Value) :
    (enter params body closure args).Frames R own :=
  .newScope_bind hR fun s => .bind hR (frames_bindParams hR (.inr rfl) params args) fun _ =>
    .bind hR (frames_hoist hR (.inr rfl) body) fun _ => .pure hR s

/-! ## Calls at work -/

/-- The calls of script functions at work inside a job that began when there were `calls`.  The
    script of a module is called by an interpreter of its own. -/
def Job.callsWithin (h : Heap) (calls : Nat) : Job → Nat
  | call f _ =>
    match codeOf? h f with
    | some (.script _ _ _) => calls + 1
    | _ => calls
  | body _ _ => 1
  | _ => calls

/-- The calls of script functions at work when these jobs are open, the innermost first. -/
def callsAtWork : List (Job × World) → Nat
  | [] => 0
  | (j, w) :: frames => j.callsWithin w.heap (callsAtWork frames)

section
variable {n : Nat} {j k : Job} {w v w' : World}

theorem Comes.depth_eq {s vars : ScopeId} {body : List Stmt} {stmt : Stmt}
    (h : Comes ((evaluator n).exec s vars) body w stmt v) : v.depth = w.depth := by
  obtain ⟨before, after, x, -, hbefore⟩ := h
  exact frames_execList lawful_depth ((lawful_depth.frames n).exec s vars) _ before hbefore

theorem ComesCalled.depth_eq {params : List String} {body : List Stmt} {closure s : ScopeId}
    {args : List Value} {stmt : Stmt}
    (h : ComesCalled (evaluator n) params body closure args w s stmt v) :
    v.depth = w.depth + 1 ∧ w.depth < maxCalls := by
  obtain ⟨hlt, u, henter, hcomes⟩ := h
  exact ⟨hcomes.depth_eq.trans ((frames_enter lawful_depth ..).depth_eq henter), hlt⟩

theorem Turned.depth_eq {s vars : ScopeId} {a : Expr} {b : Stmt} {i : Nat}
    (h : Turned ((evaluator n).eval s a) ((evaluator n).exec s vars b) i w v) :
    v.depth = w.depth := by
  have hm := lawful_depth.frames n
  induction h with
  | zero => rfl
  | succ ht _ hb _ ih => exact ih.trans ((hm.exec s vars b hb).trans (hm.eval s a ht))

/-- **One step.**  What a job asks for begins with the calls at work inside the job. -/
theorem Asks.depth_eq (h : Asks (evaluator n) j w k v) :
    v.depth = j.callsWithin w.heap w.depth ∧ (v.depth = w.depth ∨ v.depth ≤ maxCalls) := by
  have hR := lawful_depth
  have hm := hR.frames n
  -- all but calls go on with the same count
  have same (hj : j.callsWithin w.heap w.depth = w.depth) (hd : v.depth = w.depth) :
      v.depth = j.callsWithin w.heap w.depth ∧ (v.depth = w.depth ∨ v.depth ≤ maxCalls) :=
    ⟨hd.trans hj.symm, .inl hd⟩
  cases h with
  | operand | left | first | place | test | callee | object | indexed | targetObject
  | targetIndexed | expression | condition | returned | thrown | load => exact same rfl rfl
  | item h => exact same rfl (Run.Frames.mapM hR (hm.eval _) _ h)
  | entry h => exact same rfl (Run.Frames.mapM hR (hm.evalEntry hR _) _ h)
  | right h | second h | consequent h | alternate h | key h | targetKey h | branch h
  | otherwise h => exact same rfl (hm.eval _ _ h)
  | assigned _ h => exact same rfl (hm.target _ _ h)
  | added _ ht hr => exact same rfl (((frames_read hR ..).depth_eq hr).trans (hm.target _ _ ht))
  | argument hf _ hargs | called hf _ hargs =>
    exact same rfl ((Run.Frames.mapM hR (hm.eval _) _ hargs).trans (hm.eval _ _ hf))
  | initial h => exact same rfl (Run.Frames.forM hR (hm.execBinding hR _ _ _) _ h)
  | statement hscope hhoist hcomes =>
    obtain ⟨-, rfl⟩ := ends_modifyGetHeap.1 hscope
    have hd := (frames_hoist hR trivial _).depth_eq hhoist
    exact same rfl (hcomes.depth_eq.trans hd)
  | whileTest h => exact same rfl h.depth_eq
  | whileBody h _ ht => exact same rfl ((hm.eval _ _ ht).trans h.depth_eq)
  | body _ _ h =>
    obtain ⟨-, rfl⟩ := ends_reserve.1 h
    exact same rfl rfl
  | native hc =>
    refine same ?_ rfl
    simp only [Job.callsWithin, hc]
  | script hc hcomes =>
    obtain ⟨hd, hlt⟩ := hcomes.depth_eq
    refine ⟨?_, .inr (by omega)⟩
    simp only [Job.callsWithin, hc]
    exact hd
  | moduleStatement _ _ hcomes =>
    obtain ⟨hd, hlt⟩ := hcomes.depth_eq
    exact ⟨hd, .inr (by simp only at hd hlt; omega)⟩

end

/-! ## Between and within the calls of a host -/

/-- The worlds between the calls of a host. -/
inductive AtHost : World → Prop
  | bare : AtHost .bare
  /-- the host changes something else; it has no hand on the count -/
  | changed {w w'} : AtHost w → w'.depth = w.depth → AtHost w'
  | called {w w' n j ok} : AtHost w → (evaluator n).Finishes w ok w' j → AtHost w'

/-- The jobs that are open in a call of a host, the innermost first, each with the world where it
    began; the innermost may go at most `n` steps deep.  `Evaluator.agree_next` tells that no job is
    left out, and that each is asked for with the count that the evaluator has there. -/
inductive Ongoing : Nat → List (Job × World) → Prop
  | begun {n j w} : AtHost w → Ongoing n [(j, w)]
  | asked {n j w k v frames} : Ongoing (n + 1) ((j, w) :: frames) → Asks (evaluator n) j w k v →
      Ongoing n ((k, v) :: (j, w) :: frames)

section
variable {n : Nat} {j : Job} {w w' : World}

theorem AtHost.depth_eq (h : AtHost w) : w.depth = 0 := by
  induction h with
  | bare => rfl
  | changed _ hd ih => exact hd.trans ih
  | called _ hf ih => exact (lawful_depth.finishes hf).trans ih

/-- **Throughout a run** the count is the number of calls at work, and they are not too many. -/
theorem Ongoing.depth_eq {frames : List (Job × World)} (h : Ongoing n ((j, w) :: frames)) :
    w.depth = callsAtWork frames ∧ w.depth ≤ maxCalls := by
  generalize hs : (j, w) :: frames = stack at h
  induction h generalizing j w frames with
  | begun hw =>
    cases hs
    exact ⟨hw.depth_eq, hw.depth_eq ▸ Nat.zero_le _⟩
  | asked _ hask ih =>
    cases hs
    obtain ⟨hd, hle⟩ := ih rfl
    obtain ⟨hd', hle'⟩ := hask.depth_eq
    exact ⟨by rw [hd', hd, callsAtWork], hle'.elim (fun h => h ▸ hle) id⟩

/-! ## Refusals -/

/-- A call that is not refused makes a scope, whatever becomes of it. -/
theorem size_scopes_lt_of_callScript {params : List String} {body : List Stmt} {closure : ScopeId}
    {args : List Value} {o : Except ScriptError Value} (hd : w.depth < maxCalls)
    (h : ((evaluator n).callScript params body closure args).Ends w o w') :
    w.heap.scopes.size < w'.heap.scopes.size := by
  unfold Evaluator.callScript deeper enter at h
  rw [ends_get_bind, if_neg (Nat.not_le.2 hd), ends_bind_of (ends_modify.2 ⟨rfl, rfl⟩)] at h
  obtain ⟨v, hv, rfl⟩ := ends_andThen.1 h
  simp only [bind_assoc, pure_bind] at hv
  rw [newScope, ends_bind_of (ends_modifyGetHeap.2 ⟨rfl, rfl⟩)] at hv
  -- what follows the new scope loses none
  have hR := lawful_spares
  have hexec (s : ScopeId) : (execList ((evaluator n).exec s s) .undefined body).Frames
      (fun own w w' => w.heap.Spares own w'.heap) fun _ => True :=
    frames_execList hR (fun stmt _ _ _ hx => hR.widen (fun _ _ => trivial)
      ((hR.frames n).exec s s stmt hx)) _ body
  have hrest := (Run.Frames.bind hR (frames_bindParams hR trivial params args) fun _ =>
    .bind hR (frames_hoist hR trivial body) fun _ => .map hR (hexec _)) hv
  exact Nat.lt_of_lt_of_le (by simp [Heap.newScope]) hrest.size_le

/-- A call is refused if and only if there are enough at work. -/
theorem refused_callScript_iff {params : List String} {body : List Stmt} {closure : ScopeId}
    {args : List Value} :
    ((evaluator n).callScript params body closure args).Ends w (.error (.fault .stackExhausted)) w ↔
      maxCalls ≤ w.depth := by
  constructor
  · intro h
    by_contra hlt
    exact absurd (size_scopes_lt_of_callScript (Nat.not_le.1 hlt) h) (Nat.lt_irrefl _)
  · intro hle
    unfold Ends Evaluator.callScript
    rw [result_deeper, if_pos hle]
    rfl

end

/-- **The depth of calls.**  However a job ends, the count of calls is afterwards what it was.  At
    every moment of a run it is the number of calls of script functions that are at work there, at
    most `200`.  A call of a script function is refused, before anything is done for it, if and only
    if there are `200` at work, whatever was called before; that of a module's script never is.  That
    the jobs of a run are those of the evaluator, with its count, is `Evaluator.agree_next`. -/
theorem depth_exact :
    (∀ n j w ok w', (evaluator n).Finishes w ok w' j → w'.depth = w.depth) ∧
    (∀ n j w frames, Ongoing n ((j, w) :: frames) →
      w.depth = callsAtWork frames ∧ callsAtWork frames ≤ 200) ∧
    (∀ n f args w frames m params body closure, Ongoing n ((.call f args, w) :: frames) →
      codeOf? w.heap f = some (.script params body closure) →
      (((evaluator (m + 1)).call f args).Ends w (.error (.fault .stackExhausted)) w ↔
        callsAtWork frames = 200)) ∧
    ∀ m params body closure args w,
      ¬(apart ((evaluator m).callScript params body closure args)).Ends w
        (.error (.fault .stackExhausted)) w := by
  refine ⟨fun n j w ok w' h => lawful_depth.finishes h, fun n j w frames h => ?_,
    fun n f args w frames m params body closure h hc => ?_, fun m params body closure args w h => ?_⟩
  · obtain ⟨hd, hle⟩ := h.depth_eq
    exact ⟨hd, hd ▸ hle⟩
  · obtain ⟨hd, hle⟩ := h.depth_eq
    have hcall : (evaluator (m + 1)).call f args = (evaluator m).callStep f args := rfl
    rw [hcall, Evaluator.callStep, ends_heap_bind, hc, refused_callScript_iff, ← hd]
    unfold maxCalls at hle ⊢
    omega
  · obtain ⟨v, hv, hw⟩ := ends_apart.1 h
    have hlt := size_scopes_lt_of_callScript (show 0 < maxCalls by decide) hv
    rw [hw] at hlt
    exact Nat.lt_irrefl _ hlt

/-! ## A function that calls itself -/

namespace World

/-- A world with the function `f(g) { return g(g) }`. -/
def selfCalling : World :=
  let body : List Stmt := [.return (some (.call (.name "g") [.name "g"]))]
  { World.bare with
    heap := (World.bare.heap.newFunction
      ⟨some "f", .script ["g"] body World.bare.globals, .empty⟩).2 }

/-- That function. -/
def selfCaller : Value := .function ⟨3⟩

/-- The world where it has called itself so often. -/
def descended : Nat → World
  | 0 => selfCalling
  | n + 1 =>
    let w := descended n
    let (s, h) := w.heap.newScope (some World.bare.globals)
    { w with heap := h.declare s "g" selfCaller true, depth := w.depth + 1 }

theorem depth_descended (n : Nat) : (descended n).depth = n := by
  induction n with
  | zero => rfl
  | succ n ih => exact congrArg (· + 1) ih

theorem codeOf?_descended (n : Nat) : codeOf? (descended n).heap selfCaller =
    some (.script ["g"] [.return (some (.call (.name "g") [.name "g"]))] World.bare.globals) := by
  induction n with
  | zero => rfl
  | succ n ih => exact ih

end World

open World

/-- One more call of the function that calls itself. -/
theorem Ongoing.descend {n k : Nat} {frames : List (Job × World)} (hk : k < maxCalls)
    (h : Ongoing (n + 4) ((.call selfCaller [selfCaller], descended k) :: frames)) :
    ∃ frames', Ongoing (n + 1) ((.call selfCaller [selfCaller], descended (k + 1)) :: frames') ∧
      callsAtWork frames' = callsAtWork frames + 1 := by
  let s : ScopeId := ⟨(descended k).heap.scopes.size⟩
  have hname : ((evaluator (n + 1)).eval s (.name "g")).Ends (descended (k + 1)) (.ok selfCaller)
      (descended (k + 1)) := by
    have heval : (evaluator (n + 1)).eval s (.name "g") = readName s "g" := rfl
    have hget : (descended (k + 1)).heap.get? s "g" = some selfCaller :=
      Heap.get?_declare_newScope ..
    rw [heval, readName, ends_heap_bind, hget]
    exact ends_pure.2 ⟨rfl, rfl⟩
  have hargs : ([Expr.name "g"].mapM ((evaluator (n + 1)).eval s)).Ends (descended (k + 1))
      (.ok [selfCaller]) (descended (k + 1)) := by
    rw [List.mapM_cons, ends_bind_of hname]
    exact ends_pure.2 ⟨rfl, rfl⟩
  have hbody := h.asked (.script (codeOf?_descended k)
    ⟨(depth_descended k).symm ▸ hk, descended (k + 1), rfl, [], [], .undefined, rfl, rfl⟩)
  refine ⟨_, (hbody.asked .returned).asked (.called hname rfl hargs), ?_⟩
  simp only [callsAtWork, Job.callsWithin, codeOf?_descended]

/-- It may call itself so often. -/
theorem exists_ongoing_descended {k : Nat} (hk : k ≤ maxCalls) (n : Nat) : ∃ frames,
    Ongoing (n + 1) ((.call selfCaller [selfCaller], descended k) :: frames) ∧
      callsAtWork frames = k := by
  induction k generalizing n with
  | zero => exact ⟨[], .begun (.changed .bare rfl), rfl⟩
  | succ k ih =>
    obtain ⟨frames, hframes, hcalls⟩ := ih (by omega) (n + 3)
    obtain ⟨frames', hframes', hcalls'⟩ := hframes.descend (by omega)
    exact ⟨frames', hframes', by rw [hcalls', hcalls]⟩

/-- The function calls itself: with `199` calls at work it may do so once more, and with `200` it is
    refused. -/
theorem depth_exact_selfCalling :
    ¬((evaluator 1).call selfCaller [selfCaller]).Ends (descended 199)
      (.error (.fault .stackExhausted)) (descended 199) ∧
    ((evaluator 1).call selfCaller [selfCaller]).Ends (descended 200)
      (.error (.fault .stackExhausted)) (descended 200) := by
  obtain ⟨frames, hframes, hcalls⟩ := exists_ongoing_descended (k := 199) (by decide) 0
  obtain ⟨frames', hframes', hcalls'⟩ := exists_ongoing_descended (k := 200) (by decide) 0
  have hrefused := depth_exact.2.2.1 1 selfCaller [selfCaller] _ _ 0 _ _ _ hframes
    (codeOf?_descended 199)
  have hrefused' := depth_exact.2.2.1 1 selfCaller [selfCaller] _ _ 0 _ _ _ hframes'
    (codeOf?_descended 200)
  exact ⟨fun h => by simp [hcalls] at hrefused; exact hrefused h, hrefused'.2 hcalls'⟩

end Requisite.Machine
