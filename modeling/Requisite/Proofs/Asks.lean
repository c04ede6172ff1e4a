/-
  What the work of an evaluator is made of.

  * `Job`: a piece of work, with what it is about;
  * `Asks m j w k v`: a step of the job `j`, begun in `w`, comes to ask the
    evaluator `m` for the job `k` in the world `v`;
  * `Evaluator.agree_next`: nothing is left out of `Asks`, for the outcome of a
    step depends on nothing but the answers to what it asks for.
-/
import Requisite.Proofs.Run

namespace Requisite.Machine

open Requisite Requisite.Source Requisite.Script Requisite.Loader

open Run

/-- A piece of work for an evaluator. -/
inductive Job where
  | eval (s : ScopeId) (e : Expr)
  | target (s : ScopeId) (e : Expr)
  | exec (s vars : ScopeId) (stmt : Stmt)
  | call (f : Value) (args : List Value)
  | require (id : String)
  | load (id : String) (path : Path)
  /-- running the script of a module -/
  | body (r : Reservation) (text : String)

/-! ## Lists and loops -/

/-- The statements of a body before `stmt`, run from `w`, all come to their ends, the last in
    `w'`. -/
def Comes (exec : Stmt → ScriptRun Completion) (body : List Stmt) (w : World) (stmt : Stmt)
    (w' : World) : Prop :=
  ∃ before after v, body = before ++ stmt :: after ∧
    (execList exec .undefined before).Ends w (.ok (.normal v)) w'

/-- The same in the body of a function that is called with arguments; `s` is the scope of the
    call. -/
def ComesCalled (m : Evaluator) (params : List String) (body : List Stmt) (closure : ScopeId)
    (args : List Value) (w : World) (s : ScopeId) (stmt : Stmt) (w' : World) : Prop :=
  w.depth < maxCalls ∧ ∃ v,
    (enter params body closure args).Ends { w with depth := w.depth + 1 } (.ok s) v ∧
      Comes (m.exec s s) body v stmt w'

/-- A loop, begun in `w`, has made `n` full turns when it is in `w'`. -/
inductive Turned (test : ScriptRun Value) (body : ScriptRun Completion) :
    Nat → World → World → Prop
  | zero {w} : Turned test body 0 w w
  | succ {n w w₁ w₂ w' b v} : test.Ends w (.ok b) w₁ → b.truthy = true →
      body.Ends w₁ (.ok (.normal v)) w₂ → Turned test body n w₂ w' →
      Turned test body (n + 1) w w'

/-! ## What a step asks for -/

/-- A step of a job, begun in a world, comes to ask the evaluator `m` for another job in
    another world. -/
inductive Asks (m : Evaluator) : Job → World → Job → World → Prop
  | item {s before e after w vs w'} : (before.mapM (m.eval s)).Ends w (.ok vs) w' →
      Asks m (.eval s (.array (before ++ e :: after))) w (.eval s e) w'
  | entry {s before key e after w ps w'} : (before.mapM (m.evalEntry s)).Ends w (.ok ps) w' →
      Asks m (.eval s (.object (before ++ (key, e) :: after))) w (.eval s e) w'
  | operand {s op e w} : (op = .typeOf → ∀ x, e ≠ .name x) →
      Asks m (.eval s (.unary op e)) w (.eval s e) w
  | left {s op a b w} : Asks m (.eval s (.binary op a b)) w (.eval s a) w
  | right {s op a b w v w'} : (m.eval s a).Ends w (.ok v) w' →
      Asks m (.eval s (.binary op a b)) w (.eval s b) w'
  | first {s op a b w} : Asks m (.eval s (.logical op a b)) w (.eval s a) w
  | second {s op a b w v w'} : (m.eval s a).Ends w (.ok v) w' → settles op v = false →
      Asks m (.eval s (.logical op a b)) w (.eval s b) w'
  | place {s op target e w} : Asks m (.eval s (.assign op target e)) w (.target s target) w
  | assigned {s op target e w place w'} : op.binary? = none →
      (m.evalTarget s target).Ends w (.ok place) w' →
      Asks m (.eval s (.assign op target e)) w (.eval s e) w'
  | added {s op b target e w place v old w'} : op.binary? = some b →
      (m.evalTarget s target).Ends w (.ok place) v → (place.read s).Ends v (.ok old) w' →
      Asks m (.eval s (.assign op target e)) w (.eval s e) w'
  | test {s a b c w} : Asks m (.eval s (.conditional a b c)) w (.eval s a) w
  | consequent {s a b c w v w'} : (m.eval s a).Ends w (.ok v) w' → v.truthy = true →
      Asks m (.eval s (.conditional a b c)) w (.eval s b) w'
  | alternate {s a b c w v w'} : (m.eval s a).Ends w (.ok v) w' → v.truthy = false →
      Asks m (.eval s (.conditional a b c)) w (.eval s c) w'
  | callee {s callee args w} : Asks m (.eval s (.call callee args)) w (.eval s callee) w
  | argument {s callee before e after w f v vs w'} : (m.eval s callee).Ends w (.ok f) v →
      f.isFunction = true → (before.mapM (m.eval s)).Ends v (.ok vs) w' →
      Asks m (.eval s (.call callee (before ++ e :: after))) w (.eval s e) w'
  | called {s callee args w f v vs w'} : (m.eval s callee).Ends w (.ok f) v →
      f.isFunction = true → (args.mapM (m.eval s)).Ends v (.ok vs) w' →
      Asks m (.eval s (.call callee args)) w (.call f vs) w'
  | object {s e key w} : Asks m (.eval s (.dot e key)) w (.eval s e) w
  | indexed {s e k w} : Asks m (.eval s (.index e k)) w (.eval s e) w
  | key {s e k w v w'} : (m.eval s e).Ends w (.ok v) w' →
      Asks m (.eval s (.index e k)) w (.eval s k) w'
  | targetObject {s e key w} : Asks m (.target s (.dot e key)) w (.eval s e) w
  | targetIndexed {s e k w} : Asks m (.target s (.index e k)) w (.eval s e) w
  | targetKey {s e k w v w'} : (m.eval s e).Ends w (.ok v) w' →
      Asks m (.target s (.index e k)) w (.eval s k) w'
  | initial {s vars kind before x e after w w'} :
      (before.forM (m.execBinding s vars kind)).Ends w (.ok ()) w' →
      Asks m (.exec s vars (.declare kind (before ++ (x, some e) :: after))) w (.eval s e) w'
  | expression {s vars e w} : Asks m (.exec s vars (.expression e)) w (.eval s e) w
  | statement {s vars body w inner w₁ w₂ stmt w'} :
      (newScope (some s) : ScriptRun ScopeId).Ends w (.ok inner) w₁ →
      (hoist inner body).Ends w₁ (.ok ()) w₂ → Comes (m.exec inner vars) body w₂ stmt w' →
      Asks m (.exec s vars (.block body)) w (.exec inner vars stmt) w'
  | condition {s vars a b c w} : Asks m (.exec s vars (.conditional a b c)) w (.eval s a) w
  | branch {s vars a b c w v w'} : (m.eval s a).Ends w (.ok v) w' → v.truthy = true →
      Asks m (.exec s vars (.conditional a b c)) w (.exec s vars b) w'
  | otherwise {s vars a b c w v w'} : (m.eval s a).Ends w (.ok v) w' → v.truthy = false →
      Asks m (.exec s vars (.conditional a b (some c))) w (.exec s vars c) w'
  | whileTest {s vars a b w n w'} : Turned (m.eval s a) (m.exec s vars b) n w w' →
      n < m.turns → Asks m (.exec s vars (.while a b)) w (.eval s a) w'
  | whileBody {s vars a b w n w₁ v w'} : Turned (m.eval s a) (m.exec s vars b) n w w₁ →
      n < m.turns → (m.eval s a).Ends w₁ (.ok v) w' → v.truthy = true →
      Asks m (.exec s vars (.while a b)) w (.exec s vars b) w'
  | returned {s vars e w} : Asks m (.exec s vars (.return (some e))) w (.eval s e) w
  | thrown {s vars e line w} : Asks m (.exec s vars (.throw e line)) w (.eval s e) w
  | script {f args w params body closure s stmt w'} :
      codeOf? w.heap f = some (.script params body closure) →
      ComesCalled m params body closure args w s stmt w' →
      Asks m (.call f args) w (.exec s s stmt) w'
  | native {f args w id} : codeOf? w.heap f = some (.native .require) →
      w.modules.alive = true → (identifierOf args).Ends w (.ok id) w →
      Asks m (.call f args) w (.require id) w
  | load {id path w} : w.modules.cache.lookup w.modules.base id = none →
      (resolve id).Ends w (.ok path) w → Asks m (.require id) w (.load id path) w
  | body {id path text w r w'} : w.modules.cache.record? path = none →
      w.modules.files.readText path = .ok text → (reserve id path).Ends w (.ok r) w' →
      Asks m (.load id path) w (.body r text) w'
  | moduleStatement {r text w body args module w₁ s stmt w'} :
      Program.ofText? text = .ok body → (beginModule r).Ends w (.ok (args, module)) w₁ →
      ComesCalled m moduleParams body w₁.globals args { w₁ with depth := 0 } s stmt w' →
      Asks m (.body r text) w (.exec s s stmt) w'

/-! ## Nothing is left out -/

namespace Run

variable {ε α β : Type} {w : World}

theorem result_bind_congr {x x' : Run ε α} {f f' : α → Run ε β}
    (hx : x'.result w = x.result w)
    (hf : ∀ a v, x.Ends w (.ok a) v → (f' a).result v = (f a).result v) :
    (x' >>= f').result w = (x >>= f).result w := by
  rw [result_bind, result_bind, hx]
  rcases h : x.result w with ⟨_ | a, v⟩
  · rfl
  · exact hf a v h

theorem result_map_congr {x x' : Run ε α} {f : α → β} (hx : x'.result w = x.result w) :
    (f <$> x').result w = (f <$> x).result w := by
  rw [result_map, result_map, hx]

theorem result_mapM_congr {f f' : α → Run ε β} {l : List α}
    (h : ∀ before a after bs v, l = before ++ a :: after → (before.mapM f).Ends w (.ok bs) v →
      (f' a).result v = (f a).result v) :
    (l.mapM f').result w = (l.mapM f).result w := by
  induction l generalizing w with
  | nil => rfl
  | cons a l ih =>
    rw [List.mapM_cons, List.mapM_cons]
    refine result_bind_congr (h [] a l [] w rfl (by simp)) fun b v hb => ?_
    refine result_bind_congr (ih ?_) fun _ _ _ => rfl
    intro before a' after bs v' hl hbs
    refine h (a :: before) a' after (b :: bs) v' (by rw [hl]; rfl) ?_
    rw [List.mapM_cons, ends_bind_ok]
    exact ⟨b, v, hb, ends_bind_ok.2 ⟨bs, v', hbs, by simp⟩⟩

theorem result_forM_congr {f f' : α → Run ε Unit} {l : List α}
    (h : ∀ before a after v, l = before ++ a :: after → (before.forM f).Ends w (.ok ()) v →
      (f' a).result v = (f a).result v) :
    (l.forM f').result w = (l.forM f).result w := by
  induction l generalizing w with
  | nil => rfl
  | cons a l ih =>
    refine result_bind_congr (h [] a l w rfl (ends_pure.2 ⟨rfl, rfl⟩)) fun b v hb => ih ?_
    intro before a' after v' hl hbs
    exact h (a :: before) a' after v' (by rw [hl]; rfl) (ends_bind_ok.2 ⟨b, v, hb, hbs⟩)

end Run

theorem result_execList_congr {exec exec' : Stmt → ScriptRun Completion} {last : Value}
    {body : List Stmt} {w : World}
    (h : ∀ before stmt after u v, body = before ++ stmt :: after →
      (execList exec last before).Ends w (.ok (.normal u)) v →
      (exec' stmt).result v = (exec stmt).result v) :
    (execList exec' last body).result w = (execList exec last body).result w := by
  induction body generalizing last w with
  | nil => rfl
  | cons a l ih =>
    refine result_bind_congr (h [] a l last w rfl (ends_pure.2 ⟨rfl, rfl⟩)) fun b v hb => ?_
    cases b with
    | returned u => rfl
    | normal u =>
      refine ih fun before a' after u' v' hl hu => ?_
      exact h (a :: before) a' after u' v' (by rw [hl]; rfl) (ends_bind_ok.2 ⟨_, v, hb, hu⟩)

theorem result_loop_congr {test test' : ScriptRun Value} {body body' : ScriptRun Completion}
    {last : Value} {n : Nat} {w : World}
    (ht : ∀ k v, k < n → Turned test body k w v → test'.result v = test.result v)
    (hb : ∀ k v b v', k < n → Turned test body k w v → test.Ends v (.ok b) v' →
      b.truthy = true → body'.result v' = body.result v') :
    (loop test' body' n last).result w = (loop test body n last).result w := by
  induction n generalizing last w with
  | zero => rfl
  | succ n ih =>
    refine result_bind_congr (ht 0 w (by omega) .zero) fun b v hv => ?_
    cases hbt : b.truthy with
    | false => simp
    | true =>
      simp only [↓reduceIte]
      refine result_bind_congr (hb 0 w b v (by omega) .zero hv hbt) fun c v' hc => ?_
      cases c with
      | returned u => rfl
      | normal u =>
        refine ih (fun k u' hk hT => ?_) fun k u' b' v'' hk hT => ?_
        · exact ht (k + 1) u' (by omega) (.succ hv hbt hc hT)
        · exact hb (k + 1) u' b' v'' (by omega) (.succ hv hbt hc hT)

namespace Evaluator

/-- Whether two evaluators answer alike when asked for a job in a world. -/
def Agree (m m' : Evaluator) : Job → World → Prop
  | .eval s e, w => (m'.eval s e).result w = (m.eval s e).result w
  | .target s e, w => (m'.evalTarget s e).result w = (m.evalTarget s e).result w
  | .exec s vars stmt, w => (m'.exec s vars stmt).result w = (m.exec s vars stmt).result w
  | .call f args, w => (m'.call f args).result w = (m.call f args).result w
  | .require id, w => (m'.require id).result w = (m.require id).result w
  | .load id path, w => (m'.load id path).result w = (m.load id path).result w
  | .body r text, w => (m'.runModule r text).result w = (m.runModule r text).result w

/-- The evaluator that goes one step deeper than `m`. -/
def next (m : Evaluator) : Evaluator where
  turns := m.turns + 1
  eval := m.evalStep
  evalTarget := m.evalTargetStep
  exec := m.execStep
  call := m.callStep
  require := m.requireStep
  load := m.loadStep
  runModule := m.runModuleStep

end Evaluator

theorem evaluator_succ (n : Nat) : evaluator (n + 1) = (evaluator n).next := by
  cases n <;> rfl

namespace Evaluator

/-- All operators but `typeof` of a name evaluate their operand. -/
theorem evalStep_unary {m : Evaluator} {s : ScopeId} {op : UnaryOp} {e : Expr}
    (h : op = .typeOf → ∀ x, e ≠ .name x) :
    m.evalStep s (.unary op e) = (do return unary op (← m.eval s e)) := by
  cases op <;> cases e <;> first | rfl | exact absurd rfl (h rfl _)

section
variable {m m' : Evaluator} {w : World}

theorem evalStep_congr {s : ScopeId} {e : Expr}
    (h : ∀ k v, Asks m (.eval s e) w k v → m.Agree m' k v) :
    (m'.evalStep s e).result w = (m.evalStep s e).result w := by
  cases e with
  | number x => rfl
  | string t => rfl
  | boolean b => rfl
  | null => rfl
  | name x => rfl
  | function name params body => rfl
  | array items =>
    refine result_bind_congr (result_mapM_congr fun before a after bs v hl hb => ?_) fun _ _ _ => rfl
    subst hl
    exact h _ _ (.item hb)
  | object entries =>
    refine result_bind_congr (result_mapM_congr fun before a after bs v hl hb => ?_) fun _ _ _ => rfl
    subst hl
    exact result_bind_congr (h _ _ (.entry hb)) fun _ _ _ => rfl
  | unary op e =>
    by_cases ht : op = .typeOf → ∀ x, e ≠ .name x
    · rw [evalStep_unary ht, evalStep_unary ht]
      exact result_map_congr (h _ _ (.operand ht))
    · have ⟨hop, x, hx⟩ : op = .typeOf ∧ ∃ x, e = .name x := by simpa using ht
      subst hop hx
      rfl
  | binary op a b =>
    refine result_bind_congr (h _ _ .left) fun v w₁ hv => ?_
    exact result_bind_congr (h _ _ (.right hv)) fun _ _ _ => rfl
  | logical op a b =>
    refine result_bind_congr (h _ _ .first) fun v w₁ hv => ?_
    cases hs : settles op v with
    | true => simp
    | false =>
      simp only [Bool.false_eq_true, ↓reduceIte]
      exact h _ _ (.second hv hs)
  | assign op target e =>
    refine result_bind_congr (h _ _ .place) fun place w₁ hp => ?_
    refine result_bind_congr ?_ fun _ _ _ => rfl
    unfold evalAssigned
    cases hb : op.binary? with
    | none => exact h _ _ (.assigned hb hp)
    | some b =>
      refine result_bind_congr rfl fun old w₂ ho => ?_
      exact result_bind_congr (h _ _ (.added hb hp ho)) fun _ _ _ => rfl
  | conditional a b c =>
    refine result_bind_congr (h _ _ .test) fun v w₁ hv => ?_
    cases ht : v.truthy with
    | true =>
      simp only [↓reduceIte]
      exact h _ _ (.consequent hv ht)
    | false =>
      simp only [Bool.false_eq_true, ↓reduceIte]
      exact h _ _ (.alternate hv ht)
  | call callee args =>
    refine result_bind_congr (h _ _ .callee) fun f w₁ hf => ?_
    cases hc : f.isFunction with
    | false => simp
    | true =>
      simp only [↓reduceIte]
      refine result_bind_congr (result_mapM_congr fun before a after bs v hl hb => ?_) ?_
      · subst hl
        exact h _ _ (.argument hf hc hb)
      · exact fun vs w₂ hvs => h _ _ (.called hf hc hvs)
  | dot e key => exact result_bind_congr (h _ _ .object) fun _ _ _ => rfl
  | index e k =>
    refine result_bind_congr (h _ _ .indexed) fun v w₁ hv => ?_
    exact result_bind_congr (h _ _ (.key hv)) fun _ _ _ => rfl

theorem evalTargetStep_congr {s : ScopeId} {e : Expr}
    (h : ∀ k v, Asks m (.target s e) w k v → m.Agree m' k v) :
    (m'.evalTargetStep s e).result w = (m.evalTargetStep s e).result w := by
  cases e with
  | dot e key => exact result_bind_congr (h _ _ .targetObject) fun _ _ _ => rfl
  | index e k =>
    refine result_bind_congr (h _ _ .targetIndexed) fun v w₁ hv => ?_
    exact result_bind_congr (h _ _ (.targetKey hv)) fun _ _ _ => rfl
  | _ => rfl

theorem execStep_congr {s vars : ScopeId} {stmt : Stmt} (ht : m'.turns = m.turns)
    (h : ∀ k v, Asks m (.exec s vars stmt) w k v → m.Agree m' k v) :
    (m'.execStep s vars stmt).result w = (m.execStep s vars stmt).result w := by
  cases stmt with
  | function name params body => rfl
  | empty => rfl
  | declare kind bindings =>
    refine result_bind_congr (result_forM_congr fun before a after v hl hb => ?_) fun _ _ _ => rfl
    subst hl
    obtain ⟨x, _ | e⟩ := a
    · rfl
    · exact result_bind_congr (h _ _ (.initial hb)) fun _ _ _ => rfl
  | expression e => exact result_bind_congr (h _ _ .expression) fun _ _ _ => rfl
  | block body =>
    refine result_bind_congr rfl fun inner w₁ hi => ?_
    refine result_bind_congr rfl fun _ w₂ hh => ?_
    refine result_execList_congr fun before stmt after u v hl hu => ?_
    exact h _ _ (.statement hi hh ⟨before, after, u, hl, hu⟩)
  | conditional a b c =>
    refine result_bind_congr (h _ _ .condition) fun v w₁ hv => ?_
    cases ht : v.truthy with
    | true =>
      simp only [↓reduceIte]
      exact h _ _ (.branch hv ht)
    | false =>
      cases c with
      | none => simp
      | some c =>
        simp only [Bool.false_eq_true, ↓reduceIte]
        exact h _ _ (.otherwise hv ht)
  | «while» a b =>
    simp only [execStep, ht]
    refine result_loop_congr (fun k v hk hT => h _ _ (.whileTest hT hk)) ?_
    exact fun k v b v' hk hT hb hbt => h _ _ (.whileBody hT hk hb hbt)
  | «return» e =>
    cases e with
    | none => rfl
    | some e => exact result_bind_congr (h _ _ .returned) fun _ _ _ => rfl
  | throw e line => exact result_bind_congr (h _ _ .thrown) fun _ _ _ => rfl

theorem callScript_congr {params : List String} {body : List Stmt} {closure : ScopeId}
    {args : List Value}
    (h : ∀ s stmt v, ComesCalled m params body closure args w s stmt v →
      m.Agree m' (.exec s s stmt) v) :
    (m'.callScript params body closure args).result w =
      (m.callScript params body closure args).result w := by
  unfold callScript
  rw [result_deeper, result_deeper]
  by_cases hd : maxCalls ≤ w.depth
  · simp [hd]
  · simp only [hd, ↓reduceIte]
    refine congrArg (fun p : _ × World => (p.1, { p.2 with depth := p.2.depth - 1 })) ?_
    refine result_bind_congr rfl fun s v hs => result_map_congr ?_
    refine result_execList_congr fun before stmt after u v' hl hu => ?_
    exact h _ _ _ ⟨by omega, v, hs, before, after, u, hl, hu⟩

theorem callStep_congr {f : Value} {args : List Value}
    (h : ∀ k v, Asks m (.call f args) w k v → m.Agree m' k v) :
    (m'.callStep f args).result w = (m.callStep f args).result w := by
  unfold callStep
  refine result_bind_congr rfl fun hp w₁ h₁ => ?_
  obtain ⟨rfl, rfl⟩ : hp = w.heap ∧ w₁ = w := by simpa using h₁
  rcases hc : codeOf? w₁.heap f with _ | ⟨params, body, closure⟩ | native
  · rfl
  · exact callScript_congr fun s stmt v hs => h _ _ (.script hc hs)
  · cases native with
    | require =>
      refine result_bind_congr rfl fun ms w₂ h₂ => ?_
      obtain ⟨rfl, rfl⟩ : ms = w₁.modules ∧ w₂ = w₁ := by simpa using h₂
      cases ha : w₂.modules.alive with
      | false => simp
      | true =>
        simp only [↓reduceIte]
        refine result_bind_congr rfl fun id w₃ h₃ => ?_
        obtain rfl : w₃ = w₂ := ends_identifierOf h₃
        rw [result_mapError, result_mapError]
        rw [show (m'.require id).result w₃ = (m.require id).result w₃ from h _ _ (.native hc ha h₃)]
    | _ => rfl

theorem requireStep_congr {id : String}
    (h : ∀ k v, Asks m (.require id) w k v → m.Agree m' k v) :
    (m'.requireStep id).result w = (m.requireStep id).result w := by
  unfold requireStep
  simp only [result_bind, result_modules]
  cases hl : w.modules.cache.lookup w.modules.base id with
  | some v => rfl
  | none =>
    refine result_bind_congr rfl fun path v hp => ?_
    obtain rfl : v = w := (ends_resolve.1 hp).2
    exact result_bind_congr (h _ _ (.load hl hp)) fun _ _ _ => rfl

theorem loadStep_congr {id : String} {path : Path}
    (h : ∀ k v, Asks m (.load id path) w k v → m.Agree m' k v) :
    (m'.loadStep id path).result w = (m.loadStep id path).result w := by
  unfold loadStep
  simp only [result_bind, result_modules]
  cases hr : w.modules.cache.record? path with
  | some r => rfl
  | none =>
    cases ht : w.modules.files.readText path with
    | error reason => rfl
    | ok text =>
      refine result_bind_congr rfl fun r v hv => ?_
      unfold loadReserved
      rw [result_tryCatch, result_tryCatch]
      have hb : (m'.runModule r text).result v = (m.runModule r text).result v :=
        h _ _ (.body hr ht hv)
      have hc : (mapError (.failed r.path) (m'.runModule r text) >>= commit r).result v =
          (mapError (.failed r.path) (m.runModule r text) >>= commit r).result v :=
        result_bind_congr (by rw [result_mapError, result_mapError, hb]) fun _ _ _ => rfl
      rw [hc]

theorem runModuleStep_congr {r : Reservation} {text : String}
    (h : ∀ k v, Asks m (.body r text) w k v → m.Agree m' k v) :
    (m'.runModuleStep r text).result w = (m.runModuleStep r text).result w := by
  unfold runModuleStep
  cases hp : Program.ofText? text with
  | error e => rfl
  | ok body =>
    simp only [result_bind, result_modules]
    rcases hb : (beginModule r).result w with ⟨_ | ⟨args, module⟩, v⟩
    · rfl
    · simp only [result_get, result_andThen, result_apart]
      rw [callScript_congr fun s stmt u hs => h _ _ (.moduleStatement hp hb hs)]

/-- **Nothing is left out of `Asks`**: the outcome of a step depends on nothing but the answers
    to what it asks for. -/
theorem agree_next {j : Job} (ht : m'.turns = m.turns)
    (h : ∀ k v, Asks m j w k v → m.Agree m' k v) : m.next.Agree m'.next j w := by
  cases j with
  | eval s e => exact evalStep_congr h
  | target s e => exact evalTargetStep_congr h
  | exec s vars stmt => exact execStep_congr ht h
  | call f args => exact callStep_congr h
  | require id => exact requireStep_congr h
  | load id path => exact loadStep_congr h
  | body r text => exact runModuleStep_congr h

end

end Evaluator

end Requisite.Machine
