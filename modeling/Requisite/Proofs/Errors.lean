/-
  How errors are passed on.

  * `Evaluator.Fails`: a job ends with an error, as scripts see it;
  * `Undone`: modules are abandoned, and nothing else is done;
  * `Asks.fails`: when a job fails, the one that asked for it fails at once; all
    that is done in between is to abandon the module whose script failed.
-/
import Requisite.Proofs.Running

namespace Requisite.Machine

open Requisite Requisite.Source Requisite.Script Requisite.Loader

open Run

/-! ## Failing -/

/-- A job begun in `w` ends in `w'` with the error `x`, as scripts see it. -/
def Evaluator.Fails (m : Evaluator) (w : World) (x : ScriptError) (w' : World) : Job → Prop
  | .eval s e => (m.eval s e).Ends w (.error x) w'
  | .target s e => (m.evalTarget s e).Ends w (.error x) w'
  | .exec s vars stmt => (m.exec s vars stmt).Ends w (.error x) w'
  | .call f args => (m.call f args).Ends w (.error x) w'
  | .require id => ∃ e, x = .host (.loader e) ∧ (m.require id).Ends w (.error e) w'
  | .load id path => ∃ e, x = .host (.loader e) ∧ (m.load id path).Ends w (.error e) w'
  | .body r text => (m.runModule r text).Ends w (.error x) w'

/-- Evaluators that answer alike fail alike. -/
theorem Evaluator.Agree.fails {m m' : Evaluator} {j : Job} {w w' : World} {x : ScriptError}
    (h : m.Agree m' j w) (hf : m.Fails w x w' j) : m'.Fails w x w' j := by
  cases j with
  | require | load =>
    obtain ⟨e, rfl, he⟩ := hf
    exact ⟨e, rfl, h.trans he⟩
  | eval | target | exec | call | body => exact h.trans hf

/-- The modules at `paths` are abandoned, the last of them first, and nothing else is done. -/
structure Undone (paths : List Path) (w w' : World) : Prop where
  heap_eq : w'.heap = w.heap
  globals_eq : w'.globals = w.globals
  stdout_eq : w'.stdout = w.stdout
  stderr_eq : w'.stderr = w.stderr
  resolver_eq : w'.modules.resolver = w.modules.resolver
  files_eq : w'.modules.files = w.modules.files
  alive_eq : w'.modules.alive = w.modules.alive
  journal : ∃ news, w'.modules.journal = news ++ w.modules.journal ∧
    news.map Event.action = paths.map .abandoned

namespace Undone

variable {ps qs : List Path} {u v w : World}

theorem refl : Undone [] w w := ⟨rfl, rfl, rfl, rfl, rfl, rfl, rfl, [], rfl, rfl⟩

theorem trans (h : Undone ps u v) (h' : Undone qs v w) : Undone (qs ++ ps) u w := by
  obtain ⟨n, hj, hn⟩ := h.journal
  obtain ⟨n', hj', hn'⟩ := h'.journal
  refine ⟨h'.heap_eq.trans h.heap_eq, h'.globals_eq.trans h.globals_eq,
    h'.stdout_eq.trans h.stdout_eq, h'.stderr_eq.trans h.stderr_eq,
    h'.resolver_eq.trans h.resolver_eq, h'.files_eq.trans h.files_eq,
    h'.alive_eq.trans h.alive_eq, n' ++ n, ?_, ?_⟩
  · rw [hj', hj, List.append_assoc]
  · rw [List.map_append, hn', hn, List.map_append]

/-- The number of functions at work and the records are no matter here. -/
theorem settled (w : World) (depth : Nat) (c : Cache) :
    Undone [] w { w with depth := depth, modules := w.modules.withCache c } :=
  ⟨rfl, rfl, rfl, rfl, rfl, rfl, rfl, [], rfl, rfl⟩

theorem abandoned (w : World) (r : Reservation) :
    Undone [r.path] w { w with modules := w.modules.abandon r } :=
  ⟨rfl, rfl, rfl, rfl, rfl, rfl, rfl, [_], rfl, rfl⟩

end Undone

/-! ## Errors in composite runs -/

namespace Run

variable {ε α β : Type} {x : Run ε α} {w v w' : World} {e : ε}

theorem ends_bind_error {f : α → Run ε β} (h : x.Ends w (.error e) w') :
    (x >>= f).Ends w (.error e) w' := ends_bind.2 (.inr ⟨e, h, rfl⟩)

theorem ends_mapM_error {f : α → Run ε β} {before after : List α} {a : α} {bs : List β}
    (hb : (before.mapM f).Ends w (.ok bs) v) (ha : (f a).Ends v (.error e) w') :
    ((before ++ a :: after).mapM f).Ends w (.error e) w' := by
  rw [List.mapM_append, ends_bind_of hb]
  refine ends_bind_error ?_
  rw [List.mapM_cons]
  exact ends_bind_error ha

theorem ends_forM_error {f : α → Run ε Unit} {before after : List α} {a : α}
    (hb : (before.forM f).Ends w (.ok ()) v) (ha : (f a).Ends v (.error e) w') :
    ((before ++ a :: after).forM f).Ends w (.error e) w' := by
  induction before generalizing w with
  | nil =>
    obtain ⟨-, rfl⟩ := ends_pure.1 hb
    exact ends_bind_error ha
  | cons b before ih =>
    obtain ⟨_, u, hu, hb⟩ := ends_bind_ok.1 hb
    exact (ends_bind_of hu).2 (ih hb)

end Run

section
variable {w v w' : World} {x : ScriptError}

theorem ends_execList_error {exec : Stmt → ScriptRun Completion} {body : List Stmt} {stmt : Stmt}
    (hc : Comes exec body w stmt v) (h : (exec stmt).Ends v (.error x) w') (last : Value) :
    (execList exec last body).Ends w (.error x) w' := by
  obtain ⟨before, after, u, rfl, hb⟩ := hc
  generalize Value.undefined = last' at hb
  induction before generalizing w last last' with
  | nil =>
    obtain ⟨-, rfl⟩ := ends_pure.1 hb
    exact ends_bind_error h
  | cons s before ih =>
    obtain ⟨c, u', hc, hb⟩ := ends_bind_ok.1 hb
    rw [List.cons_append, execList, ends_bind_of hc]
    cases c with
    | normal r => exact ih r r hb
    | returned r => cases (ends_pure.1 hb).1

/-- An error in a turn of a loop is the error of the loop. -/
theorem ends_loop_error {test : ScriptRun Value} {body : ScriptRun Completion} {k n : Nat}
    (hT : Turned test body k w v) (hk : k < n)
    (h : test.Ends v (.error x) w' ∨
      ∃ b u, test.Ends v (.ok b) u ∧ b.truthy = true ∧ body.Ends u (.error x) w')
    (last : Value) : (loop test body n last).Ends w (.error x) w' := by
  induction hT generalizing n last with
  | zero =>
    obtain ⟨n, rfl⟩ := Nat.exists_eq_succ_of_ne_zero (Nat.ne_of_gt hk)
    rcases h with h | ⟨b, u, hb, ht, h⟩
    · exact ends_bind_error h
    · refine (ends_bind_of hb).2 ?_
      rw [if_pos ht]
      exact ends_bind_error h
  | succ ht hb hbody _ ih =>
    obtain ⟨n, rfl⟩ := Nat.exists_eq_succ_of_ne_zero (Nat.ne_zero_of_lt hk)
    refine (ends_bind_of ht).2 ?_
    rw [if_pos hb, ends_bind_of hbody]
    exact ih (by omega) h _

/-- The error of a statement is that of the function whose body it is in. -/
theorem ends_callScript_error {m : Evaluator} {params : List String} {body : List Stmt}
    {closure s : ScopeId} {args : List Value} {stmt : Stmt}
    (hc : ComesCalled m params body closure args w s stmt v)
    (h : (m.exec s s stmt).Ends v (.error x) w') :
    (m.callScript params body closure args).Ends w (.error x)
      { w' with depth := w'.depth - 1 } := by
  obtain ⟨hd, u, hu, hc⟩ := hc
  unfold Evaluator.callScript deeper
  rw [ends_get_bind, if_neg (Nat.not_le.2 hd), ends_bind_of (ends_modify.2 ⟨rfl, rfl⟩)]
  refine ends_andThen.2 ⟨w', (ends_bind_of hu).2 ?_, rfl⟩
  exact ends_bind_error (ends_execList_error hc h .undefined)

end

/-! ## Passing an error on -/

/-- What becomes of the error of a job that was asked for: that of a module is told by the error of
    the load, and any other stays as it is. -/
def Job.told : Job → ScriptError → ScriptError
  | body r _, x => .host (.loader (.failed r.path x))
  | _, x => x

/-- **A job fails as soon as one that it asks for does**, whatever else the evaluator could do: all
    that is done in between is to abandon a module whose script failed. -/
theorem Asks.fails {m : Evaluator} {j k : Job} {w v v' : World} {x : ScriptError}
    (ha : Asks m j w k v) (hf : m.Fails v x v' k) :
    ∃ w', m.next.Fails w (k.told x) w' j ∧ Undone k.module?.toList v' w' := by
  cases ha with
  | item hb => exact ⟨v', ends_bind_error (ends_mapM_error hb hf), .refl⟩
  | entry hb => exact ⟨v', ends_bind_error (ends_mapM_error hb (ends_bind_error hf)), .refl⟩
  | operand ht =>
    refine ⟨v', ?_, .refl⟩
    show (m.evalStep _ _).Ends _ _ _
    rw [Evaluator.evalStep_unary ht]
    exact ends_bind_error hf
  | left | first | test | callee | object | indexed => exact ⟨v', ends_bind_error hf, .refl⟩
  | right hv | key hv => exact ⟨v', (ends_bind_of hv).2 (ends_bind_error hf), .refl⟩
  | second hv hs =>
    refine ⟨v', (ends_bind_of hv).2 ?_, .refl⟩
    rw [hs]
    exact hf
  | place => exact ⟨v', ends_bind_error hf, .refl⟩
  | assigned hb hp =>
    refine ⟨v', (ends_bind_of hp).2 (ends_bind_error ?_), .refl⟩
    unfold Evaluator.evalAssigned
    rw [hb]
    exact hf
  | added hb hp ho =>
    refine ⟨v', (ends_bind_of hp).2 (ends_bind_error ?_), .refl⟩
    unfold Evaluator.evalAssigned
    rw [hb]
    exact (ends_bind_of ho).2 (ends_bind_error hf)
  | consequent hv ht | alternate hv ht =>
    refine ⟨v', (ends_bind_of hv).2 ?_, .refl⟩
    rw [ht]
    exact hf
  | argument hc hfun hb =>
    refine ⟨v', (ends_bind_of hc).2 ?_, .refl⟩
    rw [hfun]
    exact ends_bind_error (ends_mapM_error hb hf)
  | called hc hfun hb =>
    refine ⟨v', (ends_bind_of hc).2 ?_, .refl⟩
    rw [hfun]
    exact (ends_bind_of hb).2 hf
  | targetObject | targetIndexed => exact ⟨v', ends_bind_error hf, .refl⟩
  | targetKey hv => exact ⟨v', (ends_bind_of hv).2 (ends_bind_error hf), .refl⟩
  | initial hb => exact ⟨v', ends_bind_error (ends_forM_error hb (ends_bind_error hf)), .refl⟩
  | expression | condition | returned | thrown => exact ⟨v', ends_bind_error hf, .refl⟩
  | statement hi hh hc =>
    exact ⟨v', (ends_bind_of hi).2 ((ends_bind_of hh).2 (ends_execList_error hc hf _)), .refl⟩
  | branch hv ht =>
    refine ⟨v', (ends_bind_of hv).2 ?_, .refl⟩
    rw [ht]
    exact hf
  | otherwise hv ht =>
    refine ⟨v', (ends_bind_of hv).2 ?_, .refl⟩
    rw [ht]
    exact hf
  | whileTest hT hk => exact ⟨v', ends_loop_error hT hk (.inl hf) _, .refl⟩
  | whileBody hT hk hv ht => exact ⟨v', ends_loop_error hT hk (.inr ⟨_, _, hv, ht, hf⟩) _, .refl⟩
  | script hcode hc =>
    refine ⟨_, ?_, .settled v' (v'.depth - 1) v'.modules.cache⟩
    refine (ends_heap_bind (o := .error _)).2 ?_
    rw [hcode]
    exact ends_callScript_error hc hf
  | native hcode halive hid =>
    obtain ⟨e, rfl, he⟩ := hf
    refine ⟨v', (ends_heap_bind (o := .error _)).2 ?_, .refl⟩
    rw [hcode]
    refine (ends_modules_bind (o := .error _)).2 ?_
    rw [if_pos halive, ends_bind_of hid]
    exact ends_mapError.2 (.inr ⟨e, he, rfl⟩)
  | load hl hp =>
    obtain ⟨e, rfl, he⟩ := hf
    exact ⟨v', ⟨e, rfl, ends_requireStep.2 (.inr ⟨hl, .inr ⟨_, hp, .inl ⟨e, he, rfl⟩⟩⟩)⟩, .refl⟩
  | body hn ht hr =>
    have hl := ends_loadReserved.2 (.inl ⟨_, _, hf, rfl, rfl⟩)
    exact ⟨_, ⟨_, rfl, ends_loadStep.2 (.inr ⟨hn, .inr ⟨_, _, _, ht, hr, hl⟩⟩)⟩, .abandoned v' _⟩
  | moduleStatement hp hb hc =>
    have hs := ends_callScript_error hc hf
    exact ⟨_, ends_runModuleStep.2 (.inr ⟨_, _, _, _, _, _, hp, hb, hs, _, rfl, .inl ⟨_, rfl, rfl,
      rfl⟩⟩), .settled v' _ _⟩

end Requisite.Machine
