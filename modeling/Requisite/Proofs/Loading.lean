/-
  What the steps of the loader do.

  * `ends_requireStep`, `ends_loadStep`, `ends_runModuleStep`: all the ways in
    which a step can end, with what it changes on the way;
  * `ends_reserve`, `ends_commit`, `ends_abandon`, `ends_beginModule`,
    `ends_harvest`: the same for what these steps are made of.
-/
import Requisite.Proofs.Cache
import Requisite.Proofs.Run

namespace Requisite.Machine

open Requisite Requisite.Source Requisite.Script Requisite.Loader

open Run

/-! ## Changes of the modules -/

namespace Modules

/-- The modules with another cache. -/
def withCache (m : Modules) (c : Cache) : Modules := { m with cache := c }

/-- The modules after an action is noted. -/
def noted (m : Modules) (a : Action) : Modules := { m with journal := ⟨a, m.cache⟩ :: m.journal }

/-- The modules after a reservation. -/
def reserve (m : Modules) (r : Reservation) : Modules :=
  (m.withCache (m.cache.reserve r)).noted (.reserved r.path)

/-- The modules when the script of a module begins. -/
def enter (m : Modules) (r : Reservation) : Modules :=
  (m.withCache (m.cache.pushContext (r.path.parent?.getD r.path))).noted (.entered r.path)

/-- The modules when a script is done that began with `depth` contexts. -/
def leave (m : Modules) (depth : Nat) : Modules := m.withCache (m.cache.truncate depth)

/-- The modules after a reserved module is loaded. -/
def commit (m : Modules) (r : Reservation) (v : Value) : Modules :=
  (m.withCache (m.cache.commit r v).2).noted (.committed r.path)

/-- The modules after a reserved module has failed. -/
def abandon (m : Modules) (r : Reservation) : Modules :=
  (m.withCache (m.cache.abandon r)).noted (.abandoned r.path)

/-- The modules that remember where an identifier led. -/
def remember (m : Modules) (dir : Path) (id : String) (path : Path) : Modules :=
  m.withCache (m.cache.remember dir id path)

end Modules

/-- The world with other modules. -/
def World.withModules (w : World) (k : Modules) : World := { w with modules := k }

/-- The reservation of a module, with an object that is new in `w` for its placeholder. -/
def World.reservation (w : World) (id : String) (path : Path) : Reservation :=
  ⟨id, path, .object (w.heap.newObject .empty).1⟩

section
variable {w w' : World}

theorem ends_reserve {id : String} {path : Path} {o : Except LoaderError Reservation} :
    (reserve id path).Ends w o w' ↔ o = .ok (w.reservation id path) ∧
      w' = { w with
        heap := (w.heap.newObject .empty).2
        modules := w.modules.reserve (w.reservation id path) } := by
  unfold reserve
  rw [ends_bind_of (ends_newObject.2 ⟨rfl, rfl⟩), ends_bind_of (ends_modifyCache.2 ⟨rfl, rfl⟩),
    ends_bind_of (ends_note.2 ⟨rfl, rfl⟩), ends_pure]
  rfl

theorem ends_commit {r : Reservation} {v : Value} {o : Except LoaderError Value} :
    (commit r v).Ends w o w' ↔ o = .ok (w.modules.cache.commit r v).1 ∧
      w' = { w with modules := w.modules.commit r v } := by
  unfold commit
  rw [ends_modules_bind]
  rw [ends_bind_of (ends_modifyCache.2 ⟨rfl, rfl⟩), ends_bind_of (ends_note.2 ⟨rfl, rfl⟩), ends_pure]
  rfl

theorem ends_abandon {r : Reservation} {o : Except LoaderError Unit} :
    (abandon r).Ends w o w' ↔ o = .ok () ∧ w' = { w with modules := w.modules.abandon r } := by
  unfold abandon
  rw [ends_bind_of (ends_modifyCache.2 ⟨rfl, rfl⟩), ends_note]
  rfl

/-- The script of a module begins with its directory on the stack; that is noted. -/
theorem ends_beginModule {r : Reservation} {o : Except ScriptError (List Value × ObjectId)}
    (h : (beginModule r).Ends w o w') :
    (∃ args module, o = .ok (args, module)) ∧ w'.modules = w.modules.enter r := by
  unfold beginModule at h
  rw [ends_bind_of (ends_newObject.2 ⟨rfl, rfl⟩),
    ends_bind_of (ends_modifyGetHeap.2 ⟨rfl, rfl⟩), ends_bind_of (ends_modifyCache.2 ⟨rfl, rfl⟩),
    ends_bind_of (ends_note.2 ⟨rfl, rfl⟩), ends_pure] at h
  obtain ⟨rfl, rfl⟩ := h
  exact ⟨⟨_, _, rfl⟩, rfl⟩

/-- Exports are read without a change to the world. -/
theorem ends_harvest {r : Reservation} {module : ObjectId} {o : Except ScriptError Value} :
    (harvest r module).Ends w o w' ↔ w' = w ∧
      o = .ok (if replaces (((w.heap.properties module).get? "exports").getD .undefined)
        r.placeholder then ((w.heap.properties module).get? "exports").getD .undefined
        else r.placeholder) := by
  unfold harvest
  rw [ends_heap_bind, ends_pure, and_comm]

variable {m : Evaluator}

/-- A `require` ends with what the index has, or else with what the file that the identifier
    leads to has; the latter is remembered. -/
theorem ends_requireStep {id : String} {o : Except LoaderError Value} :
    (m.requireStep id).Ends w o w' ↔
      (∃ v, w.modules.cache.lookup w.modules.base id = some v ∧ o = .ok v ∧
        w' = { w with modules := w.modules.noted (.indexHit id) }) ∨
      (w.modules.cache.lookup w.modules.base id = none ∧
        ((∃ e, (resolve id).Ends w (.error e) w' ∧ o = .error e) ∨
        ∃ path, (resolve id).Ends w (.ok path) w ∧
          ((∃ e, (m.load id path).Ends w (.error e) w' ∧ o = .error e) ∨
          ∃ v u, (m.load id path).Ends w (.ok v) u ∧ o = .ok v ∧
            w' = { u with modules := u.modules.remember w.modules.base id path }))) := by
  unfold Evaluator.requireStep
  rw [ends_modules_bind]
  cases hl : w.modules.cache.lookup w.modules.base id with
  | some v =>
    simp only [reduceCtorEq, false_and, or_false, Option.some.injEq]
    rw [ends_bind_of (ends_note.2 ⟨rfl, rfl⟩), ends_pure]
    exact ⟨fun h => ⟨v, rfl, h⟩, by rintro ⟨_, rfl, h⟩; exact h⟩
  | none =>
    simp only [reduceCtorEq, false_and, exists_false, false_or, true_and]
    constructor
    · intro h
      rcases ends_bind.1 h with ⟨path, v, hp, h⟩ | ⟨e, he, rfl⟩
      · obtain rfl : v = w := (ends_resolve.1 hp).2
        refine .inr ⟨path, hp, ?_⟩
        rcases ends_bind.1 h with ⟨a, u, ha, h⟩ | ⟨e, he, rfl⟩
        · rw [ends_bind_of (ends_modifyCache.2 ⟨rfl, rfl⟩), ends_pure] at h
          exact .inr ⟨a, u, ha, h⟩
        · exact .inl ⟨e, he, rfl⟩
      · exact .inl ⟨e, he, rfl⟩
    · rintro (⟨e, he, rfl⟩ | ⟨path, hp, ⟨e, he, rfl⟩ | ⟨v, u, hv, h⟩⟩)
      · exact ends_bind.2 (.inr ⟨e, he, rfl⟩)
      · rw [ends_bind_of hp]
        exact ends_bind.2 (.inr ⟨e, he, rfl⟩)
      · rw [ends_bind_of hp, ends_bind_of hv, ends_bind_of (ends_modifyCache.2 ⟨rfl, rfl⟩),
          ends_pure]
        exact h

/-- What the index has is required without a look at the files. -/
theorem ends_requireStep_of_lookup {id : String} {v : Value} {o : Except LoaderError Value}
    (hl : w.modules.cache.lookup w.modules.base id = some v) :
    (m.requireStep id).Ends w o w' ↔
      o = .ok v ∧ w' = { w with modules := w.modules.noted (.indexHit id) } := by
  rw [ends_requireStep, hl]
  simp only [Option.some.injEq, exists_eq_left', reduceCtorEq, false_and, or_false]

/-- What the index does not have is required from the file that the identifier leads to. -/
theorem ends_requireStep_of_miss {id : String} {path : Path} {o : Except LoaderError Value}
    (hl : w.modules.cache.lookup w.modules.base id = none)
    (hp : w.modules.resolver.resolve w.modules.files id w.modules.cache.currentContext = .ok path) :
    (m.requireStep id).Ends w o w' ↔
      (∃ e, (m.load id path).Ends w (.error e) w' ∧ o = .error e) ∨
      ∃ v u, (m.load id path).Ends w (.ok v) u ∧ o = .ok v ∧
        w' = { u with modules := u.modules.remember w.modules.base id path } := by
  rw [ends_requireStep, hl]
  simp only [ends_resolve, hp, reduceCtorEq, false_and, exists_false, false_or, true_and,
    Except.ok.injEq, and_true, exists_eq_left]

/-- A reserved module ends as its script does: committed or abandoned. -/
theorem ends_loadReserved {r : Reservation} {text : String} {o : Except LoaderError Value} :
    (m.loadReserved r text).Ends w o w' ↔
      (∃ e u, (m.runModule r text).Ends w (.error e) u ∧ o = .error (.failed r.path e) ∧
        w' = { u with modules := u.modules.abandon r }) ∨
      ∃ a u, (m.runModule r text).Ends w (.ok a) u ∧ o = .ok (u.modules.cache.commit r a).1 ∧
        w' = { u with modules := u.modules.commit r a } := by
  unfold Evaluator.loadReserved
  refine (ends_tryCatch fun _ _ => by exact not_ends_outOfFuel).trans ⟨?_, ?_⟩
  · rintro (⟨a, h, rfl⟩ | ⟨e, v, h, h'⟩)
    · obtain ⟨b, u, hb, hc⟩ := ends_bind_ok.1 h
      obtain ⟨hv, rfl⟩ := ends_commit.1 hc
      rcases ends_mapError.1 hb with ⟨_, hb', he⟩ | ⟨_, -, he⟩
      · cases he
        exact .inr ⟨b, u, hb', hv, rfl⟩
      · cases he
    · rw [ends_bind_of (ends_abandon.2 ⟨rfl, rfl⟩), ends_fail] at h'
      obtain ⟨rfl, rfl⟩ := h'
      rcases ends_bind.1 h with ⟨b, u, -, hc⟩ | ⟨e', he, heq⟩
      · cases (ends_commit.1 hc).1
      · cases heq
        rcases ends_mapError.1 he with ⟨_, -, hx⟩ | ⟨b, hb, hx⟩
        · cases hx
        · cases hx
          exact .inl ⟨b, v, hb, rfl, rfl⟩
  · rintro (⟨e, u, hb, rfl, rfl⟩ | ⟨a, u, ha, rfl, rfl⟩)
    · refine .inr ⟨_, u, ends_bind.2 (.inr ⟨_, ends_mapError.2 (.inr ⟨e, hb, rfl⟩), rfl⟩), ?_⟩
      exact (ends_bind_of (ends_abandon.2 ⟨rfl, rfl⟩)).2 (ends_fail.2 ⟨rfl, rfl⟩)
    · refine .inl ⟨_, ends_bind_ok.2 ⟨a, u, ?_, ends_commit.2 ⟨rfl, rfl⟩⟩, rfl⟩
      exact ends_mapError.2 (.inl ⟨a, ha, rfl⟩)

/-- A load ends with the exports on record, with a failure to read the file, or as the reserved
    module does. -/
theorem ends_loadStep {id : String} {path : Path} {o : Except LoaderError Value} :
    (m.loadStep id path).Ends w o w' ↔
      (∃ record, w.modules.cache.record? path = some record ∧ o = .ok record.exports ∧
        w' = { w with modules := w.modules.noted (.recordHit path record.state) }) ∨
      (w.modules.cache.record? path = none ∧
        ((∃ reason, w.modules.files.readText path = .error reason ∧
          o = .error (.unreadable path reason) ∧ w' = w) ∨
        ∃ text r v, w.modules.files.readText path = .ok text ∧
          (reserve id path).Ends w (.ok r) v ∧ (m.loadReserved r text).Ends v o w')) := by
  unfold Evaluator.loadStep
  rw [ends_modules_bind]
  cases hr : w.modules.cache.record? path with
  | some record =>
    simp only [reduceCtorEq, false_and, or_false, Option.some.injEq]
    rw [ends_bind_of (ends_note.2 ⟨rfl, rfl⟩), ends_pure]
    exact ⟨fun h => ⟨record, rfl, h⟩, by rintro ⟨_, rfl, h⟩; exact h⟩
  | none =>
    simp only [reduceCtorEq, false_and, exists_false, false_or, true_and]
    cases ht : w.modules.files.readText path with
    | error reason => simp
    | ok text =>
      simp only [reduceCtorEq, false_and, exists_false, false_or, Except.ok.injEq]
      have hres : (reserve id path).Ends w (.ok (w.reservation id path)) _ :=
        ends_reserve.2 ⟨rfl, rfl⟩
      rw [ends_bind_of hres]
      constructor
      · exact fun h => ⟨text, _, _, rfl, hres, h⟩
      · rintro ⟨_, r, v, rfl, hv, h⟩
        obtain ⟨hr', rfl⟩ := hres.unique hv
        cases hr'
        exact h

/-- What is on record is loaded without a look at its file. -/
theorem ends_loadStep_of_record {id : String} {path : Path} {record : Record}
    {o : Except LoaderError Value} (hr : w.modules.cache.record? path = some record) :
    (m.loadStep id path).Ends w o w' ↔ o = .ok record.exports ∧
      w' = { w with modules := w.modules.noted (.recordHit path record.state) } := by
  rw [ends_loadStep, hr]
  simp only [Option.some.injEq, exists_eq_left', reduceCtorEq, false_and, or_false]

/-- The script of a module is malformed, or it is run in its own directory, which is left however
    it ends; its exports are read after that. -/
theorem ends_runModuleStep {r : Reservation} {text : String} {o : Except ScriptError Value} :
    (m.runModuleStep r text).Ends w o w' ↔
      (∃ e, Program.ofText? text = .error e ∧ o = .error (.malformed e) ∧ w' = w) ∨
      ∃ body args module w₁ c w₂, Program.ofText? text = .ok body ∧
        (beginModule r).Ends w (.ok (args, module)) w₁ ∧
        (m.callScript moduleParams body w₁.globals args).Ends { w₁ with depth := 0 } c w₂ ∧
        ∃ w₃, w₃ = { w₂ with depth := w₁.depth }.truncate w.modules.cache.contextDepth ∧
          ((∃ e, c = .error e ∧ o = .error e ∧ w' = w₃) ∨
          ∃ v, c = .ok v ∧ (harvest r module).Ends w₃ o w') := by
  unfold Evaluator.runModuleStep
  cases hp : Program.ofText? text with
  | error e => simp
  | ok body =>
    simp only [reduceCtorEq, false_and, exists_false, false_or, Except.ok.injEq]
    rw [ends_modules_bind]
    constructor
    · intro h
      rcases ends_bind.1 h with ⟨⟨args, module⟩, w₁, hb, h⟩ | ⟨e, he, -⟩
      · rw [ends_get_bind] at h
        rcases ends_bind.1 h with ⟨v, w₃, hv, h⟩ | ⟨e, he, rfl⟩
        · obtain ⟨u, hu, rfl⟩ := ends_andThen.1 hv
          obtain ⟨w₂, hc, rfl⟩ := ends_apart.1 hu
          exact ⟨body, args, module, w₁, _, w₂, rfl, hb, hc, _, rfl, .inr ⟨v, rfl, h⟩⟩
        · obtain ⟨u, hu, rfl⟩ := ends_andThen.1 he
          obtain ⟨w₂, hc, rfl⟩ := ends_apart.1 hu
          exact ⟨body, args, module, w₁, _, w₂, rfl, hb, hc, _, rfl, .inl ⟨e, rfl, rfl, rfl⟩⟩
      · obtain ⟨⟨_, _, ho⟩, -⟩ := ends_beginModule he
        cases ho
    · rintro ⟨_, args, module, w₁, c, w₂, rfl, hb, hc, w₃, hw₃, h⟩
      rw [ends_bind_of hb, ends_get_bind]
      have ha : (andThen (apart (m.callScript moduleParams _ w₁.globals args)) fun w' =>
          w'.truncate w.modules.cache.contextDepth).Ends w₁ c w₃ :=
        ends_andThen.2 ⟨_, ends_apart.2 ⟨w₂, hc, rfl⟩, hw₃⟩
      rcases h with ⟨e, rfl, rfl, rfl⟩ | ⟨v, rfl, h⟩
      · exact ends_bind.2 (.inr ⟨e, ha, rfl⟩)
      · exact (ends_bind_of ha).2 h

/-- What that makes of the modules: none of it, or they are entered, handed to the script, and
    left; the module fails if its script does. -/
theorem modules_runModuleStep {r : Reservation} {text : String} {o : Except ScriptError Value}
    (h : (m.runModuleStep r text).Ends w o w') :
    (∃ e, Program.ofText? text = .error e ∧ o = .error (.malformed e) ∧ w' = w) ∨
      ∃ body args u c v, Program.ofText? text = .ok body ∧ u.modules = w.modules.enter r ∧
        (m.callScript moduleParams body u.globals args).Ends u c v ∧ o.isOk = c.isOk ∧
        w'.modules = v.modules.leave w.modules.cache.contextDepth := by
  rcases ends_runModuleStep.1 h with h | ⟨body, args, module, w₁, c, w₂, hp, hb, hc, w₃, rfl, h⟩
  · exact .inl h
  · refine .inr ⟨body, args, { w₁ with depth := 0 }, c, w₂, hp, (ends_beginModule hb).2, hc, ?_⟩
    rcases h with ⟨e, rfl, rfl, rfl⟩ | ⟨v, rfl, h⟩
    · exact ⟨rfl, rfl⟩
    · obtain ⟨rfl, rfl⟩ := ends_harvest.1 h
      exact ⟨rfl, rfl⟩

end

end Requisite.Machine
