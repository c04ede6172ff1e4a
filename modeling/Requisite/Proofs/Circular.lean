/-
  Modules that require each other.

  While the script of a module runs, its record holds the placeholder: the
  object that the script has as `exports` and, at first, as `module.exports`.
  Whoever requires the module then is given that object.  When the script is
  done, the record holds what it left in `module.exports`, if that is anything.

  * `Running.placed`: the record of a module whose script has begun, at
    every moment until it is done;
  * `Evaluator.Leaves`: a script that comes to its end, with what it leaves;
  * `circular_requires`: what a `require` gives during the script and after it.
-/
import Requisite.Proofs.Once

namespace Requisite.Loader

open Requisite.Script

/-- The record of a module that was reserved. -/
def Reservation.record (r : Reservation) (exports : Value) (state : LoadState) : Record :=
  ⟨r.id, r.path, exports, state⟩

/-- What a module exports that leaves `v` in `module.exports`. -/
def Reservation.exported (r : Reservation) (v : Value) : Value :=
  if v = r.placeholder ∨ v = .null ∨ v = .undefined then r.placeholder else v

end Requisite.Loader

namespace Requisite.Machine

open Requisite Requisite.Source Requisite.Script Requisite.Loader

open Run

/-! ## Values -/

/-- An object is equal to itself only. -/
theorem replaces_object {v : Value} {o : ObjectId} :
    replaces v (.object o) = false ↔ v = .object o ∨ v = .null ∨ v = .undefined := by
  cases v <;> simp [replaces, Value.strictEq, Value.isNullish]

/-! ## While a script runs -/

section
variable {files : FileSystem} {allowed : Resolver → Prop}

/-- Records are there when a job that is asked for begins, as they were when the one that asks
    began. -/
theorem Asked.kept {n : Nat} {j k : Job} {w v : World} (h : Asked n w v j k) {p : Path}
    {record : Record} (hr : w.modules.cache.record? p = some record) :
    v.modules.cache.record? p = some record := by
  cases h with
  | script _ _ hkeep => exact (hkeep _ modular_grows (evaluator_grows n).toKeeps).kept p record hr
  | load hv _ => exact hv ▸ hr
  | @body id path _ hn _ hv =>
    have hne : p.components ≠ path.components := by
      intro he
      rw [w.modules.cache.record?_congr he, hn] at hr
      cases hr
    rw [hv, Grows.record?_reserve]
    exact (if_neg hne).trans hr
  | statement _ hu hkeep =>
    have hg := hkeep _ modular_grows (evaluator_grows n).toKeeps
    rw [hu] at hg
    exact hg.kept p record hr

/-- What is true of a module whose script is open, begun in `v`, at a later moment `w`. -/
structure Placed (r : Reservation) (v w : World) : Prop where
  isObject : ∃ o, r.placeholder = .object o
  atFirst : v.modules.cache.record? r.path = some (r.record r.placeholder .resolving)
  still : w.modules.cache.record? r.path = some (r.record r.placeholder .resolving)

/-- **The placeholder is on record while the script runs.** -/
theorem Running.placed {n : Nat} {j : Job} {w : World} {frames : List (Job × World)}
    (h : Running files allowed n ((j, w) :: frames)) {r : Reservation} {text : String} {v : World}
    (hb : (Job.body r text, v) ∈ (j, w) :: frames) : Placed r v w := by
  refine h.holds (P := fun j w frames => ∀ r text v, (Job.body r text, v) ∈ (j, w) :: frames →
    Placed r v w) ?_ ?_ r text v hb
  · intro j w _ hj r text v hb
    cases List.mem_singleton.1 hb
    cases hj
  · intro n j w k u frames ih ha r text v hb
    rcases List.mem_cons.1 hb with hb | hb
    · cases hb
      cases ha with
      | script _ hk => cases hk
      | statement hk => cases hk
      | @body id path _ hn _ hv =>
        have hrec : u.modules.cache.record? (w.reservation id path).path =
            some ((w.reservation id path).record (w.reservation id path).placeholder .resolving) := by
          rw [hv, Grows.record?_reserve, if_pos rfl]
          rfl
        exact ⟨⟨_, rfl⟩, hrec, hrec⟩
    · obtain ⟨ho, hv, hw⟩ := ih r text v hb
      exact ⟨ho, hv, ha.kept hw⟩

end

/-! ## The end of a script -/

/-- What is bound to a parameter of a module's script. -/
def parameter? (args : List Value) (x : String) : Option Value := (moduleParams.zip args).lookup x

/-- A script has the placeholder as `exports` and, when it begins, as `module.exports`. -/
structure Given (r : Reservation) (args : List Value) (o : ObjectId) (w : World) : Prop where
  exports : parameter? args "exports" = some r.placeholder
  module : parameter? args "module" = some (.object o)
  member : (w.heap.properties o).get? "exports" = some r.placeholder

theorem given_of_beginModule {r : Reservation} {args : List Value} {module : ObjectId}
    {w w' : World} (h : (beginModule r).Ends w (.ok (args, module)) w') :
    Given r args module w' := by
  unfold beginModule at h
  rw [ends_bind_of (ends_newObject.2 ⟨rfl, rfl⟩),
    ends_bind_of (ends_modifyGetHeap.2 ⟨rfl, rfl⟩), ends_bind_of (ends_modifyCache.2 ⟨rfl, rfl⟩),
    ends_bind_of (ends_note.2 ⟨rfl, rfl⟩), ends_pure] at h
  obtain ⟨ho, rfl⟩ := h
  cases ho
  refine ⟨rfl, rfl, ?_⟩
  simp only [newRequireIn, Heap.newFunction, Heap.newObject, Heap.properties,
    Array.getElem?_push_size, Option.getD_some]
  rfl

theorem exists_given (r : Reservation) (w : World) :
    ∃ args o w', (beginModule r).Ends w (.ok (args, o)) w' ∧ Given r args o w' := by
  have h : (beginModule r).Ends w (.ok (_, _)) _ := rfl
  exact ⟨_, _, _, h, given_of_beginModule h⟩

/-- The script of a module, begun in `w`, comes to its end in `w'` and leaves `v` in
    `module.exports`. -/
def Evaluator.Leaves (m : Evaluator) (r : Reservation) (text : String) (w : World) (v : Value)
    (w' : World) : Prop :=
  ∃ body args o w₁ result w₂, Program.ofText? text = .ok body ∧
    (beginModule r).Ends w (.ok (args, o)) w₁ ∧ Given r args o w₁ ∧
    (m.callScript moduleParams body w₁.globals args).Ends { w₁ with depth := 0 } (.ok result) w₂ ∧
    v = ((w₂.heap.properties o).get? "exports").getD .undefined ∧
    w' = { w₂ with depth := w₁.depth }.truncate w.modules.cache.contextDepth

theorem ends_runModuleStep_ok {m : Evaluator} {r : Reservation} {text : String} {w w' : World}
    {a : Value} (hr : ∃ o, r.placeholder = .object o) :
    (m.runModuleStep r text).Ends w (.ok a) w' ↔
      ∃ v, m.Leaves r text w v w' ∧ a = r.exported v := by
  have hexported (v : Value) : (if replaces v r.placeholder then v else r.placeholder) =
      r.exported v := by
    obtain ⟨o, ho⟩ := hr
    unfold Reservation.exported
    split
    · next h =>
      rw [if_neg]
      rw [← Bool.not_eq_false, ho, replaces_object] at h
      rwa [ho]
    · next h =>
      rw [if_pos]
      rw [Bool.not_eq_true, ho, replaces_object] at h
      rwa [ho]
  rw [ends_runModuleStep]
  constructor
  · rintro (⟨e, -, ho, -⟩ |
      ⟨body, args, o, w₁, c, w₂, hp, hb, hc, w₃, rfl, ⟨e, -, ho, -⟩ | ⟨v, rfl, h⟩⟩)
    · cases ho
    · cases ho
    · obtain ⟨rfl, ha⟩ := ends_harvest.1 h
      rw [hexported] at ha
      refine ⟨_, ⟨body, args, o, w₁, v, w₂, hp, hb, given_of_beginModule hb, hc, rfl, rfl⟩, ?_⟩
      exact Except.ok.inj ha
  · rintro ⟨v, ⟨body, args, o, w₁, result, w₂, hp, hb, -, hc, rfl, rfl⟩, rfl⟩
    refine .inr ⟨body, args, o, w₁, _, w₂, hp, hb, hc, _, rfl, .inr ⟨result, rfl, ?_⟩⟩
    rw [ends_harvest, hexported]
    exact ⟨rfl, rfl⟩

/-! ## What a `require` gives -/

/-- A `require` of the identifier comes to its end with the value, and never with anything
    else. -/
def World.Gives (w : World) (id : String) (v : Value) : Prop :=
  (∀ k, ∃ w', (require (k + 2) id).Ends w (.ok v) w') ∧
    ∀ k o w', (require k id).Ends w o w' → o = .ok v

/-- While the host leaves the resolver as it is, an identifier leads where it is resolved to. -/
theorem Running.leadsTo_iff {files : FileSystem} {allowed : Resolver → Prop} {n : Nat} {j : Job}
    {w : World} {frames : List (Job × World)} (h : Running files allowed n ((j, w) :: frames))
    (hfix : ∀ r r', allowed r → allowed r' → r = r') {id : String} {path : Path} :
    w.modules.LeadsTo id path ↔ ∃ q,
      w.modules.resolver.resolve w.modules.files id w.modules.cache.currentContext = .ok q ∧
        q.components = path.components := by
  have hsame : Running files (· = w.modules.resolver) n ((j, w) :: frames) :=
    h.mono fun r hr => hfix r _ hr h.orderly.allowed
  constructor
  · rintro (⟨q, r, hq, -, -, hqp⟩ | ⟨-, hq⟩)
    · refine ⟨q, ?_, hqp⟩
      rw [← w.modules.resolve_base]
      exact hsame.indexed w.modules.base id q hq
    · exact hq
  · rintro ⟨q, hq, hqp⟩
    rcases hsame.indexed.leadsTo hq with ⟨q', r, hi, hr, hs, hq'⟩ | ⟨hl, q', hr, hq'⟩
    · exact .inl ⟨q', r, hi, hr, hs, hq'.trans hqp⟩
    · exact .inr ⟨hl, q', hr, hq'.trans hqp⟩

theorem gives_of_record {w : World} {id : String} {path : Path} {record : Record}
    (hid : w.modules.LeadsTo id path) (hr : w.modules.cache.record? path = some record) :
    w.Gives id record.exports :=
  ⟨exists_ends_require_of_record hid hr, fun _ _ _ h => (ends_require_of_record hid hr h).1⟩

section
variable {files : FileSystem} {allowed : Resolver → Prop} {n : Nat} {j : Job} {w : World}
  {frames : List (Job × World)} {r : Reservation} {text : String} {v : World}

/-- **Modules that require each other see one object.**  While the script of a module is open, a
    `require` that leads to the module gives the object that the script is given as `exports` and
    as `module.exports`.  When the script comes to its end, the record and every `require` from
    then on give that same object, if the script leaves it, `null` or `undefined` in
    `module.exports`, and else what the script leaves.  Identifiers lead where they are resolved to,
    unless the host has changed the resolver and the index remembers what was loaded before. -/
theorem circular_requires (h : Running files allowed n ((j, w) :: frames))
    (hb : (Job.body r text, v) ∈ (j, w) :: frames) :
    (∃ o, r.placeholder = .object o) ∧
    (∃ args o v₁, (beginModule r).Ends v (.ok (args, o)) v₁ ∧ Given r args o v₁) ∧
    (∀ id, w.modules.LeadsTo id r.path → w.Gives id r.placeholder) ∧
    (∀ k left v', (evaluator k).Leaves r text v left v' →
      ∃ done, ((evaluator (k + 1)).loadReserved r text).Ends v (.ok (r.exported left)) done ∧
        done.modules.cache.record? r.path = some (r.record (r.exported left) .loaded) ∧
        ∀ n' j' u frames' since, Running files allowed n' ((j', u) :: frames') →
          u.modules.journal = since ++ done.modules.journal →
          u.modules.cache.record? r.path = some (r.record (r.exported left) .loaded) ∧
          ∀ id, u.modules.LeadsTo id r.path → u.Gives id (r.exported left)) ∧
    ((∀ s s', allowed s → allowed s' → s = s') → ∀ n' j' u frames',
      Running files allowed n' ((j', u) :: frames') → ∀ id p, u.modules.LeadsTo id p ↔ ∃ q,
        u.modules.resolver.resolve u.modules.files id u.modules.cache.currentContext = .ok q ∧
          q.components = p.components) := by
  obtain ⟨hobject, hfirst, hstill⟩ := h.placed hb
  refine ⟨hobject, exists_given r v, fun id hid => gives_of_record hid hstill,
    fun k left v' hleaves => ?_, fun hfix n' j' u frames' hrun id p => hrun.leadsTo_iff hfix⟩
  have hbody : ((evaluator (k + 1)).runModule r text).Ends v (.ok (r.exported left)) v' :=
    (ends_runModuleStep_ok hobject).2 ⟨left, hleaves, rfl⟩
  have hrec := ((evaluator_grows (k + 1)).body r text hbody).kept _ _ hfirst
  obtain ⟨hvalue, hcommit⟩ :=
    v'.modules.cache.record?_commit_of_resolving r.path (r.exported left) hrec rfl
  rw [if_pos rfl] at hcommit
  refine ⟨{ v' with modules := v'.modules.commit r (r.exported left) }, ?_, hcommit, ?_⟩
  · exact ends_loadReserved.2 (.inr ⟨_, v', hbody, by rw [hvalue], rfl⟩)
  · intro n' j' u frames' since hrun hsince
    obtain ⟨record, -, he, hu⟩ := hrun.orderly.sound.published
      ⟨.committed r.path, (v'.modules.commit r (r.exported left)).cache⟩ r.path
      (hsince ▸ List.mem_append_right since List.mem_cons_self) rfl
    obtain rfl := Option.some.inj (he.symm.trans hcommit)
    exact ⟨hu, fun id hid => gives_of_record hid hu⟩

end

/-- The only module, whose script is empty, gives its placeholder while its script is open and
    whenever it is required later. -/
theorem circular_requires_ofModule :
    (World.ofReserved "").Gives "./a" (reservationOfModule "").placeholder ∧
      ∃ w, (require 4 "./a").Ends (.ofModule "") (.ok (reservationOfModule "").placeholder) w ∧
        w.Gives "./a" (reservationOfModule "").placeholder := by
  have hrun : Running (.only ⟨"/a.js"⟩ "") (· = (World.ofModule "").modules.resolver) 0 _ :=
    running_body "" rfl
  obtain ⟨hobject, -, hduring, hend, hleads⟩ := circular_requires hrun List.mem_cons_self
  have hfix : ∀ s s', s = (World.ofModule "").modules.resolver →
      s' = (World.ofModule "").modules.resolver → s = s' := fun _ _ h h' => h.trans h'.symm
  refine ⟨hduring "./a" ?_, ?_⟩
  · exact (hleads hfix _ _ _ _ hrun _ _).2 ⟨_, (ends_resolve.1 (resolve_ofModule "")).1.symm, rfl⟩
  obtain ⟨w, hw⟩ := ends_body_ofReserved
  obtain ⟨left, hleaves, hleft⟩ := (ends_runModuleStep_ok hobject).1 hw
  obtain ⟨done, hdone, -, hlater⟩ := hend 1 left w hleaves
  rw [← hleft] at hdone hlater
  have hload : ((evaluator 3).load "./a" ⟨"/a.js"⟩).Ends (.ofModule "")
      (.ok (reservationOfModule "").placeholder) done :=
    ends_loadStep.2 (.inr ⟨rfl, .inr ⟨"", reservationOfModule "", .ofReserved "", rfl,
      ends_reserve.2 ⟨rfl, rfl⟩, hdone⟩⟩)
  have hrequire : (require 4 "./a").Ends (.ofModule "") (.ok (reservationOfModule "").placeholder)
      { done with modules := done.modules.remember (World.ofModule "").modules.base "./a" _ } :=
    ends_requireStep.2 (.inr ⟨rfl, .inr ⟨_, resolve_ofModule "", .inr ⟨_, _, hload, rfl, rfl⟩⟩⟩)
  have hagain : Running (.only ⟨"/a.js"⟩ "") (· = (World.ofModule "").modules.resolver) 0
      [(.require "./a", _)] :=
    .called (.called (j := .require "./a") (.fresh rfl rfl rfl rfl) rfl ⟨_, hrequire, rfl⟩) rfl
  refine ⟨_, hrequire, (hlater 0 _ _ [] [] hagain rfl).2 "./a" ?_⟩
  exact (hleads hfix _ _ _ _ hagain _ _).2 ⟨_, resolve_of_ends_require hrequire, rfl⟩

end Requisite.Machine
