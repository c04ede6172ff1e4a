/-
  Modules run once.

  * `Modules.LeadsTo`: which file a `require` of an identifier comes to;
  * `ends_require_of_record`: a `require` that leads to a module on record gives
    its exports and runs nothing;
  * `runs_once`: how often the script of a module begins and comes to its end,
    in any run, and what is given for it from then on.
-/
import Requisite.Proofs.Index

namespace Requisite.Machine

open Requisite Requisite.Source Requisite.Script Requisite.Loader

open Run

/-- A `require` of the identifier comes to the file: the index remembers it and its module is
    loaded, or else the identifier is resolved to it. -/
def Modules.LeadsTo (m : Modules) (id : String) (path : Path) : Prop :=
  (∃ q r, m.cache.index.get? (m.base.components, id) = some q ∧ m.cache.record? q = some r ∧
    r.state = .loaded ∧ q.components = path.components) ∨
  (m.cache.lookup m.base id = none ∧ ∃ q,
    m.resolver.resolve m.files id m.cache.currentContext = .ok q ∧ q.components = path.components)

/-- Where the index tells where identifiers lead, an identifier leads where it is resolved to. -/
theorem Modules.Indexed.leadsTo {m : Modules} (hi : m.Indexed) {id : String} {path : Path}
    (hp : m.resolver.resolve m.files id m.cache.currentContext = .ok path) :
    m.LeadsTo id path := by
  cases hl : m.cache.lookup m.base id with
  | none => exact .inr ⟨hl, path, hp, rfl⟩
  | some v =>
    obtain ⟨q, r, hq, hr, hs, -⟩ := (Cache.lookup_eq_some_iff _).1 hl
    have hpq : (Except.ok q : Except LoaderError Path) = .ok path := by
      rw [← hi m.base id q hq, m.resolve_base, hp]
    cases hpq
    exact .inl ⟨path, r, hq, hr, hs, rfl⟩

section
variable {w : World} {id : String} {path : Path} {record : Record}
  (hid : w.modules.LeadsTo id path) (hr : w.modules.cache.record? path = some record)

include hid hr in
/-- The index answers with the exports on record, or the identifier is resolved to the module. -/
theorem Modules.LeadsTo.cases :
    w.modules.cache.lookup w.modules.base id = some record.exports ∨
      (w.modules.cache.lookup w.modules.base id = none ∧ ∃ q,
        w.modules.resolver.resolve w.modules.files id w.modules.cache.currentContext = .ok q ∧
          w.modules.cache.record? q = some record) := by
  rcases hid with ⟨q, r, hq, hrq, hs, hqp⟩ | ⟨hl, q, hq, hqp⟩
  · rw [w.modules.cache.record?_congr hqp, hr] at hrq
    cases hrq
    refine .inl ((Cache.lookup_eq_some_iff _).2 ⟨q, record, hq, ?_, hs, rfl⟩)
    rw [w.modules.cache.record?_congr hqp, hr]
  · exact .inr ⟨hl, q, hq, (w.modules.cache.record?_congr hqp).trans hr⟩

include hid hr in
/-- A `require` that leads to a module on record gives its exports, and nothing befalls any
    module. -/
theorem ends_require_of_record {n : Nat} {o : Except LoaderError Value} {w' : World}
    (h : (require n id).Ends w o w') : o = .ok record.exports ∧
      ∃ e, w'.modules.journal = e :: w.modules.journal ∧ e.action.subject? = none := by
  cases n with
  | zero => exact absurd h not_ends_outOfFuel
  | succ n =>
    rcases hid.cases hr with hl | ⟨hl, q, hq, hrq⟩
    · obtain ⟨rfl, rfl⟩ := (ends_requireStep_of_lookup hl).1 h
      exact ⟨rfl, _, rfl, rfl⟩
    · have hload {o u} (h : ((evaluator n).load id q).Ends w o u) : o = .ok record.exports ∧
          ∃ e, u.modules.journal = e :: w.modules.journal ∧ e.action.subject? = none := by
        cases n with
        | zero => exact absurd h not_ends_outOfFuel
        | succ n =>
          obtain ⟨rfl, rfl⟩ := (ends_loadStep_of_record hrq).1 h
          exact ⟨rfl, _, rfl, rfl⟩
      rcases (ends_requireStep_of_miss hl hq).1 h with ⟨e, he, rfl⟩ | ⟨v, u, hv, rfl, rfl⟩
      · cases (hload he).1
      · obtain ⟨hv', hj⟩ := hload hv
        cases hv'
        exact ⟨rfl, hj⟩

include hid hr in
/-- Such a `require` does come to an end. -/
theorem exists_ends_require_of_record (n : Nat) :
    ∃ w', (require (n + 2) id).Ends w (.ok record.exports) w' := by
  rcases hid.cases hr with hl | ⟨hl, q, hq, hrq⟩
  · exact ⟨_, (ends_requireStep_of_lookup hl).2 ⟨rfl, rfl⟩⟩
  · have hload : ((evaluator (n + 1)).load id q).Ends w (.ok record.exports) _ :=
      (ends_loadStep_of_record hrq).2 ⟨rfl, rfl⟩
    exact ⟨_, (ends_requireStep_of_miss hl hq).2 (.inr ⟨_, _, hload, rfl, rfl⟩)⟩

end

variable {files : FileSystem} {resolver : Resolver}

/-- **A module runs once.**  At every moment of a run: no module is at work twice; where the script
    of a module began for a second time, it was abandoned in between; and after it was committed
    nothing befell it, and a `require` that leads to it gives the very exports of then. -/
theorem runs_once {n : Nat} {j : Job} {w : World} {frames : List (Job × World)}
    (h : Running files (· = resolver) n ((j, w) :: frames)) :
    ((atWork ((j, w) :: frames)).map Path.components).Nodup ∧
    (∀ late middle early e₁ e₂ p q, w.modules.journal = late ++ e₂ :: (middle ++ e₁ :: early) →
      e₁.action = .entered p → e₂.action = .entered q → q.components = p.components →
      ∃ e ∈ middle, ∃ a, e.action = .abandoned a ∧ a.components = p.components) ∧
    ∀ late early e p, w.modules.journal = late ++ e :: early → e.action = .committed p →
      (∀ e' ∈ late, ¬e'.action.Befalls p.components) ∧
      ∃ record, e.cache.record? p = some record ∧
        ∀ id q, w.modules.resolver.resolve w.modules.files id w.modules.cache.currentContext = .ok q →
          q.components = p.components →
          (∀ k, ∃ w', (require (k + 2) id).Ends w (.ok record.exports) w') ∧
          ∀ k o w', (require k id).Ends w o w' → o = .ok record.exports ∧
            ∃ hit, w'.modules.journal = hit :: w.modules.journal ∧ hit.action.subject? = none := by
  have ho := h.orderly
  refine ⟨ho.nodup, fun late middle early e₁ e₂ p q hj h₁ h₂ hpq => ?_, fun late early e p hj hc => ?_⟩
  · exact Lawful.abandoned_between (hj ▸ ho.sound.lawful) h₁ h₂ hpq
  · refine ⟨Lawful.not_after_committed (hj ▸ ho.sound.lawful) hc, ?_⟩
    obtain ⟨record, -, he, hw⟩ := ho.sound.published e p (by simp [hj]) hc
    refine ⟨record, he, fun id q hq hqp => ?_⟩
    have hr : w.modules.cache.record? q = some record :=
      (w.modules.cache.record?_congr hqp).trans hw
    have hid := h.indexed.leadsTo hq
    exact ⟨exists_ends_require_of_record hid hr, fun k o w' hk => ends_require_of_record hid hr hk⟩

/-! ## A module without a statement -/

theorem ofText?_empty : Program.ofText? "" = .ok [] := by
  have h : Lexeme.ofText "" = [⟨.eof, .start, .start, false⟩] := by decide +kernel
  exact Program.ofText?_of_lexemes h rfl

/-- The reservation of the only module. -/
def reservationOfModule (text : String) : Reservation :=
  (World.ofModule text).reservation "./a" ⟨"/a.js"⟩

/-- Its script comes to an end and leaves the placeholder. -/
theorem ends_body_ofReserved : ∃ w, ((evaluator 2).runModule (reservationOfModule "") "").Ends
    (.ofReserved "") (.ok (reservationOfModule "").placeholder) w := by
  show ∃ w, ((evaluator 1).runModuleStep (reservationOfModule "") "").Ends (.ofReserved "")
    (.ok (reservationOfModule "").placeholder) w
  unfold Evaluator.runModuleStep
  rw [ofText?_empty]
  exact ⟨_, rfl⟩

/-- So it is committed, and that is the last that is noted. -/
theorem ends_require_ofModule : ∃ w e older,
    (require 4 "./a").Ends (.ofModule "") (.ok (reservationOfModule "").placeholder) w ∧
      w.modules.journal = [] ++ e :: older ∧ e.action = .committed ⟨"/a.js"⟩ ∧
      (e.cache.record? ⟨"/a.js"⟩).map Record.exports =
        some (reservationOfModule "").placeholder := by
  obtain ⟨w, hw⟩ := ends_body_ofReserved
  have hrec := ((evaluator_grows 2).body _ _ hw).reserved
  obtain ⟨hv, hc⟩ := w.modules.cache.record?_commit_of_resolving ⟨"/a.js"⟩
    (reservationOfModule "").placeholder hrec rfl
  have hload : ((evaluator 3).load "./a" ⟨"/a.js"⟩).Ends (.ofModule "")
      (.ok (w.modules.cache.commit (reservationOfModule "") _).1) _ :=
    ends_loadStep.2 (.inr ⟨rfl, .inr ⟨"", reservationOfModule "", .ofReserved "", rfl,
      ends_reserve.2 ⟨rfl, rfl⟩, ends_loadReserved.2 (.inr ⟨_, w, hw, rfl, rfl⟩)⟩⟩)
  rw [hv] at hload
  refine ⟨_, _, _, ends_requireStep.2 (.inr ⟨rfl, .inr ⟨_, resolve_ofModule "", .inr
    ⟨_, _, hload, rfl, rfl⟩⟩⟩), rfl, rfl, ?_⟩
  exact congrArg (Option.map Record.exports) hc

/-- The identifier still leads to the module after it was required. -/
theorem resolve_of_ends_require {text : String} {n : Nat} {o : Except LoaderError Value} {w : World}
    (h : (require n "./a").Ends (.ofModule text) o w) :
    w.modules.resolver.resolve w.modules.files "./a" w.modules.cache.currentContext =
      .ok ⟨"/a.js"⟩ := by
  rw [((evaluator_grows n).require _ h).resolve_eq]
  exact (ends_resolve.1 (resolve_ofModule text)).1.symm

/-- What is required again is what was given before. -/
theorem runs_once_ofModule : ∃ v w, (require 4 "./a").Ends (.ofModule "") (.ok v) w ∧
    ∃ w', (require 2 "./a").Ends w (.ok v) w' := by
  obtain ⟨w, e, older, hw, hj, hc, hv⟩ := ends_require_ofModule
  have hreach : Reached (.only ⟨"/a.js"⟩ "") (· = (World.ofModule "").modules.resolver) w :=
    .called (j := .require "./a") (.fresh rfl rfl rfl rfl) rfl ⟨_, hw, rfl⟩
  obtain ⟨-, -, hpub⟩ := runs_once (.called (n := 0) (j := .require "./a") hreach rfl)
  obtain ⟨record, hr, hagain⟩ := (hpub _ _ _ _ hj hc).2
  rw [hr] at hv
  have hagain := (hagain "./a" _ (resolve_of_ends_require hw) rfl).1 0
  rw [Option.some.inj hv] at hagain
  exact ⟨_, w, hw, hagain⟩

end Requisite.Machine
