/-
  The journal and the records tell the same.

  * `Modules.Sound`: the journal is lawful, its stages are the states on record,
    and what it tells to be loaded is on record as it was then;
  * `evaluator_sound`: whatever an evaluator does, this is kept.
-/
import Requisite.Proofs.Growth

namespace Requisite.Machine

open Requisite Requisite.Source Requisite.Script Requisite.Loader

open Run

/-- What the journal tells agrees with the records. -/
structure Modules.Sound (m : Modules) : Prop where
  lawful : Lawful m.journal
  /-- the stage that a module is told to be in is the state on record -/
  stage (p : Path) : (m.cache.record? p).map Record.state = (stageAt p.components m.journal).state?
  /-- what was committed is on record with the exports that it had then -/
  published (e : Event) (p : Path) : e ∈ m.journal → e.action = .committed p →
    ∃ r, r.state = .loaded ∧ e.cache.record? p = some r ∧ m.cache.record? p = some r

namespace Modules.Sound

variable {m m' : Modules} {r : Reservation}

theorem of_fresh (hc : m.cache = .empty) (hj : m.journal = []) : m.Sound where
  lawful := by rw [hj]; trivial
  stage p := by rw [hc, hj]; rfl
  published e p he := by rw [hj] at he; cases he

/-- Only the journal and the records matter. -/
theorem congr (h : m.Sound) (hj : m'.journal = m.journal)
    (hr : ∀ p, m'.cache.record? p = m.cache.record? p) : m'.Sound where
  lawful := hj ▸ h.lawful
  stage p := by rw [hr, hj]; exact h.stage p
  published e p he ha := by rw [hr]; exact h.published e p (hj ▸ he) ha

theorem noted (h : m.Sound) {a : Action} (ha : a.subject? = none) : (m.noted a).Sound := by
  have hb (place : List Component) : ¬a.Befalls place := by rintro ⟨p, hp, -⟩; simp [ha] at hp
  refine ⟨⟨fun place hp => absurd hp (hb place), h.lawful⟩, fun p => ?_, fun e p he hc => ?_⟩
  · exact (h.stage p).trans (congrArg Stage.state? (if_neg (hb _)).symm)
  · rcases List.mem_cons.1 he with rfl | he
    · rw [show a = .committed p from hc] at ha
      cases ha
    · exact h.published e p he hc

/-- A module without a record is absent. -/
theorem stage_absent (h : m.Sound) {p : Path} (hn : m.cache.record? p = none) :
    stageAt p.components m.journal = .absent := by
  have hs := h.stage p
  rw [hn] at hs
  cases hst : stageAt p.components m.journal <;> simp [hst, Stage.state?] at hs ⊢

/-- A module whose record is resolving is reserved, or its script runs. -/
theorem stage_resolving (h : m.Sound) {p : Path} {record : Record}
    (hr : m.cache.record? p = some record) (hs : record.state = .resolving) :
    stageAt p.components m.journal = .reserved ∨ stageAt p.components m.journal = .running := by
  have hst := h.stage p
  rw [hr, Option.map_some, hs] at hst
  cases hst' : stageAt p.components m.journal <;> simp [hst', Stage.state?] at hst ⊢

/-- An action that fits brings a module to another stage, and its record to the state of that. -/
theorem act (h : m.Sound) {a : Action} {q : Path} (ha : a.subject? = some q)
    (hf : a.Fits (stageAt q.components m.journal))
    (hl : stageAt q.components m.journal ≠ .loaded)
    (hj : m'.journal = ⟨a, m'.cache⟩ :: m.journal)
    (ho : ∀ p : Path, p.components ≠ q.components → m'.cache.record? p = m.cache.record? p)
    (hq : (m'.cache.record? q).map Record.state =
      (a.after (stageAt q.components m.journal)).state?) : m'.Sound := by
  have hb (p : Path) : a.Befalls p.components ↔ p.components = q.components := by
    simp [Action.Befalls, ha, eq_comm]
  refine ⟨?_, fun p => ?_, fun e p he hc => ?_⟩
  · rw [hj]
    refine ⟨fun place hp => ?_, h.lawful⟩
    obtain ⟨p, hp, rfl⟩ := hp
    rw [ha] at hp
    cases hp
    exact hf
  · rw [hj, stageAt]
    by_cases hp : p.components = q.components
    · rw [if_pos ((hb p).2 hp), hp, m'.cache.record?_congr hp]
      exact hq
    · rw [if_neg (mt (hb p).1 hp), ho p hp]
      exact h.stage p
  · rw [hj] at he
    rcases List.mem_cons.1 he with rfl | he
    · obtain rfl : a = .committed p := hc
      cases ha
      obtain ⟨record, hr, hs⟩ := Option.map_eq_some_iff.1 (hq : _ = some LoadState.loaded)
      exact ⟨record, hs, hr, hr⟩
    · obtain ⟨record, hs, hec, hmc⟩ := h.published e p he hc
      have hp : p.components ≠ q.components := by
        intro hp
        have hst := h.stage p
        rw [hmc, Option.map_some, hs, hp] at hst
        cases hst' : stageAt q.components m.journal <;> simp_all [Stage.state?]
      exact ⟨record, hs, hec, (ho p hp).trans hmc⟩

theorem reserve (h : m.Sound) (hn : m.cache.record? r.path = none) :
    (m.reserve r).Sound ∧ stageAt r.path.components (m.reserve r).journal = .reserved := by
  have hs := h.stage_absent hn
  have hr (p : Path) := Grows.record?_reserve m r p
  constructor
  · refine h.act (a := .reserved r.path) rfl hs (by simp [hs]) rfl (fun p hp => ?_) ?_
    · rw [hr, if_neg hp]
    · rw [hr, if_pos rfl]
      rfl
  · exact if_pos ⟨r.path, rfl, rfl⟩

theorem enter (h : m.Sound) (hs : stageAt r.path.components m.journal = .reserved) :
    (m.enter r).Sound ∧ stageAt r.path.components (m.enter r).journal = .running := by
  constructor
  · refine h.act (a := .entered r.path) rfl hs (by simp [hs]) rfl (fun _ _ => rfl) ?_
    exact (h.stage r.path).trans (by rw [hs]; rfl)
  · exact if_pos ⟨r.path, rfl, rfl⟩

theorem commit (h : m.Sound) (hs : stageAt r.path.components m.journal = .running) {record : Record}
    (hr : m.cache.record? r.path = some record) (hst : record.state = .resolving) (v : Value) :
    (m.commit r v).Sound := by
  have hc (p : Path) := (m.cache.record?_commit_of_resolving p v hr hst).2
  refine h.act (a := .committed r.path) rfl hs (by simp [hs]) rfl (fun p hp => ?_) ?_
  · exact (hc p).trans (if_neg hp)
  · have hc' := (hc r.path).trans (if_pos rfl)
    exact congrArg (Option.map Record.state) hc'

theorem abandon (h : m.Sound) {record : Record} (hr : m.cache.record? r.path = some record)
    (hst : record.state = .resolving) : (m.abandon r).Sound := by
  have hc (p : Path) := m.cache.record?_abandon_of_resolving p hr hst
  have hs := h.stage_resolving hr hst
  refine h.act (a := .abandoned r.path) rfl hs ?_ rfl (fun p hp => ?_) ?_
  · rcases hs with hs | hs <;> simp [hs]
  · exact (hc p).trans (if_neg hp)
  · have hc' := (hc r.path).trans (if_pos rfl)
    exact congrArg (Option.map Record.state) hc'

end Modules.Sound

/-- Growth leaves the stage of a module on record as it is. -/
theorem Grows.stageAt_eq {m m' : Modules} (h : Grows noPlace m m') {p : Path} {record : Record}
    (hr : m.cache.record? p = some record) :
    stageAt p.components m'.journal = stageAt p.components m.journal := by
  obtain ⟨news, hj, hb, -⟩ := h.news
  rw [hj]
  refine stageAt_append fun e he hbe => ?_
  have hn := (hb e he p hbe).resolve_left id
  simp [hr] at hn

theorem modular_sound : Modular fun _ w w' => w.modules.Sound → w'.modules.Sound where
  idle h hs := h ▸ hs
  trans h₁ h₂ hs := h₂ (h₁ hs)
  tidy h h' hs := h' ▸ h hs

/-- **Whatever an evaluator does, the journal and the records tell the same.** -/
theorem evaluator_sound (n : Nat) : (evaluator n).Obeys
    (fun _ w w' => w.modules.Sound → w'.modules.Sound)
    fun r o w w' => w.modules.Sound → stageAt r.path.components w.modules.journal = .reserved →
      w'.modules.Sound ∧
        (o.isOk → stageAt r.path.components w'.modules.journal = .running) := by
  refine .evaluator modular_sound ?_ ?_ ?_ n
  · intro n hm id w o w' h hs
    rcases ends_requireStep.1 h with ⟨v, -, -, rfl⟩ | ⟨-, ⟨e, he, -⟩ | ⟨path, hp, h⟩⟩
    · exact hs.noted rfl
    · obtain ⟨-, rfl⟩ := ends_resolve.1 he
      exact hs
    · rcases h with ⟨e, he, -⟩ | ⟨v, u, hu, -, rfl⟩
      · exact hm.load id path he hs
      · exact (hm.load id path hu hs).congr rfl fun _ => rfl
  · intro n hm id path w o w' h hs
    rcases ends_loadStep.1 h with ⟨record, -, -, rfl⟩ | ⟨hn, ⟨_, -, -, rfl⟩ | ⟨text, r, v, -, hr, h⟩⟩
    · exact hs.noted rfl
    · exact hs
    · obtain ⟨hr', rfl⟩ := ends_reserve.1 hr
      cases hr'
      obtain ⟨hs₁, hst⟩ := hs.reserve (r := w.reservation id path) hn
      rcases ends_loadReserved.1 h with ⟨e, u, hu, -, rfl⟩ | ⟨a, u, hu, -, rfl⟩
      · have hrec := ((evaluator_grows n).body _ _ hu).reserved
        exact (hm.body _ _ hu hs₁ hst).1.abandon hrec rfl
      · have hrec := ((evaluator_grows n).body _ _ hu).reserved
        obtain ⟨hs₂, hrun⟩ := hm.body _ _ hu hs₁ hst
        exact hs₂.commit (hrun rfl) hrec rfl a
  · intro n hm r text w o w' h hs hst
    rcases modules_runModuleStep h with
      ⟨e, -, rfl, rfl⟩ | ⟨body, args, u, c, v, -, hu, hc, -, hw'⟩
    · exact ⟨hs, by simp [Except.isOk, Except.toBool]⟩
    · obtain ⟨hs₁, hrun⟩ := hs.enter hst
      have hg : Grows noPlace u.modules v.modules :=
        (evaluator_grows n).callScript modular_grows moduleParams body u.globals args hc
      have hk : u.modules.Sound → v.modules.Sound :=
        hm.callScript modular_sound moduleParams body u.globals args hc
      rw [hu] at hg hk
      obtain ⟨record, hrec, -⟩ := Option.map_eq_some_iff.1
        ((hs₁.stage r.path).trans (by rw [hrun]; rfl : _ = some LoadState.resolving))
      rw [hw']
      exact ⟨(hk hs₁).congr rfl fun _ => rfl, fun _ => (hg.stageAt_eq hrec).trans hrun⟩

end Requisite.Machine
