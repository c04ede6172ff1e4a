/-
  What a completed run does to the loader.

  However a run ends, the modules have only grown: the contexts are those from
  before, every record is still there, and whatever was added is loaded.  What
  the run did in between, the journal tells.

  * `Grows own m m'`: the modules `m` have grown to `m'`, with actions on modules
    that were not on record, and on those at the places `own`;
  * `evaluator_grows`: this is so for whatever an evaluator does.
-/
import Requisite.Proofs.Journal
import Requisite.Proofs.Keeps
import Requisite.Proofs.Loading

namespace Requisite.Machine

open Requisite Requisite.Source Requisite.Script Requisite.Loader

open Run

/-- The modules `m` have grown to `m'`; what befell a module befell one that was not on record, or
    one at a place of `own`. -/
structure Grows (own : List Component → Prop) (m m' : Modules) : Prop where
  resolver : m'.resolver = m.resolver
  files : m'.files = m.files
  contexts : m'.cache.contexts = m.cache.contexts
  kept (p : Path) (r : Record) : m.cache.record? p = some r → m'.cache.record? p = some r
  news : ∃ news, m'.journal = news ++ m.journal ∧
    (∀ e ∈ news, ∀ p : Path, e.action.Befalls p.components →
      own p.components ∨ m.cache.record? p = none) ∧
    ∀ p r, m.cache.record? p = none → m'.cache.record? p = some r →
      r.state = .loaded ∧ ∃ e ∈ news, ∃ q, e.action = .committed q ∧ q.components = p.components

/-- No place is exempt. -/
def noPlace : List Component → Prop := fun _ => False

namespace Grows

variable {own : List Component → Prop} {m m' m'' : Modules}

theorem refl (own : List Component → Prop) (m : Modules) : Grows own m m where
  resolver := rfl
  files := rfl
  contexts := rfl
  kept _ _ h := h
  news := ⟨[], rfl, by simp, fun p r h h' => by simp [h] at h'⟩

theorem trans (h₁ : Grows own m m') (h₂ : Grows own m' m'') : Grows own m m'' where
  resolver := h₂.resolver.trans h₁.resolver
  files := h₂.files.trans h₁.files
  contexts := h₂.contexts.trans h₁.contexts
  kept p r h := h₂.kept p r (h₁.kept p r h)
  news := by
    obtain ⟨n₁, hj₁, hb₁, ha₁⟩ := h₁.news
    obtain ⟨n₂, hj₂, hb₂, ha₂⟩ := h₂.news
    refine ⟨n₂ ++ n₁, by rw [hj₂, hj₁, List.append_assoc], ?_, ?_⟩
    · intro e he p hp
      rcases List.mem_append.1 he with he | he
      · refine (hb₂ e he p hp).imp_right fun hn => ?_
        cases hm : m.cache.record? p with
        | none => rfl
        | some r => simp [h₁.kept p r hm] at hn
      · exact hb₁ e he p hp
    · intro p r hn hr
      cases hm : m'.cache.record? p with
      | none =>
        obtain ⟨hs, e, he, hq⟩ := ha₂ p r hm hr
        exact ⟨hs, e, List.mem_append_left _ he, hq⟩
      | some r' =>
        obtain rfl : r' = r := Option.some.inj ((h₂.kept p r' hm).symm.trans hr)
        obtain ⟨hs, e, he, hq⟩ := ha₁ p r' hn hm
        exact ⟨hs, e, List.mem_append_right _ he, hq⟩

/-- Noting what befalls no module. -/
theorem noted {a : Action} (ha : a.subject? = none) : Grows noPlace m (m.noted a) where
  resolver := rfl
  files := rfl
  contexts := rfl
  kept _ _ h := h
  news := by
    refine ⟨[⟨a, m.cache⟩], rfl, ?_, fun p r h h' => ?_⟩
    · rintro e he p ⟨q, hq, -⟩
      obtain rfl := List.mem_singleton.1 he
      simp [ha] at hq
    · have h'' : m.cache.record? p = some r := h'
      simp [h] at h''

theorem remember (dir : Path) (id : String) (path : Path) :
    Grows noPlace m (m.remember dir id path) where
  resolver := rfl
  files := rfl
  contexts := rfl
  kept _ _ h := h
  news := ⟨[], rfl, by simp, fun p r h h' => by
    have h'' : m.cache.record? p = some r := h'
    simp [h] at h''⟩

/-- Growth leaves it as it is where identifiers lead. -/
theorem resolve_eq (h : Grows own m m') (id : String) :
    m'.resolver.resolve m'.files id m'.cache.currentContext =
      m.resolver.resolve m.files id m.cache.currentContext := by
  rw [h.resolver, h.files, Cache.currentContext, h.contexts]
  rfl

/-- Growth leaves the modules at work as they are. -/
theorem resolving_iff (h : Grows own m m') (p : Path) :
    m'.cache.Resolving p ↔ m.cache.Resolving p := by
  constructor
  · rintro ⟨r, hr, hs⟩
    cases hm : m.cache.record? p with
    | some r' =>
      obtain rfl : r' = r := Option.some.inj ((h.kept p r' hm).symm.trans hr)
      exact ⟨r', hm, hs⟩
    | none =>
      obtain ⟨_, -, -, hadd⟩ := h.news
      rw [(hadd p r hm hr).1] at hs
      cases hs
  · rintro ⟨r, hr, hs⟩
    exact ⟨r, h.kept p r hr, hs⟩

/-! ## Loading a module -/

section
variable {r : Reservation}

theorem record?_reserve (m : Modules) (r : Reservation) (p : Path) :
    (m.reserve r).cache.record? p = if p.components = r.path.components then
      some ⟨r.id, r.path, r.placeholder, .resolving⟩ else m.cache.record? p :=
  m.cache.record?_reserve p r

variable (hn : m.cache.record? r.path = none)
  (h : Grows (· = r.path.components) (m.reserve r) m')

include h in
/-- The record of a reserved module is there until the module is loaded or abandoned. -/
theorem reserved : m'.cache.record? r.path = some ⟨r.id, r.path, r.placeholder, .resolving⟩ :=
  h.kept _ _ (by simp [record?_reserve])

include hn h in
/-- A module that was not on record is reserved, and later on something else befalls it: the
    records of other places are those in between. -/
theorem finish {a : Action} {m'' : Modules} (ha : a.subject? = some r.path)
    (hj : m''.journal = ⟨a, m''.cache⟩ :: m'.journal) (hr : m''.resolver = m'.resolver)
    (hf : m''.files = m'.files) (hc : m''.cache.contexts = m'.cache.contexts)
    (ho : ∀ p : Path, p.components ≠ r.path.components →
      m''.cache.record? p = m'.cache.record? p)
    (hp : ∀ p record, p.components = r.path.components → m''.cache.record? p = some record →
      record.state = .loaded ∧ a = .committed r.path) :
    Grows noPlace m m'' where
  resolver := hr.trans h.resolver
  files := hf.trans h.files
  contexts := hc.trans h.contexts
  kept p record hm := by
    have hne : p.components ≠ r.path.components := by
      intro he
      rw [m.cache.record?_congr he, hn] at hm
      cases hm
    rw [ho p hne]
    exact h.kept p record (by rw [record?_reserve, if_neg hne, hm])
  news := by
    obtain ⟨news, hjn, hb, hadd⟩ := h.news
    have hplace {p : Path} (he : p.components = r.path.components) : m.cache.record? p = none := by
      rw [m.cache.record?_congr he, hn]
    have hown {b : Action} (hb : b.subject? = some r.path) {p : Path}
        (hp : b.Befalls p.components) : m.cache.record? p = none := by
      obtain ⟨q, hq, hqp⟩ := hp
      rw [hb] at hq
      cases hq
      exact hplace hqp.symm
    refine ⟨⟨a, m''.cache⟩ :: news ++ [⟨.reserved r.path, (m.reserve r).cache⟩], ?_, ?_, ?_⟩
    · rw [hj, hjn]
      exact congrArg (_ :: ·) (List.append_assoc news [_] m.journal).symm
    · intro e he p hpe
      refine .inr ?_
      rcases List.mem_append.1 he with he | he
      · rcases List.mem_cons.1 he with rfl | he
        · exact hown ha hpe
        · rcases hb e he p hpe with hpl | hnone
          · exact hplace hpl
          · by_contra hsome
            rw [record?_reserve] at hnone
            split at hnone
            · cases hnone
            · exact hsome hnone
      · obtain rfl := List.mem_singleton.1 he
        exact hown rfl hpe
    · intro p record hmn hm''
      by_cases he : p.components = r.path.components
      · obtain ⟨hs, rfl⟩ := hp p record he hm''
        exact ⟨hs, ⟨_, m''.cache⟩, List.mem_cons_self, r.path, rfl, he.symm⟩
      · rw [ho p he] at hm''
        obtain ⟨hs, e, hen, hq⟩ := hadd p record (by rw [record?_reserve, if_neg he, hmn]) hm''
        exact ⟨hs, e, List.mem_cons_of_mem _ (List.mem_append_left _ hen), hq⟩

include hn h in
theorem commit (v : Value) : Grows noPlace m (m'.commit r v) := by
  have hc (p : Path) := (m'.cache.record?_commit_of_resolving p v h.reserved rfl).2
  refine finish hn h (a := .committed r.path) rfl rfl rfl rfl (Cache.contexts_commit ..) ?_ ?_
  · intro p hp
    exact (hc p).trans (if_neg hp)
  · intro p record hp hr
    have hr' := (hc p).symm.trans hr
    rw [if_pos hp] at hr'
    cases hr'
    exact ⟨rfl, rfl⟩

include hn h in
theorem abandon : Grows noPlace m (m'.abandon r) := by
  have hc (p : Path) := m'.cache.record?_abandon_of_resolving p h.reserved rfl
  refine finish hn h (a := .abandoned r.path) rfl rfl rfl rfl (Cache.contexts_abandon ..) ?_ ?_
  · intro p hp
    exact (hc p).trans (if_neg hp)
  · intro p record hp hr
    have hr' := (hc p).symm.trans hr
    rw [if_pos hp] at hr'
    cases hr'

end

/-- The script of a module begins and is left. -/
theorem leave {r : Reservation} (h : Grows noPlace (m.enter r) m') :
    Grows (· = r.path.components) m (m'.leave m.cache.contextDepth) where
  resolver := h.resolver
  files := h.files
  contexts := Cache.contexts_truncate m.cache _ h.contexts
  kept := h.kept
  news := by
    obtain ⟨news, hj, hb, ha⟩ := h.news
    refine ⟨news ++ [⟨.entered r.path, (m.enter r).cache⟩], ?_, ?_, ?_⟩
    · rw [List.append_assoc]
      exact hj
    · intro e he p hp
      rcases List.mem_append.1 he with he | he
      · exact .inr ((hb e he p hp).resolve_left id)
      · obtain rfl := List.mem_singleton.1 he
        obtain ⟨q, hq, hqp⟩ := hp
        cases hq
        exact .inl hqp.symm
    · intro p record hn hr
      obtain ⟨hs, e, he, hq⟩ := ha p record hn hr
      exact ⟨hs, e, List.mem_append_left _ he, hq⟩

end Grows

/-! ## Evaluators -/

theorem modular_grows : Modular fun _ w w' => Grows noPlace w.modules w'.modules where
  idle h := h ▸ Grows.refl _ _
  trans := Grows.trans
  tidy h h' := h' ▸ h

/-- **Whatever an evaluator does, the modules only grow.** -/
theorem evaluator_grows (n : Nat) : (evaluator n).Obeys
    (fun _ w w' => Grows noPlace w.modules w'.modules)
    fun r _ w w' => Grows (· = r.path.components) w.modules w'.modules := by
  refine .evaluator modular_grows ?_ ?_ ?_ n
  · intro n hm id w o w' h
    rcases ends_requireStep.1 h with ⟨v, -, -, rfl⟩ | ⟨-, ⟨e, he, -⟩ | ⟨path, hp, h⟩⟩
    · exact .noted rfl
    · obtain ⟨-, rfl⟩ := ends_resolve.1 he
      exact .refl _ _
    · rcases h with ⟨e, he, -⟩ | ⟨v, u, hu, -, rfl⟩
      · exact hm.load id path he
      · exact (hm.load id path hu).trans (.remember _ _ _)
  · intro n hm id path w o w' h
    rcases ends_loadStep.1 h with ⟨record, -, -, rfl⟩ | ⟨hn, ⟨_, -, -, rfl⟩ | ⟨text, r, v, -, hr, h⟩⟩
    · exact .noted rfl
    · exact .refl _ _
    · obtain ⟨hr', rfl⟩ := ends_reserve.1 hr
      cases hr'
      have hn' : w.modules.cache.record? (w.reservation id path).path = none := hn
      rcases ends_loadReserved.1 h with ⟨e, u, hu, -, rfl⟩ | ⟨a, u, hu, -, rfl⟩
      · exact .abandon hn' (hm.body _ _ hu)
      · exact .commit hn' (hm.body _ _ hu) a
  · intro n hm r text w o w' h
    rcases modules_runModuleStep h with
      ⟨e, -, -, rfl⟩ | ⟨body, args, u, c, v, -, hu, hc, -, hw'⟩
    · exact .refl _ _
    · have hg : Grows noPlace u.modules v.modules :=
        hm.callScript modular_grows moduleParams body u.globals args hc
      rw [hu] at hg
      rw [hw']
      exact hg.leave

end Requisite.Machine
