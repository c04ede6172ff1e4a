/-
  What the index remembers.

  While the resolver stays as it is, the index never tells of an identifier
  anything but where it leads.

  * `Modules.Indexed`, `Modules.IndexedOn`: this, as a property of the modules,
    for all identifiers or for some;
  * `evaluator_steady`: whatever an evaluator does, it is kept;
  * `Running.indexed`: so it holds at every moment of a run.
-/
import Requisite.Proofs.Running

namespace Requisite.Machine

open Requisite Requisite.Source Requisite.Script Requisite.Loader

open Run

/-- What the index remembers of an identifier is where it leads. -/
def Modules.Indexed (m : Modules) : Prop :=
  ∀ (dir : Path) (id : String) (p : Path), m.cache.index.get? (dir.components, id) = some p →
    m.resolver.resolve m.files id (some dir) = .ok p

/-- The same for the identifiers of `q` only. -/
def Modules.IndexedOn (q : String → Prop) (m : Modules) : Prop :=
  ∀ (dir : Path) (id : String) (p : Path), q id →
    m.cache.index.get? (dir.components, id) = some p →
    m.resolver.resolve m.files id (some dir) = .ok p

theorem Modules.indexedOn_true {m : Modules} : m.IndexedOn (fun _ => True) ↔ m.Indexed :=
  ⟨fun h dir id p => h dir id p trivial, fun h dir id p _ => h dir id p⟩

/-- An identifier leads to the same file from the context and from the directory that stands for
    it in the index. -/
theorem Modules.resolve_base (m : Modules) (id : String) :
    m.resolver.resolve m.files id (some m.base) =
      m.resolver.resolve m.files id m.cache.currentContext :=
  Resolver.resolve_congr _ _ _ rfl

/-- Where the index has the exports of a module, the identifier leads to that module. -/
theorem Modules.IndexedOn.of_lookup {q : String → Prop} {m : Modules} (hi : m.IndexedOn q)
    {id : String} (hq : q id) {v : Value} (hl : m.cache.lookup m.base id = some v) : ∃ p r,
      m.cache.index.get? (m.base.components, id) = some p ∧
      m.resolver.resolve m.files id m.cache.currentContext = .ok p ∧
      m.cache.record? p = some r ∧ r.state = .loaded ∧ r.exports = v := by
  obtain ⟨p, r, hp, hr, hs, hv⟩ := (Cache.lookup_eq_some_iff _).1 hl
  refine ⟨p, r, hp, ?_, hr, hs, hv⟩
  rw [← m.resolve_base]
  exact hi m.base id p hq hp

/-- From `m` to `m'` identifiers lead where they led, and what the index tells it told before, or
    it is right. -/
structure Steady (m m' : Modules) : Prop where
  resolver : m'.resolver = m.resolver
  files : m'.files = m.files
  entries (dir : Path) (id : String) (p : Path) :
    m'.cache.index.get? (dir.components, id) = some p →
      m.cache.index.get? (dir.components, id) = some p ∨
        m.resolver.resolve m.files id (some dir) = .ok p
  nodup : m.cache.index.keys.Nodup → m'.cache.index.keys.Nodup

namespace Steady

variable {m m' m'' : Modules}

theorem of_index (hr : m'.resolver = m.resolver) (hf : m'.files = m.files)
    (hi : m'.cache.index = m.cache.index) : Steady m m' :=
  ⟨hr, hf, fun _ _ _ hp => .inl (hi ▸ hp), fun h => hi ▸ h⟩

theorem trans (h₁ : Steady m m') (h₂ : Steady m' m'') : Steady m m'' where
  resolver := h₂.resolver.trans h₁.resolver
  files := h₂.files.trans h₁.files
  entries dir id p hp := by
    rcases h₂.entries dir id p hp with hp | hp
    · exact h₁.entries dir id p hp
    · rw [h₁.resolver, h₁.files] at hp
      exact .inr hp
  nodup h := h₂.nodup (h₁.nodup h)

/-- The index still tells where identifiers lead. -/
theorem indexedOn {q : String → Prop} (h : Steady m m') (hi : m.IndexedOn q) : m'.IndexedOn q := by
  intro dir id p hq hp
  rw [h.resolver, h.files]
  rcases h.entries dir id p hp with hp | hp
  · exact hi dir id p hq hp
  · exact hp

theorem indexed (h : Steady m m') (hi : m.Indexed) : m'.Indexed :=
  Modules.indexedOn_true.1 (h.indexedOn (Modules.indexedOn_true.2 hi))

theorem reserve (m : Modules) (r : Reservation) : Steady m (m.reserve r) :=
  .of_index rfl rfl (Cache.index_reserve _ r)

theorem enter (m : Modules) (r : Reservation) : Steady m (m.enter r) := .of_index rfl rfl rfl

theorem remember {dir path : Path} {id : String}
    (h : m.resolver.resolve m.files id (some dir) = .ok path) :
    Steady m (m.remember dir id path) := by
  refine ⟨rfl, rfl, fun dir' id' p hp => ?_, OrderedMap.nodup_keys_set _ _ _⟩
  have hset := OrderedMap.get?_set m.cache.index (dir.components, id) (dir'.components, id') path
  rw [show (m.remember dir id path).cache.index = m.cache.index.set (dir.components, id) path from rfl,
    hset] at hp
  split at hp
  · next hk =>
    obtain ⟨hd, rfl⟩ := Prod.mk.inj hk
    cases hp
    have hc : m.resolver.resolve m.files id' (some dir') =
        m.resolver.resolve m.files id' (some dir) := Resolver.resolve_congr _ _ _ hd
    exact .inr (hc.trans h)
  · exact .inl hp

end Steady

theorem modular_steady : Modular fun _ w w' => Steady w.modules w'.modules where
  idle h := h ▸ .of_index rfl rfl rfl
  trans := Steady.trans
  tidy h h' := h' ▸ h

/-- **Whatever an evaluator does, the index tells where identifiers lead.** -/
theorem evaluator_steady (n : Nat) : (evaluator n).Obeys
    (fun _ w w' => Steady w.modules w'.modules) fun _ _ w w' => Steady w.modules w'.modules := by
  refine .evaluator modular_steady ?_ ?_ ?_ n
  · intro n hm id w o w' h
    rcases ends_requireStep.1 h with ⟨v, -, -, rfl⟩ | ⟨-, ⟨e, he, -⟩ | ⟨path, hp, h⟩⟩
    · exact .of_index rfl rfl rfl
    · obtain ⟨-, rfl⟩ := ends_resolve.1 he
      exact .of_index rfl rfl rfl
    · rcases h with ⟨e, he, -⟩ | ⟨v, u, hu, -, rfl⟩
      · exact hm.load id path he
      · have hs := hm.load id path hu
        refine hs.trans (.remember ?_)
        rw [hs.resolver, hs.files, w.modules.resolve_base]
        exact (ends_resolve.1 hp).1.symm
  · intro n hm id path w o w' h
    rcases ends_loadStep.1 h with ⟨record, -, -, rfl⟩ | ⟨hn, ⟨_, -, -, rfl⟩ | ⟨text, r, v, -, hr, h⟩⟩
    · exact .of_index rfl rfl rfl
    · exact .of_index rfl rfl rfl
    · obtain ⟨-, rfl⟩ := ends_reserve.1 hr
      have hres := Steady.reserve w.modules (w.reservation id path)
      rcases ends_loadReserved.1 h with ⟨e, u, hu, -, rfl⟩ | ⟨a, u, hu, -, rfl⟩
      · exact (hres.trans (hm.body _ _ hu)).trans (.of_index rfl rfl (Cache.index_abandon _ _))
      · exact (hres.trans (hm.body _ _ hu)).trans (.of_index rfl rfl (Cache.index_commit _ _ _))
  · intro n hm r text w o w' h
    rcases modules_runModuleStep h with
      ⟨e, -, -, rfl⟩ | ⟨body, args, u, c, v, -, hu, hc, -, hw'⟩
    · exact .of_index rfl rfl rfl
    · have hs : Steady u.modules v.modules :=
        hm.callScript modular_steady moduleParams body u.globals args hc
      rw [hu] at hs
      rw [hw']
      exact ((Steady.enter _ r).trans hs).trans (.of_index rfl rfl rfl)

/-! ## Runs -/

variable {files : FileSystem} {resolver : Resolver}

theorem Reached.indexed {w : World} (h : Reached files (· = resolver) w) : w.modules.Indexed := by
  induction h with
  | fresh _ hc _ _ =>
    intro dir id p hp
    rw [hc] at hp
    cases hp
  | @elsewhere w w' h hf hc _ ha ih =>
    have hr : w'.modules.resolver = w.modules.resolver := ha.trans h.quiet.allowed.symm
    exact (Steady.of_index hr hf (by rw [hc])).indexed ih
  | @called w w' n j ok _ hj hf ih => exact ((evaluator_steady n).toKeeps.finishes hj hf).indexed ih

/-- What is asked for begins with an index that is steady since the one that asks began. -/
theorem Asked.steady {n : Nat} {j k : Job} {w v : World} (ha : Asked n w v j k) :
    Steady w.modules v.modules := by
  cases ha with
  | script _ _ hkeep => exact hkeep _ modular_steady (evaluator_steady n).toKeeps
  | load hv _ =>
    subst hv
    exact .of_index rfl rfl rfl
  | body _ _ hv =>
    rw [hv]
    exact .reserve _ _
  | @statement r text k u _ hu hkeep =>
    have hs := hkeep _ modular_steady (evaluator_steady n).toKeeps
    rw [hu] at hs
    exact (Steady.enter _ r).trans hs

/-- **At every moment of a run the index tells where identifiers lead.** -/
theorem Running.indexed {n : Nat} {j : Job} {w : World} {frames : List (Job × World)}
    (h : Running files (· = resolver) n ((j, w) :: frames)) : w.modules.Indexed :=
  h.holds (P := fun _ w _ => w.modules.Indexed) (fun hr _ => hr.indexed) fun hi ha => ha.steady.indexed hi

end Requisite.Machine
