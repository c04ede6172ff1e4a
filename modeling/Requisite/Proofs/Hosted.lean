/-
  Runs under a host that changes the cache.

  A host may also record modules itself, delete some, or clear them all.  The
  records are then no longer what the loader made of them; but the contexts are,
  and so is the index.

  * `Hosted`: the worlds that such a host finds between its calls;
  * `Opened start`: the jobs that are open in a call from a world of `start`;
  * `Opened.holds`: what jobs hand on to those that they ask for holds throughout;
  * `Opened.contexts_eq`: the contexts are the directories of the modules at work;
  * `Opened.indexedOn`: the index tells where identifiers lead, as far as the
    host leaves that alone.
-/
import Requisite.Proofs.Index

namespace Requisite.Machine

open Requisite Requisite.Source Requisite.Script Requisite.Loader

/-! ## Between the calls of a host -/

namespace Modules

/-- The modules after the host has recorded one. -/
def put (m : Modules) (id : String) (p : Path) (v : Value) : Modules :=
  m.withCache (m.cache.put id p v).2

/-- The modules after the host has deleted one. -/
def delete (m : Modules) (p : Path) : Modules := m.withCache (m.cache.delete p).2

/-- The modules after the host has deleted all. -/
def clear (m : Modules) : Modules := m.withCache m.cache.clear

end Modules

/-- The worlds between the calls of a host that may change the cache. -/
inductive Hosted (files : FileSystem) (allowed : Resolver → Prop) : World → Prop
  | fresh {w} : w.modules.files = files → w.modules.cache = .empty → allowed w.modules.resolver →
      Hosted files allowed w
  /-- the host changes something else, or the resolver -/
  | elsewhere {w w'} : Hosted files allowed w → w'.modules.files = w.modules.files →
      w'.modules.cache = w.modules.cache → allowed w'.modules.resolver → Hosted files allowed w'
  | put {w} (id p v) : Hosted files allowed w →
      Hosted files allowed (w.withModules (w.modules.put id p v))
  | delete {w} (p) : Hosted files allowed w →
      Hosted files allowed (w.withModules (w.modules.delete p))
  | clear {w} : Hosted files allowed w → Hosted files allowed (w.withModules w.modules.clear)
  | called {w w' n j ok} : Hosted files allowed w → j.isScript →
      (evaluator n).Finishes w ok w' j → Hosted files allowed w'

section
variable {files : FileSystem} {allowed : Resolver → Prop} {w : World}

/-- What holds of the modules between the calls of a host, whatever it did to the cache. -/
structure AtRest (files : FileSystem) (allowed : Resolver → Prop) (m : Modules) : Prop where
  files_eq : m.files = files
  allowed : allowed m.resolver
  contexts : m.cache.contexts = []
  nodup : m.cache.index.keys.Nodup

theorem Hosted.atRest (h : Hosted files allowed w) : AtRest files allowed w.modules := by
  induction h with
  | fresh hf hc ha => exact ⟨hf, ha, by rw [hc]; rfl, by rw [hc]; exact .nil⟩
  | elsewhere _ hf hc ha ih => exact ⟨hf.trans ih.files_eq, ha, hc ▸ ih.contexts, hc ▸ ih.nodup⟩
  | @put w id p v _ ih =>
    have hi : (w.modules.put id p v).cache.index = w.modules.cache.index := Cache.index_put _ p id v
    exact ⟨ih.files_eq, ih.allowed, (Cache.contexts_put _ p id v).trans ih.contexts,
      (congrArg (fun i => i.keys.Nodup) hi).mpr ih.nodup⟩
  | delete p _ ih => exact ⟨ih.files_eq, ih.allowed, ih.contexts, Cache.nodup_index_delete _ p ih.nodup⟩
  | clear _ ih => exact ⟨ih.files_eq, ih.allowed, ih.contexts, .nil⟩
  | @called w w' n j ok _ hj hf ih =>
    have hg := (evaluator_grows n).toKeeps.finishes hj hf
    have hs := (evaluator_steady n).toKeeps.finishes hj hf
    exact ⟨hg.files.trans ih.files_eq, hg.resolver ▸ ih.allowed, hg.contexts.trans ih.contexts,
      hs.nodup ih.nodup⟩

/-- A host that evaluates a text finds such a world again. -/
theorem Hosted.evalText {n : Nat} {source : String} {w' : World} {o : Except ScriptError Value}
    (h : Hosted files allowed w) (he : (evalText n source).Ends w o w') :
    Hosted files allowed w' := by
  have hR : Modular fun _ w w' => Hosted files allowed w → Hosted files allowed w' := by
    refine ⟨fun he hw => ?_, fun h₁ h₂ hw => h₂ (h₁ hw), fun hv he hw => ?_⟩
    · exact .elsewhere hw (by rw [he]) (by rw [he]) (he ▸ hw.atRest.allowed)
    · exact .elsewhere (hv hw) (by rw [he]) (by rw [he]) (he ▸ (hv hw).atRest.allowed)
  refine keeps_evalText hR (fun s vars stmt w o w' hx hw => ?_) source he h
  exact .called (j := .exec s vars stmt) hw rfl ⟨o, hx, rfl⟩

/-- The index tells where the identifiers of `q` lead if the host never changes that. -/
theorem Hosted.indexedOn {q : String → Prop}
    (hq : ∀ r r', allowed r → allowed r' → ∀ id, q id → ∀ fs context,
      r'.resolve fs id context = r.resolve fs id context)
    (h : Hosted files allowed w) : w.modules.IndexedOn q := by
  induction h with
  | fresh _ hc _ =>
    intro dir id p _ hp
    rw [hc] at hp
    cases hp
  | elsewhere h hf hc ha ih =>
    intro dir id p hid hp
    rw [hc] at hp
    rw [hf, hq _ _ h.atRest.allowed ha id hid]
    exact ih dir id p hid hp
  | @put w id p v _ ih =>
    intro dir id' p' hid hp
    have hi : (w.modules.put id p v).cache.index = w.modules.cache.index := Cache.index_put _ p id v
    exact ih dir id' p' hid (hi ▸ hp)
  | delete p h ih =>
    intro dir id p' hid hp
    exact ih dir id p' hid (Cache.get?_index_delete _ p h.atRest.nodup hp)
  | clear _ _ =>
    intro dir id p _ hp
    cases hp
  | @called w w' n j ok _ hj hf ih => exact ((evaluator_steady n).toKeeps.finishes hj hf).indexedOn ih

end

/-! ## Within a call -/

/-- The jobs that are open in a call from a world of `start`, the innermost first, each with the
    world where it began; the innermost may go at most `n` steps deep. -/
inductive Opened (start : World → Prop) : Nat → List (Job × World) → Prop
  | called {n j w} : start w → j.isScript → Opened start n [(j, w)]
  | asked {n j w k v frames} : Opened start (n + 1) ((j, w) :: frames) →
      Asks (evaluator n) j w k v → Opened start n ((k, v) :: (j, w) :: frames)

namespace Opened

variable {start : World → Prop} {n : Nat} {j : Job} {w : World} {frames : List (Job × World)}

/-- What holds where a host calls, and of a job that is asked for whenever it holds of the one that
    asks, holds at every moment of a call. -/
theorem holds {P : Job → World → List (Job × World) → Prop}
    (called : ∀ {j w}, start w → j.isScript → P j w [])
    (asked : ∀ {n j w k v frames}, P j w frames → Asked n w v j k → P k v ((j, w) :: frames))
    (h : Opened start n ((j, w) :: frames)) : P j w frames := by
  generalize hs : (j, w) :: frames = stack at h
  induction h generalizing j w frames with
  | called hr hj =>
    cases hs
    exact called hr hj
  | asked _ hask ih =>
    cases hs
    exact asked (ih rfl) hask.asked

variable {files : FileSystem} {allowed : Resolver → Prop}

theorem files_eq (h : Opened (Hosted files allowed) n ((j, w) :: frames)) :
    w.modules.files = files :=
  h.holds (P := fun _ w _ => w.modules.files = files) (fun hr _ => hr.atRest.files_eq)
    fun hf ha => ha.steady.files.trans hf

theorem allowed_resolver (h : Opened (Hosted files allowed) n ((j, w) :: frames)) :
    allowed w.modules.resolver :=
  h.holds (P := fun _ w _ => allowed w.modules.resolver) (fun hr _ => hr.atRest.allowed)
    fun hf ha => ha.steady.resolver ▸ hf

/-- The contexts are the directories of the modules whose scripts run, the innermost first. -/
theorem contexts_eq (h : Opened (Hosted files allowed) n ((j, w) :: frames)) :
    w.modules.cache.contexts = (atWork frames).map Path.directory := by
  refine h.holds (P := fun _ w frames => w.modules.cache.contexts =
    (atWork frames).map Path.directory) (fun hr _ => hr.atRest.contexts) fun {n j w k v frames} hc ha => ?_
  cases ha with
  | script hj _ hkeep =>
    have hg := hkeep _ modular_grows (evaluator_grows n).toKeeps
    rw [hg.contexts, hc, atWork_cons w frames (module?_of_isScript hj)]
  | load hv _ =>
    subst hv
    exact hc
  | body _ _ hv =>
    rw [hv]
    exact hc
  | statement _ hu hkeep =>
    have hg := hkeep _ modular_grows (evaluator_grows n).toKeeps
    rw [hu] at hg
    rw [hg.contexts]
    exact congrArg (_ :: ·) hc

theorem indexedOn {q : String → Prop}
    (hq : ∀ r r', allowed r → allowed r' → ∀ id, q id → ∀ fs context,
      r'.resolve fs id context = r.resolve fs id context)
    (h : Opened (Hosted files allowed) n ((j, w) :: frames)) : w.modules.IndexedOn q :=
  h.holds (P := fun _ w _ => w.modules.IndexedOn q) (fun hr _ => hr.indexedOn hq)
    fun hi ha => ha.steady.indexedOn hi

end Opened

end Requisite.Machine
