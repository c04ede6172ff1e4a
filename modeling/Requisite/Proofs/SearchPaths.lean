/-
  When a host changes the search directories.

  The index keeps no account of them.  An identifier that was required before is
  required as what it was then, wherever it leads by now; one that the index does
  not know, and one that the changes do not lead elsewhere, is required as what
  `resolve` says.

  * `Searches`: the calls of a host that changes the search directories, with the
    resolvers on the way;
  * `Searches.remembered`: where the index says that an identifier leads, it led
    on the way;
  * `require_follows_paths`: what is required is on record where the identifier
    led on the way, and where it leads if the index cannot say otherwise;
  * `require_forgets_paths`: otherwise it may be on record elsewhere.
-/
import Requisite.Proofs.Relative
import Requisite.Proofs.Unindexed

namespace Requisite.Loader

open Requisite Requisite.Script

/-- A finished module is on record with the exports that are given. -/
theorem Cache.exists_record?_finish (c : Cache) (id : String) (p : Path) (v : Value) :
    ∃ r, (c.finish id p v).2.record? p = some r ∧ r.exports = (c.finish id p v).1 := by
  unfold Cache.finish
  split
  · exact ⟨_, (c.record?_setRecord p p _).trans (if_pos rfl), rfl⟩
  · next r hr =>
    split
    · exact ⟨r, hr, rfl⟩
    · exact ⟨_, (c.record?_setRecord p p _).trans (if_pos rfl), rfl⟩

/-- A change of the search directories. -/
inductive PathChange where
  | add (p : Path)
  | set (paths : List Path)

/-- The resolver after a change. -/
def PathChange.apply : PathChange → Resolver → Resolver
  | .add p, r => r.addPath p
  | .set paths, r => r.setPaths paths

end Requisite.Loader

namespace Requisite.Machine

open Requisite Requisite.Source Requisite.Script Requisite.Loader

open Run

/-! ## What is on record after a `require` -/

section
variable {n : Nat} {id : String} {v : Value} {w w' : World}

/-- What is loaded from a file is on record there. -/
theorem exists_record?_of_ends_load {path : Path} (h : (load n id path).Ends w (.ok v) w') :
    ∃ r, w'.modules.cache.record? path = some r ∧ r.exports = v := by
  cases n with
  | zero => exact absurd h not_ends_outOfFuel
  | succ n =>
    rcases ends_loadStep.1 h with ⟨r, hr, hv, rfl⟩ | ⟨-, ⟨_, -, he, -⟩ | ⟨text, r, u, -, hr, h⟩⟩
    · cases hv
      exact ⟨r, hr, rfl⟩
    · cases he
    · obtain ⟨hr, -⟩ := ends_reserve.1 hr
      cases hr
      rcases ends_loadReserved.1 h with ⟨_, _, -, he, -⟩ | ⟨a, u, -, hv, rfl⟩
      · cases he
      · cases hv
        exact u.modules.cache.exists_record?_finish _ _ a

/-- What is required is on record: where the index says that the identifier leads, or, if the
    index does not say, where it does lead. -/
theorem exists_record?_of_ends_require (h : (require n id).Ends w (.ok v) w') :
    ∃ p r, w'.modules.cache.record? p = some r ∧ r.exports = v ∧
      (w.modules.cache.index.get? (w.modules.base.components, id) = some p ∧
          w.modules.cache.lookup w.modules.base id = some v ∨
        w.modules.cache.lookup w.modules.base id = none ∧
          w.modules.resolver.resolve w.modules.files id w.modules.cache.currentContext = .ok p) := by
  cases n with
  | zero => exact absurd h not_ends_outOfFuel
  | succ n =>
    rcases ends_requireStep.1 h with ⟨_, hl, hv, rfl⟩ | ⟨hl, ⟨_, -, he⟩ | ⟨p, hp, h⟩⟩
    · cases hv
      obtain ⟨p, r, hp, hr, -, hv⟩ := (Cache.lookup_eq_some_iff _).1 hl
      exact ⟨p, r, hr, hv, .inl ⟨hp, hl⟩⟩
    · cases he
    · rcases h with ⟨_, -, he⟩ | ⟨_, u, hu, hv, rfl⟩
      · cases he
      · cases hv
        obtain ⟨r, hr, hv⟩ := exists_record?_of_ends_load hu
        exact ⟨p, r, hr, hv, .inr ⟨hl, (ends_resolve.1 hp).1.symm⟩⟩

end

/-! ## The calls of a host -/

/-- A call of a host is steady. -/
theorem HostCall.Gives.steady {n : Nat} {call : HostCall} {answer : Answer} {w w' : World}
    (h : call.Gives (evaluator n) w answer w') (hn : w.modules.cache.index.keys.Nodup) :
    Steady w.modules w'.modules := by
  cases h with
  | @require id _ _ _ hx => exact (evaluator_steady n).require id hx
  | resolve hx =>
    obtain ⟨-, rfl⟩ := ends_resolve.1 hx
    exact .of_index rfl rfl rfl
  | @put id p v _ => exact .of_index rfl rfl (Cache.index_put w.modules.cache p id v)
  | @delete p _ =>
    exact ⟨rfl, rfl, fun _ _ _ hp => .inl (Cache.get?_index_delete _ p hn hp),
      fun _ => Cache.nodup_index_delete _ p hn⟩
  | clear =>
    refine ⟨rfl, rfl, fun dir id p hp => ?_, fun _ => .nil⟩
    cases hp
  | @run source _ _ _ hx => exact keeps_evalText modular_steady (evaluator_steady n).exec source hx
  | @call f args _ _ _ hx => exact (evaluator_steady n).call f args hx
  | edit => exact .of_index rfl rfl rfl

/-- The calls of a host that changes the search directories, too, from `start` to another world;
    with the resolvers on the way, the latest first. -/
inductive Searches (start : World) : List Resolver → World → Prop
  | begun : Searches start [start.modules.resolver] start
  | called {n : Nat} {call : HostCall} {answer : Answer} {resolvers w w'} :
      Searches start resolvers w → call.Gives (evaluator n) w answer w' → Searches start resolvers w'
  | changed {resolvers w} (change : PathChange) : Searches start resolvers w →
      Searches start (change.apply w.modules.resolver :: resolvers) (w.modifyResolver change.apply)

namespace Searches

variable {files : FileSystem} {start w : World} {resolvers : List Resolver}
  (hstart : Hosted files (fun _ => True) start) (h : Searches start resolvers w)
include hstart h

theorem hosted : Hosted files (fun _ => True) w := by
  induction h with
  | begun => exact hstart
  | called _ hc ih => exact hc.hosted ih
  | changed _ _ ih => exact .elsewhere ih rfl rfl trivial

theorem resolver_mem : w.modules.resolver ∈ resolvers := by
  induction h with
  | begun => exact List.mem_singleton_self _
  | called h hc ih =>
    rw [(hc.steady (h.hosted hstart).atRest.nodup).resolver]
    exact ih
  | changed _ _ _ => exact List.mem_cons_self

/-- The resolvers differ in the search directories only. -/
theorem searchesFrom : ∀ r ∈ resolvers, SearchesFrom start.modules.resolver r := by
  induction h with
  | begun => exact fun r hr => List.mem_singleton.1 hr ▸ ⟨_, rfl⟩
  | called _ _ ih => exact ih
  | changed change h ih =>
    refine List.forall_mem_cons.2 ⟨?_, ih⟩
    obtain ⟨_, hr⟩ := ih _ (h.resolver_mem hstart)
    rw [hr]
    cases change <;> exact ⟨_, rfl⟩

/-- Between the calls of the host identifiers are seen from the directory that they all work in. -/
theorem base_eq : w.modules.base = start.modules.base ∧
    ∀ r ∈ resolvers, r.cwd = start.modules.base := by
  have hbase {m : Modules} (hm : AtRest files (fun _ => True) m) : m.base = m.resolver.cwd := by
    rw [Modules.base, Cache.currentContext, hm.contexts, List.head?_nil, Option.getD_none]
  have hcwd : ∀ r ∈ resolvers, r.cwd = start.modules.base := by
    intro r hr
    obtain ⟨_, rfl⟩ := h.searchesFrom hstart r hr
    exact (hbase hstart.atRest).symm
  exact ⟨(hbase (h.hosted hstart).atRest).trans (hcwd _ (h.resolver_mem hstart)), hcwd⟩

/-- Where the search directories do not matter, they lead nowhere else. -/
theorem resolve_anchored {id : String} {context : Option Path}
    (hid : (Path.isRelativeIdentifier id || (Path.mk id).isAbsolute) = true) {r : Resolver}
    (hr : r ∈ resolvers) :
    w.modules.resolver.resolve files id context = r.resolve files id context := by
  obtain ⟨paths, hw⟩ := h.searchesFrom hstart _ (h.resolver_mem hstart)
  obtain ⟨paths', rfl⟩ := h.searchesFrom hstart r hr
  rw [hw, Resolver.resolve_anchored _ paths _ _ hid, Resolver.resolve_anchored _ paths' _ _ hid]

/-- Where the index says that an identifier leads, it led on the way, unless the index said so at
    the start. -/
theorem remembered {dir : Path} {id : String}
    (hnew : start.modules.cache.index.get? (dir.components, id) = none) {p : Path}
    (hp : w.modules.cache.index.get? (dir.components, id) = some p) :
    ∃ r ∈ resolvers, r.resolve files id (some dir) = .ok p := by
  induction h with
  | begun =>
    rw [hnew] at hp
    cases hp
  | called h hc ih =>
    have hu := (h.hosted hstart).atRest
    rcases (hc.steady hu.nodup).entries dir id p hp with hp | hp
    · exact ih hp
    · rw [hu.files_eq] at hp
      exact ⟨_, h.resolver_mem hstart, hp⟩
  | changed _ _ ih =>
    obtain ⟨r, hr, hrp⟩ := ih hp
    exact ⟨r, List.mem_cons_of_mem _ hr, hrp⟩

end Searches

/-! ## What is required -/

/-- **A `require` follows the search directories as far as the index lets it.**  A host may change
    the search directories between its calls, and the index has nothing on an identifier at the
    start.  Whatever is required of it is on record at a path that it led to on the way.  It is the
    path that `resolve` gives at that moment if the search directories do not matter for the
    identifier, if the index does not answer, or if the identifier led to no other path on the
    way. -/
theorem require_follows_paths {files : FileSystem} {start w w' : World} {resolvers : List Resolver}
    {n : Nat} {id : String} {v : Value} (hstart : Hosted files (fun _ => True) start)
    (hnew : start.modules.cache.index.get? (start.modules.base.components, id) = none)
    (h : Searches start resolvers w) (hrequire : (require n id).Ends w (.ok v) w') :
    ∃ p r, w'.modules.cache.record? p = some r ∧ r.exports = v ∧
      (∃ s ∈ resolvers, s.resolve files id none = .ok p) ∧
      ((Path.isRelativeIdentifier id || (Path.mk id).isAbsolute) = true ∨
        w.modules.cache.lookup w.modules.base id = none ∨
        (∀ s ∈ resolvers, ∀ q, s.resolve files id none = .ok q →
          w.modules.resolver.resolve files id none = .ok q) →
        (resolve id).Ends w' (.ok p) w') := by
  have hfiles := (h.hosted hstart).atRest.files_eq
  have hcontext : w.modules.cache.currentContext = none := by
    rw [Cache.currentContext, (h.hosted hstart).atRest.contexts, List.head?_nil]
  have hgrows := (evaluator_grows n).require id hrequire
  have hresolve {p : Path} (hp : w.modules.resolver.resolve files id none = .ok p) :
      (resolve id).Ends w' (.ok p) w' := by
    rw [ends_resolve, hgrows.resolve_eq, hfiles, hcontext]
    exact ⟨hp.symm, rfl⟩
  obtain ⟨p, r, hr, hv, hp⟩ := exists_record?_of_ends_require hrequire
  refine ⟨p, r, hr, hv, ?_⟩
  rw [hfiles, hcontext] at hp
  rcases hp with ⟨hindex, hlookup⟩ | ⟨-, hp⟩
  · rw [(h.base_eq hstart).1] at hindex
    obtain ⟨s, hs, hsp⟩ := h.remembered hstart hnew hindex
    have hsp : s.resolve files id none = .ok p := by
      rw [← hsp]
      refine Resolver.resolve_congr _ _ _ (congrArg Path.components ?_)
      exact (h.base_eq hstart).2 s hs
    refine ⟨⟨s, hs, hsp⟩, ?_⟩
    rintro (hid | hnone | hled)
    · exact hresolve ((h.resolve_anchored hstart hid hs).trans hsp)
    · rw [hlookup] at hnone
      cases hnone
    · exact hresolve (hled s hs p hsp)
  · exact ⟨⟨_, h.resolver_mem hstart, hp⟩, fun _ => hresolve hp⟩

/-! ## Namesakes -/

/-- Two modules of one name, in the directories `/a` and `/b`. -/
def namesakes : FileSystem := (Memory.ofTexts
  [("/a/m.js", "module.exports = 'a'"), ("/b/m.js", "module.exports = 'b'")]).toFileSystem

/-- A fresh loader with these files. -/
def World.withNamesakes : World := World.bare.withLoader .atRoot namesakes

/-- The world after the host has made a directory the only search directory. -/
def World.searching (w : World) (dir : String) : World :=
  w.modifyResolver (PathChange.set [⟨dir⟩]).apply

/-- The world after the host has searched `/a` and has required `m`. -/
def World.namesakeRequired : World :=
  ((require 8 "m").result (World.withNamesakes.searching "/a")).2

theorem ends_require_namesake : (require 8 "m").Ends (World.withNamesakes.searching "/a")
    (.ok (.string "a")) .namesakeRequired := by
  refine ends_of_toOption ?_
  decide +kernel

/-- A host searches `/a`, requires `m`, searches `/b` instead and requires `m` again.  It gets the
    module in `/a` both times, although `resolve` now gives the path of the other one, which is
    not on record. -/
theorem require_forgets_paths : ∃ u w,
    (require 8 "m").Ends (World.withNamesakes.searching "/a") (.ok (.string "a")) u ∧
    (require 8 "m").Ends (u.searching "/b") (.ok (.string "a")) w ∧
    (resolve "m").Ends w (.ok ⟨"/b/m.js"⟩) w ∧ w.modules.cache.record? ⟨"/b/m.js"⟩ = none := by
  have hl : (World.namesakeRequired.searching "/b").modules.cache.lookup
      (World.namesakeRequired.searching "/b").modules.base "m" = some (.string "a") := by
    decide +kernel
  have hp : ((resolve "m").result (World.namesakeRequired.searching "/b")).1.toOption =
      some ⟨"/b/m.js"⟩ := by decide +kernel
  have hn : (World.namesakeRequired.searching "/b").modules.cache.record? ⟨"/b/m.js"⟩ = none := by
    decide +kernel
  have hagain := (ends_requireStep_of_lookup (m := evaluator 7) hl).2 ⟨rfl, rfl⟩
  refine ⟨_, _, ends_require_namesake, hagain, ?_, hn⟩
  exact ends_resolve.2 ⟨(ends_resolve.1 (ends_of_toOption hp)).1, rfl⟩

/-- The first time, the index does not answer. -/
theorem require_follows_paths_namesake : ∃ p r,
    World.namesakeRequired.modules.cache.record? p = some r ∧ r.exports = .string "a" ∧
      (resolve "m").Ends .namesakeRequired (.ok p) .namesakeRequired := by
  have hstart : Hosted namesakes (fun _ => True) .withNamesakes := .fresh rfl rfl trivial
  have hsearches : Searches .withNamesakes _ (World.withNamesakes.searching "/a") :=
    .changed _ .begun
  obtain ⟨p, r, hr, hv, -, hresolve⟩ :=
    require_follows_paths hstart rfl hsearches ends_require_namesake
  exact ⟨p, r, hr, hv, hresolve (.inr (.inl rfl))⟩

end Requisite.Machine
