/-
  Loads within loads.

  * `length_atWork_le`: there are never more modules at work than files;
  * `loads_nest`: what is on record and on the context stack at every moment of
    a run, however deep, cyclic or failing.
-/
import Mathlib.Data.Finset.Card
import Mathlib.Data.Finset.Dedup
import Requisite.Proofs.Running

namespace Requisite.Machine

open Requisite Requisite.Source Requisite.Script Requisite.Loader

variable {files : FileSystem} {allowed : Resolver → Prop}

/-- No module is at work twice, and each is a file: so there are no more of them than files. -/
theorem Orderly.length_atWork_le {j : Job} {w : World} {frames : List (Job × World)}
    (h : Orderly files allowed j w frames) {places : Finset (List Component)}
    (hp : ∀ p, files.isFile p → p.components ∈ places) :
    (atWork ((j, w) :: frames)).length ≤ places.card := by
  have hsub : ((atWork ((j, w) :: frames)).map Path.components).toFinset ⊆ places := by
    intro place hm
    obtain ⟨p, hpw, rfl⟩ := List.mem_map.1 (List.mem_toFinset.1 hm)
    exact hp p (h.isFile p hpw)
  calc (atWork ((j, w) :: frames)).length
      = ((atWork ((j, w) :: frames)).map Path.components).length := (List.length_map ..).symm
    _ = ((atWork ((j, w) :: frames)).map Path.components).toFinset.card :=
        (List.toFinset_card_of_nodup h.nodup).symm
    _ ≤ places.card := Finset.card_le_card hsub

/-- **Loads nest.**  Between the calls of a host no module is at work, and there are no contexts.
    Within a call, the modules on record as being at work are those that are reserved and not
    finished, none of them twice; the contexts are the directories of the modules whose scripts
    run, the innermost first; and however a job ends, it leaves both as it found them.  So there
    are never more modules at work than files. -/
theorem loads_nest :
    (∀ w, Reached files allowed w →
      w.modules.cache.contexts = [] ∧ ∀ p, ¬w.modules.cache.Resolving p) ∧
    ∀ n j w frames, Running files allowed n ((j, w) :: frames) →
      (∀ p, w.modules.cache.Resolving p ↔
        ∃ q ∈ atWork ((j, w) :: frames), q.components = p.components) ∧
      ((atWork ((j, w) :: frames)).map Path.components).Nodup ∧
      w.modules.cache.contexts = (atWork frames).map Path.directory ∧
      (∀ ok w', (evaluator n).Finishes w ok w' j →
        w'.modules.cache.contexts = w.modules.cache.contexts ∧
        ∀ p, w'.modules.cache.Resolving p ↔ w.modules.cache.Resolving p) ∧
      ∀ places : Finset (List Component), (∀ p, files.isFile p → p.components ∈ places) →
        (atWork ((j, w) :: frames)).length ≤ places.card := by
  refine ⟨fun w h => ⟨h.quiet.contexts, h.quiet.resolving⟩, fun n j w frames h => ?_⟩
  have ho := h.orderly
  exact ⟨ho.resolving, ho.nodup, ho.contexts, fun ok w' hf => contexts_of_finishes hf,
    fun places hp => ho.length_atWork_le hp⟩

/-! ## A module that requires another -/

/-- `require('./b')` -/
def requireCall : Expr := .call (.name "require") [.string "./b"]

theorem ofText?_requireCall : Program.ofText? "require('./b')" = .ok [.expression requireCall] := by
  have h : Lexeme.ofText "require('./b')" =
      [⟨.identifier "require", ⟨0, 1⟩, ⟨7, 1⟩, false⟩,
        ⟨.symbol .leftParen, ⟨7, 1⟩, ⟨8, 1⟩, false⟩, ⟨.string "./b", ⟨8, 1⟩, ⟨13, 1⟩, false⟩,
        ⟨.symbol .rightParen, ⟨13, 1⟩, ⟨14, 1⟩, false⟩, ⟨.eof, ⟨14, 1⟩, ⟨14, 1⟩, false⟩] := by
    decide +kernel
  exact Program.ofText?_of_lexemes h rfl

/-- The world when that call, the script of the library, is about to run. -/
def World.inOuter : World := .libraryAt "require('./b')" requireCall

/-- The reservation of the module beside the library, and the world when its script is about to
    begin. -/
def innerReservation : Reservation := World.inOuter.reservation "./b" ⟨"/lib/b.js"⟩

def World.reservedInner : World :=
  { World.inOuter with
    heap := (World.inOuter.heap.newObject .empty).2
    modules := World.inOuter.modules.reserve innerReservation }

/-- It begins while the script of the library is open. -/
theorem running_inner (n : Nat) : ∃ frames,
    Running (libraryFiles "require('./b')") (fun _ => True) n
      ((.body innerReservation "", .reservedInner) :: frames) ∧ atWork frames = [⟨"/lib/a.js"⟩] := by
  have hname : ((evaluator (n + 3)).eval ⟨1⟩ (.name "require")).Ends .inOuter
      (.ok (.function ⟨6⟩)) .inOuter := ends_require_library _ _
  have hcall : Asks (evaluator (n + 3)) (.eval ⟨1⟩ requireCall) .inOuter
      (.call (.function ⟨6⟩) [.string "./b"]) .inOuter := .called hname rfl rfl
  have hnative : Asks (evaluator (n + 2)) (.call (.function ⟨6⟩) [.string "./b"]) .inOuter
      (.require "./b") .inOuter := .native rfl rfl rfl
  have hload : Asks (evaluator (n + 1)) (.require "./b") .inOuter (.load "./b" ⟨"/lib/b.js"⟩)
      .inOuter := .load rfl (ends_resolve.2 ⟨rfl, rfl⟩)
  have hbody : Asks (evaluator n) (.load "./b" ⟨"/lib/b.js"⟩) .inOuter (.body innerReservation "")
      .reservedInner := .body rfl rfl (ends_reserve.2 ⟨rfl, rfl⟩)
  have hstart : Running (libraryFiles "require('./b')") (fun _ => True) (n + 8)
      [(.require "./lib/a", .withLibrary "require('./b')")] :=
    .called (.fresh rfl rfl rfl trivial) rfl
  have houter := ((hstart.asked (asks_load_library _)).asked (asks_body_library _)).asked
    (asks_statement_library _ ofText?_requireCall)
  have hinner := ((houter.asked .expression).asked hcall).asked hnative
  exact ⟨_, (hinner.asked hload).asked hbody, rfl⟩

/-- The script of the inner module runs to its end. -/
theorem finishes_inner : ∃ w', (evaluator 2).Finishes .reservedInner true w'
    (.body innerReservation "") := by
  have h : (((evaluator 2).runModule innerReservation "").result .reservedInner).1.toOption.isSome := by
    decide +kernel
  obtain ⟨v, hv⟩ := Option.isSome_iff_exists.1 h
  exact ⟨_, .ok v, Run.ends_of_toOption hv, rfl⟩

/-- When a module requires another, both are at work, and the context is the directory of the one
    whose script runs; so it is when the script of the other has run. -/
theorem loads_nest_inner : ∃ w', (evaluator 2).Finishes .reservedInner true w'
      (.body innerReservation "") ∧
    (∀ p, ¬(World.withLibrary "require('./b')").modules.cache.Resolving p) ∧
    (∀ w ∈ [World.reservedInner, w'], w.modules.cache.Resolving ⟨"/lib/a.js"⟩ ∧
      w.modules.cache.Resolving ⟨"/lib/b.js"⟩ ∧ w.modules.cache.contexts = [⟨"/lib"⟩]) ∧
    2 ≤ ({[.root, .name "lib", .name "a.js"], [.root, .name "lib", .name "b.js"],
      [.root, .name "b.js"]} : Finset (List Component)).card := by
  have hfresh : Reached (libraryFiles "require('./b')") (fun _ => True)
      (.withLibrary "require('./b')") := .fresh rfl rfl rfl trivial
  obtain ⟨frames, hrun, hwork⟩ := running_inner 2
  obtain ⟨w', hends⟩ := finishes_inner
  obtain ⟨hres, -, hctx, hend, hcard⟩ := loads_nest.2 _ _ _ _ hrun
  rw [atWork_body, hwork] at hres hcard
  rw [hwork] at hctx
  have ha : World.reservedInner.modules.cache.Resolving ⟨"/lib/a.js"⟩ :=
    (hres _).2 ⟨⟨"/lib/a.js"⟩, by simp, rfl⟩
  have hb : World.reservedInner.modules.cache.Resolving ⟨"/lib/b.js"⟩ :=
    (hres _).2 ⟨⟨"/lib/b.js"⟩, List.mem_cons_self, rfl⟩
  obtain ⟨hctx', hres'⟩ := hend _ _ hends
  refine ⟨w', hends, (loads_nest.1 _ hfresh).2, ?_, hcard _ fun p hp => ?_⟩
  · simp only [List.forall_mem_cons]
    exact ⟨⟨ha, hb, hctx⟩, ⟨(hres' _).2 ha, (hres' _).2 hb, hctx'.trans hctx⟩, nofun⟩
  · have hfile := FileSystem.mem_of_isFile_ofTexts hp
    obtain ⟨text⟩ := p
    simp only [List.map_cons, List.map_nil, List.mem_cons, List.not_mem_nil, or_false] at hfile
    obtain rfl | rfl | rfl := hfile <;> decide +kernel

end Requisite.Machine
