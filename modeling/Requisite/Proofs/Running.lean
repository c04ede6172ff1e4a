/-
  Whole runs of a loader.

  A host makes worlds and lets scripts run in them, and scripts require modules.
  A run is followed into its depth: what is open at a moment is a stack of jobs,
  each asked for by the one below it.

  * `Reached`: the worlds that a host finds between its calls;
  * `Running`: the jobs that are open, each with the world where it began;
  * `Reached.evalText`: a host that evaluates a text stays among these worlds;
  * `Running.holds`: what jobs hand on to those that they ask for holds throughout;
  * `atWork`: the modules that are reserved and not yet finished;
  * `Running.orderly`: what holds of all that is open at a moment;
  * `World.ofModule`, `World.withLibrary`: loaders with a module, whose load is
    followed job by job.

  The host may do all but touch the cache.  The file system answers the same at
  all times; of the resolver, `allowed` tells what the host may make of it.
-/
import Requisite.Machine.Host
import Requisite.Proofs.Search
import Requisite.Proofs.Soundness

namespace Requisite

/-- The directory that the module at a path sees identifiers from. -/
def Path.directory (p : Path) : Path := p.parent?.getD p

end Requisite

namespace Requisite.Machine

open Requisite Requisite.Source Requisite.Script Requisite.Loader

open Run

/-! ## Ends of jobs -/

/-- A job begun in `w` comes to an end in `w'`; `ok` tells whether it succeeds. -/
def Evaluator.Finishes (m : Evaluator) (w : World) (ok : Bool) (w' : World) : Job → Prop
  | .eval s e => ∃ o, (m.eval s e).Ends w o w' ∧ o.isOk = ok
  | .target s e => ∃ o, (m.evalTarget s e).Ends w o w' ∧ o.isOk = ok
  | .exec s vars stmt => ∃ o, (m.exec s vars stmt).Ends w o w' ∧ o.isOk = ok
  | .call f args => ∃ o, (m.call f args).Ends w o w' ∧ o.isOk = ok
  | .require id => ∃ o, (m.require id).Ends w o w' ∧ o.isOk = ok
  | .load id path => ∃ o, (m.load id path).Ends w o w' ∧ o.isOk = ok
  | .body r text => ∃ o, (m.runModule r text).Ends w o w' ∧ o.isOk = ok

/-- What an evaluator keeps holds between the beginning and the end of a script's job. -/
theorem Evaluator.Keeps.finishes {R : Bool → World → World → Prop} {m : Evaluator} (h : m.Keeps R)
    {j : Job} (hj : j.isScript) {w w' : World} {ok : Bool} (hf : m.Finishes w ok w' j) :
    R ok w w' := by
  cases j with
  | load | body => cases hj
  | eval | target | exec | call | require =>
    obtain ⟨o, ho, rfl⟩ := hf
    first
      | exact h.eval _ _ ho
      | exact h.target _ _ ho
      | exact h.exec _ _ _ ho
      | exact h.call _ _ ho
      | exact h.require _ ho

/-- However a job ends, the contexts and the modules at work are those where it began. -/
theorem contexts_of_finishes {n : Nat} {j : Job} {w w' : World} {ok : Bool}
    (hf : (evaluator n).Finishes w ok w' j) :
    w'.modules.cache.contexts = w.modules.cache.contexts ∧
      ∀ p, w'.modules.cache.Resolving p ↔ w.modules.cache.Resolving p := by
  have hm := evaluator_grows n
  obtain ⟨own, h⟩ : ∃ own, Grows own w.modules w'.modules := by
    cases j with
    | body r text =>
      obtain ⟨o, ho, -⟩ := hf
      exact ⟨_, hm.body r text ho⟩
    | load id path =>
      obtain ⟨o, ho, -⟩ := hf
      exact ⟨_, hm.load id path ho⟩
    | eval | target | exec | call | require => exact ⟨_, hm.toKeeps.finishes rfl hf⟩
  exact ⟨h.contexts, h.resolving_iff⟩

/-! ## Between the calls of a host -/

/-- The worlds that a host finds between its calls. -/
inductive Reached (files : FileSystem) (allowed : Resolver → Prop) : World → Prop
  | fresh {w} : w.modules.files = files → w.modules.cache = .empty → w.modules.journal = [] →
      allowed w.modules.resolver → Reached files allowed w
  /-- the host changes something else, or the resolver -/
  | elsewhere {w w'} : Reached files allowed w → w'.modules.files = w.modules.files →
      w'.modules.cache = w.modules.cache → w'.modules.journal = w.modules.journal →
      allowed w'.modules.resolver → Reached files allowed w'
  | called {w w' n j ok} : Reached files allowed w → j.isScript →
      (evaluator n).Finishes w ok w' j → Reached files allowed w'

/-- The jobs that are open, the innermost first, each with the world where it began; the
    innermost may go at most `n` steps deep. -/
inductive Running (files : FileSystem) (allowed : Resolver → Prop) :
    Nat → List (Job × World) → Prop
  | called {n j w} : Reached files allowed w → j.isScript → Running files allowed n [(j, w)]
  | asked {n j w k v frames} : Running files allowed (n + 1) ((j, w) :: frames) →
      Asks (evaluator n) j w k v → Running files allowed n ((k, v) :: (j, w) :: frames)

section
variable {files : FileSystem} {allowed allowed' : Resolver → Prop}

theorem Reached.mono (ha : ∀ r, allowed r → allowed' r) {w : World}
    (h : Reached files allowed w) : Reached files allowed' w := by
  induction h with
  | fresh hf hc hj hr => exact .fresh hf hc hj (ha _ hr)
  | elsewhere _ hf hc hj hr ih => exact .elsewhere ih hf hc hj (ha _ hr)
  | called _ hj hf ih => exact .called ih hj hf

theorem Running.mono (ha : ∀ r, allowed r → allowed' r) {n : Nat} {frames : List (Job × World)}
    (h : Running files allowed n frames) : Running files allowed' n frames := by
  induction h with
  | called hr hj => exact .called (hr.mono ha) hj
  | asked _ hask ih => exact .asked ih hask

end

/-- The path that a job runs the script of. -/
def Job.module? : Job → Option Path
  | body r _ => some r.path
  | _ => none

/-- The modules that are reserved and not yet finished, the innermost first. -/
def atWork (frames : List (Job × World)) : List Path := frames.filterMap fun f => f.1.module?

@[simp] theorem atWork_nil : atWork [] = [] := rfl

@[simp] theorem atWork_body (r : Reservation) (text : String) (w : World)
    (frames : List (Job × World)) : atWork ((.body r text, w) :: frames) = r.path :: atWork frames :=
  rfl

theorem atWork_cons {j : Job} (w : World) (frames : List (Job × World)) (h : j.module? = none) :
    atWork ((j, w) :: frames) = atWork frames :=
  List.filterMap_cons_none h

theorem module?_of_isScript {j : Job} (h : j.isScript) : j.module? = none := by
  cases j with
  | load | body => cases h
  | _ => rfl

variable {files : FileSystem} {allowed : Resolver → Prop}

/-- Between the calls of a host no module is at work. -/
structure Quiet (files : FileSystem) (allowed : Resolver → Prop) (m : Modules) : Prop where
  files_eq : m.files = files
  allowed : allowed m.resolver
  sound : m.Sound
  contexts : m.cache.contexts = []
  resolving (p : Path) : ¬m.cache.Resolving p

theorem Reached.quiet {w : World} (h : Reached files allowed w) :
    Quiet files allowed w.modules := by
  induction h with
  | fresh hf hc hj ha =>
    refine ⟨hf, ha, .of_fresh hc hj, by rw [hc]; rfl, ?_⟩
    rintro p ⟨r, hr, -⟩
    rw [hc] at hr
    cases hr
  | elsewhere _ hf hc hj ha ih =>
    exact ⟨hf.trans ih.files_eq, ha, ih.sound.congr hj fun p => by rw [hc], hc ▸ ih.contexts,
      fun p => hc ▸ ih.resolving p⟩
  | @called w w' n j ok _ hjs hf ih =>
    have hg := (evaluator_grows n).toKeeps.finishes hjs hf
    have hs := (evaluator_sound n).toKeeps.finishes hjs hf ih.sound
    exact ⟨hg.files.trans ih.files_eq, hg.resolver ▸ ih.allowed, hs, hg.contexts.trans ih.contexts,
      fun p => mt (hg.resolving_iff p).1 (ih.resolving p)⟩

theorem modular_reached :
    Modular fun _ w w' => Reached files allowed w → Reached files allowed w' where
  idle h hr := .elsewhere hr (by rw [h]) (by rw [h]) (by rw [h]) (h ▸ hr.quiet.allowed)
  trans h₁ h₂ hr := h₂ (h₁ hr)
  tidy h h' hr := .elsewhere (h hr) (by rw [h']) (by rw [h']) (by rw [h']) (h' ▸ (h hr).quiet.allowed)

/-- A text is run statement by statement: what these keep, it keeps. -/
theorem keeps_evalText {R : Bool → World → World → Prop} (hR : Modular R) {n : Nat}
    (hexec : ∀ s vars stmt, (exec n s vars stmt).Keeps R) (source : String) :
    (evalText n source).Keeps R := by
  have hrun (body : List Stmt) : (runProgram n body).Keeps R := by
    refine .bind hR (hR.keeps fun _ => rfl) fun u => ?_
    refine .bind hR (hR.tolerant.hoist _ body) fun _ => ?_
    exact .map hR (hR.tolerant.execList (hexec _ _) _ body)
  refine .bind hR (hR.keeps fun u => ?_) hrun
  unfold parseText
  split <;> rfl

/-- A host that evaluates a text finds such a world again. -/
theorem Reached.evalText {n : Nat} {source : String} {w w' : World} {o : Except ScriptError Value}
    (h : Reached files allowed w) (he : (evalText n source).Ends w o w') :
    Reached files allowed w' := by
  refine keeps_evalText modular_reached (fun s vars stmt w o w' hx hr => ?_) source he h
  exact .called (j := .exec s vars stmt) hr rfl ⟨o, hx, rfl⟩

/-! ## Within a call -/

/-- What a job asks for: a script asks for a script's job or for a load, a load asks for the
    script of the module that it reserved, and that script runs in its own directory. -/
inductive Asked (n : Nat) (w : World) (v : World) : Job → Job → Prop
  | script {j k} : j.isScript → k.isScript →
      (∀ R, Modular R → (evaluator n).Keeps R → R true w v) → Asked n w v j k
  | load {id path} : v = w →
      w.modules.resolver.resolve w.modules.files id w.modules.cache.currentContext = .ok path →
      Asked n w v (.require id) (.load id path)
  | body {id path text} : w.modules.cache.record? path = none →
      w.modules.files.readText path = .ok text →
      v.modules = w.modules.reserve (w.reservation id path) →
      Asked n w v (.load id path) (.body (w.reservation id path) text)
  | statement {r text k u} : k.isScript → u.modules = w.modules.enter r →
      (∀ R, Modular R → (evaluator n).Keeps R → R true u v) → Asked n w v (.body r text) k

theorem Asks.asked {n : Nat} {j k : Job} {w v : World} (h : Asks (evaluator n) j w k v) :
    Asked n w v j k := by
  have hk (hj : j.isScript) := fun R (hR : Modular R) hm => h.keeps (R := R) hR hm hj
  cases h with
  | load hl hp => exact .load rfl (ends_resolve.1 hp).1.symm
  | body hn ht hr =>
    obtain ⟨hr', rfl⟩ := ends_reserve.1 hr
    cases hr'
    exact .body hn ht rfl
  | @moduleStatement _ _ _ _ _ _ w₁ _ _ _ hp hb hc =>
    refine .statement rfl (ends_beginModule hb).2 fun R hR hm => ?_
    have hd : R true w₁ { w₁ with depth := 0 } := hR.idle rfl
    exact hR.trans hd (hc.keeps hR hm)
  | _ => exact .script rfl rfl (hk rfl)

/-- What holds where a host calls, and of a job that is asked for whenever it holds of the one that
    asks, holds at every moment of a run. -/
theorem Running.holds {P : Job → World → List (Job × World) → Prop}
    (called : ∀ {j w}, Reached files allowed w → j.isScript → P j w [])
    (asked : ∀ {n j w k v frames}, P j w frames → Asked n w v j k → P k v ((j, w) :: frames))
    {n : Nat} {j : Job} {w : World} {frames : List (Job × World)}
    (h : Running files allowed n ((j, w) :: frames)) : P j w frames := by
  generalize hs : (j, w) :: frames = stack at h
  induction h generalizing j w frames with
  | called hr hj =>
    cases hs
    exact called hr hj
  | asked _ hask ih =>
    cases hs
    exact asked (ih rfl) hask.asked

/-- What holds of the jobs that are open: `j`, begun in `w`, and those below it. -/
structure Orderly (files : FileSystem) (allowed : Resolver → Prop) (j : Job) (w : World)
    (frames : List (Job × World)) : Prop where
  files_eq : w.modules.files = files
  allowed : allowed w.modules.resolver
  sound : w.modules.Sound
  /-- the modules at work are those on record as such -/
  resolving (p : Path) : w.modules.cache.Resolving p ↔
    ∃ q ∈ atWork ((j, w) :: frames), q.components = p.components
  nodup : ((atWork ((j, w) :: frames)).map Path.components).Nodup
  /-- a script that is about to begin has not entered its directory -/
  contexts : w.modules.cache.contexts = (atWork frames).map Path.directory
  isFile (p : Path) : p ∈ atWork ((j, w) :: frames) → files.isFile p
  wanted {id : String} {path : Path} : j = .load id path → files.isFile path
  reserved {r : Reservation} {text : String} : j = .body r text →
    stageAt r.path.components w.modules.journal = .reserved

namespace Orderly

variable {n : Nat} {j k : Job} {w v : World} {frames : List (Job × World)}

theorem of_quiet (h : Quiet files allowed w.modules) (hj : j.isScript) :
    Orderly files allowed j w [] := by
  have ha : atWork [(j, w)] = [] := atWork_cons w [] (module?_of_isScript hj)
  refine ⟨h.files_eq, h.allowed, h.sound, fun p => ?_, ?_, h.contexts, fun p hp => ?_, ?_, ?_⟩
  · simp [ha, h.resolving p]
  · rw [ha]
    exact .nil
  · simp [ha] at hp
  · rintro id path rfl
    cases hj
  · rintro r text rfl
    cases hj

theorem script (h : Orderly files allowed j w frames) (hj : j.isScript) (hk : k.isScript)
    (hkeep : ∀ R, Modular R → (evaluator n).Keeps R → R true w v) :
    Orderly files allowed k v ((j, w) :: frames) := by
  have hg := hkeep _ modular_grows (evaluator_grows n).toKeeps
  have hs := hkeep _ modular_sound (evaluator_sound n).toKeeps h.sound
  have ha : atWork ((k, v) :: (j, w) :: frames) = atWork ((j, w) :: frames) :=
    atWork_cons _ _ (module?_of_isScript hk)
  refine ⟨hg.files.trans h.files_eq, hg.resolver ▸ h.allowed, hs, fun p => ?_, ha ▸ h.nodup, ?_,
    ha ▸ h.isFile, ?_, ?_⟩
  · rw [hg.resolving_iff, ha]
    exact h.resolving p
  · rw [hg.contexts, h.contexts, atWork_cons w frames (module?_of_isScript hj)]
  · rintro id path rfl
    cases hk
  · rintro r text rfl
    cases hk

theorem load {id : String} {path : Path} (h : Orderly files allowed (.require id) w frames)
    (hp : w.modules.resolver.resolve w.modules.files id w.modules.cache.currentContext = .ok path) :
    Orderly files allowed (.load id path) w ((.require id, w) :: frames) := by
  refine ⟨h.files_eq, h.allowed, h.sound, h.resolving, h.nodup, h.contexts, h.isFile, ?_, ?_⟩
  · intro id' path' he
    cases he
    rw [h.files_eq] at hp
    exact Resolver.isFile_of_resolve _ _ _ hp
  · intro r text he
    cases he

theorem body {id text : String} {path : Path} (h : Orderly files allowed (.load id path) w frames)
    (hn : w.modules.cache.record? path = none)
    (hv : v.modules = w.modules.reserve (w.reservation id path)) :
    Orderly files allowed (.body (w.reservation id path) text) v ((.load id path, w) :: frames) := by
  have hr := Grows.record?_reserve w.modules (w.reservation id path)
  have hs := h.sound.reserve (r := w.reservation id path) hn
  refine ⟨hv ▸ h.files_eq, hv ▸ h.allowed, hv ▸ hs.1, fun p => ?_, ?_, ?_, fun p hp => ?_, ?_, ?_⟩
  · rw [hv, Cache.Resolving, hr]
    have hw := h.resolving p
    by_cases hp : p.components = path.components
    · simp [World.reservation, hp]
    · have hp' : ¬path.components = p.components := fun he => hp he.symm
      simpa [World.reservation, hp, hp', Cache.Resolving, atWork_cons] using hw
  · rw [atWork_body, List.map_cons, List.nodup_cons]
    refine ⟨fun hmem => ?_, h.nodup⟩
    obtain ⟨q, hq, hqp⟩ := List.mem_map.1 hmem
    obtain ⟨record, hrec, -⟩ := (h.resolving path).2 ⟨q, hq, hqp⟩
    rw [hn] at hrec
    cases hrec
  · rw [hv]
    exact h.contexts
  · rcases List.mem_cons.1 hp with rfl | hp
    · exact h.wanted rfl
    · exact h.isFile p hp
  · intro id' path' he
    cases he
  · intro r text' he
    cases he
    rw [hv]
    exact hs.2

theorem statement {r : Reservation} {text : String} {u : World}
    (h : Orderly files allowed (.body r text) w frames) (hk : k.isScript)
    (hu : u.modules = w.modules.enter r)
    (hkeep : ∀ R, Modular R → (evaluator n).Keeps R → R true u v) :
    Orderly files allowed k v ((.body r text, w) :: frames) := by
  have hg := hkeep _ modular_grows (evaluator_grows n).toKeeps
  have hs := hkeep _ modular_sound (evaluator_sound n).toKeeps
  rw [hu] at hg hs
  have ha : atWork ((k, v) :: (.body r text, w) :: frames) = atWork ((.body r text, w) :: frames) :=
    atWork_cons _ _ (module?_of_isScript hk)
  refine ⟨hg.files.trans h.files_eq, hg.resolver ▸ h.allowed,
    hs (h.sound.enter (h.reserved rfl)).1, fun p => ?_, ha ▸ h.nodup, ?_, ha ▸ h.isFile, ?_, ?_⟩
  · rw [hg.resolving_iff, ha]
    exact h.resolving p
  · rw [hg.contexts]
    exact congrArg (r.path.directory :: ·) h.contexts
  · rintro id path rfl
    cases hk
  · rintro r text rfl
    cases hk

/-- What is asked for begins in order. -/
theorem asked (h : Orderly files allowed j w frames) (ha : Asked n w v j k) :
    Orderly files allowed k v ((j, w) :: frames) := by
  cases ha with
  | script hj hk hkeep => exact h.script hj hk hkeep
  | load hv hp =>
    subst hv
    exact h.load hp
  | body hn _ hv => exact h.body hn hv
  | statement hk hu hkeep => exact h.statement hk hu hkeep

end Orderly

/-- **At every moment of a run all that is open is in order.** -/
theorem Running.orderly {n : Nat} {j : Job} {w : World} {frames : List (Job × World)}
    (h : Running files allowed n ((j, w) :: frames)) : Orderly files allowed j w frames :=
  h.holds (P := Orderly files allowed) (fun hr hj => .of_quiet hr.quiet hj) fun h ha => h.asked ha

/-! ## A loader with one module -/

/-- A fresh loader in the directory `/`, where the only file is the module `a.js`. -/
def World.ofModule (text : String) : World :=
  World.bare.withLoader .atRoot (.only ⟨"/a.js"⟩ text)

/-- The world when the script of that module is about to begin. -/
def World.ofReserved (text : String) : World :=
  let w := World.ofModule text
  { w with
    heap := (w.heap.newObject .empty).2
    modules := w.modules.reserve (w.reservation "./a" ⟨"/a.js"⟩) }

section
variable (text : String) {n : Nat}

theorem resolve_ofModule :
    (resolve "./a").Ends (World.ofModule text) (.ok ⟨"/a.js"⟩) (World.ofModule text) := by
  refine ends_resolve.2 ⟨?_, rfl⟩
  simp only [World.ofModule, World.withLoader]
  rfl

variable (h : allowed (World.ofModule text).modules.resolver)
include h

theorem running_require : Running (.only ⟨"/a.js"⟩ text) allowed n
    [(.require "./a", .ofModule text)] :=
  .called (.fresh rfl rfl rfl h) rfl

theorem running_body : Running (.only ⟨"/a.js"⟩ text) allowed n
    [(.body ((World.ofModule text).reservation "./a" ⟨"/a.js"⟩) text, .ofReserved text),
      (.load "./a" ⟨"/a.js"⟩, .ofModule text), (.require "./a", .ofModule text)] :=
  .asked (.asked (running_require text h) (.load rfl (resolve_ofModule text)))
    (.body rfl rfl (ends_reserve.2 ⟨rfl, rfl⟩))

end

/-! ## A loader with a library -/

/-- A module `/lib/a.js`, and two files by the name of `b.js`: one beside it, and one where the
    loader works. -/
def libraryFiles (text : String) : FileSystem :=
  .ofTexts [("/lib/a.js", text), ("/lib/b.js", ""), ("/b.js", "")]

/-- A fresh loader in the directory `/` with these files, and `require` among the globals. -/
def World.withLibrary (text : String) : World :=
  (World.bare.withLoader .atRoot (libraryFiles text)).exposeRequire

section
variable (text : String)

/-- The reservation of the library, the world with it, and the world when its script begins. -/
def libraryReservation : Reservation :=
  (World.withLibrary text).reservation "./lib/a" ⟨"/lib/a.js"⟩

def World.reservedLibrary : World :=
  let w := World.withLibrary text
  { w with
    heap := (w.heap.newObject .empty).2
    modules := w.modules.reserve (libraryReservation text) }

def World.begunLibrary : World :=
  ((beginModule (libraryReservation text)).result (.reservedLibrary text)).2

/-- What the script is called with. -/
def libraryArguments : List Value :=
  [.function ⟨6⟩, (libraryReservation text).placeholder, .object ⟨2⟩]

/-- The world when the script, a single expression, is about to run. -/
def World.libraryAt (e : Expr) : World :=
  ((enter moduleParams [.expression e] (World.begunLibrary text).globals
    (libraryArguments text)).result { World.begunLibrary text with depth := 1 }).2

variable {n : Nat}

theorem resolve_library : (resolve "./lib/a").Ends (.withLibrary text) (.ok ⟨"/lib/a.js"⟩)
    (.withLibrary text) := by
  have h : Resolver.atRoot.resolve (libraryFiles text) "./lib/a" none = .ok ⟨"/lib/a.js"⟩ := rfl
  exact ends_resolve.2 ⟨h.symm, rfl⟩

theorem asks_load_library : Asks (evaluator n) (.require "./lib/a") (.withLibrary text)
    (.load "./lib/a" ⟨"/lib/a.js"⟩) (.withLibrary text) :=
  .load rfl (resolve_library text)

theorem asks_body_library : Asks (evaluator n) (.load "./lib/a" ⟨"/lib/a.js"⟩) (.withLibrary text)
    (.body (libraryReservation text) text) (.reservedLibrary text) :=
  .body rfl rfl (ends_reserve.2 ⟨rfl, rfl⟩)

theorem asks_statement_library {e : Expr} (h : Program.ofText? text = .ok [.expression e]) :
    Asks (evaluator n) (.body (libraryReservation text) text) (.reservedLibrary text)
      (.exec ⟨1⟩ ⟨1⟩ (.expression e)) (.libraryAt text e) := by
  have hbegin : (beginModule (libraryReservation text)).Ends (.reservedLibrary text)
      (.ok (libraryArguments text, ⟨2⟩)) (.begunLibrary text) := rfl
  have hdepth : 0 < maxCalls := by decide
  have hcomes : ComesCalled (evaluator n) moduleParams [.expression e]
      (World.begunLibrary text).globals (libraryArguments text)
      { World.begunLibrary text with depth := 0 } ⟨1⟩ (.expression e) (.libraryAt text e) :=
    ⟨hdepth, .libraryAt text e, rfl, [], [], .undefined, rfl, rfl⟩
  exact .moduleStatement h hbegin hcomes

/-- In the script `require` is the native of that name. -/
theorem ends_require_library (e : Expr) : (readName ⟨1⟩ "require").Ends (.libraryAt text e)
    (.ok (.function ⟨6⟩)) (.libraryAt text e) := by
  -- the heap is the same for all texts: with one of them it can be computed
  have hheap : (World.libraryAt text e).heap = (World.libraryAt "" .null).heap := rfl
  have hget : (World.libraryAt text e).heap.get? ⟨1⟩ "require" = some (.function ⟨6⟩) := by
    rw [hheap]
    decide +kernel
  unfold readName
  rw [ends_heap_bind, hget]
  exact ends_pure.2 ⟨rfl, rfl⟩

end

end Requisite.Machine
