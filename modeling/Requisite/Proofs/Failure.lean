/-
  What a failure leaves behind.

  An error cannot be caught by a script: it ends all that is open, up to the
  host.  On the way each load that is open is undone, and nothing else is.

  * `Unwinds`: what a run noted, cut where it began to undo;
  * `LeftOpen`: the modules that were open at that point;
  * `RunsAnew`: a `require` that begins with a module from the start;
  * `require_failed`: what is true after a `require` that fails, and later.
-/
import Requisite.Proofs.Index

namespace Requisite.Machine

open Requisite Requisite.Source Requisite.Script Requisite.Loader

open Run

/-! ## Unwinding -/

/-- Whether an action drops a module. -/
def Action.Undoes : Action → Prop
  | abandoned _ => True
  | _ => False

/-- What a run noted: first actions that undo nothing, and then, if it failed, only such that
    undo. -/
def Unwinds (ok : Bool) (m m' : Modules) : Prop :=
  ∃ undone earlier, m'.journal = undone ++ (earlier ++ m.journal) ∧
    (∀ e ∈ undone, e.action.Undoes) ∧ (∀ e ∈ earlier, ¬e.action.Undoes) ∧ (ok → undone = [])

namespace Unwinds

variable {ok : Bool} {m m' m'' : Modules} {e : Event}

theorem of_journal (h : m'.journal = m.journal) : Unwinds ok m m' :=
  ⟨[], [], h, by simp, by simp, fun _ => rfl⟩

theorem trans (h₁ : Unwinds true m m') (h₂ : Unwinds ok m' m'') : Unwinds ok m m'' := by
  obtain ⟨_, n₁, hj₁, -, he₁, hok⟩ := h₁
  obtain ⟨u, n₂, hj₂, hu₂, he₂, hok₂⟩ := h₂
  obtain rfl := hok rfl
  refine ⟨u, n₂ ++ n₁, ?_, hu₂, ?_, hok₂⟩
  · rw [hj₂, hj₁, List.nil_append, List.append_assoc]
  · intro x hx
    rcases List.mem_append.1 hx with hx | hx
    · exact he₂ x hx
    · exact he₁ x hx

theorem tidy (h : Unwinds ok m m') (hj : m''.journal = m'.journal) : Unwinds ok m m'' := by
  obtain ⟨u, n, hj', h⟩ := h
  exact ⟨u, n, hj.trans hj', h⟩

/-- A success may be followed by another action. -/
theorem act (h : Unwinds true m m') (hj : m''.journal = e :: m'.journal) (he : ¬e.action.Undoes) :
    Unwinds ok m m'' :=
  h.trans ⟨[], [e], hj, by simp, by simpa using he, fun _ => rfl⟩

/-- After a failure more is undone. -/
theorem undo (h : Unwinds false m m') (hj : m''.journal = e :: m'.journal) (he : e.action.Undoes) :
    Unwinds false m m'' := by
  obtain ⟨u, n, hj', hu, hn, -⟩ := h
  refine ⟨e :: u, n, by rw [hj, hj']; rfl, ?_, hn, fun h => by cases h⟩
  simpa using ⟨he, hu⟩

end Unwinds

theorem modular_unwinds : Modular fun ok w w' => Unwinds ok w.modules w'.modules where
  idle h := .of_journal (congrArg Modules.journal h)
  trans := Unwinds.trans
  tidy h h' := h.tidy (congrArg Modules.journal h')

/-- **Whatever an evaluator does, it undoes nothing but at its end, and only if it fails.** -/
theorem evaluator_unwinds (n : Nat) : (evaluator n).Obeys
    (fun ok w w' => Unwinds ok w.modules w'.modules)
    fun _ o w w' => Unwinds o.isOk w.modules w'.modules := by
  refine .evaluator modular_unwinds ?_ ?_ ?_ n
  · intro n hm id w o w' h
    rcases ends_requireStep.1 h with ⟨v, -, rfl, rfl⟩ | ⟨-, ⟨e, he, rfl⟩ | ⟨path, hp, h⟩⟩
    · exact (Unwinds.of_journal rfl).act rfl not_false
    · obtain ⟨-, rfl⟩ := ends_resolve.1 he
      exact .of_journal rfl
    · rcases h with ⟨e, he, rfl⟩ | ⟨v, u, hu, rfl, rfl⟩
      · exact hm.load id path he
      · exact (hm.load id path hu).tidy rfl
  · intro n hm id path w o w' h
    rcases ends_loadStep.1 h with
      ⟨record, -, rfl, rfl⟩ | ⟨hn, ⟨_, -, rfl, rfl⟩ | ⟨text, r, v, -, hr, h⟩⟩
    · exact (Unwinds.of_journal rfl).act rfl not_false
    · exact .of_journal rfl
    · obtain ⟨-, rfl⟩ := ends_reserve.1 hr
      have hres : Unwinds true w.modules (w.modules.reserve (w.reservation id path)) :=
        (Unwinds.of_journal rfl).act rfl not_false
      rcases ends_loadReserved.1 h with ⟨e, u, hu, rfl, rfl⟩ | ⟨a, u, hu, rfl, rfl⟩
      · exact (hres.trans (hm.body _ _ hu)).undo rfl trivial
      · exact (hres.trans (hm.body _ _ hu)).act rfl not_false
  · intro n hm r text w o w' h
    rcases modules_runModuleStep h with
      ⟨e, -, rfl, rfl⟩ | ⟨body, args, u, c, v, -, hu, hc, ho, hw'⟩
    · exact .of_journal rfl
    · have hs : Unwinds c.isOk u.modules v.modules :=
        hm.callScript modular_unwinds moduleParams body u.globals args hc
      have he : Unwinds true w.modules u.modules := by
        rw [hu]
        exact (Unwinds.of_journal rfl).act rfl not_false
      rw [hw', ho]
      exact (he.trans hs).tidy rfl

/-! ## Modules left open -/

/-- The module at a place was reserved among the actions `earlier`, and not finished. -/
def LeftOpen (earlier : List Event) (place : List Component) : Prop :=
  (∃ e ∈ earlier, ∃ q, e.action = .reserved q ∧ q.components = place) ∧
    ∀ e ∈ earlier, ∀ q, e.action = .committed q → q.components ≠ place

section
variable {own : List Component → Prop} {m m' : Modules} {undone earlier : List Event}
  (hj : m'.journal = undone ++ (earlier ++ m.journal)) (hu : ∀ e ∈ undone, e.action.Undoes)

include hj in
/-- What a run noted is what it did and what it undid. -/
theorem Grows.news_eq {news : List Event} (hn : m'.journal = news ++ m.journal) :
    news = undone ++ earlier := by
  rw [hn, ← List.append_assoc] at hj
  exact List.append_cancel_right hj

include hj hu in
/-- What was added is loaded, and was committed before anything was undone. -/
theorem Grows.committed_earlier (h : Grows own m m') {p : Path} {record : Record}
    (hn : m.cache.record? p = none) (hr : m'.cache.record? p = some record) :
    record.state = .loaded ∧
      ∃ e ∈ earlier, ∃ q, e.action = .committed q ∧ q.components = p.components := by
  obtain ⟨news, hn', -, hadd⟩ := h.news
  obtain ⟨hs, e, he, q, hq, hqp⟩ := hadd p record hn hr
  rw [Grows.news_eq hj hn'] at he
  rcases List.mem_append.1 he with he | he
  · have hux := hu e he
    rw [hq] at hux
    exact hux.elim
  · exact ⟨hs, e, he, q, hq, hqp⟩

include hj hu in
/-- A module that was left open has no record. -/
theorem Grows.record?_of_leftOpen (h : Grows noPlace m m') {p : Path}
    (ho : LeftOpen earlier p.components) : m'.cache.record? p = none := by
  obtain ⟨⟨e, he, q, hq, hqp⟩, hnc⟩ := ho
  have hn : m.cache.record? p = none := by
    obtain ⟨news, hn', hb, -⟩ := h.news
    rw [Grows.news_eq hj hn'] at hb
    refine (hb e (List.mem_append_right _ he) p ⟨q, ?_, hqp⟩).resolve_left not_false
    rw [hq]
    rfl
  cases hr : m'.cache.record? p with
  | none => rfl
  | some record =>
    obtain ⟨-, e', he', q', hq', hqp'⟩ := h.committed_earlier hj hu hn hr
    exact absurd hqp' (hnc e' he' q' hq')

end

/-! ## Running anew -/

/-- The script of a module is run from its beginning on. -/
theorem ends_body_entered {n : Nat} {r : Reservation} {text : String} {body : List Stmt}
    {w w' : World} {o : Except ScriptError Value} (hp : Program.ofText? text = .ok body)
    (h : ((evaluator n).runModule r text).Ends w o w') :
    ∃ news c, w'.modules.journal = news ++ ⟨.entered r.path, c⟩ :: w.modules.journal := by
  cases n with
  | zero => exact absurd h not_ends_outOfFuel
  | succ n =>
    rcases modules_runModuleStep h with
      ⟨e, he, -, -⟩ | ⟨_, args, u, c, v, -, hu, hc, -, hw'⟩
    · rw [hp] at he
      cases he
    · have hg : Grows noPlace u.modules v.modules :=
        (evaluator_grows n).callScript modular_grows moduleParams _ u.globals args hc
      obtain ⟨news, hj, -⟩ := hg.news
      refine ⟨news, (w.modules.enter r).cache, ?_⟩
      rw [hw']
      refine (show _ = _ from hj).trans ?_
      rw [hu]
      rfl

/-- A `require` in `w` reserves the module at a path anew and runs its script from its beginning
    on. -/
structure RunsAnew (id : String) (path : Path) (w : World) : Prop where
  loads (n : Nat) : Asks (evaluator n) (.require id) w (.load id path) w
  runs (n : Nat) (text : String) : w.modules.files.readText path = .ok text →
    ∃ v, Asks (evaluator n) (.load id path) w (.body (w.reservation id path) text) v
  entered {n : Nat} {o : Except LoaderError Value} {w' : World} {text : String} {body : List Stmt} :
    w.modules.files.readText path = .ok text → Program.ofText? text = .ok body →
    (require n id).Ends w o w' → ∃ news c₁ c₂, w'.modules.journal =
      news ++ ⟨.entered path, c₂⟩ :: ⟨.reserved path, c₁⟩ :: w.modules.journal

/-- A module that is not on record is reserved, and then its script is run. -/
theorem ends_load_entered {n : Nat} {id : String} {path : Path} {text : String} {body : List Stmt}
    {w w' : World} {o : Except LoaderError Value} (hn : w.modules.cache.record? path = none)
    (ht : w.modules.files.readText path = .ok text) (hp : Program.ofText? text = .ok body)
    (h : ((evaluator n).load id path).Ends w o w') : ∃ news c₁ c₂, w'.modules.journal =
      news ++ ⟨.entered path, c₂⟩ :: ⟨.reserved path, c₁⟩ :: w.modules.journal := by
  cases n with
  | zero => exact absurd h not_ends_outOfFuel
  | succ n =>
    rcases ends_loadStep.1 h with ⟨r, hr, -, -⟩ | ⟨-, ⟨_, he, -, -⟩ | ⟨text', r, v, ht', hr, h⟩⟩
    · rw [hn] at hr
      cases hr
    · rw [ht] at he
      cases he
    · rw [ht] at ht'
      cases ht'
      obtain ⟨hr', rfl⟩ := ends_reserve.1 hr
      cases hr'
      rcases ends_loadReserved.1 h with ⟨e, u, hu, -, rfl⟩ | ⟨a, u, hu, -, rfl⟩
      · obtain ⟨news, c, hj⟩ := ends_body_entered hp hu
        exact ⟨_ :: news, _, c, congrArg (_ :: ·) hj⟩
      · obtain ⟨news, c, hj⟩ := ends_body_entered hp hu
        exact ⟨_ :: news, _, c, congrArg (_ :: ·) hj⟩

theorem RunsAnew.of_record? {id : String} {path : Path} {w : World}
    (hp : w.modules.resolver.resolve w.modules.files id w.modules.cache.currentContext = .ok path)
    (hl : w.modules.cache.lookup w.modules.base id = none)
    (hn : w.modules.cache.record? path = none) : RunsAnew id path w := by
  have hres : (resolve id).Ends w (.ok path) w := ends_resolve.2 ⟨hp.symm, rfl⟩
  refine ⟨fun n => .load hl hres, fun n text ht => ⟨_, .body hn ht (ends_reserve.2 ⟨rfl, rfl⟩)⟩, ?_⟩
  intro n o w' text body ht hb h
  cases n with
  | zero => exact absurd h not_ends_outOfFuel
  | succ n =>
    rcases (ends_requireStep_of_miss hl hp).1 h with ⟨e, he, -⟩ | ⟨v, u, hu, -, rfl⟩
    · exact ends_load_entered hn ht hb he
    · obtain ⟨news, c₁, c₂, hj⟩ := ends_load_entered hn ht hb hu
      exact ⟨news, c₁, c₂, hj⟩

/-! ## A failed call -/

section
variable {files : FileSystem} {allowed : Resolver → Prop} {n : Nat} {id : String} {w : World}
  {frames : List (Job × World)}

/-- A module that is neither loaded nor at work has no record. -/
theorem Orderly.record?_of_absent {j : Job} (h : Orderly files allowed j w frames) {p : Path}
    (hl : stageAt p.components w.modules.journal ≠ .loaded)
    (hw : ∀ q ∈ atWork ((j, w) :: frames), q.components ≠ p.components) :
    w.modules.cache.record? p = none := by
  cases hr : w.modules.cache.record? p with
  | none => rfl
  | some record =>
    have hst := h.sound.stage p
    cases hs : record.state with
    | resolving =>
      obtain ⟨q, hq, hqp⟩ := (h.resolving p).1 ⟨record, hr, hs⟩
      exact absurd hqp (hw q hq)
    | loaded =>
      rw [hr, Option.map_some, hs] at hst
      cases hc : stageAt p.components w.modules.journal <;> simp_all [Stage.state?]

/-- What the index tells of an identifier that leads to a module without a record is of no
    use, unless the host has changed the resolver. -/
theorem Running.lookup_eq_none {j : Job} (h : Running files allowed n ((j, w) :: frames))
    (hfix : ∀ r r', allowed r → allowed r' → r = r') {p : Path}
    (hp : w.modules.resolver.resolve w.modules.files id w.modules.cache.currentContext = .ok p)
    (hn : w.modules.cache.record? p = none) : w.modules.cache.lookup w.modules.base id = none := by
  have hsame : Running files (· = w.modules.resolver) n ((j, w) :: frames) :=
    h.mono fun r hr => hfix r _ hr h.orderly.allowed
  have hi := hsame.indexed
  cases hl : w.modules.cache.lookup w.modules.base id with
  | none => rfl
  | some v =>
    obtain ⟨q, r, hq, hr, -, -⟩ := (Cache.lookup_eq_some_iff _).1 hl
    have hpq : (Except.ok q : Except LoaderError Path) = .ok p := by
      rw [← hi w.modules.base id q hq, w.modules.resolve_base, hp]
    cases hpq
    rw [hn] at hr
    cases hr

/-- **A failure leaves no module half loaded.**  After a `require` that fails, the contexts and all
    records are those from before; a record that was added is that of a module committed before
    the error was raised; and a module that was open then has no record.  When it is required later
    on, neither loaded meanwhile nor at work, its script runs from its beginning on; only an index
    from before a change of the resolver may answer in its place. -/
theorem require_failed {e : LoaderError} {w' : World}
    (h : Running files allowed n ((.require id, w) :: frames))
    (he : (require n id).Ends w (.error e) w') :
    w'.modules.cache.contexts = w.modules.cache.contexts ∧
    (∀ p record, w.modules.cache.record? p = some record →
      w'.modules.cache.record? p = some record) ∧
    ∃ undone earlier, w'.modules.journal = undone ++ (earlier ++ w.modules.journal) ∧
      (∀ x ∈ undone, x.action.Undoes) ∧ (∀ x ∈ earlier, ¬x.action.Undoes) ∧
      (∀ p record, w.modules.cache.record? p = none → w'.modules.cache.record? p = some record →
        record.state = .loaded ∧
          ∃ x ∈ earlier, ∃ q, x.action = .committed q ∧ q.components = p.components) ∧
      ∀ p, LeftOpen earlier p.components → w'.modules.cache.record? p = none ∧
        ∀ k id' u frames' since q, Running files allowed k ((.require id', u) :: frames') →
          u.modules.journal = since ++ w'.modules.journal →
          (∀ x ∈ since, ∀ c, x.action = .committed c → c.components ≠ p.components) →
          (∀ c ∈ atWork frames', c.components ≠ p.components) →
          u.modules.resolver.resolve u.modules.files id' u.modules.cache.currentContext = .ok q →
          q.components = p.components →
          (u.modules.cache.lookup u.modules.base id' = none ∨
            ∀ r r', allowed r → allowed r' → r = r') →
          RunsAnew id' q u := by
  have hg := (evaluator_grows n).require id he
  have hs := (evaluator_sound n).require id he h.orderly.sound
  obtain ⟨undone, earlier, hj, hu, hne, -⟩ := (evaluator_unwinds n).require id he
  refine ⟨hg.contexts, hg.kept, undone, earlier, hj, hu, hne,
    fun p record => hg.committed_earlier hj hu, fun p hp => ?_⟩
  have hn := hg.record?_of_leftOpen hj hu hp
  refine ⟨hn, fun k id' u frames' since q hrun hsince hc hw hq hqp hindex => ?_⟩
  have hnu : u.modules.cache.record? q = none := by
    rw [u.modules.cache.record?_congr hqp]
    refine hrun.orderly.record?_of_absent (fun hl => ?_) hw
    rw [hsince] at hl
    have habsent : stageAt p.components w'.modules.journal ≠ .loaded := by
      rw [hs.stage_absent hn]
      exact Stage.noConfusion
    obtain ⟨x, hx, c, hxc, hcp⟩ := committed_of_stageAt hl habsent
    exact hc x hx c hxc hcp
  refine .of_record? hq ?_ hnu
  rcases hindex with hl | hfix
  · exact hl
  · exact hrun.lookup_eq_none hfix hq hnu

end

/-! ## A malformed module -/

theorem ofText?_question : ∃ e, Program.ofText? "?" = .error e := by
  have h : Lexeme.ofText "?" = [⟨.symbol .question, .start, ⟨1, 1⟩, false⟩,
      ⟨.eof, ⟨1, 1⟩, ⟨1, 1⟩, false⟩] := by decide +kernel
  exact ⟨_, Program.ofText?_of_lexemes h rfl⟩

/-- A malformed module is reserved and abandoned. -/
theorem ends_require_malformed : ∃ e w' c₁ c₂,
    (require 3 "./a").Ends (.ofModule "?") (.error e) w' ∧ w'.modules.journal =
      [⟨.abandoned ⟨"/a.js"⟩, c₂⟩, ⟨.reserved ⟨"/a.js"⟩, c₁⟩] := by
  obtain ⟨e, he⟩ := ofText?_question
  have hbody : ((evaluator 1).runModule ((World.ofModule "?").reservation "./a" ⟨"/a.js"⟩) "?").Ends
      (.ofReserved "?") (.error (.malformed e)) (.ofReserved "?") :=
    ends_runModuleStep.2 (.inl ⟨e, he, rfl, rfl⟩)
  have hload : ((evaluator 2).load "./a" ⟨"/a.js"⟩).Ends (.ofModule "?")
      (.error (.failed ⟨"/a.js"⟩ (.malformed e))) _ :=
    ends_loadStep.2 (.inr ⟨rfl, .inr ⟨"?", (World.ofModule "?").reservation "./a" ⟨"/a.js"⟩,
      .ofReserved "?", rfl, ends_reserve.2 ⟨rfl, rfl⟩,
      ends_loadReserved.2 (.inl ⟨_, _, hbody, rfl, rfl⟩)⟩⟩)
  exact ⟨_, _, _, _, ends_requireStep.2 (.inr ⟨rfl, .inr ⟨_, resolve_ofModule "?", .inl
    ⟨_, hload, rfl⟩⟩⟩), rfl⟩

/-- It leaves no record, and when it is required again its script is run again. -/
theorem require_failed_malformed : ∃ e w', (require 3 "./a").Ends (.ofModule "?") (.error e) w' ∧
    w'.modules.cache.record? ⟨"/a.js"⟩ = none ∧ RunsAnew "./a" ⟨"/a.js"⟩ w' := by
  obtain ⟨e, w', c₁, c₂, he, hj⟩ := ends_require_malformed
  have hrun : Running (.only ⟨"/a.js"⟩ "?") (· = Resolver.atRoot) 3
    [(.require "./a", .ofModule "?")] := running_require "?" rfl
  obtain ⟨-, -, undone, earlier, hj', hu, -, -, hopen⟩ := require_failed hrun he
  rw [hj, show (World.ofModule "?").modules.journal = [] from rfl, List.append_nil] at hj'
  have hleft : LeftOpen earlier (Path.mk "/a.js").components := by
    constructor
    · have hm : (⟨.reserved ⟨"/a.js"⟩, c₁⟩ : Event) ∈ undone ++ earlier := by simp [← hj']
      refine ⟨_, (List.mem_append.1 hm).resolve_left fun hm => hu _ hm, _, rfl, rfl⟩
    · intro x hx q hq
      have hm := List.mem_append_right undone hx
      rw [← hj'] at hm
      rcases List.mem_cons.1 hm with rfl | hm
      · cases hq
      · obtain rfl := List.mem_singleton.1 hm
        cases hq
  obtain ⟨hn, hlater⟩ := hopen _ hleft
  have hg := (evaluator_grows 3).require _ he
  have hres : w'.modules.resolver.resolve w'.modules.files "./a" w'.modules.cache.currentContext =
      .ok ⟨"/a.js"⟩ := by
    rw [hg.resolve_eq]
    exact (ends_resolve.1 (resolve_ofModule "?")).1.symm
  refine ⟨e, w', he, hn, hlater 0 "./a" w' [] [] _ (.called ?_ rfl) rfl (by simp) (by simp) hres rfl
    (.inr fun r r' hr hr' => hr.trans hr'.symm)⟩
  exact .called (j := .require "./a") (.fresh rfl rfl rfl rfl) rfl ⟨_, he, rfl⟩

end Requisite.Machine
