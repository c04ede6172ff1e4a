/-
  A loader without an index.

  The index is there to save work.  A loader that has none, and resolves every
  identifier anew, gives a host and its scripts the same answers, runs the same
  modules in the same order, and has the same records.

  * `unindexed`: the evaluators of a loader without an index;
  * `Modules.Alike`: modules that differ in the index, and in what the journal
    says of hits;
  * `Session`: the calls of a host, each with its answer;
  * `index_transparent`: the sessions of both loaders are the same.
-/
import Requisite.Proofs.Hosted
import Requisite.Proofs.Mimics

namespace Requisite.Loader

open Requisite Requisite.Script

/-! ## Caches that differ in their index -/

/-- The same records, and the same contexts. -/
structure Cache.Alike (c c' : Cache) : Prop where
  records : c'.records = c.records
  contexts : c'.contexts = c.contexts

namespace Cache.Alike

variable {c c' : Cache} (h : c.Alike c')
include h

theorem record?_eq (p : Path) : c'.record? p = c.record? p := by rw [record?, h.records, record?]

theorem setRecord (p : Path) (r : Record) : (c.setRecord p r).Alike (c'.setRecord p r) := by
  refine ⟨?_, h.contexts⟩
  unfold Cache.setRecord
  rw [h.records]

theorem finish (id : String) (p : Path) (v : Value) :
    (c'.finish id p v).1 = (c.finish id p v).1 ∧ (c.finish id p v).2.Alike (c'.finish id p v).2 := by
  unfold Cache.finish
  rw [h.record?_eq p]
  split
  · exact ⟨rfl, h.setRecord p _⟩
  · split
    · exact ⟨rfl, h⟩
    · exact ⟨rfl, h.setRecord p _⟩

theorem abandon (r : Reservation) : (c.abandon r).Alike (c'.abandon r) := by
  unfold Cache.abandon
  rw [h.record?_eq r.path]
  split
  · split
    · exact h
    · exact ⟨congrArg (OrderedMap.erase · _) h.records, h.contexts⟩
  · exact h

theorem pushContext (p : Path) : (c.pushContext p).Alike (c'.pushContext p) :=
  ⟨h.records, congrArg (p :: ·) h.contexts⟩

theorem truncate (depth : Nat) : (c.truncate depth).Alike (c'.truncate depth) := by
  refine ⟨h.records, ?_⟩
  unfold Cache.truncate
  rw [h.contexts]

theorem delete (p : Path) :
    (c'.delete p).1 = (c.delete p).1 ∧ (c.delete p).2.Alike (c'.delete p).2 :=
  ⟨h.record?_eq p, congrArg (OrderedMap.erase · _) h.records, h.contexts⟩

theorem clear : c.clear.Alike c'.clear := ⟨rfl, h.contexts⟩

end Cache.Alike

end Requisite.Loader

namespace Requisite.Machine

open Requisite Requisite.Source Requisite.Script Requisite.Loader

open Run

/-! ## Modules that differ in their index -/

/-- What befell modules, the latest first, with the records and the contexts just after. -/
def Modules.deeds (m : Modules) :
    List (Action × OrderedMap (List Component) (Path × Record) × List Path) :=
  (m.journal.filter fun e => e.action.subject?.isSome).map fun e =>
    (e.action, e.cache.records, e.cache.contexts)

/-- The same but for the index; the same befell the same modules in the same order. -/
structure Modules.Alike (m k : Modules) : Prop where
  resolver : k.resolver = m.resolver
  files : k.files = m.files
  alive : k.alive = m.alive
  cache : m.cache.Alike k.cache
  deeds : k.deeds = m.deeds

namespace Modules.Alike

variable {m k : Modules}

theorem refl (m : Modules) : m.Alike m := ⟨rfl, rfl, rfl, ⟨rfl, rfl⟩, rfl⟩

variable (h : m.Alike k)
include h

theorem withCache {c c' : Cache} (hc : c.Alike c') : (m.withCache c).Alike (k.withCache c') :=
  ⟨h.resolver, h.files, h.alive, hc, h.deeds⟩

/-- Noting a hit on one side is no difference. -/
theorem noted_left {a : Action} (ha : a.subject? = none) : (m.noted a).Alike k := by
  refine ⟨h.resolver, h.files, h.alive, h.cache, h.deeds.trans ?_⟩
  simp [Modules.deeds, Modules.noted, ha]

theorem noted_right {a : Action} (ha : a.subject? = none) : m.Alike (k.noted a) := by
  refine ⟨h.resolver, h.files, h.alive, h.cache, Eq.trans ?_ h.deeds⟩
  simp [Modules.deeds, Modules.noted, ha]

theorem noted (a : Action) : (m.noted a).Alike (k.noted a) := by
  refine ⟨h.resolver, h.files, h.alive, h.cache, ?_⟩
  have hd := h.deeds
  unfold Modules.deeds at hd ⊢
  simp only [Modules.noted, List.filter_cons]
  split
  · rw [List.map_cons, List.map_cons, hd, h.cache.records, h.cache.contexts]
  · exact hd

theorem remember_left (dir : Path) (id : String) (path : Path) :
    (m.remember dir id path).Alike k := by
  have hc : (m.cache.remember dir id path).Alike k.cache := ⟨h.cache.records, h.cache.contexts⟩
  exact h.withCache hc

theorem remember_right (dir : Path) (id : String) (path : Path) :
    m.Alike (k.remember dir id path) := by
  have hc : m.cache.Alike (k.cache.remember dir id path) := ⟨h.cache.records, h.cache.contexts⟩
  exact h.withCache hc

/-- Identifiers lead to the same files. -/
theorem resolve_eq (id : String) : k.resolver.resolve k.files id k.cache.currentContext =
    m.resolver.resolve m.files id m.cache.currentContext := by
  rw [h.resolver, h.files, Cache.currentContext, h.cache.contexts, Cache.currentContext]

end Modules.Alike

/-- A property of modules that hangs on what the loader's steps leave alone. -/
def Lasting (P : Modules → Prop) : Prop :=
  ∀ ⦃m m' : Modules⦄, P m → m'.resolver = m.resolver → m'.files = m.files →
    m'.cache.index = m.cache.index → P m'

/-- Alike modules, one of which has the property `P`, the other `Q`. -/
def AlikeWith (P Q : Modules → Prop) (m k : Modules) : Prop := m.Alike k ∧ P m ∧ Q k

theorem twins_alikeWith {P Q : Modules → Prop} (hP : Lasting P) (hQ : Lasting Q) :
    Twins (AlikeWith P Q) where
  alive h := h.1.alive
  resolve h := h.1.resolve_eq
  record h := h.1.cache.record?_eq
  readText h p := by rw [h.1.files]
  depth h := congrArg List.length h.1.cache.contexts
  recordHit h p s := ⟨h.1.noted _, hP h.2.1 rfl rfl rfl, hQ h.2.2 rfl rfl rfl⟩
  reserve h r := ⟨(h.1.withCache (h.1.cache.setRecord _ _)).noted _, hP h.2.1 rfl rfl rfl,
    hQ h.2.2 rfl rfl rfl⟩
  enter h r := ⟨(h.1.withCache (h.1.cache.pushContext _)).noted _, hP h.2.1 rfl rfl rfl,
    hQ h.2.2 rfl rfl rfl⟩
  leave h depth := ⟨h.1.withCache (h.1.cache.truncate _), hP h.2.1 rfl rfl rfl, hQ h.2.2 rfl rfl rfl⟩
  commit {m k} h r v := by
    obtain ⟨hv, hc⟩ := h.1.cache.finish r.id r.path v
    exact ⟨hv, (h.1.withCache hc).noted _, hP h.2.1 rfl rfl (Cache.index_commit m.cache r v),
      hQ h.2.2 rfl rfl (Cache.index_commit k.cache r v)⟩
  abandon {m k} h r := ⟨(h.1.withCache (h.1.cache.abandon r)).noted _,
    hP h.2.1 rfl rfl (Cache.index_abandon m.cache r),
    hQ h.2.2 rfl rfl (Cache.index_abandon k.cache r)⟩

/-- The index tells where identifiers lead, and has one entry for each of them. -/
structure Modules.Tidy (m : Modules) : Prop where
  indexed : m.Indexed
  nodup : m.cache.index.keys.Nodup

theorem lasting_tidy : Lasting Modules.Tidy := fun _ _ h hr hf hi =>
  ⟨(Steady.of_index hr hf hi).indexed h.indexed, hi ▸ h.nodup⟩

theorem lasting_true : Lasting fun _ => True := fun _ _ _ _ _ _ => trivial

theorem Steady.tidy {m m' : Modules} (hs : Steady m m') (h : m.Tidy) : m'.Tidy :=
  ⟨hs.indexed h.indexed, hs.nodup h.nodup⟩

/-- What identifiers lead to may be remembered later on. -/
theorem Steady.tidy_remember {m m' : Modules} (hs : Steady m m') (h : m'.Tidy) {id : String}
    {path : Path} (hp : m.resolver.resolve m.files id m.cache.currentContext = .ok path) :
    (m'.remember m.base id path).Tidy := by
  refine (Steady.remember ?_).tidy h
  rw [hs.resolver, hs.files, m.resolve_base]
  exact hp

/-! ## Evaluators without an index -/

/-- The exports of the module that an identifier leads to; nothing is looked up or remembered. -/
def Evaluator.resolveAndLoad (m : Evaluator) (id : String) : LoaderRun Value := do
  let path ← resolve id
  m.load id path

/-- The evaluator without an index that goes at most `n` steps deep. -/
def unindexed : Nat → Evaluator
  | 0 => .exhausted
  | n + 1 => { (unindexed n).next with require := (unindexed n).resolveAndLoad }

section
variable {m : Evaluator} {w w' : World} {id : String} {o : Except LoaderError Value}

theorem ends_resolveAndLoad :
    (m.resolveAndLoad id).Ends w o w' ↔
      (∃ e, (resolve id).Ends w (.error e) w' ∧ o = .error e) ∨
        ∃ path, (resolve id).Ends w (.ok path) w ∧ (m.load id path).Ends w o w' := by
  unfold Evaluator.resolveAndLoad
  rw [ends_bind, or_comm]
  refine or_congr_right ⟨?_, ?_⟩
  · rintro ⟨path, v, hp, hl⟩
    obtain rfl : v = w := (ends_resolve.1 hp).2
    exact ⟨path, hp, hl⟩
  · rintro ⟨path, hp, hl⟩
    exact ⟨path, w, hp, hl⟩

theorem ends_load_of_record {n : Nat} {path : Path} {record : Record}
    (hr : w.modules.cache.record? path = some record)
    (h : ((unindexed n).load id path).Ends w o w') : o = .ok record.exports ∧
      w' = w.withModules (w.modules.noted (.recordHit path record.state)) := by
  cases n with
  | zero => exact absurd h not_ends_outOfFuel
  | succ n => exact (ends_loadStep_of_record hr).1 h

end

/-- Without an index one step more is needed, at most: where the index would have hit, the record
    is found by a load. -/
theorem evaluator_mimicked (n : Nat) :
    (evaluator n).Mimicked (AlikeWith Modules.Tidy fun _ => True) (unindexed (n + 1)) := by
  have hT := twins_alikeWith lasting_tidy lasting_true
  induction n with
  | zero => exact .exhausted _
  | succ n ih =>
    rw [evaluator_succ]
    refine ih.next hT fun id w o w' k h hk => ?_
    rcases ends_requireStep.1 h with ⟨v, hl, rfl, rfl⟩ | ⟨-, ⟨e, he, rfl⟩ | ⟨path, hp, h⟩⟩
    · obtain ⟨p, r, -, hp, hr, -, rfl⟩ := (Modules.indexedOn_true.2 hk.2.1.indexed).of_lookup trivial hl
      have hload : ((unindexed (n + 1)).load id p).Ends (w.withModules k) (.ok r.exports)
          (w.withModules (k.noted (.recordHit p r.state))) :=
        (ends_loadStep_of_record ((hT.record hk p).trans hr)).2 ⟨rfl, rfl⟩
      refine ⟨_, ends_resolveAndLoad.2 (.inr ⟨p, ends_resolve_of_twins hT hk hp, hload⟩), ?_, ?_, trivial⟩
      · exact (hk.1.noted_left rfl).noted_right rfl
      · exact lasting_tidy hk.2.1 rfl rfl rfl
    · obtain ⟨k', hk', hT'⟩ := mimicked_resolve hT id he hk
      exact ⟨k', ends_resolveAndLoad.2 (.inl ⟨e, hk', rfl⟩), hT'⟩
    · have hp := (ends_resolve.1 hp).1.symm
      have hres := ends_resolve_of_twins hT hk hp
      rcases h with ⟨e, he, rfl⟩ | ⟨v, u, hu, rfl, rfl⟩
      · obtain ⟨k', hk', hT'⟩ := ih.load id path he hk
        exact ⟨k', ends_resolveAndLoad.2 (.inr ⟨path, hres, hk'⟩), hT'⟩
      · obtain ⟨k', hk', ha, ht, -⟩ := ih.load id path hu hk
        have hs := (evaluator_steady n).load id path hu
        exact ⟨k', ends_resolveAndLoad.2 (.inr ⟨path, hres, hk'⟩), ha.remember_left _ _ _,
          hs.tidy_remember ht hp, trivial⟩

theorem unindexed_mimicked (n : Nat) :
    (unindexed n).Mimicked (AlikeWith (fun _ => True) Modules.Tidy) (evaluator n) := by
  have hT := twins_alikeWith lasting_true lasting_tidy
  induction n with
  | zero => exact .exhausted _
  | succ n ih =>
    rw [evaluator_succ]
    refine ih.next hT fun id w o w' k h hk => ?_
    cases hl : k.cache.lookup k.base id with
    | some v =>
      obtain ⟨p, r, -, hp, hr, -, rfl⟩ := (Modules.indexedOn_true.2 hk.2.2.indexed).of_lookup trivial hl
      rcases ends_resolveAndLoad.1 h with ⟨e, he, rfl⟩ | ⟨path, hpath, hload⟩
      · have hp' := (ends_resolve.1 he).1.trans ((hT.resolve hk id).symm.trans hp)
        cases hp'
      · have hp' := (ends_resolve.1 hpath).1.trans ((hT.resolve hk id).symm.trans hp)
        cases hp'
        obtain ⟨rfl, rfl⟩ := ends_load_of_record ((hT.record hk p).symm.trans hr) hload
        refine ⟨_, ends_requireStep.2 (.inl ⟨_, hl, rfl, rfl⟩), ?_, trivial, ?_⟩
        · exact (hk.1.noted_left rfl).noted_right rfl
        · exact lasting_tidy hk.2.2 rfl rfl rfl
    | none =>
      rcases ends_resolveAndLoad.1 h with ⟨e, he, rfl⟩ | ⟨path, hpath, hload⟩
      · obtain ⟨k', hk', hT'⟩ := mimicked_resolve hT id he hk
        exact ⟨k', ends_requireStep.2 (.inr ⟨hl, .inl ⟨e, hk', rfl⟩⟩), hT'⟩
      · have hp := (ends_resolve.1 hpath).1.symm
        have hres := ends_resolve_of_twins hT hk hp
        obtain ⟨l, hend, hTl⟩ := ih.load id path hload hk
        cases o with
        | error e =>
          exact ⟨l, ends_requireStep.2 (.inr ⟨hl, .inr ⟨path, hres, .inl ⟨e, hend, rfl⟩⟩⟩), hTl⟩
        | ok v =>
          have hs : Steady k l := (evaluator_steady n).load id path hend
          exact ⟨_, ends_requireStep.2 (.inr ⟨hl, .inr ⟨path, hres, .inr ⟨v, _, hend, rfl, rfl⟩⟩⟩),
            hTl.1.remember_right _ _ _, trivial,
            hs.tidy_remember hTl.2.2 ((hT.resolve hk id).trans hp)⟩

/-! ## Sessions -/

/-- Runs the program in a text. -/
def Evaluator.runText (m : Evaluator) (source : String) : ScriptRun Value := do
  let body ← parseText source
  let globals := (← get).globals
  hoist globals body
  return (← execList (m.exec globals globals) .undefined body).value

/-- The evaluators of a loader run it as a host does. -/
theorem runText_evaluator (n : Nat) (source : String) :
    (evaluator n).runText source = evalText n source := rfl

/-- What a host may call for. -/
inductive HostCall where
  | require (id : String)
  | resolve (id : String)
  /-- records a module -/
  | put (id : String) (p : Path) (v : Value)
  /-- deletes a module -/
  | delete (p : Path)
  /-- deletes all modules -/
  | clear
  /-- runs a program -/
  | run (source : String)
  | call (f : Value) (args : List Value)
  /-- changes objects, or makes some -/
  | edit (f : Heap → Heap)

/-- What a host is answered. -/
inductive Answer where
  | exports (o : Except LoaderError Value)
  | path (o : Except LoaderError Path)
  | value (o : Except ScriptError Value)
  | record (r : Option Record)
  | done

/-- A call of the host, made in `w`, is answered `a` in `w'`. -/
inductive HostCall.Gives (m : Evaluator) : HostCall → World → Answer → World → Prop
  | require {id w o w'} : (m.require id).Ends w o w' → Gives m (.require id) w (.exports o) w'
  | resolve {id w o w'} : (Machine.resolve id).Ends w o w' → Gives m (.resolve id) w (.path o) w'
  | put {id p v w} : Gives m (.put id p v) w (.exports (.ok (w.modules.cache.put id p v).1))
      (w.withModules (w.modules.put id p v))
  | delete {p w} : Gives m (.delete p) w (.record (w.modules.cache.delete p).1)
      (w.withModules (w.modules.delete p))
  | clear {w} : Gives m .clear w .done (w.withModules w.modules.clear)
  | run {source w o w'} : (m.runText source).Ends w o w' → Gives m (.run source) w (.value o) w'
  | call {f args w o w'} : (m.call f args).Ends w o w' → Gives m (.call f args) w (.value o) w'
  | edit {f w} : Gives m (.edit f) w .done { w with heap := f w.heap }

/-- The calls of a host from `w` to `w'`, with the answers of a loader; each call may go as deep as
    it likes. -/
inductive Session (loader : Nat → Evaluator) : World → List (HostCall × Answer) → World → Prop
  | nil {w} : Session loader w [] w
  | cons {n call answer w u w' log} : call.Gives (loader n) w answer u → Session loader u log w' →
      Session loader w ((call, answer) :: log) w'

section
variable {files : FileSystem} {allowed : Resolver → Prop} {w w' : World}

/-- A call leads from a world between the calls of a host to another one. -/
theorem HostCall.Gives.hosted {n : Nat} {call : HostCall} {answer : Answer}
    (hc : call.Gives (evaluator n) w answer w') (h : Hosted files allowed w) :
    Hosted files allowed w' := by
  cases hc with
  | @require id _ _ _ hx => exact .called (j := .require id) h rfl ⟨_, hx, rfl⟩
  | resolve hx =>
    obtain ⟨-, rfl⟩ := ends_resolve.1 hx
    exact h
  | put => exact .put _ _ _ h
  | delete => exact .delete _ h
  | clear => exact .clear h
  | run hx => exact h.evalText hx
  | @call f args _ _ _ hx => exact .called (j := .call f args) h rfl ⟨_, hx, rfl⟩
  | edit => exact .elsewhere h rfl rfl h.atRest.allowed

/-- So does a session. -/
theorem Session.hosted {log : List (HostCall × Answer)} (hs : Session evaluator w log w')
    (h : Hosted files allowed w) : Hosted files allowed w' := by
  induction hs with
  | nil => exact h
  | cons hc _ ih => exact ih (hc.hosted h)

end

theorem Evaluator.Mimicked.runText {T : Modules → Modules → Prop} {m m' : Evaluator}
    (h : m.Mimicked T m') (source : String) :
    (m.runText source).Mimicked T (m'.runText source) := by
  have hparse : (parseText source).Blind := by
    unfold parseText
    split
    · exact .pure _
    · exact .fail _
  refine .bind hparse.mimicked fun body w o w' k hx hT => ?_
  -- both look at the globals, which are the same
  have hrun := (tolerant_blind.hoist w.globals body).mimicked.bind fun _ =>
    (mimicked_execList (h.exec w.globals w.globals) .undefined body).map (f := Completion.value)
  exact hrun hx hT

/-- A property of modules that the host keeps when it records and deletes modules. -/
structure HostKeeps (P : Modules → Prop) : Prop where
  put {m : Modules} (id : String) (p : Path) (v : Value) : P m → P (m.put id p v)
  delete {m : Modules} (p : Path) : P m → P (m.delete p)
  clear {m : Modules} : P m → P m.clear

theorem hostKeeps_true : HostKeeps fun _ => True := ⟨fun _ _ _ h => h, fun _ h => h, fun h => h⟩

theorem hostKeeps_tidy : HostKeeps Modules.Tidy where
  put {m} id p v h := lasting_tidy h rfl rfl (Cache.index_put m.cache p id v)
  delete {m} p h := by
    refine ⟨fun dir id q hq => ?_, Cache.nodup_index_delete _ p h.nodup⟩
    exact h.indexed dir id q (Cache.get?_index_delete _ p h.nodup hq)
  clear _ := by
    refine ⟨fun dir id p hp => ?_, .nil⟩
    cases hp

section
variable {P Q : Modules → Prop} (hP : HostKeeps P) (hQ : HostKeeps Q)
include hP hQ

/-- A host that is answered by one loader is answered alike by another that mimics it. -/
theorem HostCall.Gives.mimicked {m m' : Evaluator} (hT : Twins (AlikeWith P Q))
    (hm : m.Mimicked (AlikeWith P Q) m') {call : HostCall} {answer : Answer} {w w' : World}
    {k : Modules} (h : call.Gives m w answer w') (hk : AlikeWith P Q w.modules k) :
    ∃ k', call.Gives m' (w.withModules k) answer (w'.withModules k') ∧
      AlikeWith P Q w'.modules k' := by
  cases h with
  | @require id _ _ _ hx =>
    obtain ⟨k', hk', hT'⟩ := hm.require id hx hk
    exact ⟨k', .require hk', hT'⟩
  | @resolve id _ _ _ hx =>
    obtain ⟨k', hk', hT'⟩ := mimicked_resolve hT id hx hk
    exact ⟨k', .resolve hk', hT'⟩
  | @put id p v _ =>
    obtain ⟨hv, hc⟩ := hk.1.cache.finish id p v
    refine ⟨k.put id p v, ?_, hk.1.withCache hc, hP.put id p v hk.2.1, hQ.put id p v hk.2.2⟩
    have hput : HostCall.Gives m' (.put id p v) (w.withModules k) _ _ := .put
    rw [show ((w.withModules k).modules.cache.put id p v).1 = (w.modules.cache.put id p v).1 from hv]
      at hput
    exact hput
  | @delete p _ =>
    obtain ⟨hr, hc⟩ := hk.1.cache.delete p
    refine ⟨k.delete p, ?_, hk.1.withCache hc, hP.delete p hk.2.1, hQ.delete p hk.2.2⟩
    have hdelete : HostCall.Gives m' (.delete p) (w.withModules k) _ _ := .delete
    rw [show ((w.withModules k).modules.cache.delete p).1 = (w.modules.cache.delete p).1 from hr]
      at hdelete
    exact hdelete
  | clear =>
    exact ⟨k.clear, .clear, hk.1.withCache hk.1.cache.clear, hP.clear hk.2.1, hQ.clear hk.2.2⟩
  | @run source _ _ _ hx =>
    obtain ⟨k', hk', hT'⟩ := hm.runText source hx hk
    exact ⟨k', .run hk', hT'⟩
  | @call f args _ _ _ hx =>
    obtain ⟨k', hk', hT'⟩ := hm.call f args hx hk
    exact ⟨k', .call hk', hT'⟩
  | edit => exact ⟨k, .edit, hk⟩

/-- Call by call, so is a whole session. -/
theorem Session.mimicked {loader loader' : Nat → Evaluator} (hT : Twins (AlikeWith P Q))
    (hm : ∀ n, ∃ n', (loader n).Mimicked (AlikeWith P Q) (loader' n')) {w w' : World} {k : Modules}
    {log : List (HostCall × Answer)} (h : Session loader w log w') (hk : AlikeWith P Q w.modules k) :
    ∃ k', Session loader' (w.withModules k) log (w'.withModules k') ∧ w'.modules.Alike k' := by
  induction h generalizing k with
  | nil => exact ⟨k, .nil, hk.1⟩
  | @cons n _ _ _ _ _ _ hc _ ih =>
    obtain ⟨n', hn'⟩ := hm n
    obtain ⟨k₁, hc', hk₁⟩ := hc.mimicked hP hQ hT hn' hk
    obtain ⟨k', hs, ha⟩ := ih hk₁
    exact ⟨k', .cons hc' hs, ha⟩

end

/-- **The index changes nothing.**  The file system and the search directories stay as they are.
    Then a host finds a loader with an index in a world where one without an index brings it, too,
    with the same answers on the way, and the other way round: the worlds are the same but for the
    modules, and of these the records, the contexts and what befell modules are the same.  And at
    every moment, where the index has exports, the identifier leads to the path in the index, and
    the exports are those on record there. -/
theorem index_transparent {files : FileSystem} {resolver : Resolver} :
    (∀ w, Hosted files (· = resolver) w → ∀ log w',
      (Session evaluator w log w' → Hosted files (· = resolver) w' ∧
        ∃ k, Session unindexed w log (w'.withModules k) ∧ w'.modules.Alike k) ∧
      (Session unindexed w log w' →
        ∃ k, Session evaluator w log (w'.withModules k) ∧ w'.modules.Alike k)) ∧
    ∀ n j w frames, Opened (Hosted files (· = resolver)) n ((j, w) :: frames) →
      ∀ id v, w.modules.cache.lookup w.modules.base id = some v → ∃ p r,
        w.modules.cache.index.get? (w.modules.base.components, id) = some p ∧
        w.modules.resolver.resolve w.modules.files id w.modules.cache.currentContext = .ok p ∧
        w.modules.cache.record? p = some r ∧ r.state = .loaded ∧ r.exports = v := by
  have hq (r r' : Resolver) (hr : r = resolver) (hr' : r' = resolver) (id : String) (_ : True)
      (fs : FileSystem) (context : Option Path) :
      r'.resolve fs id context = r.resolve fs id context := by rw [hr, hr']
  refine ⟨fun w h log w' => ⟨fun hs => ⟨hs.hosted h, ?_⟩, fun hs => ?_⟩, fun n j w frames h id v hl => ?_⟩
  · have htidy : w.modules.Tidy := ⟨Modules.indexedOn_true.1 (h.indexedOn hq), h.atRest.nodup⟩
    exact hs.mimicked hostKeeps_tidy hostKeeps_true (twins_alikeWith lasting_tidy lasting_true)
      (fun n => ⟨n + 1, evaluator_mimicked n⟩) ⟨.refl _, htidy, trivial⟩
  · have htidy : w.modules.Tidy := ⟨Modules.indexedOn_true.1 (h.indexedOn hq), h.atRest.nodup⟩
    exact hs.mimicked hostKeeps_true hostKeeps_tidy (twins_alikeWith lasting_true lasting_tidy)
      (fun n => ⟨n, unindexed_mimicked n⟩) ⟨.refl _, trivial, htidy⟩
  · exact (h.indexedOn hq).of_lookup trivial hl

/-! ## A module that is required twice -/

/-- The host records a module, requires it, and requires it again. -/
def requiredTwice : List (HostCall × Answer) :=
  [(.put "./a" ⟨"/a.js"⟩ .null, .exports (.ok .null)), (.require "./a", .exports (.ok .null)),
    (.require "./a", .exports (.ok .null))]

/-- The second time the index has it. -/
theorem session_requiredTwice : ∃ w, Session evaluator (.ofModule "") requiredTwice w ∧
    w.modules.cache.lookup w.modules.base "./a" = some .null := by
  have hput : HostCall.Gives (evaluator 2) (.put "./a" ⟨"/a.js"⟩ .null) (.ofModule "")
      (.exports (.ok .null)) ((World.ofModule "").withModules
        ((World.ofModule "").modules.put "./a" ⟨"/a.js"⟩ .null)) := .put
  have hres : (resolve "./a").Ends ((World.ofModule "").withModules
      ((World.ofModule "").modules.put "./a" ⟨"/a.js"⟩ .null)) (.ok ⟨"/a.js"⟩) _ :=
    ends_resolve.2 ⟨(ends_resolve.1 (resolve_ofModule "")).1, rfl⟩
  have hfirst : ∃ u, ((evaluator 2).require "./a").Ends ((World.ofModule "").withModules
      ((World.ofModule "").modules.put "./a" ⟨"/a.js"⟩ .null)) (.ok .null) u ∧
      u.modules.cache.lookup u.modules.base "./a" = some .null :=
    ⟨_, ends_requireStep.2 (.inr ⟨rfl, .inr ⟨⟨"/a.js"⟩, hres, .inr
      ⟨_, _, ends_loadStep.2 (.inl ⟨_, rfl, rfl, rfl⟩), rfl, rfl⟩⟩⟩), rfl⟩
  obtain ⟨u, hu, hl⟩ := hfirst
  have hsecond : ((evaluator 1).require "./a").Ends u (.ok .null)
      (u.withModules (u.modules.noted (.indexHit "./a"))) :=
    (ends_requireStep_of_lookup hl).2 ⟨rfl, rfl⟩
  exact ⟨_, .cons hput (.cons (.require hu) (.cons (.require hsecond) .nil)), hl⟩

/-- A loader without an index gives the same answers. -/
theorem index_transparent_requiredTwice : ∃ (w : World) (k : Modules),
    Session evaluator (.ofModule "") requiredTwice w ∧
      Session unindexed (.ofModule "") requiredTwice (w.withModules k) ∧ w.modules.Alike k ∧
      ∃ (p : Path) (r : Record), w.modules.cache.record? p = some r ∧ r.state = .loaded ∧ r.exports = .null := by
  obtain ⟨hsessions, hmoments⟩ := @index_transparent (.only ⟨"/a.js"⟩ "") .atRoot
  obtain ⟨w, hs, hl⟩ := session_requiredTwice
  obtain ⟨hw, k, hk, ha⟩ := (hsessions _ (.fresh rfl rfl rfl) requiredTwice w).1 hs
  obtain ⟨p, r, -, -, hr⟩ := hmoments 0 (.require "./a") w [] (.called hw rfl) "./a" .null hl
  exact ⟨w, k, hs, hk, ha, p, r, hr⟩

end Requisite.Machine
