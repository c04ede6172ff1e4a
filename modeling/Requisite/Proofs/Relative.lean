/-
  Where relative identifiers are seen from.

  It is the directory of the module whose script is at work at the time of the
  call, and not that of the module whose text has the call in it: a function that
  a module exports sees relative identifiers from the module that calls it.

  * `directoryAtWork`: the directory of the innermost module at work, or else the
    working directory of the loader;
  * `relative_from_directoryAtWork`: `require` and `require.resolve` see relative
    identifiers from there;
  * `relative_from_caller`: a function that is called from outside its module.
-/
import Requisite.Proofs.Hosted

namespace Requisite.Loader

open Requisite

/-- Where a relative identifier or an absolute one leads does not depend on the search
    directories. -/
theorem Resolver.resolve_anchored (r : Resolver) (paths : List Path) (fs : FileSystem) {id : String}
    (context : Option Path) (hid : (Path.isRelativeIdentifier id || (Path.mk id).isAbsolute) = true) :
    { r with paths := paths }.resolve fs id context = r.resolve fs id context := by
  unfold resolve roots
  simp only [hid, ↓reduceIte]
  rfl

theorem Resolver.resolve_paths (r : Resolver) (paths : List Path) (fs : FileSystem) {id : String}
    (context : Option Path) (hid : Path.isRelativeIdentifier id = true) :
    { r with paths := paths }.resolve fs id context = r.resolve fs id context :=
  r.resolve_anchored paths fs context (by rw [hid, Bool.true_or])

end Requisite.Loader

namespace Requisite.Machine

open Requisite Requisite.Source Requisite.Script Requisite.Loader

open Run

/-! ## Requires and loads -/

section
variable {w : World} {id : String} {o : Except LoaderError Value} {q : String → Prop}
  (hi : w.modules.IndexedOn q) (hq : q id)
include hi hq

/-- What is required of an identifier that leads to a file is what is loaded from there. -/
theorem ends_require_iff_load {path : Path}
    (hp : w.modules.resolver.resolve w.modules.files id w.modules.cache.currentContext = .ok path) :
    (∃ n w', (require n id).Ends w o w') ↔ ∃ n w', (load n id path).Ends w o w' := by
  cases hl : w.modules.cache.lookup w.modules.base id with
  | some v =>
    obtain ⟨p, record, -, hp', hr, -, rfl⟩ := hi.of_lookup hq hl
    rw [hp] at hp'
    cases hp'
    constructor
    · rintro ⟨_ | n, w', h⟩
      · exact absurd h not_ends_outOfFuel
      · obtain ⟨rfl, -⟩ := (ends_requireStep_of_lookup hl).1 h
        exact ⟨1, _, (ends_loadStep_of_record hr).2 ⟨rfl, rfl⟩⟩
    · rintro ⟨_ | n, w', h⟩
      · exact absurd h not_ends_outOfFuel
      · obtain ⟨rfl, -⟩ := (ends_loadStep_of_record hr).1 h
        exact ⟨1, _, (ends_requireStep_of_lookup hl).2 ⟨rfl, rfl⟩⟩
  | none =>
    constructor
    · rintro ⟨_ | n, w', h⟩
      · exact absurd h not_ends_outOfFuel
      · rcases (ends_requireStep_of_miss hl hp).1 h with ⟨e, he, rfl⟩ | ⟨v, u, hu, rfl, -⟩
        · exact ⟨n, w', he⟩
        · exact ⟨n, u, hu⟩
    · rintro ⟨n, w', h⟩
      cases o with
      | error e => exact ⟨n + 1, w', (ends_requireStep_of_miss hl hp).2 (.inl ⟨e, h, rfl⟩)⟩
      | ok v => exact ⟨n + 1, _, (ends_requireStep_of_miss hl hp).2 (.inr ⟨v, w', h, rfl, rfl⟩)⟩

/-- An identifier that leads nowhere is required in vain. -/
theorem ends_require_iff_error {e : LoaderError}
    (he : w.modules.resolver.resolve w.modules.files id w.modules.cache.currentContext = .error e) :
    (∃ n w', (require n id).Ends w o w') ↔ o = .error e := by
  have hl : w.modules.cache.lookup w.modules.base id = none := by
    by_contra hne
    obtain ⟨v, hv⟩ := Option.ne_none_iff_exists'.1 hne
    obtain ⟨p, -, -, hp, -⟩ := hi.of_lookup hq hv
    cases he.symm.trans hp
  constructor
  · rintro ⟨_ | n, w', h⟩
    · exact absurd h not_ends_outOfFuel
    · rcases ends_requireStep.1 h with ⟨v, hv, -, -⟩ | ⟨-, ⟨e', he', rfl⟩ | ⟨path, hp, -⟩⟩
      · cases hl.symm.trans hv
      · cases he.symm.trans (ends_resolve.1 he').1.symm
        rfl
      · cases he.symm.trans (ends_resolve.1 hp).1.symm
  · rintro rfl
    exact ⟨1, w, ends_requireStep.2 (.inr ⟨hl, .inl ⟨e, ends_resolve.2 ⟨he.symm, rfl⟩, rfl⟩⟩)⟩

end

/-! ## Calls of natives -/

section
variable {w : World} {f : Value} {args : List Value} {id : String} {rest : List Value}
  {o : Except ScriptError Value}

/-- What a loader error is to a script. -/
def asHostError {α : Type} (o : Except LoaderError α) : Except ScriptError α :=
  o.mapError fun e => .host (.loader e)

theorem ends_mapError_host {α : Type} {x : LoaderRun α} {o : Except ScriptError α} {w' : World} :
    (mapError (fun e => .host (.loader e)) x).Ends w o w' ↔ ∃ a, x.Ends w a w' ∧ o = asHostError a := by
  rw [ends_mapError]
  constructor
  · rintro (⟨a, ha, rfl⟩ | ⟨e, he, rfl⟩)
    · exact ⟨.ok a, ha, rfl⟩
    · exact ⟨.error e, he, rfl⟩
  · rintro ⟨_ | a, ha, rfl⟩
    · exact .inr ⟨_, ha, rfl⟩
    · exact .inl ⟨a, ha, rfl⟩

theorem ends_identifierOf_string (hid : id ≠ "") :
    (identifierOf (.string id :: rest)).Ends w (.ok id) w := by
  simp [identifierOf, hid]

variable (halive : w.modules.alive = true) (hid : id ≠ "")
include halive hid

theorem ends_call_resolve (hf : codeOf? w.heap f = some (.native .resolve)) :
    (∃ n w', (call n f (.string id :: rest)).Ends w o w') ↔
      o = asHostError ((w.modules.resolver.resolve w.modules.files id
        w.modules.cache.currentContext).map fun p => .string p.text) := by
  have hstep (n : Nat) (w' : World) : (call (n + 1) f (.string id :: rest)).Ends w o w' ↔
      o = asHostError ((w.modules.resolver.resolve w.modules.files id
        w.modules.cache.currentContext).map fun p => .string p.text) ∧ w' = w := by
    show ((evaluator n).callStep f (.string id :: rest)).Ends w o w' ↔ _
    unfold Evaluator.callStep
    rw [ends_heap_bind, hf]
    show ((evaluator n).callNative (.string id :: rest) .resolve).Ends w o w' ↔ _
    unfold Evaluator.callNative
    rw [ends_modules_bind, if_pos halive, ends_bind_of (ends_identifierOf_string hid), ends_bind]
    simp only [ends_mapError_host, ends_resolve, ends_pure]
    cases w.modules.resolver.resolve w.modules.files id w.modules.cache.currentContext with
    | ok p => simp [asHostError, Except.map, Except.mapError]
    | error e => simp [asHostError, Except.map, Except.mapError, and_comm]
  constructor
  · rintro ⟨_ | n, w', h⟩
    · exact absurd h not_ends_outOfFuel
    · exact ((hstep n w').1 h).1
  · exact fun h => ⟨1, w, (hstep 0 w).2 ⟨h, rfl⟩⟩

theorem ends_call_require (hf : codeOf? w.heap f = some (.native .require)) :
    (∃ n w', (call n f (.string id :: rest)).Ends w o w') ↔
      ∃ a, (∃ n w', (require n id).Ends w a w') ∧ o = asHostError a := by
  have hstep (n : Nat) (w' : World) : (call (n + 1) f (.string id :: rest)).Ends w o w' ↔
      ∃ a, (require n id).Ends w a w' ∧ o = asHostError a := by
    show ((evaluator n).callStep f (.string id :: rest)).Ends w o w' ↔ _
    unfold Evaluator.callStep
    rw [ends_heap_bind, hf]
    show ((evaluator n).callNative (.string id :: rest) .require).Ends w o w' ↔ _
    unfold Evaluator.callNative
    rw [ends_modules_bind, if_pos halive, ends_bind_of (ends_identifierOf_string hid),
      ends_mapError_host]
    rfl
  constructor
  · rintro ⟨_ | n, w', h⟩
    · exact absurd h not_ends_outOfFuel
    · obtain ⟨a, ha, ho⟩ := (hstep n w').1 h
      exact ⟨a, ⟨n, w', ha⟩, ho⟩
  · rintro ⟨a, ⟨n, w', ha⟩, ho⟩
    exact ⟨n + 1, w', (hstep n w').2 ⟨a, ha, ho⟩⟩

end

/-! ## The directory at work -/

/-- The directory of the innermost module at work, or else the working directory of the loader. -/
def directoryAtWork (cwd : Path) (frames : List (Job × World)) : Path :=
  ((atWork frames).head?.map Path.directory).getD cwd

/-- A resolver up to its search directories. -/
def SearchesFrom (resolver r : Resolver) : Prop := ∃ paths, r = { resolver with paths := paths }

section
variable {files : FileSystem} {resolver : Resolver} {n : Nat} {j : Job} {w : World}
  {frames : List (Job × World)} {id : String}
  (h : Opened (Hosted files (SearchesFrom resolver)) n ((j, w) :: frames))
  (hid : Path.isRelativeIdentifier id = true)
include h

theorem Opened.indexedOn_relative : w.modules.IndexedOn fun id => Path.isRelativeIdentifier id := by
  refine h.indexedOn fun r r' hr hr' id hid fs context => ?_
  obtain ⟨_, rfl⟩ := hr
  obtain ⟨_, rfl⟩ := hr'
  exact (resolver.resolve_paths _ fs context hid).trans (resolver.resolve_paths _ fs context hid).symm

include hid in
/-- At every moment, a relative identifier leads where it does from the directory at work. -/
theorem Opened.resolve_relative :
    w.modules.resolver.resolve w.modules.files id w.modules.cache.currentContext =
      resolver.resolve files id (some (directoryAtWork resolver.cwd frames)) := by
  obtain ⟨paths, hr⟩ := h.allowed_resolver
  rw [hr, h.files_eq, resolver.resolve_paths paths files _ hid]
  refine Resolver.resolve_congr _ _ _ ?_
  unfold directoryAtWork Cache.currentContext
  rw [h.contexts_eq, List.head?_map, Option.getD_some]

end

/-- **Relative identifiers are seen from the directory at work.**  At every moment of a run, a
    script may call `require.resolve` or `require` with a relative identifier.  The one gives the
    path that the identifier leads to from the directory of the innermost module at work; the other
    gives what a load of that path gives.  So during its own script a module sees them from its own
    directory, and a function that it exports sees them from wherever it is called. -/
theorem relative_from_directoryAtWork {files : FileSystem} {resolver : Resolver} {n : Nat} {f : Value}
    {id : String} {rest : List Value} {w : World} {frames : List (Job × World)}
    (h : Opened (Hosted files (SearchesFrom resolver)) n ((.call f (.string id :: rest), w) :: frames))
    (halive : w.modules.alive = true) (hid : Path.isRelativeIdentifier id = true)
    (o : Except ScriptError Value) :
    (codeOf? w.heap f = some (.native .resolve) →
      ((∃ k w', (call k f (.string id :: rest)).Ends w o w') ↔
        o = asHostError ((resolver.resolve files id
          (some (directoryAtWork resolver.cwd frames))).map fun p => .string p.text))) ∧
    (codeOf? w.heap f = some (.native .require) →
      ((∃ k w', (call k f (.string id :: rest)).Ends w o w') ↔
        ∃ a, o = asHostError a ∧
          match resolver.resolve files id (some (directoryAtWork resolver.cwd frames)) with
          | .ok path => ∃ k w', (load k id path).Ends w a w'
          | .error e => a = .error e)) := by
  have hne : id ≠ "" := by
    rintro rfl
    cases hid
  have hres := h.resolve_relative hid
  refine ⟨fun hf => ?_, fun hf => ?_⟩
  · rw [ends_call_resolve halive hne hf, hres]
  · rw [ends_call_require halive hne hf]
    refine exists_congr fun a => ?_
    rw [and_comm, ← hres]
    refine and_congr_right fun _ => ?_
    cases hp : w.modules.resolver.resolve w.modules.files id w.modules.cache.currentContext with
    | ok path => exact ends_require_iff_load h.indexedOn_relative hid hp
    | error e => exact ends_require_iff_error h.indexedOn_relative hid hp

/-! ## A library -/

/-- A script that exports a function, which resolves `./b`. -/
def exportsResolve : String := "exports.f = function () \x7b return require.resolve('./b'); \x7d;"

/-- A function that the library exports and that is called from outside sees `./b` from where the
    loader works, and not from beside the library. -/
theorem relative_from_caller :
    (∃ w, (evalText 20 "require('./lib/a').f()").Ends (.withLibrary exportsResolve)
      (.ok (.string "/b.js")) w) ∧
    Resolver.atRoot.resolve (libraryFiles exportsResolve) "./b"
      (some (Path.mk "/lib/a.js").directory) = .ok ⟨"/lib/b.js"⟩ := by
  refine ⟨?_, rfl⟩
  have h : ((evalText 20 "require('./lib/a').f()").result
      (.withLibrary exportsResolve)).1.toOption = some (.string "/b.js") := by decide +kernel
  exact ⟨_, ends_of_toOption h⟩

/-! ### Its script at work -/

/-- `require.resolve('./b')` -/
def resolveCall : Expr := .call (.dot (.name "require") "resolve") [.string "./b"]

theorem ofText?_resolveCall :
    Program.ofText? "require.resolve('./b')" = .ok [.expression resolveCall] := by
  have h : Lexeme.ofText "require.resolve('./b')" =
      [⟨.identifier "require", ⟨0, 1⟩, ⟨7, 1⟩, false⟩, ⟨.symbol .dot, ⟨7, 1⟩, ⟨8, 1⟩, false⟩,
        ⟨.identifier "resolve", ⟨8, 1⟩, ⟨15, 1⟩, false⟩,
        ⟨.symbol .leftParen, ⟨15, 1⟩, ⟨16, 1⟩, false⟩, ⟨.string "./b", ⟨16, 1⟩, ⟨21, 1⟩, false⟩,
        ⟨.symbol .rightParen, ⟨21, 1⟩, ⟨22, 1⟩, false⟩, ⟨.eof, ⟨22, 1⟩, ⟨22, 1⟩, false⟩] := by
    decide +kernel
  exact Program.ofText?_of_lexemes h rfl

/-- The world when that call, the script of the library, is about to run. -/
def World.inLibrary : World := .libraryAt "require.resolve('./b')" resolveCall

/-- The script of the library is at work when it calls `require.resolve`. -/
theorem opened_inLibrary : ∃ frames, Opened
    (Hosted (libraryFiles "require.resolve('./b')") (SearchesFrom .atRoot)) 2
      ((.call (.function ⟨5⟩) [.string "./b"], .inLibrary) :: frames) ∧
    atWork frames = [⟨"/lib/a.js"⟩] := by
  have hname : ((evaluator 2).eval ⟨1⟩ (.dot (.name "require") "resolve")).Ends .inLibrary
      (.ok (.function ⟨5⟩)) .inLibrary := (ends_bind_of (ends_require_library _ _)).2 rfl
  have hcall : Asks (evaluator 2) (.eval ⟨1⟩ resolveCall) .inLibrary
      (.call (.function ⟨5⟩) [.string "./b"]) .inLibrary := .called hname rfl rfl
  have hstart : Opened (Hosted (libraryFiles "require.resolve('./b')") (SearchesFrom .atRoot)) 7
      [(.require "./lib/a", .withLibrary "require.resolve('./b')")] :=
    .called (.fresh rfl rfl ⟨[], rfl⟩) rfl
  have hlibrary := ((hstart.asked (asks_load_library _)).asked (asks_body_library _)).asked
    (asks_statement_library _ ofText?_resolveCall)
  exact ⟨_, (hlibrary.asked .expression).asked hcall, rfl⟩

/-- It sees `./b` from beside the library. -/
theorem relative_from_directoryAtWork_inLibrary : ∃ k w,
    (call k (.function ⟨5⟩) [.string "./b"]).Ends .inLibrary (.ok (.string "/lib/b.js")) w := by
  obtain ⟨frames, hopen, hwork⟩ := opened_inLibrary
  have hcall := (relative_from_directoryAtWork hopen rfl rfl (.ok (.string "/lib/b.js"))).1 rfl
  refine hcall.2 ?_
  rw [directoryAtWork, hwork]
  rfl

end Requisite.Machine
