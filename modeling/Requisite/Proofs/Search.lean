/-
  Resolution as one search.

  The functions of the resolver ask one another, come back with a miss and go on
  elsewhere.  All in all they walk along one list of candidates and stop at the
  first that decides.  The list is written out here from the files and the
  configuration alone.

  * `Candidate`, `Candidate.verdict?`: what may decide a search, and how;
  * `Resolver.places`: where an identifier may lead, in order;
  * `Resolver.candidates`: all candidates for an identifier, in order;
  * `Resolver.roots_eq`, `Resolver.directoryOf_eq`, `Resolver.asDirectory_eq`: the
    functions of the resolver go by these lists;
  * `Resolver.resolve_eq_findSome?`: resolution is a search along the list of
    candidates;
  * `Resolver.resolve_cases`: how it ends;
  * `Resolver.isFile_of_resolve`: what is resolved is a file;
  * `Resolver.resolve_congr`: how the directory that asks is written is of no
    importance.
-/
import Requisite.FileSystem.Memory
import Requisite.Loader.Resolver
import Requisite.Proofs.Path

namespace Requisite

/-- The file system with a single file. -/
def FileSystem.only (p : Path) (text : String) : FileSystem where
  probe q := if q = p then .file else .missing
  readText q := if q = p then .ok text else .error ⟨.notFound, FailureKind.notFound.description⟩

/-- The file system of these files, by their texts, without directories: a path is looked up as it
    is written. -/
def FileSystem.ofTexts (texts : List (String × String)) : FileSystem where
  probe p := if (texts.lookup p.text).isSome then .file else .missing
  readText p :=
    match texts.lookup p.text with
    | some text => .ok text
    | none => .error ⟨.notFound, FailureKind.notFound.description⟩

theorem FileSystem.mem_of_isFile_ofTexts {texts : List (String × String)} {p : Path}
    (h : (FileSystem.ofTexts texts).isFile p) : p.text ∈ texts.map Prod.fst := by
  cases ht : texts.lookup p.text with
  | none => simp [isFile, ofTexts, ht] at h
  | some text =>
    obtain ⟨before, after, rfl, -⟩ := List.lookup_eq_some_iff.1 ht
    simp

end Requisite

namespace Requisite.Loader

open Requisite Requisite.Script

/-- What may decide a search. -/
inductive Candidate where
  /-- the module that is looked for, if it is a file -/
  | wanted (p : Path)
  /-- an error, if it is a file: its extension is one that cannot be loaded -/
  | unloadable (p : Path)
  /-- an error in any case: a manifest that does not tell its entry file -/
  | broken (e : LoaderError)

/-- How a candidate decides the search for an identifier, if it does. -/
def Candidate.verdict? (fs : FileSystem) (id : String) :
    Candidate → Option (Except LoaderError Path)
  | wanted p => if fs.isFile p then some (.ok p) else none
  | unloadable p => if fs.isFile p then some (.error (.unsupported id p)) else none
  | broken e => some (.error e)

/-- The first candidate that decides, as the functions of the resolver tell it. -/
def firstVerdict (fs : FileSystem) (id : String) (cs : List Candidate) :
    Except LoaderError (Option Path) :=
  match cs.findSome? (Candidate.verdict? fs id) with
  | some (.ok p) => .ok (some p)
  | some (.error e) => .error e
  | none => .ok none

section
variable (fs : FileSystem) (id : String)

theorem firstVerdict_append (cs ds : List Candidate) :
    firstVerdict fs id (cs ++ ds) = (do
      match ← firstVerdict fs id cs with
      | some p => return some p
      | none => firstVerdict fs id ds) := by
  unfold firstVerdict
  rw [List.findSome?_append]
  rcases cs.findSome? (Candidate.verdict? fs id) with _ | _ | p <;> rfl

theorem firstVerdict_cons_wanted (p : Path) (cs : List Candidate) :
    firstVerdict fs id (.wanted p :: cs) =
      if fs.isFile p then .ok (some p) else firstVerdict fs id cs := by
  unfold firstVerdict
  rw [List.findSome?_cons, Candidate.verdict?]
  cases fs.isFile p <;> rfl

theorem firstVerdict_cons_unloadable (p : Path) (cs : List Candidate) :
    firstVerdict fs id (.unloadable p :: cs) =
      if fs.isFile p then .error (.unsupported id p) else firstVerdict fs id cs := by
  unfold firstVerdict
  rw [List.findSome?_cons, Candidate.verdict?]
  cases fs.isFile p <;> rfl

/-- Of what cannot be loaded the first that is a file is the error. -/
theorem firstVerdict_map_unloadable (ps : List Path) :
    firstVerdict fs id (ps.map .unloadable) = match ps.find? fs.isFile with
      | some native => .error (.unsupported id native)
      | none => .ok none := by
  induction ps with
  | nil => rfl
  | cons p ps ih =>
    rw [List.map_cons, firstVerdict_cons_unloadable, List.find?_cons, ih]
    cases fs.isFile p <;> rfl

end

namespace Resolver

variable (r : Resolver) (fs : FileSystem) (id : String)

/-! ## Candidates -/

/-- A path as a file. -/
def fileCandidates (root : Path) : List Candidate :=
  (if root.extension?.any r.unsupported.contains then .unloadable root else .wanted root) ::
    .wanted (root.appendExtension r.extension) ::
    (r.unsupported.map root.appendExtension).map .unloadable

/-- What a directory is taken for: the entry file that is named for it, as a file or as a
    directory with an index file, or else its own index file. -/
def mainCandidates (dir : Path) : Option String → List Candidate
  | none => [.wanted (dir.join ⟨"index." ++ r.extension⟩)]
  | some main =>
    let entry := (dir.join ⟨main⟩).normalize
    r.fileCandidates entry ++ [.wanted (entry.join ⟨"index." ++ r.extension⟩)]

/-- A directory.  Its manifest, if there is one, may name an entry file; an empty name is none. -/
def entryCandidates (dir : Path) : List Candidate :=
  let manifest := dir.join ⟨r.manifest⟩
  if fs.isFile manifest then
    match fs.readText manifest with
    | .error reason => [.broken (.unreadable manifest reason)]
    | .ok text =>
      match Manifest.ofText? text with
      | none => [.broken (.badManifest manifest)]
      | some m => r.mainCandidates dir (m.mainField.filter (· ≠ ""))
  else r.mainCandidates dir none

/-- The directory that a root stands for: the root itself, or else its parent. -/
def dirFor? (root : Path) : Option Path := (root :: root.parent?.toList).find? fs.isDirectory

/-- A root: first as a file, unless the identifier ends in a slash, then as a directory. -/
def rootCandidates (root : Path) : List Candidate :=
  (if id.toList.getLast? = some '/' then [] else r.fileCandidates root) ++
    (dirFor? fs root).toList.flatMap (r.entryCandidates fs)

/-- The directories that an identifier is seen from.  A relative one is seen from the directory of
    the module that asks; a bare one from the working directory, then from the search paths, then
    from the dependency directories from the working directory up to the root, those that
    exist. -/
def startDirs (context : Option Path) : List Path :=
  if Path.isRelativeIdentifier id then [context.getD r.cwd]
  else if (Path.mk id).isAbsolute then [r.cwd]
  else r.cwd :: (r.paths.filter fs.isDirectory ++
    (r.cwd.ancestors.map fun dir => dir.join ⟨r.dependenciesDir⟩).filter fs.isDirectory)

/-- Where an identifier may lead, in order. -/
def places (context : Option Path) : List Path :=
  (r.startDirs fs id context).map fun dir => (dir.join ⟨id⟩).normalize

/-- All candidates for an identifier, in order. -/
def candidates (context : Option Path) : List Candidate :=
  (r.places fs id context).flatMap (r.rootCandidates fs id)

/-! ## Each function searches -/

/-- The roots are the places that an identifier leads to from where it is seen. -/
theorem roots_eq (context : Option Path) : r.roots fs id context = r.places fs id context := by
  unfold roots baseOf places startDirs
  cases Path.isRelativeIdentifier id with
  | true => cases context <;> rfl
  | false =>
    cases (Path.mk id).isAbsolute with
    | true => cases context <;> rfl
    | false => cases context <;> rfl

theorem directoryOf_eq (root : Path) : directoryOf fs root = dirFor? fs root := by
  unfold directoryOf dirFor?
  rw [List.find?_cons]
  cases fs.isDirectory root with
  | true => rfl
  | false =>
    cases root.parent? with
    | none => rfl
    | some parent => cases h : fs.isDirectory parent <;> simp [h]

/-- The candidates of a directory go by what the resolver reads from its manifest. -/
theorem entryCandidates_eq (dir : Path) :
    r.entryCandidates fs dir = match r.manifestMain fs dir with
      | .error e => [.broken e]
      | .ok main => r.mainCandidates dir main := by
  unfold entryCandidates manifestMain
  dsimp only
  split
  · cases fs.readText (dir.join ⟨r.manifest⟩) with
    | error reason => rfl
    | ok text =>
      dsimp only
      cases Manifest.ofText? text with
      | none => rfl
      | some m => rfl
  · rfl

theorem asFile_eq (root : Path) :
    r.asFile fs id root = firstVerdict fs id (r.fileCandidates root) := by
  unfold asFile fileCandidates
  cases root.extension?.any r.unsupported.contains with
  | true =>
    have h := firstVerdict_cons_unloadable fs id root (.wanted (root.appendExtension r.extension) ::
      (r.unsupported.map root.appendExtension).map .unloadable)
    rw [firstVerdict_cons_wanted fs id (root.appendExtension r.extension),
      firstVerdict_map_unloadable] at h
    exact h.symm
  | false =>
    have h := firstVerdict_cons_wanted fs id root (.wanted (root.appendExtension r.extension) ::
      (r.unsupported.map root.appendExtension).map .unloadable)
    rw [firstVerdict_cons_wanted fs id (root.appendExtension r.extension),
      firstVerdict_map_unloadable] at h
    exact h.symm

theorem fileOnly_eq (p : Path) : .ok (fileOnly fs p) = firstVerdict fs id [.wanted p] := by
  rw [firstVerdict_cons_wanted, fileOnly]
  split <;> rfl

/-- What is found for a directory whose manifest has been read. -/
theorem firstVerdict_mainCandidates (dir : Path) (main : Option String) :
    firstVerdict fs id (r.mainCandidates dir main) = match main with
      | none => .ok (fileOnly fs (r.indexFile dir))
      | some main => do
        let entry := (dir.join ⟨main⟩).normalize
        match ← r.asFile fs id entry with
        | some path => return some path
        | none => return fileOnly fs (r.indexFile entry) := by
  cases main with
  | none => exact (fileOnly_eq fs id _).symm
  | some main =>
    rw [mainCandidates, firstVerdict_append, ← asFile_eq, ← indexFile, ← fileOnly_eq]
    rfl

theorem asDirectory_eq (root : Path) :
    r.asDirectory fs id root =
      firstVerdict fs id ((dirFor? fs root).toList.flatMap (r.entryCandidates fs)) := by
  unfold asDirectory
  rw [directoryOf_eq]
  cases dirFor? fs root with
  | none => rfl
  | some dir =>
    simp only [Option.toList_some, List.flatMap_singleton, entryCandidates_eq]
    rcases r.manifestMain fs dir with e | main
    · rfl
    · have h := r.firstVerdict_mainCandidates fs id dir main
      exact h.symm

theorem asPath_eq (root : Path) :
    r.asPath fs id root = firstVerdict fs id (r.rootCandidates fs id root) := by
  unfold asPath rootCandidates
  split
  · rw [List.nil_append, asDirectory_eq]
  · have h := firstVerdict_append fs id (r.fileCandidates root)
      ((dirFor? fs root).toList.flatMap (r.entryCandidates fs))
    rw [← asFile_eq, ← asDirectory_eq] at h
    exact h.symm

theorem firstOf_eq (roots tried : List Path) :
    r.firstOf fs id roots tried =
      ((roots.flatMap (r.rootCandidates fs id)).findSome? (Candidate.verdict? fs id)).getD
        (.error (.notFound id (tried ++ roots))) := by
  induction roots generalizing tried with
  | nil => simp [firstOf]
  | cons root roots ih =>
    rw [firstOf, asPath_eq, List.flatMap_cons, List.findSome?_append, firstVerdict]
    rcases (r.rootCandidates fs id root).findSome? (Candidate.verdict? fs id) with _ | _ | p
    · exact (ih (tried ++ [root])).trans (by rw [List.append_assoc]; rfl)
    · rfl
    · rfl

/-- **Resolution is a search along one list of candidates**: the first that decides does, and if
    none does, the error names all places. -/
theorem resolve_eq_findSome? (context : Option Path) (hid : id ≠ "")
    (hext : (Path.mk id).extension?.any r.unsupported.contains = false) :
    r.resolve fs id context =
      ((r.candidates fs id context).findSome? (Candidate.verdict? fs id)).getD
        (.error (.notFound id (r.places fs id context))) := by
  rw [resolve, if_neg hid, hext, if_neg Bool.false_ne_true, firstOf_eq, roots_eq]
  rfl

/-- A resolver that works in the directory `/` and has no search path. -/
def atRoot : Resolver := ⟨⟨"/"⟩, "js", "package.json", "node_modules", ["node"], []⟩

/-- A package below the directory `/lib`, whose manifest names the entry file without its
    extension, and a module of the same name among the dependencies of `/app`. -/
def installed : FileSystem := (Memory.ofTexts
  [("/lib/pkg/package.json", "\x7b\"main\": \"a/b\"\x7d"), ("/lib/pkg/a/b.js", ""),
    ("/app/node_modules/pkg.js", "")]).toFileSystem

/-- A resolver that works in `/app` and searches `/lib` first. -/
def inApp : Resolver := { atRoot with cwd := ⟨"/app"⟩, paths := [⟨"/lib"⟩] }

/-- A bare identifier, for which the directory that asks is of no importance, is found below the
    search path, before the dependencies have their turn. -/
theorem resolve_eq_findSome?_installed :
    inApp.places installed "pkg" (some ⟨"/x"⟩) =
        [⟨"/app/pkg"⟩, ⟨"/lib/pkg"⟩, ⟨"/app/node_modules/pkg"⟩] ∧
      (inApp.candidates installed "pkg" (some ⟨"/x"⟩)).findSome?
        (Candidate.verdict? installed "pkg") = some (.ok ⟨"/lib/pkg/a/b.js"⟩) ∧
      inApp.resolve installed "pkg" (some ⟨"/x"⟩) = .ok ⟨"/lib/pkg/a/b.js"⟩ := by
  have hplaces : inApp.places installed "pkg" (some ⟨"/x"⟩) =
      [⟨"/app/pkg"⟩, ⟨"/lib/pkg"⟩, ⟨"/app/node_modules/pkg"⟩] := by decide +kernel
  have hfirst : (inApp.candidates installed "pkg" (some ⟨"/x"⟩)).findSome?
      (Candidate.verdict? installed "pkg") = some (.ok ⟨"/lib/pkg/a/b.js"⟩) := by
    have hfound : ((inApp.candidates installed "pkg" (some ⟨"/x"⟩)).findSome?
        (Candidate.verdict? installed "pkg")).bind Except.toOption = some ⟨"/lib/pkg/a/b.js"⟩ := by
      rw [candidates, hplaces]
      decide +kernel
    obtain ⟨e | p, hv, hp⟩ := Option.bind_eq_some_iff.1 hfound
    · cases hp
    · exact hv.trans (congrArg _ (congrArg _ (Option.some.inj hp)))
  have hres := inApp.resolve_eq_findSome? installed "pkg" (some ⟨"/x"⟩) (by decide) rfl
  rw [hfirst] at hres
  exact ⟨hplaces, hfirst, hres⟩

/-! ## How it ends -/

/-- Resolution fails before it looks for anything, or with all roots tried, or else it ends as one
    of the candidates decides. -/
theorem resolve_cases {context : Option Path} {o : Except LoaderError Path}
    (h : r.resolve fs id context = o) :
    (∃ tried, o = .error (.notFound id tried)) ∨ (∃ p, o = .error (.unsupported id p)) ∨
      (∃ p, o = .ok p ∧ .wanted p ∈ r.candidates fs id context ∧ fs.isFile p) ∨
      ∃ e, o = .error e ∧ .broken e ∈ r.candidates fs id context := by
  unfold resolve at h
  split at h
  · exact .inl ⟨_, h.symm⟩
  split at h
  · exact .inr (.inl ⟨_, h.symm⟩)
  rw [firstOf_eq, roots_eq, ← candidates] at h
  cases hv : (r.candidates fs id context).findSome? (Candidate.verdict? fs id) with
  | none =>
    rw [hv] at h
    exact .inl ⟨_, h.symm⟩
  | some v =>
    obtain ⟨c, hc, hcv⟩ := List.exists_of_findSome?_eq_some hv
    rw [hv] at h
    subst h
    cases c with
    | wanted p =>
      obtain ⟨hf, hp⟩ := Option.ite_none_right_eq_some.1 hcv
      exact .inr (.inr (.inl ⟨p, (Option.some.inj hp).symm, hc, hf⟩))
    | unloadable p =>
      obtain ⟨-, hp⟩ := Option.ite_none_right_eq_some.1 hcv
      exact .inr (.inl ⟨p, (Option.some.inj hp).symm⟩)
    | broken e => exact .inr (.inr (.inr ⟨e, (Option.some.inj hcv).symm, hc⟩))

/-- What is resolved is one of the candidates, and a file. -/
theorem wanted_of_resolve {context : Option Path} {p : Path}
    (h : r.resolve fs id context = .ok p) :
    .wanted p ∈ r.candidates fs id context ∧ fs.isFile p := by
  rcases r.resolve_cases fs id h with ⟨_, he⟩ | ⟨_, he⟩ | ⟨q, hq, hfound⟩ | ⟨_, he, -⟩
  · cases he
  · cases he
  · cases hq
    exact hfound
  · cases he

/-- What is resolved is a file. -/
theorem isFile_of_resolve {context : Option Path} {p : Path}
    (h : r.resolve fs id context = .ok p) : fs.isFile p :=
  (r.wanted_of_resolve fs id h).2

/-- The directory that asks counts by its components only, and without one it is the working
    directory that asks. -/
theorem resolve_congr {context context' : Option Path}
    (h : (context.getD r.cwd).components = (context'.getD r.cwd).components) :
    r.resolve fs id context = r.resolve fs id context' := by
  have hb : (Path.mk id).absolutize (r.baseOf id context) =
      (Path.mk id).absolutize (r.baseOf id context') := by
    refine Path.absolutize_congr _ ?_
    unfold baseOf
    cases hr : Path.isRelativeIdentifier id with
    | true => cases context <;> cases context' <;> exact h
    | false => cases context <;> cases context' <;> rfl
  unfold resolve roots
  rw [hb]

end Resolver

end Requisite.Loader
