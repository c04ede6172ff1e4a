/-
  Resolved paths.

  Whatever the manifests say, every file that a search may come to is an absolute
  path in normal form, with an extension that can be loaded.  Such a path needs
  no search: it is resolved to itself.

  * `Resolver.Configured`: the resolvers of a configuration;
  * `Resolver.Loadable`: the paths that may be loaded;
  * `Resolver.loadable_of_mem_candidates`: a search ends nowhere else;
  * `Resolver.resolve_settled`: what is resolved is such a file, and is resolved to
    itself.
-/
import Requisite.Proofs.Normal
import Requisite.Proofs.Search

namespace Requisite

/-! ## Parents of absolute paths -/

namespace Path

theorem isAbsolute_of_parent? {p q : Path} (h : p.isAbsolute) (hq : p.parent? = some q) :
    q.isAbsolute := by
  rcases ht : p.text.toList with _ | ⟨c, rest⟩
  · simp [isAbsolute, ht] at h
  · obtain rfl : c = '/' := by simpa [isAbsolute, ht] using h
    have hpieces : pieces '/' p.text.toList = [] :: pieces '/' rest := by
      rw [ht, pieces, if_pos rfl]
    unfold parent? at hq
    rw [hpieces] at hq
    dsimp only at hq
    split at hq
    · cases hq
    · split at hq
      · cases hq
        rfl
      · next hkept =>
        cases hq
        obtain ⟨s, ss, hs⟩ := List.exists_cons_of_ne_nil (mt List.reverse_eq_nil_iff.1 hkept)
        simp [hs, joinSegments, isAbsolute]

theorem isAbsolute_of_mem_ancestors {p q : Path} (h : p.isAbsolute) (hq : q ∈ p.ancestors) :
    q.isAbsolute := by
  unfold ancestors at hq
  generalize p.text.length = n at hq
  induction n generalizing p with
  | zero =>
    rw [List.mem_singleton.1 hq]
    exact h
  | succ n ih =>
    rw [ancestors.go] at hq
    split at hq
    · rw [List.mem_singleton.1 hq]
      exact h
    · next r hr =>
      rcases List.mem_cons.1 hq with rfl | hq
      · exact h
      · exact ih (isAbsolute_of_parent? h hr) hq

end Path

namespace Loader

open Requisite Requisite.Script

namespace Resolver

/-! ## Resolvers -/

/-- The resolvers of a configuration, with any changes of the search directories made since. -/
inductive Configured (c : Config) (processDir : Path) : Resolver → Prop
  | ofConfig : Configured c processDir (ofConfig c processDir)
  | setPaths {r : Resolver} (paths : List Path) :
    Configured c processDir r → Configured c processDir (r.setPaths paths)
  | addPath {r : Resolver} (p : Path) :
    Configured c processDir r → Configured c processDir (r.addPath p)

/-- Everything a resolver starts from is absolute. -/
structure Anchored (r : Resolver) : Prop where
  cwd : r.cwd.isAbsolute
  paths : ∀ dir ∈ r.paths, dir.isAbsolute

theorem Configured.anchored {c : Config} {processDir : Path} {r : Resolver}
    (h : Configured c processDir r) (hcwd : (c.workingDir processDir).isAbsolute) :
    r.Anchored := by
  have habsolute (paths : List Path) {base : Path} (hbase : base.isAbsolute) :
      ∀ dir ∈ paths.map fun p => p.absolutize base, dir.isAbsolute := by
    intro dir hdir
    obtain ⟨p, -, rfl⟩ := List.mem_map.1 hdir
    exact (Path.isNormal_absolutize p hbase).isAbsolute
  induction h with
  | ofConfig => exact ⟨hcwd, habsolute c.paths hcwd⟩
  | setPaths paths _ ih => exact ⟨ih.cwd, habsolute paths ih.cwd⟩
  | addPath p _ ih =>
    refine ⟨ih.cwd, fun dir hdir => ?_⟩
    rcases List.mem_append.1 hdir with hdir | hdir
    · exact ih.paths dir hdir
    · exact habsolute [p] ih.cwd dir hdir

/-- The script extension can be told in the name of a file, and files with it can be loaded. -/
structure Extends (r : Resolver) : Prop where
  isExtension : Path.IsExtension r.extension
  supported : r.extension ∉ r.unsupported

theorem Configured.extends {c : Config} {processDir : Path} {r : Resolver}
    (h : Configured c processDir r) (hext : Path.IsExtension c.extension)
    (hsupported : c.extension ∉ c.unsupported) : r.Extends := by
  induction h with
  | ofConfig => exact ⟨hext, hsupported⟩
  | setPaths _ _ ih => exact ⟨ih.isExtension, ih.supported⟩
  | addPath _ _ ih => exact ⟨ih.isExtension, ih.supported⟩

/-! ## Paths that may be loaded -/

/-- A path that may be loaded, if it is a file. -/
structure Loadable (r : Resolver) (p : Path) : Prop where
  isNormal : p.IsNormal
  supported : p.extension?.any r.unsupported.contains = false

variable {r : Resolver} {fs : FileSystem} {id : String} {p dir root : Path}

/-- Paths with the script extension, or none, may be loaded. -/
theorem Extends.loadable (h : r.Extends) (hp : p.IsNormal)
    (hext : ∀ e, p.extension? = some e → e = r.extension) : r.Loadable p where
  isNormal := hp
  supported := by
    cases he : p.extension? with
    | none => rfl
    | some e => simpa [hext e he] using h.supported

theorem Extends.loadable_appendExtension (h : r.Extends) (hroot : root.IsNormal) :
    r.Loadable (root.appendExtension r.extension) :=
  have hp := hroot.appendExtension h.isExtension
  h.loadable hp.1 hp.2

theorem Extends.loadable_indexFile (h : r.Extends) (hdir : dir.IsNormal) :
    r.Loadable (r.indexFile dir) := by
  have hindex : r.indexFile dir =
      dir.join ⟨String.ofList ("index".toList ++ '.' :: r.extension.toList)⟩ := by
    refine congrArg (fun s => dir.join ⟨s⟩) (String.toList_inj.1 ?_)
    simp
  have hname := h.isExtension.isName (s := "index".toList) (by decide)
  obtain ⟨names, hnames, rfl⟩ := hdir
  have hall : ∀ s ∈ names ++ ["index".toList ++ '.' :: r.extension.toList], Path.IsName s := by
    rw [List.forall_mem_append, List.forall_mem_singleton]
    exact ⟨hnames, hname⟩
  rw [hindex, Path.join_below hnames hname]
  refine h.loadable ⟨_, hall, rfl⟩ fun e he => ?_
  rw [Path.extension?_below h.isExtension hall] at he
  exact (Option.some.inj he).symm

/-! ## Candidates that may be loaded -/

theorem Extends.loadable_of_mem_fileCandidates (h : r.Extends) (hroot : root.IsNormal)
    (hp : .wanted p ∈ r.fileCandidates root) : r.Loadable p := by
  rcases List.mem_cons.1 hp with hp | hp
  · split at hp
    · exact nomatch hp
    · next hext =>
      cases hp
      exact ⟨hroot, Bool.eq_false_iff.2 hext⟩
  rcases List.mem_cons.1 hp with hp | hp
  · cases hp
    exact h.loadable_appendExtension hroot
  · obtain ⟨q, -, hq⟩ := List.mem_map.1 hp
    exact nomatch hq

/-- A manifest may name any text: the entry is put into normal form. -/
theorem Extends.loadable_of_mem_mainCandidates (h : r.Extends) (hdir : dir.IsNormal)
    {main : Option String} (hp : .wanted p ∈ r.mainCandidates dir main) : r.Loadable p := by
  cases main with
  | none =>
    cases List.mem_singleton.1 hp
    exact h.loadable_indexFile hdir
  | some main =>
    have hentry : (dir.join ⟨main⟩).normalize.IsNormal :=
      Path.isNormal_absolutize ⟨main⟩ hdir.isAbsolute
    rcases List.mem_append.1 hp with hp | hp
    · exact h.loadable_of_mem_fileCandidates hentry hp
    · cases List.mem_singleton.1 hp
      exact h.loadable_indexFile hentry

theorem Extends.loadable_of_mem_entryCandidates (h : r.Extends) (hdir : dir.IsNormal)
    (hp : .wanted p ∈ r.entryCandidates fs dir) : r.Loadable p := by
  rw [entryCandidates_eq] at hp
  split at hp
  · exact nomatch List.mem_singleton.1 hp
  · exact h.loadable_of_mem_mainCandidates hdir hp

theorem isNormal_of_dirFor? (hroot : root.IsNormal) (hdir : dirFor? fs root = some dir) :
    dir.IsNormal := by
  rcases List.mem_cons.1 (List.mem_of_find?_eq_some hdir) with rfl | hparent
  · exact hroot
  · exact hroot.of_parent? (Option.mem_toList.1 hparent)

theorem Extends.loadable_of_mem_rootCandidates (h : r.Extends) (hroot : root.IsNormal)
    (hp : .wanted p ∈ r.rootCandidates fs id root) : r.Loadable p := by
  rcases List.mem_append.1 hp with hp | hp
  · split at hp
    · exact nomatch hp
    · exact h.loadable_of_mem_fileCandidates hroot hp
  · obtain ⟨dir, hdir, hp⟩ := List.mem_flatMap.1 hp
    rw [Option.mem_toList] at hdir
    exact h.loadable_of_mem_entryCandidates (isNormal_of_dirFor? hroot hdir) hp

theorem Anchored.isAbsolute_of_mem_startDirs (h : r.Anchored) {context : Option Path}
    (hcontext : ∀ dir ∈ context, dir.isAbsolute) (hdir : dir ∈ r.startDirs fs id context) :
    dir.isAbsolute := by
  unfold startDirs at hdir
  split at hdir
  · rw [List.mem_singleton.1 hdir]
    cases context with
    | none => exact h.cwd
    | some asks => exact hcontext asks rfl
  · split at hdir
    · rw [List.mem_singleton.1 hdir]
      exact h.cwd
    · rcases List.mem_cons.1 hdir with rfl | hdir
      · exact h.cwd
      rcases List.mem_append.1 hdir with hdir | hdir
      · exact h.paths dir (List.mem_filter.1 hdir).1
      · obtain ⟨a, ha, rfl⟩ := List.mem_map.1 (List.mem_filter.1 hdir).1
        exact Path.isAbsolute_join _ (Path.isAbsolute_of_mem_ancestors h.cwd ha)

theorem Anchored.isNormal_of_mem_places (h : r.Anchored) {context : Option Path}
    (hcontext : ∀ dir ∈ context, dir.isAbsolute) (hroot : root ∈ r.places fs id context) :
    root.IsNormal := by
  obtain ⟨dir, hdir, rfl⟩ := List.mem_map.1 hroot
  exact Path.isNormal_absolutize _ (h.isAbsolute_of_mem_startDirs hcontext hdir)

/-- **A search comes to nothing but paths that may be loaded.** -/
theorem loadable_of_mem_candidates (hanchored : r.Anchored) (hext : r.Extends)
    {context : Option Path} (hcontext : ∀ dir ∈ context, dir.isAbsolute)
    (hp : .wanted p ∈ r.candidates fs id context) : r.Loadable p := by
  obtain ⟨root, hroot, hp⟩ := List.mem_flatMap.1 hp
  exact hext.loadable_of_mem_rootCandidates (hanchored.isNormal_of_mem_places hcontext hroot) hp

/-! ## Settled paths -/

/-- A file that may be loaded is resolved to itself, wherever it is asked for. -/
theorem Loadable.resolve_eq (h : r.Loadable p) (hfile : fs.isFile p) (hroot : p ≠ ⟨"/"⟩)
    (context : Option Path) : r.resolve fs p.text context = .ok p := by
  obtain ⟨names, s, hnames, hp⟩ := h.isNormal.exists_last hroot
  have hroots : r.roots fs p.text context = [p] := by
    have hself : p.absolutize (r.baseOf p.text context) = p := by
      rw [Path.absolutize, Path.join, if_pos h.isNormal.isAbsolute, h.isNormal.normalize_eq]
    unfold roots
    rw [hself, h.isNormal.isAbsolute, Bool.or_true, if_pos rfl]
  have hslash : p.text.toList.getLast? ≠ some '/' :=
    hp ▸ Path.getLast?_below (by simp) hnames
  have hempty : p.text ≠ "" := by
    rw [hp]
    simp [Path.below]
  have hasFile : r.asFile fs p.text p = .ok (some p) := by
    rw [asFile, if_pos hfile, h.supported, if_neg Bool.false_ne_true]
  rw [resolve, if_neg hempty, h.supported, if_neg Bool.false_ne_true, hroots, firstOf, asPath,
    if_neg hslash, hasFile]
  rfl

/-- **Resolved paths are settled.**  What is resolved is an absolute path in normal form, a file,
    without an extension that cannot be loaded; and it is resolved to itself from anywhere. -/
theorem resolve_settled {c : Config} {processDir : Path} {context : Option Path}
    (hr : Configured c processDir r) (hcwd : (c.workingDir processDir).isAbsolute)
    (hext : Path.IsExtension c.extension) (hsupported : c.extension ∉ c.unsupported)
    (hroot : fs.isDirectory ⟨"/"⟩) (hcontext : ∀ dir ∈ context, dir.isAbsolute)
    (h : r.resolve fs id context = .ok p) :
    p.isAbsolute ∧ p.IsNormal ∧ fs.isFile p ∧
      p.extension?.any r.unsupported.contains = false ∧
      ∀ context', r.resolve fs p.text context' = .ok p := by
  obtain ⟨hwanted, hfile⟩ := r.wanted_of_resolve fs id h
  have hloadable : r.Loadable p :=
    loadable_of_mem_candidates (hr.anchored hcwd) (hr.extends hext hsupported) hcontext hwanted
  have hne : p ≠ ⟨"/"⟩ := by
    rintro rfl
    simp only [FileSystem.isDirectory, FileSystem.isFile, decide_eq_true_eq] at hroot hfile
    cases hroot.symm.trans hfile
  exact ⟨hloadable.isNormal.isAbsolute, hloadable.isNormal, hfile, hloadable.supported,
    hloadable.resolve_eq hfile hne⟩

/-- A package below the root, whose manifest leads about. -/
def packageFiles : FileSystem := (Memory.ofTexts
  [("/lib/package.json", "\x7b\"main\": \"/../lib//./x/../main\"\x7d"),
    ("/lib/main.js", "")]).toFileSystem

/-- The file that the manifest names, with the extension. -/
theorem resolve_settled_package :
    let r := ofConfig {} ⟨"/"⟩
    r.resolve packageFiles "./lib/../lib/" none = .ok ⟨"/lib/main.js"⟩ ∧
      ∀ context, r.resolve packageFiles "/lib/main.js" context = .ok ⟨"/lib/main.js"⟩ := by
  intro r
  have h : r.resolve packageFiles "./lib/../lib/" none = .ok ⟨"/lib/main.js"⟩ := by
    have hfound : (r.resolve packageFiles "./lib/../lib/" none).toOption = some ⟨"/lib/main.js"⟩ := by
      decide +kernel
    generalize r.resolve packageFiles "./lib/../lib/" none = outcome at hfound ⊢
    obtain e | p := outcome
    · cases hfound
    · exact congrArg Except.ok (Option.some.inj hfound)
  have hr : Configured {} ⟨"/"⟩ r := .ofConfig
  have hext : Path.IsExtension "js" := ⟨by decide, by decide, by decide⟩
  have hdir : packageFiles.isDirectory ⟨"/"⟩ := by decide +kernel
  have hcontext : ∀ dir ∈ (none : Option Path), dir.isAbsolute := nofun
  obtain ⟨-, -, -, -, hself⟩ := resolve_settled hr rfl hext (by decide) hdir hcontext h
  exact ⟨h, hself⟩

end Resolver

end Loader

end Requisite
