/-
  The layers of a configuration.

  What a project's configuration file gives is told field by field, apart from the
  reading of it: by key in a table, by place in an array.

  * `Config.given?`: the value that a file gives a field;
  * `Config.ofToml?_eq`: what is read is what is given, and the defaults else;
  * `Config.Gives`: what the file of a project gives;
  * `CommandLine.Layered`: a configuration by its layers;
  * `CommandLine.configOf_layered`: the configuration of the program is made of
    its layers;
  * `CommandLine.fileCwd_lost`: but that of the file has no say in the working
    directory.
-/
import Requisite.CommandLine.Program
import Requisite.Proofs.Settled

namespace Requisite

open Requisite

/-! ## Directories of files -/

namespace Path

/-- Segments that are no components are dropped without a change to the components. -/
theorem filterMap_dropTrivial (segments : List (List Char)) :
    (dropTrivial segments).filterMap Component.ofSegment? =
      segments.filterMap Component.ofSegment? := by
  induction segments with
  | nil => rfl
  | cons s rest ih =>
    by_cases hs : s = [] ∨ s = ['.']
    · have hnone : Component.ofSegment? s = none := if_pos hs
      rw [List.filterMap_cons_none hnone, ← ih]
      exact congrArg _ (List.dropWhile_cons_of_pos (by simpa using hs))
    · have hdrop : dropTrivial (s :: rest) = s :: rest :=
        List.dropWhile_cons_of_neg (by simpa using hs)
      rw [hdrop]

theorem dropTrivial_subset (segments : List (List Char)) : dropTrivial segments ⊆ segments :=
  (List.dropWhile_suffix _).subset

/-- Where the trivial segments are dropped, a component comes first. -/
theorem exists_ofSegment? {segments front : List (List Char)} {last : List Char}
    (h : dropTrivial segments = last :: front) : ∃ c, Component.ofSegment? last = some c := by
  have hlast := List.head?_dropWhile_not (fun s => s == [] || s == ['.']) segments
  rw [dropTrivial] at h
  rw [h] at hlast
  have hsome : ¬(last = [] ∨ last = ['.']) := by simpa using hlast
  unfold Component.ofSegment?
  rw [if_neg hsome]
  split <;> exact ⟨_, rfl⟩

/-- It is the last component of the segments in their order. -/
theorem exists_last_component {segments front : List (List Char)} {last : List Char}
    (h : dropTrivial segments.reverse = last :: front) :
    ∃ c, segments.filterMap Component.ofSegment? =
      front.reverse.filterMap Component.ofSegment? ++ [c] := by
  obtain ⟨c, hc⟩ := exists_ofSegment? h
  have hreverse := filterMap_dropTrivial segments.reverse
  rw [h, List.filterMap_cons_some hc, List.filterMap_reverse] at hreverse
  refine ⟨c, ?_⟩
  rw [← List.reverse_reverse (segments.filterMap Component.ofSegment?), ← hreverse,
    List.reverse_cons, List.filterMap_reverse]

/-- Segments of a path with the root before them make up a path of these. -/
theorem components_joinSegments {segments : List (List Char)} (hne : segments ≠ [])
    (h : ∀ s ∈ segments, '/' ∉ s) :
    (Path.mk (String.ofList (joinSegments ([] :: segments)))).components =
      .root :: segments.filterMap Component.ofSegment? := by
  obtain ⟨s, rest, rfl⟩ := List.exists_cons_of_ne_nil hne
  have habsolute : (Path.mk (String.ofList (joinSegments ([] :: s :: rest)))).isAbsolute := by
    simp [joinSegments, isAbsolute]
  have hpieces : pieces '/' (joinSegments ([] :: s :: rest)) = [] :: s :: rest :=
    pieces_joinSegments (List.cons_ne_nil _ _) (List.forall_mem_cons.2 ⟨List.not_mem_nil, h⟩)
  rw [components_eq (by rw [String.toList_ofList, hpieces]), if_pos habsolute]
  rfl

/-- What is in a directory has one component more than that. -/
theorem exists_parent? {p : Path} (h : p.isAbsolute) (hroot : p.components ≠ [.root]) :
    ∃ q, p.parent? = some q ∧ q.components = p.components.dropLast := by
  obtain ⟨rest, hpieces⟩ := pieces_of_isAbsolute h
  rw [components_eq hpieces, if_pos h] at hroot ⊢
  unfold parent?
  rw [hpieces]
  dsimp only
  split
  · next hnil =>
    have hnone := filterMap_dropTrivial rest.reverse
    rw [hnil, List.filterMap_reverse, List.filterMap_nil, eq_comm, List.reverse_eq_nil_iff] at hnone
    exact absurd (by rw [hnone]; rfl) hroot
  · next last front hlast =>
    obtain ⟨c, hrest⟩ := exists_last_component hlast
    rw [hrest, ← List.append_assoc, List.dropLast_concat]
    have hfront : (dropTrivial front).reverse.filterMap Component.ofSegment? =
        front.reverse.filterMap Component.ofSegment? := by
      rw [List.filterMap_reverse, filterMap_dropTrivial, List.filterMap_reverse]
    split
    · next hnil =>
      refine ⟨_, rfl, ?_⟩
      rw [← hfront, hnil]
      rfl
    · next hne =>
      have hslash : ∀ s ∈ (dropTrivial front).reverse, '/' ∉ s := by
        intro s hs
        have hs : s ∈ front := dropTrivial_subset front (List.mem_reverse.1 hs)
        have hs : s ∈ dropTrivial rest.reverse := hlast ▸ List.mem_cons_of_mem last hs
        have hs : s ∈ rest := List.mem_reverse.1 (dropTrivial_subset _ hs)
        exact notMem_of_mem_pieces (hpieces ▸ List.mem_cons_of_mem [] hs)
      refine ⟨_, rfl, ?_⟩
      rw [components_joinSegments (mt List.reverse_eq_nil_iff.1 hne) hslash, hfront]
      rfl

/-- What is seen from the directory of a file is what is seen from the directory that the file is
    named in. -/
theorem absolutize_directory {dir : Path} {name : List Char} (h : dir.isAbsolute)
    (hname : IsName name) (p base : Path) :
    p.absolutize (((dir.join ⟨String.ofList name⟩).parent?).getD base) = p.absolutize dir := by
  have hpieces : pieces '/' name = [name] := pieces_of_notMem hname.slash_notMem
  have hrelative : (Path.mk (String.ofList name)).isAbsolute = false := by
    cases name with
    | nil => exact absurd rfl hname.ne_nil
    | cons c rest =>
      have hc : '/' ≠ c := fun hc => hname.slash_notMem (hc ▸ List.mem_cons_self)
      simp [isAbsolute, Ne.symm hc]
  have hne : dir.text.toList ≠ [] := by
    intro hnil
    simp [isAbsolute, hnil] at h
  have hcomponents : (dir.join ⟨String.ofList name⟩).components = dir.components ++ [named name] := by
    rw [components_join hrelative hne, steps, String.toList_ofList, hpieces,
      List.filterMap_cons_some (ofSegment?_of_isName hname)]
    rfl
  have hroot : (dir.join ⟨String.ofList name⟩).components ≠ [.root] := by
    intro hroot
    have hlast := congrArg List.getLast? (hcomponents.symm.trans hroot)
    simp [named] at hlast
  obtain ⟨q, hq, hqcomponents⟩ := exists_parent? (isAbsolute_join _ h) hroot
  rw [hcomponents, List.dropLast_concat] at hqcomponents
  rw [hq, Option.getD_some]
  exact absolutize_congr p hqcomponents

end Path

namespace Config

/-! ## What a file gives -/

/-- The value that the entry `loader` of a file gives a field. -/
def given? (loader : Toml) (f : Field) : Option Toml :=
  match loader with
  | .table _ entries => Toml.lookup f.key entries
  | .array items | .tables items => items[Field.all.idxOf f]?
  | _ => none

/-- Whether an entry `loader` can give anything: a single value cannot. -/
def describes : Toml → Bool
  | .table _ _ | .array _ | .tables _ | .datetime => true
  | _ => false

/-- Whether a field can have a value. -/
def Field.fits (v : Toml) : Field → Bool
  | unsupported | paths => (strings? v).isSome
  | extension | manifest | dependenciesDir | cwd => (string? v).isSome

/-- A field as it is given, if it is. -/
def Field.layer (c : Config) (g : Option Toml) : Field → Config
  | extension => { c with extension := (g.bind string?).getD c.extension }
  | manifest => { c with manifest := (g.bind string?).getD c.manifest }
  | dependenciesDir => { c with dependenciesDir := (g.bind string?).getD c.dependenciesDir }
  | unsupported => { c with unsupported := (g.bind strings?).getD c.unsupported }
  | paths => { c with paths := ((g.bind strings?).map (List.map Path.mk)).getD c.paths }
  | cwd => { c with cwd := ((g.bind string?).map Path.mk).or c.cwd }

/-- The defaults with the fields that are given. -/
def overDefaults (given : Field → Option Toml) : Config :=
  Field.all.foldl (fun c f => f.layer c (given f)) {}

/-- A field is set to the value that it is given, or left. -/
def Field.set (c : Config) (g : Option Toml) (f : Field) : Option Config :=
  match g with
  | some v => f.set? c v
  | none => some c

theorem Field.set_eq {c : Config} {g : Option Toml} {f : Field} (h : ∀ v ∈ g, f.fits v) :
    f.set c g = some (f.layer c g) := by
  cases g with
  | none => cases f <;> rfl
  | some v =>
    have hv := h v rfl
    cases f with
    | unsupported | paths =>
      obtain ⟨ss, hss⟩ := Option.isSome_iff_exists.1 hv
      simp [set, set?, layer, hss]
    | extension | manifest | dependenciesDir | cwd =>
      obtain ⟨s, hs⟩ := Option.isSome_iff_exists.1 hv
      simp [set, set?, layer, hs]

theorem foldlM_set {given : Field → Option Toml} (h : ∀ f, ∀ v ∈ given f, f.fits v)
    (fields : List Field) (c : Config) :
    fields.foldlM (fun c f => f.set c (given f)) c =
      some (fields.foldl (fun c f => f.layer c (given f)) c) := by
  induction fields generalizing c with
  | nil => rfl
  | cons f fields ih =>
    rw [List.foldlM_cons, Field.set_eq (h f)]
    exact ih _

/-- An array gives values by their places, as many as it has. -/
theorem ofItems?_eq (items : List Toml) :
    ofItems? items = Field.all.foldlM (fun c f => f.set c items[Field.all.idxOf f]?) {} := by
  rcases items with
    _ | ⟨a, _ | ⟨b, _ | ⟨c, _ | ⟨d, _ | ⟨e, _ | ⟨f, rest⟩⟩⟩⟩⟩⟩ <;> rfl

/-- **What is read is what is given**, and the defaults else. -/
theorem ofToml?_eq {loader : Toml} (hdescribes : describes loader)
    (h : ∀ f, ∀ v ∈ given? loader f, f.fits v) :
    ofToml? loader = some (overDefaults (given? loader)) := by
  have hfold := foldlM_set h Field.all {}
  cases loader with
  | table | datetime => exact hfold
  | array items | tables items => exact (ofItems?_eq items).trans hfold
  | _ => exact nomatch hdescribes

/-! ## Layers -/

/-- What the configuration file of the project in `dir` gives: nothing if there is no file, or if
    it has no entry `loader`. -/
inductive Gives (fs : FileSystem) (dir : Path) : (Field → Option Toml) → Prop
  | absent (hfile : fs.isFile (dir.join ⟨fileName⟩) = false) : Gives fs dir fun _ => none
  | silent {text : String} {entries : Toml.Entries}
    (hfile : fs.isFile (dir.join ⟨fileName⟩)) (htext : fs.readText (dir.join ⟨fileName⟩) = .ok text)
    (hentries : Toml.ofText? text = some entries) (hloader : Toml.lookup "loader" entries = none) :
    Gives fs dir fun _ => none
  | entry {text : String} {entries : Toml.Entries} {loader : Toml}
    (hfile : fs.isFile (dir.join ⟨fileName⟩)) (htext : fs.readText (dir.join ⟨fileName⟩) = .ok text)
    (hentries : Toml.ofText? text = some entries)
    (hloader : Toml.lookup "loader" entries = some loader) (hdescribes : describes loader)
    (hfits : ∀ f, ∀ v ∈ given? loader f, f.fits v) : Gives fs dir (given? loader)

section
variable (given : Field → Option Toml) (dir : Path)

/-- The search directories that the file in `dir` gives. -/
def filePaths : List Path :=
  (((given .paths).bind strings?).getD []).map fun s => (Path.mk s).absolutize dir

/-- The working directory that the file in `dir` gives. -/
def fileCwd? : Option Path := ((given .cwd).bind string?).map fun s => (Path.mk s).absolutize dir

/-- The search directories that the environment gives, empty ones left out. -/
def searchPaths (search : Option String) (base : Path) : List Path :=
  (((search.map Path.splitSearchPath).getD []).filter fun p => p.text ≠ "").map fun p =>
    p.absolutize base

/-- The fields that a file gives, with its paths seen from where it is. -/
def ofGiven : Config :=
  { overDefaults given with paths := filePaths given dir, cwd := fileCwd? given dir }

end

section
variable {fs : FileSystem} {given : Field → Option Toml} {dir : Path}

/-- The paths in a file are seen from the directory that it is in. -/
theorem relativeTo_directory (hdir : dir.isAbsolute) :
    (overDefaults given).relativeTo (((dir.join ⟨fileName⟩).parent?).getD ⟨"."⟩) =
      ofGiven given dir := by
  have hname : Path.IsName fileName.toList := ⟨by decide, by decide, by decide, by decide⟩
  have hbase (p : Path) :
      p.absolutize (((dir.join ⟨fileName⟩).parent?).getD ⟨"."⟩) = p.absolutize dir := by
    have h := Path.absolutize_directory hdir hname p ⟨"."⟩
    rwa [String.ofList_toList] at h
  unfold relativeTo ofGiven filePaths fileCwd?
  simp only [hbase, overDefaults, Field.all, List.foldl_cons, List.foldl_nil, Field.layer]
  cases (given .paths).bind strings? <;> cases (given .cwd).bind string? <;> simp

theorem ofFile_eq {text : String} (hdir : dir.isAbsolute)
    (htext : fs.readText (dir.join ⟨fileName⟩) = .ok text)
    (hread : ofText? text = some (overDefaults given)) :
    ofFile fs (dir.join ⟨fileName⟩) = .ok (ofGiven given dir) := by
  rw [ofFile, htext]
  simp only [hread]
  rw [relativeTo_directory hdir]

/-- What a file gives is read. -/
theorem Gives.read (h : Gives fs dir given) (hdir : dir.isAbsolute) :
    (if fs.isFile (dir.join ⟨fileName⟩) then ofFile fs (dir.join ⟨fileName⟩) else pure {}) =
      .ok (ofGiven given dir) := by
  cases h with
  | absent hfile =>
    rw [hfile]
    rfl
  | silent hfile htext hentries hloader =>
    rw [if_pos hfile]
    refine ofFile_eq hdir htext ?_
    rw [ofText?, hentries]
    simp only [Option.bind_eq_bind, Option.bind_some, hloader]
    rfl
  | entry hfile htext hentries hloader hdescribes hfits =>
    rw [if_pos hfile]
    refine ofFile_eq hdir htext ?_
    rw [ofText?, hentries]
    simp only [Option.bind_eq_bind, Option.bind_some, hloader]
    exact ofToml?_eq hdescribes hfits

theorem isAbsolute_fileCwd? (hdir : dir.isAbsolute) : ((fileCwd? given dir).getD dir).isAbsolute := by
  unfold fileCwd?
  cases (given .cwd).bind string? with
  | none => exact hdir
  | some s => exact (Path.isNormal_absolutize _ hdir).isAbsolute

/-- The search path is seen from the working directory of the file, or from where the file is. -/
theorem workingDir_ofGiven (hdir : dir.isAbsolute) (processDir : Path) :
    ({ ofGiven given dir with cwd := some ((fileCwd? given dir).getD dir) } : Config).workingDir
      processDir = ((fileCwd? given dir).getD dir).normalize :=
  if_pos (isAbsolute_fileCwd? hdir)

/-- On what is read from the file of a project lie its directory and the search path. -/
theorem load_of_read {env : Environment} {c : Config}
    (hread : (if env.files.isFile (dir.join ⟨fileName⟩) then
      ofFile env.files (dir.join ⟨fileName⟩) else pure {}) = .ok c) :
    let anchored : Config := { c with cwd := some (c.cwd.getD dir) }
    load env dir = .ok { anchored with
      paths := c.paths ++ searchPaths env.searchPath (anchored.workingDir env.processDir) } := by
  have hbind (f : Config → Except Failure Config) :
      (if env.files.isFile (dir.join ⟨fileName⟩) then
        ofFile env.files (dir.join ⟨fileName⟩) >>= f else pure {} >>= f) = f c := by
    split at hread
    · next hfile =>
      rw [if_pos hfile, hread]
      rfl
    · next hfile =>
      obtain rfl := Except.ok.inj hread
      rw [if_neg hfile]
      rfl
  intro anchored
  refine (hbind _).trans ?_
  cases env.searchPath with
  | none =>
    have hnone (base : Path) : searchPaths none base = [] := rfl
    rw [hnone, List.append_nil]
    rfl
  | some search => rfl

/-- The layers below the options. -/
theorem load_eq {env : Environment} (h : Gives env.files dir given) (hdir : dir.isAbsolute) :
    load env dir = .ok { ofGiven given dir with
      cwd := some ((fileCwd? given dir).getD dir)
      paths := filePaths given dir ++
        searchPaths env.searchPath ((fileCwd? given dir).getD dir).normalize } := by
  rw [load_of_read (h.read hdir), ← workingDir_ofGiven hdir env.processDir]
  rfl

end

end Config

/-! ## The configuration of the program -/

namespace CommandLine

open Requisite.Config

/-- The working directory by the layers: that of the options, else that of the file, else that of
    the process. -/
def layeredCwd (processDir : Path) (o : Options) (given : Field → Option Toml) : Path :=
  match o.cwd with
  | some dir => (Path.mk dir).absolutize processDir
  | none => (fileCwd? given processDir).getD processDir

/-- A configuration by its layers: what the file gives over the defaults, and as search directories
    those of the file, of the environment and of the options.  The working directory of the file is
    only where the search path of the environment is seen from. -/
structure Layered (env : Environment) (o : Options) (given : Field → Option Toml) (c : Config) :
    Prop where
  extension : c.extension = ((given .extension).bind string?).getD "js"
  manifest : c.manifest = ((given .manifest).bind string?).getD "package.json"
  dependenciesDir : c.dependenciesDir = ((given .dependenciesDir).bind string?).getD "node_modules"
  unsupported : c.unsupported = ((given .unsupported).bind strings?).getD ["node"]
  paths : let dir := workingDir env.processDir o
    c.paths = filePaths given dir ++
      searchPaths env.searchPath ((fileCwd? given dir).getD dir).normalize ++
      o.paths.map fun p => (Path.mk p).absolutize env.processDir
  settled : ∀ p ∈ c.paths, p.isAbsolute ∧ p.normalize = p
  cwd : c.cwd = some (workingDir env.processDir o)
  cwd_layered : c.cwd = some (layeredCwd env.processDir o given) ↔
    o.cwd.isSome ∨ ∀ p ∈ fileCwd? given env.processDir, p = env.processDir

section
variable {env : Environment} {o : Options} {given : Field → Option Toml}

theorem isAbsolute_workingDir (hdir : env.processDir.isAbsolute) :
    (workingDir env.processDir o).isAbsolute := by
  unfold workingDir
  split
  · exact (Path.isNormal_absolutize _ hdir).isAbsolute
  · exact hdir

/-- What the working directory is by the layers is what it is, unless the file has another one. -/
theorem workingDir_eq_layeredCwd :
    workingDir env.processDir o = layeredCwd env.processDir o given ↔
      o.cwd.isSome ∨ ∀ p ∈ fileCwd? given env.processDir, p = env.processDir := by
  unfold workingDir layeredCwd
  cases o.cwd with
  | some dir => simp
  | none =>
    cases fileCwd? given env.processDir with
    | none => simp
    | some p => simp [eq_comm]

/-- **The configuration is made of its layers**: a file that can be read gives one, with the fields
    that the layers give. -/
theorem configOf_layered (hdir : env.processDir.isAbsolute)
    (h : Gives env.files (workingDir env.processDir o) given) :
    ∃ c, configOf env o = .ok c ∧ Layered env o given c := by
  have hworking := isAbsolute_workingDir (o := o) hdir
  let dir := workingDir env.processDir o
  have hsearch : ((fileCwd? given dir).getD dir).normalize.isAbsolute :=
    (Path.isNormal_normalize (isAbsolute_fileCwd? hworking)).isAbsolute
  refine ⟨_, by rw [configOf, load_eq h hworking]; rfl, ?_⟩
  constructor
  case extension | manifest | dependenciesDir | unsupported | paths | cwd => rfl
  case cwd_layered => exact Option.some_inj.trans workingDir_eq_layeredCwd
  case settled =>
    intro p hp
    -- each list of directories has been seen from an absolute one
    obtain ⟨q, base, hbase, rfl⟩ : ∃ q base : Path, base.isAbsolute ∧ q.absolutize base = p := by
      obtain hp | hp := List.mem_append.1 hp
      · obtain hp | hp := List.mem_append.1 hp
        · obtain ⟨s, -, rfl⟩ := List.mem_map.1 hp
          exact ⟨_, _, hworking, rfl⟩
        · obtain ⟨q, -, rfl⟩ := List.mem_map.1 hp
          exact ⟨_, _, hsearch, rfl⟩
      · obtain ⟨s, -, rfl⟩ := List.mem_map.1 hp
        exact ⟨_, _, hdir, rfl⟩
    have hnormal := Path.isNormal_absolutize q hbase
    exact ⟨hnormal.isAbsolute, hnormal.normalize_eq⟩

end

/-- The configuration file of a project. -/
def projectText : String := "[loader]\nextension = \"ts\"\npaths = [\"lib\"]\ncwd = \"sub\"\n"

/-- The table `loader` of the project. -/
def projectLoader : Toml :=
  .table .opened [("extension", .string "ts"), ("paths", .array [.string "lib"]),
    ("cwd", .string "sub")]

def projectFiles : FileSystem := .ofTexts [("/work/tether.toml", projectText)]

/-- Whether a text that was read has that table, and nothing else. -/
def isProject : Option Toml.Entries → Bool
  | some [("loader", .table .opened [("extension", .string "ts"),
      ("paths", .array [.string "lib"]), ("cwd", .string "sub")])] => true
  | _ => false

theorem ofText?_projectText : Toml.ofText? projectText = some [("loader", projectLoader)] := by
  have hread : isProject (Toml.ofText? projectText) := by decide +kernel
  generalize Toml.ofText? projectText = entries at hread ⊢
  unfold isProject at hread
  split at hread
  · rfl
  · cases hread

theorem gives_projectLoader : Gives projectFiles ⟨"/work"⟩ (given? projectLoader) := by
  have hpath : (Path.mk "/work").join ⟨fileName⟩ = ⟨"/work/tether.toml"⟩ := by decide +kernel
  have hfits : ∀ f, (given? projectLoader f).all f.fits = true := by
    intro f
    cases f <;> rfl
  refine .entry (by rw [hpath]; rfl) (by rw [hpath]; rfl) ofText?_projectText rfl rfl ?_
  intro f v hv
  exact (Option.all_eq_true _ _).1 (hfits f) v hv

/-- All layers at once: the project in another directory than that of the process. -/
theorem configOf_layered_project :
    let env : Environment := ⟨projectFiles, ⟨"/home"⟩, some "x::y/"⟩
    let o : Options := { cwd := some "../work", paths := ["p"] }
    Gives env.files (workingDir env.processDir o) (given? projectLoader) ∧
      ∃ c, configOf env o = .ok c ∧ Layered env o (given? projectLoader) c ∧
        c.extension = "ts" ∧ c.cwd = some ⟨"/work"⟩ ∧
        c.paths = [⟨"/work/lib"⟩, ⟨"/work/sub/x"⟩, ⟨"/work/sub/y"⟩, ⟨"/home/p"⟩] := by
  intro env o
  have hdir : workingDir env.processDir o = ⟨"/work"⟩ := by decide +kernel
  have hgives : Gives env.files (workingDir env.processDir o) (given? projectLoader) :=
    hdir ▸ gives_projectLoader
  have habsolute : env.processDir.isAbsolute := by decide +kernel
  obtain ⟨c, hc, hlayered⟩ := configOf_layered habsolute hgives
  refine ⟨hgives, c, hc, hlayered, hlayered.extension, hlayered.cwd.trans (by rw [hdir]), ?_⟩
  rw [hlayered.paths]
  decide +kernel

/-- **The working directory of the file is lost**, where by the layers it is the one that counts:
    the options have none. -/
theorem fileCwd_lost :
    let env : Environment := ⟨projectFiles, ⟨"/work"⟩, none⟩
    Gives env.files (workingDir env.processDir {}) (given? projectLoader) ∧
      (configOf env {}).toOption.bind Config.cwd = some ⟨"/work"⟩ ∧
      layeredCwd env.processDir {} (given? projectLoader) = ⟨"/work/sub"⟩ :=
  ⟨gives_projectLoader, by decide +kernel, by decide +kernel⟩

end CommandLine

end Requisite
