/-
  Configuration of the loader.

  Its layers, each upon the one before: the defaults; the table `loader` of the
  project's configuration file; the directories of the search path that the
  environment names; the options of the command line.

  * `Config.ofToml?`, `Config.ofText?`: the defaults with the fields that a
    configuration text sets;
  * `Config.ofFile`, `Config.load`: a configuration file, and a project
    directory with its environment.
-/
import Requisite.FileSystem.Basic
import Requisite.Toml.Read

namespace Requisite

structure Config where
  /-- the extension of script files, without a dot -/
  extension : String := "js"
  /-- the file name of package manifests -/
  manifest : String := "package.json"
  /-- the name of the directories in which dependencies are looked for -/
  dependenciesDir : String := "node_modules"
  /-- extensions of files that are recognized but cannot be loaded -/
  unsupported : List String := ["node"]
  /-- further directories in which modules are looked for -/
  paths : List Path := []
  /-- the directory from which bare identifiers are looked up -/
  cwd : Option Path := none
deriving DecidableEq, Repr, Inhabited

namespace Config

/-- The name of the configuration file of a project. -/
def fileName : String := "tether.toml"

/-- Whether files with the extension `ext` are recognized but cannot be loaded. -/
def isUnsupported (c : Config) (ext : String) : Bool := c.unsupported.contains ext

/-! ## From TOML -/

def string? : Toml → Option String
  | .string s => some s
  | _ => none

def strings? : Toml → Option (List String)
  | .array items => items.mapM string?
  | .tables items => items.mapM string?
  | _ => none

/-- The fields of a configuration, in the order in which an array gives them. -/
inductive Field where
  | extension | manifest | dependenciesDir | unsupported | paths | cwd
deriving DecidableEq, Repr

namespace Field

def all : List Field := [extension, manifest, dependenciesDir, unsupported, paths, cwd]

/-- The key of a field in a table. -/
def key : Field → String
  | extension => "extension"
  | manifest => "manifest"
  | dependenciesDir => "dependencies_dir"
  | unsupported => "unsupported_extensions"
  | paths => "paths"
  | cwd => "cwd"

/-- Sets a field to a value, if it has the right type. -/
def set? (c : Config) : Field → Toml → Option Config
  | extension, v => (string? v).map fun s => { c with extension := s }
  | manifest, v => (string? v).map fun s => { c with manifest := s }
  | dependenciesDir, v => (string? v).map fun s => { c with dependenciesDir := s }
  | unsupported, v => (strings? v).map fun ss => { c with unsupported := ss }
  | paths, v => (strings? v).map fun ss => { c with paths := ss.map Path.mk }
  | cwd, v => (string? v).map fun s => { c with cwd := some ⟨s⟩ }

end Field

/-- Sets the fields that a table has; other keys mean nothing. -/
def ofEntries? (entries : Toml.Entries) : Option Config :=
  Field.all.foldlM (fun c f =>
    match Toml.lookup f.key entries with
    | some v => f.set? c v
    | none => some c) {}

/-- Sets the first fields to the items of an array. -/
def ofItems? (items : List Toml) : Option Config :=
  (Field.all.zip items).foldlM (fun c (f, v) => f.set? c v) {}

/-- The configuration that a value describes: a table by its keys, an array by the order of the
    fields; a time has none of the keys. -/
def ofToml? : Toml → Option Config
  | .table _ entries => ofEntries? entries
  | .array items | .tables items => ofItems? items
  | .datetime => some {}
  | _ => none

/-- The configuration in the text of a configuration file. -/
def ofText? (s : String) : Option Config := do
  match Toml.lookup "loader" (← Toml.ofText? s) with
  | some v => ofToml? v
  | none => return {}

/-! ## Layers -/

/-- The absolute directory from which bare identifiers are looked up; without one it is the
    directory of the process. -/
def workingDir (c : Config) (processDir : Path) : Path :=
  match c.cwd with
  | some dir => if dir.isAbsolute then dir.normalize else dir.absolutize processDir
  | none => processDir

/-- Adds the directories of a search path, seen from the working directory; empty ones are left
    out. -/
def appendSearchPath (c : Config) (processDir : Path) (search : String) : Config :=
  let dirs := (Path.splitSearchPath search).filter fun p => p.text ≠ ""
  { c with paths := c.paths ++ dirs.map fun p => p.absolutize (c.workingDir processDir) }

/-- Sees the relative paths of a configuration from the directory `base`. -/
def relativeTo (c : Config) (base : Path) : Config :=
  { c with
    paths := c.paths.map fun p => p.absolutize base
    cwd := c.cwd.map fun p => p.absolutize base }

/-- Why no configuration could be read. -/
inductive Failure where
  | unreadable (path : Path) (reason : ReadFailure)
  | invalid (path : Path)
deriving DecidableEq, Repr

/-- The configuration in a file, with relative paths seen from the directory of the file. -/
def ofFile (fs : FileSystem) (path : Path) : Except Failure Config :=
  match fs.readText path with
  | .error reason => .error (.unreadable path reason)
  | .ok text =>
    match ofText? text with
    | none => .error (.invalid path)
    | some c => .ok (c.relativeTo (path.parent?.getD ⟨"."⟩))

/-- The surroundings of a process that its configuration depends on. -/
structure Environment where
  files : FileSystem
  /-- the working directory of the process -/
  processDir : Path
  /-- the directories that the environment adds to the search -/
  searchPath : Option String

/-- The configuration of the project in the directory `dir`. -/
def load (env : Environment) (dir : Path) : Except Failure Config := do
  let file := dir.join ⟨fileName⟩
  let c ← if env.files.isFile file then ofFile env.files file else pure {}
  let c := { c with cwd := some (c.cwd.getD dir) }
  return match env.searchPath with
    | some search => c.appendSearchPath env.processDir search
    | none => c

end Config

end Requisite
