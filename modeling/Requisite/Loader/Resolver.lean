/-
  Finding the file of a module.

  Candidates are tried in a fixed order and the first that is a file wins:

  * the identifier as a file, as it stands and then with the script extension;
  * the identifier as a directory: the entry file that its manifest names, or
    its index file;
  * for bare identifiers, both steps again below every search directory.

  A file with an extension that cannot be loaded is an error, not a miss.

  * `resolve`: the file of an identifier;
  * `searchDirs`: the search directories in order.
-/
import Requisite.Config
import Requisite.Manifest
import Requisite.Script.Error

namespace Requisite.Loader

open Requisite Requisite.Script

/-- What resolution depends on besides the files. -/
structure Resolver where
  /-- the absolute directory that bare identifiers start from -/
  cwd : Path
  extension : String
  manifest : String
  dependenciesDir : String
  unsupported : List String
  /-- further search directories, absolute -/
  paths : List Path
deriving DecidableEq, Repr, Inhabited

namespace Resolver

/-- The resolver of a configuration. -/
def ofConfig (c : Config) (processDir : Path) : Resolver :=
  let cwd := c.workingDir processDir
  { cwd := cwd
    extension := c.extension
    manifest := c.manifest
    dependenciesDir := c.dependenciesDir
    unsupported := c.unsupported
    paths := c.paths.map fun p => p.absolutize cwd }

/-- Replaces the search directories; relative ones are seen from the working directory. -/
def setPaths (r : Resolver) (paths : List Path) : Resolver :=
  { r with paths := paths.map fun p => p.absolutize r.cwd }

/-- Adds a search directory at the end. -/
def addPath (r : Resolver) (p : Path) : Resolver :=
  { r with paths := r.paths ++ [p.absolutize r.cwd] }

section
variable (r : Resolver) (fs : FileSystem)

/-- The search directories that exist: those of the configuration, then the dependency
    directories from the working directory up to the root. -/
def searchDirs : List Path :=
  r.paths.filter fs.isDirectory ++
    (r.cwd.ancestors.map fun dir => dir.join ⟨r.dependenciesDir⟩).filter fs.isDirectory

/-- The index file of a directory. -/
def indexFile (dir : Path) : Path := dir.join ⟨"index." ++ r.extension⟩

/-- A path as a file: as it stands, then with the script extension.  If there is a file with an
    extension that cannot be loaded instead, that is an error. -/
def asFile (id : String) (root : Path) : Except LoaderError (Option Path) :=
  if fs.isFile root then
    if root.extension?.any r.unsupported.contains then .error (.unsupported id root)
    else .ok (some root)
  else if fs.isFile (root.appendExtension r.extension) then
    .ok (some (root.appendExtension r.extension))
  else
    match (r.unsupported.map root.appendExtension).find? fs.isFile with
    | some native => .error (.unsupported id native)
    | none => .ok none

/-- The entry file that the manifest of a directory names, if there is a manifest. -/
def manifestMain (dir : Path) : Except LoaderError (Option String) :=
  let path := dir.join ⟨r.manifest⟩
  if fs.isFile path then
    match fs.readText path with
    | .error reason => .error (.unreadable path reason)
    | .ok text =>
      match Manifest.ofText? text with
      | none => .error (.badManifest path)
      | some m => .ok m.main?
  else .ok none

/-- The directory that a path is, or else the one it lies in. -/
def directoryOf (root : Path) : Option Path :=
  if fs.isDirectory root then some root
  else root.parent?.filter fs.isDirectory

/-- A path that is wanted to be a file. -/
def fileOnly (p : Path) : Option Path := if fs.isFile p then some p else none

/-- A path as a directory: what its manifest names, as a file or as a directory with an index
    file; without a manifest its own index file. -/
def asDirectory (id : String) (root : Path) : Except LoaderError (Option Path) :=
  match directoryOf fs root with
  | none => .ok none
  | some dir => do
    match ← r.manifestMain fs dir with
    | none => return fileOnly fs (r.indexFile dir)
    | some main =>
      let entry := (dir.join ⟨main⟩).normalize
      match ← r.asFile fs id entry with
      | some path => return some path
      | none => return fileOnly fs (r.indexFile entry)

/-- A path as a file, then as a directory; an identifier that ends with a slash names a
    directory only. -/
def asPath (id : String) (root : Path) : Except LoaderError (Option Path) := do
  if id.toList.getLast? = some '/' then r.asDirectory fs id root
  else
    match ← r.asFile fs id root with
    | some path => return some path
    | none => r.asDirectory fs id root

/-- The first of the roots that leads to a file; those tried before are collected. -/
def firstOf (id : String) : List Path → List Path → Except LoaderError Path
  | [], tried => .error (.notFound id tried)
  | root :: roots, tried => do
    match ← r.asPath fs id root with
    | some path => return path
    | none => firstOf id roots (tried ++ [root])

/-- The directory that an identifier is seen from: that of the module at work for relative
    identifiers, and else the working directory. -/
def baseOf (id : String) (context : Option Path) : Path :=
  match context with
  | some dir => if Path.isRelativeIdentifier id then dir else r.cwd
  | none => r.cwd

/-- Where an identifier may lead, in order. -/
def roots (id : String) (context : Option Path) : List Path :=
  let root := (Path.mk id).absolutize (r.baseOf id context)
  if Path.isRelativeIdentifier id || (Path.mk id).isAbsolute then [root]
  else root :: (r.searchDirs fs).map fun dir => (dir.join ⟨id⟩).normalize

/-- The file of an identifier; `context` is the directory of the module that asks, if one is at
    work. -/
def resolve (id : String) (context : Option Path) : Except LoaderError Path :=
  if id = "" then .error (.notFound id [])
  else if (Path.mk id).extension?.any r.unsupported.contains then
    .error (.unsupported id ((Path.mk id).absolutize (r.baseOf id context)))
  else r.firstOf fs id (r.roots fs id context) []

end

end Resolver

end Requisite.Loader
