/-
  The command line: the program on the files of this computer.

  What the program may need is read beforehand into a `Disk`: the directories
  that are worked in, those of the search paths, and the dependency directories
  above them.
-/
import Std.Data.HashSet
import Requisite.CommandLine.Program
import Requisite.FileSystem.Disk

namespace Requisite.Main

open Requisite Requisite.CommandLine

/-! ## Reading the disk -/

/-- A disk as far as it was read. -/
structure Reading where
  disk : Disk
  /-- the places that were read -/
  done : Std.HashSet (List String)

/-- How deep directories are read. -/
def maxDepth : Nat := 256

/-- Puts what is at a path on the disk: a file, a directory with all that is in it, or a link
    with all that it leads to.  What cannot be read is left out. -/
def capture : Nat → IO.FS.DirEntry → Reading → IO Reading
  | 0, _, r => return r
  | depth + 1, here, r => do
    let place := Disk.placeOf ⟨here.path.toString⟩
    if r.done.contains place then return r
    let put (node : Node) : Reading := ⟨r.disk.put place node, r.done.insert place⟩
    match ← here.path.symlinkMetadata.toBaseIO with
    | .error _ => return r
    | .ok info =>
      match info.type with
      | .dir =>
        match ← here.path.readDir.toBaseIO with
        | .error _ => return put .directory
        | .ok entries => entries.foldlM (fun r e => capture depth e r) (put .directory)
      | .file =>
        match ← (IO.FS.readBinFile here.path).toBaseIO with
        | .error _ => return put (.file .denied)
        | .ok bytes => return put (.file (.bytes bytes))
      | .symlink =>
        match ← (IO.FS.realPath here.path).toBaseIO with
        | .error _ => return r
        | .ok target => capture depth ⟨target, ""⟩ (put (.link ⟨target.toString⟩))
      | .other => return r

/-- Puts what is at an absolute path on the disk. -/
def captureAt (r : Reading) (p : Path) : IO Reading := do
  let here ← IO.currentDir
  capture maxDepth ⟨here / p.text, ""⟩ r

/-- The directories that options and a configuration name, and the files above the working
    directory that may matter. -/
def wanted (processDir : Path) (o : Options) (c : Config) : List Path :=
  let cwd := workingDir processDir o
  let above := cwd.ancestors.flatMap fun dir =>
    [dir.join ⟨c.dependenciesDir⟩, dir.join ⟨Config.fileName⟩]
  let script := (o.script.map fun s => ((Path.mk s).absolutize processDir).parent?).join
  [processDir, cwd] ++ script.toList ++ c.paths ++ above

/-- The files that the program may need: first those that tell the configuration, then those
    that the configuration names. -/
def readDisk (processDir : Path) (search : Option String) (arguments : List String) :
    IO Disk := do
  match Invocation.ofArguments arguments with
  | .run o =>
    let r ← (wanted processDir o {}).foldlM captureAt ⟨.empty, ∅⟩
    match configOf ⟨r.disk.toFileSystem processDir, processDir, search⟩ o with
    | .ok c => return (← (wanted processDir o c).foldlM captureAt r).disk
    | .error _ => return r.disk
  | _ => return .empty

/-! ## The log -/

/-- An action of the loader in a line. -/
def logLine : Machine.Action → String
  | .indexHit id => s!"require cache hit: {id}"
  | .recordHit path .loaded => s!"module cache hit: {path.text}"
  | .recordHit path .resolving => s!"circular require, partial exports: {path.text}"
  | .reserved path => s!"loading module: {path.text}"
  | .entered path => s!"executing module: {path.text}"
  | .committed path => s!"module loaded: {path.text}"
  | .abandoned path => s!"module failed, record dropped: {path.text}"

/-- Whether the arguments ask for the log. -/
def isVerbose (arguments : List String) : Bool :=
  match Invocation.ofArguments arguments with
  | .run o => o.verbose
  | _ => false

end Requisite.Main

open Requisite Requisite.Main in
def main (arguments : List String) : IO UInt32 := do
  let processDir : Path := ⟨(← IO.currentDir).toString⟩
  let search ← IO.getEnv "TETHER_PATH"
  let stdin ← IO.getStdin
  let disk ← readDisk processDir search arguments
  let stream : CommandLine.Stream := ⟨← stdin.readBinToEnd, ← stdin.isTty⟩
  let outcome := CommandLine.perform Machine.ampleFuel
    ⟨disk.toFileSystem processDir, processDir, search⟩ stream arguments
  if isVerbose arguments then
    for event in outcome.journal do IO.eprintln (logLine event.action)
  IO.print outcome.stdout
  IO.eprint outcome.stderr
  return outcome.exitCode.toUInt32
