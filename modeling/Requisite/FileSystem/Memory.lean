/-
  A file system in memory.

  Files and directories are entries under their normal paths; a path is
  normalized before it is looked up, so `..` needs no directory to leave.  The
  directories above an entry come into being with it and stay when it goes.
-/
import Requisite.FileSystem.Basic
import Requisite.OrderedMap

namespace Requisite

/-- The entries of a file system in memory. -/
structure Memory where
  files : OrderedMap (List Component) Content
  directories : List (List Component)

namespace Memory

/-- The file system that holds only its root. -/
def empty : Memory := ⟨.empty, [[.root]]⟩

/-- The place of a path. -/
def place (p : Path) : List Component := p.normalize.components

/-- All directories above a place. -/
def above (place : List Component) : List (List Component) :=
  (List.range place.length).map fun n => place.take n

/-- Puts a file at a path, and the directories above it. -/
def write (m : Memory) (p : Path) (content : Content) : Memory :=
  { files := m.files.set (place p) content
    directories := above (place p) ++ m.directories }

/-- The files of these texts, by their paths, and the directories above them. -/
def ofTexts (texts : List (String × String)) : Memory :=
  texts.foldl (fun m e => m.write ⟨e.1⟩ (.bytes e.2.toUTF8)) empty

/-- Puts a directory at a path, and the directories above it. -/
def makeDirectory (m : Memory) (p : Path) : Memory :=
  { m with directories := place p :: above (place p) ++ m.directories }

/-- Takes away the file and the directory at a path, and nothing above or below. -/
def remove (m : Memory) (p : Path) : Memory :=
  { files := m.files.erase (place p)
    directories := m.directories.filter fun d => d ≠ place p }

/-- A path that is a file and a directory counts as a file. -/
def probe (m : Memory) (p : Path) : PathKind :=
  if m.files.contains (place p) then .file
  else if place p ∈ m.directories then .directory
  else .missing

/-- What a path leads to, if it is a file. -/
def content (m : Memory) (p : Path) : Except FailureKind Content :=
  match m.files.get? (place p) with
  | some content => .ok content
  | none => .error .notFound

def readText (m : Memory) (p : Path) : Except ReadFailure String :=
  (m.content p >>= Content.text).mapError fun kind => ⟨kind, kind.description⟩

def toFileSystem (m : Memory) : FileSystem := ⟨m.probe, m.readText⟩

end Memory

end Requisite
