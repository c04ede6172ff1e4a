/-
  What the loader asks of a file system: what a path points at, and the text of
  a file.
-/
import Requisite.Path

namespace Requisite

/-- What a path points at. -/
inductive PathKind where
  /-- nothing, or neither a file nor a directory -/
  | missing
  | file
  | directory
deriving DecidableEq, Repr

/-- Why a file could not be read. -/
inductive FailureKind where
  | notFound
  /-- the bytes are no UTF-8 text -/
  | invalidData
  | permissionDenied
  | other
deriving DecidableEq, Repr

/-- The kind of a failure in words. -/
def FailureKind.description : FailureKind → String
  | notFound => "entity not found"
  | invalidData => "invalid data"
  | permissionDenied => "permission denied"
  | other => "other error"

/-- A failed reading, with the text that tells of it. -/
structure ReadFailure where
  kind : FailureKind
  text : String
deriving DecidableEq, Repr

/-- A file system, by its answers. -/
structure FileSystem where
  probe : Path → PathKind
  readText : Path → Except ReadFailure String

namespace FileSystem

def isFile (fs : FileSystem) (p : Path) : Bool := fs.probe p = .file

def isDirectory (fs : FileSystem) (p : Path) : Bool := fs.probe p = .directory

/-- The file system without files; every path is missing. -/
def void : FileSystem where
  probe _ := .missing
  readText _ := .error ⟨.notFound, FailureKind.notFound.description⟩

end FileSystem

/-- What a file holds: bytes, which may be withheld from readers. -/
inductive Content where
  | bytes (data : ByteArray)
  | denied

/-- The text of a file. -/
def Content.text : Content → Except FailureKind String
  | bytes data =>
    match String.fromUTF8? data with
    | some s => .ok s
    | none => .error .invalidData
  | denied => .error .permissionDenied

end Requisite
