/-
  A file system with symbolic links.

  A path is walked from the root, segment by segment: `..` leaves the directory
  reached so far, a link is replaced by its target, and nothing but a directory
  may be followed by a segment.

  * `Disk`: the nodes at places without links;
  * `Disk.walk`: the place and node that a path leads to;
  * `Disk.toFileSystem`: the answers, links being followed.
-/
import Std.Data.HashMap
import Requisite.FileSystem.Basic

namespace Requisite

/-- What stands at a place of a disk. -/
inductive Node where
  | file (content : Content)
  | directory
  /-- a symbolic link to a path -/
  | link (target : Path)

/-- The nodes of a disk, by the names that lead to them from the root.  The root is a
    directory without an entry. -/
structure Disk where
  nodes : Std.HashMap (List String) Node

namespace Disk

/-- The disk that holds only its root. -/
def empty : Disk := ⟨∅⟩

/-- Puts a node at a place, and directories above it where nothing stands yet. -/
def put (d : Disk) (place : List String) (node : Node) : Disk :=
  let withParents := (List.range place.length).foldl (fun nodes n =>
    let above := place.take n
    if above = [] ∨ nodes.contains above then nodes else nodes.insert above .directory) d.nodes
  ⟨withParents.insert place node⟩

/-- The names of a normal absolute path. -/
def placeOf (p : Path) : List String :=
  p.normalize.components.filterMap fun
    | .name s => some s
    | _ => none

/-- The most links that are followed on the way to one node. -/
def maxLinks : Nat := 40

/-- The longest name, in bytes. -/
def maxName : Nat := 255

/-- The length from which a path is too long, in bytes. -/
def pathLimit : Nat := 4096

/-- The segments of a path; a slash at its end counts as an empty one. -/
def segmentsOf (p : Path) : List String :=
  (pieces '/' p.text.toList).map String.ofList

/-- What `segments` lead to from the directory at `here`, with its place, when at most `links`
    links are followed. -/
def walk (d : Disk) (links : Nat) (here : List String) :
    List String → Except FailureKind (List String × Node)
  | [] => .ok (here, .directory)
  | s :: rest =>
    if s = "" ∨ s = "." then d.walk links here rest
    else if s = ".." then d.walk links here.dropLast rest
    else if maxName < s.utf8ByteSize then .error .other
    else
      match d.nodes[here ++ [s]]? with
      | none => .error .notFound
      | some .directory => d.walk links (here ++ [s]) rest
      | some (.file content) =>
        if rest = [] then .ok (here ++ [s], .file content) else .error .other
      | some (.link target) =>
        match links with
        | 0 => .error .other
        | links + 1 =>
          d.walk links (if target.isAbsolute then [] else here) (segmentsOf target ++ rest)
termination_by segments => (links, segments.length)

/-- What an absolute path leads to. -/
def find (d : Disk) (p : Path) : Except FailureKind (List String × Node) :=
  if p.text.toList.contains (Char.ofNat 0) || pathLimit ≤ p.text.utf8ByteSize then .error .other
  else d.walk maxLinks [] (segmentsOf p)

/-- The node that an absolute path leads to. -/
def node (d : Disk) (p : Path) : Except FailureKind Node := (d.find p).map Prod.snd

/-- The path without links to where an absolute path leads, if it leads anywhere. -/
def canonical? (d : Disk) (p : Path) : Option Path :=
  match d.find p with
  | .ok (place, _) => some (Path.ofComponents (.root :: place.map Component.name))
  | .error _ => none

def probe (d : Disk) (p : Path) : PathKind :=
  match d.node p with
  | .ok (.file _) => .file
  | .ok .directory => .directory
  | _ => .missing

/-- What is said of a path that leads to no file. -/
def failureText : FailureKind → String
  | .notFound => "No such file or directory (os error 2)"
  | .permissionDenied => "Permission denied (os error 13)"
  | .invalidData => "stream did not contain valid UTF-8"
  | .other => "Is a directory (os error 21)"

/-- What an absolute path leads to, if it is a file. -/
def content (d : Disk) (p : Path) : Except FailureKind Content :=
  match d.node p with
  | .ok (.file content) => .ok content
  | .ok _ => .error .other
  | .error kind => .error kind

def readText (d : Disk) (p : Path) : Except ReadFailure String :=
  (d.content p >>= Content.text).mapError fun kind => ⟨kind, failureText kind⟩

/-- The answers of a disk; relative paths are seen from the directory `cwd`.  The empty path
    leads nowhere. -/
def toFileSystem (d : Disk) (cwd : Path) : FileSystem where
  probe p := if p.text = "" then .missing else d.probe (cwd.join p)
  readText p :=
    if p.text = "" then .error ⟨.notFound, failureText .notFound⟩ else d.readText (cwd.join p)

end Disk

end Requisite
