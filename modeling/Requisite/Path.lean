/-
  File paths, as texts with `/` between their segments.

  A path keeps its text; two paths are the same place in a table when their
  components agree.  Empty segments and `.` segments are no components, but for
  a `.` at the start of a relative path.

  * `components`: the root, `.`, `..` and names that a path consists of;
  * `parent?`, `join`, `fileName?`, `extension?`: lexical operations;
  * `normalize`: the path without `.` segments and with every `..` cancelled
    against the name before it;
  * `absolutize`: a path from a base directory, normalized.
-/

namespace Requisite

/-- The pieces of a text between the characters `sep`: one more than there are of them. -/
def pieces (sep : Char) : List Char → List (List Char)
  | [] => [[]]
  | c :: rest =>
    if c = sep then [] :: pieces sep rest
    else
      match pieces sep rest with
      | [] => [[c]]
      | p :: ps => (c :: p) :: ps

/-- A path: its text. -/
structure Path where
  text : String
deriving DecidableEq, Repr, Inhabited, Hashable

/-- What a path consists of. -/
inductive Component where
  | root
  | current
  | parent
  | name (s : String)
deriving DecidableEq, Repr

namespace Component

/-- The component of a segment; an empty segment and `.` are none. -/
def ofSegment? (s : List Char) : Option Component :=
  if s = [] ∨ s = ['.'] then none
  else if s = ['.', '.'] then some parent
  else some (name (String.ofList s))

/-- The segment of a component; the root has none. -/
def segment : Component → List Char
  | root => []
  | current => ['.']
  | parent => ['.', '.']
  | name s => s.toList

/-- The place of a component's kind in the order of components. -/
def kindRank : Component → Nat
  | root => 0
  | current => 1
  | parent => 2
  | name _ => 3

/-- The order of components: by kind, then names by their characters. -/
def lt : Component → Component → Bool
  | name s, name t => s < t
  | a, b => a.kindRank < b.kindRank

end Component

namespace Path

/-! ## Components -/

def isAbsolute (p : Path) : Bool := p.text.toList.head? == some '/'

/-- The components of a path. -/
def components (p : Path) : List Component :=
  match pieces '/' p.text.toList with
  | [] => []
  | first :: rest =>
    let body := rest.filterMap Component.ofSegment?
    if p.isAbsolute then .root :: body
    else if first = ['.'] then .current :: body
    else (Component.ofSegment? first).toList ++ body

/-- Segments with slashes between them. -/
def joinSegments : List (List Char) → List Char
  | [] => []
  | [s] => s
  | s :: rest => s ++ '/' :: joinSegments rest

/-- The path that consists of the given components, in its shortest text. -/
def ofComponents : List Component → Path
  | .root :: cs => ⟨String.ofList ('/' :: joinSegments (cs.map Component.segment))⟩
  | cs => ⟨String.ofList (joinSegments (cs.map Component.segment))⟩

/-- Whether a list of components comes before another: the first difference decides, and a
    part comes before the whole. -/
def componentsLt : List Component → List Component → Bool
  | _, [] => false
  | [], _ :: _ => true
  | a :: as, b :: bs => if a = b then componentsLt as bs else a.lt b

/-- The order of paths by their components. -/
def le (p q : Path) : Bool := !componentsLt q.components p.components

/-! ## Lexical operations -/

/-- A path below `p`, or `q` itself if it is absolute. -/
def join (p q : Path) : Path :=
  if q.isAbsolute then q
  else
    let base := p.text.toList
    if base = [] ∨ base.getLast? = some '/' then ⟨p.text ++ q.text⟩
    else ⟨p.text ++ "/" ++ q.text⟩

/-- The segments without the trailing ones that are no components, in reverse order. -/
def dropTrivial : List (List Char) → List (List Char) :=
  List.dropWhile fun s => s == [] || s == ['.']

/-- The path without its last component; the root and the empty path have no parent.  Its text
    is that of the path up to there. -/
def parent? (p : Path) : Option Path :=
  match pieces '/' p.text.toList with
  | [] => none
  | first :: rest =>
    match dropTrivial rest.reverse with
    | [] => if first = [] then none else some ⟨""⟩
    | _ :: front =>
      match dropTrivial front with
      | [] => some (if first = [] then ⟨"/"⟩ else ⟨String.ofList first⟩)
      | kept => some ⟨String.ofList (joinSegments (first :: kept.reverse))⟩

/-- The last component, if it is a name. -/
def fileName? (p : Path) : Option String :=
  match p.components.getLast? with
  | some (.name s) => some s
  | _ => none

/-- What follows the last dot of a file name, unless the name has no other dot than one at its
    start. -/
def extensionOf? (name : List Char) : Option (List Char) :=
  match (pieces '.' name).reverse with
  | last :: before :: more =>
    if before = [] ∧ more = [] then none else some last
  | _ => none

/-- The extension of a path's file name. -/
def extension? (p : Path) : Option String :=
  p.fileName?.bind fun name => (extensionOf? name.toList).map String.ofList

/-- The path itself, its parent, the parent of that, and so on. -/
def ancestors (p : Path) : List Path :=
  go p.text.length p
where
  /-- At most `n` parents of `q`. -/
  go : Nat → Path → List Path
    | 0, q => [q]
    | n + 1, q =>
      match q.parent? with
      | none => [q]
      | some r => q :: go n r

/-- The path with `.ext` after its last segment. -/
def appendExtension (p : Path) (ext : String) : Path := ⟨p.text ++ "." ++ ext⟩

/-! ## Normal form -/

/-- Appends a component to a normal path given in reverse: `..` takes back a name, stays at the
    root, and is kept where there is nothing to take back. -/
def push (path : List Component) : Component → List Component
  | .current => path
  | .parent =>
    match path with
    | .name _ :: before => before
    | .root :: _ => path
    | _ => .parent :: path
  | c => c :: path

/-- The components of the normal form. -/
def normalComponents (p : Path) : List Component :=
  (p.components.foldl push []).reverse

/-- The path without `.` segments, with `..` cancelled against the name before it; symbolic
    links are not looked at.  Nothing left is written `.`. -/
def normalize (p : Path) : Path :=
  match p.normalComponents with
  | [] => ⟨"."⟩
  | cs => ofComponents cs

/-- The path seen from the directory `base`, in normal form. -/
def absolutize (p base : Path) : Path := (base.join p).normalize

/-! ## Identifiers -/

/-- Whether an identifier is looked up from the directory of the module that asks. -/
def isRelativeIdentifier (id : String) : Bool :=
  match id.toList with
  | ['.'] | ['.', '.'] => true
  | '.' :: '/' :: _ | '.' :: '.' :: '/' :: _ => true
  | _ => false

/-- The directories of a search path, which stand between colons. -/
def splitSearchPath (s : String) : List Path :=
  (pieces ':' s.toList).map fun cs => ⟨String.ofList cs⟩

end Path

end Requisite
