/-
  The modules that are loaded or being loaded.

  Records are kept by path, so a file is run at most once however many
  identifiers lead to it.  A record is reserved before the module runs, and
  either committed with the final exports or abandoned; what is loaded is never
  replaced.  The index remembers where an identifier led from a directory, and
  the context stack holds the directories of the modules at work.

  * `reserve`, `commit`, `abandon`, `put`: the life of a record;
  * `remember`, `lookup`: the index, honoured only for loaded modules;
  * `pushContext`, `popContext`, `truncate`: the context stack.
-/
import Requisite.OrderedMap
import Requisite.Path
import Requisite.Script.Value

namespace Requisite.Loader

open Requisite Requisite.Script

/-- Where a module is in its life. -/
inductive LoadState where
  /-- its script is at work; the exports are the placeholder -/
  | resolving
  /-- its script is done; the exports are final -/
  | loaded
deriving DecidableEq, Repr

/-- A module. -/
structure Record where
  /-- the identifier that it was first asked for by -/
  id : String
  path : Path
  exports : Value
  state : LoadState
deriving DecidableEq, Repr

def Record.isLoaded (r : Record) : Bool := r.state = .loaded

/-- What a reserved record will need: the placeholder is the exports object that others see
    while the module runs. -/
structure Reservation where
  id : String
  path : Path
  placeholder : Value
deriving DecidableEq, Repr, Inhabited

structure Cache where
  /-- the records by place, each with the path that first led there -/
  records : OrderedMap (List Component) (Path × Record)
  /-- the path that an identifier led to, by the directory it was seen from -/
  index : OrderedMap (List Component × String) Path
  /-- the directories of the modules at work, the innermost first -/
  contexts : List Path
deriving Repr, Inhabited

namespace Cache

def empty : Cache := ⟨.empty, .empty, []⟩

/-! ## Records -/

/-- The record of a path. -/
def record? (c : Cache) (p : Path) : Option Record :=
  (c.records.get? p.components).map Prod.snd

/-- The exports of a path, whatever the state of its record. -/
def get? (c : Cache) (p : Path) : Option Value := (c.record? p).map Record.exports

def contains (c : Cache) (p : Path) : Bool := (c.record? p).isSome

/-- Writes a record; the first path that led to its place keeps naming it. -/
def setRecord (c : Cache) (p : Path) (r : Record) : Cache :=
  let first := ((c.records.get? p.components).map Prod.fst).getD p
  { c with records := c.records.set p.components (first, r) }

/-- Records a module as loaded, unless it is; gives the exports that are now on record. -/
def finish (c : Cache) (id : String) (p : Path) (exports : Value) : Value × Cache :=
  match c.record? p with
  | none => (exports, c.setRecord p ⟨id, p, exports, .loaded⟩)
  | some r =>
    if r.isLoaded then (r.exports, c)
    else (exports, c.setRecord p { r with exports := exports, state := .loaded })

/-- Records a finished module without running anything. -/
def put (c : Cache) (id : String) (p : Path) (exports : Value) : Value × Cache :=
  c.finish id p exports

/-- Records a module as being at work. -/
def reserve (c : Cache) (r : Reservation) : Cache :=
  c.setRecord r.path ⟨r.id, r.path, r.placeholder, .resolving⟩

/-- Records a reserved module as loaded, also if its record was deleted meanwhile. -/
def commit (c : Cache) (r : Reservation) (exports : Value) : Value × Cache :=
  c.finish r.id r.path exports

/-- Drops a reserved record, unless it was loaded meanwhile. -/
def abandon (c : Cache) (r : Reservation) : Cache :=
  match c.record? r.path with
  | some record =>
    if record.isLoaded then c else { c with records := c.records.erase r.path.components }
  | none => c

/-- Forgets a module, and every identifier that led to it. -/
def delete (c : Cache) (p : Path) : Option Record × Cache :=
  (c.record? p,
    { c with
      records := c.records.erase p.components
      index := ⟨c.index.entries.filter fun e => e.2.components ≠ p.components⟩ })

/-- Forgets all modules. -/
def clear (c : Cache) : Cache := { c with records := .empty, index := .empty }

/-- The number of records. -/
def size (c : Cache) : Nat := c.records.size

/-- The paths of the records, in the order of paths. -/
def keys (c : Cache) : List Path :=
  (c.records.entries.map fun e => e.2.1).mergeSort Path.le

/-- The records, in the order of their paths. -/
def sortedRecords (c : Cache) : List Record :=
  (c.records.entries.map fun e => e.2.2).mergeSort fun a b => a.path.le b.path

/-! ## Index -/

/-- The exports of the module that `id` led to from `context` before, if it is loaded. -/
def lookup (c : Cache) (context : Path) (id : String) : Option Value := do
  let p ← c.index.get? (context.components, id)
  let r ← c.record? p
  if r.isLoaded then some r.exports else none

/-- Remembers where `id` led from `context`. -/
def remember (c : Cache) (context : Path) (id : String) (p : Path) : Cache :=
  { c with index := c.index.set (context.components, id) p }

/-! ## Context stack -/

/-- The directory of the module at work. -/
def currentContext (c : Cache) : Option Path := c.contexts.head?

/-- The number of modules at work. -/
def contextDepth (c : Cache) : Nat := c.contexts.length

def pushContext (c : Cache) (dir : Path) : Cache := { c with contexts := dir :: c.contexts }

def popContext (c : Cache) : Option Path × Cache :=
  (c.contexts.head?, { c with contexts := c.contexts.tail })

/-- Cuts the stack back to its outermost `depth` directories. -/
def truncate (c : Cache) (depth : Nat) : Cache :=
  { c with contexts := c.contexts.drop (c.contexts.length - depth) }

end Cache

end Requisite.Loader
