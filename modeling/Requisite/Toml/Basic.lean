/-
  TOML values, and the rules by which headers and dotted keys build tables.

  A table is built up while a text is read, and how it came about says who may
  still add to it:

  * `Toml.addKey`: a dotted key makes the tables on its way, and may only extend
    tables that dotted keys made;
  * `Toml.openTable`: a header makes the tables above its own, and may only open
    a table that is new or was made on the way to a deeper header;
  * `Toml.openArray`: a header in double brackets starts a further table of an
    array that only such headers make.
-/

namespace Requisite

/-- How a table came about. -/
inductive TableOrigin where
  /-- by a header of its own, or as the whole document -/
  | opened
  /-- on the way to the table of a deeper header -/
  | implied
  /-- on the way of a dotted key -/
  | dotted
  /-- in braces; it is closed for good -/
  | inline
deriving DecidableEq, Repr

/-- A TOML value.  Numbers and times are checked, and not kept. -/
inductive Toml where
  | string (s : String)
  | boolean (b : Bool)
  | number
  | datetime
  | array (items : List Toml)
  | table (origin : TableOrigin) (entries : List (String × Toml))
  /-- an array of tables, by headers in double brackets -/
  | tables (items : List Toml)
deriving Inhabited

namespace Toml

/-- The entries of a table that is being built. -/
abbrev Entries := List (String × Toml)

/-- The value at a key. -/
def lookup (k : String) (es : Entries) : Option Toml := (es.find? fun e => e.1 = k).map Prod.snd

/-- The entries with `k` bound to `v`, in its place or at the end. -/
def insert (k : String) (v : Toml) : Entries → Entries
  | [] => [(k, v)]
  | e :: es => if e.1 = k then (k, v) :: es else e :: insert k v es

/-- What a step down from a table leads to. -/
structure Below where
  origin : TableOrigin
  entries : Entries
  /-- puts the changed entries back -/
  restore : Entries → Toml

/-- The table that a value holds for those who go further down: the table itself, or the last
    of an array of tables.  Values in braces or brackets cannot be entered. -/
def below? : Toml → Option Below
  | table .inline _ => none
  | table origin entries => some ⟨origin, entries, table origin⟩
  | tables items =>
    match items.reverse with
    | table origin entries :: before =>
      some ⟨origin, entries, fun es => tables (before.reverse ++ [table origin es])⟩
    | _ => none
  | _ => none

/-- Changes the table at the end of a path of table names, making the tables that are missing
    on the way. -/
def modifyAt (f : Entries → Option Entries) : List String → Entries → Option Entries
  | [], es => f es
  | k :: path, es =>
    match lookup k es with
    | none => do
      return insert k (.table .implied (← modifyAt f path [])) es
    | some v => do
      let b ← below? v
      return insert k (b.restore (← modifyAt f path b.entries)) es

/-! ## Dotted keys -/

/-- Adds a value under a dotted key to a table of the given origin.  The last table on the way
    must be the one that the key starts from, or one that dotted keys made. -/
def addDotted (v : Toml) : List String → TableOrigin → Bool → Entries → Option Entries
  | [], _, _, _ => none
  | [k], origin, atStart, es =>
    if (origin == .dotted) == atStart then none
    else if (lookup k es).isSome then none
    else some (insert k v es)
  | k :: path, _, _, es =>
    match lookup k es with
    | none => do
      return insert k (.table .dotted (← addDotted v path .dotted false [])) es
    | some (.table origin entries) =>
      if origin = .implied ∨ origin = .dotted then do
        return insert k (.table origin (← addDotted v path origin false entries)) es
      else none
    | some (.tables items) => do
      let b ← below? (.tables items)
      return insert k (b.restore (← addDotted v path b.origin false b.entries)) es
    | some _ => none

/-- Adds a value under a dotted key to the table that was opened last. -/
def addKey (key : List String) (v : Toml) (es : Entries) : Option Entries :=
  addDotted v key .opened true es

/-! ## Headers -/

/-- Opens the table `k`: a new one, or one that was only implied so far. -/
def openHere (k : String) (es : Entries) : Option Entries :=
  match lookup k es with
  | none => some (insert k (.table .opened []) es)
  | some (.table .implied entries) => some (insert k (.table .opened entries) es)
  | some _ => none

/-- Starts a further table of the array `k`. -/
def pushHere (k : String) (es : Entries) : Option Entries :=
  match lookup k es with
  | none => some (insert k (.tables [.table .opened []]) es)
  | some (.tables items) => some (insert k (.tables (items ++ [.table .opened []])) es)
  | some _ => none

/-- Opens the table that a header names. -/
def openTable (path : List String) (es : Entries) : Option Entries := do
  modifyAt (openHere (← path.getLast?)) path.dropLast es

/-- Starts a table of the array that a header names. -/
def openArray (path : List String) (es : Entries) : Option Entries := do
  modifyAt (pushHere (← path.getLast?)) path.dropLast es

end Toml

end Requisite
