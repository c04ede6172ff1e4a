/-
  The state that scripts run in, and runs upon it.

  * `World`: the heap with its global scope, what was printed, the depth of
    calls, and the state of the loader;
  * `Run ε α`: a computation on a world that may fail with an `ε`.  The world is
    kept whatever the outcome; running out of fuel is an outcome of its own, and
    no error;
  * `Event`: what the loader did, for its journal;
  * `Run.result`: the outcome of a run from a world, with a lemma for each way to
    make runs.
-/
import Requisite.Loader.Cache
import Requisite.Loader.Resolver
import Requisite.Script.Member
import Requisite.Script.Operator

namespace Requisite.Machine

open Requisite Requisite.Source Requisite.Script Requisite.Loader

/-! ## The loader's state -/

/-- What the loader does with a module. -/
inductive Action where
  /-- an identifier was seen before from the same directory, and its module is loaded -/
  | indexHit (id : String)
  /-- a module is loaded, or is at work itself -/
  | recordHit (path : Path) (state : LoadState)
  | reserved (path : Path)
  /-- the script of a module begins to run -/
  | entered (path : Path)
  | committed (path : Path)
  | abandoned (path : Path)
deriving Repr

/-- What the loader did, and the modules just after. -/
structure Event where
  action : Action
  cache : Cache

structure Modules where
  resolver : Resolver
  files : FileSystem
  cache : Cache
  /-- whether there still is a loader behind the functions that scripts hold -/
  alive : Bool
  /-- what the loader did, the latest first -/
  journal : List Event

/-! ## Worlds -/

structure World where
  heap : Heap
  /-- the scope that all programs and modules see -/
  globals : ScopeId
  stdout : String
  stderr : String
  /-- the number of script functions at work -/
  depth : Nat
  modules : Modules

namespace World

/-- Prints text. -/
def print (w : World) (s : String) : World := { w with stdout := w.stdout ++ s }

/-- Prints a line. -/
def printLine (w : World) (s : String) : World := { w with stdout := w.stdout ++ s ++ "\n" }

/-- Prints a line for errors and warnings. -/
def printErrorLine (w : World) (s : String) : World :=
  { w with stderr := w.stderr ++ s ++ "\n" }

end World

/-- Why a computation ends without a value. -/
inductive Stop (ε : Type) where
  | error (e : ε)
  | outOfFuel

/-- What is said of a computation without a value, given what is said of an error. -/
def Stop.message {ε : Type} (text : ε → String) : Stop ε → String
  | error e => text e
  | outOfFuel => "InternalError: out of fuel"

/-- A computation on a world. -/
abbrev Run (ε α : Type) := ExceptT (Stop ε) (StateM World) α

/-- What scripts do. -/
abbrev ScriptRun (α : Type) := Run ScriptError α

/-- What the loader does. -/
abbrev LoaderRun (α : Type) := Run LoaderError α

namespace Run

variable {ε ε' α : Type}

def outOfFuel : Run ε α := throw .outOfFuel

def fail (e : ε) : Run ε α := throw (.error e)

/-- A run with another kind of error. -/
def mapError (f : ε → ε') (x : Run ε α) : Run ε' α :=
  x.adapt fun
    | .error e => .error (f e)
    | .outOfFuel => .outOfFuel

/-- Runs `x`, then changes the world by `f`, whatever the outcome of `x`. -/
def andThen (x : Run ε α) (f : World → World) : Run ε α := fun w =>
  let (r, w) := x.run w
  (r, f w)

/-- The heap as it is. -/
def heap : Run ε Heap := return (← get).heap

/-- Changes the heap. -/
@[inline] def modifyHeap (f : Heap → Heap) : Run ε Unit :=
  modify fun w => { w with heap := f w.heap }

/-- Changes the heap with a result, such as a new reference. -/
@[inline] def modifyGetHeap (f : Heap → α × Heap) : Run ε α :=
  modifyGet fun w =>
    let (a, h) := f w.heap
    (a, { w with heap := h })

def newObject (ps : Properties) : Run ε ObjectId := modifyGetHeap fun h => h.newObject ps

def newArray (items : Array Value) : Run ε ArrayId := modifyGetHeap fun h => h.newArray items

def newFunction (f : Function) : Run ε FunctionId := modifyGetHeap fun h => h.newFunction f

def newScope (outer : Option ScopeId) : Run ε ScopeId := modifyGetHeap fun h => h.newScope outer

/-- The modules as they are. -/
def modules : Run ε Modules := return (← get).modules

/-- Changes the loader's cache. -/
def modifyCache (f : Cache → Cache) : Run ε Unit :=
  modify fun w => { w with modules := { w.modules with cache := f w.modules.cache } }

/-- Notes an action in the journal. -/
def note (a : Action) : Run ε Unit :=
  modify fun w =>
    { w with modules :=
      { w.modules with journal := ⟨a, w.modules.cache⟩ :: w.modules.journal } }

/-- A fault of the script. -/
def fault (f : Fault) : ScriptRun α := fail (.fault f)

/-- The outcome of what only depends on the heap. -/
def ofFault (x : Except Fault α) : ScriptRun α :=
  match x with
  | .ok a => return a
  | .error f => fault f

/-- Prints a line. -/
def printLine (s : String) : Run ε Unit := modify fun w => w.printLine s

/-- Prints a line for errors and warnings. -/
def printErrorLine (s : String) : Run ε Unit := modify fun w => w.printErrorLine s

/-! ## Outcomes -/

/-- The outcome of a run from a world, and the world after it. -/
def result (x : Run ε α) (w : World) : Except (Stop ε) α × World := x w

section
variable {β : Type} (w : World)

@[simp] theorem result_pure (a : α) : (pure a : Run ε α).result w = (.ok a, w) := rfl

@[simp] theorem result_fail (e : ε) : (fail e : Run ε α).result w = (.error (.error e), w) := rfl

@[simp] theorem result_fault (f : Fault) :
    (fault f : ScriptRun α).result w = (.error (.error (.fault f)), w) := rfl

@[simp] theorem result_outOfFuel :
    (outOfFuel : Run ε α).result w = (.error .outOfFuel, w) := rfl

theorem result_bind (x : Run ε α) (f : α → Run ε β) :
    (x >>= f).result w = match x.result w with
      | (.ok a, v) => (f a).result v
      | (.error e, v) => (.error e, v) := by
  show (ExceptT.bindCont f (x w).1) (x w).2 = _
  unfold result
  rcases x w with ⟨_ | a, v⟩ <;> rfl

theorem result_map (f : α → β) (x : Run ε α) :
    (f <$> x).result w = match x.result w with
      | (.ok a, v) => (.ok (f a), v)
      | (.error e, v) => (.error e, v) := by
  rw [map_eq_pure_bind, result_bind]
  simp

@[simp] theorem result_get : (get : Run ε World).result w = (.ok w, w) := rfl

@[simp] theorem result_heap : (heap : Run ε Heap).result w = (.ok w.heap, w) := rfl

@[simp] theorem result_modules : (modules : Run ε Modules).result w = (.ok w.modules, w) := rfl

@[simp] theorem result_modify (f : World → World) :
    (modify f : Run ε Unit).result w = (.ok (), f w) := rfl

@[simp] theorem result_modifyHeap (f : Heap → Heap) :
    (modifyHeap f : Run ε Unit).result w = (.ok (), { w with heap := f w.heap }) := rfl

@[simp] theorem result_modifyGetHeap (f : Heap → α × Heap) :
    (modifyGetHeap f : Run ε α).result w = (.ok (f w.heap).1, { w with heap := (f w.heap).2 }) :=
  rfl

@[simp] theorem result_modifyCache (f : Cache → Cache) :
    (modifyCache f : Run ε Unit).result w =
      (.ok (), { w with modules := { w.modules with cache := f w.modules.cache } }) := rfl

@[simp] theorem result_note (a : Action) :
    (note a : Run ε Unit).result w =
      (.ok (), { w with modules :=
        { w.modules with journal := ⟨a, w.modules.cache⟩ :: w.modules.journal } }) := rfl

theorem result_mapError {ε' : Type} (f : ε → ε') (x : Run ε α) :
    (x.mapError f).result w = match x.result w with
      | (.ok a, v) => (.ok a, v)
      | (.error (.error e), v) => (.error (.error (f e)), v)
      | (.error .outOfFuel, v) => (.error .outOfFuel, v) := by
  unfold mapError result
  show (Except.mapError _ (x w).1, (x w).2) = _
  rcases x w with ⟨(_ | _) | _, _⟩ <;> rfl

theorem result_tryCatch (x : Run ε α) (h : Stop ε → Run ε α) :
    (tryCatch x h : Run ε α).result w = match x.result w with
      | (.ok a, v) => (.ok a, v)
      | (.error e, v) => (h e).result v := by
  unfold result
  simp only [tryCatch, tryCatchThe, MonadExceptOf.tryCatch, ExceptT.tryCatch, ExceptT.mk, bind,
    StateT.bind]
  rcases x w with ⟨_ | a, v⟩ <;> rfl

@[simp] theorem result_andThen (x : Run ε α) (f : World → World) :
    (x.andThen f).result w = ((x.result w).1, f (x.result w).2) := rfl

end

end Run

end Requisite.Machine
