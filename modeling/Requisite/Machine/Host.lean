/-
  What a host does with a world.

  * `World.bare`: a world with the built-in globals and no loader;
  * `World.withLoader`, `World.exposeRequire`: a loader behind a world, and
    `require` among its globals;
  * `evalText`, `evalFile`, `compileText`: scripts.

  What may run scripts takes fuel, which bounds how deep it goes; `ampleFuel` is
  more than any run can use.
-/
import Requisite.Machine.Eval

namespace Requisite.Machine

open Requisite Requisite.Source Requisite.Script Requisite.Loader

open Run

/-! ## Worlds to begin with -/

/-- The functions of the console, by name. -/
def consoleFunctions : List (String × Native) :=
  [("log", .log), ("error", .error), ("warn", .warn)]

/-- Makes the object that the console functions are members of. -/
def newConsole (h : Heap) : ObjectId × Heap :=
  let (members, h) := consoleFunctions.foldl
    (fun (members, h) (name, native) =>
      let (f, h) := Heap.newFunction h ⟨some name, .native native, .empty⟩
      (OrderedMap.set members name (Value.function f), h))
    (OrderedMap.empty, h)
  h.newObject members

/-- A loader that is gone, with nothing loaded. -/
def Modules.gone : Modules := ⟨default, .void, .empty, false, []⟩

/-- A world with the built-in globals and no loader. -/
def World.bare : World :=
  let (globals, h) := Heap.empty.newScope .none
  let (console, h) := newConsole h
  let h := h.declare globals "undefined" .undefined false
  let h := h.declare globals "NaN" (.number .nan) false
  let h := h.declare globals "Infinity" (.number .infinity) false
  let h := h.declare globals "console" (.object console) true
  ⟨h, globals, "", "", 0, .gone⟩

/-- Binds a name among the globals. -/
def World.define (w : World) (x : String) (v : Value) : World :=
  { w with heap := w.heap.declare w.globals x v true }

/-- A world with a loader behind it that has loaded nothing. -/
def World.withLoader (w : World) (resolver : Resolver) (files : FileSystem) : World :=
  { w with modules := ⟨resolver, files, .empty, true, []⟩ }

/-- A world with `require` among the globals. -/
def World.exposeRequire (w : World) : World :=
  let (require, h) := newRequireIn w.heap
  { w with heap := h }.define "require" (.function require)

/-- The loader error of a configuration that cannot be had. -/
def configError : Config.Failure → LoaderError
  | .unreadable path reason => .unreadable path reason
  | .invalid path => .badConfig path

/-- Changes the resolver of the loader. -/
def World.modifyResolver (w : World) (f : Resolver → Resolver) : World :=
  { w with modules := { w.modules with resolver := f w.modules.resolver } }

/-- The loader in one line: where it works, and how many modules are on record. -/
def Modules.summary (m : Modules) : String :=
  s!"Loader \x7b cwd: {quoted m.resolver.cwd.text}, modules: {m.cache.size} \x7d"

/-- What was printed so far, and the world without it. -/
def World.takeOutput (w : World) : (String × String) × World :=
  ((w.stdout, w.stderr), { w with stdout := "", stderr := "" })

/-! ## Scripts -/

/-- Runs a program in the global scope; its value is that of the last statement. -/
def runProgram (fuel : Nat) (body : List Stmt) : ScriptRun Value := do
  let globals := (← get).globals
  hoist globals body
  return (← execList (exec fuel globals globals) .undefined body).value

/-- Reads a program. -/
def parseText (source : String) : ScriptRun (List Stmt) :=
  match Program.ofText? source with
  | .ok body => return body
  | .error e => fail (.malformed e)

/-- Runs the program in a text. -/
def evalText (fuel : Nat) (source : String) : ScriptRun Value := do
  runProgram fuel (← parseText source)

/-- The function with a text for its body, which sees the globals. -/
def compileText (source : String) (params : List String) : ScriptRun Value := do
  let body ← parseText source
  return .function (← newFunction ⟨none, .script params body (← get).globals, .empty⟩)

/-- Runs the program in a file. -/
def evalFile (fuel : Nat) (files : FileSystem) (path : Path) : ScriptRun Value := do
  match files.readText path with
  | .ok text => evalText fuel text
  | .error reason => fail (.stated .ioError reason.text)

/-! ## Fuel -/

/-- Fuel for whatever a machine can do in practice. -/
def ampleFuel : Nat := 0x1000000000000000

end Requisite.Machine
