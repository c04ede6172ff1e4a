/-
  The options of the command line.

  Arguments are read from left to right.  An option that takes a value has it
  attached or in the next argument, which is then no option; a value counts only
  when the next argument is looked at, so of two mistakes the one that comes to
  light first is told.  After `--` nothing is an option.

  * `Options`: what the arguments ask for;
  * `Invocation.ofArguments`: the options, a wish for information, or a misuse.
-/

namespace Requisite.CommandLine

/-! ## Options -/

/-- Options without a value. -/
inductive Switch where
  | print | interactive | verbose | help | version
deriving DecidableEq, Repr

/-- What takes a value: the script, which has no name, and options. -/
inductive Slot where
  | script | eval | resolve | path | cwd
deriving DecidableEq, Repr

/-- What a name stands for. -/
inductive Named where
  | switch (s : Switch)
  | slot (s : Slot)
deriving DecidableEq, Repr

namespace Named

/-- The meaning of a name after two dashes. -/
def ofWord? : String → Option Named
  | "eval" => some (slot .eval)
  | "resolve" => some (slot .resolve)
  | "print" => some (switch .print)
  | "path" => some (slot .path)
  | "cwd" => some (slot .cwd)
  | "interactive" | "repl" => some (switch .interactive)
  | "verbose" => some (switch .verbose)
  | "help" => some (switch .help)
  | "version" => some (switch .version)
  | _ => none

/-- The meaning of a letter after one dash. -/
def ofLetter? : Char → Option Named
  | 'e' => some (slot .eval)
  | 'p' => some (switch .print)
  | 'i' => some (switch .interactive)
  | 'h' => some (switch .help)
  | 'V' => some (switch .version)
  | _ => none

end Named

/-- What the arguments ask for. -/
structure Options where
  /-- the module to run -/
  script : Option String := none
  /-- a program to run -/
  eval : Option String := none
  /-- an identifier to find the file of -/
  resolve : Option String := none
  /-- whether the exports of the script are printed -/
  print : Bool := false
  /-- further search directories -/
  paths : List String := []
  /-- the directory from which bare identifiers are looked up -/
  cwd : Option String := none
  interactive : Bool := false
  verbose : Bool := false
deriving DecidableEq, Repr, Inhabited

/-- How the arguments may be wrong. -/
inductive Misuse where
  /-- an option that does not exist, or an argument too many -/
  | unknownArgument (argument : String)
  /-- an option without its value, or an empty path -/
  | missingValue (s : Slot)
  /-- an option that is given twice -/
  | repeated (n : Named)
  /-- a value for an option that takes none -/
  | unneededValue (s : Switch)
  /-- a program and a script -/
  | evalWithScript
deriving DecidableEq, Repr

/-- What comes of the arguments. -/
inductive Invocation where
  | run (o : Options)
  | help
  | version
  | misused (m : Misuse)
deriving DecidableEq, Repr

/-! ## Reading arguments -/

/-- Why the reading of arguments ends early. -/
inductive Halt where
  | help
  | version
  | misused (m : Misuse)

/-- The options so far. -/
structure State where
  options : Options
  /-- what was last met that takes a value, with the value if it came -/
  pending : Option (Slot × Option String)
  /-- whether the place of the script is taken -/
  scriptGiven : Bool

def misuse {α : Type} (m : Misuse) : Except Halt α := .error (.misused m)

/-- A value for what may have one only. -/
def fill (s : Slot) (old : Option String) (v : String) : Except Halt (Option String) :=
  if old.isSome then misuse (.repeated (.slot s)) else .ok (some v)

/-- The value of a path, which is not empty. -/
def pathValue (s : Slot) (v : String) : Except Halt String :=
  if v = "" then misuse (.missingValue s) else .ok v

/-- Stores a value. -/
def store (o : Options) (s : Slot) (v : String) : Except Halt Options :=
  match s with
  | .script => do return { o with script := some (← pathValue s v) }
  | .eval => do return { o with eval := ← fill s o.eval v }
  | .resolve => do return { o with resolve := ← fill s o.resolve v }
  | .path => do return { o with paths := o.paths ++ [← pathValue s v] }
  | .cwd => do
    let cwd ← fill s o.cwd v
    let _ ← pathValue s v
    return { o with cwd := cwd }

/-- Turns a switch on, which may be done once. -/
def turnOn (s : Switch) (old : Bool) : Except Halt Bool :=
  if old then misuse (.repeated (.switch s)) else .ok true

def flip (o : Options) (s : Switch) : Except Halt Options :=
  match s with
  | .print => do return { o with print := ← turnOn s o.print }
  | .interactive => do return { o with interactive := ← turnOn s o.interactive }
  | .verbose => do return { o with verbose := ← turnOn s o.verbose }
  | .help => .error .help
  | .version => .error .version

namespace State

/-- Stores what is pending. -/
def settle (st : State) : Except Halt State :=
  match st.pending with
  | none => .ok st
  | some (s, none) => misuse (.missingValue s)
  | some (s, some v) => do
    return { st with options := ← store st.options s v, pending := none }

/-- Reads a switch. -/
def switch (st : State) (s : Switch) : Except Halt State := do
  let st ← st.settle
  return { st with options := ← flip st.options s }

/-- Reads what takes a value, which may be attached. -/
def slot (st : State) (s : Slot) (value : Option String) : Except Halt State := do
  let st ← st.settle
  match value with
  | some v => return { st with options := ← store st.options s v }
  | none => return { st with pending := some (s, none) }

/-- Reads what is no option: the script. -/
def positional (st : State) (argument : String) : Except Halt State :=
  if st.scriptGiven then misuse (.unknownArgument argument)
  else do
    let st ← st.settle
    return { st with pending := some (.script, some argument), scriptGiven := true }

/-- Reads what is no option: the value that an option waits for, or else the script. -/
def plain (st : State) (argument : String) : Except Halt State :=
  match st.pending with
  | some (s, none) => .ok { st with pending := some (s, some argument) }
  | _ => st.positional argument

/-- Reads what follows two dashes: a name, and a value after an equals sign. -/
def word (st : State) (cs : List Char) : Except Halt State :=
  let name := String.ofList (cs.takeWhile fun c => c != '=')
  let value := match cs.dropWhile fun c => c != '=' with
    | [] => none
    | _ :: v => some (String.ofList v)
  match Named.ofWord? name with
  | none => misuse (.unknownArgument ("--" ++ name))
  | some (.slot s) => st.slot s value
  | some (.switch s) => if value.isSome then misuse (.unneededValue s) else st.switch s

/-- The value that is attached to a letter; an equals sign may stand before it. -/
def attached : List Char → Option String
  | [] => none
  | '=' :: v => some (String.ofList v)
  | v => some (String.ofList v)

/-- Reads what follows one dash: letters, up to the first that takes a value. -/
def letters (st : State) : List Char → Except Halt State
  | [] => .ok st
  | c :: rest =>
    match Named.ofLetter? c with
    | none => misuse (.unknownArgument ("-" ++ String.ofList [c]))
    | some (.slot s) => st.slot s (attached rest)
    | some (.switch s) => do (← st.switch s).letters rest

/-- Reads all arguments; `mayBeOption` says whether there may still be options. -/
def arguments (st : State) (mayBeOption : Bool) : List String → Except Halt State
  | [] => st.settle
  | a :: rest =>
    if mayBeOption then
      match a.toList with
      | ['-', '-'] => st.arguments false rest
      | '-' :: '-' :: cs => do (← st.word cs).arguments true rest
      | '-' :: c :: cs => do (← st.letters (c :: cs)).arguments true rest
      | _ => do (← st.plain a).arguments true rest
    else do (← st.positional a).arguments false rest

end State

/-- What comes of the arguments. -/
def Invocation.ofArguments (arguments : List String) : Invocation :=
  match (State.mk {} none false).arguments true arguments with
  | .ok st =>
    if st.options.eval.isSome && st.options.script.isSome then misused .evalWithScript
    else run st.options
  | .error .help => help
  | .error .version => version
  | .error (.misused m) => misused m

end Requisite.CommandLine
