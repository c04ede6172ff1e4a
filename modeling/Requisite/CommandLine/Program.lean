/-
  The program: what it does for its arguments.

  * `configOf`: the configuration, from the project, the environment and the
    options;
  * `execute`: what the options ask for, on a world of its own;
  * `perform`: the whole program, from the arguments to the exit code.
-/
import Requisite.CommandLine.Options
import Requisite.Prompt.Session

namespace Requisite.CommandLine

open Requisite Requisite.Script Requisite.Loader Requisite.Machine Requisite.Prompt

/-! ## Configuration -/

/-- The directory that is worked in: that of the options, or that of the process. -/
def workingDir (processDir : Path) (o : Options) : Path :=
  match o.cwd with
  | some dir => (Path.mk dir).absolutize processDir
  | none => processDir

/-- The configuration of the project in the working directory, with the search directories of
    the options last.  The directory of the project is where bare identifiers start from. -/
def configOf (env : Config.Environment) (o : Options) : Except Config.Failure Config := do
  let cwd := workingDir env.processDir o
  let c ← Config.load env cwd
  return { c with
    cwd := some cwd
    paths := c.paths ++ o.paths.map fun p => (Path.mk p).absolutize env.processDir }

/-! ## Execution -/

/-- Why the program fails. -/
inductive Failure where
  | loader (e : LoaderError)
  | script (e : ScriptError)
  /-- the program to run is no text -/
  | garbled
  /-- the session broke off -/
  | broken

namespace Failure

def message (h : Heap) : Failure → String
  | loader e => e.message h
  | script e => e.message h
  | garbled => "stream did not contain valid UTF-8"
  | broken => "a backspace cuts a character in two"

/-- The exit code of a program that fails. -/
def exitCode : Failure → Nat
  | broken => 101
  | _ => 1

end Failure

/-- A run of the whole program. -/
abbrev ProgramRun (α : Type) := Run Failure α

open Run

/-- Prints the value of a program, unless it is undefined. -/
def printValue (v : Value) : ProgramRun Unit := do
  if v.isUndefined then return
  else printLine ((← heap).display v)

/-- Runs a program and prints its value. -/
def runText (fuel : Nat) (source : String) : ProgramRun Unit := do
  printValue (← mapError .script (evalText fuel source))

/-- Prints the file that an identifier leads to. -/
def printResolved (id : String) : ProgramRun Unit := do
  printLine (← mapError .loader (resolve id)).text

/-- Runs a script as a module; its exports are printed if that is asked for. -/
def runScript (fuel : Nat) (processDir : Path) (script : String) (print : Bool) :
    ProgramRun Unit := do
  let exports ← mapError .loader (require fuel ((Path.mk script).absolutize processDir).text)
  if print then printLine ((← heap).display exports)

/-- The standard input. -/
structure Stream where
  bytes : ByteArray
  isTerminal : Bool

/-- Does what the options ask for; the first that asks for something decides.  If none does, a
    terminal is taken for a wish to talk, and any other input for a program. -/
def serve (fuel : Nat) (processDir : Path) (stream : Stream) (o : Options) :
    ProgramRun Unit := do
  match o.resolve, o.eval, o.script with
  | some id, _, _ => printResolved id
  | none, some source, _ => runText fuel source
  | none, none, some script => runScript fuel processDir script o.print
  | none, none, none =>
    if o.interactive || stream.isTerminal then
      match session fuel stream.bytes (← get) with
      | .orderly w => set w
      | .broken w => do
        set w
        fail .broken
    else
      match String.fromUTF8? stream.bytes with
      | some source => runText fuel source
      | none => fail .garbled

/-- The world that a configured program begins with. -/
def initialWorld (env : Config.Environment) (c : Config) : World :=
  (World.bare.withLoader (Resolver.ofConfig c env.processDir) env.files).exposeRequire

/-- Does what the options ask for on a world of its own. -/
def execute (fuel : Nat) (env : Config.Environment) (stream : Stream) (o : Options) :
    Except (Stop Failure) Unit × World :=
  match configOf env o with
  | .error e => (.error (.error (.loader (configError e))), World.bare)
  | .ok c => (serve fuel env.processDir stream o).run (initialWorld env c)

/-! ## The whole program -/

def helpText : String := "\n".intercalate [
  "Run scripts through a synchronous CommonJS-style module loader",
  "",
  "Usage: tether [OPTIONS] [SCRIPT]",
  "",
  "Arguments:",
  "  [SCRIPT]  Entry module to run",
  "",
  "Options:",
  "  -e, --eval <EVAL>   Evaluate code with `require` in scope",
  "      --resolve <ID>  Print the path an identifier resolves to and exit",
  "  -p, --print         Print the entry module's exports after it runs",
  "      --path <DIR>    Extra module search directory (repeatable)",
  "      --cwd <DIR>     Working directory bare identifiers resolve from",
  "  -i, --interactive   Start the interactive REPL",
  "      --verbose       Enable verbose logging",
  "  -h, --help          Print help",
  "  -V, --version       Print version",
  ""]

/-- What is said of a misuse. -/
def Misuse.message : Misuse → String
  | unknownArgument argument => s!"unexpected argument '{argument}' found"
  | missingValue _ => "a value is required but none was supplied"
  | repeated _ => "an option cannot be used multiple times"
  | unneededValue _ => "unexpected value for an option found"
  | evalWithScript => "--eval cannot be used with a script"

/-- What is seen of the program from outside. -/
structure Outcome where
  exitCode : Nat
  stdout : String
  stderr : String
  /-- what the loader did, in order -/
  journal : List Event

/-- The exit code of a computation without a value. -/
def exitCodeOf : Stop Failure → Nat
  | .error e => e.exitCode
  | .outOfFuel => 1

/-- The whole program.  Its exit code is 0 if all goes well, 2 if it is misused, and else that of
    the failure. -/
def perform (fuel : Nat) (env : Config.Environment) (stream : Stream)
    (arguments : List String) : Outcome :=
  match Invocation.ofArguments arguments with
  | .help => ⟨0, helpText, "", []⟩
  | .version => ⟨0, programName ++ " " ++ version ++ "\n", "", []⟩
  | .misused m => ⟨2, "", "error: " ++ m.message ++ "\n", []⟩
  | .run o =>
    let (r, w) := execute fuel env stream o
    match r with
    | .ok _ => ⟨0, w.stdout, w.stderr, w.modules.journal.reverse⟩
    | .error stop =>
      let w := w.printErrorLine (errorLine (stop.message (Failure.message w.heap)))
      ⟨exitCodeOf stop, w.stdout, w.stderr, w.modules.journal.reverse⟩

end Requisite.CommandLine
