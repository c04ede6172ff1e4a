/-
  A session at the prompt.

  Inputs are commands or programs; programs run in the global scope and keep
  their declarations from one input to the next.  The session ends with the
  stream, with a line that is no text, or by command; it breaks off at a line
  that cannot be read as typed.

  * `answer`: what an input does;
  * `session`: a session from the banner to the end.
-/
import Requisite.Machine.Host
import Requisite.Prompt.Reading

namespace Requisite.Prompt

open Requisite Requisite.Script Requisite.Loader Requisite.Machine

/-- The version of the program. -/
def version : String := "0.1.0"

/-- The name of the program. -/
def programName : String := "tether"

/-! ## Texts -/

/-- A value in the colour of its kind. -/
def shownValue (h : Heap) : Value → String
  | .undefined => dimmed (Colour.blue.paint "undefined")
  | .null => Colour.blue.paint "null"
  | .boolean b => Colour.yellow.paint (h.display (.boolean b))
  | .number x => Colour.yellow.paint (h.display (.number x))
  | .string s => Colour.green.paint ("'" ++ s ++ "'")
  | .object o => Colour.cyan.paint (h.display (.object o))
  | .array a => Colour.cyan.paint (h.display (.array a))
  | .function f => Colour.magenta.paint (h.display (.function f))

/-- An error message; what stands before its first colon tells the kind of error. -/
def shownError (message : String) : String :=
  let cs := message.toList
  let kind := String.ofList (cs.takeWhile fun c => c != ':')
  match cs.dropWhile fun c => c != ':' with
  | [] => Colour.red.paint message
  | rest => bold (Colour.red.paint kind) ++ String.ofList rest

/-- A line that begins with the word for errors. -/
def errorLine (text : String) : String := bold (Colour.red.paint "Error") ++ ": " ++ text

/-- So many things of a kind. -/
def counted (noun : String) (count : Nat) : String :=
  if count = 1 then s!"{count} {noun}" else s!"{count} {noun}s"

/-- What is said when a command lacks its argument. -/
def missingArgument (c : Command) (what : String) : String :=
  errorLine (Colour.cyan.paint c.dotted ++ " " ++ dimmed ("requires " ++ what))

def heading (s : String) : String := bold (Colour.white.paint s)

/-- A line of two columns. -/
def helpLine (c : Colour) (entry : String × String) : String :=
  "  " ++ c.paint (padded 16 entry.1) ++ " " ++ dimmed entry.2

/-- The keys that a terminal understands. -/
def shortcuts : List (String × String) :=
  [("Ctrl+C", "Cancel current input"), ("Ctrl+D", "Exit REPL"), ("Tab", "Autocomplete")]

def helpLines : List String :=
  ["", heading "REPL Commands:", ""] ++ Command.summary.map (helpLine .cyan) ++
    ["", heading "Keyboard Shortcuts:", ""] ++ shortcuts.map (helpLine .yellow) ++ [""]

def bannerLines (cwd : Path) : List String :=
  ["",
    "  " ++ bold (Colour.brightCyan.paint programName) ++ " " ++ dimmed "v" ++ " " ++
      Colour.brightYellow.paint version,
    "  " ++ dimmed "modules resolve from" ++ " " ++ cwd.text,
    "",
    "  " ++ dimmed "Type" ++ " " ++ Colour.cyan.paint ".help" ++ " " ++
      dimmed "for available commands",
    ""]

def recordLine (r : Record) : String :=
  let state := if r.isLoaded then "loaded" else "loading"
  "  " ++ r.path.text ++ " " ++ dimmed ("(" ++ r.id ++ ")") ++ " " ++ Colour.yellow.paint state

def cacheLines (c : Cache) : List String :=
  match c.sortedRecords with
  | [] => [dimmed "no modules loaded"]
  | records => records.map recordLine

def pathsLines (m : Modules) : List String :=
  let own := match m.resolver.paths with
    | [] => ["  " ++ dimmed "(none)"]
    | paths => paths.map fun p => "  " ++ p.text
  [heading "require.paths:"] ++ own ++ [heading "search order:"] ++
    (m.resolver.searchDirs m.files).map fun p => "  " ++ p.text

/-! ## Answers -/

def printLines (w : World) (lines : List String) : World := lines.foldl World.printLine w

/-- Runs on the world, and prints what comes of it. -/
def present {ε α : Type} (x : Run ε α) (shown : Heap → α → String)
    (message : Heap → ε → String) (w : World) : World :=
  match x.run w with
  | (.ok a, w) => w.printLine (shown w.heap a)
  | (.error stop, w) => w.printErrorLine (shownError (stop.message (message w.heap)))

/-- Runs a program. -/
def evaluate (fuel : Nat) (source : String) (w : World) : World :=
  present (evalText fuel source) shownValue (fun h e => e.message h) w

/-- Loads a file as a module. -/
def loadFile (fuel : Nat) (file : String) (w : World) : World :=
  let entry := (Path.mk file).absolutize w.modules.resolver.cwd
  present (require fuel entry.text) shownValue (fun h e => e.message h) w

/-- What a session does after an input. -/
inductive Next where
  | continue (w : World)
  | finish (w : World)

/-- Carries out a command. -/
def perform (fuel : Nat) (w : World) : Command → Option String → Next
  | .help, _ => .continue (printLines w helpLines)
  | .exit, _ => .finish w
  | .clear, _ => .continue (w.print clearScreen)
  | .version, _ =>
    .continue (w.printLine
      (bold (Colour.brightCyan.paint programName) ++ ": " ++ Colour.yellow.paint version))
  | .load, some file => .continue (loadFile fuel file w)
  | .load, none => .continue (w.printErrorLine (missingArgument .load "a file path"))
  | .resolve, some id =>
    .continue (present (resolve id) (fun _ p => Colour.green.paint p.text)
      (fun h e => e.message h) w)
  | .resolve, none => .continue (w.printErrorLine (missingArgument .resolve "an identifier"))
  | .cache, _ => .continue (printLines w (cacheLines w.modules.cache))
  | .reload, _ =>
    let count := w.modules.cache.size
    let m := { w.modules with cache := w.modules.cache.clear }
    .continue ({ w with modules := m }.printLine
      (dimmed "cleared" ++ " " ++ counted "module" count))
  | .paths, _ => .continue (printLines w (pathsLines w.modules))

/-- What an input does: nothing if it is blank; else it is a command or a program. -/
def answer (fuel : Nat) (w : World) (input : List Char) : Next :=
  let source := String.ofList (trim input)
  if source = "" then .continue w
  else
    match Command.ofText? source with
    | some (command, argument) => perform fuel w command argument
    | none => .continue (evaluate fuel source w)

/-! ## Sessions -/

/-- What is said of a line that is no text. -/
def garbledLine : String :=
  errorLine
    "Io(Error \x7b kind: InvalidData, message: \"stream did not contain valid UTF-8\" \x7d)"

/-- How a session comes to its end. -/
inductive Ending where
  | orderly (w : World)
  /-- a line could not be read as typed -/
  | broken (w : World)

/-- Answers inputs as long as there are some. -/
def converse (fuel : Nat) (lines : List (Option String)) (w : World) : Ending :=
  match h : readInput [] lines with
  | (.ended, _) => .orderly (w.printLine (dimmed "^D"))
  | (.garbled, _) => .orderly (w.printErrorLine garbledLine)
  | (.torn, _) => .broken w
  | (.text cs, rest) =>
    have : rest.length < lines.length := length_readInput_lt h
    match answer fuel w cs with
    | .continue w => converse fuel rest w
    | .finish w => .orderly w
termination_by lines.length

/-- A session that reads its inputs from a stream. -/
def session (fuel : Nat) (stream : ByteArray) (w : World) : Ending :=
  match converse fuel (streamLines stream) (printLines w (bannerLines w.modules.resolver.cwd)) with
  | .orderly w => .orderly (w.printLine "")
  | .broken w => .broken w

end Requisite.Prompt
