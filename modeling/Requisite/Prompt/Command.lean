/-
  Commands of the prompt.

  A command is a dot, a name in any letter case, and at most one argument, which
  is the rest of the input.

  * `Command.ofText?`: the command that an input is;
  * `Command.summary`: the commands with their descriptions.
-/
import Requisite.Text.Blank

namespace Requisite.Prompt

inductive Command where
  | help | exit | clear | version | load | resolve | cache | reload | paths
deriving DecidableEq, Repr

namespace Command

/-- All commands, in the order in which they are described. -/
def all : List Command := [help, exit, clear, version, load, resolve, cache, reload, paths]

/-- The names of a command without the dot, the full one first. -/
def names : Command → List String
  | help => ["help", "h", "?"]
  | exit => ["exit", "quit", "q"]
  | clear => ["clear", "cls"]
  | version => ["version", "v"]
  | load => ["load", "l"]
  | resolve => ["resolve", "r"]
  | cache => ["cache"]
  | reload => ["reload"]
  | paths => ["paths"]

/-- How a command is written, without its argument. -/
def dotted (c : Command) : String := "." ++ c.names.headD ""

/-- How a command is written, with what its argument stands for. -/
def usage (c : Command) : String :=
  match c with
  | load => c.dotted ++ " <file>"
  | resolve => c.dotted ++ " <id>"
  | _ => c.dotted

def description : Command → String
  | help => "Show this help message"
  | exit => "Exit the REPL"
  | clear => "Clear the screen"
  | version => "Show version information"
  | load => "Run a file as a module and show its exports"
  | resolve => "Show the file an identifier resolves to"
  | cache => "List cached modules"
  | reload => "Empty the module cache so modules run again"
  | paths => "Show the module search directories"

/-- Every command with its usage and description. -/
def summary : List (String × String) := all.map fun c => (c.usage, c.description)

/-- The command of a name, which has no capitals. -/
def named? (name : String) : Option Command := all.find? fun c => c.names.contains name

/-- The command that an input is, with its argument if there is one.  Letters outside ASCII are
    in no name, whatever their case. -/
def ofText? (input : String) : Option (Command × Option String) :=
  match trim input.toList with
  | '.' :: rest => do
    let name := (rest.takeWhile fun c => !isBlank c).map Char.toLower
    let argument := String.ofList (trim (rest.dropWhile fun c => !isBlank c))
    let command ← named? (String.ofList name)
    return (command, if argument = "" then none else some argument)
  | _ => none

end Command

end Requisite.Prompt
