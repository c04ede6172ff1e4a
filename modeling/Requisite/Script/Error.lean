/-
  Errors of scripts and of the loader.

  The two kinds enclose each other: loading a module fails with the error of its
  script, and a script that requires a module fails with the error of the loader.

  * `Fault`: what a script may do that its values do not allow;
  * `ScriptError`, `LoaderError`, `HostCause`: the errors;
  * `ScriptError.message`, `LoaderError.message`: their texts;
  * `LoaderError.rootCause`: the innermost loader error.
-/
import Requisite.FileSystem.Basic
import Requisite.Script.Display
import Requisite.Source.Parse

namespace Requisite.Script

open Requisite Requisite.Source

/-! ## Kinds and faults -/

/-- The kinds of errors that a text tells apart. -/
inductive ErrorKind where
  | syntaxError | typeError | referenceError | rangeError | internalError | ioError
deriving DecidableEq, Repr

def ErrorKind.name : ErrorKind → String
  | syntaxError => "SyntaxError"
  | typeError => "TypeError"
  | referenceError => "ReferenceError"
  | rangeError => "RangeError"
  | internalError => "InternalError"
  | ioError => "IOError"

/-- What a script may do that its values do not allow. -/
inductive Fault where
  | notFunction (what : String)
  | notDefined (name : String)
  | constantAssigned
  /-- reading a member of `undefined` or `null` -/
  | unreadable (object key : String)
  /-- writing a member of `undefined` or `null` -/
  | unwritable (object key : String)
  /-- writing a member of an array that is no index -/
  | notIndex (key : String)
  | stackExhausted
  /-- an assignment to what is neither a name nor a member -/
  | invalidTarget
  /-- requiring a module by an empty identifier -/
  | emptyIdentifier
  /-- requiring a module by what is no string -/
  | identifierType (received : String)
  /-- requiring a module when the loader is gone -/
  | loaderGone
deriving DecidableEq, Repr

namespace Fault

def kind : Fault → ErrorKind
  | notFunction _ | constantAssigned | unreadable _ _ | unwritable _ _ | notIndex _
  | emptyIdentifier | identifierType _ => .typeError
  | notDefined _ => .referenceError
  | stackExhausted => .rangeError
  | invalidTarget => .syntaxError
  | loaderGone => .internalError

def message : Fault → String
  | notFunction what => s!"{what} is not a function"
  | notDefined name => s!"{name} is not defined"
  | constantAssigned => "Assignment to constant variable."
  | unreadable object key => s!"Cannot read properties of {object} (reading '{key}')"
  | unwritable object key => s!"Cannot set properties of {object} (setting '{key}')"
  | notIndex key => s!"Cannot set property '{key}' of an array"
  | stackExhausted => "Maximum call stack size exceeded"
  | invalidTarget => "Invalid assignment target"
  | emptyIdentifier => "The argument 'id' must be a non-empty string"
  | identifierType received =>
    s!"The \"id\" argument must be of type string. Received {received}"
  | loaderGone => "module loader is no longer alive"

end Fault

/-! ## Errors -/

mutual

inductive ScriptError where
  /-- the text is no program -/
  | malformed (e : SyntaxError)
  | fault (f : Fault)
  /-- an error that the host states by its kind and text -/
  | stated (kind : ErrorKind) (text : String)
  /-- a value thrown by the script, with the line -/
  | thrown (value : Value) (line : Nat)
  /-- an error of the host that passes through the script -/
  | host (cause : HostCause)

inductive LoaderError where
  /-- no file matches an identifier -/
  | notFound (id : String) (tried : List Path)
  /-- an identifier leads to a file that cannot be loaded -/
  | unsupported (id : String) (path : Path)
  | unreadable (path : Path) (reason : ReadFailure)
  /-- the script of a module fails -/
  | failed (path : Path) (source : ScriptError)
  | badManifest (path : Path)
  | badConfig (path : Path)

inductive HostCause where
  | loader (e : LoaderError)
  | script (e : ScriptError)
  | other (text : String)

end

instance : Inhabited ScriptError := ⟨.fault .loaderGone⟩
instance : Inhabited LoaderError := ⟨.notFound "" []⟩

/-! ## Texts -/

mutual

def ScriptError.message (h : Heap) : ScriptError → String
  | .malformed e => ErrorKind.syntaxError.name ++ ": " ++ e.message
  | .fault f => f.kind.name ++ ": " ++ f.message
  | .stated kind text => kind.name ++ ": " ++ text
  | .thrown value line => s!"Uncaught {h.display value} (line {line})"
  | .host cause => cause.message h

def LoaderError.message (h : Heap) : LoaderError → String
  | .notFound id _ => s!"Cannot find module '{id}'"
  | .unsupported id path => s!"Cannot load module '{id}': unsupported format ({path.text})"
  | .unreadable path reason => s!"Cannot read '{path.text}': {reason.text}"
  | .failed path source => s!"Error loading module '{path.text}': {source.message h}"
  | .badManifest path => s!"Invalid package manifest '{path.text}': not JSON with a fitting main"
  | .badConfig path => s!"Invalid configuration '{path.text}': not TOML with fitting fields"

def HostCause.message (h : Heap) : HostCause → String
  | .loader e => e.message h
  | .script e => e.message h
  | .other text => text

end

/-! ## Causes -/

/-- The innermost loader error: that of the module whose loading failed first. -/
def LoaderError.rootCause : LoaderError → LoaderError
  | .failed _ (.host (.loader e)) => e.rootCause
  | e => e

/-- What an error goes back to, if it is an error itself. -/
inductive Source where
  | script (e : ScriptError)
  | loader (e : LoaderError)
  /-- an error that has only a text -/
  | other (text : String)

namespace Source

def ofHost : HostCause → Source
  | .loader e => loader e
  | .script e => script e
  | .other text => other text

/-- The next error on the way to the cause. -/
def source? : Source → Option Source
  | script (.host cause) => some (ofHost cause)
  | loader (.failed _ e) => some (script e)
  | loader (.unreadable _ reason) => some (other reason.text)
  | _ => none

def message (h : Heap) : Source → String
  | script e => e.message h
  | loader e => e.message h
  | other text => text

end Source

mutual

/-- An error and all that it goes back to. -/
def ScriptError.chain : ScriptError → List Source
  | .host (.loader e) => .script (.host (.loader e)) :: e.chain
  | .host (.script e) => .script (.host (.script e)) :: e.chain
  | .host (.other text) => [.script (.host (.other text)), .other text]
  | e => [.script e]

/-- A loader error and all that it goes back to. -/
def LoaderError.chain : LoaderError → List Source
  | .failed path e => .loader (.failed path e) :: e.chain
  | .unreadable path reason => [.loader (.unreadable path reason), .other reason.text]
  | e => [.loader e]

end

end Requisite.Script
