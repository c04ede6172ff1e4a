/-
  The text of values.

  Containers are shown with what they hold, down to two levels; what lies deeper
  is only named, so shared and cyclic values have a text too.

  * `Heap.display`: a value as scripts print it;
  * `Heap.displayList`: values with blanks between them;
  * `Heap.debug`: a value with its type, as a host prints it.
-/
import Requisite.Script.Heap
import Requisite.Text.Quoted

namespace Requisite.Script

namespace Heap

/-- The name of a function, if it has one. -/
def functionName? (h : Heap) (f : FunctionId) : Option String := (h.function? f).bind Function.name

/-- The number of levels of containers that are shown. -/
def displayDepth : Nat := 2

/-- A function among other values. -/
def functionText (name : Option String) : String :=
  match name with
  | some n => "[Function: " ++ n ++ "]"
  | none => "[Function (anonymous)]"

/-- The text of a value that holds no others. -/
def leafText : Value → String
  | .undefined => "undefined"
  | .null => "null"
  | .boolean b => if b then "true" else "false"
  | .number x => x.scriptText
  | .string s => s
  | .object _ | .array _ | .function _ => ""

/-- The text of a value inside containers, `levels` more of which may be opened; strings are
    in quotes. -/
def displayInner (h : Heap) : Nat → Value → String
  | _, .string s => "'" ++ s ++ "'"
  | levels, .object o =>
    match (h.properties o).entries, levels with
    | [], _ => "\x7b\x7d"
    | _, 0 => "[Object]"
    | entries, levels + 1 =>
      "\x7b " ++ ", ".intercalate
        (entries.map fun (k, v) => k ++ ": " ++ h.displayInner levels v) ++ " \x7d"
  | levels, .array a =>
    match (h.items a).toList, levels with
    | [], _ => "[]"
    | _, 0 => "[Array]"
    | items, levels + 1 => "[ " ++ ", ".intercalate (items.map (h.displayInner levels)) ++ " ]"
  | _, .function f => functionText (h.functionName? f)
  | _, v => leafText v

/-- The text of a value. -/
def display (h : Heap) : Value → String
  | .string s => s
  | v => h.displayInner displayDepth v

/-- Values with blanks between them. -/
def displayList (h : Heap) (vs : List Value) : String := " ".intercalate (vs.map h.display)

/-- An object by its keys. -/
def debugObject (h : Heap) (o : ObjectId) : String :=
  "ObjectRef(" ++ quotedList (h.properties o).keys ++ ")"

/-- An array by its length. -/
def debugArray (h : Heap) (a : ArrayId) : String :=
  s!"ArrayRef(len = {(h.items a).size})"

/-- A function by its kind and name. -/
def debugFunction (h : Heap) (f : FunctionId) : String :=
  let name := match h.functionName? f with
    | some n => "Some(" ++ quoted n ++ ")"
    | none => "None"
  match (h.function? f).map Function.code with
  | some (.native _) => "NativeFunction(" ++ name ++ ")"
  | _ => "Function(" ++ name ++ ")"

/-- The text of a value with its type. -/
def debug (h : Heap) : Value → String
  | .undefined => "Undefined"
  | .null => "Null"
  | .boolean b => "Boolean(" ++ (if b then "true" else "false") ++ ")"
  | .number x => "Number(" ++ x.sourceText ++ ")"
  | .string s => "String(" ++ quoted s ++ ")"
  | .object o => "Object(" ++ h.debugObject o ++ ")"
  | .array a => "Array(" ++ h.debugArray a ++ ")"
  | .function f => "Function(" ++ h.debugFunction f ++ ")"

end Heap

end Requisite.Script
