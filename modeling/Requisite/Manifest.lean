/-
  Package manifests: JSON texts that may name the entry file of a package.

  Only the field `main` is read; the values of other fields are passed over.
  What is passed over must still be JSON, but its numbers may have any size, its
  nesting any depth, and the escapes in its strings need not denote characters.

  * `Json.skipValue`: what follows a value that is passed over;
  * `Json.readString`: a string's characters;
  * `Manifest.ofText?`: the manifest that a text is.
-/

namespace Requisite

namespace Json

/-! ## Blanks and strings -/

def isBlank (c : Char) : Bool := c == ' ' || c == '\n' || c == '\t' || c == '\r'

/-- The text after leading white space. -/
def skipBlanks (cs : List Char) : List Char := cs.dropWhile isBlank

/-- The value of a hexadecimal digit. -/
def hexDigit? (c : Char) : Option Nat :=
  if c.isDigit then some (c.toNat - '0'.toNat)
  else if 'a' ≤ c ∧ c ≤ 'f' then some (c.toNat - 'a'.toNat + 10)
  else if 'A' ≤ c ∧ c ≤ 'F' then some (c.toNat - 'A'.toNat + 10)
  else none

/-- The number that four hexadecimal digits denote. -/
def hex4? (a b c d : Char) : Option Nat := do
  return (((← hexDigit? a) * 16 + (← hexDigit? b)) * 16 + (← hexDigit? c)) * 16 + (← hexDigit? d)

/-- What a letter after a backslash denotes, `u` apart. -/
def escape? (c : Char) : Option Char :=
  match c with
  | '"' | '\\' | '/' => some c
  | 'b' => some '\x08'
  | 'f' => some '\x0c'
  | 'n' => some '\n'
  | 'r' => some '\r'
  | 't' => some '\t'
  | _ => none

/-- The first half of a pair that denotes one character. -/
def isLeading (n : Nat) : Bool := 0xD800 ≤ n && n ≤ 0xDBFF

/-- The second half of a pair that denotes one character. -/
def isTrailing (n : Nat) : Bool := 0xDC00 ≤ n && n ≤ 0xDFFF

/-- The characters of a string after its opening quote, and the text after its closing quote.
    Controls must be escaped, and halves of pairs must come in pairs. -/
def readString : List Char → Option (List Char × List Char)
  | [] => none
  | '"' :: rest => some ([], rest)
  | '\\' :: 'u' :: a :: b :: c :: d :: '\\' :: 'u' :: e :: f :: g :: h :: rest => do
    let n ← hex4? a b c d
    if isLeading n then
      let m ← hex4? e f g h
      if isTrailing m then
        let (value, rest) ← readString rest
        return (Char.ofNat (0x10000 + (n - 0xD800) * 0x400 + (m - 0xDC00)) :: value, rest)
      else none
    else if isTrailing n then none
    else
      let (value, rest) ← readString ('\\' :: 'u' :: e :: f :: g :: h :: rest)
      return (Char.ofNat n :: value, rest)
  | '\\' :: 'u' :: a :: b :: c :: d :: rest => do
    let n ← hex4? a b c d
    if isLeading n ∨ isTrailing n then none
    else
      let (value, rest) ← readString rest
      return (Char.ofNat n :: value, rest)
  | '\\' :: c :: rest => do
    let c ← escape? c
    let (value, rest) ← readString rest
    return (c :: value, rest)
  | c :: rest =>
    if c.toNat < 32 ∨ c = '\\' then none
    else do
      let (value, rest) ← readString rest
      return (c :: value, rest)

/-! ## Passing over values -/

/-- The text after a string whose opening quote is taken. -/
def skipString : List Char → Option (List Char)
  | [] => none
  | '"' :: rest => some rest
  | '\\' :: 'u' :: a :: b :: c :: d :: rest => do
    let _ ← hex4? a b c d
    skipString rest
  | '\\' :: c :: rest => do
    let _ ← escape? c
    skipString rest
  | c :: rest => if c.toNat < 32 ∨ c = '\\' then none else skipString rest

/-- The text after one or more digits. -/
def skipDigits (cs : List Char) : Option (List Char) :=
  match cs with
  | c :: _ => if c.isDigit then some (cs.dropWhile Char.isDigit) else none
  | [] => none

/-- The text after the exponent that may come next. -/
def skipExponent : List Char → Option (List Char)
  | e :: rest =>
    if e = 'e' ∨ e = 'E' then
      match rest with
      | '+' :: ds | '-' :: ds => skipDigits ds
      | ds => skipDigits ds
    else some (e :: rest)
  | [] => some []

/-- The text after a number: an optional minus sign, digits without leading zeros, an optional
    fraction and exponent. -/
def skipNumber (cs : List Char) : Option (List Char) := do
  let unsigned := match cs with
    | '-' :: rest => rest
    | rest => rest
  let rest ← match unsigned with
    | '0' :: c :: rest => if c.isDigit then none else some (c :: rest)
    | rest => skipDigits rest
  match rest with
  | '.' :: ds => skipExponent (← skipDigits ds)
  | rest => skipExponent rest

/-- The text after `null`, `true`, `false` or a number. -/
def skipScalar : List Char → Option (List Char)
  | 'n' :: 'u' :: 'l' :: 'l' :: rest => some rest
  | 't' :: 'r' :: 'u' :: 'e' :: rest => some rest
  | 'f' :: 'a' :: 'l' :: 's' :: 'e' :: rest => some rest
  | cs => skipNumber cs

mutual

/-- The text after a value; `n` bounds how many values and lists are entered on the way to any
    one of them. -/
def skipValue : Nat → List Char → Option (List Char)
  | 0, _ => none
  | n + 1, cs =>
    match skipBlanks cs with
    | '"' :: rest => skipString rest
    | '[' :: rest =>
      match skipBlanks rest with
      | ']' :: rest => some rest
      | rest => skipItems n rest
    | '{' :: rest =>
      match skipBlanks rest with
      | '}' :: rest => some rest
      | rest => skipMembers n rest
    | rest => skipScalar rest

/-- The text after the items of an array and its closing bracket. -/
def skipItems : Nat → List Char → Option (List Char)
  | 0, _ => none
  | n + 1, cs => do
    match skipBlanks (← skipValue n cs) with
    | ',' :: rest => skipItems n rest
    | ']' :: rest => some rest
    | _ => none

/-- The text after the members of an object and its closing brace. -/
def skipMembers : Nat → List Char → Option (List Char)
  | 0, _ => none
  | n + 1, cs =>
    match skipBlanks cs with
    | '"' :: rest => do
      match skipBlanks (← skipString rest) with
      | ':' :: rest =>
        match skipBlanks (← skipValue n rest) with
        | ',' :: rest => skipMembers n rest
        | '}' :: rest => some rest
        | _ => none
      | _ => none
    | _ => none

end

end Json

/-! ## Manifests -/

open Json

/-- The part of a package manifest that matters here. -/
structure Manifest where
  /-- the field `main` -/
  mainField : Option String
deriving DecidableEq, Repr

namespace Manifest

/-- The entry file, if one is named; an empty name is none. -/
def main? (m : Manifest) : Option String := m.mainField.filter fun s => s ≠ ""

/-- A value of the field `main`, a string or `null`, and the text after it. -/
def readMain (cs : List Char) : Option (Option String × List Char) :=
  match skipBlanks cs with
  | 'n' :: 'u' :: 'l' :: 'l' :: rest => some (none, rest)
  | '"' :: rest => do
    let (value, rest) ← readString rest
    return (some (String.ofList value), rest)
  | _ => none

/-- The members of a manifest from a key on, at most `n` of them, and the text after the closing
    brace.  The field `main` may be given once. -/
def readMembers : Nat → Option (Option String) → List Char → Option (Manifest × List Char)
  | 0, _, _ => none
  | n + 1, found, cs =>
    match skipBlanks cs with
    | '"' :: rest => do
      let (key, rest) ← readString rest
      match skipBlanks rest with
      | ':' :: rest =>
        let (found, rest) ←
          if key = "main".toList then
            if found.isSome then none
            else (readMain rest).map fun (value, rest) => (some value, rest)
          else (skipValue (2 * rest.length + 2) rest).map fun rest => (found, rest)
        match skipBlanks rest with
        | ',' :: rest => readMembers n found rest
        | '}' :: rest => some (⟨found.join⟩, rest)
        | _ => none
      | _ => none
    | _ => none

/-- A manifest and the text after it: an object, or an array of its fields in order. -/
def read (cs : List Char) : Option (Manifest × List Char) :=
  match skipBlanks cs with
  | '{' :: rest =>
    match skipBlanks rest with
    | '}' :: rest => some (⟨none⟩, rest)
    | rest => readMembers (rest.length + 1) none rest
  | '[' :: rest =>
    match skipBlanks rest with
    | ']' :: rest => some (⟨none⟩, rest)
    | rest => do
      let (value, rest) ← readMain rest
      match skipBlanks rest with
      | ']' :: rest => some (⟨value⟩, rest)
      | _ => none
  | _ => none

/-- The manifest that a whole text is. -/
def ofText? (s : String) : Option Manifest :=
  match read s.toList with
  | some (m, rest) => if skipBlanks rest = [] then some m else none
  | none => none

end Manifest

end Requisite
