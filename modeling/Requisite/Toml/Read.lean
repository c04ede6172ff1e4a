/-
  Reading TOML texts.

  A text is a list of lines: keys with values, and headers that say which table
  the keys after them belong to.

  * `Reader`: a reader of characters that may fail;
  * `Scalar`: which runs of characters are numbers and times;
  * `value`: a value, nested at most `maxNesting` deep;
  * `Toml.ofText?`: the table that a text is.
-/
import Requisite.Number.Text
import Requisite.Path
import Requisite.Toml.Basic

namespace Requisite.Toml

/-! ## Readers -/

/-- Takes characters from the front of a text, or fails. -/
abbrev Reader (α : Type) := StateT (List Char) Option α

namespace Reader

/-- The characters that are left. -/
def rest : Reader (List Char) := get

/-- Takes `c`. -/
def char (c : Char) : Reader Unit := do
  match ← rest with
  | d :: cs => if d = c then set cs else failure
  | [] => failure

/-- Takes `c` if it comes next, and says whether it did. -/
def accept (c : Char) : Reader Bool := do
  match ← rest with
  | d :: cs =>
    if d = c then
      set cs
      return true
    else return false
  | [] => return false

/-- Takes the characters with the property `p`. -/
def takeWhile (p : Char → Bool) : Reader (List Char) := do
  let cs ← rest
  set (cs.dropWhile p)
  return cs.takeWhile p

end Reader

open Reader

/-! ## Blanks and comments -/

def isBlank (c : Char) : Bool := c == ' ' || c == '\t'

def blanks : Reader Unit := do
  let _ ← takeWhile isBlank

/-- What may stand in comments and strings: no controls but the tab. -/
def isPlain (c : Char) : Bool := c == '\t' || (32 ≤ c.toNat && c.toNat != 127)

/-- The text after the line end that it begins with. -/
def afterNewline? : List Char → Option (List Char)
  | '\n' :: cs => some cs
  | '\r' :: '\n' :: cs => some cs
  | _ => none

/-- A comment, if one comes next. -/
def comment : Reader Unit := do
  if ← accept '#' then
    let _ ← takeWhile isPlain

/-- The rest of a line: blanks, a comment, and its end or that of the text. -/
def lineEnd : Reader Unit := do
  blanks
  comment
  match ← rest with
  | [] => return
  | cs =>
    match afterNewline? cs with
    | some cs => set cs
    | none => failure

/-- Blanks, comments and line ends, at most `n` lines of them. -/
def blankLines : Nat → Reader Unit
  | 0 => return
  | n + 1 => do
    blanks
    comment
    match afterNewline? (← rest) with
    | some cs => do
      set cs
      blankLines n
    | none => return

/-! ## Strings -/

def hexDigit? (c : Char) : Option Nat :=
  if c.isDigit then some (c.toNat - '0'.toNat)
  else if 'a' ≤ c ∧ c ≤ 'f' then some (c.toNat - 'a'.toNat + 10)
  else if 'A' ≤ c ∧ c ≤ 'F' then some (c.toNat - 'A'.toNat + 10)
  else none

/-- The number that digits to base 16 denote. -/
def ofHex? (ds : List Char) : Option Nat :=
  ds.foldlM (fun n d => (hexDigit? d).map (16 * n + ·)) 0

/-- The character with the code point that digits to base 16 denote. -/
def codePoint? (ds : List Char) : Option Char := do
  let n ← ofHex? ds
  if n.isValidChar then some (Char.ofNat n) else none

/-- The character that an escape denotes, from the text after its backslash, and the number of
    characters it takes. -/
def escape? : List Char → Option (Char × Nat)
  | 'b' :: _ => some ('\x08', 1)
  | 't' :: _ => some ('\t', 1)
  | 'n' :: _ => some ('\n', 1)
  | 'f' :: _ => some ('\x0c', 1)
  | 'r' :: _ => some ('\r', 1)
  | '"' :: _ => some ('"', 1)
  | '\\' :: _ => some ('\\', 1)
  | 'u' :: ds =>
    if ds.length < 4 then none else (codePoint? (ds.take 4)).map fun c => (c, 5)
  | 'U' :: ds =>
    if ds.length < 8 then none else (codePoint? (ds.take 8)).map fun c => (c, 9)
  | _ => none

/-- The text after blanks and line ends. -/
def dropLines : List Char → List Char
  | '\r' :: '\n' :: cs => dropLines cs
  | c :: cs => if isBlank c || c == '\n' then dropLines cs else c :: cs
  | [] => []

/-- A string on one line after its opening quote, and the text after it. -/
def basicString (cs : List Char) : Option (List Char × List Char) :=
  match cs with
  | [] => none
  | '"' :: rest => some ([], rest)
  | '\\' :: rest => do
    let (c, n) ← escape? rest
    let (s, rest) ← basicString (rest.drop n)
    return (c :: s, rest)
  | c :: rest =>
    if isPlain c then do
      let (s, rest) ← basicString rest
      return (c :: s, rest)
    else none
termination_by cs.length
decreasing_by all_goals simp only [List.length_cons, List.length_drop]; omega

theorem length_dropLines_le (cs : List Char) : (dropLines cs).length ≤ cs.length := by
  fun_induction dropLines cs <;> simp_all <;> omega

/-- A string over several lines after its opening quotes, and the text after it.  Up to two
    quotes before the closing ones belong to it. -/
def longString (cs : List Char) : Option (List Char × List Char) :=
  match cs with
  | [] => none
  | '"' :: '"' :: '"' :: '"' :: '"' :: rest => some (['"', '"'], rest)
  | '"' :: '"' :: '"' :: '"' :: rest => some (['"'], rest)
  | '"' :: '"' :: '"' :: rest => some ([], rest)
  | '\r' :: '\n' :: rest => do
    let (s, rest) ← longString rest
    return ('\n' :: s, rest)
  | '\\' :: rest =>
    match escape? rest with
    | some (c, n) => do
      let (s, rest) ← longString (rest.drop n)
      return (c :: s, rest)
    | none =>
      -- a backslash at the end of a line takes away all blanks and line ends after it
      if (afterNewline? (rest.dropWhile isBlank)).isSome then longString (dropLines rest)
      else none
  | c :: rest =>
    if isPlain c || c == '\n' then do
      let (s, rest) ← longString rest
      return (c :: s, rest)
    else none
termination_by cs.length
decreasing_by
  all_goals simp only [List.length_cons, List.length_drop]
  all_goals first | omega | exact Nat.lt_succ_of_le (length_dropLines_le _)

/-- A string over several lines without escapes, after its opening quotes. -/
def longLiteral : List Char → Option (List Char × List Char)
  | [] => none
  | '\'' :: '\'' :: '\'' :: '\'' :: '\'' :: rest => some (['\'', '\''], rest)
  | '\'' :: '\'' :: '\'' :: '\'' :: rest => some (['\''], rest)
  | '\'' :: '\'' :: '\'' :: rest => some ([], rest)
  | '\r' :: '\n' :: rest => do
    let (s, rest) ← longLiteral rest
    return ('\n' :: s, rest)
  | c :: rest =>
    if isPlain c || c == '\n' then do
      let (s, rest) ← longLiteral rest
      return (c :: s, rest)
    else none

/-- A string on one line without escapes, after its opening quote. -/
def literalString (cs : List Char) : Option (List Char × List Char) :=
  let body := cs.takeWhile fun c => isPlain c && c != '\''
  match cs.dropWhile fun c => isPlain c && c != '\'' with
  | '\'' :: rest => some (body, rest)
  | _ => none

/-- The text after the line end that a long string may begin with. -/
def afterFirstNewline (cs : List Char) : List Char := (afterNewline? cs).getD cs

/-- A string of any kind at the front of a text, and the text after it. -/
def anyString : List Char → Option (List Char × List Char)
  | '"' :: '"' :: '"' :: rest => longString (afterFirstNewline rest)
  | '\'' :: '\'' :: '\'' :: rest => longLiteral (afterFirstNewline rest)
  | '"' :: rest => basicString rest
  | '\'' :: rest => literalString rest
  | _ => none

/-! ## Numbers and times -/

namespace Scalar

/-- Digits with single underscores between them. -/
def isDigits (digit : Char → Bool) (cs : List Char) : Bool :=
  (pieces '_' cs).all fun ds => ds != [] && ds.all digit

/-- The text without underscores. -/
def plain (cs : List Char) : List Char := cs.filter fun c => c != '_'

/-- The text after an optional sign. -/
def unsigned : List Char → List Char
  | '+' :: cs | '-' :: cs => cs
  | cs => cs

/-- Decimal digits without a leading zero. -/
def isWhole (cs : List Char) : Bool :=
  isDigits Char.isDigit cs && (cs.head? != some '0' || cs == ['0'])

/-- The number of digits to a base below 17. -/
def valueOf (base : Nat) (ds : List Char) : Nat :=
  ds.foldl (fun n d => base * n + (hexDigit? d).getD 0) 0

/-- Integers fit into a word of 64 bits. -/
def fitsWord (negative : Bool) (n : Nat) : Bool :=
  if negative then n ≤ 0x8000000000000000 else n < 0x8000000000000000

def isBinaryDigit (c : Char) : Bool := c == '0' || c == '1'

def isOctalDigit (c : Char) : Bool := '0' ≤ c && c ≤ '7'

def isHexDigit (c : Char) : Bool := (hexDigit? c).isSome

/-- An integer: decimal, or to a base that a prefix names. -/
def isInteger (cs : List Char) : Bool :=
  match cs with
  | '0' :: 'x' :: ds => isDigits isHexDigit ds && fitsWord false (valueOf 16 (plain ds))
  | '0' :: 'o' :: ds => isDigits isOctalDigit ds && fitsWord false (valueOf 8 (plain ds))
  | '0' :: 'b' :: ds => isDigits isBinaryDigit ds && fitsWord false (valueOf 2 (plain ds))
  | cs =>
    isWhole (unsigned cs) &&
      fitsWord (cs.head? == some '-') (valueOf 10 (plain (unsigned cs)))

/-- An exponent after its letter. -/
def isExponent (cs : List Char) : Bool := isDigits Char.isDigit (unsigned cs)

def isExponentMark (c : Char) : Bool := c == 'e' || c == 'E'

/-- A number with a fraction, an exponent or both, not beyond the largest one; or the word for
    an infinity or NaN. -/
def isFloat (cs : List Char) : Bool :=
  let body := unsigned cs
  let mantissa := body.takeWhile fun c => !isExponentMark c
  let exponent := body.dropWhile fun c => !isExponentMark c
  let shape := match pieces '.' mantissa with
    | [whole] => isWhole whole && exponent != []
    | [whole, fraction] => isWhole whole && isDigits Char.isDigit fraction
    | _ => false
  let inRange := (Binary64.ofText? (plain cs)).any fun x => x != Binary64.infinity
  body == ['i', 'n', 'f'] || body == ['n', 'a', 'n'] ||
    (shape && (exponent == [] || isExponent (exponent.drop 1)) && inRange)

/-- A number of exactly `width` digits from `low` to `high`. -/
def isField (width low high : Nat) (cs : List Char) : Bool :=
  cs.length == width && cs.all Char.isDigit &&
    low ≤ ofDecimalDigits cs && ofDecimalDigits cs ≤ high

def isLeapYear (y : Nat) : Bool := y % 4 == 0 && (y % 100 != 0 || y % 400 == 0)

/-- The days of a month. -/
def daysIn (year month : Nat) : Nat :=
  if month = 2 then if isLeapYear year then 29 else 28
  else if month = 4 ∨ month = 6 ∨ month = 9 ∨ month = 11 then 30
  else 31

/-- `year-month-day`, a day of the calendar. -/
def isDate (cs : List Char) : Bool :=
  match pieces '-' cs with
  | [y, m, d] =>
    isField 4 0 9999 y && isField 2 1 12 m &&
      isField 2 1 (daysIn (ofDecimalDigits y) (ofDecimalDigits m)) d
  | _ => false

/-- `hour:minute:second`, with an optional fraction of the second. -/
def isTime (cs : List Char) : Bool :=
  match pieces ':' cs with
  | [h, m, s] =>
    isField 2 0 23 h && isField 2 0 59 m &&
      match pieces '.' s with
      | [whole] => isField 2 0 60 whole
      | [whole, fraction] => isField 2 0 60 whole && fraction != [] && fraction.all Char.isDigit
      | _ => false
  | _ => false

/-- `hour:minute` of an offset. -/
def isOffset (cs : List Char) : Bool :=
  match pieces ':' cs with
  | [h, m] => isField 2 0 23 h && isField 2 0 59 m
  | _ => false

/-- A time with an optional offset: `Z`, or a sign with hours and minutes. -/
def isTimeWithOffset (cs : List Char) : Bool :=
  let time := cs.takeWhile fun c => c.isDigit || c == ':' || c == '.'
  isTime time &&
    match cs.drop time.length with
    | [] | ['Z'] | ['z'] => true
    | '+' :: offset | '-' :: offset => isOffset offset
    | _ => false

/-- A date, a time, or both with a `T` between them. -/
def isDatetime (cs : List Char) : Bool :=
  isDate cs || isTime cs ||
    match cs[10]? with
    | some t => (t == 'T' || t == 't') && isDate (cs.take 10) && isTimeWithOffset (cs.drop 11)
    | none => false

end Scalar

/-- Whether a character ends a number, a time or a word. -/
def endsScalar (c : Char) : Bool :=
  c == ' ' || c == '\t' || c == '\r' || c == '\n' || c == ',' || c == ']' || c == '}' || c == '#'

/-- A number, a time or a boolean.  A date and a time may have a blank between them. -/
def scalar : Reader Toml := do
  let run ← takeWhile fun c => !endsScalar c
  if run = "true".toList then return .boolean true
  else if run = "false".toList then return .boolean false
  else if Scalar.isDatetime run then
    if Scalar.isDate run then
      match ← rest with
      | ' ' :: cs =>
        if Scalar.isTimeWithOffset (cs.takeWhile fun c => !endsScalar c) then
          set (cs.dropWhile fun c => !endsScalar c)
      | _ => pure ()
    return .datetime
  else if Scalar.isInteger run || Scalar.isFloat run then return .number
  else failure

/-! ## Keys -/

def isBareKey (c : Char) : Bool := c.isAlphanum || c == '-' || c == '_'

/-- One part of a key: a bare word, or a string on one line. -/
def simpleKey : Reader String := do
  match ← rest with
  | '"' :: cs => do
    let (s, cs) ← (basicString cs : Option _)
    set cs
    return String.ofList s
  | '\'' :: cs => do
    let (s, cs) ← (literalString cs : Option _)
    set cs
    return String.ofList s
  | _ => do
    let s ← takeWhile isBareKey
    if s = [] then failure else return String.ofList s

/-- The limit on the parts of a key and on the nesting of values: there must be fewer. -/
def maxNesting : Nat := 80

/-- The parts of a key, with dots between them; at most `n`. -/
def keyParts : Nat → Reader (List String)
  | 0 => failure
  | n + 1 => do
    blanks
    let k ← simpleKey
    blanks
    if ← accept '.' then return k :: (← keyParts n) else return [k]

/-- A key. -/
def key : Reader (List String) := keyParts (maxNesting - 1)

/-! ## Values -/

/-- The items of an array after its opening bracket, at most `n`, and the closing bracket. -/
def arrayItems (item : Reader Toml) : Nat → Reader (List Toml)
  | 0 => failure
  | n + 1 => do
    blankLines (← rest).length
    if ← accept ']' then return []
    else
      let v ← item
      blankLines (← rest).length
      if ← accept ',' then return v :: (← arrayItems item n)
      else
        char ']'
        return [v]

/-- The entries of a table in braces from a key on, at most `n`, and the closing brace. -/
def inlineEntries (item : Reader Toml) : Nat → Entries → Reader Entries
  | 0, _ => failure
  | n + 1, es => do
    let k ← key
    char '='
    blanks
    let v ← item
    blanks
    let es ← (addKey k v es : Option _)
    if ← accept ',' then inlineEntries item n es
    else
      char '}'
      return es

/-- A value with fewer than `n` arrays and tables around anything in it. -/
def value : Nat → Reader Toml
  | 0 => failure
  | n + 1 => do
    match ← rest with
    | '"' :: _ | '\'' :: _ => do
      let (s, cs) ← (anyString (← rest) : Option _)
      set cs
      return .string (String.ofList s)
    | '[' :: cs => do
      if n = 0 then failure
      set cs
      return .array (← arrayItems (value n) (cs.length + 1))
    | '{' :: cs => do
      if n = 0 then failure
      set cs
      blanks
      if ← accept '}' then return .table .inline []
      else return .table .inline (← inlineEntries (value n) (cs.length + 1) [])
    | _ => scalar

/-! ## Documents -/

/-- The document so far, and the path of the table that was opened last. -/
structure Document where
  root : Entries
  path : List String

/-- A line: nothing, a header, or a key with its value. -/
def line (d : Document) : Reader Document := do
  blanks
  match ← rest with
  | [] => return d
  | '[' :: '[' :: cs => do
    set cs
    let path ← key
    char ']'
    char ']'
    lineEnd
    return ⟨← (openArray path d.root : Option _), path⟩
  | '[' :: cs => do
    set cs
    let path ← key
    char ']'
    lineEnd
    return ⟨← (openTable path d.root : Option _), path⟩
  | '#' :: _ | '\n' :: _ | '\r' :: _ => do
    lineEnd
    return d
  | _ => do
    let k ← key
    char '='
    blanks
    let v ← value maxNesting
    lineEnd
    return { d with root := ← (modifyAt (addKey k v) d.path d.root : Option _) }

/-- All lines; at most `n`. -/
def lines : Nat → Document → Reader Document
  | 0, d => return d
  | n + 1, d => do
    match ← rest with
    | [] => return d
    | _ => lines n (← line d)

/-- The entries of the table that a text is.  A byte order mark may stand before it. -/
def ofText? (s : String) : Option Entries :=
  let cs := match s.toList with
    | '\uFEFF' :: cs => cs
    | cs => cs
  ((lines (cs.length + 1) ⟨[], []⟩).run cs).bind fun (d, rest) =>
    if rest = [] then some d.root else none

end Requisite.Toml
