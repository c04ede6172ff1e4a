/-
  The decimal text of numbers, read and written.

  * `scriptText`: a number as scripts see it.  An integer below `10 ^ 21` has no
    fraction and is cut to the range of 64-bit words; anything else is written
    positionally with the fewest digits that read back;
  * `sourceText`: a number in a message about source text.  It always shows a
    fraction or an exponent, the exponent from `10 ^ 16` on and below `10 ^ -4`;
  * `ofText?`: the number that a text denotes: an optional sign, then digits
    with an optional fraction and exponent, or a word for an infinity or NaN.
-/
import Requisite.Number.Shortest

namespace Requisite

/-! ## Digits -/

/-- The decimal digits of a natural number. -/
def decimalDigits (n : Nat) : List Char := Nat.toDigits 10 n

/-- The natural number that digits denote. -/
def ofDecimalDigits (ds : List Char) : Nat :=
  ds.foldl (fun n d => 10 * n + (d.toNat - '0'.toNat)) 0

namespace Decimal

/-- Digits with a point where it falls, without an exponent: `5000`, `0.005`, `1.5`. -/
def positional (d : Decimal) : List Char :=
  let ds := decimalDigits d.digits
  if 0 ≤ d.exponent then ds ++ List.replicate d.exponent.toNat '0'
  else
    let places := (-d.exponent).toNat
    if places < ds.length then ds.take (ds.length - places) ++ '.' :: ds.drop (ds.length - places)
    else '0' :: '.' :: List.replicate (places - ds.length) '0' ++ ds

/-- One digit before the point and the exponent after `e`: `1e16`, `1.5e-5`. -/
def scientific (d : Decimal) : List Char :=
  let ds := decimalDigits d.digits
  let exponent := d.exponent + (ds.length - 1 : Nat)
  let tail := if ds.length ≤ 1 then [] else '.' :: ds.drop 1
  ds.take 1 ++ tail ++ 'e' :: (toString exponent).toList

end Decimal

namespace Binary64

/-- A word of 64 bits holds these integers; a larger one is cut to the nearest of them. -/
def clampWord (z : Int) : Int :=
  max (-(signWeight : Int)) (min ((signWeight : Int) - 1) z)

private def signed (x : Binary64) (ds : List Char) : String :=
  String.ofList (if x.isNegative then '-' :: ds else ds)

/-- The text of a number in a script. -/
def scriptText (x : Binary64) : String :=
  if x.isNaN then "NaN"
  else if x.isInfinite then if x.isNegative then "-Infinity" else "Infinity"
  else
    match x.toInt? with
    | some z =>
      if z.natAbs < Nat.pow 10 21 then toString (clampWord z) else x.signed x.shortest.positional
    | none => x.signed x.shortest.positional

/-- The text of a number in a message about source text. -/
def sourceText (x : Binary64) : String :=
  if x.isNaN then "NaN"
  else if x.isInfinite then if x.isNegative then "-inf" else "inf"
  else
    let d := x.shortest
    let leading := d.exponent + ((decimalDigits d.digits).length : Nat)
    if x.isZero then x.signed "0.0".toList
    else if leading ≤ -4 ∨ 16 < leading then x.signed d.scientific
    else if 0 ≤ d.exponent then x.signed (d.positional ++ ['.', '0'])
    else x.signed d.positional

/-! ## Reading -/

/-- The number from which an exponent is read no further. -/
def exponentLimit : Nat := 0x10000

/-- The size of an exponent.  Once its digits have reached `exponentLimit`, those that follow are
    passed over: only a text with tens of thousands of digits could tell. -/
def exponentSize (ds : List Char) : Nat :=
  ds.foldl (fun n d => if n < exponentLimit then 10 * n + (d.toNat - '0'.toNat) else n) 0

/-- An exponent: `e` or `E`, an optional sign, digits. -/
def exponentOf? : List Char → Option Int
  | [] => some 0
  | e :: rest =>
    let digits (ds : List Char) : Option Nat :=
      if ds ≠ [] ∧ ds.all Char.isDigit then some (exponentSize ds) else none
    if e = 'e' ∨ e = 'E' then
      match rest with
      | '-' :: ds => (digits ds).map fun n => -(n : Int)
      | '+' :: ds => (digits ds).map fun n => (n : Int)
      | ds => (digits ds).map fun n => (n : Int)
    else none

/-- An unsigned decimal: digits, a fraction, an exponent; a digit on at least one side of the
    point. -/
def unsignedOf? (negative : Bool) (cs : List Char) : Option Binary64 :=
  let whole := cs.takeWhile Char.isDigit
  let rest := cs.dropWhile Char.isDigit
  let (fraction, rest) : List Char × List Char :=
    match rest with
    | '.' :: r => (r.takeWhile Char.isDigit, r.dropWhile Char.isDigit)
    | r => ([], r)
  if whole = [] ∧ fraction = [] then none
  else (exponentOf? rest).map fun e =>
    ofDecimal negative (ofDecimalDigits (whole ++ fraction)) (e - fraction.length)

/-- The words for infinities and NaN, in any case of letters. -/
def wordOf? (negative : Bool) (cs : List Char) : Option Binary64 :=
  let word := cs.map Char.toLower
  if word = "inf".toList ∨ word = "infinity".toList then
    some (ofMagnitude negative infiniteMagnitude)
  else if word = "nan".toList then some nan
  else none

/-- The number that the whole text denotes. -/
def ofText? (cs : List Char) : Option Binary64 :=
  let (negative, body) : Bool × List Char :=
    match cs with
    | '-' :: r => (true, r)
    | '+' :: r => (false, r)
    | r => (false, r)
  (wordOf? negative body).or (unsignedOf? negative body)

end Binary64

end Requisite
