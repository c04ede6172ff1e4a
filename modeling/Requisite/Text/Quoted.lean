/-
  Text in double quotes, as messages about source text show it.

  A quote, a backslash and the usual controls are written with a backslash;
  any other character that would not show, or would combine with the one before
  it, by its code point in braces.
-/
import Requisite.Text.Printable

namespace Requisite

/-- A code point in hexadecimal. -/
def hexDigits (n : Nat) : List Char := Nat.toDigits 16 n

/-- The halfwidth sound marks stand in a place of their own, though they combine with the letter
    before. -/
def isHalfwidthMark (c : Char) : Bool := c.toNat == 0xFF9E || c.toNat == 0xFF9F

/-- One character between the quotes. -/
def quotedChar (c : Char) : List Char :=
  if c = '"' ∨ c = '\\' then ['\\', c]
  else if c = '\n' then ['\\', 'n']
  else if c = '\r' then ['\\', 'r']
  else if c = '\t' then ['\\', 't']
  else if c.toNat = 0 then ['\\', '0']
  else if (isGraphemeExtend c && !isHalfwidthMark c) || !isPrintable c then
    '\\' :: 'u' :: '{' :: hexDigits c.toNat ++ ['}']
  else [c]

/-- The text in double quotes. -/
def quoted (s : String) : String :=
  String.ofList ('"' :: s.toList.flatMap quotedChar ++ ['"'])

/-- A list of texts, each in quotes: `["a", "b"]`. -/
def quotedList (ss : List String) : String :=
  "[" ++ ", ".intercalate (ss.map quoted) ++ "]"

end Requisite
