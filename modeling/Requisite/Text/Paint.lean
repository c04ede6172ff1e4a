/-
  Colours and weights of text on a terminal.

  A style is written as a sequence before the text and one after it, so that
  styles nest.

  * `Colour.paint`, `bold`, `dimmed`: styled text;
  * `padded`: text filled up with blanks.
-/

namespace Requisite

inductive Colour where
  | red | green | yellow | blue | magenta | cyan | white
  | brightGreen | brightYellow | brightCyan
deriving DecidableEq, Repr

namespace Colour

/-- The number of a colour. -/
def code : Colour → Nat
  | red => 31
  | green => 32
  | yellow => 33
  | blue => 34
  | magenta => 35
  | cyan => 36
  | white => 37
  | brightGreen => 92
  | brightYellow => 93
  | brightCyan => 96

end Colour

/-- The sequence that sets a property of the text that follows. -/
def setting (n : Nat) : String := "\x1b[" ++ toString n ++ "m"

/-- Text in a colour; the colour from before the text is not kept. -/
def Colour.paint (c : Colour) (s : String) : String := setting c.code ++ s ++ setting 39

def bold (s : String) : String := setting 1 ++ s ++ setting 0

def dimmed (s : String) : String := setting 2 ++ s ++ setting 0

/-- Text with blanks at its end, up to `width` characters. -/
def padded (width : Nat) (s : String) : String :=
  s ++ String.ofList (List.replicate (width - s.length) ' ')

/-- The sequence that empties the screen and goes to its top left corner. -/
def clearScreen : String := "\x1b[2J\x1b[H"

end Requisite
