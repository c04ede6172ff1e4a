/-
  Grapheme clusters: what a reader takes for one character.

  A text is cut between any two characters unless a rule joins them: marks to
  what they modify, the parts of a syllable, of a conjunct, of a flag or of a
  joined pictograph to each other.

  * `Kind`: what the rules tell apart;
  * `Tail`: what is known of the cluster read so far;
  * `graphemes`: the clusters of a text; together they are the text.
-/
import Requisite.Text.GraphemeTables
import Requisite.Text.Printable

namespace Requisite.Grapheme

/-! ## Kinds of characters -/

inductive Kind where
  | carriageReturn | lineFeed | control
  | extend | joiner | spacingMark | prepend
  /-- half of a flag -/
  | regional
  /-- the parts of Hangul syllables, and whole syllables without and with a final part -/
  | leading | vowel | trailing | openSyllable | closedSyllable
  | pictograph
  | other
deriving DecidableEq, Repr

/-- Marks that modify the character before them. -/
def isExtend (c : Char) : Bool :=
  isGraphemeExtend c || (0x1F3FB ≤ c.toNat && c.toNat ≤ 0x1F3FF)

def isWithin (first last : Nat) (c : Char) : Bool := first ≤ c.toNat && c.toNat ≤ last

def isLeading (c : Char) : Bool := isWithin 0x1100 0x115F c || isWithin 0xA960 0xA97C c

def isVowel (c : Char) : Bool :=
  isWithin 0x1160 0x11A7 c || isWithin 0xD7B0 0xD7C6 c || isWithin 0x16D63 0x16D63 c ||
    isWithin 0x16D67 0x16D6A c

def isTrailing (c : Char) : Bool := isWithin 0x11A8 0x11FF c || isWithin 0xD7CB 0xD7FB c

def isSyllable (c : Char) : Bool := isWithin 0xAC00 0xD7A3 c

def Kind.ofChar (c : Char) : Kind :=
  if c = '\r' then carriageReturn
  else if c = '\n' then lineFeed
  else if c.toNat = 0x200D then joiner
  else if controlRanges.contains c then control
  else if c.toNat < 0x7F then other
  else if isExtend c then extend
  else if isWithin 0x1F1E6 0x1F1FF c then regional
  else if isLeading c then leading
  else if isVowel c then vowel
  else if isTrailing c then trailing
  else if isSyllable c then
    if (c.toNat - 0xAC00) % 28 = 0 then openSyllable else closedSyllable
  else if prependRanges.contains c then prepend
  else if spacingMarkRanges.contains c then spacingMark
  else if pictographRanges.contains c then pictograph
  else other

/-! ## Clusters -/

/-- How far a conjunct of consonants has come. -/
inductive Conjunct where
  | none
  /-- a consonant, and marks other than linkers -/
  | consonant
  /-- a consonant and marks, a linker among them -/
  | linked
deriving DecidableEq, Repr

/-- How far a joined pictograph has come. -/
inductive Emblem where
  | none
  /-- a pictograph, and marks -/
  | base
  /-- a pictograph, marks, and a joiner -/
  | joined
deriving DecidableEq, Repr

/-- What is known of the text up to some character. -/
structure Tail where
  kind : Kind
  conjunct : Conjunct
  emblem : Emblem
  /-- whether the number of flag halves at the end is odd -/
  oddRegional : Bool

/-- A conjunct with one more character. -/
def Conjunct.next (s : Conjunct) (c : Char) : Conjunct :=
  if consonantRanges.contains c then consonant
  else if linkerRanges.contains c then
    match s with
    | none => none
    | _ => linked
  else if c.toNat = 0x200D || (isExtend c && c.toNat != 0x200C) then s
  else none

/-- A joined pictograph with one more character. -/
def Emblem.next (s : Emblem) : Kind → Emblem
  | .pictograph => base
  | .extend =>
    match s with
    | base => base
    | _ => none
  | .joiner =>
    match s with
    | base => joined
    | _ => none
  | _ => none

/-- The text that consists of one character. -/
def Tail.single (c : Char) : Tail where
  kind := Kind.ofChar c
  conjunct := Conjunct.none.next c
  emblem := Emblem.none.next (Kind.ofChar c)
  oddRegional := Kind.ofChar c = .regional

/-- The text with one more character. -/
def Tail.next (t : Tail) (c : Char) : Tail where
  kind := Kind.ofChar c
  conjunct := t.conjunct.next c
  emblem := t.emblem.next (Kind.ofChar c)
  oddRegional := Kind.ofChar c = .regional && !(t.kind = .regional && t.oddRegional)

/-- Whether two parts stand in one syllable. -/
def inSyllable : Kind → Kind → Bool
  | .leading, .leading | .leading, .vowel | .leading, .openSyllable
  | .leading, .closedSyllable => true
  | .openSyllable, .vowel | .openSyllable, .trailing | .vowel, .vowel | .vowel, .trailing => true
  | .closedSyllable, .trailing | .trailing, .trailing => true
  | _, _ => false

def isBreaking : Kind → Bool
  | .carriageReturn | .lineFeed | .control => true
  | _ => false

/-- Whether a character belongs to the cluster that the text ends with. -/
def Tail.joins (t : Tail) (c : Char) : Bool :=
  let kind := Kind.ofChar c
  if t.kind = .carriageReturn then kind = .lineFeed
  else if isBreaking t.kind || isBreaking kind then false
  else
    kind = .extend || kind = .joiner || kind = .spacingMark || t.kind = .prepend ||
      inSyllable t.kind kind ||
      (t.conjunct = .linked && consonantRanges.contains c) ||
      (t.emblem = .joined && kind = .pictograph) ||
      (t.kind = .regional && t.oddRegional && kind = .regional)

/-- The clusters of a text that goes on after `cluster`, which is given in reverse order. -/
def clustersFrom (t : Tail) (cluster : List Char) : List Char → List (List Char)
  | [] => [cluster.reverse]
  | c :: rest =>
    if t.joins c then clustersFrom (t.next c) (c :: cluster) rest
    else cluster.reverse :: clustersFrom (t.next c) [c] rest

/-- The grapheme clusters of a text. -/
def clusters : List Char → List (List Char)
  | [] => []
  | c :: rest => clustersFrom (.single c) [c] rest

theorem flatten_clustersFrom (t : Tail) (cluster cs : List Char) :
    (clustersFrom t cluster cs).flatten = cluster.reverse ++ cs := by
  induction cs generalizing t cluster with
  | nil => simp [clustersFrom]
  | cons c rest ih =>
    simp only [clustersFrom]
    split <;> simp [ih]

/-- Nothing is lost: the clusters are the text, cut. -/
theorem flatten_clusters (cs : List Char) : (clusters cs).flatten = cs := by
  cases cs with
  | nil => rfl
  | cons c rest => simp [clusters, flatten_clustersFrom]

end Requisite.Grapheme
