/-
  Double precision numbers (IEEE 754 binary64), kept as their 64 bits.

  A number is told apart, compared and tested on its bits, so that the laws of
  equality and order are facts of `UInt64`; sums, products and quotients are
  those of `Float`.  Remainders and the reading of decimal text are computed in
  exact integer arithmetic.

  * `isNaN`, `isInfinite`, `isZero`, `eq`, `lt`, `le`: tests on the bits;
  * `significand`, `unitExponent`: a finite number is
    `± significand * 2 ^ unitExponent`;
  * `toInt?`: the integer a number is equal to, if it is one;
  * `ofRatio`: the number nearest to a quotient of natural numbers, a tie going
    to the even significand;
  * `mod`: the remainder of a division rounded toward zero, exact.
-/

namespace Requisite

/-- A double precision number, by its bits: sign, 11 bits of exponent, 52 bits of
    fraction. -/
structure Binary64 where
  bits : UInt64
deriving DecidableEq, Repr, Inhabited

namespace Binary64

/-! ## Fields and classes -/

/-- The weight of the sign bit. -/
def signWeight : Nat := 0x8000000000000000

/-- The weight of the lowest bit of the exponent. -/
def exponentWeight : Nat := 0x10000000000000

/-- The bits but for the sign, as a natural number: the order of magnitudes. -/
def magnitude (x : Binary64) : Nat := x.bits.toNat % signWeight

/-- Whether the sign bit is set. -/
def isNegative (x : Binary64) : Bool := signWeight ≤ x.bits.toNat

/-- The magnitude of the infinities; what lies above it is not a number. -/
def infiniteMagnitude : Nat := 0x7ff0000000000000

def isNaN (x : Binary64) : Bool := infiniteMagnitude < x.magnitude

def isInfinite (x : Binary64) : Bool := x.magnitude == infiniteMagnitude

def isFinite (x : Binary64) : Bool := x.magnitude < infiniteMagnitude

/-- Both zeros. -/
def isZero (x : Binary64) : Bool := x.magnitude == 0

def zero : Binary64 := ⟨0⟩

def one : Binary64 := ⟨0x3ff0000000000000⟩

def nan : Binary64 := ⟨0x7ff8000000000000⟩

def infinity : Binary64 := ⟨0x7ff0000000000000⟩

/-- The exponent field. -/
def exponentField (x : Binary64) : Nat := x.magnitude / exponentWeight

/-- The significand of a finite number, the hidden bit included. -/
def significand (x : Binary64) : Nat :=
  let fraction := x.magnitude % exponentWeight
  if x.exponentField = 0 then fraction else exponentWeight + fraction

/-- The exponent of the unit that the significand counts. -/
def unitExponent (x : Binary64) : Int :=
  (max x.exponentField 1 : Nat) - 1075

/-- A number of the given sign and magnitude. -/
def ofMagnitude (negative : Bool) (m : Nat) : Binary64 :=
  ⟨UInt64.ofNat (if negative then m + signWeight else m)⟩

/-! ## Comparison -/

/-- The place of a number in the order of all numbers; the zeros share theirs. -/
def rank (x : Binary64) : Int :=
  if x.isNegative then -(x.magnitude : Int) else x.magnitude

/-- Equality of numbers: a NaN equals nothing, the two zeros are equal. -/
def eq (x y : Binary64) : Bool :=
  !x.isNaN && !y.isNaN && x.rank == y.rank

def lt (x y : Binary64) : Bool :=
  !x.isNaN && !y.isNaN && x.rank < y.rank

def le (x y : Binary64) : Bool :=
  !x.isNaN && !y.isNaN && x.rank ≤ y.rank

theorem eq_symm (x y : Binary64) : x.eq y = y.eq x := by
  simp only [eq, Bool.and_comm x.isNaN.not, Bool.beq_comm (a := x.rank)]

theorem eq_self (x : Binary64) : x.eq x = !x.isNaN := by
  simp [eq]

/-! ## Arithmetic -/

def toFloat (x : Binary64) : Float := Float.ofBits x.bits

def ofFloat (f : Float) : Binary64 := ⟨f.toBits⟩

def add (x y : Binary64) : Binary64 := ofFloat (x.toFloat + y.toFloat)

def sub (x y : Binary64) : Binary64 := ofFloat (x.toFloat - y.toFloat)

def mul (x y : Binary64) : Binary64 := ofFloat (x.toFloat * y.toFloat)

def div (x y : Binary64) : Binary64 := ofFloat (x.toFloat / y.toFloat)

/-- The number with the other sign. -/
def neg (x : Binary64) : Binary64 := ⟨x.bits ^^^ 0x8000000000000000⟩

/-- `n * 2 ^ k`, or its quotient by `2 ^ (-k)` rounded down. -/
def scale (n : Nat) (k : Int) : Nat :=
  if 0 ≤ k then n <<< k.toNat else n >>> (-k).toNat

/-- The number `n * 2 ^ k` for `n < 2 ^ 53` and `-1074 ≤ k`, where it is one: the
    significand is brought to 53 bits as far as the least exponent allows. -/
def ofScaled (negative : Bool) (n : Nat) (k : Int) : Binary64 :=
  if n = 0 then ofMagnitude negative 0 else
    let shift := min (52 - n.log2) (k + 1074).toNat
    ofMagnitude negative ((k - shift + 1074).toNat * exponentWeight + n <<< shift)

/-- The remainder of the quotient rounded toward zero; it has the sign of `x`. -/
def mod (x y : Binary64) : Binary64 :=
  if x.isNaN || y.isNaN || x.isInfinite || y.isZero then nan
  else if y.isInfinite then x
  else
    let unit := min x.unitExponent y.unitExponent
    let rest := scale x.significand (x.unitExponent - unit) %
      scale y.significand (y.unitExponent - unit)
    ofScaled x.isNegative rest unit

/-! ## Integers and quotients -/

/-- The integer that the number is equal to. -/
def toInt? (x : Binary64) : Option Int :=
  if !x.isFinite then none
  else
    let k := x.unitExponent
    let size : Option Nat :=
      if 0 ≤ k then some (x.significand <<< k.toNat)
      else if x.significand % Nat.pow 2 (-k).toNat = 0 then some (x.significand >>> (-k).toNat)
      else none
    size.map fun n => if x.isNegative then -(n : Int) else n

/-- `n / d` rounded to the nearest integer, a tie going to the even one. -/
def roundDiv (n d : Nat) : Nat :=
  let q := n / d
  let r := 2 * (n % d)
  if r < d ∨ (r = d ∧ q % 2 = 0) then q else q + 1

/-- The number nearest to `± n / d` (`0 < d`); a tie goes to the even significand, and what
    rounds beyond the largest number is infinite. -/
def ofRatio (negative : Bool) (n d : Nat) : Binary64 :=
  if n = 0 then ofMagnitude negative 0 else
    -- the quotient lies strictly between `2 ^ (k + 52)` and `2 ^ (k + 54)`
    let k : Int := (n.log2 : Int) - d.log2 - 53
    let below (k : Int) : Nat × Nat :=
      if 0 ≤ k then (n, d <<< k.toNat) else (n <<< (-k).toNat, d)
    let unit (k : Int) : Int := max k (-1074)
    let (a, b) := below (unit k)
    let k := if a / b < 2 * exponentWeight then unit k else unit k + 1
    let (a, b) := below k
    let m := (k + 1074).toNat * exponentWeight + roundDiv a b
    ofMagnitude negative (min m infiniteMagnitude)

/-- The number nearest to a natural number. -/
def ofNat (n : Nat) : Binary64 := ofRatio false n 1

instance (n : Nat) : OfNat Binary64 n := ⟨ofNat n⟩

/-- The number nearest to `± n * 10 ^ e`.  Far outside the range of numbers the power is not
    computed: the answer is a zero or an infinity. -/
def ofDecimal (negative : Bool) (n : Nat) (e : Int) : Binary64 :=
  let width : Int := (Nat.log2 n * 30103 / 100000 : Nat)
  if n = 0 ∨ width + e < -330 then ofMagnitude negative 0
  else if 310 < width + e then ofMagnitude negative infiniteMagnitude
  else if 0 ≤ e then ofRatio negative (n * Nat.pow 10 e.toNat) 1
  else ofRatio negative n (Nat.pow 10 (-e).toNat)

end Binary64

end Requisite
