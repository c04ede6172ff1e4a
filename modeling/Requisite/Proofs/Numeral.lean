/-
  Numbers that can be written.

  A finite number is a decimal fraction: `m * 2 ^ -j` is `m * 5 ^ j` at `j` places
  after the point.  Written out in full, it is read without rounding; and a decimal
  that is large enough is read as the infinity.

  * `Binary64.ofRatio_exact`: a quotient that is a number is rounded to it;
  * `Binary64.exists_decimal`: a number without a sign is what a decimal is read as;
  * `numeral`: the text of a decimal, and `spelled_numeral`: it is scanned as the
    number that the decimal is read as;
  * `Token.exists_spelled`: which tokens have a spelling.
-/
import Mathlib.Tactic.Positivity
import Mathlib.Tactic.Ring
import Requisite.Proofs.Written

namespace Requisite

namespace Binary64

/-! ## Numbers as quotients -/

/-- The finite numbers `m * 2 ^ k`, by their significand and its unit. -/
structure Canonical (m : Nat) (k : Int) : Prop where
  lt : m < 2 * exponentWeight
  least : -1074 ≤ k
  most : k ≤ 971
  normal : exponentWeight ≤ m ∨ k = -1074

/-- The magnitude of the number `m * 2 ^ k`. -/
def encoded (m : Nat) (k : Int) : Nat := (k + 1074).toNat * exponentWeight + m

section
variable {x : Binary64}

/-- What the two fields of the magnitude are, in terms of the significand. -/
theorem fields_cases :
    (x.exponentField = 0 ∧ x.magnitude = x.significand ∧ x.significand < exponentWeight) ∨
    (0 < x.exponentField ∧ x.magnitude + exponentWeight =
      x.exponentField * exponentWeight + x.significand ∧
      exponentWeight ≤ x.significand ∧ x.significand < 2 * exponentWeight) := by
  have hfields : x.exponentField * exponentWeight + x.magnitude % exponentWeight = x.magnitude :=
    Nat.div_add_mod' ..
  have hlt : x.magnitude % exponentWeight < exponentWeight := Nat.mod_lt _ (by decide)
  simp only [significand]
  split
  · next h =>
    rw [h] at hfields
    exact .inl ⟨h, by omega, hlt⟩
  · exact .inr ⟨by omega, by omega, by omega, by omega⟩

theorem canonical_of_isFinite (h : x.isFinite) : Canonical x.significand x.unitExponent := by
  have hlt : x.magnitude < 2047 * exponentWeight := of_decide_eq_true h
  have hfield : x.exponentField < 2047 := Nat.div_lt_of_lt_mul (Nat.mul_comm .. ▸ hlt)
  unfold unitExponent
  rcases @fields_cases x with ⟨he, hm, hs⟩ | ⟨he, hm, hs⟩
  · exact ⟨by omega, by omega, by omega, .inr (by omega)⟩
  · exact ⟨by omega, by omega, by omega, .inl hs.1⟩

theorem magnitude_eq_encoded : x.magnitude = encoded x.significand x.unitExponent := by
  unfold encoded unitExponent
  rcases @fields_cases x with ⟨he, hm, hs⟩ | ⟨he, hm, hs⟩
  · simp [he, hm]
  · obtain ⟨e, he⟩ := Nat.exists_eq_add_of_lt he
    have hunit : ((max x.exponentField 1 : Nat) - 1075 + 1074 : Int).toNat = e := by omega
    rw [hunit]
    rw [he, Nat.zero_add, Nat.succ_mul] at hm
    omega

theorem eq_ofMagnitude (h : x.isNegative = false) : x = ofMagnitude false x.magnitude := by
  simp only [isNegative, decide_eq_false_iff_not, Nat.not_le] at h
  simp [ofMagnitude, magnitude, Nat.mod_eq_of_lt h]

end

theorem roundDiv_mul (m : Nat) {c : Nat} (hc : 0 < c) : roundDiv (m * c) c = m := by
  simp [roundDiv, Nat.mul_div_cancel m hc, hc]

section
variable {n d m : Nat} {k : Int} (hd : 0 < d) (h : n * 2 ^ (-k).toNat = m * (d * 2 ^ k.toNat))
include hd h

/-- One unit lower, the quotient is twice as large. -/
theorem quotient_pred :
    n * 2 ^ (-(k - 1)).toNat / (d * 2 ^ (k - 1).toNat) = 2 * m := by
  have htwice : n * 2 ^ (-(k - 1)).toNat = 2 * m * (d * 2 ^ (k - 1).toNat) := by
    by_cases hk : 0 < k
    · have hsucc : k.toNat = (k - 1).toNat + 1 := by omega
      rw [show (-(k - 1)).toNat = (-k).toNat by omega, h, hsucc]
      ring
    · have hsucc : (-(k - 1)).toNat = (-k).toNat + 1 := by omega
      rw [show (k - 1).toNat = k.toNat by omega, hsucc, Nat.pow_succ, ← Nat.mul_assoc, h]
      ring
  rw [htwice, Nat.mul_div_cancel _ (Nat.mul_pos hd (Nat.two_pow_pos _))]

theorem numerator_ne_zero (hpos : 0 < m) : n ≠ 0 := by
  rintro rfl
  have := Nat.mul_pos hpos (Nat.mul_pos hd (Nat.two_pow_pos k.toNat))
  omega

/-- The first guess at the unit is right, or one too low. -/
theorem unit_of_eq (hm : Canonical m k) (hn : n ≠ 0) :
    max ((n.log2 : Int) - d.log2 - 53) (-1074) = k ∨
      max ((n.log2 : Int) - d.log2 - 53) (-1074) = k - 1 ∧ exponentWeight ≤ m := by
  have hupper : n.log2 + (-k).toNat < 54 + d.log2 + k.toNat := by
    refine (Nat.pow_lt_pow_iff_right (a := 2) (by decide)).1 ?_
    calc 2 ^ (n.log2 + (-k).toNat) = 2 ^ n.log2 * 2 ^ (-k).toNat := Nat.pow_add ..
      _ ≤ n * 2 ^ (-k).toNat := Nat.mul_le_mul_right _ (Nat.log2_self_le hn)
      _ = m * (d * 2 ^ k.toNat) := h
      _ < 2 ^ 53 * (2 ^ (d.log2 + 1) * 2 ^ k.toNat) :=
        Nat.mul_lt_mul_of_lt_of_le hm.lt
          (Nat.mul_le_mul_right _ (Nat.le_of_lt Nat.lt_log2_self)) (by positivity)
      _ = 2 ^ (54 + d.log2 + k.toNat) := by ring
  have hlower : exponentWeight ≤ m → d.log2 + 51 + k.toNat < n.log2 + (-k).toNat := fun hnormal => by
    refine (Nat.pow_lt_pow_iff_right (a := 2) (by decide)).1 ?_
    refine Nat.lt_of_mul_lt_mul_right (a := 2) ?_
    calc 2 ^ (d.log2 + 51 + k.toNat) * 2 = 2 ^ 52 * (2 ^ d.log2 * 2 ^ k.toNat) := by ring
      _ ≤ m * (d * 2 ^ k.toNat) :=
        Nat.mul_le_mul hnormal (Nat.mul_le_mul_right _ (Nat.log2_self_le hd.ne'))
      _ = n * 2 ^ (-k).toNat := h.symm
      _ < 2 ^ (n.log2 + 1) * 2 ^ (-k).toNat :=
        Nat.mul_lt_mul_of_pos_right Nat.lt_log2_self (Nat.two_pow_pos _)
      _ = 2 ^ (n.log2 + (-k).toNat) * 2 := by ring
  have hleast := hm.least
  rcases hm.normal with hnormal | hk
  · have := hlower hnormal
    omega
  · exact .inl (by omega)

/-- **A quotient that is a number is rounded to it.** -/
theorem ofRatio_exact (hm : Canonical m k) (hpos : 0 < m) (negative : Bool) :
    ofRatio negative n d = ofMagnitude negative (encoded m k) := by
  have hn := numerator_ne_zero hd h hpos
  have hbelow (k : Int) : (if 0 ≤ k then (n, d <<< k.toNat) else (n <<< (-k).toNat, d)) =
      (n * 2 ^ (-k).toNat, d * 2 ^ k.toNat) := by
    split
    · next hk => simp [Nat.shiftLeft_eq, show (-k).toNat = 0 by omega]
    · next hk => simp [Nat.shiftLeft_eq, show k.toNat = 0 by omega]
  have hunit := unit_of_eq hd h hm hn
  have hquotient : n * 2 ^ (-k).toNat / (d * 2 ^ k.toNat) = m := by
    rw [h, Nat.mul_div_cancel _ (Nat.mul_pos hd (Nat.two_pow_pos _))]
  simp only [ofRatio, if_neg hn, hbelow]
  generalize max ((n.log2 : Int) - d.log2 - 53) (-1074) = u at hunit ⊢
  have hu : (if n * 2 ^ (-u).toNat / (d * 2 ^ u.toNat) < 2 * exponentWeight then u else u + 1) =
      k := by
    rcases hunit with rfl | ⟨rfl, hnormal⟩
    · rw [hquotient, if_pos hm.lt]
    · rw [quotient_pred hd h, if_neg (by omega), Int.sub_add_cancel]
  rw [hu, h, roundDiv_mul _ (Nat.mul_pos hd (Nat.two_pow_pos _)), encoded, Nat.min_eq_left]
  have hlt := hm.lt
  have hmost := hm.most
  simp only [exponentWeight, infiniteMagnitude] at hlt ⊢
  omega

end

/-! ## Numbers as decimals -/

theorem log2_five_pow (j : Nat) : 37 * j / 16 ≤ Nat.log2 (5 ^ j) := by
  refine (Nat.le_log2 (by positivity)).2 ((Nat.pow_le_pow_iff_left (n := 16) (by decide)).1 ?_)
  calc (2 ^ (37 * j / 16)) ^ 16 = 2 ^ (37 * j / 16 * 16) := (Nat.pow_mul ..).symm
    _ ≤ 2 ^ (37 * j) := Nat.pow_le_pow_right Nat.two_pos (Nat.div_mul_le_self _ _)
    _ = (2 ^ 37) ^ j := Nat.pow_mul ..
    _ ≤ (5 ^ 16) ^ j := Nat.pow_le_pow_left (by decide) j
    _ = (5 ^ j) ^ 16 := Nat.pow_right_comm ..

/-- With all places of the smallest unit, a decimal is not taken for zero. -/
theorem width_five_pow {j : Nat} (hj : j ≤ 1074) :
    j ≤ 330 + Nat.log2 (5 ^ j) * 30103 / 100000 := by
  have hlog := log2_five_pow j
  omega

/-- The digits and the places after the point of the number `m * 2 ^ k`. -/
theorem ofDecimal_exact {m : Nat} {k : Int} (hm : Canonical m k) (negative : Bool) :
    ofDecimal negative (m * 2 ^ k.toNat * 5 ^ (-k).toNat) (-((-k).toNat : Int)) =
      ofMagnitude negative (encoded m k) := by
  rcases Nat.eq_zero_or_pos m with rfl | hpos
  · obtain rfl : k = -1074 := hm.normal.resolve_left (by decide)
    rw [Nat.zero_mul, Nat.zero_mul, ofDecimal, if_pos (.inl rfl)]
    rfl
  have hleast := hm.least
  have hmost := hm.most
  generalize hq : k.toNat = q
  generalize hj : (-k).toNat = j
  have hn : m * 2 ^ q * 5 ^ j ≠ 0 := by positivity
  have hlower : Nat.log2 (5 ^ j) ≤ Nat.log2 (m * 2 ^ q * 5 ^ j) := by
    refine (Nat.le_log2 hn).2 ((Nat.log2_self_le (by positivity)).trans ?_)
    exact Nat.le_mul_of_pos_left _ (by positivity)
  have hupper : Nat.log2 (m * 2 ^ q * 5 ^ j) < 53 + q + 3 * j := by
    refine (Nat.log2_lt hn).2 ?_
    calc m * 2 ^ q * 5 ^ j < 2 ^ 53 * 2 ^ q * 5 ^ j := by gcongr; exact hm.lt
      _ ≤ 2 ^ 53 * 2 ^ q * 8 ^ j := by gcongr; decide
      _ = 2 ^ (53 + q + 3 * j) := by rw [Nat.pow_add, Nat.pow_add, Nat.pow_mul]
  have hfive := width_five_pow (j := j) (by omega)
  generalize hw : m * 2 ^ q * 5 ^ j = n at *
  unfold ofDecimal
  -- neither far too small nor far too large
  rw [if_neg (by omega), if_neg (by omega)]
  split
  · obtain rfl : j = 0 := by omega
    refine ofRatio_exact Nat.one_pos ?_ hm hpos negative
    subst hw hq
    rw [hj]
    simp
  · obtain rfl : q = 0 := by omega
    refine ofRatio_exact (Nat.pow_pos (by decide)) ?_ hm hpos negative
    subst hw
    rw [hq, hj, Int.neg_neg, Int.toNat_natCast, show 10 ^ j = 5 ^ j * 2 ^ j from
      Nat.mul_pow 5 2 j]
    ring

/-- **Every number can be written.**  A number that is not a NaN and has no sign is what some
    decimal is read as. -/
theorem exists_decimal {x : Binary64} (hnan : x.isNaN = false) (hsign : x.isNegative = false) :
    ∃ n j : Nat, j ≤ 1074 ∧ ofDecimal false n (-(j : Int)) = x := by
  rw [eq_ofMagnitude hsign]
  rcases Nat.lt_or_ge x.magnitude infiniteMagnitude with hfinite | hge
  · have hm := canonical_of_isFinite (decide_eq_true hfinite)
    have hleast := hm.least
    rw [magnitude_eq_encoded]
    exact ⟨_, _, by omega, ofDecimal_exact hm false⟩
  · have hle : x.magnitude ≤ infiniteMagnitude := Nat.not_lt.1 (of_decide_eq_false hnan)
    rw [Nat.le_antisymm hle hge]
    exact ⟨10 ^ 310, 0, by decide, by decide +kernel⟩

/-! ## Numerals -/

theorem ofDecimalDigits_decimalDigits (n : Nat) : ofDecimalDigits (decimalDigits n) = n := by
  have h := Nat.ofDigitChars_toDigits (b := 10) (n := n) (by decide) (by decide)
  rwa [Nat.ofDigitChars_eq_foldl] at h

/-- No digit of a small exponent is passed over: what stands before the last digit is smaller. -/
theorem exponentSize_eq {ds : List Char} (h : ofDecimalDigits ds < exponentLimit) :
    exponentSize ds = ofDecimalDigits ds := by
  induction ds using List.reverseRecOn with
  | nil => rfl
  | append_singleton ds d ih =>
    simp only [ofDecimalDigits, exponentSize, List.foldl_append, List.foldl_cons,
      List.foldl_nil] at h ih ⊢
    have hlt := ih (by omega)
    rw [hlt, if_pos (by omega)]

theorem exponentSize_decimalDigits {j : Nat} (hj : j < exponentLimit) :
    exponentSize (decimalDigits j) = j := by
  rw [exponentSize_eq (by rwa [ofDecimalDigits_decimalDigits]), ofDecimalDigits_decimalDigits]

theorem isDigit_of_mem_decimalDigits {n : Nat} {c : Char} (h : c ∈ decimalDigits n) : c.isDigit :=
  Nat.isDigit_of_mem_toDigits (by decide) (by decide) h

/-- The text of `n * 10 ^ -j`. -/
def numeral (n j : Nat) : List Char := decimalDigits n ++ 'e' :: '-' :: decimalDigits j

theorem isDigits_decimalDigits (n : Nat) : IsDigits (decimalDigits n) :=
  ⟨Nat.toDigits_ne_nil, fun _ => isDigit_of_mem_decimalDigits⟩

theorem isExponent_decimalDigits (j : Nat) : IsExponent ('e' :: '-' :: decimalDigits j) :=
  @IsExponent.digits 'e' ['-'] (decimalDigits j) (.inl rfl) (by decide) (isDigits_decimalDigits j)

theorem isNumeral_numeral (n j : Nat) : IsNumeral (numeral n j) :=
  .whole (isDigits_decimalDigits n) .none (isExponent_decimalDigits j)

theorem exponentOf?_decimalDigits {j : Nat} (hj : j ≤ 1074) :
    exponentOf? ('e' :: '-' :: decimalDigits j) = some (-(j : Int)) := by
  obtain ⟨hne, hdigits⟩ := isDigits_decimalDigits j
  have hall : (decimalDigits j).all Char.isDigit := List.all_eq_true.2 hdigits
  have hsize := exponentSize_decimalDigits (hj.trans_lt (by decide))
  simp [exponentOf?, hne, hall, hsize]

/-- A numeral is read as the number nearest to it. -/
theorem ofText?_numeral (n : Nat) {j : Nat} (hj : j ≤ 1074) :
    ofText? (numeral n j) = some (ofDecimal false n (-(j : Int))) := by
  obtain ⟨hne, hdigits⟩ := isDigits_decimalDigits n
  have h := ofText?_decimal hdigits .none (isExponent_decimalDigits j) (.inl hne)
  simpa [numeral, exponentOf?_decimalDigits hj, ofDecimalDigits_decimalDigits] using h

end Binary64

namespace Source

open Binary64

/-- A numeral is scanned as a whole. -/
theorem spelled_numeral (n : Nat) {j : Nat} (hj : j ≤ 1074) :
    Token.Spelled (.number (ofDecimal false n (-(j : Int)))) (numeral n j) :=
  spelled_of_isNumeral (isNumeral_numeral n j) (ofText?_numeral n hj)

/-! ## Tokens that can be written -/

namespace Token

/-- Numbers have no sign and are not NaN; names are words that mean nothing else. -/
def isWritable : Token → Bool
  | number x => !x.isNaN && !x.isNegative
  | identifier x => isWord x.toList && decide (ofWord x = identifier x)
  | invalid | eof => false
  | string _ | boolean _ | null | keyword _ | symbol _ => true

theorem exists_spelled {t : Token} (h : t.isWritable) : ∃ cs, t.Spelled cs := by
  cases t with
  | number x =>
    simp only [isWritable, Bool.and_eq_true, Bool.not_eq_true'] at h
    obtain ⟨n, j, hj, rfl⟩ := exists_decimal h.1 h.2
    exact ⟨_, spelled_numeral n hj⟩
  | string s => exact ⟨_, .string (.inl rfl)⟩
  | identifier x =>
    simp only [isWritable, Bool.and_eq_true, decide_eq_true_eq] at h
    exact ⟨_, .identifier h.1 h.2⟩
  | boolean b => exact ⟨_, .boolean b⟩
  | null => exact ⟨_, .null⟩
  | keyword k => exact ⟨_, .keyword k⟩
  | symbol s => exact ⟨_, .symbol s⟩
  | invalid | eof => cases h

theorem exists_spellings {ts : List Token} (h : ∀ t ∈ ts, t.isWritable) :
    ∃ css, List.Forall₂ Spelled ts css := by
  induction ts with
  | nil => exact ⟨[], .nil⟩
  | cons t ts ih =>
    obtain ⟨cs, hcs⟩ := exists_spelled (h t List.mem_cons_self)
    obtain ⟨css, hcss⟩ := ih fun u hu => h u (List.mem_cons_of_mem t hu)
    exact ⟨cs :: css, .cons hcs hcss⟩

end Token

end Source

end Requisite
