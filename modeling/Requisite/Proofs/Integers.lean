/-
  The text of integers.

  An integer below `10 ^ 21` is printed through a word of 64 bits.  Within such a
  word its text is that of the integer, so that numbers which differ name
  different members; beyond it all positive integers have one text, and all
  negative ones.

  * `Binary64.value`, `Binary64.IsInt`: the value of a number, and integers;
  * `Binary64.toInt?_eq_some_iff`: an integer is found if and only if there is one;
  * `Merged`: integers that are cut to one word;
  * `integers_printed`: which integers are printed exactly, which are printed
    alike, and which elements they name;
  * `integers_merged`: three integers with one text.
-/
import Mathlib.Algebra.Order.Field.Rat
import Mathlib.Algebra.Order.Field.Power
import Mathlib.Tactic.NormNum
import Mathlib.Tactic.Positivity
import Requisite.Proofs.Members

namespace Requisite

namespace Binary64

/-! ## Values -/

/-- The value of a finite number. -/
def value (x : Binary64) : ℚ :=
  (if x.isNegative then -1 else 1) * (x.significand * 2 ^ x.unitExponent)

/-- A number is finite and has the value of an integer. -/
def IsInt (x : Binary64) (z : ℤ) : Prop := x.isFinite ∧ x.value = z

/-- When `m * 2 ^ k` is a natural number. -/
theorem scaled_eq_natCast_iff {m n : ℕ} {k : ℤ} : (m : ℚ) * 2 ^ k = n ↔
    (0 ≤ k ∧ m * 2 ^ k.toNat = n) ∨ (k < 0 ∧ m = n * 2 ^ (-k).toNat) := by
  rcases le_or_gt 0 k with hk | hk
  · obtain ⟨j, rfl⟩ := Int.eq_ofNat_of_zero_le hk
    simp only [Int.toNat_natCast, zpow_natCast, hk, hk.not_gt, true_and, false_and, or_false]
    norm_cast
  · obtain ⟨j, hj⟩ := Int.eq_ofNat_of_zero_le (a := -k) (by omega)
    obtain rfl : k = -(j : ℤ) := by omega
    simp only [hk.not_ge, hk, false_and, true_and, false_or, neg_neg, Int.toNat_natCast, zpow_neg,
      zpow_natCast]
    rw [mul_inv_eq_iff_eq_mul₀ (by positivity)]
    norm_cast

/-- The natural number that `m * 2 ^ k` is, found by shifting. -/
theorem shifted_eq_some_iff {m n : ℕ} {k : ℤ} :
    (if 0 ≤ k then some (m <<< k.toNat)
      else if m % Nat.pow 2 (-k).toNat = 0 then some (m >>> (-k).toNat) else none) = some n ↔
      (m : ℚ) * 2 ^ k = n := by
  rw [scaled_eq_natCast_iff]
  split
  · next hk => simp [hk, hk.not_gt, Nat.shiftLeft_eq]
  · next hk =>
    simp only [hk, Int.not_le.1 hk, false_and, true_and, false_or]
    rw [Option.ite_none_right_eq_some, Option.some.injEq, Nat.shiftRight_eq_div_pow]
    constructor
    · rintro ⟨hmod, rfl⟩
      exact (Nat.div_mul_cancel (Nat.dvd_of_mod_eq_zero hmod)).symm
    · rintro rfl
      exact ⟨Nat.mul_mod_left _ _, Nat.mul_div_cancel _ (Nat.two_pow_pos _)⟩

section
variable {x : Binary64} {z : ℤ}

/-- The value of an integer is, up to its sign, a natural number. -/
theorem value_eq_intCast_iff : x.value = z ↔
    ∃ n : ℕ, (x.significand : ℚ) * 2 ^ x.unitExponent = n ∧
      (if x.isNegative then -(n : ℤ) else n) = z := by
  have hpos : (0 : ℚ) ≤ x.significand * 2 ^ x.unitExponent := by positivity
  unfold value
  generalize (x.significand : ℚ) * 2 ^ x.unitExponent = q at hpos ⊢
  constructor
  · intro h
    have hq : q = z.natAbs := by
      rw [Nat.cast_natAbs, Int.cast_abs, ← h, abs_mul, abs_of_nonneg hpos]
      split <;> simp
    refine ⟨z.natAbs, hq, Int.cast_injective (α := ℚ) ?_⟩
    rw [← h, hq]
    split <;> simp
  · rintro ⟨n, rfl, rfl⟩
    split <;> simp

/-- **An integer is found if and only if there is one.** -/
theorem toInt?_eq_some_iff : x.toInt? = some z ↔ x.IsInt z := by
  unfold toInt? IsInt
  cases hf : x.isFinite with
  | false => simp
  | true =>
    simp only [Bool.not_true, Bool.false_eq_true, ↓reduceIte, true_and]
    rw [value_eq_intCast_iff, Option.map_eq_some_iff]
    simp only [Option.bind_eq_bind, Option.bind_eq_some_iff, Option.pure_def, Option.some.injEq,
      shifted_eq_some_iff]
    constructor
    · rintro ⟨_, ⟨n, hn, rfl⟩, hz⟩
      exact ⟨n, hn, hz⟩
    · rintro ⟨n, hn, hz⟩
      exact ⟨n, ⟨n, hn, rfl⟩, hz⟩

/-- Beyond the significand there are even integers only. -/
theorem IsInt.two_dvd (h : x.IsInt z) (hz : 2 * exponentWeight ≤ z.natAbs) : 2 ∣ z := by
  obtain ⟨hfinite, hvalue⟩ := h
  obtain ⟨n, hn, rfl⟩ := value_eq_intCast_iff.1 hvalue
  have hlt : x.significand < 2 * exponentWeight := (canonical_of_isFinite hfinite).lt
  have hn' : 2 * exponentWeight ≤ n := by
    split at hz <;> simpa using hz
  suffices heven : (2 : ℤ) ∣ n by
    split
    · exact (Int.dvd_neg).2 heven
    · exact heven
  rcases scaled_eq_natCast_iff.1 hn with ⟨-, hup⟩ | ⟨-, hdown⟩
  · obtain ⟨j, hj⟩ : ∃ j, x.unitExponent.toNat = j + 1 := by
      refine Nat.exists_eq_succ_of_ne_zero fun h0 => ?_
      rw [h0] at hup
      omega
    rw [hj, Nat.pow_succ] at hup
    exact ⟨x.significand * 2 ^ j, by rw [← hup]; push_cast; ring⟩
  · have hle : n ≤ n * 2 ^ (-x.unitExponent).toNat := Nat.le_mul_of_pos_right _ (Nat.two_pow_pos _)
    omega

/-! ## Words -/

theorem clampWord_eq_self_iff : clampWord z = z ↔ -2 ^ 63 ≤ z ∧ z < 2 ^ 63 := by
  unfold clampWord signWeight
  omega

/-- Two integers are equal or lie beyond the same end of the words of 64 bits. -/
def Merged (z z' : ℤ) : Prop :=
  z = z' ∨ (2 ^ 63 ≤ z ∧ 2 ^ 63 ≤ z') ∨ (z ≤ -2 ^ 63 ∧ z' ≤ -2 ^ 63)

/-- Integers are cut to one word if they are the same or lie beyond the same end. -/
theorem IsInt.clampWord_eq_iff {y : Binary64} {z' : ℤ} (hx : x.IsInt z) (hy : y.IsInt z') :
    clampWord z = clampWord z' ↔ Merged z z' := by
  -- the greatest word is odd, and so no number
  have hodd {x : Binary64} {z : ℤ} (h : x.IsInt z) : z ≠ 2 ^ 63 - 1 := by
    rintro rfl
    exact absurd (h.two_dvd (by decide)) (by decide)
  have hx' := hodd hx
  have hy' := hodd hy
  unfold clampWord signWeight Merged
  omega

/-- An integer is printed as the word that it is cut to. -/
theorem IsInt.scriptText_eq (hx : x.IsInt z) (hz : z.natAbs < 10 ^ 21) :
    x.scriptText = toString (clampWord z) := by
  have hlt : x.magnitude < infiniteMagnitude := of_decide_eq_true hx.1
  have hnan : x.isNaN = false := by
    simp only [isNaN, decide_eq_false_iff_not]
    omega
  have hinfinite : x.isInfinite = false := by
    simp only [isInfinite, beq_eq_false_iff_ne]
    omega
  unfold scriptText
  rw [hnan, hinfinite, toInt?_eq_some_iff.2 hx]
  exact if_pos hz

/-- The text of an integer: its digits, behind a minus sign if it is negative. -/
theorem toList_toString (z : ℤ) : (toString z).toList =
    if z < 0 then '-' :: decimalDigits z.natAbs else decimalDigits z.natAbs := by
  cases z with
  | ofNat n =>
    rw [Int.ofNat_eq_natCast, if_neg (Int.natCast_nonneg n).not_gt]
    exact String.toList_ofList
  | negSucc n =>
    rw [if_pos (Int.negSucc_lt_zero n)]
    show ("-" ++ String.ofList (decimalDigits (n + 1))).toList = _
    rw [String.toList_append, String.toList_ofList (l := decimalDigits (n + 1))]
    rfl

theorem toString_inj {a b : ℤ} : toString a = toString b ↔ a = b := by
  refine ⟨fun h => ?_, fun h => h ▸ rfl⟩
  have hlist := congrArg String.toList h
  have hinj {m n : ℕ} (he : decimalDigits m = decimalDigits n) : m = n := by
    rw [← ofDecimalDigits_decimalDigits m, he, ofDecimalDigits_decimalDigits]
  have hminus (n : ℕ) : '-' ∉ decimalDigits n := fun hm =>
    absurd (isDigit_of_mem_decimalDigits hm) (by decide)
  rw [toList_toString, toList_toString] at hlist
  split at hlist <;> split at hlist
  · have := hinj (List.cons.inj hlist).2
    omega
  · exact absurd (hlist ▸ List.mem_cons_self) (hminus _)
  · exact absurd (hlist ▸ List.mem_cons_self) (hminus _)
  · have := hinj hlist
    omega

end

end Binary64

namespace Script

open Binary64

/-! ## Names of elements -/

/-- The text of a natural number names the element of that index; that of a negative integer names
    none. -/
theorem arrayIndex?_toString {z : ℤ} (hz : z < indexLimit) :
    arrayIndex? (toString z) = if z < 0 then none else some z.toNat := by
  split
  · next hneg =>
    refine Option.eq_none_iff_forall_ne_some.2 fun i hi => ?_
    obtain ⟨-, hdigits, -⟩ := arrayIndex?_eq_some.1 hi
    rw [toList_toString, if_pos hneg] at hdigits
    exact absurd (hdigits.2 '-' List.mem_cons_self) (by decide)
  · next hnonneg =>
    obtain ⟨n, rfl⟩ := Int.eq_ofNat_of_zero_le (Int.not_lt.1 hnonneg)
    exact arrayIndex?_eq_some_iff.2 ⟨by exact_mod_cast hz, .inl rfl⟩

/-- **The text of integers.**  An integer below `10 ^ 21` is printed as itself if and only if a word
    of 64 bits holds it; a larger one is printed as the word that lies nearest.  So two of them are
    printed alike, and are the same key of a member and in an object literal, if and only if they
    are equal or lie beyond the same end of the words.  The element that one names is that of the
    printed index. -/
theorem integers_printed {x : Binary64} {z : ℤ} (hx : x.IsInt z) (hz : z.natAbs < 10 ^ 21)
    (h : Heap) :
    (x.scriptText = toString z ↔ -2 ^ 63 ≤ z ∧ z < 2 ^ 63) ∧
    x.scriptText = toString (max (-2 ^ 63) (min (2 ^ 63 - 1) z)) ∧
    (∀ y z', y.IsInt z' → z'.natAbs < 10 ^ 21 →
      (h.display (.number x) = h.display (.number y) ↔ Merged z z') ∧
      (Source.keyOf? (.number x) = Source.keyOf? (.number y) ↔ Merged z z')) ∧
    arrayIndex? (h.display (.number x)) =
      if z < 0 then none else some (min (2 ^ 63 - 1) z.toNat) := by
  have htext := hx.scriptText_eq hz
  refine ⟨?_, htext, fun y z' hy hz' => ?_, ?_⟩
  · rw [htext, toString_inj, clampWord_eq_self_iff]
  · have hmerged : x.scriptText = y.scriptText ↔ Merged z z' := by
      rw [htext, hy.scriptText_eq hz', toString_inj, hx.clampWord_eq_iff hy]
    exact ⟨hmerged, Option.some_inj.trans hmerged⟩
  · show arrayIndex? x.scriptText = _
    rw [htext, arrayIndex?_toString (by unfold clampWord signWeight indexLimit; omega)]
    have hneg : clampWord z < 0 ↔ z < 0 := by unfold clampWord signWeight; omega
    have htoNat (hz : ¬ z < 0) : (clampWord z).toNat = min (2 ^ 63 - 1) z.toNat := by
      unfold clampWord signWeight
      omega
    rw [if_congr hneg rfl rfl]
    split
    · rfl
    · next hz => rw [htoNat hz]

/-- The first two integers between which there are others that are no numbers. -/
theorem integers_printed_sparse :
    Heap.empty.display (.number ⟨0x4340000000000000⟩) = "9007199254740992" ∧
    Heap.empty.display (.number ⟨0x4340000000000001⟩) = "9007199254740994" ∧
    Heap.empty.display (.number ⟨0x4340000000000000⟩) ≠
      Heap.empty.display (.number ⟨0x4340000000000001⟩) ∧
    arrayIndex? (Heap.empty.display (.number ⟨0x4340000000000001⟩)) = some 9007199254740994 := by
  have hx : IsInt ⟨0x4340000000000000⟩ 9007199254740992 := toInt?_eq_some_iff.1 (by decide)
  have hy : IsInt ⟨0x4340000000000001⟩ 9007199254740994 := toInt?_eq_some_iff.1 (by decide)
  obtain ⟨htext, -, hothers, -⟩ := integers_printed hx (by decide) .empty
  obtain ⟨htext', -, -, hindex⟩ := integers_printed hy (by decide) .empty
  refine ⟨htext.2 (by decide), htext'.2 (by decide), fun heq => ?_, hindex⟩
  have := (hothers _ _ hy (by decide)).1.1 heq
  unfold Merged at this
  omega

/-- The least number that no word holds is `2 ^ 63`; it is printed as the integer before it, and so
    are `10 ^ 19` and `10 ^ 20`. -/
theorem integers_merged :
    IsInt ⟨0x43E0000000000000⟩ (2 ^ 63) ∧ IsInt ⟨0x43E158E460913D00⟩ (10 ^ 19) ∧
    IsInt ⟨0x4415AF1D78B58C40⟩ (10 ^ 20) ∧
    scriptText ⟨0x43E0000000000000⟩ = "9223372036854775807" ∧
    "9223372036854775807" ≠ toString (2 ^ 63 : ℤ) ∧
    scriptText ⟨0x43E158E460913D00⟩ = scriptText ⟨0x43E0000000000000⟩ ∧
    scriptText ⟨0x4415AF1D78B58C40⟩ = scriptText ⟨0x43E0000000000000⟩ :=
  ⟨toInt?_eq_some_iff.1 (by decide), toInt?_eq_some_iff.1 (by decide),
    toInt?_eq_some_iff.1 (by decide), by decide, by decide, by decide, by decide⟩

end Script

end Requisite
