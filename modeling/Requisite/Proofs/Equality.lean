/-
  Laws of the two equalities.

  Equality without conversion is symmetric and transitive, and relates every value
  to itself but NaN.  Equality with conversion contains it and is symmetric, too;
  it adds no more than `undefined` with `null` and primitives of different types
  that count as the same number, so it is not transitive.  References are equal
  under both when they are the same.

  * `Value.isNaN`: the one value that equals nothing;
  * `Value.strictEq_comm`, `Value.strictEq_trans`, `Value.looseEq_comm`: symmetry
    and transitivity;
  * `Value.looseEq_of_strictEq`: the one equality contains the other;
  * `Value.equality_laws`: all laws together.
-/
import Requisite.Script.Value

namespace Requisite

theorem Binary64.eq_trans {x y z : Binary64} (h : x.eq y) (h' : y.eq z) : x.eq z := by
  simp only [eq, Bool.and_eq_true, Bool.not_eq_true', beq_iff_eq] at *
  exact ⟨⟨h.1.1, h'.1.2⟩, h.2.trans h'.2⟩

theorem Binary64.eq_of_isNaN {x : Binary64} (h : x.isNaN) (y : Binary64) : x.eq y = false := by
  simp [eq, h]

namespace Script.Value

/-- The values that are no number although their type is that of numbers. -/
def isNaN : Value → Bool
  | number x => x.isNaN
  | _ => false

variable {a b c : Value}

/-! ## Equality without conversion -/

/-- Numbers are compared as numbers, and all else is equal when it is the same. -/
theorem strictEq_iff : a.strictEq b ↔
    (∃ x y, a = .number x ∧ b = .number y ∧ x.eq y) ∨ a = b ∧ ∀ x, a ≠ .number x := by
  cases a with
  | number x => cases b <;> simp [strictEq]
  | _ => simp [strictEq]

theorem strictEq_comm (a b : Value) : a.strictEq b = b.strictEq a := by
  cases a <;> cases b <;> simp [strictEq, eq_comm, Binary64.eq_symm]

theorem strictEq_trans (h : a.strictEq b) (h' : b.strictEq c) : a.strictEq c := by
  rcases strictEq_iff.1 h with ⟨x, y, rfl, rfl, hxy⟩ | ⟨rfl, -⟩
  · rcases strictEq_iff.1 h' with ⟨y, z, ⟨⟩, rfl, hyz⟩ | ⟨-, hy⟩
    · exact Binary64.eq_trans hxy hyz
    · exact absurd rfl (hy y)
  · exact h'

theorem strictEq_self (a : Value) : a.strictEq a = !a.isNaN := by
  cases a with
  | number x => exact x.eq_self
  | _ => simp [strictEq, isNaN]

theorem strictEq_of_isNaN (h : a.isNaN) (b : Value) : a.strictEq b = false := by
  cases a with
  | number x => cases b <;> simp [strictEq, Binary64.eq_of_isNaN h]
  | _ => cases h

/-- References are equal when they are the same. -/
theorem strictEq_iff_of_isReference (h : a.isReference) : a.strictEq b ↔ a = b := by
  have hnumber (x : Binary64) : a ≠ .number x := by
    rintro rfl
    cases h
  simp [strictEq_iff, hnumber]

/-! ## Equality with conversion -/

theorem differInType_comm (a b : Value) : differInType a b = differInType b a := by
  cases a <;> cases b <;> rfl

theorem looseEq_comm (a b : Value) : a.looseEq b = b.looseEq a := by
  unfold looseEq
  rw [Bool.and_comm, Bool.or_comm, differInType_comm, Binary64.eq_symm, strictEq_comm]

/-- `undefined` and `null` equal each other and nothing else. -/
theorem looseEq_of_isNullish (h : a.isNullish) (b : Value) : a.looseEq b = b.isNullish := by
  simp [looseEq, h]

/-- Other values are converted only if they are primitives of different types. -/
theorem looseEq_of_not_isNullish (ha : a.isNullish = false) (hb : b.isNullish = false) :
    a.looseEq b = if differInType a b then a.toNumber.eq b.toNumber else a.strictEq b := by
  simp [looseEq, ha, hb]

/-- Nothing is converted where the values are equal as they are. -/
theorem looseEq_of_strictEq (h : a.strictEq b) : a.looseEq b := by
  have htypes : a.isNullish = b.isNullish ∧ differInType a b = false := by
    rcases strictEq_iff.1 h with ⟨x, y, rfl, rfl, -⟩ | ⟨rfl, -⟩
    · exact ⟨rfl, rfl⟩
    · exact ⟨rfl, by cases a <;> rfl⟩
  cases ha : a.isNullish with
  | true => rw [looseEq_of_isNullish ha, ← htypes.1, ha]
  | false =>
    rw [looseEq_of_not_isNullish ha (htypes.1 ▸ ha), htypes.2]
    exact h

theorem looseEq_of_isNaN (h : a.isNaN) (b : Value) : a.looseEq b = false := by
  cases a with
  | number x =>
    cases hb : b.isNullish with
    | true => rw [looseEq_comm, looseEq_of_isNullish hb]; rfl
    | false =>
      rw [looseEq_of_not_isNullish rfl hb]
      split
      · exact Binary64.eq_of_isNaN h _
      · exact strictEq_of_isNaN h b
  | _ => cases h

theorem looseEq_self (a : Value) : a.looseEq a = !a.isNaN := by
  cases h : a.isNaN with
  | true => exact looseEq_of_isNaN h a
  | false => exact looseEq_of_strictEq (by rw [strictEq_self, h]; rfl)

theorem isNullish_of_isReference (h : a.isReference) : a.isNullish = false := by
  cases a with
  | object | array | function => rfl
  | _ => cases h

/-- References are never converted. -/
theorem looseEq_of_isReference (h : a.isReference) (b : Value) : a.looseEq b = a.strictEq b := by
  have ha := isNullish_of_isReference h
  cases hb : b.isNullish with
  | true =>
    rw [looseEq_comm, looseEq_of_isNullish hb, ha, eq_comm, ← Bool.not_eq_true,
      strictEq_iff_of_isReference h]
    rintro rfl
    exact absurd (ha.symm.trans hb) Bool.false_ne_true
  | false =>
    have hd : differInType a b = false := by
      cases a with
      | object | array | function => rfl
      | _ => cases h
    rw [looseEq_of_not_isNullish ha hb, hd]
    rfl

/-! ## All laws -/

/-- **Laws of the two equalities.**  Both are symmetric, and both relate every value to itself but
    NaN, which equals nothing.  Equality without conversion is transitive and implies the other.
    With conversion, `undefined` and `null` equal each other and nothing else.  References are equal
    under both when they are the same, and no reference equals a primitive. -/
theorem equality_laws (a b c : Value) :
    a.looseEq b = b.looseEq a ∧ a.strictEq b = b.strictEq a ∧
    (a.strictEq b → b.strictEq c → a.strictEq c) ∧
    (a.strictEq b → a.looseEq b) ∧
    a.strictEq a = (!a.isNaN) ∧ a.looseEq a = (!a.isNaN) ∧
    (a.isNaN → a.strictEq b = false ∧ a.looseEq b = false) ∧
    (a.isNullish → a.looseEq b = b.isNullish) ∧
    (a.isReference → (a.strictEq b ↔ a = b) ∧ (a.looseEq b ↔ a = b) ∧
      (b.isReference = false → a.looseEq b = false)) := by
  refine ⟨looseEq_comm a b, strictEq_comm a b, strictEq_trans, looseEq_of_strictEq,
    strictEq_self a, looseEq_self a, fun h => ⟨strictEq_of_isNaN h b, looseEq_of_isNaN h b⟩,
    fun h => looseEq_of_isNullish h b, fun h => ?_⟩
  have hstrict : a.strictEq b ↔ a = b := strictEq_iff_of_isReference h
  rw [looseEq_of_isReference h]
  refine ⟨hstrict, hstrict, fun hb => ?_⟩
  rw [← Bool.not_eq_true, hstrict]
  rintro rfl
  exact absurd (hb.symm.trans h) Bool.false_ne_true

/-- A text that counts as zero equals the number, in either order, and so does a blank one; but the
    texts are not equal, for nothing is converted between texts. -/
theorem equality_laws_zero :
    looseEq (.string "-0") (.number 0) ∧ looseEq (.number 0) (.string " ") ∧
    looseEq (.string "-0") (.string " ") = false ∧
    looseEq (.number 0) (.string "-0") ∧
    strictEq (.string "-0") (.string "-0") ∧ looseEq (.string "-0") (.string "-0") := by
  obtain ⟨hcomm, -, -, -, -, -, -⟩ := equality_laws (.string "-0") (.number 0) .undefined
  obtain ⟨-, -, -, hloose, hself, -, -⟩ :=
    equality_laws (.string "-0") (.string "-0") .undefined
  have hzero : looseEq (.string "-0") (.number 0) := by decide +kernel
  exact ⟨hzero, by decide +kernel, by decide, hcomm.symm.trans hzero, hself, hloose hself⟩

end Script.Value

end Requisite
