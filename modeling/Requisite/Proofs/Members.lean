/-
  Writing members.

  What is written to a member is read from it afterwards, and nothing else
  changes.  The elements of an array go by their index, so that keys which denote
  one index are one member: that of the canonical text of the index, and any that
  have a plus sign before digits.

  * `arrayIndex?_eq_some_iff`: the keys of an element;
  * `Value.SameMember`: when two keys are those of one member;
  * `Heap.Rewritten`: what a heap is after a member is written;
  * `writeMember_rewrites`: a write either succeeds in this way, or is refused and
    changes nothing;
  * `signed_key_shared`: two keys of one element.
-/
import Requisite.Machine.Host
import Requisite.Proofs.Numeral
import Requisite.Proofs.Run

namespace Requisite

open Binary64

/-! ## Canonical digits -/

theorem digitChar_of_isDigit {d : Char} (h : d.isDigit) :
    d.toNat - '0'.toNat < 10 ∧ Nat.digitChar (d.toNat - '0'.toNat) = d := by
  simp only [Char.isDigit, Bool.and_eq_true, decide_eq_true_eq] at h
  have hlow : 48 ≤ d.toNat := UInt32.le_iff_toNat_le.1 h.1
  have hhigh : d.toNat ≤ 57 := UInt32.le_iff_toNat_le.1 h.2
  have hzero : '0'.toNat = 48 := rfl
  refine ⟨by omega, Char.toNat_inj.1 ?_⟩
  rw [Nat.toNat_digitChar_of_lt_ten (by omega)]
  omega

theorem ofDecimalDigits_append (ds : List Char) (d : Char) :
    ofDecimalDigits (ds ++ [d]) = 10 * ofDecimalDigits ds + (d.toNat - '0'.toNat) := by
  simp [ofDecimalDigits]

/-- Digits without a zero in front of others are those of the number that they denote. -/
theorem decimalDigits_ofDecimalDigits {ds : List Char} (hdigits : IsDigits ds)
    (hzero : ∀ d rest, ds ≠ '0' :: d :: rest) : decimalDigits (ofDecimalDigits ds) = ds := by
  -- from the last digit: those before it are canonical, too
  induction ds using List.reverseRecOn with
  | nil => exact absurd rfl hdigits.1
  | append_singleton ds d ih =>
    obtain ⟨hlt, hchar⟩ := digitChar_of_isDigit (hdigits.2 d (by simp))
    rw [ofDecimalDigits_append]
    by_cases hds : ds = []
    · subst hds
      simp only [ofDecimalDigits, List.foldl_nil, Nat.mul_zero, Nat.zero_add, List.nil_append]
      rw [decimalDigits, Nat.toDigits_of_lt_base hlt, hchar]
    · have hcanonical : decimalDigits (ofDecimalDigits ds) = ds := by
        refine ih ⟨hds, fun e he => hdigits.2 e (by simp [he])⟩ ?_
        rintro e rest rfl
        exact hzero e (rest ++ [d]) rfl
      have hpos : 0 < ofDecimalDigits ds := by
        refine Nat.pos_of_ne_zero fun hn => ?_
        rw [hn] at hcanonical
        exact hzero d [] (by rw [← hcanonical]; rfl)
      rw [decimalDigits, ← Nat.toDigits_append_toDigits (by decide) hpos hlt,
        Nat.toDigits_of_lt_base hlt, hchar]
      exact congrArg (· ++ [d]) hcanonical

theorem head?_decimalDigits {n : Nat} (hn : 0 < n) : (decimalDigits n).head? ≠ some '0' := by
  induction n using Nat.strongRecOn with
  | _ n ih =>
    by_cases hlt : n < 10
    · intro h
      rw [decimalDigits, Nat.toDigits_of_lt_base hlt, List.head?_cons, Option.some.injEq] at h
      have hcode := congrArg Char.toNat h
      rw [Nat.toNat_digitChar_of_lt_ten hlt] at hcode
      have hzero : '0'.toNat = 48 := rfl
      omega
    · have happend : decimalDigits n = decimalDigits (n / 10) ++ decimalDigits (n % 10) := by
        unfold decimalDigits
        rw [Nat.toDigits_append_toDigits (by decide) (by omega) (Nat.mod_lt _ (by decide)),
          Nat.div_add_mod]
      rw [happend, List.head?_append_of_ne_nil _ (isDigits_decimalDigits _).1]
      exact ih (n / 10) (by omega) (by omega)

theorem decimalDigits_ne_zero_cons (n : Nat) (d : Char) (rest : List Char) :
    decimalDigits n ≠ '0' :: d :: rest := by
  intro h
  rcases Nat.eq_zero_or_pos n with rfl | hn
  · cases h
  · exact head?_decimalDigits hn (by rw [h]; rfl)

namespace Script

/-! ## The keys of elements -/

/-- What stands behind a plus sign, if there is one. -/
def unsigned : List Char → List Char
  | '+' :: ds => ds
  | ds => ds

theorem unsigned_of_ne {cs : List Char} (h : ∀ ds, cs ≠ '+' :: ds) : unsigned cs = cs := by
  unfold unsigned
  split
  · next ds => exact absurd rfl (h ds)
  · rfl

/-- A key denotes an index by digits behind a plus sign. -/
def Signed (key : String) (i : Nat) : Prop :=
  ∃ ds, key.toList = '+' :: ds ∧ IsDigits ds ∧ ofDecimalDigits ds = i

section
variable {key : String} {i : Nat}

theorem arrayIndex?_eq_some : arrayIndex? key = some i ↔
    (∀ d rest, key.toList ≠ '0' :: d :: rest) ∧ IsDigits (unsigned key.toList) ∧
      i < indexLimit ∧ ofDecimalDigits (unsigned key.toList) = i := by
  unfold arrayIndex?
  generalize key.toList = cs
  split
  · simp [unsigned, IsDigits]
  · simp
  · next hnil hzero =>
    have hzero' : ∀ d rest, cs ≠ '0' :: d :: rest := hzero
    change (if unsigned cs ≠ [] ∧ (unsigned cs).all Char.isDigit ∧
      ofDecimalDigits (unsigned cs) < indexLimit then some (ofDecimalDigits (unsigned cs))
      else none) = some i ↔ _
    rw [Option.ite_none_right_eq_some, Option.some.injEq, IsDigits, List.all_eq_true]
    constructor
    · rintro ⟨⟨hne, hall, hlt⟩, rfl⟩
      exact ⟨hzero', ⟨hne, hall⟩, hlt, rfl⟩
    · rintro ⟨-, ⟨hne, hall⟩, hlt, rfl⟩
      exact ⟨⟨hne, hall, hlt⟩, rfl⟩

/-- **The keys of an element** are the canonical text of its index, and any digits for it behind a
    plus sign. -/
theorem arrayIndex?_eq_some_iff :
    arrayIndex? key = some i ↔ i < indexLimit ∧ (key = toString i ∨ Signed key i) := by
  have hdecimal (n : Nat) : (toString n).toList = decimalDigits n := String.toList_ofList
  rw [arrayIndex?_eq_some]
  constructor
  · rintro ⟨hzero, hdigits, hlt, hi⟩
    refine ⟨hlt, ?_⟩
    by_cases hplus : ∃ ds, key.toList = '+' :: ds
    · obtain ⟨ds, hkey⟩ := hplus
      rw [hkey] at hdigits hi
      exact .inr ⟨ds, hkey, hdigits, hi⟩
    · rw [unsigned_of_ne fun ds hkey => hplus ⟨ds, hkey⟩] at hdigits hi
      refine .inl (String.toList_injective ?_)
      rw [hdecimal, ← hi, decimalDigits_ofDecimalDigits hdigits hzero]
  · rintro ⟨hlt, rfl | ⟨ds, hkey, hdigits, rfl⟩⟩
    · have hdigits := isDigits_decimalDigits i
      obtain ⟨d, rest, hds, hplus, -⟩ := hdigits.exists_cons
      have hunsigned : unsigned (decimalDigits i) = decimalDigits i :=
        unsigned_of_ne fun _ he => hplus (List.cons.inj (hds.symm.trans he)).1
      rw [hdecimal, hunsigned]
      exact ⟨decimalDigits_ne_zero_cons i, hdigits, hlt, ofDecimalDigits_decimalDigits i⟩
    · rw [hkey]
      exact ⟨by simp, hdigits, hlt, rfl⟩

end

/-- Of two keys of one element, if they differ, one has a plus sign. -/
theorem signed_of_arrayIndex? {j k : String} {i : Nat} (hj : arrayIndex? j = some i)
    (hk : arrayIndex? k = some i) (hne : j ≠ k) : Signed j i ∨ Signed k i := by
  rcases (arrayIndex?_eq_some_iff.1 hj).2 with rfl | hj
  · exact .inr ((arrayIndex?_eq_some_iff.1 hk).2.resolve_left hne.symm)
  · exact .inl hj

theorem arrayIndex?_length : arrayIndex? "length" = none := by decide

/-! ## Members -/

/-- Two keys of a value are those of one member: the elements of an array go by their index. -/
def Value.SameMember (t : Value) (j k : String) : Prop :=
  match t with
  | .array _ => arrayIndex? j = arrayIndex? k
  | _ => j = k

instance (t : Value) (j k : String) : Decidable (t.SameMember j k) :=
  match t with
  | .array _ => inferInstanceAs (Decidable (arrayIndex? j = arrayIndex? k))
  | .undefined | .null | .boolean _ | .number _ | .string _ | .object _ | .function _ =>
    inferInstanceAs (Decidable (j = k))

namespace Heap

/-- A value refers to an object, an array or a function of the heap. -/
def Holds (h : Heap) : Value → Prop
  | .object o => o.index < h.objects.size
  | .array a => a.index < h.arrays.size
  | .function f => f.index < h.functions.size
  | _ => False

instance (h : Heap) (t : Value) : Decidable (h.Holds t) :=
  match t with
  | .object o => inferInstanceAs (Decidable (o.index < h.objects.size))
  | .array a => inferInstanceAs (Decidable (a.index < h.arrays.size))
  | .function f => inferInstanceAs (Decidable (f.index < h.functions.size))
  | .undefined | .null | .boolean _ | .number _ | .string _ => inferInstanceAs (Decidable False)

/-- The heap `h'` is what `h` is after the member `k` of `t` is written: `v` is read from it, by
    each of its keys; every other member of `t` is read as before, but for the length of an array,
    which is extended to the element; and so is all else. -/
structure Rewritten (h h' : Heap) (t : Value) (k : String) (v : Value) : Prop where
  written (j : String) : t.SameMember j k → h'.getMember t j = .ok v
  others (j : String) : ¬t.SameMember j k → (∀ a, t = .array a → j ≠ "length") →
    h'.getMember t j = h.getMember t j
  length (a : ArrayId) (i : Nat) : t = .array a → arrayIndex? k = some i →
    h'.getMember t "length" = .ok (.number (Binary64.ofNat (max (h.items a).size (i + 1))))
  objects (o : ObjectId) : t ≠ .object o → h'.properties o = h.properties o
  arrays (a : ArrayId) : t ≠ .array a → h'.items a = h.items a
  functions (f : FunctionId) : t ≠ .function f → h'.function? f = h.function? f
  /-- the name and the code of a function are no members -/
  codes (f : FunctionId) : (h'.function? f).map (fun f => (f.name, f.code)) =
    (h.function? f).map fun f => (f.name, f.code)
  scopes : h'.scopes = h.scopes

/-! ### What is modified -/

theorem getD_modify {α : Type} (xs : Array α) {i : Nat} (hi : i < xs.size) (f : α → α) (d : α)
    (j : Nat) : ((xs.modify i f)[j]?).getD d =
      if i = j then f ((xs[i]?).getD d) else (xs[j]?).getD d := by
  rw [Array.getElem?_modify]
  split
  · next he =>
    subst he
    simp [Array.getElem?_eq_getElem hi]
  · rfl

section
variable (h : Heap)

theorem properties_modifyProperties {o : ObjectId} (ho : o.index < h.objects.size)
    (f : Properties → Properties) (o' : ObjectId) : (h.modifyProperties o f).properties o' =
      if o = o' then f (h.properties o) else h.properties o' := by
  obtain ⟨i⟩ := o
  obtain ⟨j⟩ := o'
  simp only [ObjectId.mk.injEq]
  exact getD_modify h.objects ho f .empty j

theorem items_modifyItems {a : ArrayId} (ha : a.index < h.arrays.size)
    (f : Array Value → Array Value) (a' : ArrayId) : (h.modifyItems a f).items a' =
      if a = a' then f (h.items a) else h.items a' := by
  obtain ⟨i⟩ := a
  obtain ⟨j⟩ := a'
  simp only [ArrayId.mk.injEq]
  exact getD_modify h.arrays ha f #[] j

theorem function?_modifyFunction (id : FunctionId) (f : Function → Function) (id' : FunctionId) :
    (h.modifyFunction id f).function? id' =
      if id = id' then (h.function? id).map f else h.function? id' := by
  obtain ⟨i⟩ := id
  obtain ⟨j⟩ := id'
  simp only [function?, modifyFunction, Array.getElem?_modify, FunctionId.mk.injEq]
  split
  · next he =>
    subst he
    rfl
  · rfl

end

section
variable (items : Array Value) (i : Nat) (v : Value)

theorem size_setItem : (setItem items i v).size = max items.size (i + 1) := by
  unfold setItem
  split
  · simp
    omega
  · simp
    omega

/-- What an array is filled up with is what is read beyond its end. -/
theorem getElem?_setItem (j : Nat) : ((setItem items i v)[j]?).getD .undefined =
    if j = i then v else (items[j]?).getD .undefined := by
  unfold setItem
  split
  · next hlt =>
    simp only [Array.set!_eq_setIfInBounds, Array.getElem?_setIfInBounds]
    grind
  · grind

end

/-! ### What a write does -/

section
variable {h : Heap} (k : String) (v : Value)

theorem Rewritten.object {o : ObjectId} (ho : o.index < h.objects.size) :
    h.Rewritten (h.overwriteMember (.object o) k v) (.object o) k v where
  written j hj := by
    obtain rfl : j = k := hj
    simp [overwriteMember, getMember, properties_modifyProperties h ho, OrderedMap.get?_set]
  others j hj _ := by
    have hne : j ≠ k := hj
    simp [overwriteMember, getMember, properties_modifyProperties h ho, OrderedMap.get?_set, hne]
  length a i ht := by cases ht
  objects o' ht := by
    have hne : o ≠ o' := fun he => ht (he ▸ rfl)
    simp [overwriteMember, properties_modifyProperties h ho, hne]
  arrays _ _ := rfl
  functions _ _ := rfl
  codes _ := rfl
  scopes := rfl

theorem Rewritten.array {a : ArrayId} (ha : a.index < h.arrays.size) {i : Nat}
    (hk : arrayIndex? k = some i) :
    h.Rewritten (h.overwriteMember (.array a) k v) (.array a) k v where
  written j hj := by
    have hi : arrayIndex? j = some i := hj.trans hk
    have hlength : j ≠ "length" := by
      rintro rfl
      rw [arrayIndex?_length] at hi
      cases hi
    have hitem := getElem?_setItem (h.items a) i v i
    simpa [overwriteMember, getMember, hk, hi, hlength, items_modifyItems h ha] using hitem
  others j hj hlength := by
    have hlength : j ≠ "length" := hlength a rfl
    cases hi : arrayIndex? j with
    | none => simp [overwriteMember, getMember, hk, hi, hlength]
    | some i' =>
      have hne : i' ≠ i := fun he => hj (hi.trans (he ▸ hk.symm))
      have hitem := getElem?_setItem (h.items a) i v i'
      simpa [overwriteMember, getMember, hk, hi, hlength, items_modifyItems h ha, hne] using hitem
  length b i' ht hi := by
    cases ht
    obtain rfl : i' = i := Option.some.inj (hi.symm.trans hk)
    simp [overwriteMember, getMember, hk, items_modifyItems h ha, size_setItem]
  objects _ _ := by simp [overwriteMember, hk, modifyItems, properties]
  arrays b ht := by
    have hne : a ≠ b := fun he => ht (he ▸ rfl)
    simp [overwriteMember, hk, items_modifyItems h ha, hne]
  functions _ _ := by simp [overwriteMember, hk, modifyItems, function?]
  codes _ := by simp [overwriteMember, hk, modifyItems, function?]
  scopes := by simp [overwriteMember, hk, modifyItems]

theorem Rewritten.function {id : FunctionId} (hid : id.index < h.functions.size)
    (hname : k ≠ "name") (hlength : k ≠ "length") :
    h.Rewritten (h.overwriteMember (.function id) k v) (.function id) k v where
  written j hj := by
    obtain rfl : j = k := hj
    obtain ⟨f, hf⟩ : ∃ f, h.function? id = some f := ⟨_, Array.getElem?_eq_getElem hid⟩
    simp [overwriteMember, getMember, function?_modifyFunction, hf, hname, hlength,
      OrderedMap.get?_set]
  others j hj _ := by
    have hne : j ≠ k := hj
    obtain ⟨f, hf⟩ : ∃ f, h.function? id = some f := ⟨_, Array.getElem?_eq_getElem hid⟩
    simp [overwriteMember, getMember, function?_modifyFunction, hf, OrderedMap.get?_set, hne,
      Function.arity]
  length a i ht := by cases ht
  objects _ _ := rfl
  arrays _ _ := rfl
  functions id' ht := by
    have hne : id ≠ id' := fun he => ht (he ▸ rfl)
    simp [overwriteMember, function?_modifyFunction, hne]
  codes id' := by
    simp only [overwriteMember, function?_modifyFunction]
    split
    · next he =>
      subst he
      rw [Option.map_map]
      rfl
    · rfl
  scopes := rfl

end

end Heap

end Script

namespace Machine

open Script Run

/-! ## Runs -/

section
variable {w : World} {t : Value} {k : String} {v : Value}

theorem ends_writeMember_refused {f : Fault} (hf : w.heap.memberFault? t k = some f) :
    (writeMember t k v).Ends w (.error (.fault f)) w := by
  unfold writeMember
  rw [ends_heap_bind, hf]
  exact ends_fail.2 ⟨rfl, rfl⟩

theorem ends_writeMember_ok (hf : w.heap.memberFault? t k = none) :
    (writeMember t k v).Ends w (.ok ()) { w with heap := w.heap.overwriteMember t k v } := by
  unfold writeMember
  rw [ends_heap_bind, hf]
  exact ends_modify.2 ⟨rfl, rfl⟩

/-- **A write is seen by the reads of the member, and by no others.**  Writing the member `k` of an
    object, an array or a function (where it is neither the name nor the length) is refused only if
    `k` is no index of an array, and then the world stays as it is.  Otherwise the heap is rewritten
    at this member.  The members of objects and functions are their keys; those of arrays are the
    indices, each with its canonical text for a key, and keys that have a plus sign. -/
theorem writeMember_rewrites (ht : w.heap.Holds t)
    (hk : t.isFunction → k ≠ "name" ∧ k ≠ "length") (v : Value) :
    (((∃ a, t = .array a) ∧ arrayIndex? k = none ∧
        w.heap.setMember t k v = .error (.notIndex k) ∧
        (writeMember t k v).Ends w (.error (.fault (.notIndex k))) w) ∨
      ∃ h', w.heap.setMember t k v = .ok h' ∧
        (writeMember t k v).Ends w (.ok ()) { w with heap := h' } ∧ w.heap.Rewritten h' t k v) ∧
    (∀ key i, arrayIndex? key = some i ↔ i < indexLimit ∧ (key = toString i ∨ Signed key i)) ∧
    ∀ j j' i, arrayIndex? j = some i → arrayIndex? j' = some i → j ≠ j' →
      Signed j i ∨ Signed j' i := by
  refine ⟨?_, fun _ _ => arrayIndex?_eq_some_iff, fun _ _ _ => signed_of_arrayIndex?⟩
  have hok (hf : w.heap.memberFault? t k = none)
      (hr : w.heap.Rewritten (w.heap.overwriteMember t k v) t k v) :
      ∃ h', w.heap.setMember t k v = .ok h' ∧
        (writeMember t k v).Ends w (.ok ()) { w with heap := h' } ∧ w.heap.Rewritten h' t k v :=
    ⟨_, by rw [Heap.setMember, hf], ends_writeMember_ok hf, hr⟩
  cases t with
  | object o => exact .inr (hok rfl (.object k v ht))
  | array a =>
    cases hi : arrayIndex? k with
    | none =>
      have hf : w.heap.memberFault? (.array a) k = some (.notIndex k) := by
        simp [Heap.memberFault?, hi]
      exact .inl ⟨⟨a, rfl⟩, rfl, by rw [Heap.setMember, hf], ends_writeMember_refused hf⟩
    | some i =>
      have hf : w.heap.memberFault? (.array a) k = none := by simp [Heap.memberFault?, hi]
      exact .inr (hok hf (.array k v ht hi))
  | function id => exact .inr (hok rfl (.function k v ht (hk rfl).1 (hk rfl).2))
  | undefined | null | boolean | number | string => exact ht.elim

end

/-- A world with the array `[null]`. -/
def World.withArray : World :=
  { World.bare with heap := (World.bare.heap.newArray #[.null]).2 }

/-- The array grows to the element that is written; what lies between is undefined. -/
theorem writeMember_rewrites_grown : ∃ h',
    (writeMember (.array ⟨0⟩) "2" (.boolean true)).Ends World.withArray (.ok ())
      { World.withArray with heap := h' } ∧
    h'.getMember (.array ⟨0⟩) "2" = .ok (.boolean true) ∧
    h'.getMember (.array ⟨0⟩) "1" = .ok .undefined ∧
    h'.getMember (.array ⟨0⟩) "0" = .ok .null ∧
    h'.getMember (.array ⟨0⟩) "length" = .ok (.number (Binary64.ofNat 3)) := by
  have hheld : World.withArray.heap.Holds (.array ⟨0⟩) := by decide
  rcases (writeMember_rewrites hheld (k := "2") (by simp [Value.isFunction]) (.boolean true)).1 with
    ⟨-, hnone, -⟩ | ⟨h', -, hends, hr⟩
  · cases hnone
  · refine ⟨h', hends, hr.written "2" rfl, ?_, ?_, hr.length ⟨0⟩ 2 rfl (by decide)⟩
    · rw [hr.others "1" (by decide) fun _ _ => by decide]
      rfl
    · rw [hr.others "0" (by decide) fun _ _ => by decide]
      rfl

/-- **Two keys of one element.**  A write by the key `+0` is seen by a read of the key `0`. -/
theorem signed_key_shared : arrayIndex? "+0" = some 0 ∧ "+0" ≠ toString 0 ∧
    World.withArray.heap.getMember (.array ⟨0⟩) "0" = .ok .null ∧
    ∃ w', (writeMember (.array ⟨0⟩) "+0" (.boolean true)).Ends World.withArray (.ok ()) w' ∧
      w'.heap.getMember (.array ⟨0⟩) "0" = .ok (.boolean true) :=
  ⟨by decide, by decide, rfl, _, ends_writeMember_ok rfl, rfl⟩

end Machine

end Requisite
