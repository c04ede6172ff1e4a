/-
  Maps that remember the order in which their keys came in.

  A key keeps the place of its first insertion since it was last absent; a later
  value replaces the earlier one in that place.

  * `get?`, `contains`, `keys`: reading;
  * `set`, `erase`, `ofList`: writing;
  * `get?_set`, `get?_erase`, `keys_set`, `keys_erase`, `nodup_keys_set`: each
    operation through `get?` and `keys`;
  * `entries_ext`: the keys in order and their values determine the entries.
-/

namespace Requisite

/-- A map by its entries, in order. -/
structure OrderedMap (κ α : Type) where
  entries : List (κ × α)
deriving Repr, Inhabited

namespace OrderedMap

variable {κ α : Type} [DecidableEq κ]

/-! ## On the entries -/

/-- The value of the first entry with key `k`. -/
def lookup (k : κ) : List (κ × α) → Option α
  | [] => none
  | (k', v) :: rest => if k' = k then some v else lookup k rest

/-- The entries with `k` bound to `v`: in the place of `k`, or at the end. -/
def insert (k : κ) (v : α) : List (κ × α) → List (κ × α)
  | [] => [(k, v)]
  | (k', v') :: rest => if k' = k then (k', v) :: rest else (k', v') :: insert k v rest

/-! ## Operations -/

def empty : OrderedMap κ α := ⟨[]⟩

def get? (m : OrderedMap κ α) (k : κ) : Option α := lookup k m.entries

def contains (m : OrderedMap κ α) (k : κ) : Bool := (m.get? k).isSome

/-- The keys, in order. -/
def keys (m : OrderedMap κ α) : List κ := m.entries.map Prod.fst

def size (m : OrderedMap κ α) : Nat := m.entries.length

def isEmpty (m : OrderedMap κ α) : Bool := m.entries.isEmpty

def set (m : OrderedMap κ α) (k : κ) (v : α) : OrderedMap κ α := ⟨insert k v m.entries⟩

def erase (m : OrderedMap κ α) (k : κ) : OrderedMap κ α :=
  ⟨m.entries.filter fun e => e.1 ≠ k⟩

/-- The entries set one after the other. -/
def ofList (entries : List (κ × α)) : OrderedMap κ α :=
  entries.foldl (fun m e => m.set e.1 e.2) empty

/-! ## Laws -/

@[simp] theorem get?_empty (k : κ) : (empty : OrderedMap κ α).get? k = none := rfl

theorem lookup_insert (k j : κ) (v : α) (es : List (κ × α)) :
    lookup j (insert k v es) = if j = k then some v else lookup j es := by
  induction es with
  | nil => grind [insert, lookup]
  | cons e es ih => grind [insert, lookup]

/-- After writing `k`, reading `k` gives the value written and any other key what it gave
    before. -/
theorem get?_set (m : OrderedMap κ α) (k j : κ) (v : α) :
    (m.set k v).get? j = if j = k then some v else m.get? j :=
  lookup_insert k j v m.entries

theorem lookup_filter (k j : κ) (es : List (κ × α)) :
    lookup j (es.filter fun e => e.1 ≠ k) = if j = k then none else lookup j es := by
  induction es with
  | nil => simp [lookup]
  | cons e es ih => grind [lookup]

/-- After erasing `k` it is absent, and any other key reads as before. -/
theorem get?_erase (m : OrderedMap κ α) (k j : κ) :
    (m.erase k).get? j = if j = k then none else m.get? j :=
  lookup_filter k j m.entries

/-- A key is among the keys iff it reads as present. -/
theorem mem_keys_iff (m : OrderedMap κ α) (k : κ) : k ∈ m.keys ↔ (m.get? k).isSome := by
  obtain ⟨es⟩ := m
  simp only [keys, get?]
  induction es with
  | nil => simp [lookup]
  | cons e es ih => grind [lookup]

theorem get?_eq_none_iff (m : OrderedMap κ α) (k : κ) : m.get? k = none ↔ k ∉ m.keys := by
  rw [mem_keys_iff, Option.not_isSome_iff_eq_none]

theorem lookup_map (k : κ) (ks : List κ) (f : κ → α) :
    lookup k (ks.map fun j => (j, f j)) = if k ∈ ks then some (f k) else none := by
  induction ks with
  | nil => rfl
  | cons j ks ih => grind [lookup]

/-- Where no key occurs twice, what is found among some of the entries is found among all. -/
theorem lookup_of_filter {f : κ × α → Bool} {es : List (κ × α)} (h : (es.map Prod.fst).Nodup)
    {k : κ} {v : α} (hv : lookup k (es.filter f) = some v) : lookup k es = some v := by
  induction es with
  | nil => exact hv
  | cons e es ih =>
    rw [List.map_cons, List.nodup_cons] at h
    have hmem (he : lookup k es = some v) : k ∈ es.map Prod.fst :=
      (mem_keys_iff ⟨es⟩ k).2 (by simp [get?, he])
    rw [List.filter_cons] at hv
    split at hv <;> grind [lookup]

theorem map_fst_insert (k : κ) (v : α) (es : List (κ × α)) :
    (insert k v es).map Prod.fst =
      if k ∈ es.map Prod.fst then es.map Prod.fst else es.map Prod.fst ++ [k] := by
  induction es with
  | nil => simp [insert]
  | cons e es ih =>
    obtain ⟨k', v'⟩ := e
    by_cases h : k' = k
    · simp [insert, h]
    · simp only [insert, h, ↓reduceIte, List.map_cons, ih, List.mem_cons, Ne.symm h, false_or]
      split <;> simp

/-- A present key keeps its place, a new one comes last. -/
theorem keys_set (m : OrderedMap κ α) (k : κ) (v : α) :
    (m.set k v).keys = if k ∈ m.keys then m.keys else m.keys ++ [k] :=
  map_fst_insert k v m.entries

/-- Erasing a key moves no other. -/
theorem keys_erase (m : OrderedMap κ α) (k : κ) :
    (m.erase k).keys = m.keys.filter fun j => j ≠ k := by
  simp [erase, keys, List.filter_map, Function.comp_def]

theorem nodup_keys_set (m : OrderedMap κ α) (k : κ) (v : α) (h : m.keys.Nodup) :
    (m.set k v).keys.Nodup := by
  rw [keys_set]
  split
  · exact h
  · next hk =>
    refine List.nodup_append.2 ⟨h, by simp, ?_⟩
    intro a ha b hb e
    simp only [List.mem_singleton] at hb
    exact hk (hb ▸ e ▸ ha)

theorem nodup_keys_erase (m : OrderedMap κ α) (k : κ) (h : m.keys.Nodup) :
    (m.erase k).keys.Nodup := by
  rw [keys_erase]; exact h.filter _

/-- Entries are what their keys, in order, and their values make them. -/
theorem entries_ext {es es' : List (κ × α)} (hkeys : es.map Prod.fst = es'.map Prod.fst)
    (hnodup : (es.map Prod.fst).Nodup) (hvalues : ∀ k, lookup k es = lookup k es') :
    es = es' := by
  induction es generalizing es' with
  | nil => exact (List.map_eq_nil_iff.1 hkeys.symm).symm
  | cons e es ih =>
    obtain ⟨k, v⟩ := e
    obtain ⟨⟨k', v'⟩, es', rfl, hk, hrest⟩ := List.map_eq_cons_iff.1 hkeys.symm
    obtain rfl : k = k' := hk.symm
    obtain ⟨hout, hnodup⟩ := List.nodup_cons.1 hnodup
    obtain rfl : v = v' := by simpa [lookup] using hvalues k
    have habsent {fs : List (κ × α)} (h : k ∉ fs.map Prod.fst) : lookup k fs = none :=
      (get?_eq_none_iff ⟨fs⟩ k).2 h
    refine congrArg _ (ih hrest.symm hnodup fun j => ?_)
    by_cases hj : k = j
    · rw [← hj, habsent hout, habsent (hrest ▸ hout)]
    · simpa [lookup, hj] using hvalues j

end OrderedMap

end Requisite
