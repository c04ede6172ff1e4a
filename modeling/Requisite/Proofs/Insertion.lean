/-
  Objects keep the order of insertion.

  Whatever is set and deleted, the two halves of an object stay in step, and the
  object is determined by the history of changes: a key has the value of its last
  change, and keys stand in the order in which they came in since they were last
  absent.  The maps of the heap, which are lists of entries, do the same.

  * `Change`, `Object.replay`: changes of an object;
  * `valueAfter`, `Since`, `Follows`: what a history says of the keys;
  * `Follows.applyTo`, `Follows.foldl`: a map follows its history, through one
    change and through any number of them;
  * `Object.InStep`, `Object.Agrees`: no key is doubled and both halves have the
    same keys, so that whatever reads one half agrees with what reads the other;
  * `Object.Represents`: an object with the keys and values of a map of the heap;
  * `Object.insertion_ordered`: all of this after any changes.
-/
import Requisite.Script.Heap
import Requisite.Script.Object

namespace Requisite.Script

/-! ## Changes -/

/-- A change of an object. -/
inductive Change where
  | set (key : String) (value : Value)
  | delete (key : String)

namespace Change

def key : Change → String
  | set k _ => k
  | delete k => k

/-- The value that the key has after the change. -/
def value? : Change → Option Value
  | set _ v => some v
  | delete _ => none

/-- The change of a map of the heap. -/
def applyTo (ps : Properties) : Change → Properties
  | set k v => ps.set k v
  | delete k => ps.erase k

end Change

namespace Object

def apply (o : Object) : Change → Object
  | .set k v => o.set k v
  | .delete k => (o.delete k).2

/-- The object after some changes. -/
def replay (o : Object) (changes : List Change) : Object := changes.foldl apply o

theorem get?_apply (o : Object) (c : Change) (k : String) :
    (o.apply c).get? k = if k = c.key then c.value? else o.get? k := by
  cases c with
  | set j v => exact o.get?_set j k v
  | delete j => exact o.get?_delete j k

theorem ofList_eq_replay (entries : List (String × Value)) :
    ofList entries = empty.replay (entries.map fun e => .set e.1 e.2) := by
  rw [ofList, replay, List.foldl_map]
  rfl

end Object

/-! ## Histories -/

/-- The value that a key has after some changes: that of the last change of the key. -/
def valueAfter (history : List Change) (k : String) : Option Value :=
  (history.filter fun c => c.key = k).getLast?.bind Change.value?

/-- The key came in by the change `n` and has been there since. -/
structure Since (history : List Change) (k : String) (n : Nat) : Prop where
  lt : n < history.length
  absent : valueAfter (history.take n) k = none
  present : ∀ m, n < m → m ≤ history.length → (valueAfter (history.take m) k).isSome

section
variable {history : List Change} {c : Change} {k : String} {n : Nat}

theorem valueAfter_concat (history : List Change) (c : Change) (k : String) :
    valueAfter (history ++ [c]) k = if k = c.key then c.value? else valueAfter history k := by
  unfold valueAfter
  rw [List.filter_append]
  split
  · next h => simp [h]
  · next h => simp [Ne.symm h]

/-- A key that is not taken away is there since the same change. -/
theorem Since.concat (h : Since history k n) (hk : (valueAfter (history ++ [c]) k).isSome) :
    Since (history ++ [c]) k n where
  lt := by
    have := h.lt
    simp only [List.length_append, List.length_singleton]
    omega
  absent := by
    rw [List.take_append_of_le_length (Nat.le_of_lt h.lt)]
    exact h.absent
  present m hm hle := by
    rw [List.length_append, List.length_singleton] at hle
    by_cases hlast : m ≤ history.length
    · rw [List.take_append_of_le_length hlast]
      exact h.present m hm hlast
    · obtain rfl : m = history.length + 1 := by omega
      rw [List.take_of_length_le (by simp)]
      exact hk

/-- A key that comes in is there since the last change. -/
theorem since_length (hk : valueAfter history k = none)
    (hk' : (valueAfter (history ++ [c]) k).isSome) : Since (history ++ [c]) k history.length where
  lt := by simp
  absent := by
    rw [List.take_left]
    exact hk
  present m hm hle := by
    rw [List.length_append, List.length_singleton] at hle
    obtain rfl : m = history.length + 1 := by omega
    rw [List.take_of_length_le (by simp)]
    exact hk'

/-- A key cannot have come in by two changes. -/
theorem Since.unique {m : Nat} (h : Since history k m) (h' : Since history k n) : m = n := by
  have hle {m n : Nat} (h : Since history k m) (h' : Since history k n) : n ≤ m := by
    refine Nat.le_of_not_lt fun hlt => ?_
    have := h.present n hlt (Nat.le_of_lt h'.lt)
    rw [h'.absent] at this
    cases this
  exact Nat.le_antisymm (hle h' h) (hle h h')

end

/-- Keys and their values are as the history says: every key has the value of its last change, and
    the keys stand in the order in which they came in. -/
structure Follows (history : List Change) (keys : List String) (get? : String → Option Value) :
    Prop where
  nodup : keys.Nodup
  mem_iff (k : String) : k ∈ keys ↔ (get? k).isSome
  get?_eq (k : String) : get? k = valueAfter history k
  since (k : String) : k ∈ keys → ∃ n, Since history k n
  ordered : keys.Pairwise fun j k => ∀ m n, Since history j m → Since history k n → m < n

/-! ## Maps of the heap -/

theorem Properties.ofList_eq_foldl (entries : List (String × Value)) :
    (OrderedMap.ofList entries : Properties) =
      (entries.map fun e => Change.set e.1 e.2).foldl Change.applyTo .empty := by
  rw [OrderedMap.ofList, List.foldl_map]
  rfl

theorem follows_empty : Follows [] (OrderedMap.empty : Properties).keys OrderedMap.empty.get? where
  nodup := List.nodup_nil
  mem_iff := OrderedMap.empty.mem_keys_iff
  get?_eq _ := rfl
  since _ hk := absurd hk List.not_mem_nil
  ordered := List.Pairwise.nil

theorem Change.get?_applyTo (c : Change) (ps : Properties) (k : String) :
    (c.applyTo ps).get? k = if k = c.key then c.value? else ps.get? k := by
  cases c with
  | set j v => exact ps.get?_set j k v
  | delete j => exact ps.get?_erase j k

section
variable {history : List Change} {ps : Properties}

/-- Keys that a change leaves there have come in before it, and in their order. -/
theorem Follows.kept (h : Follows history ps.keys ps.get?) {c : Change} {ks : List String}
    (hks : ks.Sublist ps.keys) (hkept : ∀ k ∈ ks, (valueAfter (history ++ [c]) k).isSome) :
    (∀ k ∈ ks, ∃ n, Since (history ++ [c]) k n ∧ n < history.length) ∧
    ks.Pairwise fun j k =>
      ∀ m n, Since (history ++ [c]) j m → Since (history ++ [c]) k n → m < n := by
  have hback {k : String} (hk : k ∈ ks) :
      ∃ n, Since history k n ∧ ∀ m, Since (history ++ [c]) k m → m = n := by
    obtain ⟨n, hn⟩ := h.since k (hks.subset hk)
    exact ⟨n, hn, fun m hm => hm.unique (hn.concat (hkept k hk))⟩
  constructor
  · intro k hk
    obtain ⟨n, hn, -⟩ := hback hk
    exact ⟨n, hn.concat (hkept k hk), hn.lt⟩
  · refine (h.ordered.sublist hks).imp_of_mem fun {j k} hj hk hjk m n hm hn => ?_
    obtain ⟨m', hm', hjust⟩ := hback hj
    obtain ⟨n', hn', hjust'⟩ := hback hk
    rw [hjust m hm, hjust' n hn]
    exact hjk m' n' hm' hn'

/-- **One change.**  The keys that stay have been there since the same changes as before, and one
    that comes in does so by this change. -/
theorem Follows.applyTo (h : Follows history ps.keys ps.get?) (c : Change) :
    Follows (history ++ [c]) (c.applyTo ps).keys (c.applyTo ps).get? := by
  have hget (k : String) : (c.applyTo ps).get? k = valueAfter (history ++ [c]) k := by
    rw [c.get?_applyTo, valueAfter_concat, h.get?_eq]
  have hmem (k : String) := (c.applyTo ps).mem_keys_iff k
  have hthere {k : String} (hk : k ∈ (c.applyTo ps).keys) :
      (valueAfter (history ++ [c]) k).isSome := by
    rwa [← hget, ← hmem]
  cases c with
  | delete k =>
    have hkeys : (Change.applyTo ps (.delete k)).keys = ps.keys.filter fun j => j ≠ k :=
      ps.keys_erase k
    rw [hkeys] at hthere
    obtain ⟨hsince, hordered⟩ := h.kept List.filter_sublist fun j hj => hthere hj
    refine ⟨ps.nodup_keys_erase k h.nodup, hmem, hget, fun j hj => ?_, hkeys ▸ hordered⟩
    obtain ⟨n, hn, -⟩ := hsince j (hkeys ▸ hj)
    exact ⟨n, hn⟩
  | set k v =>
    have hkeys : (Change.applyTo ps (.set k v)).keys =
        if k ∈ ps.keys then ps.keys else ps.keys ++ [k] := ps.keys_set k v
    have hold : ∀ j ∈ ps.keys, (valueAfter (history ++ [.set k v]) j).isSome := fun j hj =>
      hthere (by rw [hkeys]; split <;> simp [hj])
    obtain ⟨hsince, hordered⟩ := h.kept (List.Sublist.refl _) hold
    by_cases hk : k ∈ ps.keys
    · rw [if_pos hk] at hkeys
      refine ⟨ps.nodup_keys_set k v h.nodup, hmem, hget, fun j hj => ?_, hkeys ▸ hordered⟩
      obtain ⟨n, hn, -⟩ := hsince j (hkeys ▸ hj)
      exact ⟨n, hn⟩
    · rw [if_neg hk] at hkeys
      -- the new key is there since this change, and the others since earlier ones
      have hnew : Since (history ++ [.set k v]) k history.length := by
        refine since_length ?_ (hthere (by simp [hkeys]))
        rwa [← h.get?_eq, ps.get?_eq_none_iff]
      refine ⟨ps.nodup_keys_set k v h.nodup, hmem, hget, fun j hj => ?_, ?_⟩
      · rw [hkeys, List.mem_append, List.mem_singleton] at hj
        rcases hj with hj | rfl
        · obtain ⟨n, hn, -⟩ := hsince j hj
          exact ⟨n, hn⟩
        · exact ⟨_, hnew⟩
      · rw [hkeys, List.pairwise_append]
        refine ⟨hordered, List.pairwise_singleton _ _, fun j hj i hi m n hm hn => ?_⟩
        obtain rfl := List.mem_singleton.1 hi
        obtain ⟨m', hm', hlt⟩ := hsince j hj
        rw [hm.unique hm', hn.unique hnew]
        exact hlt

/-- **Any number of changes.** -/
theorem Follows.foldl (h : Follows history ps.keys ps.get?) (changes : List Change) :
    Follows (history ++ changes) (changes.foldl Change.applyTo ps).keys
      (changes.foldl Change.applyTo ps).get? := by
  induction changes generalizing history ps with
  | nil => rwa [List.append_nil]
  | cons c changes ih =>
    rw [List.append_cons]
    exact ih (h.applyTo c)

end

/-! ## The two halves -/

namespace Object

/-- Both halves have the same keys, and none of them is doubled. -/
structure InStep (o : Object) : Prop where
  nodup : o.order.Nodup
  mem_order_iff (k : String) : k ∈ o.order ↔ k ∈ o.values

/-- All that reads the object tells the same of it, and every entry is a value that was stored. -/
structure Agrees (o : Object) : Prop where
  size_eq : o.size = o.values.size
  keys_entries : o.entries.map Prod.fst = o.keys
  isEmpty_iff : o.isEmpty ↔ o.entries = []
  has_iff (k : String) : o.has k ↔ k ∈ o.keys
  get?_iff (k : String) (v : Value) : o.get? k = some v ↔ (k, v) ∈ o.entries

theorem keys_entries (o : Object) : o.entries.map Prod.fst = o.keys := by
  simp [entries, keys, Function.comp_def]

/-- The halves have the same keys, so whatever reads one of them agrees with what reads the
    other. -/
theorem InStep.agrees {o : Object} (h : o.InStep) : o.Agrees where
  size_eq := by
    have hperm : o.order.Perm o.values.keys :=
      (List.perm_ext_iff_of_nodup h.nodup Std.HashMap.nodup_keys).2 fun k => by
        rw [h.mem_order_iff, Std.HashMap.mem_keys]
    rw [← Std.HashMap.length_keys, ← hperm.length_eq]
    rfl
  keys_entries := o.keys_entries
  isEmpty_iff := by simp [isEmpty, entries]
  has_iff k := by
    rw [has, Std.HashMap.contains_iff_mem, ← h.mem_order_iff]
    rfl
  get?_iff k v := by
    have hstored : k ∈ o.order ↔ ∃ w, o.get? k = some w := by
      rw [h.mem_order_iff, ← Std.HashMap.contains_iff_mem, ← Option.isSome_iff_exists,
        ← has_eq_isSome]
      rfl
    rw [entries, List.mem_map]
    constructor
    · intro hv
      exact ⟨k, hstored.2 ⟨v, hv⟩, by rw [read, hv, Option.getD_some]⟩
    · rintro ⟨j, hj, he⟩
      obtain ⟨rfl, rfl⟩ := Prod.mk.inj he
      obtain ⟨w, hw⟩ := hstored.1 hj
      rw [read, hw, Option.getD_some]

/-! ## Objects as maps of the heap -/

/-- An object has the keys of a map of the heap, in their order, with the same values. -/
structure Represents (o : Object) (ps : Properties) : Prop where
  keys_eq : o.keys = ps.keys
  get?_eq (k : String) : o.get? k = ps.get? k

theorem represents_empty : empty.Represents .empty := ⟨rfl, get?_empty⟩

section
variable {o : Object} {ps : Properties}

theorem Represents.has_iff (h : o.Represents ps) (k : String) : o.has k ↔ k ∈ ps.keys := by
  rw [has_eq_isSome, h.get?_eq, ps.mem_keys_iff]

theorem Represents.keys_delete (h : o.Represents ps) (k : String) :
    (o.delete k).2.keys = o.keys.filter fun j => j ≠ k := by
  unfold delete
  split
  · rfl
  · next hk =>
    -- where there is no such key, nothing is filtered out
    refine (List.filter_eq_self.2 fun j hj => decide_eq_true ?_).symm
    rintro rfl
    exact hk ((h.has_iff j).2 (h.keys_eq ▸ hj))

/-- A change of the object is the change of the map. -/
theorem Represents.apply (h : o.Represents ps) (c : Change) :
    (o.apply c).Represents (c.applyTo ps) where
  keys_eq := by
    cases c with
    | set k v =>
      show (if o.has k then o.keys else o.keys ++ [k]) = (ps.set k v).keys
      simp only [ps.keys_set, h.has_iff, h.keys_eq]
    | delete k =>
      show (o.delete k).2.keys = (ps.erase k).keys
      rw [h.keys_delete, ps.keys_erase, h.keys_eq]
  get?_eq k := by rw [get?_apply, c.get?_applyTo, h.get?_eq]

theorem Represents.replay (h : o.Represents ps) (changes : List Change) :
    (o.replay changes).Represents (changes.foldl Change.applyTo ps) := by
  induction changes generalizing o ps with
  | nil => exact h
  | cons c changes ih => exact ih (h.apply c)

section
variable (h : o.Represents ps) (hnodup : ps.keys.Nodup)
include h hnodup

/-- What represents a map is in step. -/
theorem Represents.inStep : o.InStep where
  nodup := by
    show o.keys.Nodup
    rw [h.keys_eq]
    exact hnodup
  mem_order_iff k := by
    show k ∈ o.keys ↔ k ∈ o.values
    rw [h.keys_eq, ← h.has_iff, has, Std.HashMap.contains_iff_mem]

/-- The entries of the object are those of the map. -/
theorem Represents.entries_eq : o.entries = ps.entries := by
  refine OrderedMap.entries_ext (o.keys_entries.trans h.keys_eq) ?_ fun k => ?_
  · rw [o.keys_entries, h.keys_eq]
    exact hnodup
  · show OrderedMap.lookup k (o.order.map fun j => (j, o.read j)) = ps.get? k
    rw [OrderedMap.lookup_map, read, h.get?_eq]
    show (if k ∈ o.keys then _ else _) = _
    rw [h.keys_eq]
    split
    · next hk =>
      obtain ⟨v, hv⟩ := Option.isSome_iff_exists.1 ((ps.mem_keys_iff k).1 hk)
      rw [hv]
      rfl
    · next hk => exact ((ps.get?_eq_none_iff k).2 hk).symm

end

end

/-- What is set and deleted in an object is set and deleted in a map. -/
theorem ofList_replay_represents (entries : List (String × Value)) (changes : List Change) :
    ((ofList entries).replay changes).Represents
      (changes.foldl Change.applyTo (OrderedMap.ofList entries)) := by
  rw [ofList_eq_replay, Properties.ofList_eq_foldl]
  exact (represents_empty.replay _).replay changes

/-- **Objects keep the order of insertion.**  After any changes the halves of an object are in step
    and all that reads it agrees; it is as the history of its changes says, and so is what deleting
    a key tells, which moves no other key. -/
theorem insertion_ordered (entries : List (String × Value)) (changes : List Change) :
    let history := entries.map (fun e => Change.set e.1 e.2) ++ changes
    let o := (ofList entries).replay changes
    o.InStep ∧ o.Agrees ∧ Follows history o.keys o.get? ∧
    o.entries = (changes.foldl Change.applyTo (OrderedMap.ofList entries)).entries ∧
    ∀ k, (o.delete k).1 = (valueAfter history k).isSome ∧
      (o.delete k).2.entries = o.entries.filter fun e => e.1 ≠ k := by
  intro history o
  have hmap := ofList_replay_represents entries changes
  have hfollows := (follows_empty.foldl (entries.map fun e => Change.set e.1 e.2)).foldl changes
  rw [← Properties.ofList_eq_foldl] at hfollows
  have hstep := hmap.inStep hfollows.nodup
  have hentries := hmap.entries_eq hfollows.nodup
  refine ⟨hstep, hstep.agrees, ?_, hentries, fun k => ⟨?_, ?_⟩⟩
  · rw [hmap.keys_eq, funext hmap.get?_eq]
    exact hfollows
  · rw [fst_delete, has_eq_isSome, hmap.get?_eq, hfollows.get?_eq]
    rfl
  · have hnodup := OrderedMap.nodup_keys_erase _ k hfollows.nodup
    rw [hentries]
    exact (hmap.apply (.delete k)).entries_eq hnodup

-- a key that is set again after it was deleted comes last
example (v w : Value) :
    ((ofList [("a", v), ("b", v), ("a", w)]).replay [.delete "a", .set "a" v]).keys =
      ["b", "a"] := by
  rw [(ofList_replay_represents _ _).keys_eq]
  rfl

end Object

end Requisite.Script
