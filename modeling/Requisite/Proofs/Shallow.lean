/-
  How much of the heap is in the text of a value.

  The text of a container holds those of its values, and what it holds may lead back
  to it.  Formatting opens two levels of containers; so it comes to an end on every
  heap, and whatever lies below has no part in the text.

  * `Heap.format?`: formatting as a recursion of its own, which nothing but the
    depth brings to an end;
  * `Heap.format?_alone`: five calls inside one another suffice for every value;
  * `Alike h h' levels v v'`: the values agree, down to so many levels of
    containers, and below in which are empty;
  * `display_shallow`: values that are alike down to two levels have one text.
-/
import Mathlib.Data.List.Forall2
import Requisite.Script.Display

namespace Requisite.Script

namespace Heap

/-! ## Formatting -/

/-- How a value is formatted. -/
inductive Manner where
  | alone
  /-- among the values of containers, so many of which are around it -/
  | nested (depth : Nat)

/-- Formats a value by at most `n` calls inside one another.  A container on its own is formatted
    as a nested one with none around it, and what is no container as on its own. -/
def format? (h : Heap) : Nat → Manner → Value → Option String
  | 0, _, _ => none
  | n + 1, .alone, v =>
    match v with
    | .object _ | .array _ => h.format? n (.nested 0) v
    | .function f => functionText (h.functionName? f)
    | v => leafText v
  | n + 1, .nested depth, v =>
    match v with
    | .string s => if 0 < depth then some ("'" ++ s ++ "'") else h.format? n .alone v
    | .object o =>
      let entries := (h.properties o).entries
      if entries.isEmpty then some "\x7b\x7d"
      else if displayDepth ≤ depth then some "[Object]"
      else do
        let texts ← entries.mapM fun (k, v) => do
          return k ++ ": " ++ (← h.format? n (.nested (depth + 1)) v)
        return "\x7b " ++ ", ".intercalate texts ++ " \x7d"
    | .array a =>
      let items := (h.items a).toList
      if items.isEmpty then some "[]"
      else if displayDepth ≤ depth then some "[Array]"
      else do
        let texts ← items.mapM (h.format? n (.nested (depth + 1)))
        return "[ " ++ ", ".intercalate texts ++ " ]"
    | v => h.format? n .alone v

section
variable (h : Heap) {levels depth n : Nat} {v : Value}

theorem displayInner_object_zero (o : ObjectId) : h.displayInner 0 (.object o) =
    if (h.properties o).entries.isEmpty then "\x7b\x7d" else "[Object]" := by
  by_cases he : (h.properties o).entries = [] <;>
    simp only [displayInner, he, List.isEmpty_iff, ↓reduceIte]

theorem displayInner_object_succ (o : ObjectId) : h.displayInner (levels + 1) (.object o) =
    if (h.properties o).entries.isEmpty then "\x7b\x7d"
    else "\x7b " ++ ", ".intercalate ((h.properties o).entries.map fun e =>
      e.1 ++ ": " ++ h.displayInner levels e.2) ++ " \x7d" := by
  by_cases he : (h.properties o).entries = [] <;>
    simp only [displayInner, he, List.isEmpty_iff, ↓reduceIte]

theorem displayInner_array_zero (a : ArrayId) : h.displayInner 0 (.array a) =
    if (h.items a).toList.isEmpty then "[]" else "[Array]" := by
  by_cases he : (h.items a).toList = [] <;>
    simp only [displayInner, he, List.isEmpty_iff, ↓reduceIte]

theorem displayInner_array_succ (a : ArrayId) : h.displayInner (levels + 1) (.array a) =
    if (h.items a).toList.isEmpty then "[]"
    else "[ " ++ ", ".intercalate ((h.items a).toList.map (h.displayInner levels)) ++ " ]" := by
  by_cases he : (h.items a).toList = [] <;>
    simp only [displayInner, he, List.isEmpty_iff, ↓reduceIte]

/-- Formatting what is nested goes down by levels. -/
theorem format?_nested (hd : depth + levels = displayDepth) (hn : levels + 2 ≤ n)
    (hv : 0 < depth ∨ ∀ s, v ≠ .string s) :
    h.format? n (.nested depth) v = some (h.displayInner levels v) := by
  induction levels generalizing depth n v with
  | zero =>
    obtain ⟨m, rfl⟩ : ∃ m, n = m + 2 := ⟨n - 2, by omega⟩
    have hdepth : displayDepth ≤ depth := by omega
    cases v with
    | string s => simp [format?, displayInner, hv.resolve_right fun h => h s rfl]
    | object o =>
      simp only [format?, displayInner_object_zero, hdepth, ↓reduceIte]
      split <;> rfl
    | array a =>
      simp only [format?, displayInner_array_zero, hdepth, ↓reduceIte]
      split <;> rfl
    | _ => rfl
  | succ levels ih =>
    obtain ⟨m, rfl⟩ : ∃ m, n = m + 2 := ⟨n - 2, by omega⟩
    have hdepth : ¬displayDepth ≤ depth := by omega
    -- what a container holds has one more around it
    have hitem (v : Value) :
        h.format? (m + 1) (.nested (depth + 1)) v = pure (h.displayInner levels v) :=
      ih (by omega) (by omega) (.inl (Nat.succ_pos depth))
    cases v with
    | string s => simp [format?, displayInner, hv.resolve_right fun h => h s rfl]
    | object o =>
      rw [format?, displayInner_object_succ]
      simp only [hitem, hdepth, ↓reduceIte, pure_bind, List.mapM_pure]
      split <;> rfl
    | array a =>
      rw [format?, displayInner_array_succ, funext hitem]
      simp only [hdepth, ↓reduceIte, pure_bind, List.mapM_pure]
      split <;> rfl
    | _ => rfl

/-- **Formatting comes to an end.**  Five calls inside one another suffice. -/
theorem format?_alone (hn : 5 ≤ n) (v : Value) : h.format? n .alone v = some (h.display v) := by
  obtain ⟨m, rfl⟩ : ∃ m, n = m + 1 := ⟨n - 1, by omega⟩
  have hm : displayDepth + 2 ≤ m := Nat.le_of_succ_le_succ hn
  cases v with
  | object o => exact h.format?_nested (Nat.zero_add _) hm (.inr (by simp))
  | array a => exact h.format?_nested (Nat.zero_add _) hm (.inr (by simp))
  | _ => rfl

end

end Heap

/-! ## Values that agree -/

/-- Whether a value is neither a container nor a function. -/
def Value.isPrimitive : Value → Bool
  | .object _ | .array _ | .function _ => false
  | _ => true

/-- The values agree, one in each heap, if `objects` holds of the properties of objects and
    `arrays` of the items of arrays. -/
inductive Agree (h h' : Heap) (objects : List (String × Value) → List (String × Value) → Prop)
    (arrays : List Value → List Value → Prop) : Value → Value → Prop
  | primitive {v} : v.isPrimitive → Agree h h' objects arrays v v
  | function {f f'} : h.functionName? f = h'.functionName? f' →
      Agree h h' objects arrays (.function f) (.function f')
  | object {o o'} : objects (h.properties o).entries (h'.properties o').entries →
      Agree h h' objects arrays (.object o) (.object o')
  | array {a a'} : arrays (h.items a).toList (h'.items a').toList →
      Agree h h' objects arrays (.array a) (.array a')

/-- The values agree in the containers that are reached through so many levels; of those below it
    matters only which are empty. -/
def Alike (h h' : Heap) : Nat → Value → Value → Prop
  | 0 => Agree h h' (fun es es' => es = [] ↔ es' = []) fun vs vs' => vs = [] ↔ vs' = []
  | levels + 1 =>
    Agree h h' (List.Forall₂ fun e e' => e.1 = e'.1 ∧ Alike h h' levels e.2 e'.2)
      (List.Forall₂ (Alike h h' levels))

section
variable {h h' : Heap} {levels : Nat} {v v' : Value}

section
variable {α β : Type} {R : α → α → Prop} {f f' : α → β} {l l' : List α} (hl : List.Forall₂ R l l')
include hl

theorem map_eq_map_of_forall₂ (hf : ∀ a a', R a a' → f a = f' a') : l.map f = l'.map f' := by
  rw [← List.forall₂_eq_eq_eq, List.forall₂_map_left_iff, List.forall₂_map_right_iff]
  exact hl.imp fun {a a'} => hf a a'

theorem isEmpty_eq_of_forall₂ : l.isEmpty = l'.isEmpty := by cases hl <;> rfl

end

/-- Values that agree have one text inside of others if the containers among them do. -/
theorem Agree.displayInner_eq {objects : List (String × Value) → List (String × Value) → Prop}
    {arrays : List Value → List Value → Prop} (ha : Agree h h' objects arrays v v')
    (hobject : ∀ o o', objects (h.properties o).entries (h'.properties o').entries →
      h.displayInner levels (.object o) = h'.displayInner levels (.object o'))
    (harray : ∀ a a', arrays (h.items a).toList (h'.items a').toList →
      h.displayInner levels (.array a) = h'.displayInner levels (.array a')) :
    h.displayInner levels v = h'.displayInner levels v' := by
  cases ha with
  | primitive hv =>
    cases v with
    | object | array | function => cases hv
    | _ => simp only [Heap.displayInner]
  | function hf => simp only [Heap.displayInner, hf]
  | object he => exact hobject _ _ he
  | array he => exact harray _ _ he

/-- Values that are alike have one text inside of others. -/
theorem Alike.displayInner_eq (ha : Alike h h' levels v v') :
    h.displayInner levels v = h'.displayInner levels v' := by
  induction levels generalizing v v' with
  | zero =>
    refine Agree.displayInner_eq ha (fun o o' he => ?_) fun a a' he => ?_
    · simp only [Heap.displayInner_object_zero, List.isEmpty_iff, he]
    · simp only [Heap.displayInner_array_zero, List.isEmpty_iff, he]
  | succ levels ih =>
    refine Agree.displayInner_eq ha (fun o o' he => ?_) fun a a' he => ?_
    · rw [Heap.displayInner_object_succ, Heap.displayInner_object_succ, isEmpty_eq_of_forall₂ he,
        map_eq_map_of_forall₂ he fun e e' hee => by rw [hee.1, ih hee.2]]
    · rw [Heap.displayInner_array_succ, Heap.displayInner_array_succ, isEmpty_eq_of_forall₂ he,
        map_eq_map_of_forall₂ he fun _ _ => ih]

/-- **The text of a value is shallow.**  Formatting a value comes to an end, whatever leads back to
    it.  The text depends on nothing but what the containers hold that are reached through two
    levels, and on which of those below are empty. -/
theorem display_shallow (h : Heap) (v : Value) :
    (∀ n, 5 ≤ n → h.format? n .alone v = some (h.display v)) ∧
    ∀ h' v', Alike h h' 2 v v' → h.display v = h'.display v' := by
  refine ⟨fun n hn => h.format?_alone hn v, fun h' v' ha => ?_⟩
  have hinner : h.displayInner 2 v = h'.displayInner 2 v' := ha.displayInner_eq
  cases ha with
  | primitive hv =>
    cases v with
    | object | array | function => cases hv
    | _ => rfl
  | function | object | array => exact hinner

/-- An object that holds itself. -/
def Heap.cyclic : Heap := (Heap.empty.newObject (.ofList [("self", .object ⟨0⟩)])).2

/-- An object that holds an object that holds an object that is not empty. -/
def Heap.chained : Heap :=
  let (last, h) := Heap.empty.newObject (.ofList [("end", .null)])
  let (middle, h) := h.newObject (.ofList [("self", .object last)])
  (h.newObject (.ofList [("self", .object middle)])).2

/-- They have one text. -/
theorem display_shallow_cyclic :
    Heap.cyclic.format? 5 .alone (.object ⟨0⟩) = some "\x7b self: \x7b self: [Object] \x7d \x7d" ∧
    Heap.chained.display (.object ⟨2⟩) = "\x7b self: \x7b self: [Object] \x7d \x7d" := by
  have hshallow := display_shallow Heap.cyclic (.object ⟨0⟩)
  have halike : Alike Heap.cyclic Heap.chained 2 (.object ⟨0⟩) (.object ⟨2⟩) :=
    .object (.cons ⟨rfl, .object (.cons ⟨rfl, .object (by decide)⟩ .nil)⟩ .nil)
  refine ⟨(hshallow.1 5 (Nat.le_refl 5)).trans ?_, (hshallow.2 _ _ halike).symm.trans ?_⟩
  · decide
  · decide

end

end Requisite.Script
