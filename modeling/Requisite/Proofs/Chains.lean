/-
  Names along chains of scopes.

  A scope lies in another one that was there before it, so every way outward
  comes to an end, whatever values the scopes hold.  A name is looked for along
  this way: the nearest scope that binds it decides what is read, whether it may
  be written, and who sees what is written.

  * `Heap.Built`: heaps whose scopes come from the operations on scopes;
  * `Heap.Chain h s path`: the way outward from the scope `s`;
  * `Heap.Reaches h x s t`: no scope before `t` on the way from `s` binds `x`;
  * `Heap.get?_declare`: what every scope reads after a declaration;
  * `Heap.chain_laws`: reading, writing and declaring names.
-/
import Requisite.Proofs.Scopes

namespace Requisite.Script

open Requisite Requisite.Source

namespace Heap

/-- The scope around `s`. -/
def outer? (h : Heap) (s : ScopeId) : Option ScopeId :=
  ((h.scopes[s.index]?).map Scope.outer).join

/-- Heaps whose scopes come from the operations on scopes, in any order.  Values may refer to
    anything, and the objects, arrays and functions of the heap may be any. -/
inductive Built : Heap → Prop
  | none {h} : h.scopes = #[] → Built h
  /-- something else changes -/
  | elsewhere {h h'} : Built h → h'.scopes = h.scopes → Built h'
  | global {h} : Built h → Built (h.newScope .none).2
  | child {h s} : Built h → s.index < h.scopes.size → Built (h.newScope (some s)).2
  | declare {h} (s : ScopeId) (x : String) (v : Value) (writable : Bool) : Built h →
      Built (h.declare s x v writable)
  | assign {h h' s x v} : Built h → h.assign s x v = .ok h' → Built h'

/-- The scopes from `s` outward, up to one that lies in no other. -/
inductive Chain (h : Heap) : ScopeId → List ScopeId → Prop
  | outermost {s} : s.index < h.scopes.size → h.outer? s = none → Chain h s [s]
  | inside {s o path} : h.outer? s = some o → Chain h o path → Chain h s (s :: path)

/-- From `s` outward, no scope before `t` binds `x`. -/
inductive Reaches (h : Heap) (x : String) : ScopeId → ScopeId → Prop
  | here {s} : Reaches h x s s
  | outward {s o t} : h.bindingIn? s x = none → h.outer? s = some o → Reaches h x o t →
      Reaches h x s t

/-- The nearest binding of `x` from `s` outward is `b`, in the scope `t`. -/
structure Nearest (h : Heap) (s : ScopeId) (x : String) (t : ScopeId) (b : Binding) : Prop where
  reaches : h.Reaches x s t
  binding : h.bindingIn? t x = some b

/-! ## The scopes around a scope -/

/-- Scopes lie in scopes that were there before them. -/
def Nested (h : Heap) : Prop := ∀ s o, h.outer? s = some o → o.index < s.index

section
variable {h h' : Heap} {s o t : ScopeId}

theorem index_lt_of_outer? (ho : h.outer? s = some o) : s.index < h.scopes.size := by
  obtain ⟨scope, hscope, -⟩ := Option.map_eq_some_iff.1 (Option.join_eq_some_iff.1 ho)
  exact (Array.getElem?_eq_some_iff.1 hscope).1

theorem outer?_congr (hs : h'.scopes = h.scopes) (s : ScopeId) : h'.outer? s = h.outer? s := by
  rw [outer?, outer?, hs]

theorem outer?_newScope (outer : Option ScopeId) (s : ScopeId) :
    (h.newScope outer).2.outer? s = if s = (h.newScope outer).1 then outer else h.outer? s := by
  have hs : s = ⟨h.scopes.size⟩ ↔ s.index = h.scopes.size := by cases s; simp
  simp only [outer?, newScope, Array.getElem?_push, hs]
  split <;> rfl

theorem outer?_declare (s t : ScopeId) (x : String) (v : Value) (writable : Bool) :
    (h.declare s x v writable).outer? t = h.outer? t :=
  congrArg Option.join (outer_declare h s t x v writable)

/-- A new scope lies in one that was there before. -/
theorem Nested.newScope (hh : h.Nested) {outer : Option ScopeId}
    (houter : ∀ o ∈ outer, o.index < h.scopes.size) : (h.newScope outer).2.Nested := by
  intro s o ho
  rw [outer?_newScope] at ho
  split at ho
  · next hs =>
    subst hs
    exact houter o ho
  · exact hh s o ho

theorem Nested.declare (hh : h.Nested) (s : ScopeId) (x : String) (v : Value) (writable : Bool) :
    (h.declare s x v writable).Nested :=
  fun t o ho => hh t o ((outer?_declare s t x v writable).symm.trans ho)

/-- An assignment that succeeds is a declaration in the scope that binds the name. -/
theorem declare_of_assign {x : String} {v : Value} (ha : h.assign s x v = .ok h') :
    ∃ t b, h.holder? s x = some t ∧ h.bindingIn? t x = some b ∧ b.writable = true ∧
      h' = h.declare t x v true := by
  unfold Heap.assign assignFailure? binding? at ha
  cases hholder : h.holder? s x with
  | none => simp [hholder] at ha
  | some t =>
    rw [hholder, Option.bind_some] at ha
    cases hb : h.bindingIn? t x with
    | none => simp [hb] at ha
    | some b =>
      cases hw : b.writable with
      | false => simp [hb, hw] at ha
      | true =>
        simp only [hb, hw, ↓reduceIte, overwrite, hholder, Except.ok.injEq] at ha
        exact ⟨t, b, rfl, hb, hw, ha.symm⟩

theorem Built.nested (hh : h.Built) : h.Nested := by
  induction hh with
  | none hs =>
    intro s o ho
    have hlt := index_lt_of_outer? ho
    simp [hs] at hlt
  | elsewhere _ hs ih => exact fun s o ho => ih s o (outer?_congr hs s ▸ ho)
  | global _ ih => exact ih.newScope nofun
  | child _ hs ih =>
    refine ih.newScope fun o ho => ?_
    cases ho
    exact hs
  | declare s x v writable _ ih => exact ih.declare s x v writable
  | assign _ ha ih =>
    obtain ⟨t, b, -, -, -, rfl⟩ := declare_of_assign ha
    exact ih.declare t _ _ true

theorem Built.newFunction (hh : h.Built) (f : Function) : (h.newFunction f).2.Built :=
  .elsewhere hh rfl

/-- What holds of a scope whenever it holds of the scope around it holds of all scopes. -/
theorem Nested.induction (hh : h.Nested) {P : ScopeId → Prop}
    (outward : ∀ s, (∀ o, h.outer? s = some o → P o) → P s) (s : ScopeId) : P s := by
  obtain ⟨i⟩ := s
  induction i using Nat.strongRecOn with
  | _ i ih => exact outward ⟨i⟩ fun o ho => ih o.index (hh _ o ho)

/-- The way outward comes to an end. -/
theorem Nested.exists_chain (hh : h.Nested) (hs : s.index < h.scopes.size) :
    ∃ path, h.Chain s path := by
  induction s using hh.induction with
  | outward s ih =>
    cases ho : h.outer? s with
    | none => exact ⟨[s], .outermost hs ho⟩
    | some o =>
      obtain ⟨path, hpath⟩ := ih o ho (Nat.lt_trans (hh s o ho) hs)
      exact ⟨s :: path, .inside ho hpath⟩

end

/-! ## The nearest binding -/

/-- Beyond a scope that binds the name no other is reached. -/
theorem Reaches.eq_of_binding {h : Heap} {x : String} {s t : ScopeId} {b : Binding}
    (hr : h.Reaches x s t) (hb : h.bindingIn? s x = some b) : s = t := by
  cases hr with
  | here => rfl
  | outward hn => rw [hb] at hn; cases hn

section
variable {h h' : Heap} (hh : h.Nested) {s t : ScopeId} {x : String}
include hh

/-- A name is looked for in a scope, and then in the scope around it. -/
theorem Nested.holder?_outward (s : ScopeId) (x : String) : h.holder? s x =
    if (h.bindingIn? s x).isSome then some s else (h.outer? s).bind (h.holder? · x) := by
  rw [holder?]
  cases hs : h.scopes[s.index]? with
  | none => simp [bindingIn?, outer?, hs]
  | some scope =>
    have hlt := hh s
    simp only [outer?, hs, Option.map_some, Option.join_some] at hlt
    simp only [bindingIn?, outer?, hs, Option.bind_some, OrderedMap.contains, Option.map_some,
      Option.join_some]
    cases ho : scope.outer with
    | none => rfl
    | some o => simp [hlt o ho]

theorem Nested.binding?_outward (s : ScopeId) (x : String) :
    h.binding? s x = (h.bindingIn? s x).or ((h.outer? s).bind (h.binding? · x)) := by
  unfold binding?
  rw [hh.holder?_outward]
  cases hb : h.bindingIn? s x with
  | some b => simp [hb]
  | none => cases h.outer? s <;> simp

/-- A name is found in the first scope outward that binds it. -/
theorem Nested.holder?_eq_some_iff :
    h.holder? s x = some t ↔ h.Reaches x s t ∧ (h.bindingIn? t x).isSome := by
  induction s using hh.induction with
  | outward s ih =>
    rw [hh.holder?_outward]
    cases hb : h.bindingIn? s x with
    | some b =>
      simp only [Option.isSome_some, ↓reduceIte, Option.some.injEq]
      exact ⟨fun he => ⟨he ▸ .here, by rw [← he, hb]; rfl⟩, fun ⟨hr, _⟩ => hr.eq_of_binding hb⟩
    | none =>
      simp only [Option.isSome_none, Bool.false_eq_true, ↓reduceIte, Option.bind_eq_some_iff]
      constructor
      · rintro ⟨o, ho, ht⟩
        obtain ⟨hr, hsome⟩ := (ih o ho).1 ht
        exact ⟨.outward hb ho hr, hsome⟩
      · rintro ⟨hr, hsome⟩
        cases hr with
        | here => rw [hb] at hsome; cases hsome
        | outward _ ho hr => exact ⟨_, ho, (ih _ ho).2 ⟨hr, hsome⟩⟩

theorem Nested.binding?_eq_some_iff {b : Binding} :
    h.binding? s x = some b ↔ ∃ t, h.Nearest s x t b := by
  rw [binding?, Option.bind_eq_some_iff]
  constructor
  · rintro ⟨t, ht, hb⟩
    exact ⟨t, (hh.holder?_eq_some_iff.1 ht).1, hb⟩
  · rintro ⟨t, hr, hb⟩
    exact ⟨t, hh.holder?_eq_some_iff.2 ⟨hr, by rw [hb]; rfl⟩, hb⟩

/-! ## Reading and writing -/

/-- A name has the value of its binding in a scope, or else its value in the scope around it. -/
theorem Nested.get?_outward (s : ScopeId) (x : String) : h.get? s x =
    ((h.bindingIn? s x).map Binding.value).or ((h.outer? s).bind (h.get? · x)) := by
  unfold get?
  rw [hh.binding?_outward]
  cases h.bindingIn? s x <;> cases h.outer? s <;> simp

/-- A name is written in a scope that binds it, or else in the scope around it. -/
theorem Nested.assign_outward (s : ScopeId) (x : String) (v : Value) : h.assign s x v =
    (h.bindingIn? s x).elim ((h.outer? s).elim (.error .unbound) (h.assign · x v))
      fun b => if b.writable then .ok (h.declare s x v true) else .error .constant := by
  unfold assign assignFailure? overwrite
  rw [hh.binding?_outward, hh.holder?_outward]
  cases hb : h.bindingIn? s x with
  | some b => cases hw : b.writable <;> simp [hw]
  | none => cases h.outer? s <;> simp

end

section
variable {h h' : Heap} {s : ScopeId} {x : String} {v : Value}

theorem assign_eq_unbound_iff : h.assign s x v = .error .unbound ↔ h.get? s x = none := by
  unfold assign assignFailure? get?
  cases h.binding? s x with
  | none => simp
  | some b => cases hw : b.writable <;> simp [hw]

theorem assign_eq_constant_iff :
    h.assign s x v = .error .constant ↔ ∃ b, h.binding? s x = some b ∧ b.writable = false := by
  unfold assign assignFailure?
  cases h.binding? s x with
  | none => simp
  | some b => cases hw : b.writable <;> simp [hw]

end

/-! ## What is seen of a change -/

section
variable {h h' : Heap} {s t : ScopeId} {x : String} {v : Value}

/-- Another scope is reached by way of the scope around one that does not bind the name. -/
theorem reaches_iff_of_ne (ht : t ≠ s) : h.Reaches x t s ↔
    h.bindingIn? t x = none ∧ ∃ o, h.outer? t = some o ∧ h.Reaches x o s := by
  constructor
  · intro hr
    cases hr with
    | here => exact absurd rfl ht
    | outward hn ho hr => exact ⟨hn, _, ho, hr⟩
  · rintro ⟨hn, o, ho, hr⟩
    exact .outward hn ho hr

open Classical in
/-- **After a declaration** its value is read wherever the scope is reached before any other binding
    of the name; all else is read as before. -/
theorem Nested.get?_declare (hh : h.Nested) (hs : s.index < h.scopes.size) (writable : Bool)
    (t : ScopeId) (y : String) : (h.declare s x v writable).get? t y =
      if y = x ∧ h.Reaches x t s then some v else h.get? t y := by
  have hh' := hh.declare s x v writable
  induction t using hh.induction with
  | outward t ih =>
    rw [hh'.get?_outward, outer?_declare]
    by_cases hty : t = s ∧ y = x
    · obtain ⟨rfl, rfl⟩ := hty
      simp [bindingIn?_declare, Array.getElem?_eq_getElem hs, Reaches.here]
    · rw [bindingIn?_declare, if_neg hty, hh.get?_outward]
      have hr : y = x ∧ h.Reaches x t s ↔
          h.bindingIn? t y = none ∧ ∃ o, h.outer? t = some o ∧ y = x ∧ h.Reaches x o s := by
        constructor
        · rintro ⟨rfl, hr⟩
          obtain ⟨hn, o, ho, hr⟩ := (reaches_iff_of_ne fun hts => hty ⟨hts, rfl⟩).1 hr
          exact ⟨hn, o, ho, rfl, hr⟩
        · rintro ⟨hn, o, ho, rfl, hr⟩
          exact ⟨rfl, .outward hn ho hr⟩
      rw [if_congr hr rfl rfl]
      cases h.bindingIn? t y with
      | some b => simp
      | none =>
        cases ho : h.outer? t with
        | none => simp
        | some o => simpa [ho] using ih o ho

/-- After an assignment its value is read wherever the nearest binding of the name is that which was
    written; all else is read as before. -/
theorem Nested.get?_assign (hh : h.Nested) (ha : h.assign s x v = .ok h') :
    ∃ u b, h.Nearest s x u b ∧ b.writable = true ∧ ∀ t y,
      (h.Nearest t x u b → h'.get? t x = some v) ∧
      (¬(y = x ∧ h.Nearest t x u b) → h'.get? t y = h.get? t y) := by
  obtain ⟨u, b, hholder, hb, hw, rfl⟩ := declare_of_assign ha
  have hu : u.index < h.scopes.size := index_lt_of_bindingIn? hb
  have hnearest : h.Nearest s x u b := ⟨(hh.holder?_eq_some_iff.1 hholder).1, hb⟩
  refine ⟨u, b, hnearest, hw, fun t y => ⟨fun hn => ?_, fun hn => ?_⟩⟩
  · rw [hh.get?_declare hu, if_pos ⟨rfl, hn.reaches⟩]
  · rw [hh.get?_declare hu, if_neg fun hr => hn ⟨hr.1, hr.2, hb⟩]

end

end Heap

end Requisite.Script

namespace Requisite.Machine

open Requisite Requisite.Source Requisite.Script Requisite.Loader

open Run

/-- A name that may not be written is a fault, and nothing else happens. -/
theorem result_writeName_of_assign {w : World} {s : ScopeId} {x : String} {v : Value}
    {e : Heap.AssignFailure} (he : w.heap.assign s x v = .error e) :
    ∃ f, (writeName s x v).result w = (.error (.error (.fault f)), w) := by
  have hf : w.heap.assignFailure? s x = some e := by
    unfold Heap.assign at he
    cases hf : w.heap.assignFailure? s x with
    | none => simp [hf] at he
    | some e' => simpa [hf] using he
  unfold writeName
  rw [result_bind, result_heap]
  cases e with
  | unbound => exact ⟨.notDefined x, by simp [hf]⟩
  | constant => exact ⟨.constantAssigned, by simp [hf]⟩

/-- **Names along chains of scopes.**  In a heap whose scopes come from the operations on scopes,
    the way outward from every scope comes to an end, and reading and writing a name are walks along
    it.  Writing is refused as unbound exactly if there is no value to read, as constant exactly if
    the nearest binding is not for writing, and then nothing happens.  Else the value is read
    afterwards, and whoever reads another value than before reads this name from this binding.  A
    declaration is read where its scope is reached before any other binding of the name, and nowhere
    else. -/
theorem chain_laws {h : Heap} (hh : h.Built) (s : ScopeId) (hs : s.index < h.scopes.size)
    (x : String) (v : Value) :
    (∃ path, h.Chain s path) ∧
    h.get? s x = ((h.bindingIn? s x).map Binding.value).or ((h.outer? s).bind (h.get? · x)) ∧
    h.assign s x v =
      (h.bindingIn? s x).elim ((h.outer? s).elim (.error .unbound) (h.assign · x v))
        (fun b => if b.writable then .ok (h.declare s x v true) else .error .constant) ∧
    (h.assign s x v = .error .unbound ↔ h.get? s x = none) ∧
    (h.assign s x v = .error .constant ↔ ∃ t b, h.Nearest s x t b ∧ b.writable = false) ∧
    (∀ e, h.assign s x v = .error e → ∀ w : World, w.heap = h →
      ∃ f, (writeName s x v).result w = (.error (.error (.fault f)), w)) ∧
    (∀ h', h.assign s x v = .ok h' → h'.get? s x = some v ∧
      ∀ t y, h'.get? t y ≠ h.get? t y → y = x ∧ ∃ u b, h.Nearest s x u b ∧ h.Nearest t x u b) ∧
    ∀ writable t, (h.Reaches x t s → (h.declare s x v writable).get? t x = some v) ∧
      ∀ y, (h.declare s x v writable).get? t y ≠ h.get? t y → y = x ∧ h.Reaches x t s := by
  have hn := hh.nested
  refine ⟨hn.exists_chain hs, hn.get?_outward s x, hn.assign_outward s x v,
    Heap.assign_eq_unbound_iff, ?_, fun e he w hw => ?_, fun h' ha => ?_, fun writable t =>
    ⟨fun hr => ?_, fun y hy => ?_⟩⟩
  · simp only [Heap.assign_eq_constant_iff, hn.binding?_eq_some_iff]
    grind
  · subst hw
    exact result_writeName_of_assign he
  · obtain ⟨u, b, hnear, -, hread⟩ := hn.get?_assign ha
    refine ⟨(hread s x).1 hnear, fun t y hy => ?_⟩
    by_contra hne
    exact hy ((hread t y).2 fun hyx => hne ⟨hyx.1, u, b, hnear, hyx.2⟩)
  · rw [hn.get?_declare hs, if_pos ⟨rfl, hr⟩]
  · by_contra hne
    rw [hn.get?_declare hs, if_neg hne] at hy
    exact hy rfl

/-! ## A name that is bound twice -/

/-- Three scopes, one in the other: the outermost binds `x` as a constant, the next one to a
    function that was made in it. -/
def Heap.shadowed : Heap :=
  let (s, h) := Heap.empty.newScope none
  let h := h.declare s "x" .null false
  let (t, h) := h.newScope (some s)
  let (f, h) := h.newFunction ⟨none, .script [] [] t, .empty⟩
  let h := h.declare t "x" (.function f) true
  (h.newScope (some t)).2

theorem Heap.built_shadowed : Heap.shadowed.Built := by
  have hglobal : (Heap.empty.newScope none).2.Built := .global (.none rfl)
  have hchild := Heap.Built.child (s := ⟨0⟩) (hglobal.declare ⟨0⟩ "x" .null false) (by decide)
  have hfunction := hchild.newFunction ⟨none, .script [] [] ⟨1⟩, .empty⟩
  exact .child (s := ⟨1⟩) (hfunction.declare ⟨1⟩ "x" (.function ⟨0⟩) true) (by decide)

/-- From the innermost scope the function is overwritten; the constant behind it stays, and cannot
    be written from its own scope. -/
theorem chain_laws_shadowed : ∃ h, Heap.shadowed.assign ⟨2⟩ "x" .undefined = .ok h ∧
    h.get? ⟨2⟩ "x" = some .undefined ∧ h.get? ⟨0⟩ "x" = some .null ∧
      Heap.shadowed.assign ⟨0⟩ "x" .undefined = .error .constant := by
  obtain ⟨-, -, houter, -, -, -, hdone, -⟩ :=
    chain_laws Heap.built_shadowed ⟨2⟩ (by decide) "x" .undefined
  obtain ⟨-, -, hown, -⟩ := chain_laws Heap.built_shadowed ⟨1⟩ (by decide) "x" .undefined
  obtain ⟨-, hread, -, -, hconstant, -⟩ :=
    chain_laws Heap.built_shadowed ⟨0⟩ (by decide) "x" .undefined
  obtain ⟨hvalue, hframe⟩ := hdone _ (houter.trans hown)
  have hnull : Heap.shadowed.get? ⟨0⟩ "x" = some .null := hread
  refine ⟨_, houter.trans hown, hvalue, ?_, hconstant.2 ⟨⟨0⟩, ⟨.null, false⟩, ⟨.here, rfl⟩, rfl⟩⟩
  rw [← hnull]
  by_contra hne
  -- the constant would be the binding that was written, but that is before it on the way
  obtain ⟨-, u, b, hwritten, hseen⟩ := hframe ⟨0⟩ "x" hne
  have hu : (⟨0⟩ : ScopeId) = u := hseen.reaches.eq_of_binding (b := ⟨.null, false⟩) rfl
  cases hwritten.reaches with
  | here => cases hu
  | outward _ ho hr =>
    cases ho
    have hu' : (⟨1⟩ : ScopeId) = u := hr.eq_of_binding (b := ⟨.function ⟨0⟩, true⟩) rfl
    cases hu.trans hu'.symm

end Requisite.Machine
