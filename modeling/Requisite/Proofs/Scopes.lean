/-
  What a call does to the scopes of others.

  Parameters, declarations and functions are bound in scopes that are made for
  them.  In a scope from before, nothing but the value of a writable name changes.

  * `Heap.SameScope h h' s`: the scope `s` declares in `h'` what it does in `h`;
  * `Heap.Spares own h h'`: this holds of all scopes of `h` but those of `own`;
  * `Heap.holder?_eq`: a name still means the binding that it meant;
  * `call_spares_scopes`: a call spares all scopes that were there before.
-/
import Requisite.Proofs.Frame

namespace Requisite.Script

open Requisite Requisite.Source

namespace Heap

/-- The scope `s` lies in `h'` where it does in `h` and binds the same names, the same of them for
    writing; those that are not for writing have the same values. -/
structure SameScope (h h' : Heap) (s : ScopeId) : Prop where
  outer : (h'.scopes[s.index]?).map Scope.outer = (h.scopes[s.index]?).map Scope.outer
  names (x : String) :
    (h'.bindingIn? s x).map Binding.writable = (h.bindingIn? s x).map Binding.writable
  constants (x : String) (b : Binding) : h.bindingIn? s x = some b → b.writable = false →
    h'.bindingIn? s x = some b

/-- The scopes of `h` are the same in `h'`, but for those of `own`. -/
structure Spares (own : ScopeId → Prop) (h h' : Heap) : Prop where
  size_le : h.scopes.size ≤ h'.scopes.size
  same (s : ScopeId) : s.index < h.scopes.size → ¬own s → SameScope h h' s

/-! ## Bindings after a step -/

section
variable (h : Heap) (s t : ScopeId) (x y : String) (v : Value) (writable : Bool)

theorem outer_declare : ((h.declare s x v writable).scopes[t.index]?).map Scope.outer =
    (h.scopes[t.index]?).map Scope.outer := by
  simp only [declare, Array.getElem?_modify]
  split
  · rw [Option.map_map]
    rfl
  · rfl

/-- A name that is declared in a scope is bound there to the value; all other names are bound as
    before. -/
theorem bindingIn?_declare : (h.declare s x v writable).bindingIn? t y =
    if t = s ∧ y = x then (h.scopes[s.index]?).map fun _ => ⟨v, writable⟩
    else h.bindingIn? t y := by
  by_cases ht : t = s
  · subst ht
    simp only [bindingIn?, declare, Array.getElem?_modify, ↓reduceIte, true_and]
    cases h.scopes[t.index]? with
    | none => split <;> rfl
    | some scope => simp [OrderedMap.get?_set]
  · have hne : s.index ≠ t.index := fun he => ht (by cases s; cases t; cases he; rfl)
    simp [bindingIn?, declare, Array.getElem?_modify, hne, ht]

end

theorem index_lt_of_bindingIn? {h : Heap} {s : ScopeId} {x : String} {b : Binding}
    (hb : h.bindingIn? s x = some b) : s.index < h.scopes.size := by
  obtain ⟨scope, hscope, -⟩ := Option.bind_eq_some_iff.1 hb
  exact (Array.getElem?_eq_some_iff.1 hscope).1

namespace SameScope

variable {h h' h'' : Heap} {s : ScopeId}

theorem of_scopes (hs : h'.scopes = h.scopes) (s : ScopeId) : SameScope h h' s := by
  have hb (x : String) : h'.bindingIn? s x = h.bindingIn? s x := by simp [bindingIn?, hs]
  exact ⟨by rw [hs], fun x => by rw [hb], fun x b hx _ => by rw [hb, hx]⟩

theorem trans (h₁ : SameScope h h' s) (h₂ : SameScope h' h'' s) : SameScope h h'' s :=
  ⟨h₂.outer.trans h₁.outer, fun x => (h₂.names x).trans (h₁.names x),
    fun x b hb hw => h₂.constants x b (h₁.constants x b hb hw) hw⟩

/-- A declaration in another scope. -/
theorem declare_other {t : ScopeId} (hst : s ≠ t) (x : String) (v : Value) (writable : Bool) :
    SameScope h (h.declare t x v writable) s := by
  have hb (y : String) : (h.declare t x v writable).bindingIn? s y = h.bindingIn? s y := by
    simp [bindingIn?_declare, hst]
  exact ⟨outer_declare .., fun y => by rw [hb], fun y b hy _ => by rw [hb, hy]⟩

/-- Another value for a writable name. -/
theorem declare_writable {x : String} {b : Binding} (hx : h.bindingIn? s x = some b)
    (hw : b.writable = true) (t : ScopeId) (v : Value) : SameScope h (h.declare s x v true) t := by
  by_cases ht : t = s
  · subst ht
    obtain ⟨scope, hscope, -⟩ := Option.bind_eq_some_iff.1 hx
    refine ⟨outer_declare .., fun y => ?_, fun y c hy hc => ?_⟩
    · rw [bindingIn?_declare]
      split
      · next hyx => simp [hyx, hx, hw, hscope]
      · rfl
    · rw [bindingIn?_declare, if_neg]
      · exact hy
      · rintro ⟨-, rfl⟩
        rw [hx] at hy
        cases hy
        rw [hw] at hc
        cases hc
  · exact declare_other ht x v true

theorem newScope (h : Heap) (outer : Option ScopeId) (hs : s.index < h.scopes.size) :
    SameScope h (h.newScope outer).2 s := by
  have hget : (h.newScope outer).2.scopes[s.index]? = h.scopes[s.index]? := by
    simp [Heap.newScope, Array.getElem?_push, Nat.ne_of_lt hs]
  have hb (x : String) : (h.newScope outer).2.bindingIn? s x = h.bindingIn? s x := by
    simp [bindingIn?, hget]
  exact ⟨by rw [hget], fun x => by rw [hb], fun x b hx _ => by rw [hb, hx]⟩

end SameScope

namespace Spares

variable {own own' : ScopeId → Prop} {h h' h'' : Heap}

theorem of_scopes (hs : h'.scopes = h.scopes) : Spares own h h' :=
  ⟨hs ▸ Nat.le_refl _, fun s _ _ => .of_scopes hs s⟩

theorem trans (h₁ : Spares own h h') (h₂ : Spares own h' h'') : Spares own h h'' where
  size_le := Nat.le_trans h₁.size_le h₂.size_le
  same s hs ho := (h₁.same s hs ho).trans (h₂.same s (Nat.lt_of_lt_of_le hs h₁.size_le) ho)

theorem widen (hsub : ∀ s, own s → own' s) (hh : Spares own h h') : Spares own' h h' :=
  ⟨hh.size_le, fun s hs ho => hh.same s hs (mt (hsub s) ho)⟩

/-- What is done to a scope that was not there before is no one's business. -/
theorem of_newScope {outer : Option ScopeId}
    (hh : Spares (fun s => own s ∨ s = (h.newScope outer).1) (h.newScope outer).2 h') :
    Spares own h h' := by
  have hsize : (h.newScope outer).2.scopes.size = h.scopes.size + 1 := by simp [Heap.newScope]
  refine ⟨by have := hh.size_le; omega, fun s hs ho => ?_⟩
  have hne : s ≠ (h.newScope outer).1 := by
    rintro rfl
    exact Nat.lt_irrefl _ hs
  exact (SameScope.newScope h outer hs).trans (hh.same s (by omega) (not_or.2 ⟨ho, hne⟩))

theorem declare {s : ScopeId} (hs : own s) (x : String) (v : Value) (writable : Bool) :
    Spares own h (h.declare s x v writable) where
  size_le := by simp [Heap.declare]
  same t _ ht := .declare_other (fun he : t = s => ht (he ▸ hs)) x v writable

/-- A name that may be written is bound for writing where it is held. -/
theorem overwrite {s : ScopeId} {x : String} (hf : h.assignFailure? s x = none) (v : Value) :
    Spares own h (h.overwrite s x v) := by
  unfold assignFailure? binding? at hf
  unfold Heap.overwrite
  cases ht : h.holder? s x with
  | none => exact .of_scopes rfl
  | some t =>
    rw [ht, Option.bind_some] at hf
    cases hb : h.bindingIn? t x with
    | none =>
      rw [hb] at hf
      cases hf
    | some b =>
      rw [hb] at hf
      have hw : b.writable = true := by simpa using hf
      exact ⟨by simp [Heap.declare], fun u _ _ => .declare_writable hb hw u v⟩

theorem overwriteMember (object : Value) (key : String) (v : Value) :
    Spares own h (h.overwriteMember object key v) := by
  refine .of_scopes ?_
  unfold Heap.overwriteMember
  split
  · rfl
  · split <;> rfl
  · rfl
  · rfl

end Spares

/-! ## What names mean -/

/-- If all scopes are the same, a name means the binding that it meant. -/
theorem holder?_eq {h h' : Heap} (hh : ∀ s : ScopeId, s.index < h.scopes.size → SameScope h h' s)
    (s : ScopeId) (hs : s.index < h.scopes.size) (x : String) : h'.holder? s x = h.holder? s x := by
  obtain ⟨i⟩ := s
  -- outward, along the numbers of the scopes
  induction i using Nat.strongRecOn with
  | _ i ih =>
    have hsame := hh ⟨i⟩ hs
    obtain ⟨scope, hscope⟩ : ∃ scope, h.scopes[i]? = some scope := ⟨_, Array.getElem?_eq_getElem hs⟩
    have houter := hsame.outer
    rw [show h.scopes[(⟨i⟩ : ScopeId).index]? = some scope from hscope] at houter
    obtain ⟨scope', hscope', ho⟩ := Option.map_eq_some_iff.1 houter
    have hnames : scope'.bindings.contains x = scope.bindings.contains x := by
      have hx := congrArg Option.isSome (hsame.names x)
      simpa [bindingIn?, hscope, hscope', OrderedMap.contains] using hx
    rw [holder?, holder?, hscope', hscope]
    simp only [hnames, ho]
    split
    · rfl
    · split
      · rfl
      · next o _ =>
        split
        · next hlt => exact ih o.index hlt (Nat.lt_trans hlt hs)
        · rfl

end Heap

end Requisite.Script

namespace Requisite.Machine

open Requisite Requisite.Source Requisite.Script Requisite.Loader

/-! ## Runs -/

/-- Whatever scripts do, they spare all scopes but their own. -/
theorem lawful_spares : Frame.Lawful fun own w w' => w.heap.Spares own w'.heap where
  refl := .of_scopes rfl
  trans := .trans
  widen := .widen
  object _ := .of_scopes rfl
  array _ := .of_scopes rfl
  function _ := .of_scopes rfl
  scope _ := .of_newScope
  declare x v writable hs := .declare hs x v writable
  name v hf := .overwrite hf v
  member := .overwriteMember
  output _ _ := .of_scopes rfl
  modules _ := .of_scopes rfl
  deeper h := h
  apart h := h

/-- Whether a job is to call a function or to bring about the call of a module's script. -/
def Job.isCall : Job → Bool
  | call _ _ | require _ | load _ _ | body _ _ => true
  | _ => false

/-- **A call declares nothing in the scopes of others.**  However the call of a function, a
    `require` or the script of a module ends: every scope that was there before, the global one
    among them, binds the same names as before, the same of them for writing; constants have
    their values, and every name seen from such a scope means the binding that it meant. -/
theorem call_spares_scopes {n : Nat} {j : Job} {w w' : World} {ok : Bool} (hj : j.isCall)
    (h : (evaluator n).Finishes w ok w' j) (s : ScopeId) (hs : s.index < w.heap.scopes.size) :
    w.heap.SameScope w'.heap s ∧ ∀ x, w'.heap.holder? s x = w.heap.holder? s x := by
  have hspares : w.heap.Spares noScope w'.heap := by
    have hown : j.ownScopes = noScope := by cases j <;> first | rfl | cases hj
    exact hown ▸ lawful_spares.finishes h
  have hsame (t : ScopeId) (ht : t.index < w.heap.scopes.size) := hspares.same t ht not_false
  exact ⟨hsame s hs, Heap.holder?_eq hsame s hs⟩

/-! ## A function that shadows -/

/-- A world with the function `(NaN) { var undefined = null; function Infinity() { } }`. -/
def World.shadowing : World :=
  let body : List Stmt :=
    [.declare .var [("undefined", some .null)], .function "Infinity" [] []]
  { World.bare with
    heap := (World.bare.heap.newFunction ⟨none, .script ["NaN"] body World.bare.globals, .empty⟩).2 }

/-- A call declares the names of three constants in its own scope; the constants stay what they
    were. -/
theorem call_spares_scopes_shadowing : ∃ w',
    (call 3 (.function ⟨3⟩) [.boolean true]).Ends World.shadowing (.ok .undefined) w' ∧
      w'.heap.bindingIn? World.bare.globals "NaN" = some ⟨.number .nan, false⟩ ∧
      w'.heap.bindingIn? World.bare.globals "undefined" = some ⟨.undefined, false⟩ ∧
      w'.heap.bindingIn? World.bare.globals "Infinity" = some ⟨.number .infinity, false⟩ := by
  obtain ⟨w', hw'⟩ : ∃ w', (call 3 (.function ⟨3⟩) [.boolean true]).Ends World.shadowing
      (.ok .undefined) w' := ⟨_, rfl⟩
  have hsame := (call_spares_scopes (j := .call (.function ⟨3⟩) [.boolean true]) rfl
    ⟨_, hw', rfl⟩ World.bare.globals (by decide)).1
  exact ⟨w', hw', hsame.constants _ _ rfl rfl, hsame.constants _ _ rfl rfl,
    hsame.constants _ _ rfl rfl⟩

end Requisite.Machine
