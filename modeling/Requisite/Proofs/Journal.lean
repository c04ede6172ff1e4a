/-
  The life of a module, as the journal tells it.

  A module is reserved, its script runs, and it is loaded; or it is abandoned on
  the way and may be reserved again.

  * `stageAt place journal`: the stage of the module at a place;
  * `Lawful journal`: every action found its module in the stage before;
  * `Lawful.abandoned_between`: between two runs of a module the first failed;
  * `Lawful.not_after_committed`: nothing befalls a loaded module.
-/
import Mathlib.Tactic.Common
import Requisite.Machine.World

namespace Requisite.Machine

open Requisite Requisite.Loader

/-- How far a module has come. -/
inductive Stage where
  | absent
  | reserved
  /-- its script runs -/
  | running
  | loaded
deriving DecidableEq, Repr

/-- The state on record of a module. -/
def Stage.state? : Stage → Option LoadState
  | absent => none
  | reserved | running => some .resolving
  | loaded => some .loaded

namespace Action

/-- The module that an action brings to another stage. -/
def subject? : Action → Option Path
  | reserved p | entered p | committed p | abandoned p => some p
  | indexHit _ | recordHit _ _ => none

/-- Whether an action brings the module at a place to another stage. -/
def Befalls (a : Action) (place : List Component) : Prop :=
  ∃ p, a.subject? = some p ∧ p.components = place

instance (a : Action) (place : List Component) : Decidable (a.Befalls place) :=
  decidable_of_iff (∃ p ∈ a.subject?, p.components = place) (by simp [Befalls])

/-- The stage that an action brings its module to, from the stage `s`. -/
def after (s : Stage) : Action → Stage
  | reserved _ => .reserved
  | entered _ => .running
  | committed _ => .loaded
  | abandoned _ => .absent
  | indexHit _ | recordHit _ _ => s

/-- Whether an action finds its module in the stage it should. -/
def Fits (s : Stage) : Action → Prop
  | reserved _ => s = .absent
  | entered _ => s = .reserved
  | committed _ => s = .running
  | abandoned _ => s = .reserved ∨ s = .running
  | indexHit _ | recordHit _ _ => True

end Action

/-- The stage of the module at a place, by what the journal tells of it last. -/
def stageAt (place : List Component) : List Event → Stage
  | [] => .absent
  | e :: older =>
    if e.action.Befalls place then e.action.after (stageAt place older) else stageAt place older

/-- Every action in a journal found its module in the stage it should. -/
def Lawful : List Event → Prop
  | [] => True
  | e :: older => (∀ place, e.action.Befalls place → e.action.Fits (stageAt place older)) ∧ Lawful older

section
variable {place : List Component} {older : List Event}

/-- What befalls other modules only does not count. -/
theorem stageAt_append {news : List Event} (h : ∀ e ∈ news, ¬e.action.Befalls place) :
    stageAt place (news ++ older) = stageAt place older := by
  induction news with
  | nil => rfl
  | cons e news ih =>
    simp only [List.mem_cons, forall_eq_or_imp] at h
    rw [List.cons_append, stageAt, if_neg h.1, ih h.2]

/-- A module that has become loaded was committed. -/
theorem committed_of_stageAt {news : List Event} (h : stageAt place (news ++ older) = .loaded)
    (ho : stageAt place older ≠ .loaded) :
    ∃ e ∈ news, ∃ p, e.action = .committed p ∧ p.components = place := by
  induction news with
  | nil => exact absurd h ho
  | cons e news ih =>
    have hrest (hs : stageAt place (news ++ older) = .loaded) :
        ∃ e' ∈ e :: news, ∃ p, e'.action = .committed p ∧ p.components = place := by
      obtain ⟨e', he', hp⟩ := ih hs
      exact ⟨e', List.mem_cons_of_mem _ he', hp⟩
    rw [List.cons_append, stageAt] at h
    split at h
    · next hb =>
      obtain ⟨p, hp, hpl⟩ := hb
      cases ha : e.action with
      | committed q =>
        rw [ha] at hp
        cases hp
        exact ⟨e, List.mem_cons_self, p, ha, hpl⟩
      | reserved q | entered q | abandoned q => simp [ha, Action.after] at h
      | indexHit _ | recordHit _ _ =>
        rw [ha] at h
        exact hrest h
    · exact hrest h

theorem Lawful.of_append {news : List Event} (h : Lawful (news ++ older)) : Lawful older := by
  induction news with
  | nil => exact h
  | cons e news ih => exact ih h.2

/-- Nothing befalls a loaded module. -/
theorem Lawful.not_befalls {news : List Event} (h : Lawful (news ++ older))
    (hs : stageAt place older = .loaded) : ∀ e ∈ news, ¬e.action.Befalls place := by
  induction news with
  | nil => simp
  | cons e news ih =>
    rw [List.cons_append, Lawful] at h
    have hn := ih h.2
    intro e' he' hb
    rcases List.mem_cons.1 he' with rfl | he'
    · have hf := h.1 place hb
      rw [stageAt_append hn, hs] at hf
      obtain ⟨p, hp, -⟩ := hb
      cases ha : e'.action <;> simp_all [Action.Fits, Action.subject?]
    · exact hn e' he' hb

/-- A module whose script runs keeps running or is loaded, unless it is abandoned. -/
theorem Lawful.stageAt_append {news : List Event} (h : Lawful (news ++ older))
    (hs : stageAt place older = .running ∨ stageAt place older = .loaded)
    (hn : ∀ e ∈ news, ∀ p, e.action = .abandoned p → p.components ≠ place) :
    stageAt place (news ++ older) = .running ∨ stageAt place (news ++ older) = .loaded := by
  induction news with
  | nil => exact hs
  | cons e news ih =>
    rw [List.cons_append, Lawful] at h
    have hi := ih h.2 fun e' he' => hn e' (List.mem_cons_of_mem _ he')
    rw [List.cons_append, stageAt]
    split
    · next hb =>
      have hf := h.1 place hb
      obtain ⟨p, hp, hpl⟩ := hb
      cases ha : e.action with
      | abandoned q =>
        rw [ha] at hp
        obtain rfl := Option.some.inj hp
        exact absurd hpl (hn e (by simp) q ha)
      | committed q => exact .inr rfl
      | entered q => exact .inl rfl
      | reserved q => rw [ha] at hf; rcases hi with hi | hi <;> simp [Action.Fits, hi] at hf
      | indexHit id => simpa [Action.after] using hi
      | recordHit q s => simpa [Action.after] using hi
    · exact hi

/-- **Between two runs of a module the first failed.** -/
theorem Lawful.abandoned_between {late middle early : List Event} {e₁ e₂ : Event} {p q : Path}
    (h : Lawful (late ++ e₂ :: (middle ++ e₁ :: early))) (h₁ : e₁.action = .entered p)
    (h₂ : e₂.action = .entered q) (hpq : q.components = p.components) :
    ∃ e ∈ middle, ∃ a, e.action = .abandoned a ∧ a.components = p.components := by
  by_contra hn
  push Not at hn
  have hl : Lawful (e₂ :: (middle ++ e₁ :: early)) := h.of_append
  have hs : stageAt p.components (e₁ :: early) = .running := by
    have hb : e₁.action.Befalls p.components := ⟨p, by rw [h₁]; rfl, rfl⟩
    rw [stageAt, if_pos hb, h₁]
    rfl
  have hf : e₂.action.Fits (stageAt p.components (middle ++ e₁ :: early)) :=
    hl.1 _ ⟨q, by rw [h₂]; rfl, hpq⟩
  have hm := hl.2.stageAt_append (.inl hs) hn
  rw [h₂] at hf
  rcases hm with hm | hm <;> simp [Action.Fits, hm] at hf

/-- **Nothing befalls a module after it is loaded.** -/
theorem Lawful.not_after_committed {late early : List Event} {e₁ : Event} {p : Path}
    (h : Lawful (late ++ e₁ :: early)) (h₁ : e₁.action = .committed p) :
    ∀ e ∈ late, ¬e.action.Befalls p.components := by
  refine h.not_befalls ?_
  have hb : e₁.action.Befalls p.components := ⟨p, by rw [h₁]; rfl, rfl⟩
  rw [stageAt, if_pos hb, h₁]
  rfl

end

end Requisite.Machine
