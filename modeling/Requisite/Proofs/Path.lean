/-
  Paths below a directory.

  Of a directory only its components matter for the paths seen from it, not how
  they are written.

  * `pieces_append`: the pieces of a text with a separator in it;
  * `Path.normalComponents_join`: the normal form of a path below a directory;
  * `Path.absolutize_congr`: directories with the same components see the same.
-/
import Requisite.Path

namespace Requisite

theorem pieces_ne_nil (sep : Char) (text : List Char) : pieces sep text ≠ [] := by
  cases text with
  | nil => simp [pieces]
  | cons c rest =>
    rw [pieces]
    split
    · simp
    · split <;> simp

/-- What stands before a separator and what stands after it are cut apart. -/
theorem pieces_append (sep : Char) (a b : List Char) :
    pieces sep (a ++ sep :: b) = pieces sep a ++ pieces sep b := by
  induction a with
  | nil => simp [pieces]
  | cons c a ih =>
    rw [List.cons_append, pieces, pieces, ih]
    split
    · rfl
    · rcases h : pieces sep a with _ | ⟨p, ps⟩
      · exact absurd h (pieces_ne_nil sep a)
      · rfl

namespace Path

/-- The components below a directory: a `.` at the start is none of them. -/
def steps (p : Path) : List Component := (pieces '/' p.text.toList).filterMap Component.ofSegment?

/-- The piece before the slash that an absolute path begins with is empty. -/
theorem pieces_of_isAbsolute {p : Path} (h : p.isAbsolute) :
    ∃ rest, pieces '/' p.text.toList = [] :: rest := by
  rcases ht : p.text.toList with _ | ⟨c, rest⟩
  · simp [isAbsolute, ht] at h
  · obtain rfl : c = '/' := by simpa [isAbsolute, ht] using h
    exact ⟨pieces '/' rest, by rw [pieces, if_pos rfl]⟩

/-- The first component is told from the beginning of the text; the others are the steps. -/
theorem components_eq {p : Path} {first : List Char} {rest : List (List Char)}
    (h : pieces '/' p.text.toList = first :: rest) :
    p.components = (if p.isAbsolute then [.root] else if first = ['.'] then [.current]
      else (Component.ofSegment? first).toList) ++ rest.filterMap Component.ofSegment? := by
  unfold components
  rw [h]
  simp only
  split
  · rfl
  · split <;> rfl

/-- Normal forms do not tell the components of a relative path from its steps. -/
theorem foldl_push_components {p : Path} (h : p.isAbsolute = false) :
    p.components.foldl push [] = p.steps.foldl push [] := by
  rcases hp : pieces '/' p.text.toList with _ | ⟨first, rest⟩
  · exact absurd hp (pieces_ne_nil _ _)
  · rw [components_eq hp, steps, hp, h]
    by_cases hf : first = ['.']
    · have hn : Component.ofSegment? first = none := by simp [Component.ofSegment?, hf]
      rw [List.filterMap_cons_none hn]
      simp [hf, push]
    · cases hs : Component.ofSegment? first with
      | none =>
        rw [List.filterMap_cons_none hs]
        simp [hf]
      | some c =>
        rw [List.filterMap_cons_some hs]
        simp [hf]

/-- A text that goes on after a slash adds the steps of what follows. -/
theorem components_append {p q r : Path} {front : List Char} (hp : p.text.toList = front)
    (hne : front ≠ []) (hq : r.text.toList = front ++ '/' :: q.text.toList) :
    r.components = p.components ++ q.steps := by
  rcases hf : pieces '/' front with _ | ⟨first, rest⟩
  · exact absurd hf (pieces_ne_nil _ _)
  · have hr : pieces '/' r.text.toList = first :: (rest ++ pieces '/' q.text.toList) := by
      rw [hq, pieces_append, hf, List.cons_append]
    have ha : r.isAbsolute = p.isAbsolute := by
      cases front with
      | nil => exact absurd rfl hne
      | cons c front => simp [isAbsolute, hp, hq]
    rw [components_eq hr, components_eq (p := p) (by rw [hp, hf]), ha, steps,
      List.filterMap_append, List.append_assoc]

/-- A path below a directory has the components of that and its own steps. -/
theorem components_join {base q : Path} (h : q.isAbsolute = false) (hb : base.text.toList ≠ []) :
    (base.join q).components = base.components ++ q.steps := by
  unfold join
  simp only [h, Bool.false_eq_true, ↓reduceIte, hb, false_or]
  split
  · next hl =>
    obtain ⟨front, hf⟩ := List.getLast?_eq_some_iff.1 hl
    by_cases hne : front = []
    · -- the base is the root itself
      have hbase : base.text.toList = ['/'] := by rw [hf, hne, List.nil_append]
      have hroot : base.components = [.root] := by
        rw [components_eq (p := base) (by rw [hbase]; rfl)]
        simp [isAbsolute, hbase, Component.ofSegment?, pieces]
      have hp : pieces '/' (Path.mk (base.text ++ q.text)).text.toList =
          [] :: pieces '/' q.text.toList := by
        rw [String.toList_append, hbase]
        rfl
      rw [components_eq hp, hroot]
      simp [isAbsolute, hbase, steps]
    · have hcut : base.components = (Path.mk (String.ofList front)).components := by
        rw [components_append (p := ⟨String.ofList front⟩) (q := ⟨""⟩) String.toList_ofList hne
          (by rw [hf]; rfl)]
        simp [steps, pieces, Component.ofSegment?]
      rw [hcut]
      exact components_append String.toList_ofList hne (by simp [hf])
  · exact components_append rfl hb (by simp)

/-- **The normal form of a path below a directory.** -/
theorem normalComponents_join {base q : Path} (h : q.isAbsolute = false) :
    (base.join q).normalComponents =
      (q.steps.foldl push (base.components.foldl push [])).reverse := by
  unfold normalComponents
  by_cases hb : base.text.toList = []
  · have hj : base.join q = q := by
      have ht : base.text = "" := String.toList_inj.1 hb
      simp [join, h, ht]
    have hc : base.components = [] := by
      rw [components_eq (p := base) (by rw [hb]; rfl)]
      simp [isAbsolute, hb, Component.ofSegment?]
    rw [hj, hc, foldl_push_components h, List.foldl_nil]
  · rw [components_join h hb, List.foldl_append]

/-- Directories with the same components see the same. -/
theorem absolutize_congr {base base' : Path} (q : Path) (h : base.components = base'.components) :
    q.absolutize base = q.absolutize base' := by
  unfold absolutize
  cases hq : q.isAbsolute with
  | true => simp [join, hq]
  | false => simp only [normalize, normalComponents_join hq, h]

end Path

end Requisite
