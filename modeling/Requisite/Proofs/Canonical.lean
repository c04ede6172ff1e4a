/-
  Normal forms of all paths.

  A relative path in normal form goes up some steps and then down names; where it
  leads is the same from every directory as for the path that it came from.  So
  it does not matter whether a path, or the directory that it is seen from, is
  put in normal form before the two are joined.

  * `Path.segments`, `Path.IsCanonical`: what stands between the slashes of a
    path, and what a normal form may have there;
  * `Path.exists_climb`: a relative path in normal form;
  * `Path.foldl_push_foldl_push`: going where some steps lead is going the steps;
  * `Path.normalComponents_normalize`: the components of a normal form;
  * `Path.normalize_laws`: the laws of normal forms and of joining.
-/
import Requisite.Proofs.Normal

namespace Requisite.Path

/-! ## Segments -/

/-- The segments of a path: what stands between its slashes, for an absolute path after the slash
    that it begins with.  The root has none. -/
def segments (p : Path) : List (List Char) :=
  if p.text = "/" then []
  else if p.isAbsolute then (pieces '/' p.text.toList).tail
  else pieces '/' p.text.toList

/-- A path as short as can be: no segment is empty, none is `.` unless that is all, there is no
    slash at the end but that of the root, and `..` stands only at the beginning of a relative
    path. -/
structure IsCanonical (p : Path) : Prop where
  current : ['.'] ∈ p.segments → p.text = "."
  nil_notMem : [] ∉ p.segments
  trailing : p.text.toList.getLast? = some '/' → p.text = "/"
  parents : ∃ k rest, p.segments = List.replicate k ['.', '.'] ++ rest ∧ ['.', '.'] ∉ rest ∧
    (p.isAbsolute → k = 0)

/-- After a slash at the end there is an empty segment, unless the slash is the root. -/
theorem nil_mem_segments {p : Path} (h : p.text.toList.getLast? = some '/') (hroot : p.text ≠ "/") :
    [] ∈ p.segments := by
  obtain ⟨front, hfront⟩ := List.getLast?_eq_some_iff.1 h
  have hpieces : pieces '/' p.text.toList = pieces '/' front ++ [[]] := by
    rw [hfront, pieces_append]
    rfl
  rw [segments, if_neg hroot, hpieces]
  split
  · rw [List.tail_append_of_ne_nil (pieces_ne_nil '/' front)]
    exact List.mem_append_right _ List.mem_cons_self
  · exact List.mem_append_right _ List.mem_cons_self

/-- The segments of a path that goes up `k` times and then down the names. -/
def climb (k : Nat) (names : List (List Char)) : List (List Char) :=
  List.replicate k ['.', '.'] ++ names

section
variable {k : Nat} {names : List (List Char)} (hnames : ∀ s ∈ names, IsName s)
include hnames

theorem of_mem_climb {s : List Char} (hs : s ∈ climb k names) :
    s ≠ [] ∧ s ≠ ['.'] ∧ '/' ∉ s := by
  rcases List.mem_append.1 hs with hs | hs
  · rw [List.eq_of_mem_replicate hs]
    decide
  · exact ⟨(hnames s hs).ne_nil, (hnames s hs).ne_current, (hnames s hs).slash_notMem⟩

theorem filterMap_climb : (climb k names).filterMap Component.ofSegment? =
    List.replicate k .parent ++ names.map named := by
  rw [climb, List.filterMap_append, filterMap_ofSegment? hnames]
  simp [Component.ofSegment?]

/-- Steps up and then names are all that a canonical path has. -/
theorem isCanonical_of_segments {p : Path} (h : p.segments = climb k names)
    (hk : p.isAbsolute → k = 0) : p.IsCanonical := by
  have hmem {s : List Char} (hs : s ∈ p.segments) := of_mem_climb hnames (h ▸ hs)
  have hnil : [] ∉ p.segments := fun hs => (hmem hs).1 rfl
  refine ⟨fun hs => absurd rfl (hmem hs).2.1, hnil, fun hlast => ?_, k, names, h, ?_, hk⟩
  · exact Decidable.byContradiction fun hroot => hnil (nil_mem_segments hlast hroot)
  · exact fun hs => (hnames _ hs).ne_parent rfl

end

/-- The segments of an absolute path in normal form are its names. -/
theorem segments_below {names : List (List Char)} (h : ∀ s ∈ names, IsName s) :
    (below names).segments = names := by
  by_cases hne : names = []
  · subst hne
    rfl
  · have hroot : (below names).text ≠ "/" := by
      intro ht
      exact getLast?_below hne h (by rw [ht]; rfl)
    rw [segments, if_neg hroot, if_pos isAbsolute_below, pieces_below hne h, List.tail_cons]

/-! ## Where steps lead -/

theorem root_notMem_push {path : List Component} {c : Component} (hc : c ≠ .root)
    (h : .root ∉ path) : .root ∉ push path c := by
  cases c with
  | root => exact absurd rfl hc
  | current => exact h
  | name s => simpa [push] using h
  | parent =>
    rcases path with _ | ⟨d, path⟩
    · simp [push]
    · cases d with
      | name s => exact fun hmem => h (List.mem_cons_of_mem _ hmem)
      | root => exact absurd List.mem_cons_self h
      | current | parent => simpa [push] using h

/-- One step more, after the steps that have been put together so far.  Only a root among them
    would hold a step up. -/
theorem foldl_push_push {done : List Component} (h : .root ∉ done) {c : Component} (hc : c ≠ .root)
    (path : List Component) :
    (push done c).reverse.foldl push path = push (done.reverse.foldl push path) c := by
  have hlast (d : Component) (done : List Component) :
      (d :: done).reverse.foldl push path = push (done.reverse.foldl push path) d := by
    rw [List.reverse_cons, List.foldl_append, List.foldl_cons, List.foldl_nil]
  cases c with
  | root => exact absurd rfl hc
  | current => rfl
  | name s => exact hlast _ _
  | parent =>
    rcases done with _ | ⟨d, done⟩
    · rfl
    · cases d with
      | name s =>
        -- the name is taken back, here and on the path
        rw [hlast]
        rfl
      | root => exact absurd List.mem_cons_self h
      | current | parent => exact hlast _ _

/-- **Going where some steps lead is going the steps**, from wherever one starts. -/
theorem foldl_push_foldl_push {cs : List Component} (h : .root ∉ cs) (path : List Component) :
    (cs.foldl push []).reverse.foldl push path = cs.foldl push path := by
  suffices hgo : ∀ done : List Component, .root ∉ done →
      (cs.foldl push done).reverse.foldl push path =
        cs.foldl push (done.reverse.foldl push path) from
    hgo [] List.not_mem_nil
  induction cs with
  | nil => exact fun _ _ => rfl
  | cons c cs ih =>
    rw [List.mem_cons, not_or] at h
    intro done hdone
    rw [List.foldl_cons, List.foldl_cons, ih h.2 _ (root_notMem_push (Ne.symm h.1) hdone),
      foldl_push_push hdone (Ne.symm h.1)]

/-! ## Relative paths in normal form -/

theorem ne_root_of_ofSegment? {s : List Char} {c : Component}
    (hc : Component.ofSegment? s = some c) : c ≠ .root := by
  unfold Component.ofSegment? at hc
  split at hc
  · cases hc
  · split at hc <;> cases hc <;> nofun

theorem root_notMem_steps (p : Path) : .root ∉ p.steps := by
  intro hmem
  obtain ⟨s, -, hs⟩ := List.mem_filterMap.1 hmem
  exact ne_root_of_ofSegment? hs rfl

/-- A relative path that is put together, given in reverse: names below steps up. -/
def Climbing (path : List Component) : Prop :=
  ∃ (names : List (List Char)) (k : Nat), (∀ s ∈ names, IsName s) ∧
    path = names.map named ++ List.replicate k .parent

/-- A name is put below, and `..` takes back a name or goes up one step more. -/
theorem Climbing.push {path : List Component} (h : Climbing path) {s : List Char} {c : Component}
    (hs : '/' ∉ s) (hc : Component.ofSegment? s = some c) : Climbing (push path c) := by
  obtain ⟨names, k, hnames, rfl⟩ := h
  rcases eq_parent_or_named hs hc with rfl | ⟨hname, rfl⟩
  · cases names with
    | nil => exact ⟨[], k + 1, hnames, by cases k <;> rfl⟩
    | cons t names => exact ⟨names, k, (List.forall_mem_cons.1 hnames).2, rfl⟩
  · exact ⟨s :: names, k, List.forall_mem_cons.2 ⟨hname, hnames⟩, rfl⟩

theorem ofComponents_of_root_notMem {cs : List Component} (h : .root ∉ cs) :
    ofComponents cs = ⟨String.ofList (joinSegments (cs.map Component.segment))⟩ := by
  unfold ofComponents
  split
  · exact absurd List.mem_cons_self h
  · rfl

section
variable {p : Path} (h : p.isAbsolute = false)
include h

/-- **A relative path in normal form** goes up some steps and then down names; if it does neither it
    is written `.`. -/
theorem exists_climb : ∃ k names, (∀ s ∈ names, IsName s) ∧
    p.normalComponents = (climb k names).filterMap Component.ofSegment? ∧
    (p.normalComponents = [] ∧ p.normalize = ⟨"."⟩ ∨
      pieces '/' p.normalize.text.toList = climb k names) := by
  have hstart : Climbing [] := ⟨[], 0, by simp, rfl⟩
  obtain ⟨names, k, hnames, hfold⟩ :=
    foldl_push_of_push (P := Climbing) Climbing.push hstart
      fun s (hs : s ∈ pieces '/' p.text.toList) => notMem_of_mem_pieces hs
  have hnames' : ∀ s ∈ names.reverse, IsName s := fun s hs => hnames s (List.mem_reverse.1 hs)
  have hnormal : p.normalComponents = List.replicate k .parent ++ names.reverse.map named := by
    rw [normalComponents, foldl_push_components h, steps, hfold]
    simp
  refine ⟨k, names.reverse, hnames', by rw [hnormal, filterMap_climb hnames'], ?_⟩
  by_cases hne : p.normalComponents = []
  · exact .inl ⟨hne, by simp [normalize, hne]⟩
  · have hsegments : p.normalComponents.map Component.segment = climb k names.reverse := by
      simp [hnormal, climb, named, Component.segment, Function.comp_def]
    have hroot : .root ∉ p.normalComponents := by
      rw [hnormal]
      simp [named]
    have htext : p.normalize = ⟨String.ofList (joinSegments (climb k names.reverse))⟩ := by
      rw [← hsegments, ← ofComponents_of_root_notMem hroot]
      unfold normalize
      split
      · next he => exact absurd he hne
      · rfl
    have hne' : climb k names.reverse ≠ [] := by
      rw [← hsegments]
      exact mt List.map_eq_nil_iff.1 hne
    rw [htext, String.toList_ofList]
    exact .inr (pieces_joinSegments hne' fun s hs => (of_mem_climb hnames' hs).2.2)

theorem isAbsolute_normalize_of_relative : p.normalize.isAbsolute = false := by
  obtain ⟨k, names, hnames, -, ⟨-, hdot⟩ | hpieces⟩ := exists_climb h
  · rw [hdot]
    rfl
  · rw [← Bool.not_eq_true]
    intro habs
    obtain ⟨rest, hrest⟩ := pieces_of_isAbsolute habs
    have hmem : [] ∈ climb k names := by
      rw [← hpieces, hrest]
      exact List.mem_cons_self
    exact (of_mem_climb hnames hmem).1 rfl

/-- The steps of the normal form are its components. -/
theorem steps_normalize : p.normalize.steps = p.normalComponents := by
  obtain ⟨k, names, hnames, hnormal, ⟨hnil, hdot⟩ | hpieces⟩ := exists_climb h
  · rw [hdot, hnil]
    rfl
  · rw [steps, hpieces, hnormal]

end

/-! ## Laws -/

theorem isAbsolute_normalize (p : Path) : p.normalize.isAbsolute = p.isAbsolute := by
  cases h : p.isAbsolute with
  | true => exact (isNormal_normalize h).isAbsolute
  | false => exact isAbsolute_normalize_of_relative h

theorem isCanonical_normalize (p : Path) : p.normalize.IsCanonical := by
  cases h : p.isAbsolute with
  | true =>
    obtain ⟨names, hnames, hp⟩ := isNormal_normalize h
    refine isCanonical_of_segments hnames (k := 0) ?_ fun _ => rfl
    rw [hp, segments_below hnames]
    rfl
  | false =>
    have habs := isAbsolute_normalize_of_relative h
    obtain ⟨k, names, hnames, -, ⟨-, hdot⟩ | hpieces⟩ := exists_climb h
    · rw [hdot]
      exact ⟨fun _ => rfl, by decide, by decide, 0, [['.']], rfl, by decide, fun _ => rfl⟩
    · refine isCanonical_of_segments hnames (k := k) ?_ fun ha => ?_
      · have hroot : p.normalize.text ≠ "/" := by
          intro ht
          rw [isAbsolute, ht] at habs
          exact absurd habs (by decide)
        rw [segments, if_neg hroot, habs, if_neg Bool.false_ne_true, hpieces, climb]
      · rw [habs] at ha
        exact absurd ha Bool.false_ne_true

/-- **A path leads where its normal form leads.** -/
theorem normalComponents_normalize (p : Path) :
    p.normalize.normalComponents = p.normalComponents := by
  cases h : p.isAbsolute with
  | true =>
    obtain ⟨names, hnames, hcomponents⟩ := exists_normalComponents h
    have hp : p.normalize = below names := by simp only [normalize, hcomponents, ofComponents_root]
    rw [hp, hcomponents, normalComponents_below hnames]
  | false =>
    rw [normalComponents, foldl_push_components (isAbsolute_normalize_of_relative h),
      steps_normalize h, normalComponents, foldl_push_components h,
      foldl_push_foldl_push p.root_notMem_steps]

theorem normalize_congr {p q : Path} (h : p.normalComponents = q.normalComponents) :
    p.normalize = q.normalize := by
  unfold normalize
  rw [h]

theorem normalize_normalize (p : Path) : p.normalize.normalize = p.normalize :=
  normalize_congr (normalComponents_normalize p)

theorem join_of_isAbsolute {q : Path} (h : q.isAbsolute) (base : Path) : base.join q = q := if_pos h

/-- A path that is put in normal form is seen from a directory as before. -/
theorem normalize_absolutize (q base : Path) : q.normalize.absolutize base = q.absolutize base := by
  unfold absolutize
  cases h : q.isAbsolute with
  | true =>
    rw [join_of_isAbsolute h, join_of_isAbsolute ((isAbsolute_normalize q).trans h),
      normalize_normalize]
  | false =>
    have hrelative := isAbsolute_normalize_of_relative h
    refine normalize_congr ?_
    rw [normalComponents_join hrelative, normalComponents_join h, steps_normalize h,
      normalComponents, foldl_push_components h, foldl_push_foldl_push q.root_notMem_steps]

/-- A directory that is put in normal form sees a path as before. -/
theorem absolutize_normalize (q base : Path) : q.absolutize base.normalize = q.absolutize base := by
  unfold absolutize
  cases h : q.isAbsolute with
  | true => rw [join_of_isAbsolute h, join_of_isAbsolute h]
  | false =>
    have hbase : base.normalize.components.foldl push [] = base.components.foldl push [] :=
      List.reverse_inj.1 (normalComponents_normalize base)
    refine normalize_congr ?_
    rw [normalComponents_join h, normalComponents_join h, hbase]

/-- **Normal forms.**  The normal form of a path is as short as can be, absolute if and only if the
    path is, and its own normal form.  Seen from a directory, a path leads where its normal form
    leads, and where it leads from the directory's normal form; from an absolute directory every
    path leads to an absolute one. -/
theorem normalize_laws (p base : Path) :
    p.normalize.IsCanonical ∧ p.normalize.isAbsolute = p.isAbsolute ∧
    p.normalize.normalize = p.normalize ∧
    p.normalize.absolutize base = p.absolutize base ∧
    p.absolutize base.normalize = p.absolutize base ∧
    (base.isAbsolute → (p.absolutize base).isAbsolute) :=
  ⟨isCanonical_normalize p, isAbsolute_normalize p, normalize_normalize p,
    normalize_absolutize p base, absolutize_normalize p base,
    fun h => (isNormal_absolutize p h).isAbsolute⟩

/-- Steps up that are left of a path take names off the directory. -/
theorem normalize_laws_upward :
    normalize ⟨"./a//../../b/"⟩ = ⟨"../b"⟩ ∧ isAbsolute ⟨"/x/./y"⟩ ∧
    absolutize ⟨"../b"⟩ ⟨"/x/./y"⟩ = absolutize ⟨"./a//../../b/"⟩ ⟨"/x/./y"⟩ ∧
    isAbsolute (absolutize ⟨"./a//../../b/"⟩ ⟨"/x/./y"⟩) := by
  obtain ⟨-, -, -, hjoin, -, habs⟩ := normalize_laws ⟨"./a//../../b/"⟩ ⟨"/x/./y"⟩
  exact ⟨by decide, by decide, hjoin, habs (by decide)⟩

end Requisite.Path
