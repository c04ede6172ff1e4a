/-
  Absolute paths in normal form.

  Such a path is the root, or names below it with single slashes between them.
  Its parent is in normal form, and so is what a name or an extension is
  appended to.

  * `Path.IsName`, `Path.below`: names, and the path of names below the root;
  * `Path.IsNormal`: the paths in normal form;
  * `Path.isNormal_normalize`: the normal form of an absolute path is one;
  * `Path.IsNormal.normalize_eq`: a path in normal form is its own normal form;
  * `Path.join_below`: a name joined to such a path is one name more;
  * `Path.IsNormal.of_parent?`, `Path.IsNormal.appendExtension`: what keeps paths
    in normal form.
-/
import Requisite.Proofs.Path

namespace Requisite

/-! ## Pieces -/

theorem pieces_of_notMem {sep : Char} {s : List Char} (h : sep ∉ s) : pieces sep s = [s] := by
  induction s with
  | nil => rfl
  | cons c s ih =>
    rw [List.mem_cons, not_or] at h
    rw [pieces, if_neg (Ne.symm h.1), ih h.2]

theorem notMem_of_mem_pieces {sep : Char} {text s : List Char} (h : s ∈ pieces sep text) :
    sep ∉ s := by
  induction text generalizing s with
  | nil =>
    rw [List.mem_singleton.1 h]
    exact List.not_mem_nil
  | cons c text ih =>
    rw [pieces] at h
    split at h
    · rcases List.mem_cons.1 h with rfl | h
      · exact List.not_mem_nil
      · exact ih h
    · next hc =>
      rcases hp : pieces sep text with _ | ⟨p, ps⟩
      · exact absurd hp (pieces_ne_nil sep text)
      · rw [hp] at h ih
        rcases List.mem_cons.1 h with rfl | h
        · rw [List.mem_cons, not_or]
          exact ⟨Ne.symm hc, ih List.mem_cons_self⟩
        · exact ih (List.mem_cons_of_mem p h)

/-- Only the empty text has nothing but an empty piece. -/
theorem pieces_ne_singleton_nil {sep : Char} {s : List Char} (h : s ≠ []) :
    pieces sep s ≠ [[]] := by
  cases s with
  | nil => exact absurd rfl h
  | cons c s =>
    rw [pieces]
    split
    · exact fun hp => pieces_ne_nil sep s (List.cons.inj hp).2
    · split <;> simp

namespace Path

/-! ## Names below the root -/

/-- A segment that names something. -/
structure IsName (s : List Char) : Prop where
  ne_nil : s ≠ []
  ne_current : s ≠ ['.']
  ne_parent : s ≠ ['.', '.']
  slash_notMem : '/' ∉ s

/-- The component of a segment that is a name. -/
def named (s : List Char) : Component := .name (String.ofList s)

/-- The path of names below the root; without names it is the root. -/
def below (names : List (List Char)) : Path := ⟨String.ofList ('/' :: joinSegments names)⟩

/-- An absolute path in normal form: nothing but names below the root, with single slashes
    between them. -/
def IsNormal (p : Path) : Prop := ∃ names, (∀ s ∈ names, IsName s) ∧ p = below names

theorem joinSegments_append {names : List (List Char)} (hne : names ≠ []) (s : List Char) :
    joinSegments (names ++ [s]) = joinSegments names ++ '/' :: s := by
  induction names with
  | nil => exact absurd rfl hne
  | cons t names ih =>
    cases names with
    | nil => rfl
    | cons u names =>
      have := ih (List.cons_ne_nil u names)
      simp only [List.cons_append, joinSegments] at this ⊢
      rw [this, List.append_assoc]
      rfl

/-- What is appended to the text is appended to the last segment. -/
theorem joinSegments_append_last (names : List (List Char)) (s t : List Char) :
    joinSegments (names ++ [s ++ t]) = joinSegments (names ++ [s]) ++ t := by
  by_cases hne : names = []
  · subst hne
    rfl
  · rw [joinSegments_append hne, joinSegments_append hne, List.append_assoc, List.cons_append]

theorem pieces_joinSegments {names : List (List Char)} (hne : names ≠ [])
    (h : ∀ s ∈ names, '/' ∉ s) : pieces '/' (joinSegments names) = names := by
  induction names with
  | nil => exact absurd rfl hne
  | cons s names ih =>
    obtain ⟨hs, h⟩ := List.forall_mem_cons.1 h
    cases names with
    | nil => exact pieces_of_notMem hs
    | cons t names =>
      rw [joinSegments, pieces_append, pieces_of_notMem hs, ih (List.cons_ne_nil t names) h]
      · rfl
      · exact List.cons_ne_nil t names

section
variable {names : List (List Char)}

@[simp] theorem toList_below : (below names).text.toList = '/' :: joinSegments names :=
  String.toList_ofList

theorem below_nil : below [] = ⟨"/"⟩ := rfl

theorem isAbsolute_below : (below names).isAbsolute := by simp [isAbsolute]

theorem ofSegment?_of_isName {s : List Char} (h : IsName s) :
    Component.ofSegment? s = some (named s) := by
  simp [Component.ofSegment?, named, h.ne_nil, h.ne_current, h.ne_parent]

theorem filterMap_ofSegment? (h : ∀ s ∈ names, IsName s) :
    names.filterMap Component.ofSegment? = names.map named := by
  induction names with
  | nil => rfl
  | cons s names ih =>
    obtain ⟨hs, h⟩ := List.forall_mem_cons.1 h
    rw [List.filterMap_cons_some (ofSegment?_of_isName hs), ih h, List.map_cons]

theorem pieces_below (hne : names ≠ []) (h : ∀ s ∈ names, IsName s) :
    pieces '/' (below names).text.toList = [] :: names := by
  rw [toList_below, pieces, if_pos rfl, pieces_joinSegments hne fun s hs => (h s hs).slash_notMem]

theorem components_below (h : ∀ s ∈ names, IsName s) :
    (below names).components = .root :: names.map named := by
  by_cases hne : names = []
  · subst hne
    rfl
  · rw [components_eq (pieces_below hne h), if_pos isAbsolute_below, filterMap_ofSegment? h,
      List.singleton_append]

theorem fileName?_below {s : List Char} (h : ∀ t ∈ names ++ [s], IsName t) :
    (below (names ++ [s])).fileName? = some (String.ofList s) := by
  rw [fileName?, components_below h, List.map_append, List.map_singleton, ← List.cons_append,
    List.getLast?_concat]
  rfl

/-- Only the root ends with a slash. -/
theorem getLast?_below (hne : names ≠ []) (h : ∀ s ∈ names, IsName s) :
    (below names).text.toList.getLast? ≠ some '/' := by
  intro hlast
  obtain ⟨front, hfront⟩ := List.getLast?_eq_some_iff.1 hlast
  have hpieces := pieces_below hne h
  rw [hfront, pieces_append] at hpieces
  -- the text after the last slash is a piece of it, and no name
  have hmem : [] ∈ names := by
    rcases hf : pieces '/' front with _ | ⟨t, ts⟩
    · exact absurd hf (pieces_ne_nil _ _)
    · rw [hf] at hpieces
      rw [← (List.cons.inj hpieces).2]
      exact List.mem_append_right ts List.mem_cons_self
  exact (h [] hmem).ne_nil rfl

end

/-! ## Normal forms -/

theorem IsNormal.isAbsolute {p : Path} (h : p.IsNormal) : p.isAbsolute := by
  obtain ⟨names, -, rfl⟩ := h
  exact isAbsolute_below

/-- The names of a normal path other than the root, the last one apart. -/
theorem IsNormal.exists_last {p : Path} (h : p.IsNormal) (hroot : p ≠ ⟨"/"⟩) :
    ∃ names s, (∀ t ∈ names ++ [s], IsName t) ∧ p = below (names ++ [s]) := by
  obtain ⟨names, hnames, rfl⟩ := h
  rcases List.eq_nil_or_concat names with rfl | ⟨front, s, rfl⟩
  · exact absurd below_nil hroot
  · rw [List.concat_eq_append] at hnames ⊢
    exact ⟨front, s, hnames, rfl⟩

theorem foldl_push_names (names : List (List Char)) (path : List Component) :
    (names.map named).foldl push path = (names.map named).reverse ++ path := by
  induction names generalizing path with
  | nil => rfl
  | cons s names ih =>
    rw [List.map_cons, List.foldl_cons, ih, List.reverse_cons, List.append_assoc]
    rfl

theorem ofComponents_root (names : List (List Char)) :
    ofComponents (.root :: names.map named) = below names := by
  simp [ofComponents, below, named, Component.segment, Function.comp_def]

theorem normalComponents_below {names : List (List Char)} (h : ∀ s ∈ names, IsName s) :
    (below names).normalComponents = .root :: names.map named := by
  rw [normalComponents, components_below h, List.foldl_cons]
  exact (congrArg List.reverse (foldl_push_names names [.root])).trans (by simp)

/-- **A path in normal form is its own normal form.** -/
theorem IsNormal.normalize_eq {p : Path} (h : p.IsNormal) : p.normalize = p := by
  obtain ⟨names, hnames, rfl⟩ := h
  simp only [normalize, normalComponents_below hnames, ofComponents_root]

/-- A path that is put together below the root, given in reverse. -/
def Rooted (path : List Component) : Prop :=
  ∃ names : List (List Char), (∀ s ∈ names, IsName s) ∧ path = names.map named ++ [.root]

/-- A segment that is a component is a step up or a name. -/
theorem eq_parent_or_named {s : List Char} {c : Component} (hs : '/' ∉ s)
    (hc : Component.ofSegment? s = some c) : c = .parent ∨ IsName s ∧ c = named s := by
  unfold Component.ofSegment? at hc
  split at hc
  · exact nomatch hc
  · next htrivial =>
    rw [not_or] at htrivial
    split at hc
    · cases hc
      exact .inl rfl
    · next hparent =>
      cases hc
      exact .inr ⟨⟨htrivial.1, htrivial.2, hparent, hs⟩, rfl⟩

/-- A name is put below, and `..` takes back a name or stays at the root. -/
theorem Rooted.push {path : List Component} (h : Rooted path) {s : List Char} {c : Component}
    (hs : '/' ∉ s) (hc : Component.ofSegment? s = some c) : Rooted (push path c) := by
  obtain ⟨names, hnames, rfl⟩ := h
  rcases eq_parent_or_named hs hc with rfl | ⟨hname, rfl⟩
  · cases names with
    | nil => exact ⟨[], hnames, rfl⟩
    | cons t names => exact ⟨names, (List.forall_mem_cons.1 hnames).2, rfl⟩
  · exact ⟨s :: names, List.forall_mem_cons.2 ⟨hname, hnames⟩, rfl⟩

/-- What each component keeps, all components of some segments keep. -/
theorem foldl_push_of_push {P : List Component → Prop}
    (hpush : ∀ {path}, P path → ∀ {s c}, '/' ∉ s → Component.ofSegment? s = some c →
      P (push path c))
    {path : List Component} (h : P path) {segments : List (List Char)}
    (hs : ∀ s ∈ segments, '/' ∉ s) :
    P ((segments.filterMap Component.ofSegment?).foldl push path) := by
  induction segments generalizing path with
  | nil => exact h
  | cons s segments ih =>
    obtain ⟨hslash, hs⟩ := List.forall_mem_cons.1 hs
    cases hc : Component.ofSegment? s with
    | none =>
      rw [List.filterMap_cons_none hc]
      exact ih h hs
    | some c =>
      rw [List.filterMap_cons_some hc]
      exact ih (hpush h hslash hc) hs

theorem exists_normalComponents {p : Path} (h : p.isAbsolute) : ∃ names : List (List Char),
    (∀ s ∈ names, IsName s) ∧ p.normalComponents = .root :: names.map named := by
  rcases hp : pieces '/' p.text.toList with _ | ⟨first, rest⟩
  · exact absurd hp (pieces_ne_nil _ _)
  · have hrest : ∀ s ∈ rest, '/' ∉ s := fun s hs =>
      notMem_of_mem_pieces (hp ▸ List.mem_cons_of_mem first hs)
    have hroot : Rooted [.root] := ⟨[], nofun, rfl⟩
    obtain ⟨names, hnames, hfold⟩ :=
      foldl_push_of_push (P := Rooted) Rooted.push hroot hrest
    refine ⟨names.reverse, fun s hs => hnames s (List.mem_reverse.1 hs), ?_⟩
    rw [normalComponents, components_eq hp, if_pos h, List.singleton_append, List.foldl_cons]
    exact (congrArg List.reverse hfold).trans (by simp)

/-- **The normal form of an absolute path.** -/
theorem isNormal_normalize {p : Path} (h : p.isAbsolute) : p.normalize.IsNormal := by
  obtain ⟨names, hnames, hcomponents⟩ := exists_normalComponents h
  exact ⟨names, hnames, by simp only [normalize, hcomponents, ofComponents_root]⟩

theorem isAbsolute_join {base : Path} (q : Path) (h : base.isAbsolute) :
    (base.join q).isAbsolute := by
  unfold join
  split
  · assumption
  · rcases ht : base.text.toList with _ | ⟨c, rest⟩
    · simp [isAbsolute, ht] at h
    · dsimp only
      split <;> simp_all [isAbsolute]

theorem isNormal_absolutize {base : Path} (q : Path) (h : base.isAbsolute) :
    (q.absolutize base).IsNormal :=
  isNormal_normalize (isAbsolute_join q h)

/-! ## Parents and names below -/

theorem dropTrivial_names {names : List (List Char)} (h : ∀ s ∈ names, IsName s) :
    dropTrivial names = names := by
  cases names with
  | nil => rfl
  | cons s names =>
    have hs := h s List.mem_cons_self
    exact List.dropWhile_cons_of_neg (by simp [hs.ne_nil, hs.ne_current])

/-- The parent of a path of names is the path of all but the last. -/
theorem parent?_below {names : List (List Char)} {s : List Char}
    (h : ∀ t ∈ names ++ [s], IsName t) : (below (names ++ [s])).parent? = some (below names) := by
  have hreverse : ∀ t ∈ s :: names.reverse, IsName t := by simpa [or_comm] using h
  have hfront := (List.forall_mem_cons.1 hreverse).2
  unfold parent?
  rw [pieces_below (by simp) h]
  simp only [List.reverse_append, List.reverse_singleton, List.singleton_append,
    dropTrivial_names hreverse, dropTrivial_names hfront]
  cases names with
  | nil => rfl
  | cons t names =>
    have hne : (t :: names).reverse ≠ [] := by simp
    obtain ⟨u, us, hu⟩ := List.exists_cons_of_ne_nil hne
    simp only [hu]
    rw [← hu, List.reverse_reverse]
    rfl

theorem IsNormal.of_parent? {p q : Path} (h : p.IsNormal) (hq : p.parent? = some q) :
    q.IsNormal := by
  by_cases hroot : p = ⟨"/"⟩
  · subst hroot
    exact nomatch hq
  · obtain ⟨names, s, hnames, rfl⟩ := h.exists_last hroot
    rw [parent?_below hnames] at hq
    cases hq
    exact ⟨names, fun t ht => hnames t (List.mem_append_left [s] ht), rfl⟩

theorem join_below {names : List (List Char)} (h : ∀ t ∈ names, IsName t) {s : List Char}
    (hs : IsName s) : (below names).join ⟨String.ofList s⟩ = below (names ++ [s]) := by
  have hrelative : (Path.mk (String.ofList s)).isAbsolute = false := by
    cases s with
    | nil => exact absurd rfl hs.ne_nil
    | cons c s =>
      have hc : '/' ≠ c := fun hc => hs.slash_notMem (hc ▸ List.mem_cons_self)
      simp [isAbsolute, Ne.symm hc]
  unfold join
  rw [if_neg (by simp [hrelative])]
  by_cases hne : names = []
  · subst hne
    simp [below, joinSegments]
  · have hlast := getLast?_below hne h
    rw [toList_below] at hlast ⊢
    rw [if_neg (by simp [hlast])]
    refine congrArg Path.mk (String.toList_inj.1 ?_)
    simp [joinSegments_append hne]

/-! ## Extensions -/

/-- What may follow the last dot of a name. -/
structure IsExtension (ext : String) : Prop where
  ne_nil : ext.toList ≠ []
  dot_notMem : '.' ∉ ext.toList
  slash_notMem : '/' ∉ ext.toList

section
variable {ext : String} (hext : IsExtension ext)
include hext

theorem IsExtension.isName {s : List Char} (hs : '/' ∉ s) : IsName (s ++ '.' :: ext.toList) where
  ne_nil := by simp
  ne_current h := by
    have hlength := congrArg List.length h
    have hpos := List.length_pos_iff.2 hext.ne_nil
    simp only [List.length_append, List.length_cons, List.length_nil] at hlength
    omega
  ne_parent h := by
    -- the last character would be a dot
    obtain ⟨front, c, hc⟩ := List.eq_nil_or_concat ext.toList |>.resolve_left hext.ne_nil
    rw [hc, List.concat_eq_append, ← List.cons_append, ← List.append_assoc] at h
    have hlast := congrArg List.getLast? h
    rw [List.getLast?_concat] at hlast
    obtain rfl : c = '.' := Option.some.inj hlast
    exact hext.dot_notMem (by simp [hc])
  slash_notMem := by simp [hs, hext.slash_notMem]

theorem extensionOf?_dotted (s : List Char) :
    extensionOf? (s ++ '.' :: ext.toList) = if s = [] then none else some ext.toList := by
  rw [extensionOf?, pieces_append, pieces_of_notMem hext.dot_notMem, List.reverse_append,
    List.reverse_singleton, List.singleton_append]
  split
  · next last before more hl =>
    obtain ⟨rfl, hrest⟩ := List.cons.inj hl
    have hempty : before = [] ∧ more = [] ↔ s = [] := by
      constructor
      · rintro ⟨rfl, rfl⟩
        have hpieces : pieces '.' s = [[]] := List.reverse_eq_iff.1 hrest
        exact Decidable.byContradiction fun hs => pieces_ne_singleton_nil hs hpieces
      · rintro rfl
        cases hrest
        exact ⟨rfl, rfl⟩
    simp only [hempty]
  · next hl =>
    have hne : (pieces '.' s).reverse ≠ [] := by simpa using pieces_ne_nil '.' s
    obtain ⟨t, ts, ht⟩ := List.exists_cons_of_ne_nil hne
    exact (hl ext.toList t ts (by rw [ht])).elim

/-- A name with an extension, below names. -/
theorem extension?_below {names : List (List Char)} {s : List Char}
    (h : ∀ t ∈ names ++ [s ++ '.' :: ext.toList], IsName t) :
    (below (names ++ [s ++ '.' :: ext.toList])).extension? = if s = [] then none else some ext := by
  rw [extension?, fileName?_below h, Option.bind_some, String.toList_ofList,
    extensionOf?_dotted hext]
  split <;> simp

/-- With an extension appended, a normal path has that extension, or none if it was the root. -/
theorem IsNormal.appendExtension {p : Path} (h : p.IsNormal) :
    (p.appendExtension ext).IsNormal ∧
      ∀ e, (p.appendExtension ext).extension? = some e → e = ext := by
  obtain ⟨names, s, hs, hp⟩ : ∃ names s, (∀ t ∈ names ++ [s ++ '.' :: ext.toList], IsName t) ∧
      p.appendExtension ext = below (names ++ [s ++ '.' :: ext.toList]) := by
    by_cases hroot : p = ⟨"/"⟩
    · refine ⟨[], [], by simpa using hext.isName List.not_mem_nil, ?_⟩
      subst hroot
      simp [Path.appendExtension, below, joinSegments, ← String.toList_inj]
    · obtain ⟨names, s, hnames, rfl⟩ := h.exists_last hroot
      rw [List.forall_mem_append, List.forall_mem_singleton] at hnames
      refine ⟨names, s, ?_, ?_⟩
      · rw [List.forall_mem_append, List.forall_mem_singleton]
        exact ⟨hnames.1, hext.isName hnames.2.slash_notMem⟩
      · simp [Path.appendExtension, joinSegments_append_last, ← String.toList_inj, below]
  refine ⟨⟨_, hs, hp⟩, fun e he => ?_⟩
  rw [hp, extension?_below hext hs] at he
  split at he
  · exact nomatch he
  · exact (Option.some.inj he).symm

end

end Path

end Requisite
