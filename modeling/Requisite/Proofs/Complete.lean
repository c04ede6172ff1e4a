/-
  Inputs that need not wait.

  Whether an input waits for more lines is told from its characters alone:
  comments are searched like anything else, and so are the arguments of
  commands.  A program need not wait if its comments are plain; a command waits
  if its argument leaves something open.

  * `Laid.closes_eq`: a text is searched as the brackets of its tokens are;
  * `Laid.finished`: what a text ends with, but for white space;
  * `isBalanced_trim`: white space at the ends makes no difference;
  * `hasPlainComments`: comments without brackets and quotes, none of which
    ends the text like an operator;
  * `isComplete_of_accepted`: which inputs need not wait;
  * `accepted_waits`: inputs that wait though nothing is missing.
-/
import Mathlib.Data.List.TakeWhile
import Requisite.Proofs.Brackets
import Requisite.Proofs.Layout
import Requisite.Prompt.Command

namespace Requisite.Source

open Requisite Prompt

/-! ## Kinds of characters -/

theorem mem_of_isMark {c : Char} (h : isMark c) :
    c ∈ ['"', '\'', '(', ')', '[', ']', '\x7b', '\x7d'] := by
  simp only [isMark, isCloser, Bool.or_eq_true, beq_iff_eq] at h
  rcases h with ((rfl | rfl) | h) | (rfl | rfl) | rfl
  · simp
  · simp
  · unfold closer? at h
    split at h <;> simp at h ⊢
  · simp
  · simp
  · simp

/-- The code points of brackets and quotes. -/
def markCodes : List Nat := [0x22, 0x27, 0x28, 0x29, 0x5B, 0x5D, 0x7B, 0x7D]

theorem toNat_mem_markCodes {c : Char} (h : isMark c) : c.toNat ∈ markCodes :=
  List.mem_map_of_mem (f := Char.toNat) (mem_of_isMark h)

/-- The code points of the characters that something has to follow. -/
def continuedCodes : List Nat := [0x5C, 0x2B, 0x2D, 0x2A, 0x2F, 0x3D, 0x2C, 0x7B, 0x28, 0x5B]

theorem toNat_mem_continuedCodes {c : Char} (h : isContinued c) : c.toNat ∈ continuedCodes :=
  List.mem_map_of_mem (f := Char.toNat) (List.contains_iff_mem.1 h)

theorem kinds_of_mem_markCodes : ∀ n ∈ markCodes, isBlank (Char.ofNat n) = false ∧
    (Char.ofNat n).isDigit = false ∧ isIdentifierStart (Char.ofNat n) = false ∧
    isIdentifierContinue (Char.ofNat n) = false := by
  decide +kernel

theorem kinds_of_mem_continuedCodes : ∀ n ∈ continuedCodes, (Char.ofNat n).isDigit = false ∧
    isIdentifierStart (Char.ofNat n) = false ∧ isIdentifierContinue (Char.ofNat n) = false := by
  decide +kernel

theorem isMark_of_isBlank {c : Char} (h : isBlank c) : isMark c = false :=
  eq_false_of_codes toNat_mem_markCodes (fun n hn => (kinds_of_mem_markCodes n hn).1) h

/-- The characters of numbers are neither brackets nor quotes. -/
theorem isMark_of_isNumeral {cs : List Char} (h : IsNumeral cs) : ∀ c ∈ cs, isMark c = false := by
  intro c hc
  rcases h.mem hc with hc | hc
  · exact eq_false_of_codes toNat_mem_markCodes (fun n hn => (kinds_of_mem_markCodes n hn).2.1) hc
  · revert hc
    simp only [List.mem_cons, List.not_mem_nil, or_false]
    rintro (rfl | rfl | rfl | rfl | rfl) <;> rfl

theorem mem_of_isWord {cs : List Char} (h : isWord cs) {c : Char} (hc : c ∈ cs) :
    isIdentifierStart c ∨ isIdentifierContinue c := by
  cases cs with
  | nil => cases hc
  | cons d cs =>
    obtain ⟨hd, hcs⟩ := Bool.and_eq_true_iff.1 h
    rcases List.mem_cons.1 hc with rfl | hc
    · exact .inl hd
    · exact .inr (List.all_eq_true.1 hcs c hc)

theorem isMark_of_isWord {cs : List Char} (h : isWord cs) : ∀ c ∈ cs, isMark c = false := by
  intro c hc
  have hkinds := fun n hn => (kinds_of_mem_markCodes n hn).2.2
  rcases mem_of_isWord h hc with hc | hc
  · exact eq_false_of_codes toNat_mem_markCodes (fun n hn => (hkinds n hn).1) hc
  · exact eq_false_of_codes toNat_mem_markCodes (fun n hn => (hkinds n hn).2) hc

/-- Whether an input may end with the character. -/
def mayEnd (c : Char) : Bool := !isBlank c && !isContinued c

theorem mayEnd_of_isDigit {c : Char} (h : c.isDigit) : mayEnd c := by
  have hblank : isBlank c = false := isBlank_of_isDigit h
  have hcontinued : isContinued c = false :=
    eq_false_of_codes toNat_mem_continuedCodes
      (fun n hn => (kinds_of_mem_continuedCodes n hn).1) h
  simp [mayEnd, hblank, hcontinued]

theorem mayEnd_of_isWord {cs : List Char} (h : isWord cs) {c : Char} (hc : c ∈ cs) :
    mayEnd c := by
  have hblank : isBlank c = false :=
    (mem_of_isWord h hc).elim isBlank_of_isIdentifierStart isBlank_of_isIdentifierContinue
  have hcontinued : isContinued c = false := by
    have hkinds := fun n hn => (kinds_of_mem_continuedCodes n hn).2
    rcases mem_of_isWord h hc with hc | hc
    · exact eq_false_of_codes toNat_mem_continuedCodes (fun n hn => (hkinds n hn).1) hc
    · exact eq_false_of_codes toNat_mem_continuedCodes (fun n hn => (hkinds n hn).2) hc
  simp [mayEnd, hblank, hcontinued]

theorem isBlank_of_mayEnd {c : Char} (h : mayEnd c) : isBlank c = false := by
  simp only [mayEnd, Bool.and_eq_true, Bool.not_eq_true'] at h
  exact h.1

/-! ## Searching a text -/

section
variable {quote : Char} {rest value : List Char} {n : Nat}

/-- The search leaves a string where the scanner does, after its closing quote. -/
theorem closes_scanQuoted (h : scanQuoted quote rest = (some value, n)) :
    (rest.take n).getLast? = some quote ∧
      ∀ awaited, closes awaited (some quote) rest = closes awaited none (rest.drop n) := by
  fun_induction scanQuoted quote rest generalizing value n with
  | case1 => cases h
  | case2 => cases h
  | case3 c rest v m hv ih =>
    obtain ⟨hvalue, rfl⟩ := Prod.mk.inj h
    obtain ⟨u, rfl, -⟩ := Option.map_eq_some_iff.1 hvalue
    obtain ⟨hlast, hcloses⟩ := ih hv
    exact ⟨by simp [List.take_succ_cons, List.getLast?_cons, hlast], hcloses⟩
  | case4 => cases h
  | case5 rest =>
    cases h
    exact ⟨rfl, fun awaited => by simp [closes]⟩
  | case6 c rest hend hescape hline hquote v m hv ih =>
    obtain ⟨hvalue, rfl⟩ := Prod.mk.inj h
    obtain ⟨u, rfl, -⟩ := Option.map_eq_some_iff.1 hvalue
    obtain ⟨hlast, hcloses⟩ := ih hv
    refine ⟨by simp [List.take_succ_cons, List.getLast?_cons, hlast], fun awaited => ?_⟩
    have hstep : closes awaited (some quote) (c :: rest) = closes awaited (some quote) rest := by
      simp [closes, hquote]
    exact hstep.trans (hcloses awaited)

end

section
variable {c : Char} {rest : List Char} {t : Token} {n : Nat}

/-- A symbol is a bracket or has none in it. -/
theorem isMark_symbol (s : Symbol) :
    (∀ c ∈ s.chars, isMark c) ∨ ∀ c ∈ s.chars, isMark c = false := by
  have h : s.chars.all isMark ∨ s.chars.all fun c => !isMark c := by
    cases s <;> decide
  simpa using h

theorem brackets_ofWord (s : String) : (Token.ofWord s).brackets = [] := by
  rcases Token.ofWord_cases s with ⟨b, h⟩ | h | ⟨k, h⟩ | h <;> rw [h] <;> rfl

/-- The search finds the brackets of the token that comes first. -/
theorem closes_scanned (h : Scanned c rest t n) (awaited : List Char) :
    closes awaited none (c :: rest) = closes awaited none (t.brackets ++ rest.drop n) := by
  have hsplit : c :: rest = (c :: rest.take n) ++ rest.drop n := by
    rw [List.cons_append, List.take_append_drop]
  cases h with
  | @symbol s _ hchars =>
    rw [hsplit, hchars, Token.brackets]
    rcases isMark_symbol s with hmark | hplain
    · rw [List.filter_eq_self.2 hmark]
    · have hbrackets : s.chars.filter isMark = [] :=
        List.filter_eq_nil_iff.2 fun c hc => Bool.eq_false_iff.1 (hplain c hc)
      rw [closes_append_plain hplain, hbrackets, List.nil_append]
  | string hquote hquoted =>
    refine Eq.trans ?_ ((closes_scanQuoted hquoted).2 awaited)
    rcases hquote with rfl | rfl <;> rfl
  | number hnumeral =>
    rw [hsplit, closes_append_plain (isMark_of_isNumeral hnumeral)]
    rfl
  | word hword =>
    rw [hsplit, closes_append_plain (isMark_of_isWord hword), brackets_ofWord, List.nil_append]

/-- The last character of a token is no white space, and may end a program if the token may. -/
theorem last_scanned (h : Scanned c rest t n) :
    ∃ d, (c :: rest.take n).getLast? = some d ∧ isBlank d = false ∧ (t.finishes → mayEnd d) := by
  cases h with
  | @symbol s _ hchars =>
    rw [hchars]
    cases s <;> exact ⟨_, rfl, rfl, by decide⟩
  | string hquote hquoted =>
    refine ⟨c, by simp [List.getLast?_cons, (closes_scanQuoted hquoted).1], ?_⟩
    rcases hquote with rfl | rfl <;> exact ⟨rfl, fun _ => rfl⟩
  | number hnumeral =>
    obtain ⟨ds, d, hds, hd⟩ := hnumeral.endsInDigit
    exact ⟨d, by rw [hds, List.getLast?_concat], isBlank_of_isDigit hd,
      fun _ => mayEnd_of_isDigit hd⟩
  | word hword =>
    have hlast := mayEnd_of_isWord hword (List.getLast_mem (List.cons_ne_nil _ _))
    exact ⟨_, List.getLast?_eq_some_getLast (List.cons_ne_nil _ _), isBlank_of_mayEnd hlast,
      fun _ => hlast⟩

end

/-- Brackets are passed in the same way whatever follows. -/
theorem closes_cons_congr {c : Char} (hdouble : c ≠ '"') (hsingle : c ≠ '\'') {xs ys : List Char}
    (h : ∀ awaited, closes awaited none xs = closes awaited none ys) (awaited : List Char) :
    closes awaited none (c :: xs) = closes awaited none (c :: ys) := by
  simp only [closes, hdouble, hsingle, decide_false, Bool.or_self, Bool.false_eq_true, if_false]
  repeat' split
  all_goals first | exact h _ | rfl

theorem closes_brackets_congr (t : Token) {xs ys : List Char}
    (h : ∀ awaited, closes awaited none xs = closes awaited none ys) (awaited : List Char) :
    closes awaited none (t.brackets ++ xs) = closes awaited none (t.brackets ++ ys) := by
  have hquotes : ∀ c ∈ t.brackets, c ≠ '"' ∧ c ≠ '\'' := by
    have h : t.brackets.all fun c => c != '"' && c != '\'' := by
      cases t with
      | symbol s => cases s <;> decide
      | _ => rfl
    simpa using h
  generalize t.brackets = cs at hquotes
  induction cs generalizing awaited with
  | nil => exact h awaited
  | cons c cs ih =>
    obtain ⟨⟨hdouble, hsingle⟩, hcs⟩ := List.forall_mem_cons.1 hquotes
    exact closes_cons_congr hdouble hsingle (fun awaited => ih awaited hcs) awaited

/-! ## Texts -/

section
variable {gs : List (List Char)} {ts : List Token} {cs : List Char}

/-- **A text is searched as the brackets of its tokens are**, if its comments have none. -/
theorem Laid.closes_eq (h : Laid gs ts cs) (hts : .invalid ∉ ts)
    (hgs : ∀ gap ∈ gs, ∀ c ∈ gap, isMark c = false) (awaited : List Char) :
    closes awaited none cs = closes awaited none (ts.flatMap Token.brackets) := by
  induction h generalizing awaited with
  | last gap =>
    rw [closes_of_plain (hgs gap List.mem_cons_self), List.flatMap_nil, closes]
  | @token c rest gap t n gs ts hscan _ ih =>
    obtain ⟨hgap, hgs⟩ := List.forall_mem_cons.1 hgs
    rw [List.mem_cons, not_or] at hts
    rw [closes_append_plain hgap, closes_scanned (scanned_of_scan hscan (Ne.symm hts.1)),
      List.flatMap_cons]
    exact closes_brackets_congr t (fun awaited => ih hts.2 hgs awaited) awaited

end

/-! ## Ends of texts -/

/-- The last character that is not white space. -/
def lastInk (cs : List Char) : Option Char := cs.reverse.find? fun c => !isBlank c

theorem lastInk_append (cs ds : List Char) : lastInk (cs ++ ds) = (lastInk ds).or (lastInk cs) := by
  rw [lastInk, List.reverse_append, List.find?_append]
  rfl

theorem lastInk_of_isBlank {cs : List Char} (h : ∀ c ∈ cs, isBlank c) : lastInk cs = none := by
  rw [lastInk, List.find?_eq_none]
  intro c hc
  simp [h c (List.mem_reverse.1 hc)]

/-- A text is its trimmed text with white space around it. -/
theorem exists_trim (cs : List Char) :
    ∃ before after, cs = before ++ (trim cs ++ after) ∧ (∀ c ∈ before, isBlank c) ∧
      ∀ c ∈ after, isBlank c := by
  have hstart := (List.takeWhile_append_dropWhile (p := isBlank) (l := cs)).symm
  have hend := (List.takeWhile_append_dropWhile (p := isBlank) (l := (trimStart cs).reverse)).symm
  rw [List.reverse_eq_iff, List.reverse_append] at hend
  refine ⟨_, _, hstart.trans (congrArg _ hend), ?_, fun c hc => ?_⟩
  · exact List.all_eq_true.1 List.all_takeWhile
  · exact List.all_eq_true.1 List.all_takeWhile c (List.mem_reverse.1 hc)

theorem getLast?_trim (cs : List Char) : (trim cs).getLast? = lastInk cs := by
  have hblank : ∀ c ∈ cs.takeWhile isBlank, isBlank c := List.all_eq_true.1 List.all_takeWhile
  calc (trim cs).getLast? = ((trimStart cs).reverse.dropWhile isBlank).head? :=
        List.getLast?_reverse
    _ = lastInk (trimStart cs) := (List.find?_not_eq_head?_dropWhile ..).symm
    _ = lastInk (cs.takeWhile isBlank ++ trimStart cs) := by
        rw [lastInk_append, lastInk_of_isBlank hblank, Option.or_none]
    _ = lastInk cs := by rw [trimStart, List.takeWhile_append_dropWhile]

/-- Nothing has to follow the text. -/
def Finished (cs : List Char) : Prop := ∀ c ∈ lastInk cs, isContinued c = false

namespace Finished

variable {cs ds : List Char}

theorem append (h : Finished cs) (h' : Finished ds) : Finished (cs ++ ds) := by
  unfold Finished at *
  rw [lastInk_append]
  cases hds : lastInk ds with
  | none => exact h
  | some d =>
    rw [hds] at h'
    exact h'

theorem of_mayEnd {d : Char} (hd : mayEnd d) (h : ds.getLast? = some d) (cs : List Char) :
    Finished (cs ++ ds) := by
  simp only [mayEnd, Bool.and_eq_true, Bool.not_eq_true'] at hd
  obtain ⟨before, rfl⟩ := List.getLast?_eq_some_iff.1 h
  have hink : lastInk (cs ++ (before ++ [d])) = some d := by
    simp [lastInk, hd.1]
  intro c hc
  obtain rfl : d = c := Option.some.inj (hink.symm.trans hc)
  exact hd.2

end Finished

theorem Laid.finished {gs : List (List Char)} {ts : List Token} {cs : List Char}
    (h : Laid gs ts cs) (hgs : ∀ gap ∈ gs.getLast?, Finished gap)
    (hts : ∀ t ∈ ts.getLast?, t.finishes) (before : List Char)
    (hbefore : ts = [] → Finished before) : Finished (before ++ cs) := by
  induction h generalizing before with
  | last gap => exact (hbefore rfl).append (hgs gap rfl)
  | @token c rest gap t n gs ts hscan hrest ih =>
    have hsplit : before ++ (gap ++ c :: rest) =
        before ++ gap ++ (c :: rest.take n) ++ rest.drop n := by
      simp
    rw [hsplit]
    refine ih (fun g hg => hgs g ?_) (fun u hu => hts u ?_) _ ?_
    · rw [List.getLast?_cons, hg]
      rfl
    · rw [List.getLast?_cons, hu]
      rfl
    · -- the last token is the last thing in the text before the gap at its end
      rintro rfl
      have ht : t.finishes := hts t rfl
      have hvalid : t ≠ .invalid := by
        rintro rfl
        cases ht
      obtain ⟨d, hlast, -, hd⟩ := last_scanned (scanned_of_scan hscan hvalid)
      exact .of_mayEnd (hd ht) hlast _

end Requisite.Source

namespace Requisite.Prompt

open Requisite Source

/-! ## White space at the ends -/

/-- White space does not end a string. -/
theorem closes_quoted_blank {quote : Char} (hquote : isBlank quote = false) {ws : List Char}
    (hws : ∀ c ∈ ws, isBlank c) (awaited : List Char) :
    closes awaited (some quote) ws = false := by
  induction ws with
  | nil => rfl
  | cons c ws ih =>
    obtain ⟨hc, hws⟩ := List.forall_mem_cons.1 hws
    have hescape : c ≠ '\\' := ne_of_isBlank hc rfl
    have hne : c ≠ quote := ne_of_isBlank hc hquote
    have hstep : closes awaited (some quote) (c :: ws) = closes awaited (some quote) ws := by
      simp [closes, hescape, hne]
    exact hstep.trans (ih hws)

theorem closes_append_blank {ws : List Char} (hws : ∀ c ∈ ws, isBlank c) {quote : Option Char}
    (hquote : ∀ q ∈ quote, isBlank q = false) (awaited cs : List Char) :
    closes awaited quote (cs ++ ws) = closes awaited quote cs := by
  fun_induction closes awaited quote cs with
  | case1 awaited => exact closes_of_plain fun c hc => isMark_of_isBlank (hws c hc)
  | case2 awaited q => exact closes_quoted_blank (hquote q rfl) hws awaited
  | case3 awaited q =>
    -- the first of the blanks is escaped
    cases ws with
    | nil => rfl
    | cons c ws =>
      exact closes_quoted_blank (hquote q rfl) (List.forall_mem_cons.1 hws).2 awaited
  | case4 awaited q c rest ih => exact ih hquote
  | case5 awaited q c rest hend hescape ih =>
    have hc : c ≠ '\\' := ne_backslash hend hescape
    have hstep : closes awaited (some q) (c :: (rest ++ ws)) =
        closes awaited (if c = q then none else some q) (rest ++ ws) := by
      simp [closes, hc]
    refine hstep.trans (ih fun r hr => ?_)
    split at hr
    · cases hr
    · exact hquote r hr
  | case6 awaited c rest hc ih =>
    have hblank : isBlank c = false := by
      simp only [Bool.or_eq_true, decide_eq_true_eq] at hc
      rcases hc with rfl | rfl <;> rfl
    have hstep : closes awaited none (c :: (rest ++ ws)) = closes awaited (some c) (rest ++ ws) := by
      simp_all [closes]
    refine hstep.trans (ih fun q hq => ?_)
    cases hq
    exact hblank
  | case7 awaited c rest hc d hd ih =>
    exact (closes_cons_opening hd).trans (ih hquote)
  | case8 rest d outer hd hopen hclose ih =>
    exact (closes_cons_awaited hclose).trans (ih hquote)
  | case9 c rest hc hopen hclose d outer hne => simp_all [closes]
  | case10 c rest hc hopen hclose => simp_all [closes]
  | case11 awaited c rest hc hopen hclose ih =>
    have hplain : isMark c = false := by simp_all [isMark]
    exact (closes_cons_plain hplain).trans (ih hquote)

/-- White space at the ends makes no difference. -/
theorem isBalanced_trim (cs : List Char) : isBalanced (trim cs) = isBalanced cs := by
  obtain ⟨before, after, hcs, hbefore, hafter⟩ := exists_trim cs
  have hplain : ∀ c ∈ before, isMark c = false := fun c hc => isMark_of_isBlank (hbefore c hc)
  calc isBalanced (trim cs) = closes [] none (trim cs ++ after) :=
        (closes_append_blank hafter (by simp) [] _).symm
    _ = closes [] none (before ++ (trim cs ++ after)) := (closes_append_plain hplain).symm
    _ = isBalanced cs := by rw [← hcs]; rfl

/-! ## Commands -/

/-- A character without another letter case that is in no name of a command is in no text that
    stands for such a name. -/
theorem notMem_of_named? {cs : List Char} {c : Command} {d : Char}
    (h : Command.named? (String.ofList (cs.map Char.toLower)) = some c) (hlower : d.toLower = d)
    (hnames : ∀ c ∈ Command.all, ∀ x ∈ c.names, d ∉ x.toList) : d ∉ cs := by
  obtain ⟨hname, -⟩ := List.find?_eq_some_iff_append.1 h
  intro hd
  refine hnames c (List.mem_of_find?_eq_some h) _ (List.contains_iff_mem.1 hname) ?_
  rw [String.toList_ofList, ← hlower]
  exact List.mem_map_of_mem hd

/-- No name of a command has a bracket or a quote in it, in any case of letters. -/
theorem isMark_of_named? {cs : List Char} {c : Command}
    (h : Command.named? (String.ofList (cs.map Char.toLower)) = some c) :
    ∀ d ∈ cs, isMark d = false := by
  have hmarks : ['"', '\'', '(', ')', '[', ']', '\x7b', '\x7d'].all fun d => d.toLower = d ∧
      ∀ c ∈ Command.all, ∀ x ∈ c.names, d ∉ x.toList := by decide
  intro d hd
  refine Bool.eq_false_iff.2 fun hmark => ?_
  obtain ⟨hlower, hnames⟩ :=
    of_decide_eq_true (List.all_eq_true.1 hmarks d (mem_of_isMark hmark))
  exact notMem_of_named? h hlower hnames hd

/-- A command waits for what its argument leaves open. -/
theorem isComplete_of_command {s : String} {c : Command} {argument : Option String}
    (h : Command.ofText? s = some (c, argument)) :
    isComplete s.toList = isBalanced (argument.getD "").toList := by
  unfold Command.ofText? at h
  split at h
  · next rest hrest =>
    simp only [Option.bind_eq_bind, Option.bind_eq_some_iff, Option.pure_def, Option.some.injEq,
      Prod.mk.injEq] at h
    obtain ⟨_, hname, rfl, hargument⟩ := h
    have hcommand : isComplete s.toList = isBalanced s.toList := by
      simp [isComplete, hrest]
    have hgiven : (argument.getD "").toList = trim (rest.dropWhile fun c => !isBlank c) := by
      rw [← hargument]
      split
      · next hempty =>
        rw [← String.toList_ofList (l := trim _), hempty]
        rfl
      · exact String.toList_ofList
    calc isComplete s.toList = closes [] none ('.' :: rest) := by
          rw [hcommand, ← isBalanced_trim, hrest]
          rfl
      _ = closes [] none rest := closes_cons_plain rfl
      _ = isBalanced (rest.dropWhile fun c => !isBlank c) := by
          conv => lhs; rw [← List.takeWhile_append_dropWhile (p := fun c => !isBlank c) (l := rest)]
          exact closes_append_plain (isMark_of_named? hname)
      _ = isBalanced (argument.getD "").toList := by rw [hgiven, isBalanced_trim]
  · cases h

/-! ## Programs -/

/-- Whether the comments of a text have neither brackets nor quotes in them, and none at its end
    ends with a character that something has to follow. -/
def hasPlainComments (cs : List Char) : Bool :=
  (gaps cs).all (fun gap => gap.all fun c => !isMark c) &&
    (gaps cs).getLast?.all fun gap => !(trim gap).getLast?.any isContinued

theorem finished_iff (cs : List Char) :
    Finished cs ↔ !(trim cs).getLast?.any isContinued := by
  rw [getLast?_trim, Finished]
  cases lastInk cs <;> simp

theorem hasPlainComments_iff (cs : List Char) :
    hasPlainComments cs ↔ (∀ gap ∈ gaps cs, ∀ c ∈ gap, isMark c = false) ∧
      ∀ gap ∈ (gaps cs).getLast?, Finished gap := by
  simp only [hasPlainComments, finished_iff, Bool.and_eq_true, List.all_eq_true,
    Bool.not_eq_true', Option.all_eq_true, Option.mem_def]

example : hasPlainComments "f() // what it does".toList := by decide +kernel
example : hasPlainComments "f() /* what it does */".toList = false := by decide +kernel

/-- A program with plain comments need not wait. -/
theorem isComplete_of_program {s : String} {p : Program} (h : Program.ofText? s = .ok p)
    (hs : hasPlainComments s.toList) : isComplete s.toList := by
  obtain ⟨hplain, hgap⟩ := (hasPlainComments_iff _).1 hs
  have hlaid := laid_ofText s
  have hvalid := (Program.tells h).valid
  have hbalanced : isBalanced s.toList := by
    have hneutral : Neutral (Token.ofText s) := by
      rcases Program.whole h with hnil | hwhole
      · exact hnil ▸ .nil
      · exact hwhole.neutral
    have hcloses := hneutral [] []
    rw [List.append_nil, ← hlaid.closes_eq hvalid hplain] at hcloses
    exact hcloses
  have hfinished : Finished s.toList := by
    refine hlaid.finished hgap (fun t ht => ?_) [] fun _ => nofun
    rcases Program.whole h with hnil | hwhole
    · rw [hnil] at ht
      cases ht
    · obtain ⟨us, u, hus, hu⟩ := hwhole.last
      rw [hus, List.getLast?_concat] at ht
      cases ht
      exact hu
  rw [isComplete, hbalanced, (finished_iff _).1 hfinished, Bool.or_true]
  rfl

/-! ## Inputs that are accepted -/

/-- **Which inputs need not wait.**  A program with plain comments need not wait for more lines,
    and a command waits for what its argument leaves open and for nothing else. -/
theorem isComplete_of_accepted (s : String) :
    (∀ p, Program.ofText? s = .ok p → hasPlainComments s.toList → isComplete s.toList) ∧
      ∀ c argument, Command.ofText? s = some (c, argument) →
        isComplete s.toList = isBalanced (argument.getD "").toList :=
  ⟨fun _ h => isComplete_of_program h, fun _ _ h => isComplete_of_command h⟩

/-- A bracket in a string, a comment at the end, and a command with an argument. -/
theorem isComplete_of_accepted_commented :
    Program.ofText? "a = '(' // b" = .ok [.expression (.assign .assign (.name "a") (.string "("))] ∧
      hasPlainComments "a = '(' // b".toList ∧ isComplete "a = '(' // b".toList ∧
      Command.ofText? " .Load lib/a.js" = some (.load, some "lib/a.js") ∧
      isComplete " .Load lib/a.js".toList := by
  have hlexemes : Lexeme.ofText "a = '(' // b" =
      [⟨.identifier "a", ⟨0, 1⟩, ⟨1, 1⟩, false⟩, ⟨.symbol .equal, ⟨2, 1⟩, ⟨3, 1⟩, false⟩,
        ⟨.string "(", ⟨4, 1⟩, ⟨7, 1⟩, false⟩, ⟨.eof, ⟨12, 1⟩, ⟨12, 1⟩, false⟩] := by
    decide +kernel
  have hprogram : Program.ofText? "a = '(' // b" =
      .ok [.expression (.assign .assign (.name "a") (.string "("))] :=
    Program.ofText?_of_lexemes hlexemes rfl
  have hplain : hasPlainComments "a = '(' // b".toList := by decide +kernel
  have hcommand : Command.ofText? " .Load lib/a.js" = some (.load, some "lib/a.js") := by
    decide +kernel
  have hbalanced : isBalanced "lib/a.js".toList := by decide +kernel
  exact ⟨hprogram, hplain, (isComplete_of_accepted _).1 _ hprogram hplain, hcommand,
    ((isComplete_of_accepted _).2 _ _ hcommand).trans hbalanced⟩

/-- **Inputs that wait though nothing is missing**: a quote in a comment is taken for the beginning
    of a string, and so is a quote in the argument of a command. -/
theorem accepted_waits :
    (¬ ∀ s p, Program.ofText? s = .ok p → trim s.toList ≠ [] → isComplete s.toList) ∧
      ¬ ∀ s c, Command.ofText? s = some c → isComplete s.toList := by
  constructor
  · intro hcomplete
    have hlexemes : Lexeme.ofText "1 // don't" =
        [⟨.number .one, ⟨0, 1⟩, ⟨1, 1⟩, false⟩, ⟨.eof, ⟨10, 1⟩, ⟨10, 1⟩, false⟩] := by
      decide +kernel
    have hprogram : Program.ofText? "1 // don't" = .ok [.expression (.number .one)] :=
      Program.ofText?_of_lexemes hlexemes rfl
    exact absurd (hcomplete _ _ hprogram (by decide +kernel)) (by decide +kernel)
  · intro hcomplete
    have hcommand : Command.ofText? ".version it's" = some (.version, some "it's") := by
      decide +kernel
    exact absurd (hcomplete _ _ hcommand) (by decide +kernel)

end Requisite.Prompt
