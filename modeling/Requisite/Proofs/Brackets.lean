/-
  The brackets of programs.

  Where an input is searched for what it leaves open, brackets close what other
  brackets opened and nothing else.  The tokens of every phrase do so, and the
  last of them asks for nothing more.

  * `closes_append_plain`: characters that are neither brackets nor quotes are
    passed over;
  * `Neutral`: tokens whose brackets leave open what was open;
  * `Whole`: neutral tokens, the last of which may end a program;
  * `Program.whole`: the tokens of a program.
-/
import Requisite.Proofs.Spelling
import Requisite.Proofs.Words
import Requisite.Prompt.Balance

namespace Requisite.Source

open Requisite Prompt

/-! ## Characters -/

/-- Whether a character opens or closes a bracket or a string. -/
def isMark (c : Char) : Bool := c == '"' || c == '\'' || (closer? c).isSome || isCloser c

section
variable {awaited rest : List Char}

theorem closes_cons_plain {c : Char} (hc : isMark c = false) :
    closes awaited none (c :: rest) = closes awaited none rest := by
  simp only [isMark, Bool.or_eq_false_iff] at hc
  obtain ⟨⟨⟨hdouble, hsingle⟩, hopen⟩, hclose⟩ := hc
  have hcloser : closer? c = none := by simpa using hopen
  rw [beq_eq_false_iff_ne] at hdouble hsingle
  simp [closes, hdouble, hsingle, hcloser, hclose]

theorem closes_append_plain {cs : List Char} (hcs : ∀ c ∈ cs, isMark c = false) :
    closes awaited none (cs ++ rest) = closes awaited none rest := by
  induction cs with
  | nil => rfl
  | cons c cs ih =>
    obtain ⟨hc, hcs⟩ := List.forall_mem_cons.1 hcs
    rw [List.cons_append, closes_cons_plain hc, ih hcs]

theorem closes_of_plain {cs : List Char} (hcs : ∀ c ∈ cs, isMark c = false) :
    closes awaited none cs = awaited.isEmpty := by
  rw [← List.append_nil cs, closes_append_plain hcs, closes]

/-- An opening bracket awaits its closing one. -/
theorem closes_cons_opening {c d : Char} (hc : closer? c = some d) :
    closes awaited none (c :: rest) = closes (d :: awaited) none rest := by
  have hdouble : c ≠ '"' := fun h => nomatch h ▸ hc
  have hsingle : c ≠ '\'' := fun h => nomatch h ▸ hc
  simp [closes, hdouble, hsingle, hc]

/-- The bracket that is awaited closes. -/
theorem closes_cons_awaited {d : Char} (hd : isCloser d) :
    closes (d :: awaited) none (d :: rest) = closes awaited none rest := by
  simp only [isCloser, Bool.or_eq_true, beq_iff_eq] at hd
  rcases hd with (rfl | rfl) | rfl <;> rfl

end

/-! ## Tokens -/

/-- The brackets of a token. -/
def Token.brackets : Token → List Char
  | .symbol s => s.chars.filter isMark
  | _ => []

/-- Whether a program may end with the token: a word, a semicolon or a closing bracket. -/
def Token.finishes : Token → Bool
  | .symbol s => s ∈ [.semicolon, .rightParen, .rightBracket, .rightBrace]
  | .invalid | .eof => false
  | _ => true

/-- The brackets of the tokens close what they open, and nothing else. -/
def Neutral (ts : List Token) : Prop :=
  ∀ awaited rest, closes awaited none (ts.flatMap Token.brackets ++ rest) = closes awaited none rest

namespace Neutral

variable {t : Token} {ts us : List Token}

theorem nil : Neutral [] := fun _ _ => rfl

theorem append (h : Neutral ts) (h' : Neutral us) : Neutral (ts ++ us) := fun awaited rest => by
  rw [List.flatMap_append, List.append_assoc, h, h']

theorem cons (ht : t.brackets = []) (h : Neutral ts) : Neutral (t :: ts) := fun awaited rest => by
  rw [List.flatMap_cons, ht, List.nil_append, h]

theorem single (ht : t.brackets = []) : Neutral [t] := nil.cons ht

/-- What stands between brackets that fit each other. -/
theorem between {opening closing : Symbol} {c d : Char} (hopening : opening.chars = [c])
    (hclosing : closing.chars = [d]) (hcloser : closer? c = some d) (hd : isCloser d)
    (h : Neutral ts) : Neutral (.symbol opening :: (ts ++ [.symbol closing])) :=
  fun awaited rest => by
    have hc : isMark c := by simp [isMark, hcloser]
    have hd' : isMark d := by simp [isMark, hd]
    simp only [List.flatMap_cons, List.flatMap_append, List.flatMap_nil, Token.brackets, hopening,
      hclosing, List.filter_cons_of_pos hc, List.filter_cons_of_pos hd', List.filter_nil,
      List.cons_append, List.append_assoc, List.nil_append]
    rw [closes_cons_opening hcloser, h, closes_cons_awaited hd]

end Neutral

/-- The tokens are neutral, and the last of them may end a program. -/
structure Whole (ts : List Token) : Prop where
  neutral : Neutral ts
  last : ∃ us t, ts = us ++ [t] ∧ t.finishes

namespace Whole

variable {t : Token} {ts us : List Token}

theorem single (ht : t.brackets = []) (hlast : t.finishes) : Whole [t] :=
  ⟨.single ht, [], t, rfl, hlast⟩

theorem after (h : Whole us) (hts : Neutral ts) : Whole (ts ++ us) where
  neutral := hts.append h.neutral
  last := by
    obtain ⟨vs, t, rfl, ht⟩ := h.last
    exact ⟨ts ++ vs, t, (List.append_assoc ..).symm, ht⟩

theorem cons (ht : t.brackets = []) (h : Whole ts) : Whole (t :: ts) := h.after (.single ht)

theorem append (h : Whole ts) (h' : Whole us) : Whole (ts ++ us) := h'.after h.neutral

theorem grouped (h : Neutral ts) : Whole (grouped ts) :=
  ⟨h.between rfl rfl rfl rfl, .symbol .leftParen :: ts, .symbol .rightParen, rfl, rfl⟩

theorem inBraces (h : Neutral ts) : Whole (inBraces ts) :=
  ⟨h.between rfl rfl rfl rfl, .symbol .leftBrace :: ts, .symbol .rightBrace, rfl, rfl⟩

theorem bracketed (h : Neutral ts) : Whole (bracketed ts) :=
  ⟨h.between rfl rfl rfl rfl, .symbol .leftBracket :: ts, .symbol .rightBracket, rfl, rfl⟩

theorem word (x : String) : Whole [.identifier x] := .single rfl rfl

/-- A statement may or may not end with a semicolon. -/
theorem ended (h : Whole ts) (hus : Phrases.Ending us) : Whole (ts ++ us) := by
  cases hus with
  | semicolon => exact (Whole.single rfl rfl).after h.neutral
  | bare => rwa [List.append_nil]

end Whole

/-! ## Lists -/

section
variable {α : Type} {item : List Token → α → Prop} {ts : List Token} {as : List α}

namespace Phrases

theorem Sequence.whole (h : Sequence item ts as) (hitem : ∀ ts a, item ts a → Whole ts) :
    ts = [] ∨ Whole ts := by
  induction h with
  | nil => exact .inl rfl
  | cons hfirst _ ih =>
    have hts := hitem _ _ hfirst
    rcases ih with rfl | ih
    · exact .inr (by rwa [List.append_nil])
    · exact .inr (hts.append ih)

theorem Sequence.neutral (h : Sequence item ts as) (hitem : ∀ ts a, item ts a → Whole ts) :
    Neutral ts := by
  rcases h.whole hitem with rfl | h
  · exact .nil
  · exact h.neutral

theorem Separated.whole (h : Separated item ts as) (hitem : ∀ ts a, item ts a → Whole ts) :
    Whole ts := by
  induction h with
  | last hlast => exact hitem _ _ hlast
  | cons hfirst _ ih => exact (hitem _ _ hfirst).append (ih.cons rfl)

theorem Terminated.neutral (h : Terminated item ts as) (hitem : ∀ ts a, item ts a → Whole ts) :
    Neutral ts := by
  induction h with
  | nil => exact .nil
  | last hlast => exact (hitem _ _ hlast).neutral
  | cons hfirst _ ih => exact (hitem _ _ hfirst).neutral.append (ih.cons rfl)

/-- The list has its closing parenthesis; with the opening one it is whole. -/
theorem Listed.whole (h : Listed item ts as) (hitem : ∀ ts a, item ts a → Whole ts) :
    Whole (.symbol .leftParen :: ts) := by
  cases h with
  | nil => exact .grouped .nil
  | items hitems => exact .grouped (hitems.whole hitem).neutral

end Phrases

end

/-! ## Operators -/

theorem UnaryOp.brackets_eq {t : Token} {op : UnaryOp} (h : ofToken? t = some op) :
    t.brackets = [] := by
  rw [eq_token_of_ofToken? h]
  cases op <;> rfl

theorem Infix.brackets_eq {level : Nat} {t : Token} {op : Infix}
    (h : ofToken? level t = some op) : t.brackets = [] := by
  rw [eq_symbol_of_ofToken? h]
  rcases op with op | op <;> cases op <;> rfl

theorem AssignOp.brackets_eq {t : Token} {op : AssignOp} (h : ofToken? t = some op) :
    t.brackets = [] := by
  rw [eq_symbol_of_ofToken? h]
  cases op <;> rfl

theorem BindingKind.brackets_eq {t : Token} {kind : BindingKind} (h : ofToken? t = some kind) :
    t.brackets = [] := by
  rw [eq_keyword_of_ofToken? h]
  rfl

theorem brackets_of_keyOf? {t : Token} {key : String} (h : keyOf? t = some key) :
    t.brackets = [] := by
  cases t with
  | symbol s => exact nomatch h
  | _ => rfl

/-! ## Productions -/

/-- The phrases are whole. -/
structure Phrases.AllWhole (g : Phrases) : Prop where
  statement : ∀ ts s, g.statement ts s → Whole ts
  assignment : ∀ ts e, g.assignment ts e → Whole ts
  unary : ∀ ts e, g.unary ts e → Whole ts

namespace Phrases.AllWhole

variable {g : Phrases} {ts : List Token} {e : Expr}

theorem functionRest (h : g.AllWhole) {params : List String} {body : List Stmt}
    (hts : g.FunctionRest ts (params, body)) : Whole ts := by
  obtain ⟨hparams, hbody⟩ := hts
  have hnames := hparams.whole fun _ _ ⟨x⟩ => .word x
  exact hnames.append (.inBraces (hbody.neutral h.statement))

theorem property (h : g.AllWhole) {entry : String × Expr} (hts : g.Property ts entry) :
    Whole ts := by
  cases hts with
  | short x => exact .word x
  | keyed hkey hvalue =>
    exact ((h.assignment _ _ hvalue).cons rfl).cons (brackets_of_keyOf? hkey)

theorem primary (h : g.AllWhole) (hts : g.Primary ts e) : Whole ts := by
  cases hts with
  | number | string | boolean | null | name => exact .single rfl rfl
  | function name hrest =>
    have hname : Neutral (printName name) := by
      cases name with
      | none => exact .nil
      | some x => exact .single rfl
    exact ((h.functionRest hrest).after hname).cons rfl
  | group he => exact .grouped (h.assignment _ _ he).neutral
  | array hitems => exact .bracketed (hitems.neutral h.assignment)
  | object hentries => exact .inBraces (hentries.neutral fun _ _ => h.property)

theorem suffixed (h : g.AllWhole) (hts : g.Suffixed ts e) : Whole ts := by
  induction hts with
  | primary he => exact h.primary he
  | call _ hargs ih => exact ih.append (hargs.whole h.assignment)
  | dot key _ ih => exact ih.append ((Whole.word key).cons rfl)
  | index _ hkey ih => exact ih.append (.bracketed (h.assignment _ _ hkey).neutral)

theorem next_unary (h : g.AllWhole) (hts : g.Unary ts e) : Whole ts := by
  cases hts with
  | operator hop he => exact (h.unary _ _ he).cons (UnaryOp.brackets_eq hop)
  | suffixed he => exact h.suffixed he

theorem operators (h : g.AllWhole) {level : Nat} (hts : g.Operators level ts e) : Whole ts := by
  induction hts with
  | unary he => exact h.next_unary he
  | tighter _ ih => exact ih
  | operator _ hop _ ihleft ihright => exact ihleft.append (ihright.cons (Infix.brackets_eq hop))

theorem conditional (h : g.AllWhole) (hts : g.Conditional ts e) : Whole ts := by
  cases hts with
  | test he => exact h.operators he
  | branches htest ha hb =>
    have halternate := (h.assignment _ _ hb).cons (t := .symbol .colon) rfl
    exact (h.operators htest).append (((h.assignment _ _ ha).append halternate).cons rfl)

theorem next_assignment (h : g.AllWhole) (hts : g.Assignment ts e) : Whole ts := by
  cases hts with
  | conditional he => exact h.conditional he
  | assign htarget _ hop hvalue =>
    exact (h.conditional htarget).append ((h.assignment _ _ hvalue).cons (AssignOp.brackets_eq hop))

theorem binding (h : g.AllWhole) {kind : BindingKind} {entry : String × Option Expr}
    (hts : g.Binding kind ts entry) : Whole ts := by
  cases hts with
  | bare x => exact .word x
  | valued x he => exact ((h.assignment _ _ he).cons rfl).cons rfl

theorem next_statement (h : g.AllWhole) {s : Stmt} (hts : g.Statement ts s) : Whole ts := by
  cases hts with
  | declare hkind hbindings hend =>
    exact ((hbindings.whole fun _ _ => h.binding).ended hend).cons (BindingKind.brackets_eq hkind)
  | function name hrest => exact ((h.functionRest hrest).cons rfl).cons rfl
  | conditional htest ha =>
    exact ((Whole.grouped (h.assignment _ _ htest).neutral).append (h.statement _ _ ha)).cons rfl
  | alternative htest ha hb =>
    have htest := Whole.grouped (h.assignment _ _ htest).neutral
    have halternate := (h.statement _ _ hb).cons (t := .keyword .elseWord) rfl
    exact (htest.append ((h.statement _ _ ha).append halternate)).cons rfl
  | «while» htest hbody =>
    exact ((Whole.grouped (h.assignment _ _ htest).neutral).append (h.statement _ _ hbody)).cons rfl
  | returnNone hend => exact (Whole.single rfl rfl).ended hend
  | returnSome he hend => exact ((h.assignment _ _ he).ended hend).cons rfl
  | throw line he hend => exact ((h.assignment _ _ he).ended hend).cons rfl
  | block hbody => exact .inBraces (hbody.neutral h.statement)
  | empty => exact .single rfl rfl
  | expression he hend => exact (h.assignment _ _ he).ended hend

/-- **One level further out**: the phrases with one more level are whole. -/
theorem next (h : g.AllWhole) : Phrases.AllWhole ⟨g.Statement, g.Assignment, g.Unary⟩ where
  statement _ _ := h.next_statement
  assignment _ _ := h.next_assignment
  unary _ _ := h.next_unary

end Phrases.AllWhole

theorem phrases_allWhole (n : Nat) : (phrases n).AllWhole := by
  induction n with
  | zero => exact ⟨fun _ _ h => h.elim, fun _ _ h => h.elim, fun _ _ h => h.elim⟩
  | succ n ih => exact ih.next

/-- **Programs are whole.**  The brackets of a program's tokens fit each other, and unless there is
    no token, the last one may end a program. -/
theorem Program.whole {s : String} {p : Program} (h : ofText? s = .ok p) :
    Token.ofText s = [] ∨ Whole (Token.ofText s) :=
  (ofText?_sound h).1.whole (phrases_allWhole maxDepth).statement

end Requisite.Source
