/-
  What a successful reader has taken.

  `Yields limit p R` says that whenever `p` succeeds where fewer than `limit`
  tokens are left before `eof`, the tokens it took and its answer are related by
  `R`.  The loops of the grammar have more steps than there are tokens, and each
  step takes some, so that no list is cut short.

  * `Input.Holds`: which tokens are left before `eof`;
  * `YieldsAt.bind`: one reader after the other;
  * `Nested.Sound`: readers that yield the phrases of a grammar;
  * `nested_sound`: the readers at each depth yield the phrases of that depth;
  * `Program.ofText?_sound`: a program that is read is a sequence of statements of
    the grammar, of all tokens of its text.
-/
import Requisite.Proofs.Layout
import Requisite.Proofs.Phrases

namespace Requisite.Source

open Requisite Parse

/-! ## Input -/

/-- The tokens `ts` are left, and `eof` after them. -/
def Input.Holds (i : Input) (ts : List Token) : Prop :=
  (i.current :: i.rest).map Lexeme.token = ts ++ [.eof]

namespace Input.Holds

variable {i : Input} {ts : List Token}

theorem eq_cons (h : i.Holds ts) (ht : i.current.token ≠ .eof) :
    ∃ us, ts = i.current.token :: us ∧ i.next.Holds us := by
  obtain ⟨current, rest⟩ := i
  cases ts with
  | nil => exact absurd (List.cons.inj h).1 ht
  | cons t us =>
    obtain ⟨rfl, hrest⟩ := List.cons.inj h
    refine ⟨us, rfl, ?_⟩
    cases rest with
    | nil => simp at hrest
    | cons l ls => exact hrest

/-- Nothing is left where `eof` is at hand. -/
theorem eq_nil (h : i.Holds ts) (ht : i.current.token = .eof) (hts : .eof ∉ ts) :
    ts = [] ∧ i.rest = [] := by
  obtain ⟨current, rest⟩ := i
  cases ts with
  | nil => exact ⟨rfl, List.map_eq_nil_iff.1 (List.cons.inj h).2⟩
  | cons t us =>
    obtain rfl : current.token = t := (List.cons.inj h).1
    exact absurd (ht ▸ List.mem_cons_self) hts

end Input.Holds

/-- The end of the text is none of the tokens that stand for something. -/
theorem Token.ne_eof {α : Type} {f : Token → Option α} {t : Token} {a : α} (hf : f .eof = none)
    (h : f t = some a) : t ≠ .eof := by
  rintro rfl
  exact nomatch hf.symm.trans h

/-! ## Readers -/

/-- A success of two readers, one after the other. -/
theorem Parse.exists_of_run_bind {α β : Type} {p : Parse α} {k : α → Parse β} {i i' : Input} {b : β}
    (h : (p >>= k).run i = .ok (b, i')) :
    ∃ a j, p.run i = .ok (a, j) ∧ (k a).run j = .ok (b, i') := by
  rw [StateT.run_bind] at h
  cases hp : p.run i with
  | error x =>
    rw [hp] at h
    exact nomatch h
  | ok r =>
    rw [hp] at h
    exact ⟨r.1, r.2, rfl, h⟩

/-- Where the token `t` is at hand and fewer than `limit` tokens are left before `eof`, a success
    of the reader takes tokens that `R` relates to the answer. -/
def YieldsAt {α : Type} (limit : Nat) (t : Token) (p : Parse α) (R : List Token → α → Prop) :
    Prop :=
  ∀ (i : Input) (us : List Token) (a : α) (i' : Input), i.Holds us → us.length < limit →
    i.current.token = t → p.run i = .ok (a, i') → ∃ ts vs, us = ts ++ vs ∧ i'.Holds vs ∧ R ts a

/-- The same wherever the reader begins. -/
def Yields {α : Type} (limit : Nat) (p : Parse α) (R : List Token → α → Prop) : Prop :=
  ∀ t, YieldsAt limit t p R

section
variable {α β : Type} {limit limit' : Nat} {t : Token} {p : Parse α} {k : α → Parse β}
  {R : List Token → α → Prop} {S : List Token → β → Prop}

theorem Yields.weaken (h : Yields limit p R) (hl : limit' ≤ limit) : Yields limit' p R :=
  fun t i us a i' hi hlen ht hrun => h t i us a i' hi (Nat.lt_of_lt_of_le hlen hl) ht hrun

namespace YieldsAt

theorem mono {R' : List Token → α → Prop} (h : YieldsAt limit t p R)
    (hR : ∀ ts a, R ts a → R' ts a) : YieldsAt limit t p R' := by
  intro i us a i' hi hl ht hrun
  obtain ⟨ts, vs, hus, hi', hts⟩ := h i us a i' hi hl ht hrun
  exact ⟨ts, vs, hus, hi', hR ts a hts⟩

theorem pure {a : α} (h : R [] a) : YieldsAt limit t (pure a) R := by
  rintro i us _ _ hi - - ⟨⟩
  exact ⟨[], us, rfl, hi, h⟩

theorem fail (c : Complaint) : YieldsAt limit t (fail c) R :=
  fun _ _ _ _ _ _ _ hrun => nomatch hrun

/-- After the tokens that the first reader took, fewer are left for the second. -/
theorem bind_shorter (hp : YieldsAt limit t p R)
    (hk : ∀ ts a, R ts a → Yields (limit - ts.length) (k a) fun us b => S (ts ++ us) b) :
    YieldsAt limit t (p >>= k) S := by
  intro i us b i' hi hl ht hrun
  obtain ⟨a, j, hp', hrun⟩ := Parse.exists_of_run_bind hrun
  obtain ⟨ts, vs, rfl, hj, hts⟩ := hp i us a j hi hl ht hp'
  have hlvs : vs.length < limit - ts.length := by
    simp only [List.length_append] at hl
    omega
  obtain ⟨us', ws, rfl, hi', hus'⟩ := hk ts a hts _ j vs b i' hj hlvs rfl hrun
  exact ⟨ts ++ us', ws, (List.append_assoc ..).symm, hi', hus'⟩

/-- Where the first reader takes a token at least, the limit is one less for the second. -/
theorem bind_item (hp : YieldsAt (limit + 1) t p R) (hne : ∀ ts a, R ts a → ts ≠ [])
    (hk : ∀ ts a, R ts a → Yields limit (k a) fun us b => S (ts ++ us) b) :
    YieldsAt (limit + 1) t (p >>= k) S := by
  refine hp.bind_shorter fun ts a hts => (hk ts a hts).weaken ?_
  have := List.length_pos_iff.2 (hne ts a hts)
  omega

/-- The second reader yields what makes up the whole with the tokens of the first. -/
theorem bind (hp : YieldsAt limit t p R)
    (hk : ∀ ts a, R ts a → Yields limit (k a) fun us b => S (ts ++ us) b) :
    YieldsAt limit t (p >>= k) S :=
  hp.bind_shorter fun ts a hts => (hk ts a hts).weaken (Nat.sub_le ..)

/-- Nothing is taken after the reader. -/
theorem bind_pure {f : α → β} (hp : YieldsAt limit t p R) (hf : ∀ ts a, R ts a → S ts (f a)) :
    YieldsAt limit t (p >>= fun a => Pure.pure (f a)) S :=
  hp.bind fun ts a hts _ => .pure (by simpa using hf ts a hts)

theorem map {f : α → β} (hp : YieldsAt limit t p R) (hf : ∀ ts a, R ts a → S ts (f a)) :
    YieldsAt limit t (f <$> p) S := by
  rw [map_eq_pure_bind]
  exact hp.bind_pure hf

/-! ## Tokens -/

theorem token {k : Token → Parse β} (h : YieldsAt limit t (k t) S) :
    YieldsAt limit t (token >>= k) S := by
  rintro i us b i' hi hl rfl hrun
  exact h i us b i' hi hl rfl hrun

theorem get {k : Input → Parse β}
    (h : ∀ i : Input, i.current.token = t → YieldsAt limit t (k i) S) :
    YieldsAt limit t (get >>= k) S :=
  fun i us b i' hi hl ht hrun => h i ht i us b i' hi hl ht hrun

theorem advance {k : Unit → Parse β} (ht : t ≠ .eof)
    (h : Yields limit (k ()) fun us b => S (t :: us) b) :
    YieldsAt limit t (Parse.advance >>= k) S := by
  rintro i us b i' hi hl rfl hrun
  obtain ⟨vs, rfl, hnext⟩ := hi.eq_cons ht
  obtain ⟨ts, ws, rfl, hi', hts⟩ := h _ i.next vs b i' hnext (Nat.lt_of_succ_lt hl) rfl hrun
  exact ⟨i.current.token :: ts, ws, rfl, hi', hts⟩

theorem expect {k : Unit → Parse β} {s : Symbol}
    (h : Yields limit (k ()) fun us b => S (.symbol s :: us) b) :
    YieldsAt limit t (Parse.expect s >>= k) S := by
  simp only [Parse.expect, bind_assoc]
  refine .token ?_
  split
  · next ht =>
    subst ht
    exact .advance nofun h
  · exact fun _ _ _ _ _ _ _ hrun => nomatch hrun

/-- A closing symbol after which nothing is taken. -/
theorem expect_pure {a : β} {s : Symbol} (h : S [.symbol s] a) :
    YieldsAt limit t (Parse.expect s >>= fun _ => Pure.pure a) S :=
  .expect fun _ => .pure h

/-- What is read between parentheses. -/
theorem grouped (hp : Yields limit p R)
    (hk : ∀ ts a, R ts a → Yields limit (k a) fun us b => S (grouped ts ++ us) b) :
    YieldsAt limit t (Parse.expect .leftParen >>= fun _ => p >>= fun a =>
      Parse.expect .rightParen >>= fun _ => k a) S := by
  refine .expect fun t => (hp t).bind fun ts a hts t => .expect ?_
  simpa [Source.grouped] using hk ts a hts

theorem identifier {k : String → Parse β}
    (h : ∀ x, Yields limit (k x) fun us b => S (.identifier x :: us) b) :
    YieldsAt limit t (Parse.identifier >>= k) S := by
  simp only [Parse.identifier, bind_assoc]
  refine .token ?_
  split
  · next x =>
    simp only [bind_assoc, pure_bind]
    exact .advance nofun (h x)
  · exact fun _ _ _ _ _ _ _ hrun => nomatch hrun

theorem accept {k : Bool → Parse β} {s : Symbol}
    (htrue : Yields limit (k true) fun us b => S (.symbol s :: us) b)
    (hfalse : YieldsAt limit t (k false) S) : YieldsAt limit t (Parse.accept s >>= k) S := by
  simp only [Parse.accept, bind_assoc]
  refine .token ?_
  split
  · next ht =>
    subst ht
    simp only [bind_assoc, pure_bind]
    exact .advance nofun htrue
  · rwa [pure_bind]

theorem atStatementEnd {k : Bool → Parse β} (h : ∀ b, YieldsAt limit t (k b) S) :
    YieldsAt limit t (Parse.atStatementEnd >>= k) S := by
  simp only [Parse.atStatementEnd, bind_assoc]
  refine .get fun i _ => ?_
  rw [pure_bind]
  exact h _

theorem endStatement : YieldsAt limit t endStatement fun us _ => Phrases.Ending us := by
  unfold Parse.endStatement
  refine .accept (fun _ => .pure .semicolon) (.atStatementEnd fun b => ?_)
  cases b with
  | true => exact .pure .bare
  | false => exact .token (.fail _)

/-- A statement that may end with a semicolon, or without one. -/
theorem endStatement_pure {a : β} (h : ∀ us, Phrases.Ending us → S us a) :
    YieldsAt limit t (Parse.endStatement >>= fun _ => Pure.pure a) S :=
  endStatement.bind_pure fun us _ hus => h us hus

end YieldsAt

/-! ## Lists -/

namespace Yields

open Phrases

variable {steps : Nat}

theorem separated (hp : Yields limit p R) (hne : ∀ ts a, R ts a → ts ≠ [])
    (hs : steps ≤ limit) : Yields steps (separated p steps) (Separated R) := by
  induction steps with
  | zero => exact fun t i us a i' _ hl => absurd hl (Nat.not_lt_zero _)
  | succ steps ih =>
    unfold Source.separated
    refine fun t => (hp.weaken hs t).bind_item hne fun ts a hts => ?_
    refine fun t => .accept ?_ ?_
    · rw [if_pos rfl]
      refine fun t => (ih (Nat.le_of_succ_le hs) t).bind_pure fun us as hus => ?_
      exact .cons hts hus
    · exact .pure (by simpa using .last hts)

/-- Where the closing symbol is at hand there are no more items. -/
theorem terminated_close (close : Symbol) :
    YieldsAt limit (.symbol close) (Source.terminated close p steps)
      fun ts as => ts = [] ∧ as = [] := by
  cases steps with
  | zero => exact .pure ⟨rfl, rfl⟩
  | succ steps =>
    unfold Source.terminated
    refine .token ?_
    rw [if_pos (.inl rfl)]
    exact .pure ⟨rfl, rfl⟩

theorem terminated (close : Symbol) (hp : Yields limit p R) (hne : ∀ ts a, R ts a → ts ≠ [])
    (hs : steps ≤ limit) : Yields steps (terminated close p steps) (Terminated R) := by
  induction steps with
  | zero => exact fun t i us a i' _ hl => absurd hl (Nat.not_lt_zero _)
  | succ steps ih =>
    unfold Source.terminated
    refine fun t => .token ?_
    split
    · exact .pure .nil
    · refine (hp.weaken hs t).bind_item hne fun ts a hts t => .token ?_
      split
      · refine .expect fun t => ?_
        exact (ih (Nat.le_of_succ_le hs) t).bind_pure fun us as hus => .cons hts hus
      · next ht =>
        obtain rfl := Decidable.not_not.1 ht
        refine (terminated_close close).bind_pure ?_
        rintro us as ⟨rfl, rfl⟩
        simpa using .last hts

theorem listed (hp : Yields limit p R) (hne : ∀ ts a, R ts a → ts ≠ []) :
    Yields limit (listed limit p) (Listed R) := by
  unfold Source.listed
  refine fun t => .token ?_
  split
  · rw [pure_bind]
    exact .expect_pure .nil
  · exact (separated hp hne (Nat.le_refl _) t).bind fun ts as hts t => .expect_pure (.items hts)

theorem statements {p : Parse Stmt} {R : List Token → Stmt → Prop} (hp : Yields limit p R)
    (hne : ∀ ts s, R ts s → ts ≠ []) (hs : steps ≤ limit) :
    Yields steps (statements p steps) (Sequence R) := by
  induction steps with
  | zero => exact fun t i us a i' _ hl => absurd hl (Nat.not_lt_zero _)
  | succ steps ih =>
    unfold Source.statements
    refine fun t => .token ?_
    split
    · exact .pure .nil
    · refine (hp.weaken hs t).bind_item hne fun ts a hts t => ?_
      exact (ih (Nat.le_of_succ_le hs) t).bind_pure fun us as hus => .cons hts hus

end Yields
end

/-! ## Productions -/

/-- The readers yield the phrases, none of which is empty. -/
structure Nested.Sound (limit : Nat) (r : Nested) (g : Phrases) : Prop where
  statement : Yields limit r.statement g.statement
  assignment : Yields limit r.assignment g.assignment
  unary : Yields limit r.unary g.unary
  statement_ne_nil : ∀ ts s, g.statement ts s → ts ≠ []
  assignment_ne_nil : ∀ ts e, g.assignment ts e → ts ≠ []

namespace Nested.Sound

open Phrases

variable {limit : Nat} {inner : Nested} {g : Phrases}

/-! ### Functions and objects -/

theorem braced (h : inner.Sound limit g) :
    Yields limit (braced limit inner) fun ts body =>
      ∃ us, Sequence g.statement us body ∧ ts = us ++ [.symbol .rightBrace] := by
  unfold Source.braced
  have hbody := Yields.statements h.statement h.statement_ne_nil (Nat.le_refl limit)
  exact fun t => (hbody t).bind fun us body hus _ => .expect_pure ⟨us, hus, rfl⟩

theorem functionRest (h : inner.Sound limit g) :
    Yields limit (functionRest limit inner) g.FunctionRest := by
  unfold Source.functionRest
  have hparams : Yields limit (Source.listed limit Parse.identifier) (Listed Parameter) := by
    refine .listed (fun t => ?_) fun ts x hx => hx.ne_nil
    rw [← bind_pure Parse.identifier]
    exact .identifier fun x _ => .pure (.name x)
  refine fun t => .expect fun t => (hparams t).bind fun ts params hts t => .expect fun t => ?_
  refine (h.braced t).bind_pure ?_
  rintro _ body ⟨us, hus, rfl⟩
  simpa [inBraces] using .intro hts hus

theorem functionExpression (h : inner.Sound limit g) :
    Yields limit (functionExpression limit inner) fun ts e =>
      g.Primary (.keyword .functionWord :: ts) e := by
  unfold Source.functionExpression
  refine fun t => .token ?_
  split
  · next x =>
    refine .advance nofun fun t => ?_
    rw [pure_bind]
    exact (h.functionRest t).bind_pure fun ts (params, body) hts => .function (some x) hts
  · rw [pure_bind]
    exact (h.functionRest t).bind_pure fun ts (params, body) hts => .function none hts

theorem property (h : inner.Sound limit g) : Yields limit (property inner) g.Property := by
  unfold Source.property
  refine fun t => .token ?_
  split
  · exact .fail _
  · next key hkey =>
    refine .advance (Token.ne_eof rfl hkey) fun u => .token ?_
    split
    · next hshort =>
      obtain ⟨ht, -⟩ := hshort
      subst ht
      exact .pure (.short key)
    · exact .expect fun v => (h.assignment v).bind_pure fun ts e hts => .keyed hkey hts

/-! ### Expressions -/

theorem primary (h : inner.Sound limit g) : Yields limit (primary limit inner) g.Primary := by
  unfold Source.primary
  refine fun t => .token ?_
  split
  case h_1 x => exact .advance nofun fun _ => .pure (.number x)
  case h_2 s => exact .advance nofun fun _ => .pure (.string s)
  case h_3 b => exact .advance nofun fun _ => .pure (.boolean b)
  case h_4 => exact .advance nofun fun _ => .pure .null
  case h_5 x => exact .advance nofun fun _ => .pure (.name x)
  case h_6 => exact .advance nofun h.functionExpression
  case h_7 =>
    refine .advance nofun fun t => (h.assignment t).bind fun ts e hts _ => .expect_pure ?_
    exact .group hts
  case h_8 =>
    have hitems : Yields limit (Source.terminated .rightBracket inner.assignment limit)
        (Terminated g.assignment) :=
      .terminated _ h.assignment h.assignment_ne_nil (Nat.le_refl limit)
    refine .advance nofun fun t => (hitems t).bind fun ts items hts _ => .expect_pure ?_
    exact .array hts
  case h_9 =>
    have hentries : Yields limit (Source.terminated .rightBrace (Source.property inner) limit)
        (Terminated g.Property) :=
      .terminated _ h.property (fun _ _ hts => hts.ne_nil) (Nat.le_refl limit)
    refine .advance nofun fun t => (hentries t).bind fun ts entries hts _ => .expect_pure ?_
    exact .object hts
  case h_10 => exact .fail _

/-- What follows an expression makes up a longer one with it. -/
theorem suffixes (h : inner.Sound limit g) {ts : List Token} {e : Expr} (steps : Nat)
    (he : g.Suffixed ts e) :
    Yields limit (suffixes limit inner steps e) fun us a => g.Suffixed (ts ++ us) a := by
  induction steps generalizing ts e with
  | zero => exact fun _ => .pure (by simpa using he)
  | succ steps ih =>
    unfold Source.suffixes
    refine fun t => .token ?_
    split
    · have hargs : Yields limit (Source.listed limit inner.assignment) (Listed g.assignment) :=
        .listed h.assignment h.assignment_ne_nil
      refine .advance nofun fun t => (hargs t).bind fun us args hus => ?_
      simpa using ih (.call he hus)
    · refine .advance nofun fun t => .identifier fun key => ?_
      simpa using ih (.dot key he)
    · refine .advance nofun fun t => (h.assignment t).bind fun us key hus t => .expect ?_
      simpa [bracketed] using ih (.index he hus)
    · exact .pure (by simpa using he)

theorem next_unary (h : inner.Sound limit g) : Yields limit (Source.unary limit inner) g.Unary := by
  unfold Source.unary
  refine fun t => .token ?_
  split
  · next op hop =>
    exact .advance (Token.ne_eof rfl hop) fun u =>
      (h.unary u).bind_pure fun ts e hts => .operator hop hts
  · refine (h.primary t).bind fun ts e hts u => ?_
    exact (h.suffixes limit (.primary hts) u).mono fun us a hus => .suffixed hus

/-- The operands that follow an operand make up a chain with it. -/
theorem chain {level : Nat} {operand : Parse Expr}
    (h : Yields limit operand (g.Operators level)) {ts : List Token} {left : Expr} (steps : Nat)
    (hleft : g.Operators (level + 1) ts left) :
    Yields limit (chain (level + 1) operand steps left) fun us e =>
      g.Operators (level + 1) (ts ++ us) e := by
  induction steps generalizing ts left with
  | zero => exact fun _ => .pure (by simpa using hleft)
  | succ steps ih =>
    unfold Source.chain
    refine fun t => .token ?_
    split
    · next op hop =>
      refine .advance (Token.ne_eof rfl hop) fun u => (h u).bind fun us right hus => ?_
      simpa using ih (.operator hleft hop hus)
    · exact .pure (by simpa using hleft)

theorem operators (h : inner.Sound limit g) (level : Nat) :
    Yields limit (operators limit inner level) (g.Operators level) := by
  induction level with
  | zero => exact fun t => (h.next_unary t).mono fun ts e hts => .unary hts
  | succ level ih =>
    unfold Source.operators
    exact fun t => (ih t).bind fun ts e hts => chain ih limit (.tighter hts)

theorem conditional (h : inner.Sound limit g) :
    Yields limit (conditional limit inner) g.Conditional := by
  unfold Source.conditional
  refine fun t => (h.operators _ t).bind fun ts test htest t => .accept ?_ ?_
  · rw [if_pos rfl]
    refine fun t => (h.assignment t).bind fun us a hus t => .expect fun t => ?_
    refine (h.assignment t).bind_pure fun vs b hvs => ?_
    exact .branches htest hus hvs
  · exact .pure (by simpa using .test htest)

theorem next_assignment (h : inner.Sound limit g) :
    Yields limit (Source.assignment limit inner) g.Assignment := by
  unfold Source.assignment
  refine fun t => (h.conditional t).bind fun ts target htarget t => .token ?_
  split
  · next op hop =>
    split
    · next hassignable =>
      refine .advance (Token.ne_eof rfl hop) fun u => (h.assignment u).bind_pure fun us e hus => ?_
      exact .assign htarget hassignable hop hus
    · exact .fail _
  · exact .pure (by simpa using .conditional htarget)

/-! ### Statements -/

theorem binding (h : inner.Sound limit g) (kind : BindingKind) :
    Yields limit (binding inner kind) (g.Binding kind) := by
  unfold Source.binding
  refine fun t => .identifier fun x t => .accept ?_ ?_
  · rw [if_pos rfl]
    exact fun t => (h.assignment t).bind_pure fun ts e hts => .valued x hts
  · simp only [Bool.false_eq_true, ↓reduceIte]
    split
    · exact .fail _
    · next hkind => exact .pure (.bare x hkind)

theorem next_statement (h : inner.Sound limit g) :
    Yields limit (Source.statement limit inner) g.Statement := by
  unfold Source.statement
  refine fun t => .get fun i hi => ?_
  dsimp only
  rw [hi]
  split
  · next kind hkind =>
    have hbindings : Yields limit (separated (Source.binding inner kind) limit)
        (Separated (g.Binding kind)) :=
      .separated (h.binding kind) (fun _ _ hts => hts.ne_nil) (Nat.le_refl limit)
    refine .advance (Token.ne_eof rfl hkind) fun u => (hbindings u).bind fun ts bindings hts u => ?_
    exact .endStatement_pure fun us hus => .declare hkind hts hus
  split
  case h_1 =>
    refine .advance nofun fun t => .identifier fun name t => ?_
    exact (h.functionRest t).bind_pure fun ts (params, body) hts => .function name hts
  case h_2 =>
    refine .advance nofun fun t => .grouped h.assignment fun ts test hts t => ?_
    refine (h.statement t).bind fun us a hus t => .token ?_
    split
    · next ht =>
      subst ht
      refine .advance nofun fun t => (h.statement t).bind_pure fun vs b hvs => ?_
      exact .alternative hts hus hvs
    · exact .pure (by simpa using .conditional hts hus)
  case h_3 =>
    refine .advance nofun fun t => .grouped h.assignment fun ts test hts t => ?_
    exact (h.statement t).bind_pure fun us body hus => .while hts hus
  case h_4 =>
    refine .advance nofun fun t => .atStatementEnd fun atEnd => ?_
    cases atEnd with
    | true => exact .endStatement_pure fun us hus => .returnNone hus
    | false =>
      have hvalue : YieldsAt limit t (some <$> inner.assignment) fun ts value =>
          ∃ e, g.assignment ts e ∧ value = some e :=
        (h.assignment t).map fun ts e hts => ⟨e, hts, rfl⟩
      refine hvalue.bind ?_
      rintro ts _ ⟨e, hts, rfl⟩ t
      exact .endStatement_pure fun us hus => .returnSome hts hus
  case h_5 =>
    refine .advance nofun fun t => (h.assignment t).bind fun ts e hts t => ?_
    exact .endStatement_pure fun us hus => .throw _ hts hus
  case h_6 =>
    refine .advance nofun fun t => (h.braced t).bind_pure ?_
    rintro _ body ⟨us, hus, rfl⟩
    exact .block hus
  case h_7 => exact .advance nofun fun _ => .pure .empty
  case h_8 =>
    refine (h.assignment t).bind fun ts e hts t => ?_
    exact .endStatement_pure fun us hus => .expression hts hus

/-- **One level further out**: the productions yield the phrases with one more level. -/
theorem next (h : inner.Sound limit g) :
    Nested.Sound limit ⟨Source.statement limit inner, Source.assignment limit inner,
      Source.unary limit inner⟩ ⟨g.Statement, g.Assignment, g.Unary⟩ where
  statement := h.next_statement
  assignment := h.next_assignment
  unary := h.next_unary
  statement_ne_nil _ _ hs := hs.ne_nil h.assignment_ne_nil
  assignment_ne_nil _ _ he := he.ne_nil

end Nested.Sound

/-- The readers that may nest `n` levels deep yield phrases that nest at most `n` levels deep. -/
theorem nested_sound (limit n : Nat) : (nested limit n).Sound limit (phrases n) := by
  induction n with
  | zero =>
    exact {
      statement := fun _ => .fail _
      assignment := fun _ => .fail _
      unary := fun _ => .fail _
      statement_ne_nil := fun _ _ h => h.elim
      assignment_ne_nil := fun _ _ h => h.elim }
  | succ n ih => exact ih.next

/-! ## Programs -/

/-- The text is a sequence of statements, all of which are read: at the end `eof` is at hand and
    nothing comes after it. -/
theorem program_sound {limit steps : Nat} {p : Parse Stmt} {R : List Token → Stmt → Prop}
    (hp : Yields limit p R) (hne : ∀ ts s, R ts s → ts ≠ []) (hs : steps ≤ limit) {i i' : Input}
    {ts : List Token} {body : Program} (hi : i.Holds ts) (hl : ts.length < steps)
    (hts : .eof ∉ ts) (hrun : (program p steps).run i = .ok (body, i')) :
    Phrases.Sequence R ts body ∧ i'.current.token = .eof ∧ i'.rest = [] := by
  induction steps generalizing i ts body with
  | zero => exact absurd hl (Nat.not_lt_zero _)
  | succ steps ih =>
    unfold program at hrun
    obtain ⟨t, j, ⟨⟩, hrun⟩ := Parse.exists_of_run_bind hrun
    split at hrun
    · next ht =>
      obtain ⟨rfl, hrest⟩ := hi.eq_nil ht hts
      cases hrun
      exact ⟨.nil, ht, hrest⟩
    · obtain ⟨s, j, hstatement, hrun⟩ := Parse.exists_of_run_bind hrun
      obtain ⟨body, j', hbody, ⟨⟩⟩ := Parse.exists_of_run_bind hrun
      obtain ⟨us, vs, rfl, hj, hus⟩ :=
        hp _ i ts s j hi (Nat.lt_of_lt_of_le hl hs) rfl hstatement
      have hlvs : vs.length < steps := by
        have := List.length_pos_iff.2 (hne us s hus)
        simp only [List.length_append] at hl
        omega
      obtain ⟨hvs, hend⟩ := ih (Nat.le_of_succ_le hs) hj hlvs
        (fun h => hts (List.mem_append_right us h)) hbody
      exact ⟨.cons hus hvs, hend⟩

/-! ## Texts -/

theorem Input.holds_ofLexemes {ls : List Lexeme} {ts : List Token}
    (h : ls.map Lexeme.token = ts ++ [.eof]) : (ofLexemes ls).Holds ts := by
  cases ls with
  | nil => simp at h
  | cons l ls => exact h

/-- The tokens of a program are a sequence of statements, and all of them are read. -/
theorem Program.ofText?_sound {s : String} {p : Program} (h : ofText? s = .ok p) :
    Phrases.Sequence (phrases maxDepth).statement (Token.ofText s) p ∧
      ∃ l, (program (nested (Lexeme.ofText s).length maxDepth).statement
        (Lexeme.ofText s).length).run (.ofLexemes (Lexeme.ofText s)) = .ok (p, ⟨l, []⟩) ∧
        l.token = .eof := by
  obtain ⟨htokens, heof⟩ := Lexeme.map_token_ofText s
  unfold ofText? ofLexemes? at h
  rw [StateT.run'_eq] at h
  generalize hrun : (program (nested (Lexeme.ofText s).length maxDepth).statement
    (Lexeme.ofText s).length).run (.ofLexemes (Lexeme.ofText s)) = r at h ⊢
  cases r with
  | error x => exact nomatch h
  | ok r =>
    obtain ⟨body, current, rest⟩ := r
    obtain rfl : body = p := Except.ok.inj h
    have hsound := nested_sound (Lexeme.ofText s).length maxDepth
    have hlength : (Token.ofText s).length < (Lexeme.ofText s).length := by
      have := congrArg List.length htokens
      simp only [List.length_map, List.length_append, List.length_singleton] at this
      omega
    obtain ⟨hbody, hcurrent, rfl⟩ := program_sound hsound.statement hsound.statement_ne_nil
      (Nat.le_refl _) (Input.holds_ofLexemes htokens) hlength heof hrun
    exact ⟨hbody, current, rfl, hcurrent⟩

end Requisite.Source
