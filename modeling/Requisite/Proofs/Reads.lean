/-
  Readers on a line of tokens.

  `Reads limit p ts a next` says that `p` takes the tokens `ts` and returns `a`
  wherever a token that satisfies `next` comes after them.  Whether a list or an
  operator chain goes on depends on that token, and on no other.

  * `Token.ends`: the tokens that end an expression;
  * `Input.Shows`: which tokens are left, all of them on the first line;
  * `Reads.bind`: one reader after the other;
  * `Reads.listed`, `Reads.closed`: lists with commas;
  * `Reads.sentences`: lists of statements.
-/
import Mathlib.Data.List.Forall2
import Requisite.Proofs.Print

namespace Requisite.Source

open Requisite Parse

/-! ## Tokens after expressions -/

/-- No expression begins with the token, and none goes on with it. -/
def Token.ends : Token → Bool
  | .symbol s =>
    s ∈ [.rightParen, .rightBracket, .rightBrace, .comma, .colon, .semicolon]
  | .keyword .elseWord | .eof => true
  | _ => false

/-! ## Input -/

/-- The tokens that are left are `ts`, and stand on the first line. -/
structure Input.Shows (i : Input) (ts : List Token) : Prop where
  tokens : (i.current :: i.rest).map Lexeme.token = ts
  oneLine : ∀ l ∈ i.current :: i.rest, l.newline = false ∧ l.start.line = 1

namespace Input.Shows

variable {i : Input} {t u : Token} {ts : List Token}

theorem token (h : i.Shows (t :: ts)) : i.current.token = t :=
  (List.cons.inj h.tokens).1

theorem newline (h : i.Shows ts) : i.current.newline = false :=
  (h.oneLine _ List.mem_cons_self).1

theorem line (h : i.Shows ts) : i.current.start.line = 1 :=
  (h.oneLine _ List.mem_cons_self).2

theorem next (h : i.Shows (t :: u :: ts)) : i.next.Shows (u :: ts) := by
  obtain ⟨current, rest⟩ := i
  cases rest with
  | nil => simpa using h.tokens
  | cons l ls =>
    exact ⟨(List.cons.inj h.tokens).2, fun m hm => h.oneLine m (List.mem_cons_of_mem _ hm)⟩

end Input.Shows

/-! ## Readers -/

variable {α β : Type} {limit : Nat} {p : Parse α} {k : α → Parse β} {ts us : List Token}
  {t : Token} {a : α} {b : β} {next mid : Token → Prop}

/-- Where `ts` come next and a token that satisfies `next` after them, and there are at most
    `limit` tokens, the reader takes `ts` and returns `a`. -/
def Reads (limit : Nat) (p : Parse α) (ts : List Token) (a : α) (next : Token → Prop) : Prop :=
  ∀ i t rest, Input.Shows i (ts ++ t :: rest) → (ts ++ t :: rest).length ≤ limit → next t →
    ∃ i', p.run i = .ok (a, i') ∧ i'.Shows (t :: rest)

namespace Reads

theorem mono (h : Reads limit p ts a mid) (hm : ∀ t, next t → mid t) :
    Reads limit p ts a next :=
  fun i t rest hi hl hn => h i t rest hi hl (hm t hn)

/-- There is room for what is read. -/
theorem of_length (h : ts.length < limit → Reads limit p ts a next) :
    Reads limit p ts a next := by
  intro i t rest hi hl hn
  refine h ?_ i t rest hi hl hn
  simp only [List.length_append, List.length_cons] at hl
  omega

theorem pure : Reads limit (pure a) [] a next :=
  fun i _ _ hi _ _ => ⟨i, rfl, hi⟩

/-- The second reader begins with what comes after the first, or with what comes after both. -/
theorem bind (hp : Reads limit p ts a mid) (hk : Reads limit (k a) us b next)
    (hm : ∀ t, next t → mid (us.headD t)) : Reads limit (p >>= k) (ts ++ us) b next := by
  intro i t rest hi hl hn
  obtain ⟨u, vs, huv, hu⟩ : ∃ u vs, us ++ t :: rest = u :: vs ∧ mid u := by
    cases us with
    | nil => exact ⟨t, rest, rfl, hm t hn⟩
    | cons u us => exact ⟨u, us ++ t :: rest, rfl, hm t hn⟩
  rw [List.append_assoc] at hi hl
  obtain ⟨j, hj, hjs⟩ := hp i u vs (huv ▸ hi) (huv ▸ hl) hu
  have hlk : (us ++ t :: rest).length ≤ limit := by
    simp only [List.length_append] at hl ⊢
    omega
  obtain ⟨i', hi', his⟩ := hk j t rest (huv ▸ hjs) hlk hn
  exact ⟨i', by rw [StateT.run_bind, hj]; exact hi', his⟩

/-- The second reader takes nothing. -/
theorem bind_nil (hp : Reads limit p ts a mid) (hk : Reads limit (k a) [] b next)
    (hm : ∀ t, next t → mid t) : Reads limit (p >>= k) ts b next := by
  rw [← List.append_nil ts]
  exact hp.bind hk hm

theorem map (f : α → β) (hp : Reads limit p ts a next) : Reads limit (f <$> p) ts (f a) next := by
  intro i t rest hi hl hn
  obtain ⟨i', hi', his⟩ := hp i t rest hi hl hn
  exact ⟨i', by rw [StateT.run_map, hi']; rfl, his⟩

/-! ## Tokens -/

section
variable {k : Token → Parse β}

/-- A look at the first of the tokens that are read. -/
theorem token_cons (h : Reads limit (k t) (t :: ts) b next) :
    Reads limit (token >>= k) (t :: ts) b next := by
  intro i u rest hi hl hn
  obtain ⟨i', hi', his⟩ := h i u rest hi hl hn
  refine ⟨i', ?_, his⟩
  rw [← hi', ← hi.token]
  rfl

/-- A look at the token after what is read. -/
theorem token_nil (h : ∀ t, next t → Reads limit (k t) [] b (· = t)) :
    Reads limit (token >>= k) [] b next := by
  intro i u rest hi hl hn
  obtain ⟨i', hi', his⟩ := h u hn i u rest hi hl rfl
  refine ⟨i', ?_, his⟩
  rw [← hi', ← hi.token]
  rfl

end

/-- A look at the place of the first of the tokens that are read. -/
theorem get_cons {k : Input → Parse β}
    (h : ∀ i : Input, i.current.token = t → i.current.start.line = 1 →
      Reads limit (k i) (t :: ts) b next) :
    Reads limit (get >>= k) (t :: ts) b next :=
  fun i u rest hi hl hn => h i hi.token hi.line i u rest hi hl hn

theorem advance {k : Unit → Parse β} (h : Reads limit (k ()) ts b next) :
    Reads limit (Parse.advance >>= k) (t :: ts) b next := by
  intro i u rest hi hl hn
  refine h i.next u rest ?_ (Nat.le_of_succ_le hl) hn
  cases ts with
  | nil => exact hi.next
  | cons v vs => exact hi.next

theorem expect {k : Unit → Parse β} {s : Symbol} (h : Reads limit (k ()) ts b next) :
    Reads limit (Parse.expect s >>= k) (.symbol s :: ts) b next := by
  simp only [Parse.expect, bind_assoc]
  refine token_cons ?_
  rw [if_pos rfl]
  exact h.advance

theorem identifier {k : String → Parse β} {x : String} (h : Reads limit (k x) ts b next) :
    Reads limit (Parse.identifier >>= k) (.identifier x :: ts) b next := by
  simp only [Parse.identifier, bind_assoc]
  refine token_cons ?_
  simp only [bind_assoc, pure_bind]
  exact h.advance

section
variable {k : Bool → Parse β} {s : Symbol}

theorem accept (h : Reads limit (k true) ts b next) :
    Reads limit (Parse.accept s >>= k) (.symbol s :: ts) b next := by
  simp only [Parse.accept, bind_assoc]
  refine token_cons ?_
  simp only [↓reduceIte, bind_assoc, pure_bind]
  exact h.advance

theorem accept_ne (hs : ∀ t, next t → ts.headD t ≠ .symbol s)
    (h : Reads limit (k false) ts b next) : Reads limit (Parse.accept s >>= k) ts b next := by
  simp only [Parse.accept, bind_assoc]
  cases ts with
  | nil =>
    refine token_nil fun t ht => ?_
    have hne : t ≠ .symbol s := hs t ht
    rw [if_neg hne, pure_bind]
    exact h.mono fun u hu => hu ▸ ht
  | cons t ts =>
    intro i u rest hi hl hn
    refine token_cons ?_ i u rest hi hl hn
    have hne : t ≠ .symbol s := hs u hn
    rw [if_neg hne, pure_bind]
    exact h

end

/-- No new line begins here, so that only the token may end a statement. -/
theorem atStatementEnd {k : Bool → Parse β}
    (h : Reads limit (k (t = .symbol .semicolon || t = .symbol .rightBrace || t = .eof))
      (t :: ts) b next) :
    Reads limit (Parse.atStatementEnd >>= k) (t :: ts) b next := by
  intro i u rest hi hl hn
  obtain ⟨i', hi', his⟩ := h i u rest hi hl hn
  refine ⟨i', ?_, his⟩
  rw [← hi', ← hi.token, ← Bool.or_false (_ || _), ← hi.newline]
  rfl

theorem endStatement {k : Unit → Parse β} (h : Reads limit (k ()) ts b next) :
    Reads limit (Parse.endStatement >>= k) (.symbol .semicolon :: ts) b next := by
  simp only [Parse.endStatement, bind_assoc]
  refine accept ?_
  simpa using h

/-! ## Lists -/

/-- What an item of a list is read from: it does not begin as a list may end. -/
structure Item (limit : Nat) (p : Parse α) (ts : List Token) (a : α) : Prop where
  begins : ∃ t us, ts = t :: us ∧ t.ends = false
  reads : Reads limit p ts a (·.ends)

theorem length_le_commas (tss : List (List Token)) : tss.length ≤ (commas tss).length + 1 := by
  induction tss with
  | nil => exact Nat.zero_le _
  | cons ts rest ih =>
    cases rest with
    | nil => simp
    | cons us rest =>
      rw [commas_cons_cons]
      simp only [List.length_append, List.length_cons] at ih ⊢
      omega

theorem exists_commas_cons (t : Token) (ts : List Token) (tss : List (List Token)) :
    ∃ us, commas ((t :: ts) :: tss) = t :: us := by
  cases tss with
  | nil => exact ⟨ts, commas_singleton _⟩
  | cons us tss => exact ⟨_, commas_cons_cons ..⟩

variable {tss : List (List Token)} {as : List α}

theorem separated {steps : Nat} (h : List.Forall₂ (Item limit p) tss as) (hne : as ≠ [])
    (hs : tss.length ≤ steps) (hc : ∀ t, next t → t.ends ∧ t ≠ .symbol .comma) :
    Reads limit (Source.separated p steps) (commas tss) as next := by
  induction h generalizing steps with
  | nil => exact absurd rfl hne
  | @cons ts a rest as hi hrest ih =>
    obtain ⟨steps, rfl⟩ := Nat.exists_eq_add_one.2 (Nat.lt_of_lt_of_le (Nat.succ_pos _) hs)
    unfold Source.separated
    cases hrest with
    | nil =>
      rw [commas_singleton]
      exact hi.reads.bind_nil (accept_ne (fun t ht => (hc t ht).2) .pure) fun t ht => (hc t ht).1
    | cons hi' hrest' =>
      rw [commas_cons_cons]
      refine hi.reads.bind (accept ?_) fun t ht => rfl
      rw [if_pos rfl]
      exact (ih (by simp) (Nat.le_of_succ_le_succ hs)).bind_nil .pure fun t ht => ht

theorem terminated (close : Symbol) (hc : (Token.symbol close).ends) (hne : close ≠ .comma)
    {steps : Nat} (h : List.Forall₂ (Item limit p) tss as) (hs : tss.length ≤ steps) :
    Reads limit (Source.terminated close p steps) (commas tss) as (· = .symbol close) := by
  induction h generalizing steps with
  | nil =>
    cases steps with
    | zero => exact .pure
    | succ steps =>
      unfold Source.terminated
      refine token_nil fun t ht => ?_
      rw [if_pos (.inl ht)]
      exact .pure
  | @cons ts a rest as hi hrest ih =>
    obtain ⟨steps, rfl⟩ := Nat.exists_eq_add_one.2 (Nat.lt_of_lt_of_le (Nat.succ_pos _) hs)
    have ih := ih (Nat.le_of_succ_le_succ hs)
    obtain ⟨t, us, rfl, ht⟩ := hi.begins
    have hbegin : ¬(t = .symbol close ∨ t = .eof) := by
      rintro (rfl | rfl)
      · exact absurd (hc.symm.trans ht) nofun
      · exact absurd ht nofun
    obtain ⟨vs, hvs⟩ := exists_commas_cons t us rest
    rw [hvs]
    unfold Source.terminated
    refine token_cons ?_
    rw [if_neg hbegin, ← hvs]
    cases hrest with
    | nil =>
      rw [commas_singleton]
      refine hi.reads.bind_nil (token_nil ?_) fun u hu => hu ▸ hc
      rintro u rfl
      rw [if_neg (not_not_intro rfl)]
      exact ih.bind_nil .pure fun u hu => hu
    | cons hi' hrest' =>
      have hcomma : Token.symbol .comma ≠ .symbol close := fun h => hne (Token.symbol.inj h).symm
      rw [commas_cons_cons]
      refine hi.reads.bind (token_cons ?_) fun u hu => rfl
      rw [if_pos hcomma]
      exact expect (ih.bind_nil .pure fun u hu => hu)

/-- Items up to a closing symbol, and that symbol. -/
theorem closed {k : List α → Parse β} (close : Symbol) (hc : (Token.symbol close).ends)
    (hne : close ≠ .comma) (h : List.Forall₂ (Item limit p) tss as)
    (hk : Reads limit (k as) us b next) :
    Reads limit (Source.terminated close p limit >>= fun as => Parse.expect close >>= fun _ => k as)
      (commas tss ++ .symbol close :: us) b next := by
  refine of_length fun hl => ?_
  have hs := length_le_commas tss
  simp only [List.length_append, List.length_cons] at hl
  exact (terminated close hc hne h (by omega)).bind (expect hk) fun _ _ => rfl

theorem listed (h : List.Forall₂ (Item limit p) tss as) :
    Reads limit (Source.listed limit p) (commas tss ++ [.symbol .rightParen]) as
      fun _ => True := by
  refine of_length fun hl => ?_
  unfold Source.listed
  cases h with
  | nil =>
    refine token_cons ?_
    rw [if_pos rfl, pure_bind]
    exact expect .pure
  | @cons ts a rest as hi hrest =>
    have hs := length_le_commas (ts :: rest)
    simp only [List.length_append, List.length_cons, List.length_nil] at hl hs
    obtain ⟨t, us, rfl, ht⟩ := hi.begins
    have hparen : t ≠ .symbol .rightParen := by
      rintro rfl
      exact absurd ht nofun
    obtain ⟨vs, hvs⟩ := exists_commas_cons t us rest
    rw [hvs, List.cons_append]
    refine token_cons ?_
    rw [if_neg hparen, ← List.cons_append, ← hvs]
    have hsep : Reads limit (Source.separated p limit) (commas ((t :: us) :: rest)) (a :: as)
        (· = .symbol .rightParen) := by
      refine separated (.cons hi hrest) (List.cons_ne_nil _ _) ?_ ?_
      · simp only [List.length_cons]
        omega
      · rintro t rfl
        exact ⟨rfl, nofun⟩
    exact hsep.bind (expect .pure) fun _ _ => rfl

/-! ## Statements -/

/-- What a statement among others is read from: it begins neither as a list of statements may
    end nor with `else`. -/
structure Sentence (limit : Nat) (p : Parse α) (ts : List Token) (a : α) : Prop where
  begins : ∃ t us, ts = t :: us ∧ t ≠ .symbol .rightBrace ∧ t ≠ .eof ∧ t ≠ .keyword .elseWord
  reads : Reads limit p ts a (· ≠ .keyword .elseWord)

theorem ne_else_of_sentences (h : List.Forall₂ (Sentence limit p) tss as)
    (ht : t ≠ .keyword .elseWord) : tss.flatten.headD t ≠ .keyword .elseWord := by
  cases h with
  | nil => exact ht
  | cons hi =>
    obtain ⟨u, us, rfl, -, -, hu⟩ := hi.begins
    exact hu

theorem length_le_flatten (h : List.Forall₂ (Sentence limit p) tss as) :
    tss.length ≤ tss.flatten.length := by
  induction h with
  | nil => exact Nat.le_refl _
  | cons hi _ ih =>
    obtain ⟨u, us, rfl, -⟩ := hi.begins
    simp only [List.flatten_cons, List.length_append, List.length_cons]
    omega

/-- A loop over statements, up to a token that stops it. -/
theorem sentences {loop : Nat → Parse (List α)} {stop : Token → Prop} [DecidablePred stop]
    (hzero : loop 0 = Pure.pure [])
    (hsucc : ∀ n, loop (n + 1) = token >>= fun t =>
      if stop t then Pure.pure []
      else p >>= fun a => loop n >>= fun as => Pure.pure (a :: as))
    (hstop : ∀ t, stop t → t = .symbol .rightBrace ∨ t = .eof) {steps : Nat}
    (h : List.Forall₂ (Sentence limit p) tss as) (hs : tss.length ≤ steps) :
    Reads limit (loop steps) tss.flatten as stop := by
  induction h generalizing steps with
  | nil =>
    cases steps with
    | zero =>
      rw [hzero]
      exact .pure
    | succ steps =>
      rw [hsucc]
      refine token_nil fun t ht => ?_
      rw [if_pos ht]
      exact .pure
  | @cons ts a rest as hi hrest ih =>
    obtain ⟨steps, rfl⟩ := Nat.exists_eq_add_one.2 (Nat.lt_of_lt_of_le (Nat.succ_pos _) hs)
    obtain ⟨t, us, rfl, hbrace, heof, -⟩ := hi.begins
    have hgo : ¬stop t := fun ht => (hstop t ht).elim hbrace heof
    rw [hsucc, List.flatten_cons, List.cons_append]
    refine token_cons ?_
    rw [if_neg hgo, ← List.cons_append]
    refine hi.reads.bind ((ih (Nat.le_of_succ_le_succ hs)).bind_nil .pure fun t ht => ht)
      fun t ht => ?_
    refine ne_else_of_sentences hrest ?_
    rcases hstop t ht with rfl | rfl <;> exact nofun

section
variable {p : Parse Stmt} {body : List Stmt} {steps : Nat}

theorem statements (h : List.Forall₂ (Sentence limit p) tss body) (hs : tss.length ≤ steps) :
    Reads limit (Source.statements p steps) tss.flatten body
      fun t => t = .symbol .rightBrace ∨ t = .eof :=
  sentences rfl (fun _ => rfl) (fun _ ht => ht) h hs

theorem program (h : List.Forall₂ (Sentence limit p) tss body) (hs : tss.length ≤ steps) :
    Reads limit (Source.program p steps) tss.flatten body (· = .eof) :=
  sentences rfl (fun _ => rfl) (fun _ ht => .inr ht) h hs

end

end Reads

end Requisite.Source
