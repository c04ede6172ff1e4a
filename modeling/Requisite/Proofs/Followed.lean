/-
  The grammar, read by a parser and by a reader that follows it.

  * `Follows.separated`, `Follows.terminated`, `Follows.statements`: the loops,
    which have more steps than there are tokens;
  * `Readers.Followed`: readers of what nests, and readers that follow them;
  * `parsers_followed`: so it is at each depth;
  * `program_followed`: and with whole programs.
-/
import Requisite.Proofs.Follows
import Requisite.Proofs.Yields

namespace Requisite.Source

open FollowsAt

variable {α : Type} {K : Place → Prop} {d k limit limit' : Nat} {t : Token}

/-! ## Lists -/

/-- Loops of `n` and of `n'` steps go through `k` tokens. -/
structure Enough (k n n' : Nat) : Prop where
  left : k ≤ n
  right : k ≤ n'

namespace Enough

variable {n n' : Nat}

theorem pred (h : Enough (k + 1) n n') : Enough k n n' :=
  ⟨Nat.le_of_succ_le h.left, Nat.le_of_succ_le h.right⟩

/-- After a step there is enough for the tokens that are left. -/
theorem exists_succ (h : Enough (k + 1) n n') :
    ∃ m m', n = m + 1 ∧ n' = m' + 1 ∧ Enough k m m' := by
  obtain ⟨m, rfl⟩ := Nat.exists_eq_add_of_lt h.left
  obtain ⟨m', rfl⟩ := Nat.exists_eq_add_of_lt h.right
  exact ⟨k + m, k + m', rfl, rfl, Nat.le_add_right k m, Nat.le_add_right k m'⟩

end Enough

namespace Follows

variable {c : Parsing α} {p : Parse α} {steps steps' : Nat}

theorem mono {k' : Nat} {m : Manner} (hc : Follows K d k m c p) (hk : k' ≤ k) :
    Follows K d k' m c p :=
  fun t => (hc t).mono hk

theorem separated (hc : Follows K d k .taking c p) (hs : Enough k steps steps') :
    Follows K d k .taking (separated c steps) (separated p steps') := by
  induction k generalizing steps steps' with
  | zero => exact fun _ => .zero
  | succ k ih =>
    obtain ⟨steps, steps', rfl, rfl, hsteps⟩ := hs.exists_succ
    have hrest := ih (hc.mono (Nat.le_succ k)) hsteps
    unfold Source.separated
    refine fun t => (hc t).bind_item .taking_passing fun x t => accept (by decide) ?_ ?_
    · simp only [if_pos]
      exact fun t => (hrest t).map _
    · exact .pure [x] (by decide)

theorem terminated (close : Symbol) (hc : Follows K d k .taking c p) (hs : Enough k steps steps') :
    Follows K d k .listing (terminated close c steps) (terminated close p steps') := by
  induction k generalizing steps steps' with
  | zero => exact fun _ => .zero
  | succ k ih =>
    obtain ⟨steps, steps', rfl, rfl, hsteps⟩ := hs.exists_succ
    have hrest := ih (hc.mono (Nat.le_succ k)) hsteps
    unfold Source.terminated
    refine fun t => token (by decide) ?_
    split
    · exact .pure [] (by decide)
    · refine (hc t).bind_item .taking_listing fun x t => token (m := .listing) (by decide) ?_
      split
      · exact (expect _).bind_joins .taking_listing fun _ t => (hrest t).map _
      · exact (hrest t).map _

theorem listed (hc : Follows K d k .taking c p) (hl : Enough k limit limit') :
    Follows K d k .taking (listed limit c) (listed limit' p) := by
  unfold Source.listed
  refine fun t => token (by decide) ?_
  split
  · rw [pure_bind, pure_bind]
    exact (expect _).map _
  · exact (hc.separated hl t).bind fun xs t => (expect _).map _

theorem chain {operand : Parsing Expr} {operand' : Parse Expr}
    (hc : Follows K d k .taking operand operand') (hs : Enough k steps steps')
    (level : Nat) (left : Expr) :
    Follows K d k .passing (chain level operand steps left) (chain level operand' steps' left) := by
  induction k generalizing steps steps' left with
  | zero => exact fun _ => .zero
  | succ k ih =>
    obtain ⟨steps, steps', rfl, rfl, hsteps⟩ := hs.exists_succ
    have hc' := hc.mono (Nat.le_succ k)
    unfold Source.chain
    refine fun t => look ?_
    split
    · next op hop =>
      have hrest := ih hc' hsteps
      exact .inl (take_item (Token.ne_eof rfl hop) fun t =>
        (hc' t).bind_joins .taking_passing fun right => hrest _)
    · exact .inr ⟨.pure left (by decide), rfl⟩

theorem statements {c : Parsing Stmt} {p : Parse Stmt} (hc : Follows K d k .taking c p)
    (hs : Enough k steps steps') :
    Follows K d k .listing (statements c steps) (statements p steps') := by
  induction k generalizing steps steps' with
  | zero => exact fun _ => .zero
  | succ k ih =>
    obtain ⟨steps, steps', rfl, rfl, hsteps⟩ := hs.exists_succ
    have hrest := ih (hc.mono (Nat.le_succ k)) hsteps
    unfold Source.statements
    refine fun t => token (by decide) ?_
    split
    · exact .pure [] (by decide)
    · exact (hc t).bind_item .taking_listing fun s t => (hrest t).map _

end Follows

/-! ## Productions -/

/-- Readers of what nests take tokens, and others follow them. -/
structure Readers.Followed (K : Place → Prop) (d k : Nat) (r : Readers Parsing) (r' : Nested) :
    Prop where
  statement : Follows K d k .taking r.statement r'.statement
  assignment : Follows K d k .taking r.assignment r'.assignment
  unary : Follows K d k .taking r.unary r'.unary

namespace Readers.Followed

variable {inner : Readers Parsing} {inner' : Nested}

theorem mono {k' : Nat} (h : inner.Followed K d k inner') (hk : k' ≤ k) :
    inner.Followed K d k' inner' :=
  ⟨h.statement.mono hk, h.assignment.mono hk, h.unary.mono hk⟩

variable (h : inner.Followed K d k inner') (hl : Enough k limit limit')
include h

/-! ### Functions and objects -/

theorem property : Follows K d k .taking (property inner) (property inner') := by
  unfold Source.property
  refine fun t => token (by decide) ?_
  split
  · exact .fail _
  · next key hkey =>
    refine (advance (Token.ne_eof rfl hkey)).bind_joins .taking_passing fun _ t => look ?_
    split
    · next ht => exact .inr ⟨.pure _ (by decide), if_pos ⟨ht.1, by simp⟩⟩
    · exact .inl ((expect _).bind fun _ t => (h.assignment t).map _)

include hl

theorem braced : Follows K d k .taking (braced limit inner) (braced limit' inner') := by
  unfold Source.braced
  exact fun t => (h.statement.statements hl t).closed _ id

theorem functionRest :
    Follows K d k .taking (functionRest limit inner) (functionRest limit' inner') := by
  unfold Source.functionRest
  refine fun t => (expect _).bind fun _ t => ?_
  refine (Follows.listed (fun _ => .identifier) hl t).bind fun params t => ?_
  exact (expect _).bind fun _ t => (h.braced hl t).map _

theorem functionExpression : Follows K d k .taking (functionExpression limit inner)
    (functionExpression limit' inner') := by
  unfold Source.functionExpression
  refine fun t => token (by decide) ?_
  split
  · simp only [pure_bind]
    exact take nofun fun t => (h.functionRest hl t).map _
  · rw [pure_bind, pure_bind]
    exact (h.functionRest hl t).map _

/-! ### Expressions -/

theorem primary : Follows K d k .taking (primary limit inner) (primary limit' inner') := by
  unfold Source.primary
  refine fun t => token (by decide) ?_
  split
  case h_1 x => exact take_pure nofun
  case h_2 s => exact take_pure nofun
  case h_3 b => exact take_pure nofun
  case h_4 => exact take_pure nofun
  case h_5 x => exact take_pure nofun
  case h_6 => exact take nofun (h.functionExpression hl)
  case h_7 =>
    refine take nofun fun t => (h.assignment t).bind fun e t => ?_
    exact (expect _).map _
  case h_8 =>
    refine take nofun fun t => ?_
    exact (h.assignment.terminated _ hl t).closed _ _
  case h_9 =>
    refine take nofun fun t => ?_
    exact (h.property.terminated _ hl t).closed _ _
  case h_10 => exact .fail _

theorem suffixes {steps steps' : Nat} (hs : Enough k steps steps') (e : Expr) :
    Follows K d k .passing (suffixes limit inner steps e) (suffixes limit' inner' steps' e) := by
  induction k generalizing steps steps' e with
  | zero => exact fun _ => .zero
  | succ k ih =>
    obtain ⟨steps, steps', rfl, rfl, hsteps⟩ := hs.exists_succ
    have h' := h.mono (Nat.le_succ k)
    have hrest := ih h' hl.pred hsteps
    unfold Source.suffixes
    refine fun t => look ?_
    split
    · exact .inl (take_item nofun fun t =>
        (h'.assignment.listed hl.pred t).bind_joins .taking_passing fun _ => hrest _)
    · exact .inl (take_item nofun fun t => identifier.bind_joins .taking_passing fun key => hrest _)
    · exact .inl (take_item nofun fun t => (h'.assignment t).bind fun key t =>
        (expect _).bind_joins .taking_passing fun _ => hrest _)
    · exact .inr ⟨.pure e (by decide), rfl⟩

theorem next_unary :
    Follows K d k .taking (Source.unary limit inner) (Source.unary limit' inner') := by
  unfold Source.unary
  refine fun t => token (by decide) ?_
  split
  · next op hop => exact take (Token.ne_eof rfl hop) fun t => (h.unary t).map _
  · exact (h.primary hl t).bind_joins .taking_passing fun e => h.suffixes hl hl e

theorem operators (level : Nat) :
    Follows K d k .taking (operators limit inner level) (operators limit' inner' level) := by
  induction level with
  | zero => exact h.next_unary hl
  | succ level ih =>
    unfold Source.operators
    exact fun t => (ih t).bind_joins .taking_passing fun left => ih.chain hl (level + 1) left

theorem conditional :
    Follows K d k .taking (conditional limit inner) (conditional limit' inner') := by
  unfold Source.conditional
  refine fun t => (h.operators hl _ t).bind_joins .taking_passing fun test t => ?_
  refine accept (by decide) ?_ ?_
  · simp only [if_pos]
    refine fun t => (h.assignment t).bind fun consequent t => ?_
    exact (expect _).bind fun _ t => (h.assignment t).map _
  · exact .pure test (by decide)

theorem next_assignment :
    Follows K d k .taking (Source.assignment limit inner) (Source.assignment limit' inner') := by
  unfold Source.assignment
  refine fun t => (h.conditional hl t).bind_joins .taking_passing fun target t => look ?_
  split
  · next op hop =>
    split
    · exact .inl (take (Token.ne_eof rfl hop) fun t => (h.assignment t).map _)
    · exact .inl (.fail _)
  · exact .inr ⟨.pure target (by decide), rfl⟩

/-! ### Statements -/

omit hl in
theorem binding (kind : BindingKind) :
    Follows K d k .taking (binding inner kind) (binding inner' kind) := by
  unfold Source.binding
  refine fun t => identifier.bind_joins .taking_passing fun name t => accept (by decide) ?_ ?_
  · simp only [if_pos]
    exact fun t => (h.assignment t).map _
  · simp only [Bool.false_eq_true, ↓reduceIte]
    split
    · exact .fail _
    · exact .pure _ (by decide)

theorem next_statement :
    Follows K d k .taking (Source.statement limit inner) (Source.statement limit' inner') := by
  unfold Source.statement
  refine fun t => input (by decide) fun i j hij hi => ?_
  dsimp only
  rw [hij.token, hij.line, hi]
  split
  · next kind hkind =>
    refine take (Token.ne_eof rfl hkind) fun t => ?_
    exact ((h.binding kind).separated hl t).ended _
  split
  case h_1 =>
    refine take nofun fun t => identifier.bind fun name t => ?_
    exact (h.functionRest hl t).map _
  case h_2 =>
    refine take nofun fun t => (expect _).bind fun _ t => (h.assignment t).bind fun test t => ?_
    refine (expect _).bind fun _ t => ?_
    refine (h.statement t).bind_joins .taking_passing fun consequent t => look ?_
    split
    · next ht =>
      subst ht
      exact .inl (take nofun fun t => (h.statement t).map _)
    · exact .inr ⟨.pure _ (by decide), rfl⟩
  case h_3 =>
    refine take nofun fun t => (expect _).bind fun _ t => (h.assignment t).bind fun test t => ?_
    exact (expect _).bind fun _ t => (h.statement t).map _
  case h_4 =>
    have hword : Token.keyword .returnWord ≠ .eof := nofun
    refine (advance hword).bind_joins .taking_passing fun _ t => atStatementEnd ?_ ?_
    · simp only [if_pos, pure_bind]
      exact endStatement.map _
    · simp only [Bool.false_eq_true, ↓reduceIte, map_eq_pure_bind, bind_assoc, pure_bind]
      exact (h.assignment t).ended _
  case h_5 => exact take nofun fun t => (h.assignment t).ended _
  case h_6 => exact take nofun fun t => (h.braced hl t).map _
  case h_7 => exact take_pure nofun
  case h_8 => exact (h.assignment t).ended _

/-- **One level further out**: the productions are followed. -/
theorem next : Followed K d k ⟨Source.statement limit inner, Source.assignment limit inner,
      Source.unary limit inner⟩
    ⟨Source.statement limit' inner', Source.assignment limit' inner',
      Source.unary limit' inner'⟩ where
  statement := h.next_statement hl
  assignment := h.next_assignment hl
  unary := h.next_unary hl

end Readers.Followed

/-- The readers at each depth are followed by those that may nest as deeply as is left. -/
theorem parsers_followed {n levels : Nat} (hd : d + n = maxDepth) (hlevels : n < levels)
    (hl : Enough k limit limit') :
    (parsers limit levels).Followed K d k (nested limit' n) := by
  induction n generalizing d levels with
  | zero =>
    obtain rfl : d = maxDepth := hd
    obtain ⟨levels, rfl⟩ := Nat.exists_eq_succ_of_ne_zero (Nat.ne_of_gt hlevels)
    rw [parsers, nested]
    constructor <;> dsimp only <;> exact fun _ => deeper_maxDepth
  | succ n ih =>
    obtain ⟨levels, rfl⟩ := Nat.exists_eq_add_of_lt hlevels
    have hlt : d < maxDepth := by omega
    have h : (parsers limit (n + 1 + levels)).Followed K (d + 1) k (nested limit' n) :=
      ih (by omega) (by omega)
    have h := h.next hl
    exact ⟨fun t => deeper hlt (h.statement t), fun t => deeper hlt (h.assignment t),
      fun t => deeper hlt (h.unary t)⟩

/-- Programs are followed to the end of the text. -/
theorem Follows.program {c : Parsing Stmt} {p : Parse Stmt} {steps steps' : Nat}
    (hc : Follows K d k .taking c p) (hs : Enough k steps steps') :
    Follows K d k .listing (Source.program c steps) (Source.program p steps') := by
  induction k generalizing steps steps' with
  | zero => exact fun _ => .zero
  | succ k ih =>
    obtain ⟨steps, steps', rfl, rfl, hsteps⟩ := hs.exists_succ
    have hrest := ih (hc.mono (Nat.le_succ k)) hsteps
    unfold Source.program
    refine fun t => token (by decide) ?_
    split
    · exact .pure [] (by decide)
    · exact (hc t).bind_item .taking_listing fun s t => (hrest t).map _

/-- A parser at the beginning of a text is followed through the whole program. -/
theorem program_followed {levels : Nat} (hlevels : maxDepth < levels)
    (hl : Enough k limit limit') : Follows K 0 k .listing (Parsing.program limit levels)
      (program (nested limit' maxDepth).statement limit') :=
  (parsers_followed (Nat.zero_add _) hlevels hl).statement.program hl

end Requisite.Source
