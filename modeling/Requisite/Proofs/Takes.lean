/-
  Readers on tokens, wherever these stand.

  `Takes limit p ls a next` says that `p` takes the tokens `ls` and returns `a`
  wherever a token that satisfies `next` comes after them.  Lines and places do
  not matter to the readers of operands and operators: only the token after them
  does.

  * `Takes.bind`: one reader after the other;
  * `Takes.token_cons`, `Takes.token_nil`: a look at a token that is taken, and
    at the one after;
  * `Token.Closes`: the tokens with which no expression goes on;
  * `Takes.conditional_choice`, `Takes.assignment_op`: choices and assignments.
-/
import Requisite.Proofs.Productions

namespace Requisite.Source

open Parse

variable {α β : Type} {limit : Nat} {p : Parse α} {k : α → Parse β} {ls us vs : List Lexeme}
  {l : Lexeme} {a : α} {b : β} {next mid : Token → Prop}

/-- Where `ls` come next and a token that satisfies `next` after them, and there are at most
    `limit` tokens, the reader takes `ls` and returns `a`. -/
def Takes (limit : Nat) (p : Parse α) (ls : List Lexeme) (a : α) (next : Token → Prop) : Prop :=
  ∀ l rest, next l.token → (ls ++ l :: rest).length ≤ limit →
    p.run (.ofLexemes (ls ++ l :: rest)) = .ok (a, ⟨l, rest⟩)

namespace Takes

theorem mono (h : Takes limit p ls a mid) (hm : ∀ t, next t → mid t) : Takes limit p ls a next :=
  fun l rest hn hl => h l rest (hm _ hn) hl

/-- There is room for what is taken. -/
theorem of_length (h : ls.length < limit → Takes limit p ls a next) : Takes limit p ls a next := by
  intro l rest hn hl
  refine h ?_ l rest hn hl
  simp only [List.length_append, List.length_cons] at hl
  omega

theorem pure : Takes limit (pure a) [] a next := fun _ _ _ _ => rfl

/-- The second reader begins with what comes after the first, or with what comes after both. -/
theorem bind (hp : Takes limit p ls a mid) (hk : Takes limit (k a) us b next)
    (hm : ∀ t, next t → mid ((us.map Lexeme.token).headD t)) :
    Takes limit (p >>= k) (ls ++ us) b next := by
  intro l rest hn hl
  rw [List.append_assoc] at hl ⊢
  have hlk : (us ++ l :: rest).length ≤ limit := by
    simp only [List.length_append] at hl ⊢
    omega
  have hk := hk l rest hn hlk
  cases us with
  | nil => rw [StateT.run_bind, List.nil_append, hp l rest (hm _ hn) hl]; exact hk
  | cons u us =>
    have hp : p.run (.ofLexemes (ls ++ u :: (us ++ l :: rest))) = .ok (a, ⟨u, us ++ l :: rest⟩) :=
      hp u _ (hm _ hn) hl
    rw [StateT.run_bind, List.cons_append, hp]
    exact hk

/-- The second reader takes nothing. -/
theorem bind_nil (hp : Takes limit p ls a mid) (hk : Takes limit (k a) [] b next)
    (hm : ∀ t, next t → mid t) : Takes limit (p >>= k) ls b next := by
  rw [← List.append_nil ls]
  exact hp.bind hk hm

/-! ## Tokens -/

section
variable {k : Token → Parse β}

/-- A look at the first of the tokens that are taken. -/
theorem token_cons (h : Takes limit (k l.token) (l :: ls) b next) :
    Takes limit (token >>= k) (l :: ls) b next :=
  fun m rest hn hl => h m rest hn hl

/-- A look at the token after what is taken. -/
theorem token_nil (h : ∀ t, next t → Takes limit (k t) [] b (· = t)) :
    Takes limit (token >>= k) [] b next :=
  fun m rest hn hl => h m.token hn m rest rfl hl

end

theorem advance {k : Unit → Parse β} (h : Takes limit (k ()) ls b next) :
    Takes limit (Parse.advance >>= k) (l :: ls) b next := by
  intro m rest hn hl
  rw [← h m rest hn (Nat.le_of_succ_le hl)]
  cases ls <;> rfl

theorem expect {k : Unit → Parse β} {s : Symbol} (hs : l.token = .symbol s)
    (h : Takes limit (k ()) ls b next) : Takes limit (Parse.expect s >>= k) (l :: ls) b next := by
  simp only [Parse.expect, bind_assoc]
  refine token_cons ?_
  rw [if_pos hs]
  exact h.advance

section
variable {k : Bool → Parse β} {s : Symbol}

theorem accept (hs : l.token = .symbol s) (h : Takes limit (k true) ls b next) :
    Takes limit (Parse.accept s >>= k) (l :: ls) b next := by
  simp only [Parse.accept, bind_assoc]
  refine token_cons ?_
  simp only [hs, ↓reduceIte, bind_assoc, pure_bind]
  exact h.advance

theorem accept_ne (hs : ∀ t, next t → t ≠ .symbol s) (h : Takes limit (k false) [] b next) :
    Takes limit (Parse.accept s >>= k) [] b next := by
  simp only [Parse.accept, bind_assoc]
  refine token_nil fun t ht => ?_
  rw [if_neg (hs t ht), pure_bind]
  exact h.mono fun u hu => hu ▸ ht

end

end Takes

/-! ## Choices and assignments -/

/-- No expression goes on with the token. -/
structure Token.Closes (t : Token) : Prop where
  stops : t.Stops Infix.loosest
  choice : t ≠ .symbol .question
  assign : AssignOp.ofToken? t = none

theorem Token.closes_of_ends {t : Token} (h : t.ends) : t.Closes :=
  ⟨Token.stops_of_ends h, Token.ne_question_of_ends h, Token.assignOp_of_ends h⟩

namespace Takes

variable {inner : Nested} {e a b : Expr} {question colon sign : Lexeme}

theorem conditional_test
    (h : Takes limit (operators limit inner Infix.loosest) ls e (Token.Stops Infix.loosest)) :
    Takes limit (conditional limit inner) ls e
      fun t => t.Stops Infix.loosest ∧ t ≠ .symbol .question := by
  unfold conditional
  exact h.bind_nil (accept_ne (fun _ ht => ht.2) .pure) fun _ ht => ht.1

theorem conditional_choice
    (h : Takes limit (operators limit inner Infix.loosest) ls e (Token.Stops Infix.loosest))
    (hquestion : question.token = .symbol .question)
    (ha : Takes limit inner.assignment us a Token.Closes) (hcolon : colon.token = .symbol .colon)
    (hb : Takes limit inner.assignment vs b Token.Closes) :
    Takes limit (conditional limit inner) (ls ++ question :: (us ++ colon :: vs))
      (.conditional e a b) Token.Closes := by
  unfold conditional
  refine h.bind (accept hquestion ?_) fun t _ => ?_
  · rw [if_pos rfl]
    refine ha.bind (expect hcolon (hb.bind_nil .pure fun _ ht => ht)) fun t _ => ?_
    simp only [List.map_cons, List.headD_cons, hcolon]
    exact Token.closes_of_ends rfl
  · simp only [List.map_cons, List.headD_cons, hquestion]
    exact Token.stops_question

theorem assignment_conditional (h : Takes limit (conditional limit inner) ls e Token.Closes) :
    Takes limit (assignment limit inner) ls e Token.Closes := by
  unfold assignment
  refine h.bind_nil (token_nil fun t ht => ?_) fun _ ht => ht
  rw [ht.assign]
  exact .pure

theorem assignment_op {op : AssignOp} (htarget : a.isTarget)
    (ha : Takes limit (operators limit inner Infix.loosest) ls a (Token.Stops Infix.loosest))
    (hsign : sign.token = .symbol op.symbol)
    (he : Takes limit inner.assignment us e Token.Closes) :
    Takes limit (assignment limit inner) (ls ++ sign :: us) (.assign op a e) Token.Closes := by
  unfold assignment
  refine (conditional_test ha).bind (token_cons ?_) fun _ _ => ?_
  · rw [hsign, AssignOp.ofToken?_symbol]
    simp only [htarget, ↓reduceIte]
    exact advance (he.bind_nil .pure fun _ ht => ht)
  · simp only [List.map_cons, List.headD_cons, hsign]
    exact ⟨Token.stops_assign op, by cases op <;> exact nofun⟩

end Takes

end Requisite.Source
