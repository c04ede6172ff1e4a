/-
  A reader that follows a parser.

  A parser reads a text, and a reader without a state reads the same tokens with
  a semicolon more after some places `K`.  As long as `K` holds only of places
  where the parser ends statements without a semicolon, the reader gives the same
  answers; with no places at all, also the same errors.

  * `Lexeme.Ordered`, `Parser.Onward`: how a parser comes from one state to
    another;
  * `Lexeme.Semicoloned`: tokens with and without more semicolons;
  * `Level`, `Pending`: the reader stands where the parser stands, or before a
    semicolon that is only in its input;
  * `FollowsAt`: the parser goes onward, and the reader follows it;
  * `FollowsAt.bind`: one reader after the other.
-/
import Requisite.Source.Parser

namespace Requisite.Source

/-- The token at hand and those after it. -/
def Input.lexemes (i : Input) : List Lexeme := i.current :: i.rest

/-! ## States of a parser -/

/-- Lexemes as they stand after the place `p` in a text: `eof` comes last and nowhere else, and
    the others stop later than what is before them. -/
inductive Lexeme.Ordered : Place → List Lexeme → Prop
  | eof {p l} : l.token = .eof → Ordered p [l]
  | cons {p l ls} : l.token ≠ .eof → p.offset < l.stop.offset → Ordered l.stop ls →
      Ordered p (l :: ls)

/-- What reads a text: parsers deal in readers of three manners. -/
inductive Manner where
  /-- takes a token at least -/
  | taking
  /-- may take none -/
  | passing
  /-- reads a list, up to the token that closes it -/
  | listing
deriving DecidableEq

/-- Where a reader that begins at `p` may end a statement without a semicolon. -/
def Manner.Reaches : Manner → Place → Place → Prop
  | passing, p, q => p.offset ≤ q.offset
  | _, p, q => p.offset < q.offset

namespace Parser

structure Ordered (w : Parser) : Prop where
  lexemes : Lexeme.Ordered w.previous.stop w.input.lexemes
  bareEnds : ∀ p ∈ w.bareEnds, p.offset ≤ w.previous.stop.offset

/-- The token that was taken last stops at `p`, or one that may be taken does. -/
def Stops (w : Parser) (p : Place) : Prop :=
  p = w.previous.stop ∨ ∃ l ∈ w.input.lexemes, l.token ≠ .eof ∧ l.stop = p

/-- What a reader does to the state, if it gives an answer. -/
structure Onward (m : Manner) (w w' : Parser) : Prop where
  ordered : w'.Ordered
  passed : ∃ ls, w.input.lexemes = ls ++ w'.input.lexemes ∧ (∀ l ∈ ls, l.token ≠ .eof) ∧
    w'.previous = ls.getLast?.getD w.previous
  stop_le : w.previous.stop.offset ≤ w'.previous.stop.offset
  depth : w'.depth = w.depth
  deepest : w'.deepest ≤ max w.deepest maxDepth
  bareEnds : w.bareEnds ⊆ w'.bareEnds
  noted : ∀ p ∈ w'.bareEnds, p ∉ w.bareEnds → m.Reaches w.previous.stop p ∧ w.Stops p
  taken : m = .taking → w'.input.rest.length < w.input.rest.length ∧
    w.previous.stop.offset < w'.previous.stop.offset

namespace Onward

variable {m m₁ m₂ : Manner} {w v w' : Parser}

theorem refl (hm : m ≠ .taking) (hw : w.Ordered) : w.Onward m w where
  ordered := hw
  passed := ⟨[], rfl, nofun, rfl⟩
  stop_le := Nat.le_refl _
  depth := rfl
  deepest := Nat.le_max_left ..
  bareEnds := List.Subset.refl _
  noted _ hp hnp := absurd hp hnp
  taken h := absurd h hm

theorem reaches_le {p q : Place} (h : m.Reaches p q) : p.offset ≤ q.offset := by
  cases m with
  | passing => exact h
  | taking => exact Nat.le_of_lt h
  | listing => exact Nat.le_of_lt h

theorem length_le (h : w.Onward m w') : w'.input.rest.length ≤ w.input.rest.length := by
  obtain ⟨ls, hls, -⟩ := h.passed
  have := congrArg List.length hls
  simp only [Input.lexemes, List.length_append, List.length_cons] at this
  omega

/-- What a parser may come to was there before. -/
theorem stops (h : w.Onward m w') {p : Place} (hp : w'.Stops p) : w.Stops p := by
  obtain ⟨ls, hls, hne, hprevious⟩ := h.passed
  obtain rfl | ⟨l, hl, hp⟩ := hp
  · cases hlast : ls.getLast? with
    | none =>
      rw [hlast] at hprevious
      exact .inl (congrArg Lexeme.stop hprevious)
    | some l =>
      rw [hlast] at hprevious
      have hl := List.mem_of_getLast? hlast
      exact .inr ⟨l, hls ▸ List.mem_append_left _ hl, hne l hl, congrArg Lexeme.stop hprevious.symm⟩
  · exact .inr ⟨l, hls ▸ List.mem_append_right _ hl, hp⟩

end Onward

end Parser

/-- How readers of two manners make one together. -/
inductive Manner.Joins : Manner → Manner → Manner → Prop
  | taking_taking : Joins .taking .taking .taking
  | taking_passing : Joins .taking .passing .taking
  | taking_listing : Joins .taking .listing .listing
  | listing_taking : Joins .listing .taking .taking
  | passing : Joins .passing .passing .passing

namespace Parser.Onward

variable {m m₁ m₂ : Manner} {w v w' : Parser}

theorem trans (hj : Manner.Joins m₁ m₂ m) (h : w.Onward m₁ v) (h' : v.Onward m₂ w') :
    w.Onward m w' where
  ordered := h'.ordered
  passed := by
    obtain ⟨ls, hls, hne, hprevious⟩ := h.passed
    obtain ⟨ls', hls', hne', hprevious'⟩ := h'.passed
    refine ⟨ls ++ ls', by rw [hls, hls', List.append_assoc], fun l hl => ?_, ?_⟩
    · exact (List.mem_append.1 hl).elim (hne l) (hne' l)
    · rw [hprevious', hprevious, List.getLast?_append, Option.getD_or]
  stop_le := Nat.le_trans h.stop_le h'.stop_le
  depth := h'.depth.trans h.depth
  deepest := by
    have := h.deepest
    have := h'.deepest
    omega
  bareEnds := List.Subset.trans h.bareEnds h'.bareEnds
  noted p hp hnp := by
    have hle := h.stop_le
    by_cases hv : p ∈ v.bareEnds
    · obtain ⟨hreaches, hstops⟩ := h.noted p hv hnp
      refine ⟨?_, hstops⟩
      cases hj <;> simp only [Manner.Reaches] at hreaches ⊢ <;> omega
    · obtain ⟨hreaches, hstops⟩ := h'.noted p hp hv
      refine ⟨?_, h.stops hstops⟩
      cases hj with
      | taking_taking | taking_passing | taking_listing =>
        have := (h.taken rfl).2
        simp only [Manner.Reaches] at *
        omega
      | listing_taking | passing =>
        simp only [Manner.Reaches] at hreaches ⊢
        omega
  taken hm := by
    have := h.length_le
    have := h'.length_le
    have := h.stop_le
    have := h'.stop_le
    cases hj with
    | taking_taking | taking_passing =>
      have := h.taken rfl
      omega
    | listing_taking =>
      have := h'.taken rfl
      omega
    | taking_listing | passing => exact nomatch hm

/-- What a reader of any manner does, a passing one may do. -/
theorem passing (h : w.Onward m w') : w.Onward .passing w' where
  ordered := h.ordered
  passed := h.passed
  stop_le := h.stop_le
  depth := h.depth
  deepest := h.deepest
  bareEnds := h.bareEnds
  noted p hp hnp := (h.noted p hp hnp).imp_left reaches_le
  taken := nofun

/-- What is done one level deeper. -/
theorem of_enter (hd : w.depth < maxDepth) (h : w.enter.Onward m w') : w.Onward m w'.leave where
  ordered := ⟨h.ordered.lexemes, h.ordered.bareEnds⟩
  passed := h.passed
  stop_le := h.stop_le
  depth := by
    show w'.depth - 1 = w.depth
    rw [h.depth]
    rfl
  deepest := by
    have : w'.deepest ≤ max (max w.deepest (w.depth + 1)) maxDepth := h.deepest
    show w'.deepest ≤ _
    omega
  bareEnds := h.bareEnds
  noted := h.noted
  taken := h.taken

end Parser.Onward

/-! ## A reader beside the parser -/

/-- Lexemes that mean the same, wherever they stand in their lines. -/
structure Lexeme.Alike (l l' : Lexeme) : Prop where
  token : l'.token = l.token
  newline : l'.newline = l.newline
  line : l'.start.line = l.start.line

theorem Lexeme.Alike.refl (l : Lexeme) : l.Alike l := ⟨rfl, rfl, rfl⟩

/-- The second lexemes are the first, with a semicolon after those that stop at a place of `K`; the
    last one is `eof`, after which comes nothing. -/
inductive Lexeme.Semicoloned (K : Place → Prop) : List Lexeme → List Lexeme → Prop
  | last {l l'} : l.Alike l' → Semicoloned K [l] [l']
  | plain {l l' ls ms} : ¬K l.stop → l.Alike l' → Semicoloned K ls ms →
      Semicoloned K (l :: ls) (l' :: ms)
  | ended {l l' semicolon ls ms} : K l.stop → l.Alike l' →
      semicolon.token = .symbol .semicolon → Semicoloned K ls ms →
      Semicoloned K (l :: ls) (l' :: semicolon :: ms)

theorem Lexeme.Semicoloned.ne_nil {K : Place → Prop} {ls ms : List Lexeme}
    (h : Semicoloned K ls ms) : ms ≠ [] := by
  cases h <;> exact List.cons_ne_nil _ _

section
variable (K : Place → Prop)

/-- The same tokens are at hand. -/
structure Level (w : Parser) (j : Input) : Prop where
  lexemes : Lexeme.Semicoloned K w.input.lexemes j.lexemes
  noted : K w.previous.stop → w.previous.stop ∈ w.bareEnds

/-- The reader has a semicolon at hand that the parser has not. -/
structure Pending (w : Parser) (j : Input) : Prop where
  token : j.current.token = .symbol .semicolon
  lexemes : Lexeme.Semicoloned K w.input.lexemes j.rest
  due : K w.previous.stop
  fresh : w.previous.stop ∉ w.bareEnds

def Beside (w : Parser) (j : Input) : Prop := Level K w j ∨ Pending K w j

/-- At the places of `K` that the parser has passed, it ended statements.  A list ends where the
    next token is known to be the same, so that no semicolon may be due there. -/
def Manner.Clear : Manner → Parser → Prop
  | listing, w => ∀ p, K p → p.offset ≤ w.previous.stop.offset → p ∈ w.bareEnds
  | _, w => ∀ p, K p → p.offset < w.previous.stop.offset → p ∈ w.bareEnds

end

/-! ## Steps of a parser -/

/-- The parser is at depth `d`, with the token `t` at hand and fewer than `k` after it. -/
structure Parser.At (d k : Nat) (t : Token) (w : Parser) : Prop where
  ordered : w.Ordered
  depth : w.depth = d
  short : w.input.rest.length < k
  token : w.input.current.token = t

variable {α β : Type} {K : Place → Prop} {d k k' : Nat} {m m₁ m₂ : Manner} {t : Token}
  {c : Parsing α} {p : Parse α}

/-- Whether a statement may end before the token at hand. -/
def Input.endsStatement (i : Input) : Bool :=
  i.current.token = .symbol .semicolon || i.current.token = .symbol .rightBrace ||
    i.current.token = .eof || i.current.newline

namespace Parser

@[simp] theorem moveTo_input (w : Parser) : w.moveTo w.input = w := by simp [moveTo]

/-- Where a token is at hand that is not `eof`, another one comes after it. -/
theorem At.next {w : Parser} (hw : w.At d k t) (ht : t ≠ .eof) :
    ∃ l l' ls, w.input = ⟨l, l' :: ls⟩ ∧
      w.moveTo w.input.next = { w with input := ⟨l', ls⟩, previous := l } ∧
      w.previous.stop.offset < l.stop.offset ∧ Lexeme.Ordered l.stop (l' :: ls) := by
  obtain ⟨⟨l, rest⟩, previous, depth, deepest, bareEnds⟩ := w
  cases hw.ordered.lexemes with
  | eof heof => exact absurd (hw.token.symm.trans heof) ht
  | cons _ hlt hrest =>
    obtain ⟨l', ls, rfl⟩ : ∃ l' ls, rest = l' :: ls := by
      cases hrest with
      | eof => exact ⟨_, _, rfl⟩
      | cons => exact ⟨_, _, rfl⟩
    exact ⟨l, l', ls, rfl, by simp [moveTo, Input.next], hlt, hrest⟩

theorem At.onward_next {w : Parser} (hw : w.At d k t) (ht : t ≠ .eof) :
    w.Onward .taking (w.moveTo w.input.next) := by
  obtain ⟨l, l', ls, hi, hmove, hlt, hordered⟩ := hw.next ht
  rw [hmove]
  exact {
    ordered := ⟨hordered, fun q hq => Nat.le_trans (hw.ordered.bareEnds q hq) (Nat.le_of_lt hlt)⟩
    passed := by
      have hl : l.token ≠ .eof := by
        have htoken := hw.token
        rw [hi] at htoken
        exact htoken ▸ ht
      exact ⟨[l], by rw [hi]; rfl, by simpa using hl, rfl⟩
    stop_le := Nat.le_of_lt hlt
    depth := rfl
    deepest := Nat.le_max_left ..
    bareEnds := List.Subset.refl _
    noted := fun q hq hnq => absurd hq hnq
    taken := fun _ => ⟨by simp [hi], hlt⟩ }

theorem Ordered.noteEnd {w : Parser} (hw : w.Ordered) : w.Onward .passing w.noteEnd where
  ordered := ⟨hw.lexemes, by simpa [Parser.noteEnd] using hw.bareEnds⟩
  passed := ⟨[], rfl, nofun, rfl⟩
  stop_le := Nat.le_refl _
  depth := rfl
  deepest := Nat.le_max_left ..
  bareEnds := List.subset_cons_self ..
  noted q hq hnq := by
    obtain rfl : q = w.previous.stop := by simpa [Parser.noteEnd, hnq] using hq
    exact ⟨Nat.le_refl _, .inl rfl⟩
  taken := nofun

end Parser

namespace Level

variable {w : Parser} {j : Input}

theorem alike (h : Level K w j) : w.input.current.Alike j.current := by
  obtain ⟨⟨l, ls⟩, previous, depth, deepest, bareEnds⟩ := w
  obtain ⟨l', ms⟩ := j
  cases h.lexemes with
  | last halike => exact halike
  | plain _ halike => exact halike
  | ended _ halike => exact halike

theorem endsStatement_eq (h : Level K w j) : j.endsStatement = w.input.endsStatement := by
  simp only [Input.endsStatement, h.alike.token, h.alike.newline]

/-- Both go on to the next token; a semicolon may come first. -/
theorem next (h : Level K w j) (hw : w.At d k t) (ht : t ≠ .eof) :
    Beside K (w.moveTo w.input.next) j.next := by
  obtain ⟨l, l', ls, hi, hmove, hlt, -⟩ := hw.next ht
  obtain ⟨m, ms⟩ := j
  have hlexemes := h.lexemes
  rw [hi] at hlexemes
  rw [hmove]
  cases hlexemes with
  | plain hK _ hrest =>
    cases ms with
    | nil => exact absurd rfl hrest.ne_nil
    | cons => exact .inl ⟨hrest, fun hl => absurd hl hK⟩
  | ended hK _ hs hrest =>
    refine .inr ⟨hs, hrest, hK, fun hmem => ?_⟩
    exact absurd (hw.ordered.bareEnds _ hmem) (Nat.not_le_of_lt hlt)

end Level

namespace Pending

variable {w : Parser} {j : Input}

/-- The reader takes the semicolon where the parser notes the end of a statement. -/
theorem level_noteEnd (h : Pending K w j) : Level K w.noteEnd j.next := by
  obtain ⟨m, ms⟩ := j
  have hlexemes : Lexeme.Semicoloned K w.input.lexemes ms := h.lexemes
  have hnext : Input.lexemes (Input.next ⟨m, ms⟩) = ms := by
    cases ms with
    | nil => exact absurd rfl hlexemes.ne_nil
    | cons => rfl
  exact ⟨hnext ▸ hlexemes, fun _ => List.mem_cons_self⟩

end Pending

namespace Parsing

variable (w : Parser)

theorem result_token_bind (f : Token → Parsing β) :
    (Reading.token >>= f).result w = (f w.input.current.token).result w := by
  rw [result_bind]
  show (f w.input.current.token).result (w.moveTo w.input) = _
  rw [w.moveTo_input]

theorem result_input_bind (f : Input → Parsing β) :
    (Reading.input >>= f).result w = (f w.input).result w := by
  rw [result_bind]
  show (f w.input).result (w.moveTo w.input) = _
  rw [w.moveTo_input]

theorem result_advance :
    (Reading.advance : Parsing Unit).result w = (.ok (), w.moveTo w.input.next) := rfl

theorem result_atStatementEnd_bind (f : Bool → Parsing β) :
    (Reading.atStatementEnd >>= f).result w = (f w.input.endsStatement).result w := by
  rw [result_bind]
  show (f w.input.endsStatement).result (w.moveTo w.input) = _
  rw [w.moveTo_input]

/-- What a reader does after the token at hand is known. -/
theorem ofParse_token_bind (k : Token → Parse α) :
    ofParse (Parse.token >>= k) = Reading.token >>= fun t => ofParse (k t) :=
  funext fun w => (result_token_bind w fun t => ofParse (k t)).symm

theorem ofParse_advance_pure (a : α) :
    ofParse (Parse.advance >>= fun _ => pure a) = Reading.advance >>= fun _ => pure a :=
  funext fun w => (result_bind w Reading.advance fun _ => pure a).symm

theorem ofParse_pure (a : α) : ofParse (pure a) = pure a := by
  funext w
  show (Except.ok a, w.moveTo w.input) = (.ok a, w)
  rw [w.moveTo_input]

theorem expect_eq (s : Symbol) : (Reading.expect s : Parsing Unit) =
    Reading.token >>= fun t => if t = .symbol s then Reading.advance
      else Reading.fail (.expected s t) := by
  refine (ofParse_token_bind _).trans (bind_congr fun t => ?_)
  split <;> rfl

theorem accept_eq (s : Symbol) : (Reading.accept s : Parsing Bool) =
    Reading.token >>= fun t => if t = .symbol s then Reading.advance >>= fun _ => pure true
      else pure false := by
  refine (ofParse_token_bind _).trans (bind_congr fun t => ?_)
  split
  · exact ofParse_advance_pure true
  · exact ofParse_pure false

theorem identifier_eq : (Reading.identifier : Parsing String) =
    Reading.token >>= fun t => match t with
      | .identifier x => Reading.advance >>= fun _ => pure x
      | t => Reading.fail (.expectedIdentifier t) := by
  refine (ofParse_token_bind _).trans (bind_congr fun t => ?_)
  cases t with
  | identifier x => exact ofParse_advance_pure x
  | _ => rfl

theorem result_endStatement : (Reading.endStatement : Parsing Unit).result w =
    if w.input.current.token = .symbol .semicolon then (.ok (), w.moveTo w.input.next)
    else if w.input.endsStatement then (.ok (), w.noteEnd)
    else (Reading.fail (.expected .semicolon w.input.current.token) : Parsing Unit).result w := by
  show ((Reading.accept .semicolon : Parsing Bool) >>= fun b => if !b then
    Reading.atStatementEnd >>= fun b => if b then modify Parser.noteEnd
      else Reading.token >>= fun t => Reading.fail (.expected .semicolon t) else pure ()).result w
    = _
  rw [accept_eq, bind_assoc, result_token_bind]
  split
  · rw [bind_assoc, result_bind, result_advance]
    simp
  · rw [pure_bind, Bool.not_false, if_pos rfl, result_atStatementEnd_bind]
    split
    · rfl
    · rw [result_token_bind]

end Parsing

/-- Ends of statements, token by token. -/
theorem Parse.run_endStatement (j : Input) : endStatement.run j =
    if j.current.token = .symbol .semicolon then .ok ((), j.next)
    else if j.endsStatement then .ok ((), j)
    else .error ⟨.expected .semicolon j.current.token, j.current.start.line⟩ := by
  have haccept : (accept .semicolon).run j = if j.current.token = .symbol .semicolon
      then .ok (true, j.next) else .ok (false, j) := by
    show StateT.run (if j.current.token = .symbol .semicolon then _ else _) j = _
    split <;> rfl
  have hends : atStatementEnd.run j = .ok (j.endsStatement, j) := rfl
  rw [endStatement, StateT.run_bind, haccept]
  split
  · rfl
  show StateT.run (atStatementEnd >>= fun b => if !b then
    token >>= fun t => fail (.expected .semicolon t) else pure ()) j = _
  rw [StateT.run_bind, hends]
  cases j.endsStatement <;> rfl

/-! ## Following -/

/-- A parser's reader ends with an answer or an error, and goes onward. -/
def Goes {α : Type} (m : Manner) (w : Parser) : Except Halt α × Parser → Prop
  | (.ok _, w') => w.Onward m w'
  | (.error (.error _), w') => w.Onward .passing w'
  | (.error .exhausted, _) => False

/-- The reader ends as the parser does. -/
def Meets {α : Type} (K : Place → Prop) (m : Manner) :
    Except Halt α × Parser → Except SyntaxError (α × Input) → Prop
  | (.ok a, w'), r => m.Clear K w' → ∃ j', r = .ok (a, j') ∧ Beside K w' j'
  | (.error (.error e), _), r => (∀ p, ¬K p) → r = .error e
  | (.error .exhausted, _), _ => True

/-- From such states, the parser's reader `c` goes onward, and the reader `p` follows it.  Only a
    passing reader may begin where a semicolon is due. -/
structure FollowsAt {α : Type} (K : Place → Prop) (d k : Nat) (m : Manner) (t : Token)
    (c : Parsing α) (p : Parse α) : Prop where
  goes : ∀ w, w.At d k t → Goes m w (c.result w)
  meets : ∀ w j, w.At d k t → Level K w j ∨ m = .passing ∧ Pending K w j →
    Meets K m (c.result w) (p.run j)

/-- The same whatever token is at hand. -/
def Follows (K : Place → Prop) (d k : Nat) (m : Manner) (c : Parsing α) (p : Parse α) : Prop :=
  ∀ t, FollowsAt K d k m t c p

/-- Where a semicolon is due, nothing can be taken before it. -/
theorem Pending.not_clear {w w' : Parser} {j : Input} (hj : Pending K w j) (hm : m ≠ .passing)
    (h : w.Onward m w') : ¬m.Clear K w' := by
  intro hc
  have hle := h.stop_le
  cases m with
  | passing => exact hm rfl
  | taking =>
    have hp := hc _ hj.due (h.taken rfl).2
    exact Nat.lt_irrefl _ (h.noted _ hp hj.fresh).1
  | listing =>
    have hp := hc _ hj.due hle
    exact Nat.lt_irrefl _ (h.noted _ hp hj.fresh).1

/-- Where a semicolon is due, a reader that is not passing does not give an answer in time. -/
theorem FollowsAt.meets_pending (h : FollowsAt K d k m t c p) (hm : m ≠ .passing) {w : Parser}
    {j : Input} (hw : w.At d k t) (hj : Pending K w j) {r : Except SyntaxError (α × Input)} :
    Meets K m (c.result w) r := by
  have hg := h.goes w hw
  generalize c.result w = o at hg ⊢
  obtain ⟨(e | _) | a, w'⟩ := o
  · exact fun hK => absurd hj.due (hK _)
  · trivial
  · exact fun hc => absurd hc (hj.not_clear hm hg)

theorem FollowsAt.beside (h : FollowsAt K d k m t c p) {w : Parser} {j : Input} (hw : w.At d k t)
    (hj : Beside K w j) : Meets K m (c.result w) (p.run j) := by
  rcases hj with hj | hj
  · exact h.meets w j hw (.inl hj)
  by_cases hm : m = .passing
  · exact h.meets w j hw (.inr ⟨hm, hj⟩)
  · exact h.meets_pending hm hw hj

/-- What is clear at the end was clear on the way. -/
theorem Manner.Joins.clear (hj : Manner.Joins m₁ m₂ m) {v w' : Parser}
    (h : v.Onward m₂ w') (hc : m.Clear K w') : m₁.Clear K v ∧ m₂.Clear K w' := by
  have hle := h.stop_le
  -- the places that are noted later lie further on
  have hback {q : Place} (hq : q ∈ w'.bareEnds) (hlt : ¬m₂.Reaches v.previous.stop q) :
      q ∈ v.bareEnds :=
    Classical.byContradiction fun hv => hlt (h.noted q hq hv).1
  cases hj with
  | taking_taking | taking_passing | taking_listing | passing =>
    refine ⟨fun q hK hq => hback (hc q hK (by omega)) ?_, hc⟩
    simp only [Manner.Reaches]
    omega
  | listing_taking =>
    have := (h.taken rfl).2
    refine ⟨fun q hK hq => hback (hc q hK (by omega)) ?_, hc⟩
    simp only [Manner.Reaches]
    omega

namespace FollowsAt

/-! ## Sequences -/

/-- One reader after the other, where `k'` bounds what is left for the second. -/
theorem bind_of_short {f : α → Parsing β} {g : α → Parse β} (hj : Manner.Joins m₁ m₂ m)
    (hshort : ∀ w w' : Parser, w.input.rest.length < k → w.Onward m₁ w' →
      w'.input.rest.length < k')
    (hc : FollowsAt K d k m₁ t c p) (hk : ∀ a, Follows K d k' m₂ (f a) (g a)) :
    FollowsAt K d k m t (c >>= f) (p >>= g) where
  goes w hw := by
    have h := hc.goes w hw
    rw [Parsing.result_bind]
    generalize c.result w = o at h ⊢
    obtain ⟨(e | _) | a, v⟩ := o
    · exact h
    · exact h
    have hv : v.At d k' v.input.current.token :=
      ⟨h.ordered, h.depth.trans hw.depth, hshort w v hw.short h, rfl⟩
    have h' := (hk a _).goes v hv
    dsimp only
    generalize (f a).result v = o at h' ⊢
    obtain ⟨(e | _) | b, w'⟩ := o
    · exact .trans .passing h.passing h'
    · exact h'
    · exact .trans hj h h'
  meets w j hw hwj := by
    have h := hc.goes w hw
    have hmeets := hc.beside hw (hwj.imp_right And.right)
    rw [Parsing.result_bind, StateT.run_bind]
    generalize c.result w = o at h hmeets ⊢
    obtain ⟨(e | _) | a, v⟩ := o
    · intro hK
      rw [hmeets hK]
      rfl
    · trivial
    have hv : v.At d k' v.input.current.token :=
      ⟨h.ordered, h.depth.trans hw.depth, hshort w v hw.short h, rfl⟩
    have h' := (hk a _).goes v hv
    have hmeets' {i : Input} := (hk a _).beside (j := i) hv
    dsimp only
    generalize (f a).result v = o at h' hmeets' ⊢
    obtain ⟨(e | _) | b, w'⟩ := o
    · intro hK
      obtain ⟨i, hi, hvi⟩ := hmeets (by cases m₁ <;> exact fun q hq => absurd hq (hK q))
      rw [hi]
      exact hmeets' hvi hK
    · trivial
    · intro hclear
      obtain ⟨hclear₁, hclear₂⟩ := hj.clear h' hclear
      obtain ⟨i, hi, hvi⟩ := hmeets hclear₁
      rw [hi]
      exact hmeets' hvi hclear₂

variable {f : α → Parsing β} {g : α → Parse β}

theorem bind_joins (hj : Manner.Joins m₁ m₂ m) (hc : FollowsAt K d k m₁ t c p)
    (hk : ∀ a, Follows K d k m₂ (f a) (g a)) : FollowsAt K d k m t (c >>= f) (p >>= g) :=
  bind_of_short hj (fun _ _ hw h => Nat.lt_of_le_of_lt h.length_le hw) hc hk

theorem bind (hc : FollowsAt K d k .taking t c p) (hk : ∀ a, Follows K d k .taking (f a) (g a)) :
    FollowsAt K d k .taking t (c >>= f) (p >>= g) :=
  hc.bind_joins .taking_taking hk

/-- After a reader that takes a token, fewer are left. -/
theorem bind_item (hj : Manner.Joins .taking m₂ m) (hc : FollowsAt K d (k + 1) .taking t c p)
    (hk : ∀ a, Follows K d k m₂ (f a) (g a)) :
    FollowsAt K d (k + 1) m t (c >>= f) (p >>= g) :=
  bind_of_short hj (fun _ _ hw h => Nat.lt_of_lt_of_le (h.taken rfl).1 (Nat.le_of_lt_succ hw))
    hc hk

theorem mono (hc : FollowsAt K d k m t c p) (hk : k' ≤ k) : FollowsAt K d k' m t c p where
  goes _ hw := hc.goes _ ⟨hw.ordered, hw.depth, Nat.lt_of_lt_of_le hw.short hk, hw.token⟩
  meets _ _ hw := hc.meets _ _ ⟨hw.ordered, hw.depth, Nat.lt_of_lt_of_le hw.short hk, hw.token⟩

/-- Nothing is left to read, not even `eof`. -/
theorem zero : FollowsAt K d 0 m t c p where
  goes _ hw := absurd hw.short (Nat.not_lt_zero _)
  meets _ _ hw := absurd hw.short (Nat.not_lt_zero _)

/-- An answer that takes nothing. -/
theorem pure (a : α) (hm : m ≠ .taking) :
    FollowsAt K d k m t (Pure.pure a) (Pure.pure a) where
  goes _ hw := .refl hm hw.ordered
  meets _ j _ hj := fun _ => ⟨j, rfl, hj.imp_right And.right⟩

/-- The answer is made into another one. -/
theorem map (f : α → β) (hc : FollowsAt K d k m t c p) :
    FollowsAt K d k m t (c >>= fun a => Pure.pure (f a)) (p >>= fun a => Pure.pure (f a)) where
  goes w hw := by
    have h := hc.goes w hw
    rw [Parsing.result_bind]
    generalize c.result w = o at h ⊢
    obtain ⟨(e | _) | a, w'⟩ := o <;> exact h
  meets w j hw hj := by
    have h := hc.meets w j hw hj
    rw [Parsing.result_bind, StateT.run_bind]
    generalize c.result w = o at h ⊢
    obtain ⟨(e | _) | a, w'⟩ := o
    · intro hK
      rw [h hK]
      rfl
    · trivial
    · intro hclear
      obtain ⟨i, hi, hwi⟩ := h hclear
      rw [hi]
      exact ⟨i, rfl, hwi⟩

/-- What takes a token need not be told where it begins. -/
theorem passing (hc : FollowsAt K d k .taking t c p) : FollowsAt K d k .passing t c p where
  goes w hw := by
    have h := hc.goes w hw
    generalize c.result w = o at h ⊢
    obtain ⟨(e | _) | a, w'⟩ := o
    · exact h
    · exact h
    · exact h.passing
  meets w j hw hj := hc.beside hw (hj.imp_right And.right)

end FollowsAt

/-! ## Tokens -/

namespace FollowsAt

theorem fail (c : Complaint) :
    FollowsAt (α := α) K d k m t (Reading.fail c) (Reading.fail c) where
  goes _ hw := .refl nofun hw.ordered
  meets w j _ hj := by
    intro hK
    rcases hj with hj | ⟨-, hj⟩
    · rw [← hj.alike.line]
      rfl
    · exact absurd hj.due (hK _)

theorem advance (ht : t ≠ .eof) :
    FollowsAt K d k .taking t Reading.advance Reading.advance where
  goes _ hw := hw.onward_next ht
  meets w j hw hj := by
    obtain hj | ⟨h, -⟩ := hj
    · exact fun _ => ⟨j.next, rfl, hj.next hw ht⟩
    · exact nomatch h

/-- A token is taken, and then more is read. -/
theorem take {f : Unit → Parsing β} {g : Unit → Parse β} (ht : t ≠ .eof)
    (hk : Follows K d k .taking (f ()) (g ())) :
    FollowsAt K d k .taking t (Reading.advance >>= f) (Reading.advance >>= g) :=
  (advance ht).bind fun _ => hk

/-- Fewer tokens are left after a token is taken. -/
theorem take_item {f : Unit → Parsing β} {g : Unit → Parse β} (ht : t ≠ .eof)
    (hk : Follows K d k .taking (f ()) (g ())) :
    FollowsAt K d (k + 1) .taking t (Reading.advance >>= f) (Reading.advance >>= g) :=
  (advance ht).bind_item .taking_taking fun _ => hk

theorem take_pure {b : β} (ht : t ≠ .eof) :
    FollowsAt K d k .taking t (Reading.advance >>= fun _ => Pure.pure b)
      (Reading.advance >>= fun _ => Pure.pure b) :=
  (advance ht).map fun _ => b

/-- The end of a statement, where a semicolon that is due is taken. -/
theorem endStatement :
    FollowsAt K d k .passing t Reading.endStatement Reading.endStatement where
  goes w hw := by
    rw [Parsing.result_endStatement]
    split
    · next h => exact (hw.onward_next (by simp [← hw.token, h])).passing
    split
    · exact hw.ordered.noteEnd
    · exact .refl nofun hw.ordered
  meets w j hw hj := by
    show Meets K .passing _ (Parse.endStatement.run j)
    rw [Parsing.result_endStatement, Parse.run_endStatement]
    obtain hj | ⟨-, hj⟩ := hj
    · rw [hj.alike.token, hj.endsStatement_eq]
      split
      · next h => exact fun _ => ⟨j.next, rfl, hj.next hw (by simp [← hw.token, h])⟩
      split
      · exact fun _ => ⟨j, rfl, .inl ⟨hj.lexemes, fun _ => List.mem_cons_self⟩⟩
      · exact fun _ => by rw [hj.alike.line]
    · rw [if_pos hj.token]
      split
      · next h =>
        have hnext := hw.onward_next (by simp [← hw.token, h])
        exact fun hc => absurd hc (hj.not_clear (m := .taking) nofun hnext)
      split
      · exact fun _ => ⟨j.next, rfl, .inl hj.level_noteEnd⟩
      · exact fun hK => absurd hj.due (hK _)

/-- What takes a token, and then the end of a statement. -/
theorem ended (hc : FollowsAt K d k .taking t c p) (f : α → β) :
    FollowsAt K d k .taking t
      (c >>= fun a => Reading.endStatement >>= fun _ => Pure.pure (f a))
      (p >>= fun a => Reading.endStatement >>= fun _ => Pure.pure (f a)) :=
  hc.bind_joins .taking_passing fun _ _ => endStatement.map _

section
variable {f : Token → Parsing β} {g : Token → Parse β}

/-- A reader that looks at the token at hand, which is the same for both. -/
theorem token (hm : m ≠ .passing) (h : FollowsAt K d k m t (f t) (g t)) :
    FollowsAt K d k m t (Reading.token >>= f) (Reading.token >>= g) where
  goes w hw := by
    rw [Parsing.result_token_bind, hw.token]
    exact h.goes w hw
  meets w j hw hj := by
    obtain hj | ⟨hp, -⟩ := hj
    · show Meets K m _ ((g j.current.token).run j)
      rw [Parsing.result_token_bind, hj.alike.token, hw.token]
      exact h.meets w j hw (.inl hj)
    · exact absurd hp hm

/-- A passing reader looks at the token at hand.  It takes it, or does what it would do if a
    semicolon were at hand. -/
theorem look (h : FollowsAt K d k .taking t (f t) (g t) ∨
      FollowsAt K d k .passing t (f t) (g t) ∧ g (.symbol .semicolon) = g t) :
    FollowsAt K d k .passing t (Reading.token >>= f) (Reading.token >>= g) := by
  obtain h | ⟨h, hg⟩ := h
  · exact (token (m := .taking) nofun h).passing
  refine ⟨fun w hw => ?_, fun w j hw hj => ?_⟩
  · rw [Parsing.result_token_bind, hw.token]
    exact h.goes w hw
  · show Meets K .passing _ ((g j.current.token).run j)
    rw [Parsing.result_token_bind, hw.token]
    obtain hj | ⟨-, hj⟩ := hj
    · rw [hj.alike.token, hw.token]
      exact h.meets w j hw (.inl hj)
    · rw [hj.token, hg]
      exact h.meets w j hw (.inr ⟨rfl, hj⟩)

end

section
variable {s : Symbol}

theorem expect (s : Symbol) :
    FollowsAt K d k .taking t (Reading.expect s) (Reading.expect s) := by
  rw [Parsing.expect_eq]
  refine token (m := .taking) (g := fun t => if t = .symbol s then Reading.advance
    else Reading.fail (.expected s t)) nofun ?_
  split
  · next ht => exact advance (by simp [ht])
  · exact fail _

/-- A list, and then the symbol that closes it. -/
theorem closed (s : Symbol) (hc : FollowsAt K d k .listing t c p) (f : α → β) :
    FollowsAt K d k .taking t
      (c >>= fun a => Reading.expect s >>= fun _ => Pure.pure (f a))
      (p >>= fun a => Reading.expect s >>= fun _ => Pure.pure (f a)) :=
  hc.bind_joins .listing_taking fun _ _ => (expect s).map _

theorem identifier :
    FollowsAt K d k .taking t Reading.identifier Reading.identifier := by
  rw [Parsing.identifier_eq]
  refine token (m := .taking) (g := fun t => match t with
    | .identifier x => Reading.advance >>= fun _ => Pure.pure x
    | t => Reading.fail (.expectedIdentifier t)) nofun ?_
  split
  · exact take_pure nofun
  · exact fail _

/-- Where the symbol is not taken, what follows must be passing: a semicolon may be due. -/
theorem accept {f : Bool → Parsing β} {g : Bool → Parse β} (hs : s ≠ .semicolon)
    (hyes : Follows K d k .taking (f true) (g true))
    (hno : FollowsAt K d k .passing t (f false) (g false)) :
    FollowsAt K d k .passing t (Reading.accept s >>= f) (Reading.accept s >>= g) := by
  have hright : (Reading.accept s >>= g : Parse β) = Reading.token >>= fun t =>
      if t = .symbol s then Reading.advance >>= fun _ => g true else g false := by
    show Parse.accept s >>= g = _
    rw [Parse.accept, bind_assoc]
    refine bind_congr fun t => ?_
    split
    · exact bind_assoc _ _ g
    · exact pure_bind _ g
  rw [Parsing.accept_eq, hright, bind_assoc]
  refine look ?_
  split
  · next ht =>
    simp only [bind_assoc, pure_bind]
    exact .inl (take (by simp [ht]) hyes)
  · rw [pure_bind, if_neg (by simpa using hs.symm)]
    exact .inr ⟨hno, rfl⟩

/-- Where a statement may end, a semicolon may be due. -/
theorem atStatementEnd {f : Bool → Parsing β} {g : Bool → Parse β}
    (hyes : FollowsAt K d k .passing t (f true) (g true))
    (hno : FollowsAt K d k .taking t (f false) (g false)) :
    FollowsAt K d k .passing t (Reading.atStatementEnd >>= f) (Reading.atStatementEnd >>= g) where
  goes w hw := by
    rw [Parsing.result_atStatementEnd_bind]
    cases w.input.endsStatement with
    | true => exact hyes.goes w hw
    | false => exact hno.passing.goes w hw
  meets w j hw hj := by
    show Meets K .passing _ ((g j.endsStatement).run j)
    rw [Parsing.result_atStatementEnd_bind]
    obtain hl | ⟨-, hp⟩ := hj
    · rw [hl.endsStatement_eq]
      cases w.input.endsStatement with
      | true => exact hyes.meets w j hw (.inl hl)
      | false => exact hno.passing.meets w j hw (.inl hl)
    · have hends : j.endsStatement = true := by simp [Input.endsStatement, hp.token]
      rw [hends]
      cases w.input.endsStatement with
      | true => exact hyes.meets w j hw (.inr ⟨rfl, hp⟩)
      | false => exact hno.meets_pending (m := .taking) nofun hw hp

/-- A reader that looks at the token at hand and where it stands. -/
theorem input {f : Input → Parsing β} {g : Input → Parse β} (hm : m ≠ .passing)
    (h : ∀ i j : Input, i.current.Alike j.current → i.current.token = t →
      FollowsAt K d k m t (f i) (g j)) :
    FollowsAt K d k m t (Reading.input >>= f) (Reading.input >>= g) where
  goes w hw := by
    rw [Parsing.result_input_bind]
    exact (h w.input w.input (.refl _) hw.token).goes w hw
  meets w j hw hj := by
    obtain hj | ⟨hp, -⟩ := hj
    · show Meets K m _ ((g j).run j)
      rw [Parsing.result_input_bind]
      exact (h w.input j hj.alike hw.token).meets w j hw (.inl hj)
    · exact absurd hp hm

end

/-! ## Depth -/

/-- A construct that nests no deeper than it may. -/
theorem deeper (hd : d < maxDepth) (h : FollowsAt K (d + 1) k m t c p) :
    FollowsAt K d k m t c.deeper p := by
  have henter {w : Parser} (hw : w.At d k t) : w.enter.At (d + 1) k t :=
    ⟨⟨hw.ordered.lexemes, hw.ordered.bareEnds⟩, congrArg (· + 1) hw.depth, hw.short, hw.token⟩
  have hresult {w : Parser} (hw : w.At d k t) :
      c.deeper.result w = ((c.result w.enter).1, (c.result w.enter).2.leave) := by
    rw [Parsing.result_deeper, if_neg (by rw [hw.depth]; omega)]
  refine ⟨fun w hw => ?_, fun w j hw hj => ?_⟩
  · have hg := h.goes w.enter (henter hw)
    rw [hresult hw]
    generalize c.result w.enter = o at hg ⊢
    obtain ⟨(e | _) | a, w'⟩ := o
    · exact hg.of_enter (by rw [hw.depth]; exact hd)
    · exact hg
    · exact hg.of_enter (by rw [hw.depth]; exact hd)
  · have hm := h.meets w.enter j (henter hw)
      (hj.imp (fun hl => ⟨hl.lexemes, hl.noted⟩)
        (And.imp_right fun hp => ⟨hp.token, hp.lexemes, hp.due, hp.fresh⟩))
    rw [hresult hw]
    generalize c.result w.enter = o at hm ⊢
    obtain ⟨(e | _) | a, w'⟩ := o
    · exact hm
    · trivial
    · intro hc
      obtain ⟨i, hi, hwi⟩ := hm (by cases m <;> exact hc)
      refine ⟨i, hi, hwi.imp (fun hl => ⟨hl.lexemes, hl.noted⟩) fun hp => ?_⟩
      exact ⟨hp.token, hp.lexemes, hp.due, hp.fresh⟩

/-- The reader that refuses follows a parser that has come to the bottom. -/
theorem deeper_maxDepth :
    FollowsAt K maxDepth k m t c.deeper (Reading.fail .tooDeep) := by
  have hf := fail (α := α) (K := K) (d := maxDepth) (k := k) (m := m) (t := t) .tooDeep
  have hresult {w : Parser} (hw : w.At maxDepth k t) :
      c.deeper.result w = (Reading.fail .tooDeep : Parsing α).result w := by
    rw [Parsing.result_deeper, if_pos (Nat.le_of_eq hw.depth.symm)]
  exact ⟨fun w hw => hresult hw ▸ hf.goes w hw, fun w j hw => hresult hw ▸ hf.meets w j hw⟩

end FollowsAt

end Requisite.Source
