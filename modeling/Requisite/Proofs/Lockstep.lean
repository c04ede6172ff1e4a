/-
  Readers on two inputs at once.

  Of its input a reader looks at the tokens and at where new lines begin; the
  lines of tokens it only passes on.  On two inputs that are the same in this
  respect a reader takes the same steps.

  * `Lockstep`: a relation between inputs that readers keep;
  * `Lockstep.Agrees`: two readers that answer alike on related inputs;
  * `Lockstep.AgreesAt.bind`: one reader after the other;
  * `Lockstep.Nested`: readers that agree with themselves;
  * `Lockstep.nested`: so do the readers at each depth;
  * `Lockstep.program`: and those of whole programs.
-/
import Requisite.Proofs.Yields

namespace Requisite.Source

open Requisite Parse

/-! ## Trees but for lines -/

theorem itemsOnLine_eq (line : Nat) (items : List Expr) :
    itemsOnLine line items = items.map (Expr.onLine line) := by
  induction items with
  | nil => rfl
  | cons e rest ih => rw [itemsOnLine, ih, List.map_cons]

/-- A property with its value on a line. -/
def entryOnLine (line : Nat) : String × Expr → String × Expr
  | (key, e) => (key, e.onLine line)

theorem entriesOnLine_eq (line : Nat) (entries : List (String × Expr)) :
    entriesOnLine line entries = entries.map (entryOnLine line) := by
  induction entries with
  | nil => rfl
  | cons entry rest ih => rw [entriesOnLine, ih, List.map_cons, entryOnLine]

/-- A binding with its value on a line. -/
def bindingOnLine (line : Nat) : String × Option Expr → String × Option Expr
  | (x, e) => (x, e.map (Expr.onLine line))

theorem bindingsOnLine_eq (line : Nat) (bindings : List (String × Option Expr)) :
    bindingsOnLine line bindings = bindings.map (bindingOnLine line) := by
  induction bindings with
  | nil => rfl
  | cons binding rest ih =>
    obtain ⟨x, _ | e⟩ := binding <;> rw [bindingsOnLine, ih] <;> rfl

theorem bodyOnLine_eq (line : Nat) (body : List Stmt) :
    bodyOnLine line body = body.map (Stmt.onLine line) := by
  induction body with
  | nil => rfl
  | cons s rest ih => rw [bodyOnLine, ih, List.map_cons]

/-! ## Pairs of inputs -/

/-- A relation between inputs that readers keep, with one between the errors that come of it.
    Where the inputs are settled, new lines begin before the same of their tokens; else the tokens
    at hand may differ in this. -/
structure Lockstep where
  inputs (settled : Bool) : Input → Input → Prop
  errors : SyntaxError → SyntaxError → Prop
  unsettled {i j : Input} : inputs true i j → inputs false i j
  token_eq {settled : Bool} {i j : Input} : inputs settled i j →
    i.current.token = j.current.token
  newline_eq {i j : Input} : inputs true i j → i.current.token ≠ .eof →
    i.current.newline = j.current.newline
  next {settled : Bool} {i j : Input} : inputs settled i j → i.current.token ≠ .eof →
    inputs true i.next j.next
  fail {settled : Bool} {i j : Input} (c : Complaint) : inputs settled i j →
    errors ⟨c, i.current.start.line⟩ ⟨c, j.current.start.line⟩

namespace Lockstep

variable {L : Lockstep} {α β κ μ : Type} {t : Token} {before between after : Bool}

/-- Answers of which `key` is the same, with related inputs left; or related errors. -/
inductive Meets (L : Lockstep) (after : Bool) (key : α → κ) :
    Except SyntaxError (α × Input) → Except SyntaxError (α × Input) → Prop
  | ok {a b : α} {i j : Input} : key a = key b → L.inputs after i j →
    Meets L after key (.ok (a, i)) (.ok (b, j))
  | error {e f : SyntaxError} : L.errors e f → Meets L after key (.error e) (.error f)

/-- Where the token `t` is at hand in two related inputs, two readers come to the same. -/
def AgreesAt (L : Lockstep) (t : Token) (before after : Bool) (key : α → κ) (p q : Parse α) :
    Prop :=
  ∀ i j, L.inputs before i j → i.current.token = t → L.Meets after key (p.run i) (q.run j)

/-- The same wherever the readers begin. -/
def Agrees (L : Lockstep) (before after : Bool) (key : α → κ) (p q : Parse α) : Prop :=
  ∀ t, L.AgreesAt t before after key p q

namespace AgreesAt

variable {key : α → κ} {key' : β → μ} {p q : Parse α}

theorem pure {a b : α} (h : key a = key b) :
    L.AgreesAt t after after key (Pure.pure a) (Pure.pure b) := fun _ _ hij _ => .ok h hij

theorem fail (c : Complaint) : L.AgreesAt t before after key (Parse.fail c) (Parse.fail c) :=
  fun _ _ hij _ => .error (L.fail c hij)

theorem unsettled (h : L.AgreesAt t before true key p q) : L.AgreesAt t before false key p q := by
  intro i j hij ht
  have hm := h i j hij ht
  generalize p.run i = r at hm ⊢
  generalize q.run j = r' at hm ⊢
  cases hm with
  | ok hab hij' => exact .ok hab (L.unsettled hij')
  | error he => exact .error he

/-- The second readers agree on answers with the same key. -/
theorem bind {k k' : α → Parse β} (hp : L.AgreesAt t before between key p q)
    (hk : ∀ a b, key a = key b → L.Agrees between after key' (k a) (k' b)) :
    L.AgreesAt t before after key' (p >>= k) (q >>= k') := by
  intro i j hij ht
  have h := hp i j hij ht
  rw [StateT.run_bind, StateT.run_bind]
  cases hp' : p.run i with
  | error e =>
    rw [hp'] at h
    generalize q.run j = r at h ⊢
    cases h with
    | error he => exact .error he
  | ok r =>
    rw [hp'] at h
    generalize q.run j = r' at h ⊢
    cases h with
    | ok hab hij' => exact hk _ _ hab _ _ _ hij' rfl

theorem map {f : α → β} (hp : L.AgreesAt t before after key p q)
    (hf : ∀ a b, key a = key b → key' (f a) = key' (f b)) :
    L.AgreesAt t before after key' (f <$> p) (f <$> q) := by
  rw [map_eq_pure_bind, map_eq_pure_bind]
  exact hp.bind fun a b hab _ => .pure (hf a b hab)

/-! ## Tokens -/

section
variable {k k' : Unit → Parse β}

theorem token {k k' : Token → Parse β} (h : L.AgreesAt t before after key' (k t) (k' t)) :
    L.AgreesAt t before after key' (Parse.token >>= k) (Parse.token >>= k') := by
  intro i j hij ht
  have hm := h i j hij ht
  rw [← ht] at hm
  have hj : (Parse.token >>= k').run j = (k' i.current.token).run j := by
    rw [L.token_eq hij]
    rfl
  rw [hj]
  exact hm

theorem get {k k' : Input → Parse β}
    (h : ∀ i j : Input, i.current.token = t → j.current.token = t →
      L.AgreesAt t before after key' (k i) (k' j)) :
    L.AgreesAt t before after key' (get >>= k) (get >>= k') :=
  fun i j hij ht => h i j ht ((L.token_eq hij).symm.trans ht) i j hij ht

theorem advance (ht : t ≠ .eof) (h : L.Agrees true after key' (k ()) (k' ())) :
    L.AgreesAt t before after key' (Parse.advance >>= k) (Parse.advance >>= k') := by
  rintro i j hij rfl
  exact h _ i.next j.next (L.next hij ht) rfl

theorem expect {s : Symbol} (h : L.Agrees true after key' (k ()) (k' ())) :
    L.AgreesAt t before after key' (Parse.expect s >>= k) (Parse.expect s >>= k') := by
  simp only [Parse.expect, bind_assoc]
  refine token ?_
  split
  · next ht => exact advance (by simp [ht]) h
  · intro i j hij _
    exact .error (L.fail _ hij)

theorem identifier {k k' : String → Parse β} (h : ∀ x, L.Agrees true after key' (k x) (k' x)) :
    L.AgreesAt t before after key' (Parse.identifier >>= k) (Parse.identifier >>= k') := by
  simp only [Parse.identifier, bind_assoc]
  refine token ?_
  split
  · simp only [bind_assoc, pure_bind]
    exact advance (by simp) (h _)
  · intro i j hij _
    exact .error (L.fail _ hij)

theorem accept {s : Symbol} {k k' : Bool → Parse β}
    (hyes : L.Agrees true after key' (k true) (k' true))
    (hno : L.AgreesAt t before after key' (k false) (k' false)) :
    L.AgreesAt t before after key' (Parse.accept s >>= k) (Parse.accept s >>= k') := by
  simp only [Parse.accept, bind_assoc]
  refine token ?_
  split
  · next ht =>
    simp only [bind_assoc, pure_bind]
    exact advance (by simp [ht]) hyes
  · simpa only [pure_bind] using hno

/-- Where new lines begin tells whether a statement may end. -/
theorem atStatementEnd {k k' : Bool → Parse β}
    (h : ∀ b, L.AgreesAt t true after key' (k b) (k' b)) :
    L.AgreesAt t true after key' (Parse.atStatementEnd >>= k) (Parse.atStatementEnd >>= k') := by
  intro i j hij ht
  have htoken := L.token_eq hij
  have hends : (j.current.token = .symbol .semicolon || j.current.token = .symbol .rightBrace ||
      j.current.token = .eof || j.current.newline) =
      (i.current.token = .symbol .semicolon || i.current.token = .symbol .rightBrace ||
        i.current.token = .eof || i.current.newline) := by
    by_cases heof : i.current.token = .eof
    · simp [← htoken, heof]
    · rw [← htoken, L.newline_eq hij heof]
  have hj : (Parse.atStatementEnd >>= k').run j = (k' (i.current.token = .symbol .semicolon ||
      i.current.token = .symbol .rightBrace || i.current.token = .eof ||
      i.current.newline)).run j := by
    rw [← hends]
    rfl
  rw [hj]
  exact h _ i j hij ht

theorem endStatement (h : L.Agrees true after key' (k ()) (k' ())) :
    L.AgreesAt t true after key' (Parse.endStatement >>= k) (Parse.endStatement >>= k') := by
  simp only [Parse.endStatement, bind_assoc]
  refine accept (by simpa using h) ?_
  simp only [Bool.not_false, ↓reduceIte, bind_assoc]
  refine atStatementEnd fun b => ?_
  cases b with
  | true => simpa using h t
  | false =>
    simp only [Bool.not_false, ↓reduceIte, bind_assoc]
    refine token ?_
    intro i j hij _
    exact .error (L.fail _ hij)

end

end AgreesAt

/-! ## Lists -/

namespace Agrees

variable {key : α → κ} {p : Parse α}

theorem separated (hp : L.Agrees true true key p p) (steps : Nat) :
    L.Agrees true true (List.map key) (separated p steps) (separated p steps) := by
  induction steps with
  | zero => exact fun _ => .pure rfl
  | succ steps ih =>
    unfold Source.separated
    refine fun t => (hp t).bind fun a b hab t => .accept ?_ ?_
    · rw [if_pos rfl, if_pos rfl]
      refine fun t => (ih t).bind fun as bs h t => .pure ?_
      rw [List.map_cons, List.map_cons, hab, h]
    · exact .pure (by simpa using hab)

theorem terminated (close : Symbol) (hp : L.Agrees true true key p p) (steps : Nat) :
    L.Agrees true true (List.map key) (terminated close p steps) (terminated close p steps) := by
  induction steps with
  | zero => exact fun _ => .pure rfl
  | succ steps ih =>
    unfold Source.terminated
    refine fun t => .token ?_
    split
    · exact .pure rfl
    · refine (hp t).bind fun a b hab t => .token ?_
      have hrest : L.Agrees true true (List.map key)
          (Source.terminated close p steps >>= fun as => pure (a :: as))
          (Source.terminated close p steps >>= fun bs => pure (b :: bs)) := by
        refine fun t => (ih t).bind fun as bs h t => .pure ?_
        rw [List.map_cons, List.map_cons, hab, h]
      split
      · exact .expect hrest
      · exact hrest t

theorem listed (hp : L.Agrees true true key p p) (limit : Nat) :
    L.Agrees true true (List.map key) (listed limit p) (listed limit p) := by
  unfold Source.listed
  refine fun t => .token ?_
  have hclose {as bs : List α} (h : as.map key = bs.map key) : L.Agrees true true (List.map key)
      (Parse.expect .rightParen >>= fun _ => pure as)
      (Parse.expect .rightParen >>= fun _ => pure bs) := fun _ => .expect fun _ => .pure h
  split
  · rw [pure_bind]
    exact hclose rfl t
  · exact (separated hp limit t).bind fun as bs h => hclose h

theorem statements {key : Stmt → κ} {p : Parse Stmt} (hp : L.Agrees true true key p p)
    (steps : Nat) :
    L.Agrees true true (List.map key) (statements p steps) (statements p steps) := by
  induction steps with
  | zero => exact fun _ => .pure rfl
  | succ steps ih =>
    unfold Source.statements
    refine fun t => .token ?_
    split
    · exact .pure rfl
    · refine (hp t).bind fun a b hab t => (ih t).bind fun as bs h t => .pure ?_
      rw [List.map_cons, List.map_cons, hab, h]

end Agrees

/-! ## Productions -/

/-- Readers that agree with themselves on trees but for the lines of these.  They take a token at
    least, so that the inputs they leave are settled. -/
structure Nested (L : Lockstep) (r : Source.Nested) : Prop where
  statement (before : Bool) : L.Agrees before true (Stmt.onLine 1) r.statement r.statement
  assignment (before : Bool) : L.Agrees before true (Expr.onLine 1) r.assignment r.assignment
  unary (before : Bool) : L.Agrees before true (Expr.onLine 1) r.unary r.unary

namespace Nested

variable {limit : Nat} {inner : Source.Nested}

/-! ### Functions and objects -/

theorem braced (h : L.Nested inner) :
    L.Agrees true true (List.map (Stmt.onLine 1)) (braced limit inner) (braced limit inner) := by
  unfold Source.braced
  exact fun t => (Agrees.statements (h.statement true) limit t).bind fun as bs hab t =>
    .expect fun _ => .pure hab

/-- The parameters and the body of a function, without lines. -/
def functionKey (f : List String × List Stmt) : List String × List Stmt :=
  (f.1, f.2.map (Stmt.onLine 1))

theorem eq_of_functionKey {f g : List String × List Stmt} (h : functionKey f = functionKey g) :
    f.1 = g.1 ∧ bodyOnLine 1 f.2 = bodyOnLine 1 g.2 := by
  rw [bodyOnLine_eq, bodyOnLine_eq]
  exact Prod.ext_iff.1 h

theorem functionRest (h : L.Nested inner) :
    L.Agrees true true functionKey (functionRest limit inner) (functionRest limit inner) := by
  unfold Source.functionRest
  have hparam : L.Agrees true true id Parse.identifier Parse.identifier := by
    rw [← bind_pure Parse.identifier]
    exact fun _ => .identifier fun x _ => .pure rfl
  refine fun t => .expect fun t => (Agrees.listed hparam limit t).bind fun xs ys hxy t => ?_
  rw [List.map_id, List.map_id] at hxy
  refine .expect fun t => (h.braced t).bind fun as bs hab t => .pure ?_
  rw [functionKey, functionKey, hxy, hab]

theorem functionExpression (h : L.Nested inner) :
    L.Agrees true true (Expr.onLine 1) (functionExpression limit inner)
      (functionExpression limit inner) := by
  unfold Source.functionExpression
  have hrest (name : Option String) : L.Agrees true true (Expr.onLine 1)
      (Source.functionRest limit inner >>= fun f => pure (.function name f.1 f.2))
      (Source.functionRest limit inner >>= fun f => pure (.function name f.1 f.2)) := by
    refine fun t => (h.functionRest t).bind fun f g hfg t => .pure ?_
    obtain ⟨hparams, hbody⟩ := eq_of_functionKey hfg
    simp only [Expr.onLine, hparams, hbody]
  refine fun t => .token ?_
  split
  · refine .advance nofun fun t => ?_
    rw [pure_bind]
    exact hrest _ t
  · rw [pure_bind]
    exact hrest _ t

theorem property (h : L.Nested inner) :
    L.Agrees true true (entryOnLine 1) (property inner) (property inner) := by
  unfold Source.property
  refine fun t => .token ?_
  split
  · exact .fail _
  · next key hkey =>
    refine .advance (Token.ne_eof rfl hkey) fun u => .token ?_
    split
    · exact .pure rfl
    · refine .expect fun v => (h.assignment true v).bind fun a b hab v => .pure ?_
      rw [entryOnLine, entryOnLine, hab]

/-! ### Expressions -/

variable {before : Bool}

theorem primary (h : L.Nested inner) :
    L.Agrees before true (Expr.onLine 1) (primary limit inner) (primary limit inner) := by
  unfold Source.primary
  refine fun t => .token ?_
  split
  case h_1 x => exact .advance nofun fun _ => .pure rfl
  case h_2 s => exact .advance nofun fun _ => .pure rfl
  case h_3 b => exact .advance nofun fun _ => .pure rfl
  case h_4 => exact .advance nofun fun _ => .pure rfl
  case h_5 x => exact .advance nofun fun _ => .pure rfl
  case h_6 => exact .advance nofun h.functionExpression
  case h_7 =>
    exact .advance nofun fun t => (h.assignment true t).bind fun a b hab t =>
      .expect fun _ => .pure hab
  case h_8 =>
    refine .advance nofun fun t => ?_
    refine (Agrees.terminated _ (h.assignment true) limit t).bind fun as bs hab t => ?_
    refine .expect fun _ => .pure ?_
    simp only [Expr.onLine, itemsOnLine_eq, hab]
  case h_9 =>
    refine .advance nofun fun t => ?_
    refine (Agrees.terminated _ h.property limit t).bind fun as bs hab t => ?_
    refine .expect fun _ => .pure ?_
    simp only [Expr.onLine, entriesOnLine_eq, hab]
  case h_10 => exact .fail _

theorem suffixes (h : L.Nested inner) {e e' : Expr} (steps : Nat)
    (he : e.onLine 1 = e'.onLine 1) :
    L.Agrees true true (Expr.onLine 1) (suffixes limit inner steps e)
      (suffixes limit inner steps e') := by
  induction steps generalizing e e' with
  | zero => exact fun _ => .pure he
  | succ steps ih =>
    unfold Source.suffixes
    refine fun t => .token ?_
    split
    · refine .advance nofun fun t => ?_
      refine (Agrees.listed (h.assignment true) limit t).bind fun as bs hab => ih ?_
      simp only [Expr.onLine, itemsOnLine_eq, he, hab]
    · refine .advance nofun fun t => .identifier fun key => ih ?_
      simp only [Expr.onLine, he]
    · refine .advance nofun fun t => (h.assignment true t).bind fun a b hab t => .expect (ih ?_)
      simp only [Expr.onLine, he, hab]
    · exact .pure he

theorem next_unary (h : L.Nested inner) :
    L.Agrees before true (Expr.onLine 1) (Source.unary limit inner)
      (Source.unary limit inner) := by
  unfold Source.unary
  refine fun t => .token ?_
  split
  · next op hop =>
    refine .advance (Token.ne_eof rfl hop) fun u => (h.unary true u).bind fun a b hab u => .pure ?_
    simp only [Expr.onLine, hab]
  · exact (h.primary t).bind fun a b hab => h.suffixes limit hab

theorem onLine_apply (op : Infix) (a b : Expr) :
    (op.apply a b).onLine 1 = op.apply (a.onLine 1) (b.onLine 1) := by
  cases op <;> rfl

theorem chain {level : Nat} {operand : Parse Expr}
    (h : L.Agrees true true (Expr.onLine 1) operand operand) {left left' : Expr} (steps : Nat)
    (hleft : left.onLine 1 = left'.onLine 1) :
    L.Agrees true true (Expr.onLine 1) (chain level operand steps left)
      (chain level operand steps left') := by
  induction steps generalizing left left' with
  | zero => exact fun _ => .pure hleft
  | succ steps ih =>
    unfold Source.chain
    refine fun t => .token ?_
    split
    · next op hop =>
      refine .advance (Token.ne_eof rfl hop) fun u => (h u).bind fun a b hab => ih ?_
      rw [onLine_apply, onLine_apply, hleft, hab]
    · exact .pure hleft

theorem operators (h : L.Nested inner) (level : Nat) (before : Bool) :
    L.Agrees before true (Expr.onLine 1) (operators limit inner level)
      (operators limit inner level) := by
  induction level generalizing before with
  | zero => exact h.next_unary
  | succ level ih =>
    unfold Source.operators
    exact fun t => (ih before t).bind fun a b hab => chain (ih true) limit hab

theorem conditional (h : L.Nested inner) :
    L.Agrees before true (Expr.onLine 1) (conditional limit inner) (conditional limit inner) := by
  unfold Source.conditional
  refine fun t => (h.operators _ before t).bind fun test test' htest t => .accept ?_ ?_
  · rw [if_pos rfl, if_pos rfl]
    refine fun t => (h.assignment true t).bind fun a b hab t => .expect fun t => ?_
    refine (h.assignment true t).bind fun c d hcd t => .pure ?_
    simp only [Expr.onLine, htest, hab, hcd]
  · exact .pure htest

theorem next_assignment (h : L.Nested inner) :
    L.Agrees before true (Expr.onLine 1) (Source.assignment limit inner)
      (Source.assignment limit inner) := by
  unfold Source.assignment
  refine fun t => (h.conditional t).bind fun target target' htarget t => .token ?_
  split
  · next op hop =>
    -- what is no target but for its lines is none
    rw [← Expr.isTarget_onLine 1 target, htarget, Expr.isTarget_onLine]
    split
    · refine .advance (Token.ne_eof rfl hop) fun u => ?_
      refine (h.assignment true u).bind fun a b hab u => .pure ?_
      simp only [Expr.onLine, htarget, hab]
    · exact .fail _
  · exact .pure htarget

/-! ### Statements -/

theorem binding (h : L.Nested inner) (kind : BindingKind) :
    L.Agrees true true (bindingOnLine 1) (binding inner kind) (binding inner kind) := by
  unfold Source.binding
  refine fun t => .identifier fun x t => .accept ?_ ?_
  · rw [if_pos rfl]
    refine fun t => (h.assignment true t).bind fun a b hab t => .pure ?_
    rw [bindingOnLine, bindingOnLine, Option.map_some, Option.map_some, hab]
  · simp only [Bool.false_eq_true, ↓reduceIte]
    split
    · exact .fail _
    · exact .pure rfl

theorem next_statement (h : L.Nested inner) :
    L.Agrees before true (Stmt.onLine 1) (Source.statement limit inner)
      (Source.statement limit inner) := by
  unfold Source.statement
  refine fun t => .get fun i j hi hj => ?_
  dsimp only
  rw [hi, hj]
  split
  · next kind hkind =>
    refine .advance (Token.ne_eof rfl hkind) fun u => ?_
    refine (Agrees.separated (h.binding kind) limit u).bind fun as bs hab u => ?_
    refine .endStatement fun _ => .pure ?_
    simp only [Stmt.onLine, bindingsOnLine_eq, hab]
  split
  case h_1 =>
    refine .advance nofun fun t => .identifier fun name t => ?_
    refine (h.functionRest t).bind fun f g hfg t => .pure ?_
    obtain ⟨hparams, hbody⟩ := eq_of_functionKey hfg
    simp only [Stmt.onLine, hparams, hbody]
  case h_2 =>
    refine .advance nofun fun t => .expect fun t => ?_
    refine (h.assignment true t).bind fun test test' htest t => .expect fun t => ?_
    refine (h.statement true t).bind fun a b hab t => .token ?_
    split
    · next ht =>
      subst ht
      refine .advance nofun fun t => (h.statement true t).bind fun c d hcd t => .pure ?_
      simp only [Stmt.onLine, htest, hab, hcd]
    · refine .pure ?_
      simp only [Stmt.onLine, htest, hab]
  case h_3 =>
    refine .advance nofun fun t => .expect fun t => ?_
    refine (h.assignment true t).bind fun test test' htest t => .expect fun t => ?_
    refine (h.statement true t).bind fun a b hab t => .pure ?_
    simp only [Stmt.onLine, htest, hab]
  case h_4 =>
    refine .advance nofun fun t => .atStatementEnd fun atEnd => ?_
    cases atEnd with
    | true =>
      simp only [↓reduceIte, pure_bind]
      exact .endStatement fun _ => .pure rfl
    | false =>
      have hvalue : L.AgreesAt t true true (Option.map (Expr.onLine 1))
          (some <$> inner.assignment) (some <$> inner.assignment) :=
        (h.assignment true t).map fun a b hab => congrArg some hab
      refine hvalue.bind fun a b hab t => .endStatement fun _ => .pure ?_
      cases a <;> cases b <;> simp_all [Stmt.onLine]
  case h_5 =>
    refine .advance nofun fun t => (h.assignment true t).bind fun a b hab t => ?_
    refine .endStatement fun _ => .pure ?_
    simp only [Stmt.onLine, hab]
  case h_6 =>
    refine .advance nofun fun t => (h.braced t).bind fun as bs hab t => .pure ?_
    simp only [Stmt.onLine, bodyOnLine_eq, hab]
  case h_7 => exact .advance nofun fun _ => .pure rfl
  case h_8 =>
    refine (h.assignment before t).bind fun a b hab t => .endStatement fun _ => .pure ?_
    simp only [Stmt.onLine, hab]

/-- **One level further out**: the productions agree with themselves. -/
theorem next (h : L.Nested inner) :
    L.Nested ⟨Source.statement limit inner, Source.assignment limit inner,
      Source.unary limit inner⟩ where
  statement _ := h.next_statement
  assignment _ := h.next_assignment
  unary _ := h.next_unary

end Nested

/-- The readers at each depth agree with themselves. -/
theorem nested (L : Lockstep) (limit n : Nat) : L.Nested (Source.nested limit n) := by
  induction n with
  | zero =>
    exact {
      statement := fun _ _ => .fail _
      assignment := fun _ _ => .fail _
      unary := fun _ _ => .fail _ }
  | succ n ih => exact ih.next

/-- Programs are read alike. -/
theorem program {p : Parse Stmt}
    (hp : ∀ before, L.Agrees before true (Stmt.onLine 1) p p) (steps : Nat) (before : Bool) :
    L.Agrees before false (Program.onLine 1) (program p steps) (program p steps) := by
  have hnil (t : Token) (before : Bool) :
      L.AgreesAt t before false (Program.onLine 1) (pure []) (pure []) := by
    cases before with
    | false => exact .pure rfl
    | true => exact AgreesAt.unsettled (.pure rfl)
  induction steps generalizing before with
  | zero => exact fun t => hnil t before
  | succ steps ih =>
    unfold Source.program
    refine fun t => .token ?_
    split
    · exact hnil t before
    · refine (hp before t).bind fun a b hab t => (ih true t).bind fun as bs h t => .pure ?_
      simp only [Program.onLine, bodyOnLine] at h ⊢
      rw [hab, h]

end Lockstep

end Requisite.Source
