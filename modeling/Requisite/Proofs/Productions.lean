/-
  The productions of the grammar, on a line of tokens.

  What each production reads, given what the readers one level deeper read.  An
  operand, a member access or a call ends where the next token neither goes on
  with it nor is an operator that binds its operands as tightly.

  * `Token.Stops`: such tokens;
  * `Reads.operators`, `Reads.infixed`: an operand, and two operands with an
    operator, among operators of any precedence;
  * `Reads.operators_links`: a chain of operators of one precedence;
  * `Reads.assignment_operators`: what has operators only is read as an
    assignment;
  * `Reads.group`: an expression in parentheses;
  * `Program.ofLexemes?_sentences`: tokens of statements that the readers read.
-/
import Requisite.Proofs.Reads

namespace Requisite.Source

open Requisite Parse

/-! ## Tokens after operands -/

/-- Calls and member accesses go on with the token. -/
def Token.isSuffix : Token → Bool
  | .symbol s => s ∈ [.leftParen, .dot, .leftBracket]
  | _ => false

/-- Neither a call or member access nor an operator of precedence at most `level` goes on with
    the token. -/
def Token.Stops (level : Nat) (t : Token) : Prop :=
  t.isSuffix = false ∧ ∀ l ≤ level, Infix.ofToken? l t = none

theorem Infix.ofToken?_symbol (op : Infix) (level : Nat) :
    ofToken? level (.symbol op.symbol) = if op.precedence = level then some op else none := by
  simp [ofToken?, Option.filter]

theorem Infix.precedence_pos (op : Infix) : 0 < op.precedence := by
  rcases op with op | op <;> cases op <;> decide

theorem Infix.precedence_le_loosest (op : Infix) : op.precedence ≤ loosest := by
  rcases op with op | op <;> cases op <;> decide

namespace Token

variable {level : Nat} {t : Token}

theorem stops_of_ends (h : t.ends) : t.Stops level := by
  cases t with
  | symbol s => cases s <;> first | exact ⟨rfl, fun _ _ => rfl⟩ | exact absurd h nofun
  | _ => exact ⟨rfl, fun _ _ => rfl⟩

theorem stops_infix (op : Infix) (h : level < op.precedence) : Stops level (.symbol op.symbol) := by
  refine ⟨by rcases op with op | op <;> cases op <;> rfl, fun l hl => ?_⟩
  rw [Infix.ofToken?_symbol, if_neg (by omega)]

theorem stops_assign (op : AssignOp) : Stops level (.symbol op.symbol) := by
  cases op <;> exact ⟨rfl, fun _ _ => rfl⟩

theorem stops_question : Stops level (.symbol .question) := ⟨rfl, fun _ _ => rfl⟩

theorem Stops.mono {level' : Nat} (h : t.Stops level) (hl : level' ≤ level) : t.Stops level' :=
  ⟨h.1, fun l hl' => h.2 l (Nat.le_trans hl' hl)⟩

theorem ne_question_of_ends (h : t.ends) : t ≠ .symbol .question := by
  rintro rfl
  exact absurd h nofun

theorem assignOp_of_ends (h : t.ends) : AssignOp.ofToken? t = none := by
  cases t with
  | symbol s => cases s <;> first | rfl | exact absurd h nofun
  | _ => rfl

end Token

namespace Reads

variable {limit : Nat} {inner : Nested} {ts us vs : List Token} {t : Token} {e a b : Expr}
  {next mid : Token → Prop}

/-! ## Primary expressions -/

theorem array {tss : List (List Token)} {items : List Expr}
    (h : List.Forall₂ (Item limit inner.assignment) tss items) :
    Reads limit (primary limit inner) (bracketed (commas tss)) (.array items)
      fun _ => True := by
  unfold primary bracketed
  exact token_cons (.advance (closed .rightBracket rfl nofun h .pure))

theorem object {tss : List (List Token)} {entries : List (String × Expr)}
    (h : List.Forall₂ (Item limit (property inner)) tss entries) :
    Reads limit (primary limit inner) (inBraces (commas tss)) (.object entries)
      fun _ => True := by
  unfold primary inBraces
  exact token_cons (.advance (closed .rightBrace rfl nofun h .pure))

theorem property {key : String} (h : Reads limit inner.assignment ts e next) :
    Reads limit (Source.property inner) (.string key :: .symbol .colon :: ts) (key, e) next := by
  unfold Source.property
  refine token_cons (.advance (.token_cons ?_))
  rw [if_neg (by simp)]
  exact .expect (h.bind_nil .pure fun t ht => ht)

theorem group_primary (h : Reads limit inner.assignment ts e (·.ends)) :
    Reads limit (primary limit inner) (grouped ts) e fun _ => True := by
  unfold primary grouped
  exact token_cons (.advance (h.bind (.expect .pure) fun _ _ => rfl))

theorem name (x : String) :
    Reads limit (primary limit inner) [.identifier x] (.name x) fun _ => True := by
  unfold primary
  exact token_cons (.advance .pure)

/-! ## Functions -/

theorem braced {tss : List (List Token)} {body : List Stmt}
    (h : List.Forall₂ (Sentence limit inner.statement) tss body) :
    Reads limit (Source.braced limit inner) (tss.flatten ++ [.symbol .rightBrace]) body
      fun _ => True := by
  refine of_length fun hl => ?_
  have hs := length_le_flatten h
  simp only [List.length_append] at hl
  unfold Source.braced
  exact (statements h (by omega)).bind (.expect .pure) fun _ _ => .inl rfl

theorem parameters (params : List String) :
    List.Forall₂ (Item limit Parse.identifier) (params.map fun x => [.identifier x]) params := by
  induction params with
  | nil => exact .nil
  | cons x params ih =>
    refine .cons ⟨⟨_, _, rfl, rfl⟩, ?_⟩ ih
    rw [← bind_pure Parse.identifier]
    exact .identifier .pure

theorem functionRest {tss : List (List Token)} {body : List Stmt} (params : List String)
    (h : List.Forall₂ (Sentence limit inner.statement) tss body) :
    Reads limit (Source.functionRest limit inner) (printFunction params tss.flatten)
      (params, body) fun _ => True := by
  unfold Source.functionRest printFunction grouped inBraces
  rw [List.cons_append]
  refine .expect ((listed (parameters params)).bind (.expect ?_) fun _ _ => trivial)
  exact (braced h).bind_nil .pure fun t ht => ht

theorem function {tss : List (List Token)} {body : List Stmt} (name : Option String)
    (params : List String) (h : List.Forall₂ (Sentence limit inner.statement) tss body) :
    Reads limit (primary limit inner)
      (.keyword .functionWord :: (printName name ++ printFunction params tss.flatten))
      (.function name params body) fun _ => True := by
  have hrest := functionRest params h
  unfold primary functionExpression
  refine token_cons (.advance ?_)
  cases name with
  | some x =>
    refine token_cons (.advance ?_)
    rw [pure_bind]
    exact hrest.bind_nil .pure fun _ _ => trivial
  | none =>
    refine token_cons ?_
    simp only [pure_bind]
    exact hrest.bind_nil .pure fun _ _ => trivial

/-! ## Calls and members -/

theorem suffixes_nil {steps : Nat} :
    Reads limit (suffixes limit inner steps a) [] a (Token.Stops 0) := by
  cases steps with
  | zero => exact .pure
  | succ steps =>
    unfold suffixes
    refine token_nil fun t ht => ?_
    split
    case h_4 => exact .pure
    all_goals exact absurd ht.1 (by decide)

theorem suffixes_call {tss : List (List Token)} {args : List Expr} {steps : Nat}
    (hs : 0 < steps) (h : List.Forall₂ (Item limit inner.assignment) tss args) :
    Reads limit (suffixes limit inner steps a) (grouped (commas tss)) (.call a args)
      (Token.Stops 0) := by
  obtain ⟨steps, rfl⟩ := Nat.exists_eq_add_one.2 hs
  unfold suffixes grouped
  refine token_cons (.advance ?_)
  exact (listed h).bind_nil suffixes_nil fun _ _ => trivial

theorem suffixes_dot {key : String} {steps : Nat} (hs : 0 < steps) :
    Reads limit (suffixes limit inner steps a) [.symbol .dot, .identifier key] (.dot a key)
      (Token.Stops 0) := by
  obtain ⟨steps, rfl⟩ := Nat.exists_eq_add_one.2 hs
  unfold suffixes
  exact token_cons (.advance (.identifier suffixes_nil))

theorem suffixes_index {steps : Nat} (hs : 0 < steps)
    (h : Reads limit inner.assignment ts e (·.ends)) :
    Reads limit (suffixes limit inner steps a) (bracketed ts) (.index a e) (Token.Stops 0) := by
  obtain ⟨steps, rfl⟩ := Nat.exists_eq_add_one.2 hs
  unfold suffixes bracketed
  exact token_cons (.advance (h.bind (.expect suffixes_nil) fun _ _ => rfl))

/-! ## Operators -/

theorem unary_op (op : UnaryOp) (h : Reads limit inner.unary ts e next) :
    Reads limit (unary limit inner) (op.token :: ts) (.unary op e) next := by
  unfold unary
  refine token_cons ?_
  rw [UnaryOp.ofToken?_token]
  exact .advance (h.bind_nil .pure fun t ht => ht)

/-- A primary expression, then what goes on with it. -/
theorem unary_primary (ht : UnaryOp.ofToken? t = none)
    (hp : Reads limit (primary limit inner) (t :: ts) a fun _ => True)
    (hs : 0 < limit → Reads limit (suffixes limit inner limit a) us e next) :
    Reads limit (unary limit inner) (t :: ts ++ us) e next := by
  refine of_length fun hl => ?_
  unfold unary
  refine token_cons ?_
  rw [ht]
  exact hp.bind (hs (Nat.zero_lt_of_lt hl)) fun _ _ => trivial

theorem chain_nil {level steps : Nat} {operand : Parse Expr} :
    Reads limit (chain level operand steps a) [] a (Token.Stops level) := by
  cases steps with
  | zero => exact .pure
  | succ steps =>
    unfold chain
    refine token_nil fun t ht => ?_
    rw [ht.2 level (Nat.le_refl level)]
    exact .pure

/-- An operand among operators of any precedence. -/
theorem operators (h : Reads limit (unary limit inner) ts a (Token.Stops 0)) (level : Nat) :
    Reads limit (Source.operators limit inner level) ts a (Token.Stops level) := by
  induction level with
  | zero => exact h
  | succ level ih =>
    unfold Source.operators
    exact ih.bind_nil chain_nil fun t ht => ht.mono (Nat.le_succ level)

/-- An operator and its operands, where the operands of operators up to a looser precedence are
    read. -/
theorem infixed (op : Infix) (ha : Reads limit (unary limit inner) ts a (Token.Stops 0))
    (hb : Reads limit (unary limit inner) us b (Token.Stops 0)) {level : Nat}
    (hl : op.precedence ≤ level) :
    Reads limit (Source.operators limit inner level) (ts ++ .symbol op.symbol :: us)
      (op.apply a b) (Token.Stops level) := by
  induction level with
  | zero => exact absurd op.precedence_pos (by omega)
  | succ level ih =>
    unfold Source.operators
    rcases Nat.lt_or_ge level op.precedence with hlt | hle
    · -- the operator is the one of this precedence that the chain looks for
      have hop : op.precedence = level + 1 := by omega
      refine of_length fun hlen => ?_
      obtain ⟨steps, rfl⟩ := Nat.exists_eq_add_one.2 (Nat.zero_lt_of_lt hlen)
      refine (operators ha level).bind ?_ fun t ht => Token.stops_infix op hlt
      unfold chain
      refine token_cons ?_
      rw [Infix.ofToken?_symbol, if_pos hop]
      refine .advance ?_
      exact (operators hb level).bind_nil chain_nil fun t ht => ht.mono (Nat.le_succ level)
    · exact (ih hle).bind_nil chain_nil fun t ht => ht.mono (Nat.le_succ level)

/-! ## Chains of operators -/

/-- An operator and its right operand among others of one precedence. -/
structure Link (limit level : Nat) (operand : Parse Expr) (op : Infix) (ts : List Token)
    (e : Expr) : Prop where
  precedence : op.precedence = level + 1
  operand : Reads limit operand ts e (Token.Stops level)

/-- The operands that follow an operand, each with the operator before it. -/
theorem chain_links {level steps : Nat} {operand : Parse Expr}
    {links : List (Infix × List Token × Expr)}
    (h : ∀ l ∈ links, Link limit level operand l.1 l.2.1 l.2.2) (hs : links.length ≤ steps) :
    Reads limit (chain (level + 1) operand steps a)
      (links.flatMap fun l => .symbol l.1.symbol :: l.2.1)
      (links.foldl (fun left l => l.1.apply left l.2.2) a) (Token.Stops (level + 1)) := by
  induction links generalizing steps a with
  | nil => exact chain_nil
  | cons l links ih =>
    obtain ⟨steps, rfl⟩ := Nat.exists_eq_add_one.2 (Nat.lt_of_lt_of_le (Nat.succ_pos _) hs)
    obtain ⟨hop, hoperand⟩ := h l List.mem_cons_self
    have hrest := fun l hl => h l (List.mem_cons_of_mem _ hl)
    unfold chain
    rw [List.flatMap_cons, List.cons_append]
    refine token_cons ?_
    rw [Infix.ofToken?_symbol, if_pos hop]
    refine .advance (hoperand.bind (ih hrest (Nat.le_of_succ_le_succ hs)) fun t ht => ?_)
    cases links with
    | nil => exact ht.mono (Nat.le_succ level)
    | cons m links => exact Token.stops_infix m.1 (by rw [(hrest m List.mem_cons_self).1]; omega)

theorem length_le_links (links : List (Infix × List Token × Expr)) :
    links.length ≤ (links.flatMap fun l => Token.symbol l.1.symbol :: l.2.1).length := by
  induction links with
  | nil => exact Nat.le_refl _
  | cons l links ih =>
    simp only [List.flatMap_cons, List.length_append, List.length_cons]
    omega

/-- A chain of operators of one precedence groups to the left. -/
theorem operators_links {level : Nat} {links : List (Infix × List Token × Expr)}
    (h : Reads limit (Source.operators limit inner level) ts a (Token.Stops level))
    (hlinks : ∀ l ∈ links, Link limit level (Source.operators limit inner level) l.1 l.2.1 l.2.2) :
    Reads limit (Source.operators limit inner (level + 1))
      (ts ++ links.flatMap fun l => .symbol l.1.symbol :: l.2.1)
      (links.foldl (fun left l => l.1.apply left l.2.2) a) (Token.Stops (level + 1)) := by
  refine of_length fun hl => ?_
  have hs := length_le_links links
  rw [List.length_append] at hl
  unfold Source.operators
  refine h.bind (chain_links hlinks (by omega)) fun t ht => ?_
  cases links with
  | nil => exact ht.mono (Nat.le_succ level)
  | cons m links => exact Token.stops_infix m.1 (by rw [(hlinks m List.mem_cons_self).1]; omega)

/-- Operators of tighter precedence. -/
theorem operators_mono {level level' : Nat}
    (h : Reads limit (Source.operators limit inner level) ts a (Token.Stops level))
    (hl : level ≤ level') :
    Reads limit (Source.operators limit inner level') ts a (Token.Stops level') := by
  induction hl with
  | refl => exact h
  | @step level' _ ih =>
    unfold Source.operators
    exact ih.bind_nil chain_nil fun t ht => ht.mono (Nat.le_succ level')

/-! ## Assignments -/

theorem conditional_test (h : Reads limit (unary limit inner) ts a (Token.Stops 0)) :
    Reads limit (Source.conditional limit inner) ts a
      fun t => t.Stops Infix.loosest ∧ t ≠ .symbol .question := by
  unfold Source.conditional
  exact (operators h _).bind_nil (accept_ne (fun _ ht => ht.2) .pure) fun _ ht => ht.1

theorem assignment_conditional
    (h : Reads limit (Source.conditional limit inner) ts e (·.ends)) :
    Reads limit (Source.assignment limit inner) ts e (·.ends) := by
  unfold Source.assignment
  refine h.bind_nil (token_nil fun t ht => ?_) fun _ ht => ht
  rw [Token.assignOp_of_ends ht]
  exact .pure

/-- Neither a choice nor an assignment goes on with a token that ends an expression. -/
theorem assignment_operators
    (h : Reads limit (Source.operators limit inner Infix.loosest) ts e
      (Token.Stops Infix.loosest)) :
    Reads limit (Source.assignment limit inner) ts e (·.ends) := by
  refine assignment_conditional ?_
  unfold Source.conditional
  exact h.bind_nil (accept_ne (fun _ ht => Token.ne_question_of_ends ht) .pure) fun _ ht =>
    Token.stops_of_ends ht

theorem assignment_unary (h : Reads limit (unary limit inner) ts e (Token.Stops 0)) :
    Reads limit (Source.assignment limit inner) ts e (·.ends) :=
  assignment_operators (operators h _)

theorem assignment_primary (ht : UnaryOp.ofToken? t = none)
    (h : Reads limit (primary limit inner) (t :: ts) e fun _ => True) :
    Reads limit (Source.assignment limit inner) (t :: ts) e (·.ends) := by
  rw [← List.append_nil (t :: ts)]
  exact assignment_unary (unary_primary ht h fun _ => suffixes_nil)

theorem assignment_choice (ht : Reads limit (unary limit inner) ts e (Token.Stops 0))
    (ha : Reads limit inner.assignment us a (·.ends))
    (hb : Reads limit inner.assignment vs b (·.ends)) :
    Reads limit (Source.assignment limit inner)
      (ts ++ .symbol .question :: (us ++ .symbol .colon :: vs)) (.conditional e a b)
      (·.ends) := by
  refine assignment_conditional ?_
  unfold Source.conditional
  refine (operators ht _).bind (accept ?_) fun _ _ => Token.stops_question
  rw [if_pos rfl]
  refine ha.bind (.expect ?_) fun _ _ => rfl
  exact hb.bind_nil .pure fun _ ht => ht

theorem assignment_op (op : AssignOp) (htarget : a.isTarget)
    (ha : Reads limit (unary limit inner) ts a (Token.Stops 0))
    (he : Reads limit inner.assignment us e (·.ends)) :
    Reads limit (Source.assignment limit inner) (ts ++ .symbol op.symbol :: us)
      (.assign op a e) (·.ends) := by
  unfold Source.assignment
  refine (conditional_test ha).bind (token_cons ?_) fun _ _ =>
    ⟨Token.stops_assign op, by cases op <;> exact nofun⟩
  rw [AssignOp.ofToken?_symbol]
  simp only [htarget, ↓reduceIte]
  exact .advance (he.bind_nil .pure fun _ ht => ht)

/-! ## Parentheses -/

theorem group_unary (h : Reads limit inner.assignment ts e (·.ends)) :
    Reads limit (unary limit inner) (grouped ts) e (Token.Stops 0) := by
  rw [← List.append_nil (grouped ts)]
  exact unary_primary rfl (group_primary h) fun _ => suffixes_nil

/-- An expression in parentheses. -/
theorem group (h : Reads limit inner.assignment ts e (·.ends)) :
    Reads limit (Source.assignment limit inner) (grouped ts) e (·.ends) :=
  assignment_unary (group_unary h)

/-! ## Statements -/

variable {s : Stmt}

theorem binding_none {kind : BindingKind} {x : String} (hk : kind ≠ .constant) :
    Item limit (binding inner kind) [.identifier x] (x, none) := by
  refine ⟨⟨_, _, rfl, rfl⟩, ?_⟩
  unfold binding
  refine .identifier (accept_ne (fun t ht => ?_) ?_)
  · rintro rfl
    exact absurd ht (by decide)
  · simp only [Bool.false_eq_true, ↓reduceIte, hk]
    exact .pure

theorem binding_some {kind : BindingKind} {x : String}
    (h : Reads limit inner.assignment ts e (·.ends)) :
    Item limit (binding inner kind) (.identifier x :: .symbol .equal :: ts) (x, some e) := by
  refine ⟨⟨_, _, rfl, rfl⟩, ?_⟩
  unfold binding
  refine .identifier (.accept ?_)
  rw [if_pos rfl]
  exact h.bind_nil .pure fun _ ht => ht

theorem declare {kind : BindingKind} {tss : List (List Token)}
    {bindings : List (String × Option Expr)} (hne : bindings ≠ [])
    (h : List.Forall₂ (Item limit (binding inner kind)) tss bindings) :
    Reads limit (statement limit inner)
      (.keyword kind.keyword :: (commas tss ++ [.symbol .semicolon])) (.declare kind bindings)
      fun _ => True := by
  refine of_length fun hl => ?_
  have hs := length_le_commas tss
  simp only [List.length_cons, List.length_append] at hl
  unfold statement
  refine get_cons fun i hi _ => ?_
  simp only [hi, BindingKind.ofToken?_keyword]
  have hsep : Reads limit (Source.separated (binding inner kind) limit) (commas tss) bindings
      (· = .symbol .semicolon) := by
    refine separated h hne (by omega) ?_
    rintro t rfl
    exact ⟨rfl, nofun⟩
  exact .advance (hsep.bind (.endStatement .pure) fun _ _ => rfl)

theorem function_statement {tss : List (List Token)} {body : List Stmt} (name : String)
    (params : List String) (h : List.Forall₂ (Sentence limit inner.statement) tss body) :
    Reads limit (statement limit inner)
      (.keyword .functionWord :: .identifier name :: printFunction params tss.flatten)
      (.function name params body) fun _ => True := by
  unfold statement
  refine get_cons fun i hi _ => ?_
  simp only [hi, BindingKind.ofToken?]
  exact .advance (.identifier ((functionRest params h).bind_nil .pure fun _ _ => trivial))

theorem block {tss : List (List Token)} {body : List Stmt}
    (h : List.Forall₂ (Sentence limit inner.statement) tss body) :
    Reads limit (statement limit inner) (inBraces tss.flatten) (.block body)
      fun _ => True := by
  unfold statement inBraces
  refine get_cons fun i hi _ => ?_
  simp only [hi, BindingKind.ofToken?]
  exact .advance ((braced h).bind_nil .pure fun _ _ => trivial)

/-- The test of a conditional or a loop, and what follows it. -/
theorem test {k : Expr → Parse Stmt} (h : Reads limit inner.assignment ts e (·.ends))
    (hk : Reads limit (k e) us s next) :
    Reads limit (Parse.expect .leftParen >>= fun _ => inner.assignment >>= fun test =>
      Parse.expect .rightParen >>= fun _ => k test) (grouped ts ++ us) s next := by
  unfold grouped
  rw [List.cons_append, List.append_assoc]
  exact .expect (h.bind (.expect hk) fun _ _ => rfl)

theorem conditional_none {consequent : Stmt} (ht : Reads limit inner.assignment ts e (·.ends))
    (ha : Reads limit inner.statement us consequent (· ≠ .keyword .elseWord)) :
    Reads limit (statement limit inner) (.keyword .ifWord :: (grouped ts ++ us))
      (.conditional e consequent none) (· ≠ .keyword .elseWord) := by
  unfold statement
  refine get_cons fun i hi _ => ?_
  simp only [hi, BindingKind.ofToken?]
  refine .advance (test ht (ha.bind_nil (token_nil fun t hne => ?_) fun _ hne => hne))
  rw [if_neg hne]
  exact .pure

theorem conditional_some {consequent alternate : Stmt}
    (ht : Reads limit inner.assignment ts e (·.ends))
    (ha : Reads limit inner.statement us consequent fun _ => True)
    (hb : Reads limit inner.statement vs alternate next) :
    Reads limit (statement limit inner)
      (.keyword .ifWord :: (grouped ts ++ (us ++ .keyword .elseWord :: vs)))
      (.conditional e consequent (some alternate)) next := by
  unfold statement
  refine get_cons fun i hi _ => ?_
  simp only [hi, BindingKind.ofToken?]
  refine .advance (test ht (ha.bind (token_cons ?_) fun _ _ => trivial))
  rw [if_pos rfl]
  exact .advance (hb.bind_nil .pure fun _ ht => ht)

theorem loop {body : Stmt} (ht : Reads limit inner.assignment ts e (·.ends))
    (hb : Reads limit inner.statement us body next) :
    Reads limit (statement limit inner) (.keyword .whileWord :: (grouped ts ++ us))
      (.while e body) next := by
  unfold statement
  refine get_cons fun i hi _ => ?_
  simp only [hi, BindingKind.ofToken?]
  exact .advance (test ht (hb.bind_nil .pure fun _ ht => ht))

theorem return_none :
    Reads limit (statement limit inner) [.keyword .returnWord, .symbol .semicolon]
      (.return none) fun _ => True := by
  unfold statement
  refine get_cons fun i hi _ => ?_
  simp only [hi, BindingKind.ofToken?]
  refine .advance (atStatementEnd ?_)
  rw [if_pos (by decide), pure_bind]
  exact .endStatement .pure

theorem return_some (ht : t.ends = false) (h : Reads limit inner.assignment (t :: ts) e (·.ends)) :
    Reads limit (statement limit inner)
      (.keyword .returnWord :: (t :: ts ++ [.symbol .semicolon])) (.return (some e))
      fun _ => True := by
  have hgo : ¬(t = .symbol .semicolon || t = .symbol .rightBrace || t = .eof) := by
    simp only [Bool.or_eq_true, decide_eq_true_eq]
    rintro ((rfl | rfl) | rfl) <;> exact absurd ht nofun
  unfold statement
  refine get_cons fun i hi _ => ?_
  simp only [hi, BindingKind.ofToken?]
  refine .advance (atStatementEnd ?_)
  rw [if_neg hgo]
  exact (h.map some).bind (.endStatement .pure) fun _ _ => rfl

theorem throw (h : Reads limit inner.assignment ts e (·.ends)) :
    Reads limit (statement limit inner) (.keyword .throwWord :: (ts ++ [.symbol .semicolon]))
      (.throw e 1) fun _ => True := by
  unfold statement
  refine get_cons fun i hi hline => ?_
  simp only [hi, hline, BindingKind.ofToken?]
  exact .advance (h.bind (.endStatement .pure) fun _ _ => rfl)

theorem empty :
    Reads limit (statement limit inner) [.symbol .semicolon] .empty fun _ => True := by
  unfold statement
  refine get_cons fun i hi _ => ?_
  simp only [hi, BindingKind.ofToken?]
  exact .advance .pure

/-- A parenthesis begins no other statement. -/
theorem expression (h : Reads limit inner.assignment (grouped ts) e (·.ends)) :
    Reads limit (statement limit inner) (grouped ts ++ [.symbol .semicolon]) (.expression e)
      fun _ => True := by
  unfold statement
  refine get_cons fun i hi _ => ?_
  simp only [hi, BindingKind.ofToken?]
  exact h.bind (.endStatement .pure) fun _ _ => rfl

/-- A name begins no other statement. -/
theorem expression_name {x : String}
    (h : Reads limit inner.assignment (.identifier x :: ts) e (·.ends)) :
    Reads limit (statement limit inner) (.identifier x :: ts ++ [.symbol .semicolon])
      (.expression e) fun _ => True := by
  unfold statement
  refine get_cons fun i hi _ => ?_
  simp only [hi, BindingKind.ofToken?]
  exact h.bind (.endStatement .pure) fun _ _ => rfl

end Reads

/-! ## Programs -/

/-- Tokens of statements that are read, on the first line, are read as the program of these
    statements. -/
theorem Program.ofLexemes?_sentences {ls : List Lexeme} {tss : List (List Token)} {p : Program}
    (h : List.Forall₂ (Reads.Sentence ls.length (nested ls.length maxDepth).statement) tss p)
    (htokens : ls.map Lexeme.token = tss.flatten ++ [.eof])
    (hline : ∀ l ∈ ls, l.newline = false ∧ l.start.line = 1) : ofLexemes? ls = .ok p := by
  have hlength : (tss.flatten ++ [Token.eof]).length = ls.length := by
    rw [← htokens, List.length_map]
  have hshows : (Input.ofLexemes ls).Shows (tss.flatten ++ [.eof]) := by
    cases ls with
    | nil => simp at htokens
    | cons l ls => exact ⟨htokens, hline⟩
  have hsteps : tss.length ≤ ls.length := by
    have := Reads.length_le_flatten h
    simp only [List.length_append] at hlength
    omega
  obtain ⟨i, hi, -⟩ := Reads.program h hsteps (.ofLexemes ls) .eof [] hshows
    (Nat.le_of_eq hlength) rfl
  unfold ofLexemes?
  rw [StateT.run'_eq, hi]
  rfl

end Requisite.Source
