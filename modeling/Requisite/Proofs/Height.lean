/-
  How tall the trees are that are read.

  Readers count how deeply phrases nest, but the operators, calls and member
  accesses that follow an operand are read by loops.  Each puts the expression
  before it one level further down, so that there is no bound on the depth of the
  trees.  All other steps down a tree are bounded by the levels of the readers.

  * `Expr.extent`, `Stmt.extent`: the depth of a tree where a step down to the
    expression that a phrase begins with counts for `lead`;
  * `Program.depth`, `Program.height`: where it counts for one, and for nothing;
  * `Program.depth_unbounded`: no bound holds of all depths;
  * `Program.height_le`: the bound that holds of all heights.
-/
import Requisite.Proofs.Roundtrip
import Requisite.Proofs.Yields

namespace Requisite.Source

open Requisite

/-! ## Extents -/

mutual

/-- The depth of an expression where a step down to its first operand counts for `lead`. -/
def Expr.extent (lead : Nat) : Expr → Nat
  | .number _ | .string _ | .boolean _ | .null | .name _ => 1
  | .array items => 1 + itemsExtent lead items
  | .object entries => 1 + entriesExtent lead entries
  | .function _ _ body => 1 + bodyExtent lead body
  | .unary _ e => 1 + e.extent lead
  | .binary _ a b | .logical _ a b => max (lead + a.extent lead) (1 + b.extent lead)
  | .assign _ target e => max (lead + target.extent lead) (1 + e.extent lead)
  | .conditional test a b =>
    max (lead + test.extent lead) (1 + max (a.extent lead) (b.extent lead))
  | .call callee args => max (lead + callee.extent lead) (1 + itemsExtent lead args)
  | .dot object _ => lead + object.extent lead
  | .index object key => max (lead + object.extent lead) (1 + key.extent lead)

def itemsExtent (lead : Nat) : List Expr → Nat
  | [] => 0
  | e :: rest => max (e.extent lead) (itemsExtent lead rest)

def entriesExtent (lead : Nat) : List (String × Expr) → Nat
  | [] => 0
  | entry :: rest => max (entryExtent lead entry) (entriesExtent lead rest)

def entryExtent (lead : Nat) : String × Expr → Nat
  | (_, e) => e.extent lead

/-- The depth of a statement. -/
def Stmt.extent (lead : Nat) : Stmt → Nat
  | .declare _ bindings => 1 + bindingsExtent lead bindings
  | .function _ _ body => 1 + bodyExtent lead body
  | .expression e => 1 + e.extent lead
  | .block body => 1 + bodyExtent lead body
  | .conditional test a none => 1 + max (test.extent lead) (a.extent lead)
  | .conditional test a (some b) =>
    1 + max (test.extent lead) (max (a.extent lead) (b.extent lead))
  | .while test body => 1 + max (test.extent lead) (body.extent lead)
  | .return none => 1
  | .return (some e) => 1 + e.extent lead
  | .throw e _ => 1 + e.extent lead
  | .empty => 1

def bindingsExtent (lead : Nat) : List (String × Option Expr) → Nat
  | [] => 0
  | binding :: rest => max (bindingExtent lead binding) (bindingsExtent lead rest)

def bindingExtent (lead : Nat) : String × Option Expr → Nat
  | (_, none) => 0
  | (_, some e) => e.extent lead

def bodyExtent (lead : Nat) : List Stmt → Nat
  | [] => 0
  | s :: rest => max (s.extent lead) (bodyExtent lead rest)

end

/-- The depth of the tree: the length of the longest way from a statement down to a leaf. -/
def Program.depth (p : Program) : Nat := bodyExtent 1 p

/-- The depth, where steps down to the expression that a phrase begins with do not count: to the
    left operand of an operator, the target of an assignment, the test of a choice, the callee of
    a call, the object of a member access. -/
def Program.height (p : Program) : Nat := bodyExtent 0 p

section
variable {lead n : Nat}

theorem itemsExtent_le {items : List Expr} :
    itemsExtent lead items ≤ n ↔ ∀ e ∈ items, e.extent lead ≤ n := by
  induction items with
  | nil => simp [itemsExtent]
  | cons e items ih => simp [itemsExtent, ih]

theorem entriesExtent_le {entries : List (String × Expr)} :
    entriesExtent lead entries ≤ n ↔ ∀ entry ∈ entries, entryExtent lead entry ≤ n := by
  induction entries with
  | nil => simp [entriesExtent]
  | cons entry entries ih => simp only [entriesExtent, Nat.max_le, ih, List.forall_mem_cons]

theorem bindingsExtent_le {bindings : List (String × Option Expr)} :
    bindingsExtent lead bindings ≤ n ↔ ∀ binding ∈ bindings, bindingExtent lead binding ≤ n := by
  induction bindings with
  | nil => simp [bindingsExtent]
  | cons binding bindings ih => simp only [bindingsExtent, Nat.max_le, ih, List.forall_mem_cons]

theorem bodyExtent_le {body : List Stmt} :
    bodyExtent lead body ≤ n ↔ ∀ s ∈ body, s.extent lead ≤ n := by
  induction body with
  | nil => simp [bodyExtent]
  | cons s body ih => simp [bodyExtent, ih]

theorem extent_apply (op : Infix) (a b : Expr) :
    (op.apply a b).extent lead = max (lead + a.extent lead) (1 + b.extent lead) := by
  cases op <;> rfl

end

/-! ## Chains are deep -/

/-- Each operator of a chain puts the operands before it one step further down. -/
theorem length_le_extent (links : List (Infix × List Token × Expr)) (a : Expr) :
    a.extent 1 + links.length ≤ (links.foldl (fun left l => l.1.apply left l.2.2) a).extent 1 := by
  induction links generalizing a with
  | nil => exact Nat.le_refl _
  | cons l links ih =>
    have h := ih (l.1.apply a l.2.2)
    rw [extent_apply] at h
    rw [List.foldl_cons, List.length_cons]
    omega

/-- A plus sign and a name. -/
def summand : Infix × List Token × Expr := (.binary .add, [.identifier "a"], .name "a")

/-- The sum of a name and `n` more. -/
def sum (n : Nat) : Expr :=
  (List.replicate n summand).foldl (fun left l => l.1.apply left l.2.2) (.name "a")

/-- The tokens of the sum, without parentheses. -/
def sumTokens (n : Nat) : List Token :=
  .identifier "a" :: (List.replicate n summand).flatMap fun l => .symbol l.1.symbol :: l.2.1

/-- A sum is read as an assignment, however long it is. -/
theorem Reads.assignment_sum (limit : Nat) (inner : Nested) (n : Nat) :
    Reads limit (assignment limit inner) (sumTokens n) (sum n) (·.ends) := by
  have hname (level : Nat) : Reads limit (Source.operators limit inner level) [.identifier "a"]
      (.name "a") (Token.Stops level) :=
    .operators (.unary_primary rfl (.name "a") fun _ => .suffixes_nil) level
  refine .assignment_operators (.operators_mono (.operators_links (hname 1) ?_) (by decide))
  intro l hl
  rw [List.eq_of_mem_replicate hl]
  exact ⟨rfl, hname 1⟩

theorem Program.exists_ofText?_sum (n : Nat) :
    ∃ s, ofText? s = .ok [.expression (sum n)] := by
  have hsentence (limit : Nat) : Reads.Sentence limit (nested limit maxDepth).statement
      (sumTokens n ++ [.symbol .semicolon]) (.expression (sum n)) :=
    ⟨⟨_, _, rfl, nofun, nofun, nofun⟩,
      (Reads.expression_name (Reads.assignment_sum limit _ n)).mono fun _ _ => trivial⟩
  have hwritable : ∀ t ∈ [sumTokens n ++ [.symbol .semicolon]].flatten, t.isWritable := by
    intro t ht
    simp only [sumTokens, List.flatten_singleton, List.cons_append, List.mem_cons,
      List.mem_append, List.mem_flatMap, List.not_mem_nil, or_false] at ht
    rcases ht with rfl | ⟨l, hl, rfl | ht⟩ | rfl
    · decide
    · rw [List.eq_of_mem_replicate hl]
      decide
    · rw [List.eq_of_mem_replicate hl] at ht
      obtain rfl := List.mem_singleton.1 ht
      decide
    · decide
  obtain ⟨css, hcss⟩ := Token.exists_spellings hwritable
  exact ⟨_, ofText?_spelled (fun limit => .cons (hsentence limit) .nil) hcss⟩

/-- No bound holds of the depths of all programs. -/
theorem Program.depth_unbounded : ¬∃ k, ∀ s p, ofText? s = .ok p → p.depth ≤ k := by
  rintro ⟨k, hk⟩
  obtain ⟨s, hs⟩ := exists_ofText?_sum k
  have hle := hk s _ hs
  have hlt := length_le_extent (List.replicate k summand) (.name "a")
  rw [List.length_replicate] at hlt
  simp only [depth, bodyExtent, Stmt.extent, sum] at hle
  omega

/-! ## Phrases are low -/

/-- The trees of the phrases are at most `n` high, and leaves are too. -/
structure Phrases.Low (g : Phrases) (n : Nat) : Prop where
  pos : 0 < n
  statement : ∀ ts s, g.statement ts s → s.extent 0 ≤ n
  assignment : ∀ ts e, g.assignment ts e → e.extent 0 ≤ n
  unary : ∀ ts e, g.unary ts e → e.extent 0 ≤ n

namespace Phrases.Low

variable {g : Phrases} {n : Nat} {ts : List Token} {e : Expr}

theorem functionRest (h : g.Low n) {params : List String} {body : List Stmt}
    (hts : g.FunctionRest ts (params, body)) : bodyExtent 0 body ≤ n := by
  obtain ⟨-, hbody⟩ := hts
  exact bodyExtent_le.2 (hbody.forall h.statement)

theorem property (h : g.Low n) {entry : String × Expr} (hts : g.Property ts entry) :
    entryExtent 0 entry ≤ n := by
  cases hts with
  | short x => exact h.pos
  | keyed _ hvalue => exact h.assignment _ _ hvalue

theorem primary (h : g.Low n) (hts : g.Primary ts e) : e.extent 0 ≤ 1 + n := by
  cases hts with
  | number | string | boolean | null | name => exact Nat.le_add_right 1 n
  | function name hrest => exact Nat.add_le_add_left (h.functionRest hrest) 1
  | group he => exact Nat.le_add_left_of_le (h.assignment _ _ he)
  | array hitems =>
    exact Nat.add_le_add_left (itemsExtent_le.2 (hitems.forall h.assignment)) 1
  | object hentries =>
    exact Nat.add_le_add_left (entriesExtent_le.2 (hentries.forall fun _ _ => h.property)) 1

/-- Calls and member accesses are as high as what they begin with. -/
theorem suffixed (h : g.Low n) (hts : g.Suffixed ts e) : e.extent 0 ≤ 1 + n := by
  induction hts with
  | primary he => exact h.primary he
  | call _ hargs ih =>
    have := itemsExtent_le.2 (hargs.forall h.assignment)
    rw [Expr.extent]
    omega
  | dot key _ ih =>
    rw [Expr.extent]
    omega
  | index _ hkey ih =>
    have := h.assignment _ _ hkey
    rw [Expr.extent]
    omega

theorem next_unary (h : g.Low n) (hts : g.Unary ts e) : e.extent 0 ≤ 1 + n := by
  cases hts with
  | operator _ he => exact Nat.add_le_add_left (h.unary _ _ he) 1
  | suffixed he => exact h.suffixed he

/-- A looser operator may stand one step above a tighter one. -/
theorem operators (h : g.Low n) {level : Nat} (hts : g.Operators level ts e) :
    e.extent 0 ≤ 1 + n + level := by
  induction hts with
  | unary he => exact h.next_unary he
  | tighter _ ih => omega
  | operator _ _ _ ihleft ihright =>
    rw [extent_apply]
    omega

theorem conditional (h : g.Low n) (hts : g.Conditional ts e) : e.extent 0 ≤ 7 + n := by
  cases hts with
  | test he =>
    have := h.operators he
    rw [Infix.loosest] at this
    omega
  | branches htest ha hb =>
    have := h.operators htest
    have := h.assignment _ _ ha
    have := h.assignment _ _ hb
    rw [Infix.loosest] at *
    rw [Expr.extent]
    omega

theorem next_assignment (h : g.Low n) (hts : g.Assignment ts e) : e.extent 0 ≤ 7 + n := by
  cases hts with
  | conditional he => exact h.conditional he
  | assign htarget _ _ hvalue =>
    have := h.conditional htarget
    have := h.assignment _ _ hvalue
    rw [Expr.extent]
    omega

theorem binding (h : g.Low n) {kind : BindingKind} {binding : String × Option Expr}
    (hts : g.Binding kind ts binding) : bindingExtent 0 binding ≤ n := by
  cases hts with
  | bare x => exact Nat.zero_le n
  | valued x he => exact h.assignment _ _ he

theorem next_statement (h : g.Low n) {s : Stmt} (hts : g.Statement ts s) :
    s.extent 0 ≤ 1 + n := by
  cases hts with
  | declare _ hbindings =>
    exact Nat.add_le_add_left
      (bindingsExtent_le.2 (hbindings.forall fun _ _ => h.binding)) 1
  | function name hrest => exact Nat.add_le_add_left (h.functionRest hrest) 1
  | conditional htest ha =>
    exact Nat.add_le_add_left
      (Nat.max_le.2 ⟨h.assignment _ _ htest, h.statement _ _ ha⟩) 1
  | alternative htest ha hb =>
    exact Nat.add_le_add_left (Nat.max_le.2 ⟨h.assignment _ _ htest,
      Nat.max_le.2 ⟨h.statement _ _ ha, h.statement _ _ hb⟩⟩) 1
  | «while» htest hbody =>
    exact Nat.add_le_add_left
      (Nat.max_le.2 ⟨h.assignment _ _ htest, h.statement _ _ hbody⟩) 1
  | returnNone => exact Nat.le_add_right 1 n
  | returnSome he => exact Nat.add_le_add_left (h.assignment _ _ he) 1
  | throw _ he => exact Nat.add_le_add_left (h.assignment _ _ he) 1
  | block hbody =>
    exact Nat.add_le_add_left (bodyExtent_le.2 (hbody.forall h.statement)) 1
  | empty => exact Nat.le_add_right 1 n
  | expression he => exact Nat.add_le_add_left (h.assignment _ _ he) 1

/-- **One level further out**: a level adds one step and one for each precedence. -/
theorem next (h : g.Low n) :
    Phrases.Low ⟨g.Statement, g.Assignment, g.Unary⟩ (7 + n) where
  pos := by omega
  statement _ _ hts := Nat.le_trans (h.next_statement hts) (by omega)
  assignment _ _ hts := h.next_assignment hts
  unary _ _ hts := Nat.le_trans (h.next_unary hts) (by omega)

end Phrases.Low

theorem phrases_low (n : Nat) : (phrases n).Low (7 * n + 1) := by
  induction n with
  | zero => exact ⟨Nat.one_pos, fun _ _ h => h.elim, fun _ _ h => h.elim, fun _ _ h => h.elim⟩
  | succ n ih =>
    rw [show 7 * (n + 1) + 1 = 7 + (7 * n + 1) by omega]
    exact ih.next

/-- **What is read is low.**  But for steps down to the expression that a phrase begins with, the
    depth of a program is bounded by the levels that may nest. -/
theorem Program.height_le {s : String} {p : Program} (h : ofText? s = .ok p) :
    p.height ≤ 7 * maxDepth + 1 :=
  bodyExtent_le.2 ((ofText?_sound h).1.forall (phrases_low maxDepth).statement)

/-- A sum with a sum in parentheses for its right operand. -/
theorem Program.height_le_sum :
    ofText? "a + (b + c)" = .ok [.expression (.binary .add (.name "a")
        (.binary .add (.name "b") (.name "c")))] ∧
      height [.expression (.binary .add (.name "a") (.binary .add (.name "b") (.name "c")))] ≤
        7 * maxDepth + 1 := by
  have hlexemes : Lexeme.ofText "a + (b + c)" =
      [⟨.identifier "a", ⟨0, 1⟩, ⟨1, 1⟩, false⟩, ⟨.symbol .plus, ⟨2, 1⟩, ⟨3, 1⟩, false⟩,
        ⟨.symbol .leftParen, ⟨4, 1⟩, ⟨5, 1⟩, false⟩, ⟨.identifier "b", ⟨5, 1⟩, ⟨6, 1⟩, false⟩,
        ⟨.symbol .plus, ⟨7, 1⟩, ⟨8, 1⟩, false⟩, ⟨.identifier "c", ⟨9, 1⟩, ⟨10, 1⟩, false⟩,
        ⟨.symbol .rightParen, ⟨10, 1⟩, ⟨11, 1⟩, false⟩, ⟨.eof, ⟨11, 1⟩, ⟨11, 1⟩, false⟩] := by
    decide +kernel
  have h : ofText? "a + (b + c)" = .ok [.expression (.binary .add (.name "a")
      (.binary .add (.name "b") (.name "c")))] :=
    ofText?_of_lexemes hlexemes rfl
  exact ⟨h, height_le h⟩

end Requisite.Source
