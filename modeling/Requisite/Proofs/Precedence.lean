/-
  Precedence and associativity of operators.

  A flat expression is a row of operands with operators between them.  What it
  means is said without the grammar: the operators come in six groups, a row is
  split at the rightmost of its loosest operators, and so are the two sides.

  * `Infix.groups`: the operators, from `||` to those of multiplication;
  * `Operand`, `Flat`: names and literals under unary operators, and rows of them;
  * `Flat.tree`: the tree of a row, by splitting;
  * `Flat.tree_join`: two rows around an operator that is looser than all on its
    right and as loose as any on its left;
  * `Flat.exists_links`: a row as a chain of rows of tighter operators;
  * `Flat.takes_operators`: the levels of the grammar take a row with its tree;
  * `Flat.takes_grouped`: a row is the test of a choice, and the value of a chain
    of assignments, as a whole.
-/
import Mathlib.Data.List.Induction
import Requisite.Proofs.Takes

namespace Requisite.Source

open Requisite

/-! ## The order of the operators -/

namespace Infix

/-- The operators from the loosest to the tightest, in groups that bind alike. -/
def groups : List (List Infix) :=
  [[.logical .or],
    [.logical .and],
    [.binary .equal, .binary .notEqual, .binary .strictEqual, .binary .strictNotEqual],
    [.binary .less, .binary .lessEqual, .binary .greater, .binary .greaterEqual],
    [.binary .add, .binary .subtract],
    [.binary .multiply, .binary .divide, .binary .modulo]]

/-- The place of an operator's group. -/
def tightness (op : Infix) : Nat := groups.findIdx fun ops => op ∈ ops

variable {op op' : Infix}

/-- The levels of the grammar count the groups from the other end. -/
theorem tightness_add_precedence (op : Infix) : op.tightness + op.precedence = groups.length := by
  rcases op with op | op <;> cases op <;> rfl

theorem tightness_lt_iff : op.tightness < op'.tightness ↔ op'.precedence < op.precedence := by
  have h := op.tightness_add_precedence
  have h' := op'.tightness_add_precedence
  omega

end Infix

/-! ## Rows of operands -/

/-- A name or a literal. -/
inductive Atom where
  | number (value : Binary64)
  | string (value : String)
  | boolean (value : Bool)
  | null
  | name (x : String)

namespace Atom

def token : Atom → Token
  | number x => .number x
  | string s => .string s
  | boolean b => .boolean b
  | null => .null
  | name x => .identifier x

def expr : Atom → Expr
  | number x => .number x
  | string s => .string s
  | boolean b => .boolean b
  | null => .null
  | name x => .name x

end Atom

/-- A name or a literal under unary operators, the outermost first. -/
structure Operand where
  ops : List UnaryOp
  atom : Atom

namespace Operand

def tokens (x : Operand) : List Token := x.ops.map UnaryOp.token ++ [x.atom.token]

def expr (x : Operand) : Expr := x.ops.foldr Expr.unary x.atom.expr

end Operand

/-- A row of operands: the first, and the others with the operators before them. -/
structure Flat where
  first : Operand
  rest : List (Infix × Operand)

/-- The row before the rightmost of the loosest operators, that operator, and the row after it. -/
def splitLoosest : List (Infix × Operand) → Option (List (Infix × Operand) × Infix × Flat)
  | [] => none
  | (op, x) :: rest =>
    match splitLoosest rest with
    | none => some ([], op, ⟨x, rest⟩)
    | some (before, op', after) =>
      if op.tightness < op'.tightness then some ([], op, ⟨x, rest⟩)
      else some ((op, x) :: before, op', after)

theorem eq_append_of_splitLoosest {rest before : List (Infix × Operand)} {op : Infix} {g : Flat}
    (h : splitLoosest rest = some (before, op, g)) : rest = before ++ (op, g.first) :: g.rest := by
  induction rest generalizing before op g with
  | nil => cases h
  | cons x rest ih =>
    rw [splitLoosest] at h
    split at h
    · cases h
      rfl
    · next before' op' g' hrest =>
      split at h
      · cases h
        rfl
      · cases h
        rw [ih hrest, List.cons_append]

namespace Flat

def operands (f : Flat) : List Operand := f.first :: f.rest.map Prod.snd

def tokens (f : Flat) : List Token :=
  f.first.tokens ++ f.rest.flatMap fun x => .symbol x.1.symbol :: x.2.tokens

/-- Two rows with an operator between them. -/
def join (f : Flat) (op : Infix) (g : Flat) : Flat :=
  ⟨f.first, f.rest ++ (op, g.first) :: g.rest⟩

/-- The tree of a row, which is split at the rightmost of its loosest operators. -/
def tree (f : Flat) : Expr :=
  match _h : splitLoosest f.rest with
  | none => f.first.expr
  | some (before, op, g) => op.apply (tree ⟨f.first, before⟩) (tree g)
termination_by f.rest.length
decreasing_by
  all_goals
    rw [eq_append_of_splitLoosest _h, List.length_append, List.length_cons]
    omega

variable {f g : Flat} {op : Infix} {limit n level : Nat} {ls us vs : List Lexeme}

theorem operands_join : (f.join op g).operands = f.operands ++ g.operands := by
  simp [operands, join]

theorem tokens_join : (f.join op g).tokens = f.tokens ++ .symbol op.symbol :: g.tokens := by
  simp [tokens, join]

/-! ## The tree of a row -/

theorem tree_operand (x : Operand) : tree ⟨x, []⟩ = x.expr := by
  rw [tree]
  rfl

theorem splitLoosest_cons (x : Operand) {rest : List (Infix × Operand)}
    (h : ∀ y ∈ rest, y.1.precedence < op.precedence) :
    splitLoosest ((op, x) :: rest) = some ([], op, ⟨x, rest⟩) := by
  rw [splitLoosest]
  split
  · rfl
  · next before op' g hrest =>
    have hlt : op'.precedence < op.precedence :=
      h (op', g.first) (by simp [eq_append_of_splitLoosest hrest])
    rw [if_pos (Infix.tightness_lt_iff.2 hlt)]

theorem splitLoosest_append (g : Flat) {before : List (Infix × Operand)}
    (hbefore : ∀ y ∈ before, y.1.precedence ≤ op.precedence)
    (hg : ∀ y ∈ g.rest, y.1.precedence < op.precedence) :
    splitLoosest (before ++ (op, g.first) :: g.rest) = some (before, op, g) := by
  induction before with
  | nil => exact splitLoosest_cons g.first hg
  | cons y before ih =>
    have hle : ¬op.precedence < y.1.precedence := Nat.not_lt.2 (hbefore y List.mem_cons_self)
    rw [List.cons_append, splitLoosest, ih fun z hz => hbefore z (List.mem_cons_of_mem y hz)]
    exact if_neg (mt Infix.tightness_lt_iff.1 hle)

/-- A row is split where the operator is looser than all on its right, and none on its left is
    looser. -/
theorem tree_join (hf : ∀ y ∈ f.rest, y.1.precedence ≤ op.precedence)
    (hg : ∀ y ∈ g.rest, y.1.precedence < op.precedence) :
    (f.join op g).tree = op.apply f.tree g.tree := by
  have h : splitLoosest (f.join op g).rest = some (f.rest, op, g) := splitLoosest_append g hf hg
  rw [tree]
  split
  · next hnone => cases hnone.symm.trans h
  · next hsome =>
    cases hsome.symm.trans h
    rfl

/-! ## Chains of rows -/

/-- A row, and others after it with the operators before them. -/
def linked (f : Flat) (links : List (Infix × Flat)) : Flat :=
  links.foldl (fun f l => f.join l.1 l.2) f

theorem linked_join (f : Flat) (op : Infix) (g : Flat) (links : List (Infix × Flat)) :
    (f.join op g).linked links = f.join op (g.linked links) := by
  induction links generalizing g with
  | nil => rfl
  | cons l links ih =>
    have hjoin : (f.join op g).join l.1 l.2 = f.join op (g.join l.1 l.2) := by simp [join]
    simp only [linked, List.foldl_cons] at ih ⊢
    rw [hjoin, ih]

theorem tokens_linked (f : Flat) (links : List (Infix × Flat)) : (f.linked links).tokens =
    f.tokens ++ links.flatMap fun l => .symbol l.1.symbol :: l.2.tokens := by
  induction links generalizing f with
  | nil => simp [linked]
  | cons l links ih =>
    rw [linked, List.foldl_cons, ← linked, ih, tokens_join]
    simp

theorem operands_linked (f : Flat) (links : List (Infix × Flat)) :
    (f.linked links).operands = f.operands ++ links.flatMap fun l => l.2.operands := by
  induction links generalizing f with
  | nil => simp [linked]
  | cons l links ih =>
    rw [linked, List.foldl_cons, ← linked, ih, operands_join]
    simp

/-- An operator of precedence `level + 1`, and a row whose operators are tighter. -/
structure IsLink (level : Nat) (l : Infix × Flat) : Prop where
  precedence : l.1.precedence = level + 1
  tighter : ∀ y ∈ l.2.rest, y.1.precedence ≤ level

theorem linked_tighter {links : List (Infix × Flat)}
    (hf : ∀ y ∈ f.rest, y.1.precedence ≤ level) (hlinks : ∀ l ∈ links, IsLink level l) :
    ∀ y ∈ (f.linked links).rest, y.1.precedence ≤ level + 1 := by
  induction links generalizing f with
  | nil => exact fun y hy => Nat.le_succ_of_le (hf y hy)
  | cons l links ih =>
    have hl := hlinks l List.mem_cons_self
    have hrest := ih hl.tighter fun m hm => hlinks m (List.mem_cons_of_mem l hm)
    rw [linked, List.foldl_cons, ← linked, linked_join]
    intro y hy
    simp only [join, List.mem_append, List.mem_cons] at hy
    obtain hy | rfl | hy := hy
    · exact Nat.le_succ_of_le (hf y hy)
    · exact Nat.le_of_eq hl.precedence
    · exact hrest y hy

/-- A row is a chain of rows of tighter operators. -/
theorem exists_links (h : ∀ y ∈ f.rest, y.1.precedence ≤ level + 1) :
    ∃ (g : Flat) (links : List (Infix × Flat)), f = g.linked links ∧
      (∀ y ∈ g.rest, y.1.precedence ≤ level) ∧ ∀ l ∈ links, IsLink level l := by
  obtain ⟨x, rest⟩ := f
  induction rest generalizing x with
  | nil => exact ⟨⟨x, []⟩, [], rfl, nofun, nofun⟩
  | cons y rest ih =>
    obtain ⟨op, y⟩ := y
    obtain ⟨g, links, hg, htight, hlinks⟩ :=
      ih y fun z hz => h z (List.mem_cons_of_mem (op, y) hz)
    have heq : (⟨x, (op, y) :: rest⟩ : Flat) = (join ⟨x, []⟩ op g).linked links := by
      rw [linked_join, ← hg]
      rfl
    have hop : op.precedence ≤ level + 1 := h (op, y) List.mem_cons_self
    obtain hop | hop := Nat.lt_or_eq_of_le hop
    · refine ⟨join ⟨x, []⟩ op g, links, heq, fun z hz => ?_, hlinks⟩
      obtain rfl | hz := List.mem_cons.1 hz
      · exact Nat.le_of_lt_succ hop
      · exact htight z hz
    · refine ⟨⟨x, []⟩, (op, g) :: links, heq, nofun, fun l hl => ?_⟩
      obtain rfl | hl := List.mem_cons.1 hl
      · exact ⟨hop, htight⟩
      · exact hlinks l hl

/-- The tree of a chain, grouped to the left. -/
theorem tree_linked {links : List (Infix × Flat)} (hf : ∀ y ∈ f.rest, y.1.precedence ≤ level)
    (hlinks : ∀ l ∈ links, IsLink level l) : (f.linked links).tree =
      links.foldl (fun left l => l.1.apply left l.2.tree) f.tree := by
  -- the last link is the rightmost of the loosest operators
  induction links using List.reverseRecOn with
  | nil => rfl
  | append_singleton links l ih =>
    have hl := hlinks l (List.mem_append_right links List.mem_cons_self)
    have hrest := fun m hm => hlinks m (List.mem_append_left [l] hm)
    have hleft := linked_tighter hf hrest
    rw [linked, List.foldl_append, List.foldl_append, ← ih hrest]
    refine tree_join ?_ ?_
    · rw [hl.precedence]
      exact hleft
    · rw [hl.precedence]
      exact fun y hy => Nat.lt_succ_of_le (hl.tighter y hy)

end Flat

/-! ## Reading rows -/

namespace Takes

variable {limit n : Nat} {ls : List Lexeme}

theorem suffixes_nil {inner : Nested} {e : Expr} {steps : Nat} :
    Takes limit (suffixes limit inner steps e) [] e (Token.Stops 0) := by
  cases steps with
  | zero => exact .pure
  | succ steps =>
    unfold suffixes
    refine token_nil fun t ht => ?_
    split
    case h_4 => exact .pure
    all_goals exact absurd ht.1 (by decide)

theorem chain_nil {level steps : Nat} {operand : Parse Expr} {e : Expr} :
    Takes limit (chain level operand steps e) [] e (Token.Stops level) := by
  cases steps with
  | zero => exact .pure
  | succ steps =>
    unfold chain
    refine token_nil fun t ht => ?_
    rw [ht.2 level (Nat.le_refl level)]
    exact .pure

theorem primary_atom {inner : Nested} (x : Atom) {l : Lexeme} (hl : l.token = x.token) :
    Takes limit (primary limit inner) [l] x.expr fun _ => True := by
  unfold primary
  refine token_cons ?_
  rw [hl]
  cases x <;> exact advance .pure

/-- An operand is taken where its operators may nest. -/
theorem unary_operand {x : Operand} (hn : x.ops.length ≤ n)
    (hls : ls.map Lexeme.token = x.tokens) :
    Takes limit (unary limit (nested limit n)) ls x.expr (Token.Stops 0) := by
  obtain ⟨ops, x⟩ := x
  induction ops generalizing n ls with
  | nil =>
    obtain ⟨l, rest, rfl, hl, hrest⟩ := List.map_eq_cons_iff.1 hls
    obtain rfl := List.map_eq_nil_iff.1 hrest
    have hop : UnaryOp.ofToken? l.token = none := by
      rw [hl]
      cases x <;> rfl
    unfold unary
    refine token_cons ?_
    rw [hop]
    exact (primary_atom x hl).bind_nil suffixes_nil fun _ _ => trivial
  | cons op ops ih =>
    obtain ⟨l, rest, rfl, hl, hrest⟩ := List.map_eq_cons_iff.1 hls
    obtain ⟨n, rfl⟩ := Nat.exists_eq_add_one.2 (Nat.lt_of_lt_of_le (Nat.succ_pos _) hn)
    have hinner := ih (Nat.le_of_succ_le_succ hn) hrest
    unfold unary
    refine token_cons ?_
    rw [hl, UnaryOp.ofToken?_token]
    exact advance (hinner.bind_nil .pure fun _ ht => ht)

end Takes

namespace Flat

variable {f : Flat} {limit n level : Nat} {ls : List Lexeme}

/-- The reader of a level takes rows with their trees. -/
def Taken (limit n level : Nat) (f : Flat) : Prop :=
  ∀ ls : List Lexeme, ls.map Lexeme.token = f.tokens →
    Takes limit (operators limit (nested limit n) level) ls f.tree (Token.Stops level)

/-- The links of a chain are read one by one, and grouped to the left. -/
theorem takes_chain {steps : Nat} {left : Expr} {links : List (Infix × Flat)}
    (hlinks : ∀ l ∈ links, IsLink level l ∧ l.2.Taken limit n level)
    (hls : ls.map Lexeme.token = links.flatMap fun l => .symbol l.1.symbol :: l.2.tokens)
    (hs : links.length ≤ steps) :
    Takes limit (chain (level + 1) (operators limit (nested limit n) level) steps left) ls
      (links.foldl (fun left l => l.1.apply left l.2.tree) left) (Token.Stops (level + 1)) := by
  induction links generalizing steps left ls with
  | nil =>
    obtain rfl := List.map_eq_nil_iff.1 hls
    exact Takes.chain_nil
  | cons l links ih =>
    obtain ⟨steps, rfl⟩ := Nat.exists_eq_add_one.2 (Nat.lt_of_lt_of_le (Nat.succ_pos _) hs)
    obtain ⟨hl, htaken⟩ := hlinks l List.mem_cons_self
    have hrest := fun m hm => hlinks m (List.mem_cons_of_mem l hm)
    rw [List.flatMap_cons, List.cons_append] at hls
    obtain ⟨sign, ls, rfl, hsign, hls⟩ := List.map_eq_cons_iff.1 hls
    obtain ⟨us, vs, rfl, hus, hvs⟩ := List.map_eq_append_iff.1 hls
    unfold chain
    refine .token_cons ?_
    rw [hsign, Infix.ofToken?_symbol, if_pos hl.precedence]
    refine .advance ((htaken us hus).bind (ih hrest hvs (Nat.le_of_succ_le_succ hs)) fun t ht => ?_)
    rw [hvs]
    cases links with
    | nil => exact ht.mono (Nat.le_succ level)
    | cons m links =>
      exact Token.stops_infix m.1 (by rw [(hrest m List.mem_cons_self).1.precedence]; omega)

theorem takes_linked {links : List (Infix × Flat)} (hf : ∀ y ∈ f.rest, y.1.precedence ≤ level)
    (hlinks : ∀ l ∈ links, IsLink level l) (hfirst : f.Taken limit n level)
    (htaken : ∀ l ∈ links, l.2.Taken limit n level) :
    (f.linked links).Taken limit n (level + 1) := by
  intro ls hls
  rw [tokens_linked] at hls
  rw [tree_linked hf hlinks]
  obtain ⟨us, vs, rfl, hus, hvs⟩ := List.map_eq_append_iff.1 hls
  refine .of_length fun hlength => ?_
  have hsteps : links.length ≤ limit := by
    have hle : links.length ≤ vs.length := by
      have hmap := Reads.length_le_links (links.map fun l => (l.1, l.2.tokens, l.2.tree))
      rw [List.length_map, List.flatMap_map] at hmap
      rw [← List.length_map Lexeme.token, hvs]
      exact hmap
    rw [List.length_append] at hlength
    omega
  unfold operators
  refine (hfirst us hus).bind
    (takes_chain (fun l hl => ⟨hlinks l hl, htaken l hl⟩) hvs hsteps) fun t ht => ?_
  rw [hvs]
  cases links with
  | nil => exact ht.mono (Nat.le_succ level)
  | cons m links =>
    exact Token.stops_infix m.1 (by rw [(hlinks m List.mem_cons_self).precedence]; omega)

/-- A row is taken whole by the reader of a level that is as loose as its operators. -/
theorem takes_operators (hlevel : ∀ y ∈ f.rest, y.1.precedence ≤ level)
    (hn : ∀ x ∈ f.operands, x.ops.length ≤ n) : f.Taken limit n level := by
  induction level generalizing f with
  | zero =>
    obtain ⟨x, rest⟩ := f
    cases rest with
    | nil =>
      intro ls hls
      rw [tree_operand]
      refine Takes.unary_operand (hn x List.mem_cons_self) ?_
      simpa [tokens] using hls
    | cons y rest =>
      have hle := hlevel y List.mem_cons_self
      have hpos := y.1.precedence_pos
      omega
  | succ level ih =>
    obtain ⟨g, links, rfl, hg, hlinks⟩ := exists_links hlevel
    rw [operands_linked] at hn
    have hfirst := ih hg fun x hx => hn x (List.mem_append_left _ hx)
    refine takes_linked hg hlinks hfirst fun l hl => ?_
    refine ih (hlinks l hl).tighter fun x hx => hn x (List.mem_append_right _ ?_)
    exact List.mem_flatMap.2 ⟨l, hl, hx⟩

/-- A row is taken whole as the value of an expression. -/
theorem takes_assignment (hls : ls.map Lexeme.token = f.tokens)
    (hn : ∀ x ∈ f.operands, x.ops.length ≤ n) :
    Takes limit (assignment limit (nested limit n)) ls f.tree Token.Closes := by
  have hrow : Takes limit (operators limit (nested limit n) Infix.loosest) ls f.tree _ :=
    takes_operators (fun y _ => y.1.precedence_le_loosest) hn ls hls
  refine Takes.assignment_conditional ?_
  exact (Takes.conditional_test hrow).mono fun t ht => ⟨ht.stops, ht.choice⟩

end Flat

/-! ## Names -/

namespace Takes

variable {limit n : Nat} {l : Lexeme} {x : String}

theorem name_operators {level : Nat} (hl : l.token = .identifier x) :
    Takes limit (operators limit (nested limit n) level) [l] (.name x) (Token.Stops level) := by
  let f : Flat := ⟨⟨[], .name x⟩, []⟩
  have h : f.Taken limit n level := Flat.takes_operators nofun (by simp [f, Flat.operands])
  have hx := h [l] (by simpa [f, Flat.tokens, Operand.tokens, Atom.token] using hl)
  rwa [Flat.tree_operand] at hx

theorem name_assignment (hl : l.token = .identifier x) :
    Takes limit (nested limit (n + 1)).assignment [l] (.name x) Token.Closes := by
  refine assignment_conditional ((conditional_test (name_operators hl)).mono fun t ht => ?_)
  exact ⟨ht.stops, ht.choice⟩

end Takes

/-! ## Chains of assignments -/

/-- The target of an assignment and the operator after it, with their tokens. -/
structure Assigning where
  target : Expr
  lexemes : List Lexeme
  op : AssignOp
  sign : Lexeme

namespace Assigning

variable {limit n : Nat} {us : List Lexeme} {e : Expr}

/-- The tokens of a chain of assignments, up to its value. -/
def lexemesOf (chain : List Assigning) : List Lexeme :=
  chain.flatMap fun x => x.lexemes ++ [x.sign]

/-- A value under a chain of assignments, grouped to the right. -/
def around (chain : List Assigning) (e : Expr) : Expr :=
  chain.foldr (fun x e => .assign x.op x.target e) e

/-- The readers whose operators may nest `n` levels deep take the target. -/
structure IsTaken (limit n : Nat) (x : Assigning) : Prop where
  isTarget : x.target.isTarget
  target : Takes limit (operators limit (nested limit n) Infix.loosest) x.lexemes x.target
    (Token.Stops Infix.loosest)
  sign : x.sign.token = .symbol x.op.symbol

/-- Each target of a chain is taken, where the value of the chain may nest `n` levels deep. -/
def AreTaken (limit n : Nat) : List Assigning → Prop
  | [] => True
  | x :: chain => x.IsTaken limit (n + chain.length) ∧ AreTaken limit n chain

theorem takes_around {chain : List Assigning} (hchain : AreTaken limit n chain)
    (he : Takes limit (nested limit n).assignment us e Token.Closes) :
    Takes limit (nested limit (n + chain.length)).assignment (lexemesOf chain ++ us)
      (around chain e) Token.Closes := by
  induction chain with
  | nil => exact he
  | cons x chain ih =>
    obtain ⟨hx, hchain⟩ := hchain
    have hlexemes : lexemesOf (x :: chain) ++ us =
        x.lexemes ++ x.sign :: (lexemesOf chain ++ us) := by simp [lexemesOf]
    rw [hlexemes]
    exact Takes.assignment_op hx.isTarget hx.target hx.sign (ih hchain)

end Assigning

/-- A row under a chain of assignments is read whole, with its tree as the value; where a choice
    goes on with it, it is the test. -/
theorem Flat.takes_grouped {f : Flat} {chain : List Assigning} {limit n : Nat} {ls : List Lexeme}
    (hls : ls.map Lexeme.token = f.tokens) (hn : ∀ x ∈ f.operands, x.ops.length ≤ n)
    (hchain : Assigning.AreTaken limit (n + 1) chain) :
    Takes limit (nested limit (n + 1 + chain.length)).assignment
      (Assigning.lexemesOf chain ++ ls) (Assigning.around chain f.tree) Token.Closes ∧
    ∀ (question colon : Lexeme) (us vs : List Lexeme) (a b : Expr),
      question.token = .symbol .question → colon.token = .symbol .colon →
      Takes limit (nested limit n).assignment us a Token.Closes →
      Takes limit (nested limit n).assignment vs b Token.Closes →
      Takes limit (nested limit (n + 1 + chain.length)).assignment
        (Assigning.lexemesOf chain ++ (ls ++ question :: (us ++ colon :: vs)))
        (Assigning.around chain (.conditional f.tree a b)) Token.Closes := by
  refine ⟨Assigning.takes_around hchain (takes_assignment hls hn), ?_⟩
  intro question colon us vs a b hquestion hcolon ha hb
  have hrow : Takes limit (operators limit (nested limit n) Infix.loosest) ls f.tree _ :=
    takes_operators (fun y _ => y.1.precedence_le_loosest) hn ls hls
  refine Assigning.takes_around hchain (Takes.assignment_conditional ?_)
  exact Takes.conditional_choice hrow hquestion ha hcolon hb

/-- Operators of all six groups. -/
theorem Flat.takes_grouped_choice : ∃ l, (nested 23 maxDepth).assignment.run
    (.ofLexemes (Lexeme.ofText "x = a || b && c == d < e + f * -g - h ? i : j")) =
      .ok (.assign .assign (.name "x") (.conditional
        (.logical .or (.name "a") (.logical .and (.name "b") (.binary .equal (.name "c")
          (.binary .less (.name "d") (.binary .subtract (.binary .add (.name "e")
            (.binary .multiply (.name "f") (.unary .minus (.name "g")))) (.name "h"))))))
        (.name "i") (.name "j")), ⟨l, []⟩) := by
  let l (t : Token) (i j : Nat) : Lexeme := ⟨t, ⟨i, 1⟩, ⟨j, 1⟩, false⟩
  let target : Assigning := ⟨.name "x", [l (.identifier "x") 0 1], .assign, l (.symbol .equal) 2 3⟩
  let row : Flat := ⟨⟨[], .name "a"⟩,
    [(.logical .or, ⟨[], .name "b"⟩), (.logical .and, ⟨[], .name "c"⟩),
      (.binary .equal, ⟨[], .name "d"⟩), (.binary .less, ⟨[], .name "e"⟩),
      (.binary .add, ⟨[], .name "f"⟩), (.binary .multiply, ⟨[.minus], .name "g"⟩),
      (.binary .subtract, ⟨[], .name "h"⟩)]⟩
  let ls : List Lexeme := [l (.identifier "a") 4 5, l (.symbol .pipePipe) 6 8,
    l (.identifier "b") 9 10, l (.symbol .ampersandAmpersand) 11 13, l (.identifier "c") 14 15,
    l (.symbol .equalEqual) 16 18, l (.identifier "d") 19 20, l (.symbol .lessThan) 21 22,
    l (.identifier "e") 23 24, l (.symbol .plus) 25 26, l (.identifier "f") 27 28,
    l (.symbol .star) 29 30, l (.symbol .minus) 31 32, l (.identifier "g") 32 33,
    l (.symbol .minus) 34 35, l (.identifier "h") 36 37]
  have hlexemes : Lexeme.ofText "x = a || b && c == d < e + f * -g - h ? i : j" =
      Assigning.lexemesOf [target] ++ (ls ++ l (.symbol .question) 38 39 ::
        ([l (.identifier "i") 40 41] ++ l (.symbol .colon) 42 43 ::
          [l (.identifier "j") 44 45])) ++ [l .eof 45 45] := by
    decide +kernel
  have htree : row.tree = .logical .or (.name "a") (.logical .and (.name "b")
      (.binary .equal (.name "c") (.binary .less (.name "d") (.binary .subtract
        (.binary .add (.name "e") (.binary .multiply (.name "f") (.unary .minus (.name "g"))))
        (.name "h"))))) := by
    simp [row, Flat.tree, splitLoosest, Infix.tightness, Infix.groups, List.findIdx_cons,
      Infix.apply, Operand.expr, Atom.expr]
  have hchain : Assigning.AreTaken 23 (126 + 1) [target] :=
    ⟨⟨rfl, Takes.name_operators rfl, rfl⟩, trivial⟩
  have hls : ls.map Lexeme.token = row.tokens := rfl
  have hgrouped := Flat.takes_grouped hls (by decide) hchain
  have hi : Takes 23 (nested 23 126).assignment [l (.identifier "i") 40 41] (.name "i")
    Token.Closes := Takes.name_assignment rfl
  have hj : Takes 23 (nested 23 126).assignment [l (.identifier "j") 44 45] (.name "j")
    Token.Closes := Takes.name_assignment rfl
  have hchoice := hgrouped.2 (l (.symbol .question) 38 39) (l (.symbol .colon) 42 43) _ _ _ _
    rfl rfl hi hj
  have hrun := hchoice (l .eof 45 45) [] (Token.closes_of_ends rfl) (by decide)
  rw [htree] at hrun
  rw [hlexemes]
  exact ⟨l .eof 45 45, hrun⟩

end Requisite.Source
