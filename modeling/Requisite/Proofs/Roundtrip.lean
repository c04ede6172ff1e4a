/-
  Reading what was printed.

  * `Faithful`: readers that read printed trees of at most so many levels;
  * `Faithful.next`: the productions read printed trees with one more level;
  * `Program.ofText?_print`: a program can be printed, and is read back.
-/
import Requisite.Proofs.Numeral
import Requisite.Proofs.Productions

namespace Requisite.Source

open Requisite Parse

/-! ## Beginnings -/

theorem Expr.begins_print (e : Expr) : ∃ t ts, e.print = t :: ts ∧ t.ends = false := by
  cases e with
  | unary op e => exact ⟨_, _, rfl, by cases op <;> rfl⟩
  | _ => exact ⟨_, _, rfl, rfl⟩

theorem Stmt.begins_print (s : Stmt) : ∃ t ts, s.print = t :: ts ∧
    t ≠ .symbol .rightBrace ∧ t ≠ .eof ∧ t ≠ .keyword .elseWord := by
  cases s with
  | declare kind bindings => exact ⟨_, _, rfl, by cases kind <;> exact ⟨nofun, nofun, nofun⟩⟩
  | conditional test a b => cases b <;> exact ⟨_, _, rfl, nofun, nofun, nofun⟩
  | «return» e => cases e <;> exact ⟨_, _, rfl, nofun, nofun, nofun⟩
  | _ => exact ⟨_, _, rfl, nofun, nofun, nofun⟩

/-! ## Readers of printed trees -/

/-- The readers read printed trees that take at most `n` levels of them. -/
structure Faithful (limit : Nat) (r : Nested) (n : Nat) : Prop where
  assignment : ∀ e : Expr, e.isValid → e.levels ≤ n →
    Reads limit r.assignment e.print (e.onLine 1) (·.ends)
  group : ∀ e : Expr, e.isValid → 1 + e.levels ≤ n →
    Reads limit r.assignment (grouped e.print) (e.onLine 1) (·.ends)
  unary : ∀ e : Expr, e.isValid → 1 + e.levels ≤ n →
    Reads limit r.unary (grouped e.print) (e.onLine 1) (Token.Stops 0)
  statement : ∀ s : Stmt, s.isValid → s.levels ≤ n →
    Reads limit r.statement s.print (s.onLine 1) fun t => s.endsOpen → t ≠ .keyword .elseWord

namespace Faithful

variable {limit n : Nat} {inner : Nested}

theorem sentences (h : Faithful limit inner n) (body : List Stmt) (hv : bodyValid body)
    (hn : bodyLevels body ≤ n) :
    List.Forall₂ (Reads.Sentence limit inner.statement) (printBody body) (bodyOnLine 1 body) := by
  induction body with
  | nil => exact .nil
  | cons s body ih =>
    simp only [bodyValid, Bool.and_eq_true] at hv
    simp only [bodyLevels, Nat.max_le] at hn
    refine .cons ⟨s.begins_print, ?_⟩ (ih hv.2 hn.2)
    exact (h.statement s hv.1 hn.1).mono fun _ ht _ => ht

theorem items (h : Faithful limit inner n) (items : List Expr) (hv : itemsValid items)
    (hn : itemsLevels items ≤ n) :
    List.Forall₂ (Reads.Item limit inner.assignment) (printItems items) (itemsOnLine 1 items) := by
  induction items with
  | nil => exact .nil
  | cons e items ih =>
    simp only [itemsValid, Bool.and_eq_true] at hv
    simp only [itemsLevels, Nat.max_le] at hn
    exact .cons ⟨e.begins_print, h.assignment e hv.1 hn.1⟩ (ih hv.2 hn.2)

theorem entries (h : Faithful limit inner n) (entries : List (String × Expr))
    (hv : entriesValid entries) (hn : entriesLevels entries ≤ n) :
    List.Forall₂ (Reads.Item limit (property inner)) (printEntries entries)
      (entriesOnLine 1 entries) := by
  induction entries with
  | nil => exact .nil
  | cons entry entries ih =>
    obtain ⟨key, e⟩ := entry
    simp only [entriesValid, Bool.and_eq_true] at hv
    simp only [entriesLevels, Nat.max_le] at hn
    refine .cons ⟨⟨_, _, rfl, rfl⟩, ?_⟩ (ih hv.2 hn.2)
    exact .property (h.assignment e hv.1 hn.1)

theorem bindings (h : Faithful limit inner n) (kind : BindingKind)
    (bindings : List (String × Option Expr)) (hv : bindingsValid kind bindings)
    (hn : bindingsLevels bindings ≤ n) :
    List.Forall₂ (Reads.Item limit (binding inner kind)) (printBindings bindings)
      (bindingsOnLine 1 bindings) := by
  induction bindings with
  | nil => exact .nil
  | cons entry bindings ih =>
    obtain ⟨x, _ | e⟩ := entry
    · simp only [bindingsValid, Bool.and_eq_true, bne_iff_ne] at hv
      exact .cons (Reads.binding_none hv.1) (ih hv.2 hn)
    · simp only [bindingsValid, Bool.and_eq_true] at hv
      simp only [bindingsLevels, Nat.max_le] at hn
      exact .cons (Reads.binding_some (h.group e hv.1 hn.1)) (ih hv.2 hn.2)

/-! ## One level further out -/

theorem next_assignment (h : Faithful limit inner n) (e : Expr) (hv : e.isValid)
    (hn : e.levels ≤ n + 1) :
    Reads limit (Source.assignment limit inner) e.print (e.onLine 1) (·.ends) := by
  -- what is in parentheses is read one level further in
  have group (e : Expr) (hv : e.isValid) (hn : e.levels ≤ n) :
      Reads limit (Source.unary limit inner) (grouped e.print) (e.onLine 1) (Token.Stops 0) :=
    .group_unary (h.assignment e hv hn)
  cases e with
  | number | string | boolean | null | name =>
    refine .assignment_primary rfl ?_
    unfold primary
    exact .token_cons (.advance .pure)
  | array items =>
    rw [Expr.levels] at hn
    exact .assignment_primary rfl (.array (h.items items hv (by omega)))
  | object entries =>
    rw [Expr.levels] at hn
    exact .assignment_primary rfl (.object (h.entries entries hv (by omega)))
  | function name params body =>
    rw [Expr.levels] at hn
    exact .assignment_primary rfl (.function name params (h.sentences body hv (by omega)))
  | unary op e =>
    rw [Expr.levels] at hn
    exact .assignment_unary (.unary_op op (h.unary e hv (by omega)))
  | binary op a b =>
    rw [Expr.levels] at hn
    rw [Expr.isValid, Bool.and_eq_true] at hv
    exact .assignment_operators (.infixed (.binary op) (group a hv.1 (by omega))
      (group b hv.2 (by omega)) (Infix.precedence_le_loosest _))
  | logical op a b =>
    rw [Expr.levels] at hn
    rw [Expr.isValid, Bool.and_eq_true] at hv
    exact .assignment_operators (.infixed (.logical op) (group a hv.1 (by omega))
      (group b hv.2 (by omega)) (Infix.precedence_le_loosest _))
  | assign op target e =>
    rw [Expr.levels] at hn
    simp only [Expr.isValid, Bool.and_eq_true] at hv
    obtain ⟨⟨htarget, hvt⟩, hve⟩ := hv
    exact .assignment_op op ((Expr.isTarget_onLine 1 target).trans htarget)
      (group target hvt (by omega)) (h.group e hve (by omega))
  | conditional test a b =>
    rw [Expr.levels] at hn
    simp only [Expr.isValid, Bool.and_eq_true] at hv
    obtain ⟨⟨hvt, hva⟩, hvb⟩ := hv
    exact .assignment_choice (group test hvt (by omega)) (h.group a hva (by omega))
      (h.group b hvb (by omega))
  | call callee args =>
    rw [Expr.levels] at hn
    rw [Expr.isValid, Bool.and_eq_true] at hv
    exact .assignment_unary (.unary_primary rfl (.group_primary (h.assignment callee hv.1 (by omega)))
      fun hl => .suffixes_call hl (h.items args hv.2 (by omega)))
  | dot object key =>
    rw [Expr.levels] at hn
    exact .assignment_unary (.unary_primary rfl (.group_primary (h.assignment object hv (by omega)))
      fun hl => .suffixes_dot hl)
  | index object key =>
    rw [Expr.levels] at hn
    rw [Expr.isValid, Bool.and_eq_true] at hv
    exact .assignment_unary (.unary_primary rfl (.group_primary (h.assignment object hv.1 (by omega)))
      fun hl => .suffixes_index hl (h.assignment key hv.2 (by omega)))

theorem next_statement (h : Faithful limit inner n) (s : Stmt) (hv : s.isValid)
    (hn : s.levels ≤ n + 1) :
    Reads limit (Source.statement limit inner) s.print (s.onLine 1)
      fun t => s.endsOpen → t ≠ .keyword .elseWord := by
  cases s with
  | declare kind bindings =>
    rw [Stmt.levels] at hn
    simp only [Stmt.isValid, Bool.and_eq_true, Bool.not_eq_true', List.isEmpty_eq_false_iff] at hv
    have hne : bindingsOnLine 1 bindings ≠ [] := by
      obtain ⟨⟨x, _ | e⟩, rest, rfl⟩ := List.exists_cons_of_ne_nil hv.1 <;> exact List.cons_ne_nil _ _
    exact (Reads.declare hne (h.bindings kind bindings hv.2 (by omega))).mono fun _ _ => trivial
  | function name params body =>
    rw [Stmt.levels] at hn
    exact (Reads.function_statement name params (h.sentences body hv (by omega))).mono
      fun _ _ => trivial
  | expression e =>
    rw [Stmt.levels] at hn
    exact (Reads.expression (h.group e hv (by omega))).mono fun _ _ => trivial
  | block body =>
    rw [Stmt.levels] at hn
    exact (Reads.block (h.sentences body hv (by omega))).mono fun _ _ => trivial
  | conditional test a alternate =>
    cases alternate with
    | none =>
      rw [Stmt.levels] at hn
      rw [Stmt.isValid, Bool.and_eq_true] at hv
      refine (Reads.conditional_none (h.assignment test hv.1 (by omega))
        ((h.statement a hv.2 (by omega)).mono fun _ ht _ => ht)).mono fun _ ht => ht rfl
    | some b =>
      rw [Stmt.levels] at hn
      simp only [Stmt.isValid, Bool.and_eq_true, Bool.not_eq_true'] at hv
      obtain ⟨⟨⟨hvt, hva⟩, hclosed⟩, hvb⟩ := hv
      exact .conditional_some (h.assignment test hvt (by omega))
        ((h.statement a hva (by omega)).mono fun _ _ ho =>
          absurd (hclosed.symm.trans ho) Bool.false_ne_true)
        (h.statement b hvb (by omega))
  | «while» test body =>
    rw [Stmt.levels] at hn
    rw [Stmt.isValid, Bool.and_eq_true] at hv
    exact .loop (h.assignment test hv.1 (by omega)) (h.statement body hv.2 (by omega))
  | «return» value =>
    cases value with
    | none => exact Reads.return_none.mono fun _ _ => trivial
    | some e =>
      rw [Stmt.levels] at hn
      obtain ⟨t, ts, hts, ht⟩ := e.begins_print
      have he := h.assignment e hv (by omega)
      rw [Stmt.print, hts]
      rw [hts] at he
      exact (Reads.return_some ht he).mono fun _ _ => trivial
  | throw e line =>
    rw [Stmt.levels] at hn
    exact (Reads.throw (h.assignment e hv (by omega))).mono fun _ _ => trivial
  | empty => exact Reads.empty.mono fun _ _ => trivial

/-- **One level further out**: the productions read printed trees with one more level. -/
theorem next (h : Faithful limit inner n) :
    Faithful limit ⟨Source.statement limit inner, Source.assignment limit inner,
      Source.unary limit inner⟩ (n + 1) where
  assignment := h.next_assignment
  group e hv hn := .group (h.assignment e hv (by omega))
  unary e hv hn := .group_unary (h.assignment e hv (by omega))
  statement := h.next_statement

end Faithful

/-- `n` levels of readers read what takes at most `n` levels. -/
theorem nested_faithful (limit n : Nat) : Faithful limit (nested limit n) n := by
  induction n with
  | zero =>
    exact {
      assignment := fun e _ hn => absurd e.levels_pos (by omega)
      group := fun e _ hn => absurd hn (by omega)
      unary := fun e _ hn => absurd hn (by omega)
      statement := fun s _ hn => absurd s.levels_pos (by omega) }
  | succ n ih => exact ih.next

/-! ## Programs -/

namespace Program

variable {p : Program}

/-- Spellings of statements that are read, with single spaces between the tokens, are a text that
    is read as these statements. -/
theorem ofText?_spelled {tss : List (List Token)} {css : List (List Char)}
    (h : ∀ limit, List.Forall₂ (Reads.Sentence limit (nested limit maxDepth).statement) tss p)
    (hcss : List.Forall₂ Token.Spelled tss.flatten css) :
    ofText? (String.ofList ([' '].intercalate css)) = .ok p := by
  obtain ⟨htokens, hline⟩ := Lexeme.ofChars_joined hcss (.inl rfl) .start
  refine ofLexemes?_sentences (h _) ?_ ?_
  · rwa [Lexeme.ofText, String.toList_ofList]
  · rwa [Lexeme.ofText, String.toList_ofList]

/-- Whether the names and numbers of a program can be written. -/
def isWritable (p : Program) : Bool := p.print.all Token.isWritable

/-- The text is the program in print: its tokens in spellings, with single spaces between
    them. -/
def IsPrint (p : Program) (s : String) : Prop :=
  ∃ css, List.Forall₂ Token.Spelled p.print css ∧ s = String.ofList ([' '].intercalate css)

theorem exists_isPrint (hw : p.isWritable) : ∃ s, p.IsPrint s := by
  obtain ⟨css, hcss⟩ := Token.exists_spellings (List.all_eq_true.1 hw)
  exact ⟨_, css, hcss, rfl⟩

theorem ofText?_of_isPrint (hv : p.isValid) (hn : p.levels ≤ maxDepth) {s : String}
    (hs : p.IsPrint s) : ofText? s = .ok (p.onLine 1) := by
  obtain ⟨css, hcss, rfl⟩ := hs
  exact ofText?_spelled (fun limit => (nested_faithful limit maxDepth).sentences p hv hn) hcss

/-- **Printed programs are read back.**  A program that keeps the rules of the grammar, whose names
    and numbers can be written, can be printed.  Whatever is printed of it is read as the program,
    but for the lines of its `throw`s, if it takes no more levels than may nest. -/
theorem ofText?_print (hv : p.isValid) (hw : p.isWritable) (hn : p.levels ≤ maxDepth) :
    (∃ s, p.IsPrint s) ∧ ∀ s, p.IsPrint s → ofText? s = .ok (p.onLine 1) :=
  ⟨exists_isPrint hw, fun _ hs => ofText?_of_isPrint hv hn hs⟩

/-- A `throw` on line 7, before an `else`. -/
def throwing : Program :=
  [.conditional (.name "a") (.throw (.string "it's\n") 7) (some (.return (some (.number .one))))]

/-- Of the program only the line changes. -/
theorem ofText?_print_throwing :
    throwing.isValid ∧ throwing.isWritable ∧ throwing.levels ≤ maxDepth ∧
      throwing.IsPrint "if ( a ) throw 'it\\'s\\n' ; else return 1 ;" ∧
      ofText? "if ( a ) throw 'it\\'s\\n' ; else return 1 ;" = .ok [.conditional (.name "a")
        (.throw (.string "it's\n") 1) (some (.return (some (.number .one))))] := by
  have hprint : throwing.IsPrint "if ( a ) throw 'it\\'s\\n' ; else return 1 ;" := by
    refine ⟨["if", "(", "a", ")", "throw", "'it\\'s\\n'", ";", "else", "return", "1", ";"].map
      String.toList, ?_, by decide +kernel⟩
    exact .cons (.keyword .ifWord) <| .cons (.symbol .leftParen) <|
      .cons (.identifier (by decide) (by decide)) <| .cons (.symbol .rightParen) <|
      .cons (.keyword .throwWord) <| .cons (.string (.inr rfl)) <| .cons (.symbol .semicolon) <|
      .cons (.keyword .elseWord) <| .cons (.keyword .returnWord) <|
      .cons (.number (by decide +kernel)) <| .cons (.symbol .semicolon) .nil
  have hw : throwing.isWritable := by decide +kernel
  exact ⟨rfl, hw, by decide, hprint, (ofText?_print rfl hw (by decide)).2 _ hprint⟩

end Program

end Requisite.Source
