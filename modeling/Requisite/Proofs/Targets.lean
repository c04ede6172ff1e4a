/-
  What programs assign to.

  In a tree that is read from a text every assignment, however deep inside, has a
  name or a member on its left side.

  * `Tree`: expressions and statements alike, with their parts;
  * `Tree.Within`: a tree inside another, the bodies of functions included;
  * `Tree.Targeted`: all assignments inside a tree have targets;
  * `Program.targeted`: trees that are read do;
  * `Tree.Sourced`: what is part of a program that was read.
-/
import Requisite.Proofs.Yields

namespace Requisite.Source

open Requisite

/-! ## Parts of trees -/

/-- An expression or a statement. -/
inductive Tree where
  | expr (e : Expr)
  | stmt (s : Stmt)

namespace Tree

/-- The expressions and statements that a tree is made of, those of a function's body included. -/
def parts : Tree → List Tree
  | expr (.number _) | expr (.string _) | expr (.boolean _) | expr .null | expr (.name _) => []
  | expr (.array items) => items.map expr
  | expr (.object entries) => entries.map fun entry => expr entry.2
  | expr (.function _ _ body) => body.map stmt
  | expr (.unary _ e) => [expr e]
  | expr (.binary _ a b) | expr (.logical _ a b) => [expr a, expr b]
  | expr (.assign _ target e) => [expr target, expr e]
  | expr (.conditional test a b) => [expr test, expr a, expr b]
  | expr (.call callee args) => expr callee :: args.map expr
  | expr (.dot object _) => [expr object]
  | expr (.index object key) => [expr object, expr key]
  | stmt (.declare _ bindings) => bindings.filterMap fun b => b.2.map expr
  | stmt (.function _ _ body) => body.map stmt
  | stmt (.expression e) => [expr e]
  | stmt (.block body) => body.map stmt
  | stmt (.conditional test a b) => expr test :: stmt a :: (b.map stmt).toList
  | stmt (.while test body) => [expr test, stmt body]
  | stmt (.return e) => (e.map expr).toList
  | stmt (.throw e _) => [expr e]
  | stmt .empty => []

/-- A tree is inside another, or is the other. -/
inductive Within (t : Tree) : Tree → Prop
  | self : Within t t
  | part {u v : Tree} (hu : u ∈ v.parts) (ht : Within t u) : Within t v

theorem Within.of_part {t u v : Tree} (h : Within u v) (ht : t ∈ u.parts) : Within t v := by
  induction h with
  | self => exact .part ht .self
  | part hw _ ih => exact .part hw ih

/-- All assignments inside a tree have targets. -/
def Targeted (t : Tree) : Prop :=
  ∀ op target e, Within (expr (.assign op target e)) t → target.isTarget

/-- A tree that is no assignment itself, all parts of which have targets only. -/
theorem targeted_of_parts {t : Tree} (h : ∀ op target e, t ≠ expr (.assign op target e))
    (hparts : ∀ u ∈ t.parts, u.Targeted) : t.Targeted := by
  intro op target e hwithin
  cases hwithin with
  | self => exact absurd rfl (h op target e)
  | part hu ht => exact hparts _ hu op target e ht

theorem targeted_assign {op : AssignOp} {target e : Expr} (h : target.isTarget)
    (htarget : (expr target).Targeted) (he : (expr e).Targeted) :
    (expr (.assign op target e)).Targeted := by
  intro op' target' e' hwithin
  cases hwithin with
  | self => exact h
  | part hu ht =>
    simp only [parts, List.mem_cons, List.not_mem_nil, or_false] at hu
    rcases hu with rfl | rfl
    · exact htarget op' target' e' ht
    · exact he op' target' e' ht

end Tree

/-! ## Phrases have targets -/

/-- All assignments in the trees of the phrases have targets. -/
structure Phrases.Targets (g : Phrases) : Prop where
  statement : ∀ ts s, g.statement ts s → (Tree.stmt s).Targeted
  assignment : ∀ ts e, g.assignment ts e → (Tree.expr e).Targeted
  unary : ∀ ts e, g.unary ts e → (Tree.expr e).Targeted

namespace Phrases.Targets

open Requisite.Source.Tree

variable {g : Phrases} {ts : List Token} {e : Expr}

theorem functionRest (h : g.Targets) {params : List String} {body : List Stmt}
    (hts : g.FunctionRest ts (params, body)) : ∀ u ∈ body.map stmt, u.Targeted := by
  obtain ⟨-, hbody⟩ := hts
  exact List.forall_mem_map.2 (hbody.forall h.statement)

theorem property (h : g.Targets) {entry : String × Expr} (hts : g.Property ts entry) :
    (expr entry.2).Targeted := by
  cases hts with
  | short x => exact targeted_of_parts nofun nofun
  | keyed _ hvalue => exact h.assignment _ _ hvalue

theorem primary (h : g.Targets) (hts : g.Primary ts e) : (expr e).Targeted := by
  cases hts with
  | number | string | boolean | null | name => exact targeted_of_parts nofun nofun
  | function name hrest => exact targeted_of_parts nofun (h.functionRest hrest)
  | group he => exact h.assignment _ _ he
  | array hitems =>
    exact targeted_of_parts nofun (List.forall_mem_map.2 (hitems.forall h.assignment))
  | object hentries =>
    exact targeted_of_parts nofun
      (List.forall_mem_map.2 (hentries.forall fun _ _ => h.property))

theorem suffixed (h : g.Targets) (hts : g.Suffixed ts e) : (expr e).Targeted := by
  induction hts with
  | primary he => exact h.primary he
  | call _ hargs ih =>
    exact targeted_of_parts nofun
      (List.forall_mem_cons.2 ⟨ih, List.forall_mem_map.2 (hargs.forall h.assignment)⟩)
  | dot key _ ih => exact targeted_of_parts nofun (by simpa [parts] using ih)
  | index _ hkey ih =>
    exact targeted_of_parts nofun (by simpa [parts] using ⟨ih, h.assignment _ _ hkey⟩)

theorem next_unary (h : g.Targets) (hts : g.Unary ts e) : (expr e).Targeted := by
  cases hts with
  | operator _ he => exact targeted_of_parts nofun (by simpa [parts] using h.unary _ _ he)
  | suffixed he => exact h.suffixed he

theorem apply {op : Infix} {left right : Expr} (hleft : (expr left).Targeted)
    (hright : (expr right).Targeted) : (expr (op.apply left right)).Targeted := by
  cases op <;> exact targeted_of_parts nofun (by simpa [Infix.apply, parts] using ⟨hleft, hright⟩)

theorem operators (h : g.Targets) {level : Nat} (hts : g.Operators level ts e) :
    (expr e).Targeted := by
  induction hts with
  | unary he => exact h.next_unary he
  | tighter _ ih => exact ih
  | operator _ _ _ ihleft ihright => exact apply ihleft ihright

theorem conditional (h : g.Targets) (hts : g.Conditional ts e) : (expr e).Targeted := by
  cases hts with
  | test he => exact h.operators he
  | branches htest ha hb =>
    refine targeted_of_parts nofun ?_
    simpa [parts] using ⟨h.operators htest, h.assignment _ _ ha, h.assignment _ _ hb⟩

/-- Before an assignment operator a reader asks for a target. -/
theorem next_assignment (h : g.Targets) (hts : g.Assignment ts e) : (expr e).Targeted := by
  cases hts with
  | conditional he => exact h.conditional he
  | assign htarget hassignable _ hvalue =>
    exact targeted_assign hassignable (h.conditional htarget) (h.assignment _ _ hvalue)

theorem binding (h : g.Targets) {kind : BindingKind} {binding : String × Option Expr}
    (hts : g.Binding kind ts binding) : ∀ e ∈ binding.2, (expr e).Targeted := by
  cases hts with
  | bare x => exact nofun
  | valued x he => simpa using h.assignment _ _ he

theorem next_statement (h : g.Targets) {s : Stmt} (hts : g.Statement ts s) :
    (stmt s).Targeted := by
  cases hts with
  | declare _ hbindings =>
    refine targeted_of_parts nofun fun u hu => ?_
    obtain ⟨b, hb, hu⟩ := List.mem_filterMap.1 hu
    obtain ⟨e, he, rfl⟩ := Option.map_eq_some_iff.1 hu
    exact hbindings.forall (fun _ _ => h.binding) b hb e he
  | function name hrest => exact targeted_of_parts nofun (h.functionRest hrest)
  | conditional htest ha =>
    refine targeted_of_parts nofun ?_
    simpa [parts] using ⟨h.assignment _ _ htest, h.statement _ _ ha⟩
  | alternative htest ha hb =>
    refine targeted_of_parts nofun ?_
    simpa [parts] using ⟨h.assignment _ _ htest, h.statement _ _ ha, h.statement _ _ hb⟩
  | «while» htest hbody =>
    refine targeted_of_parts nofun ?_
    simpa [parts] using ⟨h.assignment _ _ htest, h.statement _ _ hbody⟩
  | returnNone | empty => exact targeted_of_parts nofun nofun
  | returnSome he | throw _ he | expression he =>
    exact targeted_of_parts nofun (by simpa [parts] using h.assignment _ _ he)
  | block hbody =>
    exact targeted_of_parts nofun (List.forall_mem_map.2 (hbody.forall h.statement))

/-- **One level further out.** -/
theorem next (h : g.Targets) : Phrases.Targets ⟨g.Statement, g.Assignment, g.Unary⟩ where
  statement _ _ hts := h.next_statement hts
  assignment _ _ hts := h.next_assignment hts
  unary _ _ hts := h.next_unary hts

end Phrases.Targets

theorem phrases_targets (n : Nat) : (phrases n).Targets := by
  induction n with
  | zero => exact ⟨fun _ _ h => h.elim, fun _ _ h => h.elim, fun _ _ h => h.elim⟩
  | succ n ih => exact ih.next

/-- In what is read, all assignments have targets. -/
theorem Program.targeted {text : String} {p : Program} (h : ofText? text = .ok p) :
    ∀ s ∈ p, (Tree.stmt s).Targeted :=
  (ofText?_sound h).1.forall (phrases_targets maxDepth).statement

/-! ## Sources -/

/-- A tree is part of a program. -/
def Program.Has (p : Program) (t : Tree) : Prop := ∃ s ∈ p, t.Within (.stmt s)

/-- A tree is part of a program that some text is. -/
def Tree.Sourced (t : Tree) : Prop := ∃ text p, Program.ofText? text = .ok p ∧ p.Has t

namespace Tree.Sourced

theorem of_mem {text : String} {p : Program} (h : Program.ofText? text = .ok p) {s : Stmt}
    (hs : s ∈ p) : (stmt s).Sourced := ⟨text, p, h, s, hs, .self⟩

/-- The parts of what was read were read. -/
theorem part {t u : Tree} (h : t.Sourced) (hu : u ∈ t.parts) : u.Sourced := by
  obtain ⟨text, p, hp, s, hs, hwithin⟩ := h
  exact ⟨text, p, hp, s, hs, hwithin.of_part hu⟩

/-- Of an assignment that was read the left side is a target. -/
theorem isTarget {op : AssignOp} {target e : Expr} (h : (expr (.assign op target e)).Sourced) :
    target.isTarget := by
  obtain ⟨text, p, hp, s, hs, hwithin⟩ := h
  exact Program.targeted hp s hs op target e hwithin

end Tree.Sourced

end Requisite.Source
