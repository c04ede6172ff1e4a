/-
  The grammar as relations between tokens and trees.

  A relation says which tokens a tree may be read from.  It forgets what the
  readers look at and do not take: the lines of the tokens and the token after
  a phrase, which decide where a statement without a semicolon ends and which
  `if` an `else` belongs to.

  * `Phrases`: relations for what nests, all of one depth;
  * `Phrases.Statement`, `Phrases.Assignment`, `Phrases.Unary`: the productions,
    given the relations one level further in;
  * `phrases`: the relations at each depth.
-/
import Requisite.Proofs.Print

namespace Requisite.Source

open Requisite

/-- The tokens of what nests, all of one depth. -/
structure Phrases where
  statement : List Token → Stmt → Prop
  assignment : List Token → Expr → Prop
  unary : List Token → Expr → Prop

namespace Phrases

/-! ## Lists -/

section
variable {α : Type} (item : List Token → α → Prop)

/-- Items one after the other. -/
inductive Sequence : List Token → List α → Prop
  | nil : Sequence [] []
  | cons {ts us : List Token} {a : α} {as : List α} (hfirst : item ts a) (hrest : Sequence us as) :
      Sequence (ts ++ us) (a :: as)

/-- One or more items with commas between them. -/
inductive Separated : List Token → List α → Prop
  | last {ts : List Token} {a : α} (hlast : item ts a) : Separated ts [a]
  | cons {ts us : List Token} {a : α} {as : List α} (hfirst : item ts a)
      (hrest : Separated us as) : Separated (ts ++ .symbol .comma :: us) (a :: as)

/-- Items with a comma after each, which the last may lack. -/
inductive Terminated : List Token → List α → Prop
  | nil : Terminated [] []
  | last {ts : List Token} {a : α} (hlast : item ts a) : Terminated ts [a]
  | cons {ts us : List Token} {a : α} {as : List α} (hfirst : item ts a)
      (hrest : Terminated us as) : Terminated (ts ++ .symbol .comma :: us) (a :: as)

/-- Items with commas between them, and a closing parenthesis. -/
inductive Listed : List Token → List α → Prop
  | nil : Listed [.symbol .rightParen] []
  | items {ts : List Token} {as : List α} (hitems : Separated item ts as) :
      Listed (ts ++ [.symbol .rightParen]) as

end

section
variable {α : Type} {item : List Token → α → Prop} {P : α → Prop} {ts : List Token} {as : List α}

theorem Sequence.forall (h : Sequence item ts as) (hitem : ∀ ts a, item ts a → P a) :
    ∀ a ∈ as, P a := by
  induction h with
  | nil => exact nofun
  | cons hfirst _ ih => exact List.forall_mem_cons.2 ⟨hitem _ _ hfirst, ih⟩

theorem Separated.forall (h : Separated item ts as) (hitem : ∀ ts a, item ts a → P a) :
    ∀ a ∈ as, P a := by
  induction h with
  | last hlast => exact List.forall_mem_cons.2 ⟨hitem _ _ hlast, nofun⟩
  | cons hfirst _ ih => exact List.forall_mem_cons.2 ⟨hitem _ _ hfirst, ih⟩

theorem Terminated.forall (h : Terminated item ts as) (hitem : ∀ ts a, item ts a → P a) :
    ∀ a ∈ as, P a := by
  induction h with
  | nil => exact nofun
  | last hlast => exact List.forall_mem_cons.2 ⟨hitem _ _ hlast, nofun⟩
  | cons hfirst _ ih => exact List.forall_mem_cons.2 ⟨hitem _ _ hfirst, ih⟩

theorem Listed.forall (h : Listed item ts as) (hitem : ∀ ts a, item ts a → P a) :
    ∀ a ∈ as, P a := by
  cases h with
  | nil => exact nofun
  | items hitems => exact hitems.forall hitem

end

/-! ## Expressions -/

section
variable (inner : Phrases)

/-- A parameter. -/
inductive Parameter : List Token → String → Prop
  | name (x : String) : Parameter [.identifier x] x

/-- The parameters and the body of a function. -/
inductive FunctionRest : List Token → List String × List Stmt → Prop
  | intro {ts us : List Token} {params : List String} {body : List Stmt}
      (hparams : Listed Parameter ts params) (hbody : Sequence inner.statement us body) :
      FunctionRest (.symbol .leftParen :: (ts ++ inBraces us)) (params, body)

/-- A property of an object literal. -/
inductive Property : List Token → String × Expr → Prop
  | short (x : String) : Property [.identifier x] (x, .name x)
  | keyed {t : Token} {key : String} {ts : List Token} {e : Expr} (hkey : keyOf? t = some key)
      (hvalue : inner.assignment ts e) : Property (t :: .symbol .colon :: ts) (key, e)

inductive Primary : List Token → Expr → Prop
  | number (x : Binary64) : Primary [.number x] (.number x)
  | string (s : String) : Primary [.string s] (.string s)
  | boolean (b : Bool) : Primary [.boolean b] (.boolean b)
  | null : Primary [.null] .null
  | name (x : String) : Primary [.identifier x] (.name x)
  | function {ts : List Token} {params : List String} {body : List Stmt} (name : Option String)
      (hrest : FunctionRest inner ts (params, body)) :
      Primary (.keyword .functionWord :: (printName name ++ ts)) (.function name params body)
  | group {ts : List Token} {e : Expr} (he : inner.assignment ts e) : Primary (grouped ts) e
  | array {ts : List Token} {items : List Expr} (hitems : Terminated inner.assignment ts items) :
      Primary (bracketed ts) (.array items)
  | object {ts : List Token} {entries : List (String × Expr)}
      (hentries : Terminated (Property inner) ts entries) : Primary (inBraces ts) (.object entries)

/-- A primary expression with the calls and member accesses that follow it. -/
inductive Suffixed : List Token → Expr → Prop
  | primary {ts : List Token} {e : Expr} (he : Primary inner ts e) : Suffixed ts e
  | call {ts us : List Token} {callee : Expr} {args : List Expr} (hcallee : Suffixed ts callee)
      (hargs : Listed inner.assignment us args) :
      Suffixed (ts ++ .symbol .leftParen :: us) (.call callee args)
  | dot {ts : List Token} {object : Expr} (key : String) (hobject : Suffixed ts object) :
      Suffixed (ts ++ [.symbol .dot, .identifier key]) (.dot object key)
  | index {ts us : List Token} {object key : Expr} (hobject : Suffixed ts object)
      (hkey : inner.assignment us key) : Suffixed (ts ++ bracketed us) (.index object key)

inductive Unary : List Token → Expr → Prop
  | operator {t : Token} {ts : List Token} {op : UnaryOp} {e : Expr}
      (hop : UnaryOp.ofToken? t = some op) (he : inner.unary ts e) :
      Unary (t :: ts) (.unary op e)
  | suffixed {ts : List Token} {e : Expr} (he : Suffixed inner ts e) : Unary ts e

/-- Operators of precedence at most a level, grouped to the left. -/
inductive Operators : Nat → List Token → Expr → Prop
  | unary {ts : List Token} {e : Expr} (he : Unary inner ts e) : Operators 0 ts e
  | tighter {level : Nat} {ts : List Token} {e : Expr} (he : Operators level ts e) :
      Operators (level + 1) ts e
  | operator {level : Nat} {t : Token} {ts us : List Token} {op : Infix} {left right : Expr}
      (hleft : Operators (level + 1) ts left) (hop : Infix.ofToken? (level + 1) t = some op)
      (hright : Operators level us right) :
      Operators (level + 1) (ts ++ t :: us) (op.apply left right)

inductive Conditional : List Token → Expr → Prop
  | test {ts : List Token} {e : Expr} (he : Operators inner Infix.loosest ts e) :
      Conditional ts e
  | branches {ts us vs : List Token} {test consequent alternate : Expr}
      (htest : Operators inner Infix.loosest ts test)
      (hconsequent : inner.assignment us consequent) (halternate : inner.assignment vs alternate) :
      Conditional (ts ++ .symbol .question :: (us ++ .symbol .colon :: vs))
        (.conditional test consequent alternate)

inductive Assignment : List Token → Expr → Prop
  | conditional {ts : List Token} {e : Expr} (he : Conditional inner ts e) :
      Assignment ts e
  | assign {t : Token} {ts us : List Token} {op : AssignOp} {target value : Expr}
      (htarget : Conditional inner ts target) (hassignable : target.isTarget)
      (hop : AssignOp.ofToken? t = some op) (hvalue : inner.assignment us value) :
      Assignment (ts ++ t :: us) (.assign op target value)

/-! ## Statements -/

inductive Binding (kind : BindingKind) : List Token → String × Option Expr → Prop
  | bare (x : String) (hkind : kind ≠ .constant) : Binding kind [.identifier x] (x, none)
  | valued {ts : List Token} {e : Expr} (x : String) (he : inner.assignment ts e) :
      Binding kind (.identifier x :: .symbol .equal :: ts) (x, some e)

/-- The end of a statement, with or without a semicolon. -/
inductive Ending : List Token → Prop
  | semicolon : Ending [.symbol .semicolon]
  | bare : Ending []

inductive Statement : List Token → Stmt → Prop
  | declare {t : Token} {ts us : List Token} {kind : BindingKind}
      {bindings : List (String × Option Expr)} (hkind : BindingKind.ofToken? t = some kind)
      (hbindings : Separated (Binding inner kind) ts bindings) (hend : Ending us) :
      Statement (t :: (ts ++ us)) (.declare kind bindings)
  | function {ts : List Token} {params : List String} {body : List Stmt} (name : String)
      (hrest : FunctionRest inner ts (params, body)) :
      Statement (.keyword .functionWord :: .identifier name :: ts) (.function name params body)
  | conditional {ts us : List Token} {test : Expr} {consequent : Stmt}
      (htest : inner.assignment ts test) (hconsequent : inner.statement us consequent) :
      Statement (.keyword .ifWord :: (grouped ts ++ us)) (.conditional test consequent none)
  | alternative {ts us vs : List Token} {test : Expr} {consequent alternate : Stmt}
      (htest : inner.assignment ts test) (hconsequent : inner.statement us consequent)
      (halternate : inner.statement vs alternate) :
      Statement (.keyword .ifWord :: (grouped ts ++ (us ++ .keyword .elseWord :: vs)))
        (.conditional test consequent (some alternate))
  | while {ts us : List Token} {test : Expr} {body : Stmt} (htest : inner.assignment ts test)
      (hbody : inner.statement us body) :
      Statement (.keyword .whileWord :: (grouped ts ++ us)) (.while test body)
  | returnNone {us : List Token} (hend : Ending us) :
      Statement (.keyword .returnWord :: us) (.return none)
  | returnSome {ts us : List Token} {e : Expr} (he : inner.assignment ts e)
      (hend : Ending us) : Statement (.keyword .returnWord :: (ts ++ us)) (.return (some e))
  | throw {ts us : List Token} {e : Expr} (line : Nat) (he : inner.assignment ts e)
      (hend : Ending us) : Statement (.keyword .throwWord :: (ts ++ us)) (.throw e line)
  | block {ts : List Token} {body : List Stmt} (hbody : Sequence inner.statement ts body) :
      Statement (inBraces ts) (.block body)
  | empty : Statement [.symbol .semicolon] .empty
  | expression {ts us : List Token} {e : Expr} (he : inner.assignment ts e)
      (hend : Ending us) : Statement (ts ++ us) (.expression e)

end

end Phrases

/-! ## Depth -/

/-- The phrases that nest at most `n` levels deep. -/
def phrases : Nat → Phrases
  | 0 => ⟨fun _ _ => False, fun _ _ => False, fun _ _ => False⟩
  | n + 1 => ⟨(phrases n).Statement, (phrases n).Assignment, (phrases n).Unary⟩

/-! ## Phrases are not empty -/

namespace Phrases

variable {inner : Phrases} {ts : List Token} {e : Expr}

theorem Primary.ne_nil (h : inner.Primary ts e) : ts ≠ [] := by
  cases h <;> exact List.cons_ne_nil _ _

theorem Suffixed.ne_nil (h : inner.Suffixed ts e) : ts ≠ [] := by
  cases h with
  | primary h => exact h.ne_nil
  | _ => simp [bracketed]

theorem Unary.ne_nil (h : inner.Unary ts e) : ts ≠ [] := by
  cases h with
  | operator => exact List.cons_ne_nil _ _
  | suffixed h => exact h.ne_nil

theorem Operators.ne_nil {level : Nat} (h : inner.Operators level ts e) : ts ≠ [] := by
  induction h with
  | unary h => exact h.ne_nil
  | tighter _ ih => exact ih
  | operator => simp

theorem Conditional.ne_nil (h : inner.Conditional ts e) : ts ≠ [] := by
  cases h with
  | test h => exact h.ne_nil
  | branches => simp

theorem Assignment.ne_nil (h : inner.Assignment ts e) : ts ≠ [] := by
  cases h with
  | conditional h => exact h.ne_nil
  | assign => simp

theorem Property.ne_nil {entry : String × Expr} (h : inner.Property ts entry) : ts ≠ [] := by
  cases h <;> exact List.cons_ne_nil _ _

theorem Binding.ne_nil {kind : BindingKind} {entry : String × Option Expr}
    (h : inner.Binding kind ts entry) : ts ≠ [] := by
  cases h <;> exact List.cons_ne_nil _ _

theorem Parameter.ne_nil {x : String} (h : Parameter ts x) : ts ≠ [] := by
  cases h
  exact List.cons_ne_nil _ _

theorem Statement.ne_nil {s : Stmt} (h : inner.Statement ts s)
    (hinner : ∀ ts e, inner.assignment ts e → ts ≠ []) : ts ≠ [] := by
  cases h with
  | expression h => exact fun hts => hinner _ _ h (List.append_eq_nil_iff.1 hts).1
  | _ => exact List.cons_ne_nil _ _

end Phrases

end Requisite.Source
