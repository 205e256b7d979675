import Mathlib.Algebra.GroupWithZero.Nat
import LetFn.Tree

namespace LetFn

mutual

/-- How many statements there are in an expression, at any depth. -/
def Expr.statementCount : Expr → Nat
  | .identifier _ | .boolean _ _ | .integer _ _ => 0
  | .unary _ _ right => right.statementCount
  | .binary _ _ left right => left.statementCount + right.statementCount
  | .conditional _ condition consequence alternative =>
    condition.statementCount + consequence.statementCount + alternativeStatementCount alternative
  | .function _ _ body => body.statementCount
  | .call _ callee arguments => callee.statementCount + exprsStatementCount arguments

/-- The statement itself and those inside it. -/
def Stmt.statementCount : Stmt → Nat
  | .binding _ _ value | .result _ value | .expression _ value => value.statementCount + 1
  | .block body => body.statementCount + 1

def Block.statementCount : Block → Nat
  | .mk _ statements => stmtsStatementCount statements

def exprsStatementCount : List Expr → Nat
  | [] => 0
  | first :: others => first.statementCount + exprsStatementCount others

def stmtsStatementCount : List Stmt → Nat
  | [] => 0
  | first :: others => first.statementCount + stmtsStatementCount others

def alternativeStatementCount : Option Block → Nat
  | none => 0
  | some alternative => alternative.statementCount

end

/-- How many statements a program has, at every depth. -/
def Program.statementCount (program : Program) : Nat :=
  stmtsStatementCount program.statements

theorem exprsStatementCount_eq_sum (exprs : List Expr) :
    exprsStatementCount exprs = (exprs.map Expr.statementCount).sum := by
  induction exprs with
  | nil => rfl
  | cons first others ih => rw [exprsStatementCount, ih, List.map_cons, List.sum_cons]

theorem stmtsStatementCount_append (front back : List Stmt) :
    stmtsStatementCount (front ++ back) = stmtsStatementCount front + stmtsStatementCount back := by
  induction front with
  | nil => exact (Nat.zero_add _).symm
  | cons first others ih => simp only [List.cons_append, stmtsStatementCount, ih, Nat.add_assoc]

end LetFn
