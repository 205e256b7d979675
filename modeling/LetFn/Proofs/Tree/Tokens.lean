import LetFn.Tree

namespace LetFn

mutual

/-- The tokens that the nodes of an expression keep, in the order of the source. Of an operation and of a call the
token stands between the parts. -/
def Expr.tokens : Expr → List Token
  | .identifier id => [id.token]
  | .boolean token _ | .integer token _ => [token]
  | .unary token _ right => token :: right.tokens
  | .binary token _ left right => left.tokens ++ token :: right.tokens
  | .conditional token condition consequence alternative =>
    token :: (condition.tokens ++ (consequence.tokens ++ alternativeTokens alternative))
  | .function token parameters body => token :: (parameters.map Identifier.token ++ body.tokens)
  | .call token callee arguments => callee.tokens ++ token :: exprsTokens arguments

/-- The tokens of a statement. The one that an expression keeps as a statement is the first of its own, and does not
count. -/
def Stmt.tokens : Stmt → List Token
  | .binding token name value => token :: name.token :: value.tokens
  | .result token value => token :: value.tokens
  | .expression _ value => value.tokens
  | .block body => body.tokens

def Block.tokens : Block → List Token
  | .mk token statements => token :: stmtsTokens statements

def exprsTokens : List Expr → List Token
  | [] => []
  | first :: others => first.tokens ++ exprsTokens others

def stmtsTokens : List Stmt → List Token
  | [] => []
  | first :: others => first.tokens ++ stmtsTokens others

def alternativeTokens : Option Block → List Token
  | none => []
  | some alternative => alternative.tokens

end

/-- The tokens that the nodes of a program keep. -/
def Program.tokens (program : Program) : List Token :=
  stmtsTokens program.statements

theorem exprsTokens_eq_flatMap (exprs : List Expr) : exprsTokens exprs = exprs.flatMap Expr.tokens := by
  induction exprs with
  | nil => rfl
  | cons first others ih => rw [exprsTokens, ih, List.flatMap_cons]

theorem stmtsTokens_append (front back : List Stmt) :
    stmtsTokens (front ++ back) = stmtsTokens front ++ stmtsTokens back := by
  induction front with
  | nil => rfl
  | cons first others ih => rw [List.cons_append, stmtsTokens, ih, stmtsTokens, List.append_assoc]

end LetFn
