import LetFn.Proofs.Tree.Respan

namespace LetFn

mutual

/-- The token of every node of an expression, that of a node before those of its parts. -/
def Expr.allTokens : Expr → List Token
  | .identifier id => [id.token]
  | .boolean token _ | .integer token _ => [token]
  | .unary token _ right => token :: right.allTokens
  | .binary token _ left right => token :: (left.allTokens ++ right.allTokens)
  | .conditional token condition consequence alternative =>
    token :: (condition.allTokens ++ (consequence.allTokens ++ alternativeAllTokens alternative))
  | .function token parameters body => token :: (parameters.map Identifier.token ++ body.allTokens)
  | .call token callee arguments => token :: (callee.allTokens ++ exprsAllTokens arguments)

def Stmt.allTokens : Stmt → List Token
  | .binding token name value => token :: name.token :: value.allTokens
  | .result token value | .expression token value => token :: value.allTokens
  | .block body => body.allTokens

def Block.allTokens : Block → List Token
  | .mk token statements => token :: stmtsAllTokens statements

def exprsAllTokens : List Expr → List Token
  | [] => []
  | first :: others => first.allTokens ++ exprsAllTokens others

def stmtsAllTokens : List Stmt → List Token
  | [] => []
  | first :: others => first.allTokens ++ stmtsAllTokens others

def alternativeAllTokens : Option Block → List Token
  | none => []
  | some alternative => alternative.allTokens

end

/-- The token of every node of a program. -/
def Program.allTokens (program : Program) : List Token :=
  stmtsAllTokens program.statements

theorem stmtsAllTokens_append (front back : List Stmt) :
    stmtsAllTokens (front ++ back) = stmtsAllTokens front ++ stmtsAllTokens back := by
  induction front with
  | nil => rfl
  | cons first others ih => rw [List.cons_append, stmtsAllTokens, ih, stmtsAllTokens, List.append_assoc]

theorem exprsAllTokens_eq_flatMap (exprs : List Expr) : exprsAllTokens exprs = exprs.flatMap Expr.allTokens := by
  induction exprs with
  | nil => rfl
  | cons first others ih => rw [exprsAllTokens, ih, List.flatMap_cons]

section

variable {move : Motion}

theorem map_token_respan (names : List Identifier) :
    (names.map (Identifier.respan move)).map Identifier.token =
      (names.map Identifier.token).map (Token.respan move) := by
  rw [List.map_map, List.map_map]
  rfl

mutual

theorem Expr.allTokens_respan : (expr : Expr) → (expr.respan move).allTokens = expr.allTokens.map (Token.respan move)
  | .identifier _ | .boolean _ _ | .integer _ _ => rfl
  | .unary _ _ right => by rw [Expr.respan, Expr.allTokens, Expr.allTokens, right.allTokens_respan, List.map_cons]
  | .binary _ _ left right => by
    rw [Expr.respan, Expr.allTokens, Expr.allTokens, left.allTokens_respan, right.allTokens_respan, List.map_cons,
      List.map_append]
  | .conditional _ condition consequence alternative => by
    rw [Expr.respan, Expr.allTokens, Expr.allTokens, condition.allTokens_respan, consequence.allTokens_respan,
      alternativeAllTokens_respan alternative, List.map_cons, List.map_append, List.map_append]
  | .function _ parameters body => by
    rw [Expr.respan, Expr.allTokens, Expr.allTokens, body.allTokens_respan, map_token_respan, List.map_cons,
      List.map_append]
  | .call _ callee arguments => by
    rw [Expr.respan, Expr.allTokens, Expr.allTokens, callee.allTokens_respan, exprsAllTokens_respan arguments,
      List.map_cons, List.map_append]

theorem Stmt.allTokens_respan : (stmt : Stmt) → (stmt.respan move).allTokens = stmt.allTokens.map (Token.respan move)
  | .binding _ _ value => by
    rw [Stmt.respan, Stmt.allTokens, Stmt.allTokens, value.allTokens_respan, List.map_cons, List.map_cons]
    rfl
  | .result _ value | .expression _ value => by
    rw [Stmt.respan, Stmt.allTokens, Stmt.allTokens, value.allTokens_respan, List.map_cons]
  | .block body => by rw [Stmt.respan, Stmt.allTokens, Stmt.allTokens, body.allTokens_respan]

theorem Block.allTokens_respan : (block : Block) →
    (block.respan move).allTokens = block.allTokens.map (Token.respan move)
  | .mk _ statements => by
    rw [Block.respan, Block.allTokens, Block.allTokens, stmtsAllTokens_respan statements, List.map_cons]

theorem exprsAllTokens_respan : (exprs : List Expr) →
    exprsAllTokens (respanExprs move exprs) = (exprsAllTokens exprs).map (Token.respan move)
  | [] => rfl
  | first :: others => by
    rw [respanExprs, exprsAllTokens, exprsAllTokens, first.allTokens_respan, exprsAllTokens_respan others,
      List.map_append]

theorem stmtsAllTokens_respan : (stmts : List Stmt) →
    stmtsAllTokens (respanStmts move stmts) = (stmtsAllTokens stmts).map (Token.respan move)
  | [] => rfl
  | first :: others => by
    rw [respanStmts, stmtsAllTokens, stmtsAllTokens, first.allTokens_respan, stmtsAllTokens_respan others,
      List.map_append]

theorem alternativeAllTokens_respan : (alternative : Option Block) →
    alternativeAllTokens (respanAlternative move alternative) =
      (alternativeAllTokens alternative).map (Token.respan move)
  | none => rfl
  | some alternative => by
    rw [respanAlternative, alternativeAllTokens, alternativeAllTokens, alternative.allTokens_respan]

end

theorem Program.allTokens_respan (program : Program) :
    (program.respan move).allTokens = program.allTokens.map (Token.respan move) :=
  stmtsAllTokens_respan program.statements

end

end LetFn
