import LetFn.Proofs.Tree.Genuine

namespace LetFn

mutual

/-- The expressions in an expression, itself among them, at whatever depth. -/
def Expr.parts : Expr → List Expr
  | .identifier id => [.identifier id]
  | .boolean token value => [.boolean token value]
  | .integer token value => [.integer token value]
  | .unary token operator right => .unary token operator right :: right.parts
  | .binary token operator left right => .binary token operator left right :: (left.parts ++ right.parts)
  | .conditional token condition consequence alternative =>
    .conditional token condition consequence alternative ::
      (condition.parts ++ (consequence.parts ++ alternativeParts alternative))
  | .function token parameters body => .function token parameters body :: body.parts
  | .call token callee arguments => .call token callee arguments :: (callee.parts ++ exprsParts arguments)

def Stmt.parts : Stmt → List Expr
  | .binding _ _ value | .result _ value | .expression _ value => value.parts
  | .block body => body.parts

def Block.parts : Block → List Expr
  | .mk _ statements => stmtsParts statements

def exprsParts : List Expr → List Expr
  | [] => []
  | first :: others => first.parts ++ exprsParts others

def stmtsParts : List Stmt → List Expr
  | [] => []
  | first :: others => first.parts ++ stmtsParts others

def alternativeParts : Option Block → List Expr
  | none => []
  | some alternative => alternative.parts

end

/-- The expressions in a program, at every depth. -/
def Program.parts (program : Program) : List Expr :=
  stmtsParts program.statements

mutual

/-- What an expression is as it is read, every expression in it is. -/
theorem Expr.Genuine.parts : {expr : Expr} → expr.Genuine → ∀ part ∈ expr.parts, part.Genuine
  | .identifier _, genuine | .boolean _ _, genuine | .integer _ _, genuine => List.forall_mem_singleton.mpr genuine
  | .unary _ _ right, genuine => by
    have ⟨⟨_, faithful⟩, content⟩ := genuine
    simp only [Expr.content, Expr.outline, Expr.signed, Expr.unary.injEq] at content
    exact List.forall_mem_cons.mpr ⟨genuine, Expr.Genuine.parts ⟨faithful, content.2.2⟩⟩
  | .binary _ _ left right, genuine => by
    have ⟨⟨_, first, second⟩, content⟩ := genuine
    simp only [Expr.content, Expr.outline, Expr.signed, Expr.binary.injEq] at content
    obtain ⟨-, -, one, two⟩ := content
    exact List.forall_mem_cons.mpr ⟨genuine, List.forall_mem_append.mpr
      ⟨Expr.Genuine.parts ⟨first, one⟩, Expr.Genuine.parts ⟨second, two⟩⟩⟩
  | .conditional _ condition consequence alternative, genuine => by
    have ⟨⟨first, second, third⟩, content⟩ := genuine
    simp only [Expr.content, Expr.outline, Expr.signed, Expr.conditional.injEq] at content
    obtain ⟨-, one, two, three⟩ := content
    exact List.forall_mem_cons.mpr ⟨genuine, List.forall_mem_append.mpr ⟨Expr.Genuine.parts ⟨first, one⟩,
      List.forall_mem_append.mpr ⟨Block.Genuine.parts ⟨second, two⟩, alternativeParts_genuine alternative third three⟩⟩⟩
  | .function _ parameters body, genuine => by
    have ⟨⟨_, _, faithful⟩, content⟩ := genuine
    simp only [Expr.content, Expr.outline, Expr.signed, Expr.function.injEq] at content
    exact List.forall_mem_cons.mpr ⟨genuine, Block.Genuine.parts ⟨faithful, content.2.2⟩⟩
  | .call _ callee arguments, genuine => by
    have ⟨⟨first, second⟩, content⟩ := genuine
    simp only [Expr.content, Expr.outline, Expr.signed, Expr.call.injEq] at content
    obtain ⟨-, one, two⟩ := content
    exact List.forall_mem_cons.mpr ⟨genuine, List.forall_mem_append.mpr
      ⟨Expr.Genuine.parts ⟨first, one⟩, exprsParts_genuine arguments second two⟩⟩

theorem Stmt.Genuine.parts : {stmt : Stmt} → stmt.Genuine → ∀ part ∈ stmt.parts, part.Genuine
  | .binding _ _ value, genuine => by
    obtain ⟨⟨-, -, faithful⟩, content⟩ := genuine
    simp only [Stmt.content, Stmt.outline, Stmt.signed, Stmt.binding.injEq] at content
    exact Expr.Genuine.parts ⟨faithful, content.2.2⟩
  | .result _ value, genuine => by
    obtain ⟨⟨-, faithful⟩, content⟩ := genuine
    simp only [Stmt.content, Stmt.outline, Stmt.signed, Stmt.result.injEq] at content
    exact Expr.Genuine.parts ⟨faithful, content.2⟩
  | .expression _ value, genuine => by
    obtain ⟨faithful, content⟩ := genuine
    simp only [Stmt.content, Stmt.outline, Stmt.signed, Stmt.expression.injEq] at content
    exact Expr.Genuine.parts ⟨faithful, content.2⟩
  | .block body, genuine => genuine.faithful.elim

theorem Block.Genuine.parts : {block : Block} → block.Genuine → ∀ part ∈ block.parts, part.Genuine
  | .mk _ statements, genuine => by
    obtain ⟨faithful, content⟩ := genuine
    simp only [Block.content, Block.outline, Block.signed, Block.mk.injEq] at content
    exact stmtsParts_genuine statements faithful content.2

theorem exprsParts_genuine : (exprs : List Expr) → faithfulExprs exprs →
    contentExprs exprs = signedExprs (outlineExprs exprs) → ∀ part ∈ exprsParts exprs, part.Genuine
  | [], _, _ => List.forall_mem_nil _
  | first :: others, faithful, content => by
    simp only [contentExprs, outlineExprs, signedExprs, List.cons.injEq] at content
    exact List.forall_mem_append.mpr ⟨Expr.Genuine.parts ⟨faithful.1, content.1⟩,
      exprsParts_genuine others faithful.2 content.2⟩

theorem stmtsParts_genuine : (stmts : List Stmt) → faithfulStmts stmts →
    contentStmts stmts = signedStmts (outlineStmts stmts) → ∀ part ∈ stmtsParts stmts, part.Genuine
  | [], _, _ => List.forall_mem_nil _
  | first :: others, faithful, content => by
    simp only [contentStmts, outlineStmts, signedStmts, List.cons.injEq] at content
    exact List.forall_mem_append.mpr ⟨Stmt.Genuine.parts ⟨faithful.1, content.1⟩,
      stmtsParts_genuine others faithful.2 content.2⟩

theorem alternativeParts_genuine : (alternative : Option Block) → faithfulAlternative alternative →
    contentAlternative alternative = signedAlternative (outlineAlternative alternative) →
      ∀ part ∈ alternativeParts alternative, part.Genuine
  | none, _, _ => List.forall_mem_nil _
  | some alternative, faithful, content => by
    simp only [contentAlternative, outlineAlternative, signedAlternative, Option.some.injEq] at content
    exact Block.Genuine.parts ⟨faithful, content⟩

end

end LetFn
