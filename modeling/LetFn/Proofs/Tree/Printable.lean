import LetFn.Proofs.Lexing.Spelling
import LetFn.Text.Decimal
import LetFn.Tree.Text

namespace LetFn

/-- The name alone. -/
def Identifier.outline (id : Identifier) : Identifier :=
  ⟨default, id.name⟩

mutual

/-- The expression without the tokens of its nodes, of which only the digits of numbers stay. -/
def Expr.outline : Expr → Expr
  | .identifier id => .identifier id.outline
  | .boolean _ value => .boolean default value
  | .integer token value => .integer (TokenKind.int.token token.literal) value
  | .unary _ operator right => .unary default operator right.outline
  | .binary _ operator left right => .binary default operator left.outline right.outline
  | .conditional _ condition consequence alternative =>
    .conditional default condition.outline consequence.outline (outlineAlternative alternative)
  | .function _ parameters body => .function default (parameters.map Identifier.outline) body.outline
  | .call _ callee arguments => .call default callee.outline (outlineExprs arguments)

def Stmt.outline : Stmt → Stmt
  | .binding _ name value => .binding default name.outline value.outline
  | .result _ value => .result default value.outline
  | .expression _ value => .expression default value.outline
  | .block body => .block body.outline

def Block.outline : Block → Block
  | .mk _ statements => .mk default (outlineStmts statements)

def outlineExprs : List Expr → List Expr
  | [] => []
  | first :: others => first.outline :: outlineExprs others

def outlineStmts : List Stmt → List Stmt
  | [] => []
  | first :: others => first.outline :: outlineStmts others

def outlineAlternative : Option Block → Option Block
  | none => none
  | some alternative => some alternative.outline

end

def Program.outline (program : Program) : Program :=
  ⟨outlineStmts program.statements⟩

section

variable (move : Motion)

mutual

theorem Expr.outline_respan : (expr : Expr) → (expr.respan move).outline = expr.outline
  | .identifier _ | .boolean _ _ | .integer _ _ => rfl
  | .unary _ _ right => by rw [Expr.respan, Expr.outline, Expr.outline, right.outline_respan]
  | .binary _ _ left right => by
    rw [Expr.respan, Expr.outline, Expr.outline, left.outline_respan, right.outline_respan]
  | .conditional _ condition consequence alternative => by
    rw [Expr.respan, Expr.outline, Expr.outline, condition.outline_respan, consequence.outline_respan,
      outlineAlternative_respan alternative]
  | .function _ parameters body => by
    rw [Expr.respan, Expr.outline, Expr.outline, body.outline_respan, List.map_map]
    rfl
  | .call _ callee arguments => by
    rw [Expr.respan, Expr.outline, Expr.outline, callee.outline_respan, outlineExprs_respan arguments]

theorem Stmt.outline_respan : (stmt : Stmt) → (stmt.respan move).outline = stmt.outline
  | .binding _ _ value => by
    rw [Stmt.respan, Stmt.outline, Stmt.outline, value.outline_respan]
    rfl
  | .result _ value => by rw [Stmt.respan, Stmt.outline, Stmt.outline, value.outline_respan]
  | .expression _ value => by rw [Stmt.respan, Stmt.outline, Stmt.outline, value.outline_respan]
  | .block body => by rw [Stmt.respan, Stmt.outline, Stmt.outline, body.outline_respan]

theorem Block.outline_respan : (block : Block) → (block.respan move).outline = block.outline
  | .mk _ statements => by rw [Block.respan, Block.outline, Block.outline, outlineStmts_respan statements]

theorem outlineExprs_respan : (exprs : List Expr) → outlineExprs (respanExprs move exprs) = outlineExprs exprs
  | [] => rfl
  | first :: others => by
    rw [respanExprs, outlineExprs, outlineExprs, first.outline_respan, outlineExprs_respan others]

theorem outlineStmts_respan : (stmts : List Stmt) → outlineStmts (respanStmts move stmts) = outlineStmts stmts
  | [] => rfl
  | first :: others => by
    rw [respanStmts, outlineStmts, outlineStmts, first.outline_respan, outlineStmts_respan others]

theorem outlineAlternative_respan : (alternative : Option Block) →
    outlineAlternative (respanAlternative move alternative) = outlineAlternative alternative
  | none => rfl
  | some alternative => by
    rw [respanAlternative, outlineAlternative, outlineAlternative, alternative.outline_respan]

end

end

theorem Program.outline_bare (program : Program) : program.bare.outline = program.outline :=
  congrArg Program.mk (outlineStmts_respan .forget program.statements)

/-- The name is a word that is not reserved. -/
def Identifier.Printable (id : Identifier) : Prop :=
  isWord id.name.toList = true ∧ TokenKind.ofWord id.name = .ident

/-- Whether the outermost node is an operator, the text then standing in parentheses. -/
def Expr.isOperation : Expr → Bool
  | .unary _ _ _ | .binary _ _ _ _ => true
  | _ => false

/-- The text of an expression has no end of its own, so that a parenthesis at the front of the next statement
would be taken for a call. -/
def Stmt.Apart : Stmt → List Stmt → Prop
  | .expression _ _, next :: _ => next.text.toList.head? ≠ some '('
  | _, _ => True

mutual

/-- An expression whose text holds all there is to it, the tokens aside: what its nodes keep is as it is read,
and every condition is in parentheses. -/
def Expr.Printable : Expr → Prop
  | .identifier id => id.Printable
  | .boolean token value => token.literal = if value then "true" else "false"
  | .integer token value => ∃ number : Nat,
    Text.natural? token.literal.toList = some number ∧ number ≤ 0x7fffffffffffffff ∧ value = number
  | .unary _ operator right => operator ∈ ["!", "-"] ∧ right.Printable
  | .binary _ operator left right =>
    operator ∈ ["==", "!=", "<", ">", "+", "-", "*", "/"] ∧ left.Printable ∧ right.Printable
  | .conditional _ condition consequence alternative =>
    condition.isOperation = true ∧ condition.Printable ∧ consequence.Printable ∧ printableAlternative alternative
  | .function token parameters body =>
    token.literal = "fn" ∧ (∀ id ∈ parameters, id.Printable) ∧ body.Printable
  | .call _ callee arguments => callee.Printable ∧ printableExprs arguments

def Stmt.Printable : Stmt → Prop
  | .binding token name value => token.literal = "let" ∧ name.Printable ∧ value.Printable
  | .result token value => token.literal = "return" ∧ value.Printable
  | .expression _ value => value.Printable
  | .block _ => False

def Block.Printable : Block → Prop
  | .mk _ statements => printableStmts statements

def printableExprs : List Expr → Prop
  | [] => True
  | first :: others => first.Printable ∧ printableExprs others

def printableStmts : List Stmt → Prop
  | [] => True
  | first :: others => first.Printable ∧ first.Apart others ∧ printableStmts others

def printableAlternative : Option Block → Prop
  | none => True
  | some alternative => alternative.Printable

end

def Program.Printable (program : Program) : Prop :=
  printableStmts program.statements

end LetFn
