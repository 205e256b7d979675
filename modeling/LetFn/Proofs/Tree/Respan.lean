import LetFn.Diagnostic
import LetFn.Tree

namespace LetFn

/-- A change of places. What lies between two characters still does so afterwards, so that the end of a source
has an image. -/
structure Motion where
  apply : Span → Span
  empty : ∀ n, (apply ⟨n, n⟩).stop = (apply ⟨n, n⟩).start

/-- The token at another place. -/
def Token.respan (move : Motion) (token : Token) : Token :=
  { token with span := move.apply token.span }

@[simp] theorem Token.respan_kind (move : Motion) (token : Token) :
    (token.respan move).kind = token.kind := rfl

@[simp] theorem Token.respan_literal (move : Motion) (token : Token) :
    (token.respan move).literal = token.literal := rfl

def Identifier.respan (move : Motion) (id : Identifier) : Identifier :=
  { id with token := id.token.respan move }

mutual

/-- The expression with its tokens at other places. -/
def Expr.respan (move : Motion) : Expr → Expr
  | .identifier id => .identifier (id.respan move)
  | .boolean token value => .boolean (token.respan move) value
  | .integer token value => .integer (token.respan move) value
  | .unary token operator right => .unary (token.respan move) operator (right.respan move)
  | .binary token operator left right =>
    .binary (token.respan move) operator (left.respan move) (right.respan move)
  | .conditional token condition consequence alternative =>
    .conditional (token.respan move) (condition.respan move) (consequence.respan move)
      (respanAlternative move alternative)
  | .function token parameters body =>
    .function (token.respan move) (parameters.map (Identifier.respan move)) (body.respan move)
  | .call token callee arguments => .call (token.respan move) (callee.respan move) (respanExprs move arguments)

def Stmt.respan (move : Motion) : Stmt → Stmt
  | .binding token name value => .binding (token.respan move) (name.respan move) (value.respan move)
  | .result token value => .result (token.respan move) (value.respan move)
  | .expression token value => .expression (token.respan move) (value.respan move)
  | .block body => .block (body.respan move)

def Block.respan (move : Motion) : Block → Block
  | .mk token statements => .mk (token.respan move) (respanStmts move statements)

def respanExprs (move : Motion) : List Expr → List Expr
  | [] => []
  | first :: others => first.respan move :: respanExprs move others

def respanStmts (move : Motion) : List Stmt → List Stmt
  | [] => []
  | first :: others => first.respan move :: respanStmts move others

def respanAlternative (move : Motion) : Option Block → Option Block
  | none => none
  | some alternative => some (alternative.respan move)

end

theorem respanExprs_eq_map (move : Motion) (exprs : List Expr) :
    respanExprs move exprs = exprs.map (Expr.respan move) := by
  induction exprs with
  | nil => rfl
  | cons first others ih => rw [respanExprs, ih, List.map_cons]

theorem respanStmts_append (move : Motion) (front back : List Stmt) :
    respanStmts move (front ++ back) = respanStmts move front ++ respanStmts move back := by
  induction front with
  | nil => rfl
  | cons first others ih => simp only [List.cons_append, respanStmts, ih]

def Program.respan (move : Motion) (program : Program) : Program :=
  ⟨respanStmts move program.statements⟩

def Diagnostic.respan (move : Motion) (diagnostic : Diagnostic) : Diagnostic :=
  { diagnostic with span := move.apply diagnostic.span }

/-- Everything moves to one place, so that places no longer count. -/
def Motion.forget : Motion := ⟨fun _ => ⟨0, 0⟩, fun _ => rfl⟩

/-- Everything moves on by `count` characters. -/
def Motion.shift (count : Nat) : Motion :=
  ⟨fun span => ⟨span.start + count, span.stop + count⟩, fun _ => rfl⟩

/-- The token as its kind and its literal. -/
def Token.bare (token : Token) : Token := token.respan .forget

/-- A token of which only the kind and the literal are of interest. -/
def TokenKind.token (kind : TokenKind) (literal : String) : Token :=
  ⟨kind, literal, ⟨0, 0⟩⟩

/-- The program up to the spans of its tokens. -/
def Program.bare (program : Program) : Program := program.respan .forget

theorem Token.bare_eq_iff {token other : Token} :
    token.bare = other.bare ↔ token.kind = other.kind ∧ token.literal = other.literal := by
  simp [Token.bare, Token.respan, Motion.forget]

end LetFn
