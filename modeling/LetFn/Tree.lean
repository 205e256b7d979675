import LetFn.Token

namespace LetFn

/-- A name where it is used or bound. -/
structure Identifier where
  token : Token
  name : String
deriving DecidableEq, Inhabited

/-- The identifier that is spelled as `token` is. -/
def Identifier.ofToken (token : Token) : Identifier :=
  ⟨token, token.literal⟩

mutual

/-- An expression. Each node keeps the token it starts from, for two operands and for calls the token
between the parts. -/
inductive Expr where
  | identifier (id : Identifier)
  | boolean (token : Token) (value : Bool)
  | integer (token : Token) (value : Int)
  | unary (token : Token) (operator : String) (right : Expr)
  | binary (token : Token) (operator : String) (left right : Expr)
  | conditional (token : Token) (condition : Expr) (consequence : Block) (alternative : Option Block)
  | function (token : Token) (parameters : List Identifier) (body : Block)
  | call (token : Token) (callee : Expr) (arguments : List Expr)

/-- A statement. -/
inductive Stmt where
  | binding (token : Token) (name : Identifier) (value : Expr)
  | result (token : Token) (value : Expr)
  | expression (token : Token) (value : Expr)
  | block (body : Block)

/-- Statements between braces. -/
inductive Block where
  | mk (token : Token) (statements : List Stmt)

end

instance : Inhabited Expr := ⟨.identifier default⟩

instance : Inhabited Block := ⟨.mk default []⟩

instance : Inhabited Stmt := ⟨.block default⟩

/-- A whole source, read. -/
structure Program where
  statements : List Stmt
deriving Inhabited

/-- The token a node keeps. -/
def Expr.token : Expr → Token
  | .identifier id => id.token
  | .boolean token _ => token
  | .integer token _ => token
  | .unary token _ _ => token
  | .binary token _ _ _ => token
  | .conditional token _ _ _ => token
  | .function token _ _ => token
  | .call token _ _ => token

/-- The token of the opening brace. -/
def Block.token : Block → Token
  | .mk token _ => token

/-- The statements between the braces. -/
def Block.statements : Block → List Stmt
  | .mk _ statements => statements

/-- The token a statement keeps. -/
def Stmt.token : Stmt → Token
  | .binding token _ _ => token
  | .result token _ => token
  | .expression token _ => token
  | .block body => body.token

/-- The literal a program starts with, that of its first statement. -/
def Program.literal (program : Program) : String :=
  match program.statements with
  | [] => ""
  | first :: _ => first.token.literal

end LetFn
