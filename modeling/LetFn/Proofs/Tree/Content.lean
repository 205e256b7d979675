import LetFn.Proofs.Lexing.Spelling

namespace LetFn

def Identifier.content (id : Identifier) : Identifier :=
  ⟨id.token.bare, id.name⟩

mutual

/-- The expression up to the spans of its tokens, and up to the tokens that statements keep of their expressions. -/
@[simp]
def Expr.content : Expr → Expr
  | .identifier id => .identifier id.content
  | .boolean token value => .boolean token.bare value
  | .integer token value => .integer token.bare value
  | .unary token operator right => .unary token.bare operator right.content
  | .binary token operator left right => .binary token.bare operator left.content right.content
  | .conditional token condition consequence alternative =>
    .conditional token.bare condition.content consequence.content (contentAlternative alternative)
  | .function token parameters body => .function token.bare (parameters.map Identifier.content) body.content
  | .call token callee arguments => .call token.bare callee.content (contentExprs arguments)

@[simp]
def Stmt.content : Stmt → Stmt
  | .binding token name value => .binding token.bare name.content value.content
  | .result token value => .result token.bare value.content
  | .expression _ value => .expression default value.content
  | .block body => .block body.content

@[simp]
def Block.content : Block → Block
  | .mk token statements => .mk token.bare (contentStmts statements)

@[simp]
def contentExprs : List Expr → List Expr
  | [] => []
  | first :: others => first.content :: contentExprs others

@[simp]
def contentStmts : List Stmt → List Stmt
  | [] => []
  | first :: others => first.content :: contentStmts others

@[simp]
def contentAlternative : Option Block → Option Block
  | none => none
  | some alternative => some alternative.content

end

def Program.content (program : Program) : Program :=
  ⟨contentStmts program.statements⟩

def Identifier.signed (id : Identifier) : Identifier :=
  .ofToken (TokenKind.ident.token id.name)

mutual

/-- The expression with the tokens that its nodes are always read from: those of keywords and signs are written in one
way only, and the others show in the node. -/
@[simp]
def Expr.signed : Expr → Expr
  | .identifier id => .identifier id.signed
  | .boolean _ value =>
    .boolean (if value then TokenKind.trueWord.token "true" else TokenKind.falseWord.token "false") value
  | .integer token value => .integer (TokenKind.int.token token.literal) value
  | .unary _ operator right => .unary ((TokenKind.ofOperator operator).token operator) operator right.signed
  | .binary _ operator left right =>
    .binary ((TokenKind.ofOperator operator).token operator) operator left.signed right.signed
  | .conditional _ condition consequence alternative =>
    .conditional (TokenKind.ifWord.token "if") condition.signed consequence.signed (signedAlternative alternative)
  | .function _ parameters body =>
    .function (TokenKind.fnWord.token "fn") (parameters.map Identifier.signed) body.signed
  | .call _ callee arguments => .call (TokenKind.lparen.token "(") callee.signed (signedExprs arguments)

@[simp]
def Stmt.signed : Stmt → Stmt
  | .binding _ name value => .binding (TokenKind.letWord.token "let") name.signed value.signed
  | .result _ value => .result (TokenKind.returnWord.token "return") value.signed
  | .expression _ value => .expression default value.signed
  | .block body => .block body.signed

@[simp]
def Block.signed : Block → Block
  | .mk _ statements => .mk (TokenKind.lbrace.token "\x7b") (signedStmts statements)

@[simp]
def signedExprs : List Expr → List Expr
  | [] => []
  | first :: others => first.signed :: signedExprs others

@[simp]
def signedStmts : List Stmt → List Stmt
  | [] => []
  | first :: others => first.signed :: signedStmts others

@[simp]
def signedAlternative : Option Block → Option Block
  | none => none
  | some alternative => some alternative.signed

end

end LetFn
