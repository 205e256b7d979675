import LetFn.Proofs.Grammar.Faithful
import LetFn.Proofs.Text.Decimal
import LetFn.Proofs.Tree.Content

namespace LetFn

namespace Token

variable {token : Token} {kind : TokenKind} {literal : String}

theorem bare_eq (there : token.kind = kind) (written : token.literal = literal) : token.bare = kind.token literal := by
  rw [← there, ← written]
  rfl

/-- A keyword or a sign is written as all of its kind are. -/
theorem Proper.bare_eq (proper : token.Proper) (there : token.kind = kind) (fixed : kind.literal? = some literal) :
    token.bare = kind.token literal :=
  Token.bare_eq there (proper.literal_eq (by rw [there]; exact fixed))

/-- An operator shows its kind. -/
theorem Proper.ofOperator (proper : token.Proper) (operator : token.kind = .bang ∨ token.kind.level?.isSome) :
    TokenKind.ofOperator token.literal = token.kind := by
  have written : ∃ literal, token.kind.literal? = some literal ∧ TokenKind.ofOperator literal = token.kind := by
    generalize token.kind = kind at operator
    cases kind <;> first | exact ⟨_, rfl, rfl⟩ | exact absurd operator (by decide)
  obtain ⟨literal, fixed, kind⟩ := written
  rw [proper.literal_eq fixed, kind]

end Token

/-- A name as it is read. -/
structure Identifier.Genuine (id : Identifier) : Prop where
  printable : id.Printable
  content : id.content = id.outline.signed

/-- An expression as it is read: it keeps what is written, and its tokens show nothing more than that. -/
structure Expr.Genuine (expr : Expr) : Prop where
  faithful : expr.Faithful
  content : expr.content = expr.outline.signed

structure Stmt.Genuine (stmt : Stmt) : Prop where
  faithful : stmt.Faithful
  content : stmt.content = stmt.outline.signed

structure Block.Genuine (block : Block) : Prop where
  faithful : block.Faithful
  content : block.content = block.outline.signed

theorem names_genuine {ids : List Identifier} (genuine : ∀ id ∈ ids, id.Genuine) :
    (∀ id ∈ ids, id.Printable) ∧
      ids.map Identifier.content = (ids.map Identifier.outline).map Identifier.signed := by
  refine ⟨fun id member => (genuine id member).printable, ?_⟩
  rw [List.map_map]
  exact List.map_congr_left fun id member => (genuine id member).content

theorem exprs_genuine {exprs : List Expr} (genuine : ∀ expr ∈ exprs, expr.Genuine) :
    faithfulExprs exprs ∧ contentExprs exprs = signedExprs (outlineExprs exprs) := by
  induction exprs with
  | nil => exact ⟨trivial, rfl⟩
  | cons first others ih =>
    obtain ⟨one, more⟩ := List.forall_mem_cons.mp genuine
    obtain ⟨faithful, content⟩ := ih more
    refine ⟨⟨one.faithful, faithful⟩, ?_⟩
    rw [contentExprs, outlineExprs, signedExprs, one.content, content]

theorem stmts_genuine {stmts : List Stmt} (genuine : ∀ stmt ∈ stmts, stmt.Genuine) :
    faithfulStmts stmts ∧ contentStmts stmts = signedStmts (outlineStmts stmts) := by
  induction stmts with
  | nil => exact ⟨trivial, rfl⟩
  | cons first others ih =>
    obtain ⟨one, more⟩ := List.forall_mem_cons.mp genuine
    obtain ⟨faithful, content⟩ := ih more
    refine ⟨⟨one.faithful, faithful⟩, ?_⟩
    rw [contentStmts, outlineStmts, signedStmts, one.content, content]

theorem alternative_genuine {alternative : Option Block} (genuine : ∀ block ∈ alternative, block.Genuine) :
    faithfulAlternative alternative ∧
      contentAlternative alternative = signedAlternative (outlineAlternative alternative) := by
  cases alternative with
  | none => exact ⟨trivial, rfl⟩
  | some block =>
    have one := genuine block rfl
    refine ⟨one.faithful, ?_⟩
    rw [contentAlternative, outlineAlternative, signedAlternative, one.content]

section

variable {token : Token} {condition left right callee value : Expr} {consequence body : Block}

theorem Token.Proper.genuine (proper : token.Proper) (ident : token.kind = .ident) :
    (Identifier.ofToken token).Genuine := by
  refine ⟨proper.printable ident, ?_⟩
  rw [Identifier.content, Identifier.ofToken, Token.bare_eq ident rfl]
  rfl

theorem Identifier.Genuine.expr {id : Identifier} (genuine : id.Genuine) : (Expr.identifier id).Genuine := by
  refine ⟨genuine.printable, ?_⟩
  rw [Expr.content, genuine.content]
  rfl

theorem genuine_boolean (proper : token.Proper) (word : token.kind = .trueWord ∨ token.kind = .falseWord) :
    (Expr.boolean token (token.kind = .trueWord)).Genuine := by
  constructor
  · rw [Expr.Faithful]
    rcases word with kind | kind
    · rw [proper.literal_eq (by rw [kind]; rfl), kind]
      rfl
    · rw [proper.literal_eq (by rw [kind]; rfl), kind]
      rfl
  · rw [Expr.content, Expr.outline, Expr.signed]
    rcases word with kind | kind
    · rw [proper.bare_eq kind rfl, kind]
      rfl
    · rw [proper.bare_eq kind rfl, kind]
      rfl

theorem genuine_integer {value : Int} (proper : token.Proper) (int : token.kind = .int)
    (fits : Text.integer64? token.literal = some value) : (Expr.integer token value).Genuine := by
  obtain ⟨number, digits⟩ := proper.digits int
  rw [Text.integer64?_of_natural? digits] at fits
  constructor
  · by_cases small : number ≤ 0x7fffffffffffffff
    · rw [if_pos small] at fits
      exact ⟨number, digits, small, (Option.some.inj fits).symm⟩
    · rw [if_neg small] at fits
      cases fits
  · rw [Expr.content, Token.bare_eq int rfl]
    rfl

theorem genuine_unary (proper : token.Proper) (sign : token.kind = .bang ∨ token.kind = .minus)
    (inner : right.Genuine) : (Expr.unary token token.literal right).Genuine := by
  have written : token.literal ∈ ["!", "-"] := by
    rcases sign with kind | kind
    · rw [proper.literal_eq (by rw [kind]; rfl)]
      decide
    · rw [proper.literal_eq (by rw [kind]; rfl)]
      decide
  have operator := proper.ofOperator (sign.imp_right fun kind => by rw [kind]; rfl)
  refine ⟨⟨written, inner.faithful⟩, ?_⟩
  rw [Expr.content, Expr.outline, Expr.signed, operator, inner.content]
  rfl

theorem genuine_binary {level : Power} (proper : token.Proper) (sign : token.kind.level? = some level)
    (first : left.Genuine) (second : right.Genuine) : (Expr.binary token token.literal left right).Genuine := by
  have operator := proper.ofOperator (.inr (by rw [sign]; rfl))
  refine ⟨⟨proper.operator sign, first.faithful, second.faithful⟩, ?_⟩
  rw [Expr.content, Expr.outline, Expr.signed, operator, first.content, second.content]
  rfl

theorem genuine_conditional {alternative : Option Block} (proper : token.Proper) (word : token.kind = .ifWord)
    (first : condition.Genuine) (second : consequence.Genuine) (third : ∀ block ∈ alternative, block.Genuine) :
    (Expr.conditional token condition consequence alternative).Genuine := by
  obtain ⟨faithful, content⟩ := alternative_genuine third
  refine ⟨⟨first.faithful, second.faithful, faithful⟩, ?_⟩
  rw [Expr.content, Expr.outline, Expr.signed, proper.bare_eq word rfl, first.content, second.content, content]

theorem genuine_function {parameters : List Identifier} (proper : token.Proper) (word : token.kind = .fnWord)
    (names : ∀ id ∈ parameters, id.Genuine) (inner : body.Genuine) :
    (Expr.function token parameters body).Genuine := by
  obtain ⟨printable, content⟩ := names_genuine names
  refine ⟨⟨proper.literal_eq (by rw [word]; rfl), printable, inner.faithful⟩, ?_⟩
  rw [Expr.content, Expr.outline, Expr.signed, proper.bare_eq word rfl, content, inner.content]

theorem genuine_call {arguments : List Expr} (proper : token.Proper) (sign : token.kind = .lparen)
    (first : callee.Genuine) (others : ∀ expr ∈ arguments, expr.Genuine) :
    (Expr.call token callee arguments).Genuine := by
  obtain ⟨faithful, content⟩ := exprs_genuine others
  refine ⟨⟨first.faithful, faithful⟩, ?_⟩
  rw [Expr.content, Expr.outline, Expr.signed, proper.bare_eq sign rfl, first.content, content]
  rfl

theorem genuine_block {statements : List Stmt} (proper : token.Proper) (sign : token.kind = .lbrace)
    (genuine : ∀ stmt ∈ statements, stmt.Genuine) : (Block.mk token statements).Genuine := by
  obtain ⟨faithful, content⟩ := stmts_genuine genuine
  refine ⟨faithful, ?_⟩
  rw [Block.content, Block.outline, Block.signed, proper.bare_eq sign rfl, content]
  rfl

theorem genuine_binding {name : Identifier} (proper : token.Proper) (word : token.kind = .letWord)
    (bound : name.Genuine) (inner : value.Genuine) : (Stmt.binding token name value).Genuine := by
  refine ⟨⟨proper.literal_eq (by rw [word]; rfl), bound.printable, inner.faithful⟩, ?_⟩
  rw [Stmt.content, Stmt.outline, Stmt.signed, proper.bare_eq word rfl, bound.content, inner.content]

theorem genuine_result (proper : token.Proper) (word : token.kind = .returnWord) (inner : value.Genuine) :
    (Stmt.result token value).Genuine := by
  refine ⟨⟨proper.literal_eq (by rw [word]; rfl), inner.faithful⟩, ?_⟩
  rw [Stmt.content, Stmt.outline, Stmt.signed, proper.bare_eq word rfl, inner.content]

theorem Expr.Genuine.stmt (inner : value.Genuine) : (Stmt.expression token value).Genuine := by
  refine ⟨inner.faithful, ?_⟩
  rw [Stmt.content, Stmt.outline, Stmt.signed, inner.content]

end

end LetFn
