import LetFn.Proofs.Tree.Respan
import LetFn.Rules
import LetFn.Text.Decimal

namespace LetFn

/-- The level of an operator between two operands. The signs bind looser the earlier they stand here. -/
def TokenKind.level? : TokenKind → Option Power
  | eq | notEq => some .equality
  | lt | gt => some .order
  | plus | minus => some .sum
  | asterisk | slash => some .product
  | _ => none

/-- Whether a token of this kind makes a longer expression of the one before it. -/
def TokenKind.Continues (kind : TokenKind) : Prop :=
  kind = lparen ∨ kind.level?.isSome

instance (kind : TokenKind) : Decidable kind.Continues := inferInstanceAs (Decidable (_ ∨ _))

/-- The kind of the first of `tokens`, or the end of the source. -/
def nextKind : List Token → TokenKind
  | [] => .eof
  | token :: _ => token.kind

/-- How a statement ends: with a semicolon, or without one where no token follows that would make its
expression longer. -/
inductive Ended : List Token → List Token → Prop
  | semicolon {sign rest} : sign.kind = .semicolon → Ended (sign :: rest) rest
  | bare {rest} : ¬(nextKind rest).Continues → Ended rest rest

/-- What a stretch of tokens can stand for. The level of an expression is that of its outermost operator,
`call` where that is none. -/
inductive Phrase where
  | expression (level : Power) (value : Expr)
  | arguments (values : List Expr)
  | moreArguments (values : List Expr)
  | parameters (names : List Identifier)
  | moreParameters (names : List Identifier)
  | block (value : Block)
  | statement (value : Stmt)
  | statements (values : List Stmt)

/-- The grammar, by levels: `Reads phrase tokens rest` says that `phrase` is written at the front of `tokens`
and `rest` follows it. Arguments and parameters are read from behind the opening parenthesis up to the closing
one. Of a source it knows all tokens but the end, which is where no token is left. -/
inductive Reads : Phrase → List Token → List Token → Prop
  | identifier {token rest} : token.kind = .ident →
      Reads (.expression .call (.identifier (.ofToken token))) (token :: rest) rest
  | integer {token value rest} : token.kind = .int → Text.natural? token.literal.toList = some value →
      value ≤ 0x7fffffffffffffff → Reads (.expression .call (.integer token value)) (token :: rest) rest
  | boolean {token rest} : token.kind = .trueWord ∨ token.kind = .falseWord →
      Reads (.expression .call (.boolean token (token.kind = .trueWord))) (token :: rest) rest
  | group {left inner level tokens right rest} : left.kind = .lparen →
      Reads (.expression level inner) tokens (right :: rest) → right.kind = .rparen →
      Reads (.expression .call inner) (left :: tokens) rest
  | conditional {word left condition level tokens right between consequence rest} :
      word.kind = .ifWord → left.kind = .lparen →
      Reads (.expression level condition) tokens (right :: between) → right.kind = .rparen →
      Reads (.block consequence) between rest →
      Reads (.expression .call (.conditional word condition consequence none)) (word :: left :: tokens) rest
  | alternative {word left condition level tokens right between consequence other behind alternative rest} :
      word.kind = .ifWord → left.kind = .lparen →
      Reads (.expression level condition) tokens (right :: between) → right.kind = .rparen →
      Reads (.block consequence) between (other :: behind) → other.kind = .elseWord →
      Reads (.block alternative) behind rest →
      Reads (.expression .call (.conditional word condition consequence (some alternative)))
        (word :: left :: tokens) rest
  | function {word left names tokens between body rest} : word.kind = .fnWord → left.kind = .lparen →
      Reads (.parameters names) tokens between → Reads (.block body) between rest →
      Reads (.expression .call (.function word names body)) (word :: left :: tokens) rest
  | call {callee tokens left between arguments rest} :
      Reads (.expression .call callee) tokens (left :: between) → left.kind = .lparen →
      Reads (.arguments arguments) between rest →
      Reads (.expression .call (.call left callee arguments)) tokens rest
  | unary {sign level right tokens rest} : sign.kind = .bang ∨ sign.kind = .minus → .sign ≤ level →
      Reads (.expression level right) tokens rest →
      Reads (.expression .sign (.unary sign sign.literal right)) (sign :: tokens) rest
  | binary {sign level low left high right tokens between rest} : sign.kind.level? = some level →
      level ≤ low → Reads (.expression low left) tokens (sign :: between) →
      level < high → Reads (.expression high right) between rest →
      Reads (.expression level (.binary sign sign.literal left right)) tokens rest
  | noArguments {right rest} : right.kind = .rparen → Reads (.arguments []) (right :: rest) rest
  | someArguments {level first others tokens between rest} : Reads (.expression level first) tokens between →
      Reads (.moreArguments others) between rest → Reads (.arguments (first :: others)) tokens rest
  | lastArgument {right rest} : right.kind = .rparen → Reads (.moreArguments []) (right :: rest) rest
  | nextArgument {comma level first others tokens between rest} : comma.kind = .comma →
      Reads (.expression level first) tokens between → Reads (.moreArguments others) between rest →
      Reads (.moreArguments (first :: others)) (comma :: tokens) rest
  | noParameters {right rest} : right.kind = .rparen → Reads (.parameters []) (right :: rest) rest
  | someParameters {name others tokens rest} : name.kind = .ident → Reads (.moreParameters others) tokens rest →
      Reads (.parameters (.ofToken name :: others)) (name :: tokens) rest
  | lastParameter {right rest} : right.kind = .rparen → Reads (.moreParameters []) (right :: rest) rest
  | nextParameter {comma name others tokens rest} : comma.kind = .comma → name.kind = .ident →
      Reads (.moreParameters others) tokens rest →
      Reads (.moreParameters (.ofToken name :: others)) (comma :: name :: tokens) rest
  | closedBlock {left statements tokens right rest} : left.kind = .lbrace →
      Reads (.statements statements) tokens (right :: rest) → right.kind = .rbrace →
      Reads (.block (.mk left statements)) (left :: tokens) rest
  | openBlock {left statements tokens} : left.kind = .lbrace → Reads (.statements statements) tokens [] →
      Reads (.block (.mk left statements)) (left :: tokens) []
  | binding {word name sign level value tokens between rest} : word.kind = .letWord → name.kind = .ident →
      sign.kind = .assign → Reads (.expression level value) tokens between → Ended between rest →
      Reads (.statement (.binding word (.ofToken name) value)) (word :: name :: sign :: tokens) rest
  | result {word level value tokens between rest} : word.kind = .returnWord →
      Reads (.expression level value) tokens between → Ended between rest →
      Reads (.statement (.result word value)) (word :: tokens) rest
  | expression {first level value tokens between rest} :
      Reads (.expression level value) (first :: tokens) between → Ended between rest →
      Reads (.statement (.expression first value)) (first :: tokens) rest
  | noStatements {rest} : Reads (.statements []) rest rest
  | someStatements {first others tokens between rest} : Reads (.statement first) tokens between →
      Reads (.statements others) between rest → Reads (.statements (first :: others)) tokens rest

/-- `tokens` is a rendering of `program`: its statements, and then the end. -/
def Program.Rendering (program : Program) (tokens : List Token) : Prop :=
  ∃ body finish, tokens = body ++ [finish] ∧ finish.kind = .eof ∧ Reads (.statements program.statements) body []

end LetFn
