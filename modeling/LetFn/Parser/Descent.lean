import LetFn.Parser.Loops
import LetFn.Text.Decimal

namespace LetFn.Action

/-- The name at the next token, which has to be an identifier. -/
def parameter : Action Identifier := do
  expectPeek .ident
  let token ← current
  return .ofToken token

/-- Where a block ends. A source may end inside one. -/
def closesBlock (kind : TokenKind) : Bool :=
  kind = .rbrace || kind = .eof

mutual

/-- An expression, as far as its operators hold more tightly than `power`. -/
def expression (rules : Rules) : Nat → Power → Action Expr
  | 0, _ => throw .outOfFuel
  | fuel + 1, power => do
    let token ← current
    match rules.prefixRule token.kind with
    | none => failHere (.noPrefixRule token.kind)
    | some rule =>
      let left ← opening rules fuel rule
      climb rules (extension rules fuel) power fuel left

/-- An expression up to the first place where it may end, by the rule for its first token. -/
def opening (rules : Rules) : Nat → PrefixRule → Action Expr
  | 0, _ => throw .outOfFuel
  | _ + 1, .identifier => do
    let token ← current
    return .identifier (.ofToken token)
  | _ + 1, .integer => do
    let token ← current
    match Text.integer64? token.literal with
    | none => failHere (.integerRange token.literal)
    | some value => return .integer token value
  | _ + 1, .boolean => do
    let token ← current
    return .boolean token (token.kind = .trueWord)
  | fuel + 1, .operator => do
    let token ← current
    advance
    let right ← expression rules fuel .sign
    return .unary token token.literal right
  | fuel + 1, .group => do
    advance
    let inner ← expression rules fuel .lowest
    expectPeek .rparen
    return inner
  | fuel + 1, .conditional => do
    let token ← current
    expectPeek .lparen
    advance
    let condition ← expression rules fuel .lowest
    expectPeek .rparen
    expectPeek .lbrace
    let consequence ← block rules fuel
    let next ← peek
    if next.kind = .elseWord then
      advance
      expectPeek .lbrace
      let alternative ← block rules fuel
      return .conditional token condition consequence (some alternative)
    else
      return .conditional token condition consequence none
  | fuel + 1, .function => do
    let token ← current
    expectPeek .lparen
    let parameters ← closedItems parameter fuel
    expectPeek .lbrace
    let body ← block rules fuel
    return .function token parameters body

/-- `left` with what the current token adds to it, by the rule for that token. -/
def extension (rules : Rules) : Nat → InfixRule → Expr → Power → Action Expr
  | 0, _, _, _ => throw .outOfFuel
  | fuel + 1, .operator, left, power => do
    let token ← current
    advance
    let right ← expression rules fuel power
    return .binary token token.literal left right
  | fuel + 1, .call, left, _ => do
    let token ← current
    let arguments ← closedItems (do advance; expression rules fuel .lowest) fuel
    return .call token left arguments

/-- A block, from its opening brace to its end. -/
def block (rules : Rules) : Nat → Action Block
  | 0 => throw .outOfFuel
  | fuel + 1 => do
    let token ← current
    advance
    let body ← statements closesBlock (statement rules fuel .dispatch) fuel
    return .mk token body

/-- A statement by the given rule. A token without a statement rule starts an expression. -/
def statement (rules : Rules) : Nat → StatementRule → Action Stmt
  | 0, _ => throw .outOfFuel
  | fuel + 1, .binding => do
    let token ← current
    let name ← parameter
    expectPeek .assign
    advance
    let value ← expression rules fuel .lowest
    skipSemicolon
    return .binding token name value
  | fuel + 1, .result => do
    let token ← current
    advance
    let value ← expression rules fuel .lowest
    skipSemicolon
    return .result token value
  | fuel + 1, .expression => do
    let token ← current
    let value ← expression rules fuel .lowest
    skipSemicolon
    return .expression token value
  | fuel + 1, .block => do
    let body ← block rules fuel
    return .block body
  | fuel + 1, .dispatch => do
    let token ← current
    statement rules fuel ((rules.statementRule token.kind).getD .expression)

end

variable {rules : Rules} {state : ParseState} {fuel : Nat} {power : Power}

theorem expression_of_no_rule (found : rules.prefixRule state.current.kind = none) :
    expression rules (fuel + 1) power state = failHere (.noPrefixRule state.current.kind) state := by
  rw [expression, bind_current, found]

theorem expression_of_rule {rule : PrefixRule} (found : rules.prefixRule state.current.kind = some rule) :
    expression rules (fuel + 1) power state =
      (opening rules fuel rule >>= climb rules (extension rules fuel) power fuel) state := by
  rw [expression, bind_current, found]

theorem opening_integer_of_none (wide : Text.integer64? state.current.literal = none) :
    opening rules (fuel + 1) .integer state = failHere (.integerRange state.current.literal) state := by
  rw [opening, bind_current, wide]

theorem opening_integer_of_some {value : Int} (fits : Text.integer64? state.current.literal = some value) :
    opening rules (fuel + 1) .integer state = .ok (.integer state.current value) state := by
  rw [opening, bind_current, fits]
  rfl

/-- All statements up to the end of the source. -/
def program (rules : Rules) (fuel : Nat) : Action Program := do
  let body ← statements (· = .eof) (statement rules fuel .dispatch) fuel
  return ⟨body⟩

end LetFn.Action
