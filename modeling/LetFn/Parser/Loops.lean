import LetFn.Parser.State

namespace LetFn.Action

variable {α : Type}

/-- Reads items for as long as a comma is next. -/
def commaItems (item : Action α) : Nat → Action (List α)
  | 0 => throw .outOfFuel
  | fuel + 1 => do
    let next ← peek
    if next.kind = .comma then
      advance
      let first ← item
      let others ← commaItems item fuel
      return first :: others
    else
      return []

/-- Reads items with commas between them, up to the closing parenthesis. -/
def closedItems (item : Action α) (fuel : Nat) : Action (List α) := do
  let next ← peek
  if next.kind = .rparen then
    advance
    return []
  else
    let first ← item
    let others ← commaItems item fuel
    expectPeek .rparen
    return first :: others

/-- Reads statements up to a token that `closes` them. One that cannot be read is recorded and left out, and
the next one starts at the token after the place where that became clear. -/
def statements (closes : TokenKind → Bool) (statement : Action Stmt) : Nat → Action (List Stmt)
  | 0 => throw .outOfFuel
  | fuel + 1 => do
    let token ← current
    if closes token.kind then
      return []
    else
      countRound
      let first ← orRecord statement
      advance
      let others ← statements closes statement fuel
      return first.toList ++ others

/-- Lets `left` grow by whatever follows it and holds it more tightly than `power`. A semicolon always
ends an expression. -/
def climb (rules : Rules) (grow : InfixRule → Expr → Power → Action Expr) (power : Power) :
    Nat → Expr → Action Expr
  | 0, _ => throw .outOfFuel
  | fuel + 1, left => do
    let next ← peek
    if next.kind ≠ .semicolon ∧ power < rules.power next.kind then
      match rules.infixRule next.kind with
      | none => return left
      | some rule =>
        advance
        let token ← current
        let grown ← grow rule left (rules.power token.kind)
        climb rules grow power fuel grown
    else
      return left

end LetFn.Action
