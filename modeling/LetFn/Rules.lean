import LetFn.Token

namespace LetFn

/-- How tightly an operator holds its operands, from the loosest to the tightest. -/
inductive Power where
  | lowest
  | equality
  | order
  | sum
  | product
  | sign
  | call
deriving DecidableEq, Inhabited

/-- The place of a power among the seven. -/
def Power.rank : Power → Nat
  | lowest => 0
  | equality => 1
  | order => 2
  | sum => 3
  | product => 4
  | sign => 5
  | call => 6

instance : LT Power := ⟨fun a b => a.rank < b.rank⟩

instance : LE Power := ⟨fun a b => a.rank ≤ b.rank⟩

instance (a b : Power) : Decidable (a < b) := inferInstanceAs (Decidable (a.rank < b.rank))

instance (a b : Power) : Decidable (a ≤ b) := inferInstanceAs (Decidable (a.rank ≤ b.rank))

/-- How to read an expression from its first token. -/
inductive PrefixRule where
  | identifier
  | integer
  | boolean
  | operator
  | group
  | conditional
  | function
deriving DecidableEq, Inhabited

/-- How to read on from an expression at the token after it. -/
inductive InfixRule where
  | operator
  | call
deriving DecidableEq, Inhabited

/-- How to read a statement from its first token. `dispatch` is to look the rule up by that token. -/
inductive StatementRule where
  | binding
  | result
  | expression
  | block
  | dispatch
deriving DecidableEq, Inhabited

/-- The tables that a parser is driven by: a rule for each kind of token that has a part to play. The power of what
may follow an expression stands in a table of its own. The rules stand there by name: `ι` has the names of those for the
start of an expression, `κ` of those for what follows one and `σ` of those for statements. -/
structure Tables (ι κ σ : Type) where
  prefixRule : TokenKind → Option ι
  infixRule : TokenKind → Option κ
  infixPower : TokenKind → Option Power
  statementRule : TokenKind → Option σ
deriving Inhabited

namespace Tables

variable {ι κ σ : Type}

/-- The power of a token between operands. One that has none registered holds nothing. -/
def power (tables : Tables ι κ σ) (kind : TokenKind) : Power :=
  (tables.infixPower kind).getD .lowest

/-- The tables with `rule` for expressions that start with a `kind` token. Its power stays. -/
def setPrefix (kind : TokenKind) (rule : ι) (tables : Tables ι κ σ) : Tables ι κ σ :=
  { tables with prefixRule := fun k => if k = kind then some rule else tables.prefixRule k }

/-- The tables with `rule` of the given power for a `kind` token after an expression. -/
def setInfix (kind : TokenKind) (power : Power) (rule : κ) (tables : Tables ι κ σ) : Tables ι κ σ :=
  { tables with
    infixRule := fun k => if k = kind then some rule else tables.infixRule k
    infixPower := fun k => if k = kind then some power else tables.infixPower k }

/-- The tables with `rule` for statements that start with a `kind` token. -/
def setStatement (kind : TokenKind) (rule : σ) (tables : Tables ι κ σ) : Tables ι κ σ :=
  { tables with statementRule := fun k => if k = kind then some rule else tables.statementRule k }

/-- Nothing in any table. -/
def empty : Tables ι κ σ :=
  ⟨fun _ => none, fun _ => none, fun _ => none, fun _ => none⟩

end Tables

/-- The tables of a parser that has no rules but those that are built in. -/
abbrev Rules := Tables PrefixRule InfixRule StatementRule

/-- The rules of the language. -/
def Rules.standard : Rules :=
  Tables.empty
    |>.setInfix .eq .equality .operator
    |>.setInfix .notEq .equality .operator
    |>.setInfix .lt .order .operator
    |>.setInfix .gt .order .operator
    |>.setInfix .plus .sum .operator
    |>.setInfix .minus .sum .operator
    |>.setInfix .asterisk .product .operator
    |>.setInfix .slash .product .operator
    |>.setInfix .lparen .call .call
    |>.setPrefix .ident .identifier
    |>.setPrefix .int .integer
    |>.setPrefix .trueWord .boolean
    |>.setPrefix .falseWord .boolean
    |>.setPrefix .bang .operator
    |>.setPrefix .minus .operator
    |>.setPrefix .lparen .group
    |>.setPrefix .ifWord .conditional
    |>.setPrefix .fnWord .function
    |>.setStatement .letWord .binding
    |>.setStatement .returnWord .result

end LetFn
