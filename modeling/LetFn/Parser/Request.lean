import LetFn.Parse

namespace LetFn

/-- A parser in use, with rules of any kind. -/
structure OpenParser (ι κ σ : Type) where
  rules : Tables ι κ σ
  state : ParseState
deriving Inhabited

namespace OpenParser

variable {ι κ σ : Type}

/-- The power of the current token between operands. -/
def currentPower (parser : OpenParser ι κ σ) : Power :=
  parser.rules.power parser.state.current.kind

/-- The power of the next token between operands. -/
def peekPower (parser : OpenParser ι κ σ) : Power :=
  parser.rules.power parser.state.peek.kind

end OpenParser

/-- A parser with the built-in rules, which may be changed between requests. -/
abbrev Parser := OpenParser PrefixRule InfixRule StatementRule

/-- What can be asked of a parser. -/
inductive Request where
  | advance
  | expectPeek (kind : TokenKind)
  | record (diagnostic : Diagnostic)
  | setPrefix (kind : TokenKind) (rule : PrefixRule)
  | setInfix (kind : TokenKind) (power : Power) (rule : InfixRule)
  | setStatement (kind : TokenKind) (rule : StatementRule)
  | opening (rule : PrefixRule)
  | extension (rule : InfixRule) (left : Expr) (power : Power)
  | expression (power : Power)
  | statement (rule : StatementRule)
  | block
  | program

/-- What a request that succeeds gives. -/
inductive Reply where
  | done
  | expression (value : Expr)
  | statement (value : Stmt)
  | block (value : Block)
  | program (value : Program)

namespace Parser

/-- A parser at the start of `stream` with the rules of the language. -/
def start (stream : TokenStream) : Parser :=
  ⟨Rules.standard, .start stream⟩

/-- Lets `action` go on from where the parser is. -/
def run {α : Type} (action : Action α) (parser : Parser) : Except Stop α × Parser :=
  match action parser.state with
  | .ok value state => (.ok value, { parser with state })
  | .error stop state => (.error stop, { parser with state })

variable {α : Type} {action : Action α} {parser : Parser} {later : ParseState}

theorem run_of_ok {value : α} (wrap : α → Reply) (done : action parser.state = .ok value later) :
    parser.run (wrap <$> action) = (.ok (wrap value), { parser with state := later }) := by
  have mapped : (wrap <$> action) parser.state = EStateM.map wrap action parser.state := rfl
  rw [run, mapped, EStateM.map, done]

theorem run_of_error {stop : Stop} (wrap : α → Reply) (done : action parser.state = .error stop later) :
    parser.run (wrap <$> action) = (.error stop, { parser with state := later }) := by
  have mapped : (wrap <$> action) parser.state = EStateM.map wrap action parser.state := rfl
  rw [run, mapped, EStateM.map, done]

/-- Does what is asked, with the given fuel. A request that fails may have moved the parser all the same, and its
diagnostic is not recorded. -/
def performWithin (fuel : Nat) (request : Request) (parser : Parser) : Except Stop Reply × Parser :=
  match request with
  | .advance => parser.run (do Action.advance; return .done)
  | .expectPeek kind => parser.run (do Action.expectPeek kind; return .done)
  | .record diagnostic => (.ok .done, { parser with state := parser.state.record diagnostic })
  | .setPrefix kind rule => (.ok .done, { parser with rules := parser.rules.setPrefix kind rule })
  | .setInfix kind power rule => (.ok .done, { parser with rules := parser.rules.setInfix kind power rule })
  | .setStatement kind rule => (.ok .done, { parser with rules := parser.rules.setStatement kind rule })
  | .opening rule => parser.run (Reply.expression <$> Action.opening parser.rules fuel rule)
  | .extension rule left power =>
    parser.run (Reply.expression <$> Action.extension parser.rules fuel rule left power)
  | .expression power => parser.run (Reply.expression <$> Action.expression parser.rules fuel power)
  | .statement rule => parser.run (Reply.statement <$> Action.statement parser.rules fuel rule)
  | .block => parser.run (Reply.block <$> Action.block parser.rules fuel)
  | .program => parser.run (Reply.program <$> Action.program parser.rules fuel)

/-- Does what is asked, with as much fuel as it may need. -/
def perform (request : Request) (parser : Parser) : Except Stop Reply × Parser :=
  parser.performWithin parser.state.fuel request

end Parser

end LetFn
