import LetFn.Parse
import LetFn.Proofs.Tree.Respan

namespace LetFn

def TokenStream.respan (move : Motion) (stream : TokenStream) : TokenStream :=
  ⟨stream.ahead.map (Token.respan move), (move.apply ⟨stream.finish, stream.finish⟩).start⟩

/-- Where a text is read: how its places are moved, and what a parser had on record before it. -/
structure Placement where
  move : Motion
  errors : List Diagnostic
  rounds : Nat

/-- The text by itself, with its places moved. -/
def Motion.alone (move : Motion) : Placement :=
  ⟨move, [], 0⟩

def ParseState.place (site : Placement) (state : ParseState) : ParseState :=
  ⟨state.stream.respan site.move, site.errors ++ state.errors.map (Diagnostic.respan site.move),
    site.rounds + state.rounds⟩

theorem TokenStream.endToken_respan (move : Motion) (stream : TokenStream) :
    (stream.respan move).endToken = stream.endToken.respan move := by
  have empty := move.empty stream.finish
  simp only [endToken, respan, Token.respan, Token.mk.injEq, true_and]
  rw [← congrArg (Span.mk _) empty]

theorem TokenStream.current_respan (move : Motion) (stream : TokenStream) :
    (stream.respan move).current = stream.current.respan move := by
  unfold current
  rw [endToken_respan]
  cases stream with
  | mk ahead finish => cases ahead <;> rfl

theorem TokenStream.advance_respan (move : Motion) (stream : TokenStream) :
    (stream.respan move).advance = stream.advance.respan move := by
  simp only [advance, respan, List.map_tail]

namespace ParseState

variable (site : Placement) (state : ParseState)

theorem current_place : (state.place site).current = state.current.respan site.move :=
  state.stream.current_respan site.move

theorem advance_place : (state.place site).advance = state.advance.place site := by
  simp only [advance, place, TokenStream.advance_respan]

theorem peek_place : (state.place site).peek = state.peek.respan site.move := by
  have next := state.advance.current_place site
  rwa [← advance_place] at next

theorem record_place (diagnostic : Diagnostic) :
    (state.place site).record (diagnostic.respan site.move) = (state.record diagnostic).place site := by
  simp only [record, place, List.map_append, List.map_cons, List.map_nil, List.append_assoc]

theorem problemHere_place (problem : Problem) :
    (state.place site).problemHere problem = (state.problemHere problem).respan site.move := by
  simp only [problemHere, current_place, Diagnostic.respan, Token.respan]

theorem unexpectedPeek_place (expected : TokenKind) :
    (state.place site).unexpectedPeek expected = (state.unexpectedPeek expected).respan site.move := by
  simp only [unexpectedPeek, peek_place, Diagnostic.respan, Token.respan]

theorem fuel_place : (state.place site).fuel = state.fuel := by
  simp only [fuel, remaining, place, TokenStream.respan, List.length_map]

end ParseState

namespace Action

variable {α β : Type} {site : Placement}

/-- What a run comes to, with everything at other places. -/
def placeResult (site : Placement) (shape : α → α) :
    EStateM.Result Stop ParseState α → EStateM.Result Stop ParseState α
  | .ok value later => .ok (shape value) (later.place site)
  | .error (.problem diagnostic) later => .error (.problem (diagnostic.respan site.move)) (later.place site)
  | .error .outOfFuel later => .error .outOfFuel (later.place site)

/-- `moved` does over tokens at other places what `action` does over them where they are. Spans are carried
along and never looked at, and no more is what was on record before. -/
def Moves (site : Placement) (shape : α → α) (action moved : Action α) : Prop :=
  ∀ state, moved (state.place site) = placeResult site shape (action state)

theorem moves_pure (shape : α → α) {value moved : α} (same : moved = shape value) :
    Moves site shape (pure value) (pure moved) := by
  subst same
  exact fun _ => rfl

theorem moves_outOfFuel (shape : α → α) : Moves site shape (throw .outOfFuel) (throw .outOfFuel) :=
  fun _ => rfl

theorem moves_failHere (shape : α → α) (problem : Problem) :
    Moves site shape (failHere problem) (failHere problem) := by
  intro state
  simp only [failHere, ParseState.problemHere_place, placeResult]

theorem Moves.bind {shape : α → α} {shape' : β → β} {first first' : Action α} {next next' : α → Action β}
    (moves : Moves site shape first first')
    (continues : ∀ value, Moves site shape' (next value) (next' (shape value))) :
    Moves site shape' (first >>= next) (first' >>= next') := by
  intro state
  have start := moves state
  cases run : first state with
  | ok value later =>
    rw [run] at start
    rw [bind_of_ok run, bind_of_ok start]
    exact continues value later
  | error stop later =>
    rw [run] at start
    cases stop with
    | problem diagnostic => rw [bind_of_error run, bind_of_error start]; rfl
    | outOfFuel => rw [bind_of_error run, bind_of_error start]; rfl

theorem moves_current {shape : α → α} {next next' : Token → Action α}
    (continues : ∀ token, Moves site shape (next token) (next' (token.respan site.move))) :
    Moves site shape (current >>= next) (current >>= next') := by
  intro state
  rw [bind_current, bind_current, ParseState.current_place]
  exact continues _ _

theorem moves_peek {shape : α → α} {next next' : Token → Action α}
    (continues : ∀ token, Moves site shape (next token) (next' (token.respan site.move))) :
    Moves site shape (peek >>= next) (peek >>= next') := by
  intro state
  rw [bind_peek, bind_peek, ParseState.peek_place]
  exact continues _ _

theorem moves_advance : Moves site id advance advance := by
  intro state
  simp only [advance, ParseState.advance_place, placeResult, id]

theorem moves_countRound : Moves site id countRound countRound :=
  fun _ => rfl

theorem moves_expectPeek (expected : TokenKind) : Moves site id (expectPeek expected) (expectPeek expected) := by
  intro state
  have kind : (state.place site).peek.kind = state.peek.kind := by rw [ParseState.peek_place]; rfl
  by_cases there : state.peek.kind = expected
  · rw [expectPeek_of_eq there, expectPeek_of_eq (kind.trans there), ParseState.advance_place]
    rfl
  · rw [expectPeek_of_ne there, expectPeek_of_ne (fun same => there (kind.symm.trans same)),
      ParseState.unexpectedPeek_place]
    rfl

theorem moves_skipSemicolon : Moves site id skipSemicolon skipSemicolon := by
  intro state
  unfold skipSemicolon
  rw [ParseState.peek_place, Token.respan_kind, ParseState.advance_place]
  by_cases there : state.peek.kind = .semicolon
  · rw [if_pos there, if_pos there]
    rfl
  · rw [if_neg there, if_neg there]
    rfl

theorem Moves.ite {condition : Prop} [Decidable condition] {shape : α → α} {yes yes' no no' : Action α}
    (first : Moves site shape yes yes') (second : Moves site shape no no') :
    Moves site shape (if condition then yes else no) (if condition then yes' else no') := by
  by_cases holds : condition
  · rw [if_pos holds, if_pos holds]
    exact first
  · rw [if_neg holds, if_neg holds]
    exact second

theorem Moves.orRecord {shape : α → α} {action moved : Action α} (moves : Moves site shape action moved) :
    Moves site (Option.map shape) (orRecord action) (orRecord moved) := by
  intro state
  unfold Action.orRecord
  rw [moves state]
  cases action state with
  | ok value later => rfl
  | error stop later =>
    cases stop with
    | problem diagnostic =>
      simp only [placeResult, ParseState.record_place, Option.map_none]
    | outOfFuel => rfl

theorem Moves.commaItems {shape : α → α} {item item' : Action α} (moves : Moves site shape item item') (fuel : Nat) :
    Moves site (List.map shape) (commaItems item fuel) (commaItems item' fuel) := by
  induction fuel with
  | zero => exact moves_outOfFuel _
  | succ fuel ih =>
    refine moves_peek fun next => Moves.ite ?_ (moves_pure _ rfl)
    exact moves_advance.bind fun _ => moves.bind fun first => ih.bind fun others => moves_pure _ rfl

theorem Moves.closedItems {shape : α → α} {item item' : Action α} (moves : Moves site shape item item')
    (fuel : Nat) : Moves site (List.map shape) (closedItems item fuel) (closedItems item' fuel) := by
  refine moves_peek fun next => Moves.ite (moves_advance.bind fun _ => moves_pure _ rfl) ?_
  exact moves.bind fun first => (moves.commaItems fuel).bind fun others =>
    (moves_expectPeek .rparen).bind fun _ => moves_pure _ rfl

theorem Moves.statements (closes : TokenKind → Bool) {statement statement' : Action Stmt}
    (moves : Moves site (Stmt.respan site.move) statement statement') (fuel : Nat) :
    Moves site (respanStmts site.move) (statements closes statement fuel) (statements closes statement' fuel) := by
  induction fuel with
  | zero => exact moves_outOfFuel _
  | succ fuel ih =>
    refine moves_current fun token => Moves.ite (moves_pure _ rfl) ?_
    refine moves_countRound.bind fun _ => moves.orRecord.bind fun first => moves_advance.bind fun _ => ?_
    refine ih.bind fun others => moves_pure _ ?_
    rw [respanStmts_append]
    cases first <;> rfl

theorem Moves.climb {rules : Rules} {grow : InfixRule → Expr → Power → Action Expr} {power : Power}
    (moves : ∀ rule left power,
      Moves site (Expr.respan site.move) (grow rule left power) (grow rule (left.respan site.move) power))
    (fuel : Nat) : ∀ left, Moves site (Expr.respan site.move) (climb rules grow power fuel left)
      (climb rules grow power fuel (left.respan site.move)) := by
  induction fuel with
  | zero => exact fun _ => moves_outOfFuel _
  | succ fuel ih =>
    intro left
    refine moves_peek fun next => Moves.ite ?_ (moves_pure _ rfl)
    simp only [Token.respan_kind]
    cases rules.infixRule next.kind with
    | none => exact moves_pure _ rfl
    | some rule =>
      exact moves_advance.bind fun _ => moves_current fun token =>
        (moves rule left _).bind fun grown => ih grown

/-- No routine looks at a span. -/
structure Movable (rules : Rules) (site : Placement) (fuel : Nat) : Prop where
  expression : ∀ power,
    Moves site (Expr.respan site.move) (Action.expression rules fuel power) (Action.expression rules fuel power)
  opening : ∀ rule,
    Moves site (Expr.respan site.move) (Action.opening rules fuel rule) (Action.opening rules fuel rule)
  extension : ∀ rule left power, Moves site (Expr.respan site.move) (Action.extension rules fuel rule left power)
    (Action.extension rules fuel rule (left.respan site.move) power)
  block : Moves site (Block.respan site.move) (Action.block rules fuel) (Action.block rules fuel)
  statement : ∀ rule,
    Moves site (Stmt.respan site.move) (Action.statement rules fuel rule) (Action.statement rules fuel rule)

variable {rules : Rules} {fuel : Nat}

theorem moves_parameter : Moves site (Identifier.respan site.move) parameter parameter :=
  (moves_expectPeek .ident).bind fun _ => moves_current fun _ => moves_pure _ rfl

theorem Movable.expression_succ (less : Movable rules site fuel) (power : Power) :
    Moves site (Expr.respan site.move) (Action.expression rules (fuel + 1) power)
      (Action.expression rules (fuel + 1) power) := by
  refine moves_current fun token => ?_
  simp only [Token.respan_kind]
  cases rules.prefixRule token.kind with
  | none => exact moves_failHere _ _
  | some rule => exact (less.opening rule).bind fun left => Moves.climb less.extension fuel left

theorem Movable.conditional_succ (less : Movable rules site fuel) :
    Moves site (Expr.respan site.move) (Action.opening rules (fuel + 1) .conditional)
      (Action.opening rules (fuel + 1) .conditional) := by
  refine moves_current fun token => (moves_expectPeek _).bind fun _ => moves_advance.bind fun _ => ?_
  refine (less.expression .lowest).bind fun condition => (moves_expectPeek _).bind fun _ => ?_
  refine (moves_expectPeek _).bind fun _ => less.block.bind fun consequence => moves_peek fun next => ?_
  refine Moves.ite ?_ (moves_pure _ rfl)
  exact moves_advance.bind fun _ => (moves_expectPeek _).bind fun _ =>
    less.block.bind fun alternative => moves_pure _ rfl

theorem Movable.opening_succ (less : Movable rules site fuel) (rule : PrefixRule) :
    Moves site (Expr.respan site.move) (Action.opening rules (fuel + 1) rule)
      (Action.opening rules (fuel + 1) rule) := by
  cases rule with
  | identifier => exact moves_current fun token => moves_pure _ rfl
  | integer =>
    refine moves_current fun token => ?_
    simp only [Token.respan_literal]
    cases Text.integer64? token.literal with
    | none => exact moves_failHere _ _
    | some value => exact moves_pure _ rfl
  | boolean => exact moves_current fun token => moves_pure _ rfl
  | operator =>
    exact moves_current fun token => moves_advance.bind fun _ =>
      (less.expression .sign).bind fun right => moves_pure _ rfl
  | group =>
    exact moves_advance.bind fun _ => (less.expression .lowest).bind fun inner =>
      (moves_expectPeek _).bind fun _ => moves_pure _ rfl
  | conditional => exact less.conditional_succ
  | function =>
    refine moves_current fun token => (moves_expectPeek _).bind fun _ => ?_
    refine (moves_parameter.closedItems fuel).bind fun parameters => (moves_expectPeek _).bind fun _ => ?_
    exact less.block.bind fun body => moves_pure _ rfl

theorem Movable.extension_succ (less : Movable rules site fuel) (rule : InfixRule) (left : Expr) (power : Power) :
    Moves site (Expr.respan site.move) (Action.extension rules (fuel + 1) rule left power)
      (Action.extension rules (fuel + 1) rule (left.respan site.move) power) := by
  cases rule with
  | operator =>
    exact moves_current fun token => moves_advance.bind fun _ =>
      (less.expression power).bind fun right => moves_pure _ rfl
  | call =>
    have item : Moves site (Expr.respan site.move) (do advance; Action.expression rules fuel .lowest)
        (do advance; Action.expression rules fuel .lowest) := moves_advance.bind fun _ => less.expression .lowest
    refine moves_current fun token => (item.closedItems fuel).bind fun arguments => moves_pure _ ?_
    rw [Expr.respan, respanExprs_eq_map]

theorem Movable.block_succ (less : Movable rules site fuel) :
    Moves site (Block.respan site.move) (Action.block rules (fuel + 1)) (Action.block rules (fuel + 1)) :=
  moves_current fun _ => moves_advance.bind fun _ =>
    ((less.statement .dispatch).statements _ fuel).bind fun _ => moves_pure _ rfl

theorem Movable.statement_succ (less : Movable rules site fuel) (rule : StatementRule) :
    Moves site (Stmt.respan site.move) (Action.statement rules (fuel + 1) rule)
      (Action.statement rules (fuel + 1) rule) := by
  cases rule with
  | binding =>
    refine moves_current fun token => moves_parameter.bind fun name => (moves_expectPeek _).bind fun _ => ?_
    exact moves_advance.bind fun _ => (less.expression .lowest).bind fun value =>
      moves_skipSemicolon.bind fun _ => moves_pure _ rfl
  | result =>
    exact moves_current fun token => moves_advance.bind fun _ => (less.expression .lowest).bind fun value =>
      moves_skipSemicolon.bind fun _ => moves_pure _ rfl
  | expression =>
    exact moves_current fun token => (less.expression .lowest).bind fun value =>
      moves_skipSemicolon.bind fun _ => moves_pure _ rfl
  | block => exact less.block.bind fun body => moves_pure _ rfl
  | dispatch => exact moves_current fun token => less.statement _

theorem movable (rules : Rules) (site : Placement) (fuel : Nat) : Movable rules site fuel := by
  induction fuel with
  | zero =>
    exact ⟨fun _ => moves_outOfFuel _, fun _ => moves_outOfFuel _, fun _ _ _ => moves_outOfFuel _,
      moves_outOfFuel _, fun _ => moves_outOfFuel _⟩
  | succ fuel less =>
    exact ⟨less.expression_succ, less.opening_succ, less.extension_succ, less.block_succ, less.statement_succ⟩

/-- Tokens at other places make the same program and the same complaints, at those places and behind those that
there were. -/
theorem moves_program (rules : Rules) (site : Placement) (fuel : Nat) :
    Moves site (Program.respan site.move) (program rules fuel) (program rules fuel) := by
  intro state
  have body := ((movable rules site fuel).statement .dispatch).statements (· = .eof) fuel state
  cases run : Action.statements (· = .eof) (statement rules fuel .dispatch) fuel state with
  | ok values later =>
    rw [run] at body
    rw [program, bind_of_ok run, bind_of_ok body]
    rfl
  | error stop later =>
    rw [run] at body
    cases stop with
    | problem diagnostic => rw [program, bind_of_error run, bind_of_error body]; rfl
    | outOfFuel => rw [program, bind_of_error run, bind_of_error body]; rfl

end Action

end LetFn
