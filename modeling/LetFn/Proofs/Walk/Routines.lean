import LetFn.Parser.Descent
import LetFn.Proofs.Parser.Invariant
import LetFn.Proofs.Walk.Steps

namespace LetFn.Action

variable {α : Type} {rules : Rules} {origin state : ParseState} {free : Bool}

/-- A run of `action` from `state` carries on a walk from `origin`, and what it gives up with is a complaint that can be
made where it does. -/
abbrev Walks (rules : Rules) (origin : ParseState) (free : Bool) (action : Action α) (state : ParseState) : Prop :=
  action.ComesTo True (fun _ later => origin.Walk rules free later false)
    (fun diagnostic later => origin.Walk rules free later false ∧ later.Complains rules diagnostic) state

theorem walks_failHere {problem : Problem} (walk : origin.Walk rules free state false)
    (concerns : problem.Concerns rules state.current) : (failHere problem : Action α).Walks rules origin free state :=
  comes_failHere ⟨walk, state.current, .inl rfl, rfl, concerns⟩

theorem walks_expectPeek {expected : TokenKind} {next : Unit → Action α} (walk : origin.Walk rules free state false)
    (continues : origin.Walk rules free state.advance false → (next ()).Walks rules origin free state.advance) :
    (expectPeek expected >>= next).Walks rules origin free state :=
  comes_expectPeek (fun other => ⟨walk, state.peek, .inr rfl, rfl, rfl, other⟩) fun _ => continues walk.further

theorem walks_skipSemicolon {value : α} (walk : origin.Walk rules free state false) :
    (skipSemicolon >>= fun _ => pure value).Walks rules origin free state := by
  refine comes_skipSemicolon fun later place => comes_pure ?_
  rcases place with rfl | rfl
  · exact walk
  · exact walk.further

theorem walks_closedItems {item : Action α}
    (walks : ∀ state, origin.Walk rules free state false → item.Walks rules origin free state) (fuel : Nat)
    (walk : origin.Walk rules free state false) : (closedItems item fuel).Walks rules origin free state :=
  comes_closedItems (fun _ _ walk => walk.further) (fun _ => walks)
    (fun _ state other walk => ⟨walk, state.peek, .inr rfl, rfl, rfl, other⟩) fuel walk

/-- A statement loop comes to a token that closes it and that no turn has been taken at. -/
theorem walks_statements {closes : TokenKind → Bool} {statement : Action Stmt}
    {bad : Diagnostic → ParseState → Prop} (eof_closes : closes .eof = true)
    (walks : ∀ state, origin.Walk rules free state false → statement.Walks rules origin free state) (fuel : Nat)
    (walk : origin.Walk rules free state true) : (statements closes statement fuel).ComesTo True
      (fun _ later => origin.Walk rules free later true ∧ closes later.current.kind = true) bad state := by
  refine comes_statements (fun _ state => origin.Walk rules free state true) (fun _ state unclosed walk => ?_) fuel []
    state walk
  have here : state.current.kind ≠ .eof := by
    intro eof
    rw [eof, eof_closes] at unclosed
    cases unclosed
  exact (walks state.countRound (.turn walk here)).mono (fun _ _ walk => .advance walk) fun _ _ failed =>
    .recover failed.1 failed.2

/-- No routine does anything but walk. The rule for numbers is asked for where it stands, because it complains of
the token that it is called at. -/
structure Walking (rules : Rules) (origin : ParseState) (free : Bool) (fuel : Nat) : Prop where
  expression : ∀ power state, origin.Walk rules free state false →
    (Action.expression rules fuel power).Walks rules origin free state
  opening : ∀ rule state, (rule = .integer → rules.prefixRule state.current.kind = some .integer) →
    origin.Walk rules free state false → (Action.opening rules fuel rule).Walks rules origin free state
  extension : ∀ rule left power state, origin.Walk rules free state false →
    (Action.extension rules fuel rule left power).Walks rules origin free state
  block : ∀ state, origin.Walk rules free state false → (Action.block rules fuel).Walks rules origin free state
  statement : ∀ rule state, origin.Walk rules free state false →
    (Action.statement rules fuel rule).Walks rules origin free state

variable {fuel : Nat}

theorem walks_parameter (walk : origin.Walk rules free state false) : parameter.Walks rules origin free state :=
  walks_expectPeek walk fun further => comes_current (comes_pure further)

theorem Walking.expression_succ (less : Walking rules origin free fuel) (power : Power) (state : ParseState)
    (walk : origin.Walk rules free state false) :
    (Action.expression rules (fuel + 1) power).Walks rules origin free state := by
  cases found : rules.prefixRule state.current.kind with
  | none => exact .of_eq (expression_of_no_rule found) (walks_failHere walk ⟨rfl, found⟩)
  | some rule =>
    refine .of_eq (expression_of_rule found) ((less.opening rule state ?_ walk).bind fun left later one => ?_)
    · rintro rfl
      exact found
    · refine comes_climb (fun rule left power state _ walk => ?_) fuel left later one
      exact less.extension rule left power state.advance walk.further

theorem Walking.conditional_succ (less : Walking rules origin free fuel) (state : ParseState)
    (walk : origin.Walk rules free state false) :
    (Action.opening rules (fuel + 1) .conditional).Walks rules origin free state := by
  refine comes_current (walks_expectPeek walk fun paren => comes_advance ?_)
  refine (less.expression _ _ paren.further).bind fun condition first one => ?_
  refine walks_expectPeek one fun paren => walks_expectPeek paren fun brace => ?_
  refine (less.block _ brace).bind fun consequence second two => ?_
  refine comes_peek (.ite (fun _ => comes_advance ?_) fun _ => comes_pure two)
  refine walks_expectPeek two.further fun brace => ?_
  exact (less.block _ brace).bind fun alternative last three => comes_pure three

theorem Walking.opening_succ (less : Walking rules origin free fuel) (rule : PrefixRule) (state : ParseState)
    (number : rule = .integer → rules.prefixRule state.current.kind = some .integer)
    (walk : origin.Walk rules free state false) :
    (Action.opening rules (fuel + 1) rule).Walks rules origin free state := by
  cases rule with
  | identifier => exact comes_current (comes_pure walk)
  | integer =>
    cases value : Text.integer64? state.current.literal with
    | none => exact .of_eq (opening_integer_of_none value) (walks_failHere walk ⟨number rfl, rfl, value⟩)
    | some found => exact .of_eq (opening_integer_of_some value) (comes_pure walk)
  | boolean => exact comes_current (comes_pure walk)
  | operator =>
    refine comes_current (comes_advance ?_)
    exact (less.expression _ _ walk.further).bind fun right later one => comes_pure one
  | group =>
    refine comes_advance ((less.expression _ _ walk.further).bind fun inner later one => ?_)
    exact walks_expectPeek one fun paren => comes_pure paren
  | conditional => exact less.conditional_succ state walk
  | function =>
    refine comes_current (walks_expectPeek walk fun paren => ?_)
    refine (walks_closedItems (fun _ => walks_parameter) fuel paren).bind fun names later one => ?_
    refine walks_expectPeek one fun brace => ?_
    exact (less.block _ brace).bind fun body last two => comes_pure two

theorem Walking.extension_succ (less : Walking rules origin free fuel) (rule : InfixRule) (left : Expr) (power : Power)
    (state : ParseState) (walk : origin.Walk rules free state false) :
    (Action.extension rules (fuel + 1) rule left power).Walks rules origin free state := by
  cases rule with
  | operator =>
    refine comes_current (comes_advance ?_)
    exact (less.expression _ _ walk.further).bind fun right later one => comes_pure one
  | call =>
    have item : ∀ there, origin.Walk rules free there false →
        Walks rules origin free (do advance; Action.expression rules fuel .lowest) there :=
      fun there walk => comes_advance (less.expression .lowest there.advance walk.further)
    exact comes_current ((walks_closedItems item fuel walk).bind fun arguments later one => comes_pure one)

theorem Walking.block_succ (less : Walking rules origin free fuel) (state : ParseState)
    (walk : origin.Walk rules free state false) :
    (Action.block rules (fuel + 1)).Walks rules origin free state := by
  -- The brace lies behind, so the loop may take a turn at the first token of the body.
  refine comes_current (comes_advance ?_)
  refine (walks_statements rfl (less.statement .dispatch) fuel (.advance walk)).bind ?_
  exact fun body later rest => comes_pure (.pass rest.1)

theorem Walking.statement_succ (less : Walking rules origin free fuel) (rule : StatementRule) (state : ParseState)
    (walk : origin.Walk rules free state false) :
    (Action.statement rules (fuel + 1) rule).Walks rules origin free state := by
  cases rule with
  | binding =>
    refine comes_current ((walks_parameter walk).bind fun name first one => ?_)
    refine walks_expectPeek one fun sign => comes_advance ?_
    exact (less.expression _ _ sign.further).bind fun value later two => walks_skipSemicolon two
  | result =>
    refine comes_current (comes_advance ?_)
    exact (less.expression _ _ walk.further).bind fun value later one => walks_skipSemicolon one
  | expression => exact comes_current ((less.expression _ _ walk).bind fun value later one => walks_skipSemicolon one)
  | block => exact (less.block state walk).bind fun body later one => comes_pure one
  | dispatch => exact comes_current (less.statement _ state walk)

theorem walking (rules : Rules) (origin : ParseState) (free : Bool) (fuel : Nat) : Walking rules origin free fuel := by
  induction fuel with
  | zero =>
    exact ⟨fun _ _ _ => comes_outOfFuel, fun _ _ _ _ => comes_outOfFuel, fun _ _ _ _ _ => comes_outOfFuel,
      fun _ _ => comes_outOfFuel, fun _ _ _ => comes_outOfFuel⟩
  | succ fuel less =>
    exact ⟨less.expression_succ, less.opening_succ, less.extension_succ, less.block_succ, less.statement_succ⟩

/-- A program is read by a walk from a token that a turn may be taken at to the end of the source. -/
theorem walks_program (rules : Rules) (fuel : Nat) (state : ParseState) : (program rules fuel).ComesTo True
    (fun _ later => state.Walk rules true later true ∧ later.current.kind = .eof) (fun _ _ => False) state := by
  have loop := @walks_statements _ _ _ _ (· = .eof) _ (fun _ _ => False) (by decide)
    ((walking rules state true fuel).statement .dispatch) fuel .start
  exact loop.bind fun values later rest => comes_pure ⟨rest.1, of_decide_eq_true rest.2⟩

end LetFn.Action
