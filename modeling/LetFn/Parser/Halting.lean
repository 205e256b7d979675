import LetFn.Parser.Descent
import LetFn.Parser.Ends

namespace LetFn

/-- Rules under which no run goes on for ever: no expression starts with the end of the source, and no
statement is read by looking its own rule up again. -/
structure Rules.Grounded (rules : Rules) : Prop where
  prefixRule_eof : rules.prefixRule .eof = none
  statementRule_ne_dispatch : ∀ kind, rules.statementRule kind ≠ some .dispatch

theorem Rules.standard_grounded : standard.Grounded where
  prefixRule_eof := rfl
  statementRule_ne_dispatch kind := by cases kind <;> decide

namespace Action

variable {rules : Rules}

/-- Where the tokens are used up no expression can be read. -/
theorem expression_fails (grounded : rules.Grounded) (fuel : Nat) (power : Power) {state : ParseState}
    (exhausted : state.remaining = 0) : (expression rules (fuel + 1) power).Fails state := by
  have eof := ParseState.current_kind_of_remaining exhausted
  exact .of_eq (expression_of_no_rule (by rw [eof]; exact grounded.prefixRule_eof)) (comes_failHere exhausted)

/-- Where the tokens are used up nothing can be added to an expression. -/
theorem extension_fails (grounded : rules.Grounded) (fuel : Nat) (rule : InfixRule) (left : Expr)
    (power : Power) {state : ParseState} (exhausted : state.remaining = 0) :
    (extension rules (fuel + 2) rule left power).Fails state := by
  have less := state.advance_remaining
  have still : state.advance.remaining = 0 := by omega
  cases rule with
  | operator => exact comes_current (comes_advance ((expression_fails grounded fuel power still).bind _))
  | call =>
    have eof : state.peek.kind = .eof := ParseState.peek_kind_of_remaining (by omega)
    have item : Fails (do advance; expression rules (fuel + 1) .lowest) state :=
      comes_advance (expression_fails grounded fuel .lowest still)
    have unclosed : state.peek.kind ≠ .rparen := by rw [eof]; decide
    have arguments : (closedItems (do advance; expression rules (fuel + 1) .lowest) (fuel + 1)).Fails state :=
      comes_peek (.ite (fun closed => absurd closed unclosed) fun _ => item.bind _)
    exact comes_current (arguments.bind _)

/-- How much fuel each routine can use, in terms of the tokens that remain. -/
structure EndsWithin (rules : Rules) (fuel : Nat) : Prop where
  expression : ∀ power state, 4 * state.remaining + 2 ≤ fuel →
    (Action.expression rules fuel power).Ends state.remaining state
  opening : ∀ rule state, 4 * (state.remaining - 1) + 3 ≤ fuel →
    (Action.opening rules fuel rule).Ends state.remaining state
  extension : ∀ rule left power state, 4 * (state.remaining - 1) + 3 ≤ fuel →
    (Action.extension rules fuel rule left power).Ends state.remaining state
  block : ∀ state, 4 * state.remaining + 2 ≤ fuel → (Action.block rules fuel).Ends state.remaining state
  statement : ∀ rule state, rule ≠ .dispatch → 4 * state.remaining + 3 ≤ fuel →
    (Action.statement rules fuel rule).Ends state.remaining state
  dispatch : ∀ state, 4 * state.remaining + 4 ≤ fuel →
    (Action.statement rules fuel .dispatch).Ends state.remaining state

theorem ends_parameter (state : ParseState) : parameter.Ends state.remaining state := by
  have less := state.advance_remaining
  exact ends_expectPeek (by decide) (Nat.le_refl _) fun more => comes_current (comes_pure (by omega))

theorem EndsWithin.expression_succ {fuel : Nat} (less : EndsWithin rules fuel) (grounded : rules.Grounded)
    (power : Power) (state : ParseState) (enough : 4 * state.remaining + 2 ≤ fuel + 1) :
    (Action.expression rules (fuel + 1) power).Ends state.remaining state := by
  by_cases exhausted : state.remaining = 0
  · exact (expression_fails grounded fuel power exhausted).ends _
  · cases found : rules.prefixRule state.current.kind with
    | none => exact .of_eq (expression_of_no_rule found) (comes_failHere (Nat.le_refl _))
    | some rule =>
      refine .of_eq (expression_of_rule found)
        ((less.opening rule state (by omega)).bind (Nat.le_refl _) ?_)
      intro left later shorter
      obtain ⟨more, rfl⟩ : ∃ more, fuel = more + 2 := ⟨fuel - 2, by omega⟩
      have steps : ∀ rule left power there, there.remaining ≤ state.remaining - 1 →
          (Action.extension rules (more + 2) rule left power).Ends there.remaining there :=
        fun rule left power there within => less.extension rule left power there (by omega)
      exact (ends_climb steps (fun rule left power there => extension_fails grounded more rule left power)
        (more + 2) left later (by omega) (by omega)).mono shorter

theorem EndsWithin.conditional_succ {fuel : Nat} (less : EndsWithin rules fuel) (state : ParseState)
    (enough : 4 * (state.remaining - 1) + 3 ≤ fuel + 1) :
    (Action.opening rules (fuel + 1) .conditional).Ends state.remaining state := by
  have first := state.advance_remaining
  refine comes_current (ends_expectPeek (by decide) (Nat.le_refl _) fun more => ?_)
  have second := state.advance.advance_remaining
  refine comes_advance ((less.expression _ _ (by omega)).bind (by omega) ?_)
  intro condition later left
  have closing := later.advance_remaining
  refine ends_expectPeek (by decide) (by omega) fun _ => ?_
  have brace := later.advance.advance_remaining
  refine ends_expectPeek (by decide) (by omega) fun _ => ?_
  refine (less.block later.advance.advance (by omega)).bind (by omega) ?_
  intro consequence after left
  refine comes_peek (.ite (fun _ => ?_) fun _ => comes_pure (by omega))
  have word := after.advance_remaining
  refine comes_advance (ends_expectPeek (by decide) (by omega) fun _ => ?_)
  have brace := after.advance.advance_remaining
  refine (less.block after.advance.advance (by omega)).bind (by omega) ?_
  intro alternative last left
  exact comes_pure (by omega)

theorem EndsWithin.function_succ {fuel : Nat} (less : EndsWithin rules fuel) (state : ParseState)
    (enough : 4 * (state.remaining - 1) + 3 ≤ fuel + 1) :
    (Action.opening rules (fuel + 1) .function).Ends state.remaining state := by
  have first := state.advance_remaining
  refine comes_current (ends_expectPeek (by decide) (Nat.le_refl _) fun more => ?_)
  refine (ends_closedItems (fun there _ => ends_parameter there) (Nat.le_refl _) (by omega)).bind
    (by omega) ?_
  intro parameters later left
  have brace := later.advance_remaining
  refine ends_expectPeek (by decide) (by omega) fun _ => ?_
  refine (less.block later.advance (by omega)).bind (by omega) ?_
  intro body last left
  exact comes_pure (by omega)

theorem EndsWithin.opening_succ {fuel : Nat} (less : EndsWithin rules fuel) (rule : PrefixRule)
    (state : ParseState) (enough : 4 * (state.remaining - 1) + 3 ≤ fuel + 1) :
    (Action.opening rules (fuel + 1) rule).Ends state.remaining state := by
  have first := state.advance_remaining
  cases rule with
  | identifier => exact Nat.le_refl _
  | integer =>
    cases value : Text.integer64? state.current.literal with
    | none => exact .of_eq (opening_integer_of_none value) (comes_failHere (Nat.le_refl _))
    | some number => exact .of_eq (opening_integer_of_some value) (comes_pure (Nat.le_refl _))
  | boolean => exact Nat.le_refl _
  | operator =>
    refine comes_current (comes_advance ((less.expression _ _ (by omega)).bind (by omega) ?_))
    intro right later left
    exact comes_pure (by omega)
  | group =>
    refine comes_advance ((less.expression _ _ (by omega)).bind (by omega) ?_)
    intro inner later left
    have closing := later.advance_remaining
    exact ends_expectPeek (by decide) (by omega) fun _ => comes_pure (by omega)
  | conditional => exact less.conditional_succ state enough
  | function => exact less.function_succ state enough

theorem EndsWithin.extension_succ {fuel : Nat} (less : EndsWithin rules fuel) (rule : InfixRule) (left : Expr)
    (power : Power) (state : ParseState) (enough : 4 * (state.remaining - 1) + 3 ≤ fuel + 1) :
    (Action.extension rules (fuel + 1) rule left power).Ends state.remaining state := by
  have first := state.advance_remaining
  cases rule with
  | operator =>
    refine comes_current (comes_advance ((less.expression _ _ (by omega)).bind (by omega) ?_))
    intro right later left
    exact comes_pure (by omega)
  | call =>
    have items : ∀ there, there.remaining ≤ state.remaining →
        Ends there.remaining (do advance; Action.expression rules fuel .lowest) there := by
      intro there within
      have first := there.advance_remaining
      exact comes_advance ((less.expression _ _ (by omega)).mono (by omega))
    refine comes_current ((ends_closedItems items (Nat.le_refl _) (by omega)).bind (Nat.le_refl _) ?_)
    intro arguments later left
    exact comes_pure (by omega)

theorem EndsWithin.block_succ {fuel : Nat} (less : EndsWithin rules fuel) (state : ParseState)
    (enough : 4 * state.remaining + 2 ≤ fuel + 1) :
    (Action.block rules (fuel + 1)).Ends state.remaining state := by
  have first := state.advance_remaining
  have steps : ∀ there, 0 < there.remaining → there.remaining ≤ state.advance.remaining →
      (Action.statement rules fuel .dispatch).Ends there.remaining there :=
    fun there some within => less.dispatch there (by omega)
  refine comes_current (comes_advance
    ((ends_statements (by decide) steps fuel _ (Nat.le_refl _) (by omega)).bind (by omega) ?_))
  intro body later left
  exact comes_pure (by omega)

theorem EndsWithin.statement_succ {fuel : Nat} (less : EndsWithin rules fuel) (rule : StatementRule)
    (state : ParseState) (other : rule ≠ .dispatch) (enough : 4 * state.remaining + 3 ≤ fuel + 1) :
    (Action.statement rules (fuel + 1) rule).Ends state.remaining state := by
  have first := state.advance_remaining
  cases rule with
  | binding =>
    refine comes_current ((ends_parameter state).bind (Nat.le_refl _) ?_)
    intro name later left
    have second := later.advance_remaining
    refine ends_expectPeek (by decide) (by omega) fun _ => ?_
    have third := later.advance.advance_remaining
    refine comes_advance ((less.expression _ _ (by omega)).bind (by omega) ?_)
    intro value last left
    exact ends_skipSemicolon fun there left => comes_pure (by omega)
  | result =>
    refine comes_current (comes_advance ((less.expression _ _ (by omega)).bind (by omega) ?_))
    intro value later left
    exact ends_skipSemicolon fun there left => comes_pure (by omega)
  | expression =>
    refine comes_current ((less.expression _ _ (by omega)).bind (by omega) ?_)
    intro value later left
    exact ends_skipSemicolon fun there left => comes_pure (by omega)
  | block =>
    refine (less.block state (by omega)).bind (Nat.le_refl _) ?_
    intro body later left
    exact comes_pure (by omega)
  | dispatch => exact absurd rfl other

theorem EndsWithin.dispatch_succ {fuel : Nat} (less : EndsWithin rules fuel) (grounded : rules.Grounded)
    (state : ParseState) (enough : 4 * state.remaining + 4 ≤ fuel + 1) :
    (Action.statement rules (fuel + 1) .dispatch).Ends state.remaining state := by
  refine less.statement ((rules.statementRule state.current.kind).getD .expression) state ?_ (by omega)
  have other := grounded.statementRule_ne_dispatch state.current.kind
  cases found : rules.statementRule state.current.kind with
  | none => decide
  | some rule =>
    intro same
    exact other (by rw [found]; exact congrArg some same)

/-- Under grounded rules every routine ends, its fuel being in proportion to the tokens that remain. -/
theorem endsWithin (grounded : rules.Grounded) (fuel : Nat) : EndsWithin rules fuel := by
  induction fuel with
  | zero =>
    constructor
    all_goals intros; omega
  | succ fuel less =>
    exact ⟨less.expression_succ grounded, less.opening_succ, less.extension_succ, less.block_succ,
      less.statement_succ, less.dispatch_succ grounded⟩

/-- A loop over statements does not give up: it records what its statements complain of. -/
theorem statements_tolerant (closes : TokenKind → Bool) (statement : Action Stmt) :
    ∀ fuel, (statements closes statement fuel).Tolerant := by
  intro fuel
  induction fuel with
  | zero => exact fun _ => comes_outOfFuel
  | succ fuel ih =>
    refine fun state => comes_current (.ite (fun _ => comes_pure trivial) fun _ => comes_countRound ?_)
    exact (orRecord_tolerant statement).bind (fun first state =>
      comes_advance (ih.bind (fun others => pure_tolerant _) state.advance)) state.countRound

/-- A program can always be read, whatever is wrong with the source. -/
theorem program_ok (grounded : rules.Grounded) {fuel : Nat} (state : ParseState)
    (enough : 4 * state.remaining + 4 ≤ fuel) :
    ∃ value later, program rules fuel state = .ok value later := by
  have steps : ∀ there, 0 < there.remaining → there.remaining ≤ state.remaining →
      (statement rules fuel .dispatch).Ends there.remaining there :=
    fun there _ within => (endsWithin grounded fuel).dispatch there (by omega)
  have ends : (statements (fun kind => kind = .eof) (statement rules fuel .dispatch) fuel).Ends
      state.remaining state :=
    ends_statements (by decide) steps fuel state (Nat.le_refl _) (by omega)
  have tolerant := statements_tolerant (fun kind => kind = .eof) (statement rules fuel .dispatch) fuel state
  cases run : statements (fun kind => kind = .eof) (statement rules fuel .dispatch) fuel state with
  | ok values later => exact ⟨⟨values⟩, later, bind_of_ok run _⟩
  | error stop later =>
    cases stop with
    | problem diagnostic => exact (tolerant.of_problem run).elim
    | outOfFuel => exact (ends.of_outOfFuel run).elim

end Action

end LetFn
