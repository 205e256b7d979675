import LetFn.Parser.Descent
import LetFn.Proofs.Parser.Invariant
import LetFn.Proofs.Tree.Count

namespace LetFn

/-- Since `origin`, the complaints that came and `count` statements have been paid for with turns. -/
def ParseState.Paid (origin : ParseState) (count : Nat) (state : ParseState) : Prop :=
  state.errors.length + count + origin.rounds ≤ origin.errors.length + state.rounds

namespace ParseState

variable {origin state : ParseState} {less more count : Nat}

theorem Paid.mono (paid : origin.Paid more state) (le : less ≤ more) : origin.Paid less state := by
  unfold Paid at paid ⊢
  omega

theorem Paid.advance (paid : origin.Paid count state) : origin.Paid count state.advance :=
  paid

/-- A turn pays for one thing more. -/
theorem Paid.countRound (paid : origin.Paid count state) : origin.Paid (count + 1) state.countRound := by
  unfold Paid at paid ⊢
  change state.errors.length + (count + 1) + origin.rounds ≤ origin.errors.length + (state.rounds + 1)
  omega

theorem Paid.record (paid : origin.Paid (count + 1) state) (diagnostic : Diagnostic) :
    origin.Paid count (state.record diagnostic) := by
  have more : (state.record diagnostic).errors.length = state.errors.length + 1 := List.length_append
  unfold Paid at paid ⊢
  change (state.record diagnostic).errors.length + count + origin.rounds ≤ origin.errors.length + state.rounds
  omega

end ParseState

namespace Action

variable {α : Type} {weigh : α → Nat} {held : Nat} {origin state : ParseState}

/-- The complaints and the statements that a run comes to have been paid for. `weigh` counts the statements in its
value, and `held` those that are in hand besides. -/
abbrev Tallies (origin : ParseState) (held : Nat) (weigh : α → Nat) (action : Action α) (state : ParseState) : Prop :=
  action.ComesTo True (fun value later => origin.Paid (held + weigh value) later)
    (fun _ later => origin.Paid held later) state

theorem tallies_parameter (paid : origin.Paid held state) : parameter.Tallies origin held (fun _ => 0) state :=
  comes_expectPeek (fun _ => paid) fun _ => comes_current (comes_pure paid.advance)

theorem tallies_closedItems {item : Action α}
    (tallies : ∀ held state, origin.Paid held state → item.Tallies origin held weigh state) (fuel : Nat)
    (paid : origin.Paid held state) :
    (closedItems item fuel).Tallies origin held (fun values => (values.map weigh).sum) state := by
  refine comes_closedItems (fun _ _ paid => paid) (fun done state paid => ?_)
    (fun done _ _ paid => paid.mono (Nat.le_add_right _ _)) fuel paid
  refine (tallies _ state paid).mono (fun value later one => ?_) fun _ _ left => left.mono (Nat.le_add_right _ _)
  simp only [List.map_append, List.sum_append, ← Nat.add_assoc]
  exact one

/-- A turn pays for its statement, or for the complaint that stands in its place. -/
theorem tallies_statements {closes : TokenKind → Bool} {statement : Action Stmt}
    (tallies : ∀ held state, origin.Paid (held + 1) state → statement.ComesTo True
      (fun value later => origin.Paid (held + value.statementCount) later)
      (fun _ later => origin.Paid (held + 1) later) state) (fuel : Nat) (paid : origin.Paid held state) :
    (statements closes statement fuel).Tallies origin held stmtsStatementCount state := by
  refine ComesTo.mono (comes_statements (fun values later => origin.Paid (held + stmtsStatementCount values) later)
    (fun done state _ paid => ?_) fuel [] state paid) (fun _ _ found => found.1) fun _ _ left => left
  refine (tallies _ _ paid.countRound).mono (fun value later one => ?_) fun diagnostic later left =>
    left.record diagnostic
  rw [stmtsStatementCount_append, ← Nat.add_assoc]
  exact one.advance

/-- No routine has more to show than its turns pay for. A statement has the turn that is taken for it in hand. -/
structure Tallying (rules : Rules) (origin : ParseState) (fuel : Nat) : Prop where
  expression : ∀ power held state, origin.Paid held state →
    (Action.expression rules fuel power).Tallies origin held Expr.statementCount state
  opening : ∀ rule held state, origin.Paid held state →
    (Action.opening rules fuel rule).Tallies origin held Expr.statementCount state
  extension : ∀ rule left power held state, origin.Paid (held + left.statementCount) state →
    (Action.extension rules fuel rule left power).Tallies origin held Expr.statementCount state
  block : ∀ held state, origin.Paid held state →
    (Action.block rules fuel).Tallies origin held Block.statementCount state
  statement : ∀ rule held state, origin.Paid (held + 1) state → (Action.statement rules fuel rule).ComesTo True
    (fun value later => origin.Paid (held + value.statementCount) later) (fun _ later => origin.Paid (held + 1) later)
    state

variable {rules : Rules} {fuel : Nat}

theorem Tallying.expression_succ (less : Tallying rules origin fuel) (power : Power) (held : Nat) (state : ParseState)
    (paid : origin.Paid held state) :
    (Action.expression rules (fuel + 1) power).Tallies origin held Expr.statementCount state := by
  cases found : rules.prefixRule state.current.kind with
  | none => exact .of_eq (expression_of_no_rule found) (comes_failHere paid)
  | some rule =>
    refine .of_eq (expression_of_rule found) ((less.opening rule held state paid).bind fun left later one => ?_)
    exact comes_climb (fun rule left power state _ => less.extension rule left power held state.advance) fuel left
      later one

theorem Tallying.conditional_succ (less : Tallying rules origin fuel) (paid : origin.Paid held state) :
    (Action.opening rules (fuel + 1) .conditional).Tallies origin held Expr.statementCount state := by
  refine comes_current (comes_expectPeek (fun _ => paid) fun _ => comes_advance ?_)
  refine (less.expression _ held _ paid.advance.advance).bind fun condition first one => ?_
  have kept : origin.Paid held first := one.mono (Nat.le_add_right _ _)
  refine comes_expectPeek (fun _ => kept) fun _ => comes_expectPeek (fun _ => kept.advance) fun _ => ?_
  refine ((less.block _ _ one.advance.advance).mono (fun _ _ => id) fun _ _ left =>
    left.mono (Nat.le_add_right _ _)).bind ?_
  intro consequence second two
  have kept : origin.Paid held second := two.mono (by omega)
  refine comes_peek (.ite (fun _ => comes_advance (comes_expectPeek (fun _ => kept.advance) fun _ => ?_)) fun _ => ?_)
  · refine ((less.block _ _ two.advance.advance).mono (fun _ _ => id) fun _ _ left => left.mono (by omega)).bind ?_
    intro alternative last three
    refine comes_pure (three.mono ?_)
    rw [Expr.statementCount, alternativeStatementCount]
    omega
  · refine comes_pure (two.mono ?_)
    rw [Expr.statementCount, alternativeStatementCount]
    omega

theorem Tallying.opening_succ (less : Tallying rules origin fuel) (rule : PrefixRule) (held : Nat) (state : ParseState)
    (paid : origin.Paid held state) :
    (Action.opening rules (fuel + 1) rule).Tallies origin held Expr.statementCount state := by
  cases rule with
  | identifier => exact comes_current (comes_pure paid)
  | integer =>
    cases value : Text.integer64? state.current.literal with
    | none => exact .of_eq (opening_integer_of_none value) (comes_failHere paid)
    | some found => exact .of_eq (opening_integer_of_some value) (comes_pure paid)
  | boolean => exact comes_current (comes_pure paid)
  | operator =>
    refine comes_current (comes_advance ?_)
    exact (less.expression _ held _ paid.advance).bind fun right later one => comes_pure one
  | group =>
    refine comes_advance ((less.expression _ held _ paid.advance).bind fun inner later one => ?_)
    exact comes_expectPeek (fun _ => one.mono (Nat.le_add_right _ _)) fun _ => comes_pure one.advance
  | conditional => exact less.conditional_succ paid
  | function =>
    refine comes_current (comes_expectPeek (fun _ => paid) fun _ => ?_)
    refine (tallies_closedItems (fun _ _ => tallies_parameter) fuel paid.advance).bind fun names later one => ?_
    have kept : origin.Paid held later := one.mono (Nat.le_add_right _ _)
    refine comes_expectPeek (fun _ => kept) fun _ => ?_
    exact (less.block held _ kept.advance).bind fun body last two => comes_pure two

theorem Tallying.extension_succ (less : Tallying rules origin fuel) (rule : InfixRule) (left : Expr) (power : Power)
    (held : Nat) (state : ParseState) (paid : origin.Paid (held + left.statementCount) state) :
    (Action.extension rules (fuel + 1) rule left power).Tallies origin held Expr.statementCount state := by
  have drops : ∀ (diagnostic : Diagnostic) later, origin.Paid (held + left.statementCount) later →
      origin.Paid held later := fun _ _ left => left.mono (Nat.le_add_right _ _)
  cases rule with
  | operator =>
    refine comes_current (comes_advance (((less.expression _ _ _ paid.advance).mono (fun _ _ => id) drops).bind ?_))
    intro right later one
    refine comes_pure (one.mono (Nat.le_of_eq ?_))
    rw [Expr.statementCount, Nat.add_assoc]
  | call =>
    have item : ∀ held there, origin.Paid held there →
        Tallies origin held Expr.statementCount (do advance; Action.expression rules fuel .lowest) there :=
      fun held there paid => comes_advance (less.expression .lowest held there.advance paid.advance)
    refine comes_current (((tallies_closedItems item fuel paid).mono (fun _ _ => id) drops).bind ?_)
    intro arguments later one
    refine comes_pure (one.mono (Nat.le_of_eq ?_))
    rw [Expr.statementCount, exprsStatementCount_eq_sum, Nat.add_assoc]

theorem Tallying.block_succ (less : Tallying rules origin fuel) (held : Nat) (state : ParseState)
    (paid : origin.Paid held state) :
    (Action.block rules (fuel + 1)).Tallies origin held Block.statementCount state := by
  refine comes_current (comes_advance ?_)
  exact (tallies_statements (less.statement .dispatch) fuel paid.advance).bind fun body later one => comes_pure one

theorem Tallying.statement_succ (less : Tallying rules origin fuel) (rule : StatementRule) (held : Nat)
    (state : ParseState) (paid : origin.Paid (held + 1) state) : (Action.statement rules (fuel + 1) rule).ComesTo True
      (fun value later => origin.Paid (held + value.statementCount) later)
      (fun _ later => origin.Paid (held + 1) later) state := by
  -- The turn in hand counts for the statement itself, what else it holds is counted on top of it.
  have alone {count : Nat} {later : ParseState} (one : origin.Paid (held + 1 + count) later) :
      origin.Paid (held + (count + 1)) later := one.mono (by omega)
  cases rule with
  | binding =>
    refine comes_current ((tallies_parameter paid).bind fun name first one => ?_)
    refine comes_expectPeek (fun _ => one) fun _ => comes_advance ((less.expression _ _ _ one.advance.advance).bind ?_)
    intro value later two
    refine comes_skipSemicolon fun last place => comes_pure ?_
    rcases place with rfl | rfl <;> exact alone two
  | result =>
    refine comes_current (comes_advance ((less.expression _ _ _ paid.advance).bind fun value later one => ?_))
    refine comes_skipSemicolon fun last place => comes_pure ?_
    rcases place with rfl | rfl <;> exact alone one
  | expression =>
    refine comes_current ((less.expression _ _ _ paid).bind fun value later one => ?_)
    refine comes_skipSemicolon fun last place => comes_pure ?_
    rcases place with rfl | rfl <;> exact alone one
  | block => exact (less.block _ state paid).bind fun body later one => comes_pure (alone one)
  | dispatch => exact comes_current (less.statement _ held state paid)

theorem tallying (rules : Rules) (origin : ParseState) (fuel : Nat) : Tallying rules origin fuel := by
  induction fuel with
  | zero =>
    exact ⟨fun _ _ _ _ => comes_outOfFuel, fun _ _ _ _ => comes_outOfFuel, fun _ _ _ _ _ _ => comes_outOfFuel,
      fun _ _ _ => comes_outOfFuel, fun _ _ _ _ => comes_outOfFuel⟩
  | succ fuel less =>
    exact ⟨less.expression_succ, less.opening_succ, less.extension_succ, less.block_succ, less.statement_succ⟩

/-- A run over a source has no more to show, in complaints and statements at every depth, than it took turns. -/
theorem tallies_program (rules : Rules) (fuel : Nat) (state : ParseState) :
    (Action.program rules fuel).Tallies state 0 Program.statementCount state := by
  have paid : state.Paid 0 state := Nat.le_refl _
  exact (tallies_statements ((tallying rules state fuel).statement .dispatch) fuel paid).bind fun body later one =>
    comes_pure one

end Action

end LetFn
