import LetFn.Proofs.Parser.CleanLoops
import LetFn.Proofs.Prediction.Goals
import LetFn.Proofs.Text.Decimal

namespace LetFn.Action

variable {α β : Type} {before middle after goals : List Goal} {tokens between : List Token} {state : ParseState}

/-- A clean run of `action` does what `before` asks for and leaves `after` to do, and the first complaint of
another run is at the place where `before` cannot be met. -/
def Foretells (before after : List Goal) (tokens : List Token) (action : Action α) (state : ParseState) : Prop :=
  action.Runs (fun _ rest => Predicts before after tokens rest) (Misses before tokens state.stream.finish) state

/-- One action after the other, of which the second may say more about what it leaves. -/
theorem Foretells.bind_ending {first : Action α} {next : α → Action β} {ending : List Token → Prop}
    (one : first.Foretells before middle tokens state)
    (two : ∀ value later, (next value).Runs (fun _ rest => Predicts middle after later.unread rest ∧ ending rest)
      (Misses middle later.unread later.stream.finish) later) :
    (first >>= next).Runs (fun _ rest => Predicts before after tokens rest ∧ ending rest)
      (Misses before tokens state.stream.finish) state := by
  refine Runs.bind one fun value later same => (two value later).mono ?_ ?_
  · exact fun _ rest further predicts => ⟨predicts.trans further.1, further.2⟩
  · intro diagnostic misses predicts
    rw [same] at misses
    exact predicts.misses misses

theorem Foretells.bind {first : Action α} {next : α → Action β} (one : first.Foretells before middle tokens state)
    (two : ∀ value later, (next value).Foretells middle after later.unread later) :
    (first >>= next).Foretells before after tokens state := by
  have both := one.bind_ending fun value later =>
    (two value later).mono (fun _ _ predicts => ⟨predicts, trivial⟩) fun _ => id
  exact both.mono (fun _ _ found => found.1) fun _ => id

/-- What comes later does not matter. -/
theorem Foretells.append {action : Action α} (foretells : action.Foretells before after tokens state)
    (more : List Goal) : action.Foretells (before ++ more) (after ++ more) tokens state :=
  Runs.mono foretells (fun _ _ predicts => predicts.append more) fun _ misses => misses.append more

theorem Foretells.of_predicts {action : Action α} (predicts : Predicts before middle tokens between)
    (foretells : action.Foretells middle after between state) : action.Foretells before after tokens state :=
  Runs.mono foretells (fun _ _ further => predicts.trans further) fun _ misses => predicts.misses misses

theorem foretells_pure (value : α) : (pure value : Action α).Foretells goals goals state.unread state :=
  runs_pure (.refl goals _)

theorem foretells_current {next : Token → Action α}
    (foretells : (next state.current).Foretells before after tokens state) :
    (current >>= next).Foretells before after tokens state :=
  foretells

theorem foretells_peek {next : Token → Action α}
    (foretells : (next state.peek).Foretells before after tokens state) :
    (peek >>= next).Foretells before after tokens state :=
  foretells

theorem foretells_advance {next : Unit → Action α}
    (foretells : (next ()).Foretells before after tokens state.advance) :
    (advance >>= next).Foretells before after tokens state :=
  runs_advance foretells

theorem misses_sign {kind : TokenKind} (other : state.peek.kind ≠ kind) :
    Misses [.sign kind] state.unread state.stream.finish (state.unexpectedPeek kind) := by
  refine misses_of_meet (fun goals => ?_) rfl
  rw [ParseState.peek_kind, ← front_kind] at other
  show ((front state.unread).signGoals kind).map (· ++ goals) = .error (.unexpectedPeek kind state.peek.kind)
  rw [Token.signGoals, if_neg other, ParseState.peek_kind, ← front_kind]
  rfl

theorem misses_moreItems {item : Item} (other : state.peek.kind ≠ .comma) (missing : state.peek.kind ≠ .rparen) :
    Misses [.moreItems item] state.unread state.stream.finish (state.unexpectedPeek .rparen) := by
  rw [ParseState.peek_kind] at other
  exact (predicts_moreItems_end other).misses (misses_sign missing)

/-- A token that does not fit where an operand is due. -/
theorem misses_operand {problem : Problem} (wrong : (front state.stream.ahead).operandGoals = .error problem) :
    Misses [.operand] state.stream.ahead state.stream.finish (state.problemHere problem) := by
  refine misses_of_meet (fun goals => ?_) rfl
  show (front state.stream.ahead).operandGoals.map (· ++ goals) = _
  rw [wrong]
  rfl

theorem foretells_expectPeek {kind : TokenKind} (proper : kind ≠ .eof) {next : Unit → Action α}
    (foretells : state.peek.kind = kind → (next ()).Foretells goals after state.advance.unread state.advance) :
    (expectPeek kind >>= next).Foretells (.sign kind :: goals) after state.unread state := by
  refine runs_expectPeek (fun other => (misses_sign other).append goals) fun there => ?_
  rw [state.unread_eq_cons (by rwa [there])]
  exact Foretells.of_predicts ((predicts_sign there).append goals) (foretells there)

theorem foretells_skipSemicolon {next : Unit → Action α}
    (foretells : ∀ later, (next ()).Foretells goals after later.unread later) :
    (skipSemicolon >>= next).Foretells (.semicolon :: goals) after state.unread state := by
  have skips : skipSemicolon.Foretells (.semicolon :: goals) goals state.unread state := by
    refine Runs.mono (runs_skipSemicolon state) (fun _ rest skipped => ?_) fun _ => id
    rcases skipped with ⟨token, sign, front⟩ | ⟨other, rfl⟩
    · rw [front]
      exact (predicts_semicolon sign).append goals
    · exact (predicts_semicolon_none other).append goals
  exact skips.bind fun _ later => foretells later

/-- The items of a list in parentheses, of which `action` reads one. -/
def itemListing (item : Item) (action : Action α) (finish : Nat)
    (foretells : ∀ state, action.Foretells item.goals [] state.unread state) : Listing action finish where
  one _ tokens rest := Predicts item.goals [] tokens rest
  more _ tokens rest := Predicts [.moreItems item] [] tokens rest
  all _ tokens rest := Predicts [.items item] [] tokens rest
  badOne tokens diagnostic := Misses item.goals tokens finish diagnostic
  badMore tokens diagnostic := Misses [.moreItems item] tokens finish diagnostic
  badAll tokens diagnostic := Misses [.items item] tokens finish diagnostic
  runs state same := by
    subst same
    exact foretells state
  last closing := predicts_moreItems_nil closing
  next comma one others := (predicts_moreItems_cons comma).trans ((one.append _).trans others)
  empty closing := predicts_items_nil closing
  full other one others := (predicts_items_cons other).trans ((one.append _).trans others)
  badNext comma misses := (predicts_moreItems_cons comma).misses (misses.append _)
  badLater comma one misses := (predicts_moreItems_cons comma).misses ((one.append _).misses misses)
  badEnd state same other missing := by
    subst same
    exact misses_moreItems other missing
  badFirst other misses := (predicts_items_cons other).misses (misses.append _)
  badOthers other one misses := (predicts_items_cons other).misses ((one.append _).misses misses)

theorem foretells_closedItems (item : Item) {action : Action α}
    (foretells : ∀ state, action.Foretells item.goals [] state.unread state) (fuel : Nat) (state : ParseState) :
    (closedItems action fuel).Foretells [.items item] [] state.unread state :=
  (itemListing item action state.stream.finish foretells).runs_closedItems fuel state rfl

theorem foretells_parameter (state : ParseState) :
    parameter.Foretells (Item.goals .parameter) [] state.unread state :=
  foretells_expectPeek (by decide) fun _ => foretells_current (foretells_pure _)

/-- A row of statements, which is done with where `goal` is done with. -/
def statementSeries (goal : Goal) (closes : TokenKind → Bool) (statement : Action Stmt) (finish : Nat)
    (opens : ∀ tokens, ¬closes (nextKind tokens) → Predicts [goal] [.statement, goal] tokens tokens)
    (foretells : ∀ state, statement.Foretells [.statement] [] state.stream.ahead state) :
    Series closes statement finish where
  one _ tokens rest := Predicts [.statement] [] tokens rest
  many _ tokens rest := Predicts [goal] [goal] tokens rest
  badOne tokens diagnostic := Misses [.statement] tokens finish diagnostic
  badMany tokens diagnostic := Misses [goal] tokens finish diagnostic
  runs state same := by
    subst same
    exact foretells state
  empty := .refl _ _
  next more one many := (opens _ more).trans ((one.append _).trans many)
  badFirst more misses := (opens _ more).misses (misses.append _)
  badLater more one misses := (opens _ more).misses ((one.append _).misses misses)

/-- Every routine of the parser keeps to what its goals ask for. -/
structure Predicting (fuel : Nat) : Prop where
  expression : ∀ power state, (Action.expression .standard fuel power).Runs
    (fun _ rest => Predicts [.operand, .rest] [.rest] state.stream.ahead rest ∧ power.Stops rest)
    (Misses [.operand, .rest] state.stream.ahead state.stream.finish) state
  opening : ∀ (rule : PrefixRule) state, rule.Starts state.current.kind →
    (Action.opening .standard fuel rule).Foretells [.operand, .rest] [.rest] state.stream.ahead state
  extension : ∀ rule left state, Rules.standard.infixRule state.current.kind = some rule →
    (Action.extension .standard fuel rule left (Rules.standard.power state.current.kind)).Foretells
      [.rest] [.rest] state.stream.ahead state
  block : ∀ state, state.current.kind = .lbrace →
    (Action.block .standard fuel).Foretells [.sign .lbrace, .body] [] state.stream.ahead state
  statement : ∀ (rule : StatementRule) state, rule.Starts state.current.kind →
    (Action.statement .standard fuel rule).Foretells [.statement] [] state.stream.ahead state

variable {fuel : Nat}

theorem Predicting.part (less : Predicting fuel) (power : Power) (state : ParseState) :
    (Action.expression .standard fuel power).Foretells [.operand, .rest] [.rest] state.stream.ahead state :=
  (less.expression power state).mono (fun _ _ both => both.1) fun _ => id

/-- An expression that nothing makes longer. -/
theorem Predicting.whole (less : Predicting fuel) (state : ParseState) :
    (Action.expression .standard fuel .lowest).Foretells [.operand, .rest] [] state.stream.ahead state :=
  (less.expression .lowest state).mono
    (fun _ _ both => both.1.trans (predicts_rest_stop (Power.stops_lowest_iff.mp both.2))) fun _ => id

theorem Predicting.climb (less : Predicting fuel) (power : Power) (turns : Nat) : ∀ left state,
    (Action.climb .standard (Action.extension .standard fuel) power turns left).Runs
      (fun _ rest => Predicts [.rest] [.rest] state.unread rest ∧ power.Stops rest)
      (Misses [.rest] state.unread state.stream.finish) state := by
  induction turns with
  | zero => exact fun _ _ => runs_outOfFuel
  | succ turns ih =>
    intro left state
    refine runs_climb (fun rule found _ => ?_) fun stops => ⟨.refl _ _, stops⟩
    exact Foretells.bind_ending (less.extension rule left state.advance found) ih

theorem Predicting.expression_succ (less : Predicting fuel) (power : Power) (state : ParseState) :
    (Action.expression .standard (fuel + 1) power).Runs
      (fun _ rest => Predicts [.operand, .rest] [.rest] state.stream.ahead rest ∧ power.Stops rest)
      (Misses [.operand, .rest] state.stream.ahead state.stream.finish) state := by
  cases found : Rules.standard.prefixRule state.current.kind with
  | none =>
    refine .of_eq .refl (expression_of_no_rule found) (runs_failHere ((misses_operand ?_).append [.rest]))
    rw [Token.operandGoals, front_kind, ← ParseState.current_kind, found]
  | some rule =>
    refine .of_eq .refl (expression_of_rule found) ?_
    have opens := less.opening rule state (Rules.standard_prefixRule_iff.mp found)
    exact opens.bind_ending (less.climb power fuel)

theorem Predicting.braced (less : Predicting fuel) (state : ParseState) {next : Block → Action α}
    (continues : ∀ body later, (next body).Foretells goals after later.unread later) :
    (expectPeek .lbrace >>= fun _ => Action.block .standard fuel >>= next).Foretells
      (.sign .lbrace :: .body :: goals) after state.unread state := by
  refine runs_expectPeek (fun missing => (misses_sign missing).append (.body :: goals)) fun brace => ?_
  exact Foretells.bind ((less.block state.advance brace).append goals) continues

theorem Predicting.conditional_succ (less : Predicting fuel) (state : ParseState)
    (word : state.current.kind = .ifWord) : (Action.opening .standard (fuel + 1) .conditional).Foretells
      [.operand, .rest] [.rest] state.stream.ahead state := by
  have opens : state.current.operandGoals =
      .ok [.sign .lparen, .operand, .rest, .sign .rparen, .sign .lbrace, .body, .alternative] := by
    rw [Token.operandGoals, word]
    rfl
  rw [state.ahead_of_kind word (by decide)]
  refine Foretells.of_predicts ((predicts_operand opens).append [.rest]) ?_
  refine foretells_current (foretells_expectPeek (by decide) fun _ => foretells_advance ?_)
  refine Foretells.bind ((less.whole state.advance.advance).append
    [.sign .rparen, .sign .lbrace, .body, .alternative, .rest]) fun condition second => ?_
  refine foretells_expectPeek (by decide) fun _ => ?_
  refine less.braced second.advance fun consequence third => foretells_peek (Runs.ite (fun other => ?_) fun none => ?_)
  · rw [third.unread_of_kind other (by decide)]
    refine Foretells.of_predicts ((predicts_alternative other).append [.rest]) (foretells_advance ?_)
    exact less.braced third.advance fun alternative last => foretells_pure _
  · rw [ParseState.peek_kind] at none
    exact Foretells.of_predicts ((predicts_alternative_none none).append [.rest]) (foretells_pure _)

theorem Predicting.function_succ (less : Predicting fuel) (state : ParseState)
    (word : state.current.kind = .fnWord) : (Action.opening .standard (fuel + 1) .function).Foretells
      [.operand, .rest] [.rest] state.stream.ahead state := by
  have opens : state.current.operandGoals =
      .ok [.sign .lparen, .items .parameter, .sign .lbrace, .body] := by
    rw [Token.operandGoals, word]
    rfl
  rw [state.ahead_of_kind word (by decide)]
  refine Foretells.of_predicts ((predicts_operand opens).append [.rest]) ?_
  refine foretells_current (foretells_expectPeek (by decide) fun _ => ?_)
  refine Foretells.bind ((foretells_closedItems .parameter foretells_parameter fuel state.advance).append
    [.sign .lbrace, .body, .rest]) fun names second => ?_
  exact less.braced second fun body last => foretells_pure _

theorem Predicting.opening_succ (less : Predicting fuel) (rule : PrefixRule) (state : ParseState)
    (starts : rule.Starts state.current.kind) : (Action.opening .standard (fuel + 1) rule).Foretells
      [.operand, .rest] [.rest] state.stream.ahead state := by
  have found := Rules.standard_prefixRule_iff.mpr starts
  have first := state.ahead_eq_cons (starts.ne rfl)
  cases rule with
  | identifier =>
    have opens : state.current.operandGoals = .ok [] := by rw [Token.operandGoals, found]
    rw [first]
    exact foretells_current (Foretells.of_predicts ((predicts_operand opens).append [.rest]) (foretells_pure _))
  | integer =>
    cases number : Text.integer64? state.current.literal with
    | none =>
      refine .of_eq .refl (opening_integer_of_none number) (runs_failHere ((misses_operand ?_).append [.rest]))
      rw [first, front, List.headD_cons, Token.operandGoals, found]
      simp only [number]
    | some value =>
      have opens : state.current.operandGoals = .ok [] := by
        rw [Token.operandGoals, found]
        simp only [number]
      refine .of_eq .refl (opening_integer_of_some number) (runs_pure ?_)
      rw [first]
      exact (predicts_operand opens).append [.rest]
  | boolean =>
    have opens : state.current.operandGoals = .ok [] := by rw [Token.operandGoals, found]
    rw [first]
    exact foretells_current (Foretells.of_predicts ((predicts_operand opens).append [.rest]) (foretells_pure _))
  | operator =>
    have opens : state.current.operandGoals = .ok [.operand] := by rw [Token.operandGoals, found]
    rw [first]
    refine Foretells.of_predicts ((predicts_operand opens).append [.rest]) (foretells_current (foretells_advance ?_))
    exact Foretells.bind (less.part .sign state.advance) fun right later => foretells_pure _
  | group =>
    have opens : state.current.operandGoals = .ok [.operand, .rest, .sign .rparen] := by
      rw [Token.operandGoals, found]
    rw [first]
    refine Foretells.of_predicts ((predicts_operand opens).append [.rest]) (foretells_advance ?_)
    refine Foretells.bind ((less.whole state.advance).append [.sign .rparen, .rest]) fun inner later => ?_
    exact foretells_expectPeek (by decide) fun _ => foretells_pure _
  | conditional => exact less.conditional_succ state starts
  | function => exact less.function_succ state starts

theorem Predicting.extension_succ (less : Predicting fuel) (rule : InfixRule) (left : Expr) (state : ParseState)
    (found : Rules.standard.infixRule state.current.kind = some rule) :
    (Action.extension .standard (fuel + 1) rule left (Rules.standard.power state.current.kind)).Foretells
      [.rest] [.rest] state.stream.ahead state := by
  rw [state.ahead_eq_cons (Rules.ne_eof_of_infixRule found)]
  cases rule with
  | operator =>
    obtain ⟨level, sign, -⟩ := Rules.standard_operator found
    refine Foretells.of_predicts (predicts_rest_operator sign) (foretells_current (foretells_advance ?_))
    exact Foretells.bind (less.part _ state.advance) fun right later => foretells_pure _
  | call =>
    refine Foretells.of_predicts (predicts_rest_call (Rules.standard_call found)) (foretells_current ?_)
    refine Foretells.bind ((foretells_closedItems .argument (fun there => ?_) fuel state).append [.rest])
      fun arguments later => foretells_pure _
    exact foretells_advance (less.whole there.advance)

theorem Predicting.block_succ (less : Predicting fuel) (state : ParseState) (brace : state.current.kind = .lbrace) :
    (Action.block .standard (fuel + 1)).Foretells [.sign .lbrace, .body] [] state.stream.ahead state := by
  rw [state.ahead_of_kind brace (by decide)]
  refine Foretells.of_predicts ((predicts_sign brace).append [.body]) (foretells_current (foretells_advance ?_))
  have opens : ∀ tokens, ¬closesBlock (nextKind tokens) → Predicts [.body] [.statement, .body] tokens tokens := by
    intro tokens other
    simp only [closesBlock, Bool.or_eq_true, decide_eq_true_eq, not_or] at other
    exact predicts_body_statement other.1 other.2
  have rows := (statementSeries .body closesBlock _ _ opens
    fun there => less.statement .dispatch there trivial).runs_statements fuel state.advance rfl
  refine Foretells.bind (Runs.mono rows (fun _ rest read => ?_) fun _ => id) fun body later => foretells_pure _
  obtain ⟨behind, predicts, closed, ended, rfl⟩ := read
  refine Predicts.trans predicts ?_
  cases behind with
  | nil => exact predicts_body_end
  | cons right behind =>
    refine predicts_body_close ?_
    simp only [closesBlock, Bool.or_eq_true, decide_eq_true_eq] at closed
    exact closed.elim id fun eof => absurd (ended eof) (List.cons_ne_nil _ _)

theorem Predicting.statement_succ (less : Predicting fuel) (rule : StatementRule) (state : ParseState)
    (starts : rule.Starts state.current.kind) : (Action.statement .standard (fuel + 1) rule).Foretells
      [.statement] [] state.stream.ahead state := by
  cases rule with
  | binding =>
    have word : state.current.kind = .letWord := starts
    rw [state.ahead_of_kind word (by decide)]
    refine Foretells.of_predicts (predicts_statement_let word) (foretells_current ?_)
    refine Foretells.bind ((foretells_parameter state).append [.sign .assign, .operand, .rest, .semicolon])
      fun name first => ?_
    refine foretells_expectPeek (by decide) fun _ => foretells_advance ?_
    refine Foretells.bind ((less.whole first.advance.advance).append [.semicolon]) fun value second => ?_
    exact foretells_skipSemicolon fun last => foretells_pure _
  | result =>
    have word : state.current.kind = .returnWord := starts
    rw [state.ahead_of_kind word (by decide)]
    refine Foretells.of_predicts (predicts_statement_return word) (foretells_current (foretells_advance ?_))
    refine Foretells.bind ((less.whole state.advance).append [.semicolon]) fun value later => ?_
    exact foretells_skipSemicolon fun last => foretells_pure _
  | expression =>
    obtain ⟨other, another⟩ : state.current.kind ≠ .letWord ∧ state.current.kind ≠ .returnWord := starts
    rw [ParseState.current_kind] at other another
    refine Foretells.of_predicts (predicts_statement_expression other another) (foretells_current ?_)
    refine Foretells.bind ((less.whole state).append [.semicolon]) fun value later => ?_
    exact foretells_skipSemicolon fun last => foretells_pure _
  | block => cases starts
  | dispatch =>
    exact foretells_current (less.statement _ state (Rules.standard_statementRule_starts _))

theorem predicting (fuel : Nat) : Predicting fuel := by
  induction fuel with
  | zero =>
    exact ⟨fun _ _ => runs_outOfFuel, fun _ _ _ => runs_outOfFuel, fun _ _ _ _ => runs_outOfFuel,
      fun _ _ => runs_outOfFuel, fun _ _ _ => runs_outOfFuel⟩
  | succ fuel less =>
    exact ⟨less.expression_succ, less.opening_succ, less.extension_succ, less.block_succ, less.statement_succ⟩

/-- What is complained of first in a program is what is wrong with the first token that does not fit. -/
theorem fault_of_program {stream : TokenStream} (proper : stream.Proper) {program : Program} {later : ParseState}
    {fuel : Nat} (run : Action.program .standard fuel (.start stream) = .ok program later) :
    (later.errors = [] → fault [.program] stream.ahead = none) ∧
      ∀ first ∈ later.errors.head?, ∃ place, fault [.program] stream.ahead = some (first.problem, place) ∧
        first.span = (TokenStream.mk place stream.finish).current.span := by
  have opens : ∀ tokens, ¬decide (nextKind tokens = .eof) = true →
      Predicts [.program] [.statement, .program] tokens tokens := by
    intro tokens more
    rw [decide_eq_true_eq] at more
    exact predicts_program_statement more
  have rows := (statementSeries .program (· = .eof) _ stream.finish opens
    fun there => (predicting fuel).statement .dispatch there trivial).runs_statements fuel (.start stream) rfl proper
  obtain ⟨new, leads, fine, worst⟩ := rows.of_ok (statements_of_program run)
  have same : later.errors = new := leads.errors
  rw [same]
  refine ⟨fun clean => ?_, fun first member => ?_⟩
  · obtain ⟨behind, predicts, closed, ended, -⟩ := fine clean
    rw [ended (of_decide_eq_true closed)] at predicts
    exact (predicts []).trans rfl
  · obtain ⟨place, faulty, span⟩ := worst first member
    exact ⟨place, faulty [], span⟩

end LetFn.Action
