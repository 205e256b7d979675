import LetFn.Proofs.Grammar.Standard
import LetFn.Proofs.Parser.Clean

namespace LetFn.Action

variable {α : Type}

/-- What a list in parentheses is, in terms of its items: `one` for an item, `more` for all from a comma on and
`all` for the whole from behind the parenthesis. Beside each stands what a first complaint can be that is made
on reading it. -/
structure Listing (item : Action α) (finish : Nat) where
  one : α → List Token → List Token → Prop
  more : List α → List Token → List Token → Prop
  all : List α → List Token → List Token → Prop
  badOne : List Token → Diagnostic → Prop
  badMore : List Token → Diagnostic → Prop
  badAll : List Token → Diagnostic → Prop
  runs : ∀ state : ParseState, state.stream.finish = finish →
    item.Runs (fun value rest => one value state.unread rest) (badOne state.unread) state
  last : ∀ {right rest}, right.kind = .rparen → more [] (right :: rest) rest
  next : ∀ {comma value values tokens between rest}, comma.kind = .comma → one value tokens between →
    more values between rest → more (value :: values) (comma :: tokens) rest
  empty : ∀ {right rest}, right.kind = .rparen → all [] (right :: rest) rest
  full : ∀ {value values tokens between rest}, nextKind tokens ≠ .rparen → one value tokens between →
    more values between rest → all (value :: values) tokens rest
  badNext : ∀ {comma tokens diagnostic}, comma.kind = .comma → badOne tokens diagnostic →
    badMore (comma :: tokens) diagnostic
  badLater : ∀ {comma value tokens between diagnostic}, comma.kind = .comma → one value tokens between →
    badMore between diagnostic → badMore (comma :: tokens) diagnostic
  badEnd : ∀ state : ParseState, state.stream.finish = finish → state.peek.kind ≠ .comma →
    state.peek.kind ≠ .rparen → badMore state.unread (state.unexpectedPeek .rparen)
  badFirst : ∀ {tokens diagnostic}, nextKind tokens ≠ .rparen → badOne tokens diagnostic →
    badAll tokens diagnostic
  badOthers : ∀ {value tokens between diagnostic}, nextKind tokens ≠ .rparen → one value tokens between →
    badMore between diagnostic → badAll tokens diagnostic

variable {item : Action α} {finish : Nat}

theorem Listing.runs_commaItems (listing : Listing item finish) (fuel : Nat) :
    ∀ state, state.stream.finish = finish →
      (commaItems item fuel).Runs
        (fun values rest => nextKind rest ≠ .comma ∧
          (∀ final, listing.more [] rest final → listing.more values state.unread final) ∧
          ∀ diagnostic, listing.badMore rest diagnostic → listing.badMore state.unread diagnostic)
        (listing.badMore state.unread) state := by
  induction fuel with
  | zero => exact fun _ _ => runs_outOfFuel
  | succ fuel ih =>
    intro state same
    refine runs_peek (Runs.ite (fun comma => ?_) fun other => ?_)
    · have front := state.unread_of_kind comma (by decide)
      refine runs_advance (Runs.bind ((listing.runs state.advance same).mono (fun _ _ => id) fun d bad => ?_) ?_)
      · rw [front]
        exact listing.badNext comma bad
      intro value later same'
      refine Runs.bind ((ih later (same'.trans same)).mono (fun _ _ => id) fun d bad one => ?_) ?_
      · rw [front]
        exact listing.badLater comma one bad
      intro values last same''
      refine runs_pure ?_
      rintro ⟨stopped, others, worse⟩ one
      rw [front]
      exact ⟨stopped, fun final ended => listing.next comma one (others final ended),
        fun d bad => listing.badLater comma one (worse d bad)⟩
    · refine runs_pure ⟨?_, fun _ => id, fun _ => id⟩
      rwa [ParseState.peek_kind] at other

theorem Listing.runs_closedItems (listing : Listing item finish) (fuel : Nat) (state : ParseState)
    (same : state.stream.finish = finish) :
    (closedItems item fuel).Runs (fun values rest => listing.all values state.unread rest)
      (listing.badAll state.unread) state := by
  refine runs_peek (Runs.ite (fun closed => ?_) fun other => ?_)
  · refine runs_advance (runs_pure ?_)
    rw [state.unread_of_kind closed (by decide)]
    exact listing.empty closed
  · rw [ParseState.peek_kind] at other
    refine Runs.bind ((listing.runs state same).mono (fun _ _ => id) fun d => listing.badFirst other) ?_
    intro value later same'
    refine Runs.bind ((listing.runs_commaItems fuel later (same'.trans same)).mono (fun _ _ => id)
      fun d bad one => listing.badOthers other one bad) ?_
    intro values last same''
    refine runs_expectPeek (fun missing ⟨stopped, _, worse⟩ one => ?_) fun closing => runs_pure ?_
    · rw [← ParseState.peek_kind] at stopped
      exact listing.badOthers other one
        (worse _ (listing.badEnd last (same''.trans (same'.trans same)) stopped missing))
    · rintro ⟨-, others, -⟩ one
      refine listing.full other one (others _ ?_)
      rw [last.unread_of_kind closing (by decide)]
      exact listing.last closing

/-- What a row of statements is, in terms of a statement, with the first complaints beside it. -/
structure Series (closes : TokenKind → Bool) (statement : Action Stmt) (finish : Nat) where
  one : Stmt → List Token → List Token → Prop
  many : List Stmt → List Token → List Token → Prop
  badOne : List Token → Diagnostic → Prop
  badMany : List Token → Diagnostic → Prop
  runs : ∀ state : ParseState, state.stream.finish = finish →
    statement.Runs (fun value rest => one value state.stream.ahead rest) (badOne state.stream.ahead) state
  empty : ∀ {tokens}, many [] tokens tokens
  next : ∀ {value values tokens between rest}, ¬closes (nextKind tokens) → one value tokens between →
    many values between rest → many (value :: values) tokens rest
  badFirst : ∀ {tokens diagnostic}, ¬closes (nextKind tokens) → badOne tokens diagnostic →
    badMany tokens diagnostic
  badLater : ∀ {value tokens between diagnostic}, ¬closes (nextKind tokens) → one value tokens between →
    badMany between diagnostic → badMany tokens diagnostic

theorem Series.runs_statements {closes : TokenKind → Bool} {statement : Action Stmt}
    (series : Series closes statement finish) (fuel : Nat) :
    ∀ state, state.stream.finish = finish →
      (statements closes statement fuel).Runs
        (fun values rest => ∃ behind, series.many values state.stream.ahead behind ∧
          closes (nextKind behind) ∧ (nextKind behind = .eof → behind = []) ∧ rest = behind.tail)
        (series.badMany state.stream.ahead) state := by
  induction fuel with
  | zero => exact fun _ _ => runs_outOfFuel
  | succ fuel ih =>
    intro state same
    refine runs_current (Runs.ite (fun closed => ?_) fun more => ?_)
    · refine .of_proper fun proper => ?_
      have ended := ParseState.ahead_eq_nil proper
      rw [ParseState.current_kind] at closed ended
      exact runs_pure ⟨_, series.empty, closed, ended, rfl⟩
    · rw [ParseState.current_kind] at more
      refine runs_countRound (Runs.bind
        (((series.runs state.countRound same).orRecord).mono (fun _ _ => id) fun _ => series.badFirst more) ?_)
      intro found later same'
      refine runs_advance (Runs.bind ((ih later.advance (same'.trans same)).mono (fun _ _ => id) ?_) ?_)
      · rintro d bad ⟨value, -, one⟩
        exact series.badLater more one bad
      intro others last same''
      refine runs_pure ?_
      rintro ⟨behind, many, closed⟩ ⟨value, rfl, one⟩
      exact ⟨behind, series.next more one many, closed⟩

/-- The statements of a program are those of the loop at its outermost level. -/
theorem statements_of_program {rules : Rules} {fuel : Nat} {state later : ParseState} {program : Program}
    (run : Action.program rules fuel state = .ok program later) :
    statements (· = .eof) (statement rules fuel .dispatch) fuel state = .ok program.statements later := by
  unfold Action.program at run
  cases loop : statements (· = .eof) (statement rules fuel .dispatch) fuel state with
  | ok values last =>
    rw [bind_of_ok loop] at run
    cases run
    rfl
  | error stop last =>
    rw [bind_of_error loop] at run
    cases run

/-- The loop over the operators takes a turn where the next token holds the operand more tightly, and that one
always has a rule. -/
theorem runs_climb {grow : InfixRule → Expr → Power → Action Expr} {power : Power} {turns : Nat} {left : Expr}
    {good : Expr → List Token → Prop} {bad : Diagnostic → Prop} {state : ParseState}
    (turn : ∀ rule, Rules.standard.infixRule state.peek.kind = some rule →
      power < Rules.standard.power state.peek.kind →
      (grow rule left (Rules.standard.power state.peek.kind) >>= climb .standard grow power turns).Runs
        good bad state.advance)
    (stop : power.Stops state.unread → good left state.unread) :
    (climb .standard grow power (turns + 1) left).Runs good bad state := by
  refine runs_peek (Runs.ite (fun held => ?_) fun stopped => ?_)
  · obtain ⟨rule, found⟩ := Rules.standard_infixRule_of_lt held.2
    simp only [found]
    exact runs_advance (runs_current (turn rule found held.2))
  · rw [ParseState.peek_kind] at stopped
    exact runs_pure (stop (Power.stops_of_not_lt stopped))

end LetFn.Action
