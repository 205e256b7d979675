import LetFn.Parser.Comes
import LetFn.Parser.Loops

namespace LetFn.Action

variable {α : Type} {item : Action α} {good : List α → ParseState → Prop} {bad : Diagnostic → ParseState → Prop}

/-- What is good about the items so far, and stays so with each further one, is good about them all. -/
theorem comes_commaItems (onward : ∀ done state, good done state → good done state.advance)
    (step : ∀ done state, good done state →
      item.ComesTo True (fun value later => good (done ++ [value]) later) bad state) (fuel : Nat) :
    ∀ done state, good done state →
      (commaItems item fuel).ComesTo True (fun values later => good (done ++ values) later) bad state := by
  induction fuel with
  | zero => exact fun _ _ _ => comes_outOfFuel
  | succ fuel ih =>
    intro done state fine
    refine comes_peek (.ite (fun _ => comes_advance ?_) fun _ => comes_pure ?_)
    · refine (step done _ (onward done state fine)).bind fun first later one => ?_
      refine (ih _ later one).bind fun others last more => comes_pure ?_
      rw [List.append_cons]
      exact more
    · rw [List.append_nil]
      exact fine

theorem comes_closedItems {state : ParseState} (onward : ∀ done state, good done state → good done state.advance)
    (step : ∀ done state, good done state →
      item.ComesTo True (fun value later => good (done ++ [value]) later) bad state)
    (unclosed : ∀ done state, state.peek.kind ≠ .rparen → good done state → bad (state.unexpectedPeek .rparen) state)
    (fuel : Nat) (begun : good [] state) : (closedItems item fuel).ComesTo True good bad state := by
  refine comes_peek (.ite (fun _ => comes_advance (comes_pure (onward [] state begun))) fun _ => ?_)
  refine (step [] state begun).bind fun first later one => ?_
  refine (comes_commaItems onward step fuel [first] later one).bind fun others last more => ?_
  exact comes_expectPeek (fun other => unclosed _ last other more) fun _ => comes_pure (onward _ last more)

/-- A turn of a statement loop ends with a step forward, whether there is a statement then or a complaint. The loop ends
at a token that closes it. -/
theorem comes_statements {closes : TokenKind → Bool} {statement : Action Stmt} (good : List Stmt → ParseState → Prop)
    (turn : ∀ done state, closes state.current.kind = false → good done state →
      statement.ComesTo True (fun value later => good (done ++ [value]) later.advance)
        (fun diagnostic later => good done (later.record diagnostic).advance) state.countRound) (fuel : Nat) :
    ∀ done state, good done state → (statements closes statement fuel).ComesTo True
      (fun values later => good (done ++ values) later ∧ closes later.current.kind = true) bad state := by
  induction fuel with
  | zero => exact fun _ _ _ => comes_outOfFuel
  | succ fuel ih =>
    intro done state fine
    refine comes_current (.ite (fun closed => comes_pure ?_) fun unclosed => comes_countRound ?_)
    · rw [List.append_nil]
      exact ⟨fine, closed⟩
    · have step := turn done state (Bool.eq_false_iff.mpr unclosed) fine
      refine step.orRecord.bind fun found later recorded => comes_advance ?_
      have further : good (done ++ found.toList) later.advance := by
        cases found with
        | some value => exact recorded
        | none =>
          obtain ⟨between, diagnostic, left, rfl⟩ := recorded
          rw [Option.toList_none, List.append_nil]
          exact left
      refine (ih _ later.advance further).bind fun others last rest => comes_pure ?_
      rw [← List.append_assoc]
      exact rest

/-- What is good about an expression, and stays so as it grows, is good about the whole. -/
theorem comes_climb {rules : Rules} {grow : InfixRule → Expr → Power → Action Expr} {power : Power}
    {good : Expr → ParseState → Prop}
    (step : ∀ rule left power state, rules.infixRule state.peek.kind = some rule → good left state →
      (grow rule left power).ComesTo True good bad state.advance) (fuel : Nat) :
    ∀ left state, good left state → (climb rules grow power fuel left).ComesTo True good bad state := by
  induction fuel with
  | zero => exact fun _ _ _ => comes_outOfFuel
  | succ fuel ih =>
    intro left state fine
    refine comes_peek (.ite (fun _ => ?_) fun _ => comes_pure fine)
    cases found : rules.infixRule state.peek.kind with
    | none => exact comes_pure fine
    | some rule =>
      refine comes_advance (comes_current ((step rule left _ state found fine).bind ?_))
      exact fun grown later grew => ih grown later grew

end LetFn.Action
