import LetFn.Parser.Comes
import LetFn.Parser.Loops

namespace LetFn

namespace ParseState

theorem advance_remaining (state : ParseState) : state.advance.remaining = state.remaining - 1 :=
  List.length_tail

/-- Behind the last token there is only the end. -/
theorem current_kind_of_remaining {state : ParseState} (exhausted : state.remaining = 0) :
    state.current.kind = .eof := by
  simp [current, TokenStream.current, TokenStream.endToken, List.length_eq_zero_iff.mp exhausted]

theorem peek_kind_of_remaining {state : ParseState} (last : state.remaining ≤ 1) : state.peek.kind = .eof := by
  have none : state.stream.ahead.tail = [] := List.length_eq_zero_iff.mp (by
    rw [List.length_tail]
    exact Nat.sub_eq_zero_of_le last)
  simp [peek, TokenStream.peek, TokenStream.endToken, none]

theorem remaining_pos {state : ParseState} (more : state.current.kind ≠ .eof) : 0 < state.remaining := by
  by_cases exhausted : state.remaining = 0
  · exact absurd (current_kind_of_remaining exhausted) more
  · omega

theorem two_le_remaining {state : ParseState} (more : state.peek.kind ≠ .eof) : 2 ≤ state.remaining := by
  by_cases last : state.remaining ≤ 1
  · exact absurd (peek_kind_of_remaining last) more
  · omega

end ParseState

namespace Action

variable {α β : Type}

/-- From `state`, `action` comes to an end by itself, and then at most `bound` tokens remain. -/
abbrev Ends (bound : Nat) (action : Action α) (state : ParseState) : Prop :=
  action.ComesTo False (fun _ later => later.remaining ≤ bound) (fun _ later => later.remaining ≤ bound) state

theorem Ends.mono {action : Action α} {state : ParseState} {low high : Nat} (ends : action.Ends low state)
    (le : low ≤ high) : action.Ends high state :=
  ComesTo.mono ends (fun _ _ within => Nat.le_trans within le) fun _ _ within => Nat.le_trans within le

theorem Ends.bind {low high : Nat} {first : Action α} {next : α → Action β} {state : ParseState}
    (ends : first.Ends low state) (le : low ≤ high)
    (continues : ∀ value later, later.remaining ≤ low → (next value).Ends high later) :
    (first >>= next).Ends high state :=
  ComesTo.bind (ComesTo.mono ends (fun _ _ within => within) fun _ _ within => Nat.le_trans within le) continues

theorem Ends.orRecord {bound : Nat} {action : Action α} {state : ParseState} (ends : action.Ends bound state) :
    (orRecord action).Ends bound state := by
  refine (ComesTo.orRecord ends).mono (fun found later recorded => ?_) fun _ _ within => within
  cases found with
  | some value => exact recorded
  | none =>
    obtain ⟨between, diagnostic, within, rfl⟩ := recorded
    exact within

/-- A token that is expected and there is not the end of the source, so going on to it is a step forward. -/
theorem ends_expectPeek {bound : Nat} {expected : TokenKind} {next : Unit → Action α} {state : ParseState}
    (proper : expected ≠ .eof) (within : state.remaining ≤ bound)
    (continues : 2 ≤ state.remaining → (next ()).Ends bound state.advance) :
    (expectPeek expected >>= next).Ends bound state :=
  comes_expectPeek (fun _ => within) fun there => continues (ParseState.two_le_remaining (by rw [there]; exact proper))

theorem ends_skipSemicolon {bound : Nat} {next : Unit → Action α} {state : ParseState}
    (continues : ∀ later, later.remaining ≤ state.remaining → (next ()).Ends bound later) :
    (skipSemicolon >>= next).Ends bound state := by
  refine comes_skipSemicolon fun later place => continues later ?_
  rcases place with rfl | rfl
  · exact Nat.le_refl _
  · have less := state.advance_remaining
    omega

theorem ends_commaItems {item : Action α} {bound : Nat}
    (ends : ∀ state, state.remaining ≤ bound → item.Ends state.remaining state) :
    ∀ fuel state, state.remaining ≤ bound → state.remaining < fuel →
      (commaItems item fuel).Ends state.remaining state := by
  intro fuel
  induction fuel with
  | zero => intro state _ enough; omega
  | succ fuel ih =>
    intro state within enough
    have less := state.advance_remaining
    refine comes_peek (.ite (fun comma => comes_advance ?_) fun _ => comes_pure (Nat.le_refl _))
    have more : 2 ≤ state.remaining := ParseState.two_le_remaining (by rw [comma]; decide)
    refine (ends _ (by omega)).bind (by omega) ?_
    intro first later left
    exact (ih later (by omega) (by omega)).bind (by omega) fun _ _ left => comes_pure (by omega)

theorem ends_closedItems {item : Action α} {bound fuel : Nat} {state : ParseState}
    (ends : ∀ state, state.remaining ≤ bound → item.Ends state.remaining state)
    (within : state.remaining ≤ bound) (enough : state.remaining < fuel) :
    (closedItems item fuel).Ends state.remaining state := by
  have less := state.advance_remaining
  refine comes_peek (.ite (fun _ => comes_advance (comes_pure (by omega))) fun _ => ?_)
  refine (ends state within).bind (Nat.le_refl _) ?_
  intro first later left
  refine (ends_commaItems ends fuel later (by omega) (by omega)).bind left ?_
  intro others last left
  refine ends_expectPeek (by decide) (by omega) fun more => ?_
  have less := last.advance_remaining
  exact comes_pure (by omega)

theorem ends_statements {closes : TokenKind → Bool} {statement : Action Stmt} {bound : Nat}
    (eof_closes : closes .eof = true)
    (ends : ∀ state, 0 < state.remaining → state.remaining ≤ bound → statement.Ends state.remaining state) :
    ∀ fuel state, state.remaining ≤ bound → state.remaining < fuel →
      (statements closes statement fuel).Ends state.remaining state := by
  intro fuel
  induction fuel with
  | zero => intro state _ enough; omega
  | succ fuel ih =>
    intro state within enough
    refine comes_current (.ite (fun _ => comes_pure (Nat.le_refl _)) fun unclosed => comes_countRound ?_)
    have more : 0 < state.remaining := ParseState.remaining_pos fun eof => unclosed (by rw [eof]; exact eof_closes)
    refine (ends state.countRound more within).orRecord.bind (Nat.le_refl _) ?_
    intro first later left
    change later.remaining ≤ state.remaining at left
    have less := later.advance_remaining
    refine comes_advance ((ih _ (by omega) (by omega)).bind (by omega) ?_)
    intro others last left
    exact comes_pure (by omega)

/-- `action` never gives up with a complaint, wherever it starts. -/
def Tolerant (action : Action α) : Prop :=
  ∀ state, action.ComesTo True (fun _ _ => True) (fun _ _ => False) state

theorem pure_tolerant (value : α) : (pure value : Action α).Tolerant :=
  fun _ => comes_pure trivial

theorem orRecord_tolerant (action : Action α) : (orRecord action).Tolerant := by
  intro state
  have anyhow : action.ComesTo True (fun _ _ => True) (fun _ _ => True) state :=
    .of_cases (fun _ _ _ => trivial) (fun _ _ _ => trivial) fun _ _ => trivial
  exact anyhow.orRecord.mono (fun _ _ _ => trivial) fun _ _ never => never

theorem Tolerant.bind {first : Action α} {next : α → Action β} (tolerant : first.Tolerant)
    (continues : ∀ value, (next value).Tolerant) : (first >>= next).Tolerant :=
  fun state => (tolerant state).bind fun value later _ => continues value later

/-- From `state`, `action` gives up with a complaint, and then no token remains. -/
abbrev Fails (action : Action α) (state : ParseState) : Prop :=
  action.ComesTo False (fun _ _ => False) (fun _ later => later.remaining = 0) state

theorem Fails.ends {action : Action α} {state : ParseState} (fails : action.Fails state) (bound : Nat) :
    action.Ends bound state :=
  ComesTo.mono fails (fun _ _ never => never.elim) fun _ _ none => none ▸ Nat.zero_le bound

theorem Fails.bind {first : Action α} {state : ParseState} (fails : first.Fails state) (next : α → Action β) :
    (first >>= next).Fails state :=
  ComesTo.bind fails fun _ _ never => never.elim

theorem ends_climb {rules : Rules} {grow : InfixRule → Expr → Power → Action Expr} {power : Power} {bound : Nat}
    (ends : ∀ rule left power state, state.remaining ≤ bound → (grow rule left power).Ends state.remaining state)
    (fails : ∀ rule left power state, state.remaining = 0 → (grow rule left power).Fails state) :
    ∀ fuel left state, state.remaining ≤ bound + 1 → state.remaining < fuel →
      (climb rules grow power fuel left).Ends state.remaining state := by
  intro fuel
  induction fuel with
  | zero => intro left state _ enough; omega
  | succ fuel ih =>
    intro left state within enough
    have less := state.advance_remaining
    refine comes_peek (.ite (fun _ => ?_) fun _ => comes_pure (Nat.le_refl _))
    cases rules.infixRule state.peek.kind with
    | none => exact comes_pure (Nat.le_refl _)
    | some rule =>
      refine comes_advance (comes_current ?_)
      by_cases last : state.advance.remaining = 0
      · exact ((fails rule left _ state.advance last).bind _).ends _
      · refine (ends _ _ _ _ (by omega)).bind (by omega) ?_
        intro grown later left
        exact (ih grown later (by omega) (by omega)).mono (by omega)

end Action

end LetFn
