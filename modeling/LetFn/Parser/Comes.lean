import LetFn.Parser.State

namespace LetFn.Action

variable {α β : Type}

/-- A run of `action` from `state` comes to a value that is good together with the state that it leaves, or it gives up
with a complaint that is bad together with the state that it leaves. Where it may be cut short, `cut` holds. -/
def ComesTo (cut : Prop) (good : α → ParseState → Prop) (bad : Diagnostic → ParseState → Prop) (action : Action α)
    (state : ParseState) : Prop :=
  match action state with
  | .ok value later => good value later
  | .error (.problem diagnostic) later => bad diagnostic later
  | .error .outOfFuel _ => cut

variable {cut : Prop} {good : α → ParseState → Prop} {bad : Diagnostic → ParseState → Prop} {state : ParseState}

theorem ComesTo.of_ok {action : Action α} (comes : action.ComesTo cut good bad state) {value : α} {later : ParseState}
    (run : action state = .ok value later) : good value later := by
  unfold ComesTo at comes
  rwa [run] at comes

theorem ComesTo.of_problem {action : Action α} (comes : action.ComesTo cut good bad state) {diagnostic : Diagnostic}
    {later : ParseState} (run : action state = .error (.problem diagnostic) later) : bad diagnostic later := by
  unfold ComesTo at comes
  rwa [run] at comes

theorem ComesTo.of_outOfFuel {action : Action α} (comes : action.ComesTo cut good bad state) {later : ParseState}
    (run : action state = .error .outOfFuel later) : cut := by
  unfold ComesTo at comes
  rwa [run] at comes

theorem ComesTo.of_eq {first second : Action α} {between : ParseState} (same : first state = second between)
    (comes : second.ComesTo cut good bad between) : first.ComesTo cut good bad state := by
  unfold ComesTo
  rw [same]
  exact comes

/-- There are three ways in which a run can end. -/
theorem ComesTo.of_cases {action : Action α} (value : ∀ value later, action state = .ok value later → good value later)
    (problem : ∀ diagnostic later, action state = .error (.problem diagnostic) later → bad diagnostic later)
    (outOfFuel : ∀ later, action state = .error .outOfFuel later → cut) : action.ComesTo cut good bad state := by
  unfold ComesTo
  cases run : action state with
  | ok found later => exact value found later run
  | error stop later =>
    cases stop with
    | problem diagnostic => exact problem diagnostic later run
    | outOfFuel => exact outOfFuel later run

theorem ComesTo.mono {good' : α → ParseState → Prop} {bad' : Diagnostic → ParseState → Prop} {action : Action α}
    (comes : action.ComesTo cut good bad state) (better : ∀ value later, good value later → good' value later)
    (worse : ∀ diagnostic later, bad diagnostic later → bad' diagnostic later) : action.ComesTo cut good' bad' state :=
  .of_cases (fun value later run => better value later (comes.of_ok run))
    (fun diagnostic later run => worse diagnostic later (comes.of_problem run)) fun _ run => comes.of_outOfFuel run

theorem ComesTo.bind {middle : α → ParseState → Prop} {good : β → ParseState → Prop} {first : Action α}
    {next : α → Action β} (comes : first.ComesTo cut middle bad state)
    (continues : ∀ value later, middle value later → (next value).ComesTo cut good bad later) :
    (first >>= next).ComesTo cut good bad state := by
  cases run : first state with
  | ok value later => exact .of_eq (bind_of_ok run next) (continues value later (comes.of_ok run))
  | error stop later =>
    unfold ComesTo
    rw [bind_of_error run]
    cases stop with
    | problem diagnostic => exact comes.of_problem run
    | outOfFuel => exact comes.of_outOfFuel run

theorem comes_pure {value : α} (fine : good value state) : (pure value : Action α).ComesTo cut good bad state :=
  fine

theorem comes_outOfFuel : (throw .outOfFuel : Action α).ComesTo True good bad state :=
  trivial

theorem comes_failHere {problem : Problem} (worst : bad (state.problemHere problem) state) :
    (failHere problem : Action α).ComesTo cut good bad state :=
  worst

theorem comes_current {next : Token → Action α} (continues : (next state.current).ComesTo cut good bad state) :
    (current >>= next).ComesTo cut good bad state :=
  continues

theorem comes_peek {next : Token → Action α} (continues : (next state.peek).ComesTo cut good bad state) :
    (peek >>= next).ComesTo cut good bad state :=
  continues

theorem comes_advance {next : Unit → Action α} (continues : (next ()).ComesTo cut good bad state.advance) :
    (advance >>= next).ComesTo cut good bad state :=
  continues

theorem comes_countRound {next : Unit → Action α} (continues : (next ()).ComesTo cut good bad state.countRound) :
    (countRound >>= next).ComesTo cut good bad state :=
  continues

theorem comes_expectPeek {expected : TokenKind} {next : Unit → Action α}
    (worst : state.peek.kind ≠ expected → bad (state.unexpectedPeek expected) state)
    (continues : state.peek.kind = expected → (next ()).ComesTo cut good bad state.advance) :
    (expectPeek expected >>= next).ComesTo cut good bad state := by
  by_cases there : state.peek.kind = expected
  · exact .of_eq (bind_of_ok (expectPeek_of_eq there) next) (continues there)
  · unfold ComesTo
    rw [bind_of_error (expectPeek_of_ne there)]
    exact worst there

theorem comes_skipSemicolon {next : Unit → Action α}
    (continues : ∀ later, later = state ∨ later = state.advance → (next ()).ComesTo cut good bad later) :
    (skipSemicolon >>= next).ComesTo cut good bad state := by
  by_cases there : state.peek.kind = .semicolon
  · exact .of_eq (bind_of_ok (if_pos there) next) (continues _ (.inr rfl))
  · exact .of_eq (bind_of_ok (if_neg there) next) (continues _ (.inl rfl))

theorem ComesTo.ite {condition : Prop} [Decidable condition] {yes no : Action α}
    (first : condition → yes.ComesTo cut good bad state) (second : ¬condition → no.ComesTo cut good bad state) :
    (if condition then yes else no).ComesTo cut good bad state := by
  by_cases holds : condition
  · rw [if_pos holds]
    exact first holds
  · rw [if_neg holds]
    exact second holds

/-- What comes of a run whose complaint goes on record: its value, or none and a complaint more. -/
def Recorded (good : α → ParseState → Prop) (bad : Diagnostic → ParseState → Prop) : Option α → ParseState → Prop
  | some value, later => good value later
  | none, later => ∃ between diagnostic, bad diagnostic between ∧ later = between.record diagnostic

/-- Where a run gives up, its complaint goes on record, and the loop that it is part of does not give up. -/
theorem ComesTo.orRecord {bad' : Diagnostic → ParseState → Prop} {action : Action α}
    (comes : action.ComesTo cut good bad state) : (orRecord action).ComesTo cut (Recorded good bad) bad' state := by
  unfold ComesTo Action.orRecord
  cases run : action state with
  | ok value later => exact comes.of_ok run
  | error stop later =>
    cases stop with
    | problem diagnostic => exact ⟨later, diagnostic, comes.of_problem run, rfl⟩
    | outOfFuel => exact comes.of_outOfFuel run

end LetFn.Action
