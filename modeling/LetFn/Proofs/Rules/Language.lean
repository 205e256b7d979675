import LetFn.Proofs.Parser.Fuel
import LetFn.Proofs.Rules.Meaning

namespace LetFn

namespace Outcome

variable {ι κ σ : Type} {outcome : Outcome ι κ σ}

/-- The end of a run of actions, as an outcome has it. -/
def ended (outcome : Outcome ι κ σ) : EStateM.Result Stop ParseState Expr :=
  match outcome.result with
  | .ok value => .ok value outcome.parser.state
  | .error diagnostic => .error (.problem diagnostic) outcome.parser.state

theorem eq_of_ended {other : Outcome ι κ σ} (kept : outcome.parser.rules = other.parser.rules)
    (same : outcome.ended = other.ended) : outcome = other := by
  obtain ⟨result, rules, there⟩ := outcome
  obtain ⟨result', rules', there'⟩ := other
  cases kept
  cases result <;> cases result' <;> cases same <;> rfl

/-- An outcome is no run that was cut short. -/
theorem ended_ne (outcome : Outcome ι κ σ) {state : ParseState} : .error .outOfFuel state ≠ outcome.ended := by
  obtain ⟨result, there⟩ := outcome
  cases result <;> nofun

end Outcome

namespace Action

variable {parser : Parser} {outcome : Outcome PrefixRule InfixRule StatementRule} {power : Power} {left : Expr}
  {fuel turns : Nat}

section Turns

variable {grow : InfixRule → Expr → Power → Action Expr}

theorem climb_of_stops (stops : ¬parser.GoesOn power) :
    climb parser.rules grow power (turns + 1) left parser.state = .ok left parser.state := by
  rw [OpenParser.goesOn_iff] at stops
  rw [climb, bind_peek, if_neg stops]
  rfl

theorem climb_of_unruled (goesOn : parser.GoesOn power)
    (missing : parser.rules.infixRule parser.state.peek.kind = none) :
    climb parser.rules grow power (turns + 1) left parser.state = .ok left parser.state := by
  rw [OpenParser.goesOn_iff] at goesOn
  rw [climb, bind_peek, if_pos goesOn, missing]
  rfl

theorem climb_of_rule {rule : InfixRule} (goesOn : parser.GoesOn power)
    (found : parser.rules.infixRule parser.state.peek.kind = some rule) :
    climb parser.rules grow power (turns + 1) left parser.state =
      (grow rule left parser.advance.currentPower >>= climb parser.rules grow power turns) parser.advance.state := by
  rw [OpenParser.goesOn_iff] at goesOn
  rw [climb, bind_peek, if_pos goesOn, found]
  rfl

end Turns

/-- With fuel enough, `routine` comes from `parser` to `outcome`. It leaves the rules as they are. -/
def Attains (routine : Nat → Action Expr) (parser : Parser) (outcome : Outcome PrefixRule InfixRule StatementRule) :
    Prop :=
  outcome.parser.rules = parser.rules ∧ ∃ fuel, routine fuel parser.state = outcome.ended

theorem Below.attained {less more : Action Expr} {state : ParseState} (below : Below less more)
    (done : less state = outcome.ended) : more state = outcome.ended := by
  rcases below state with ⟨later, cut⟩ | same
  · exact absurd (cut.symm.trans done) outcome.ended_ne
  · exact same.symm.trans done

end Action

/-- What the rules of the language do. -/
def Meaning.language : Meaning PrefixRule InfixRule StatementRule where
  opening rule parser := Action.Attains (fun fuel => Action.opening parser.rules fuel rule) parser
  extension rule left power parser :=
    Action.Attains (fun fuel => Action.extension parser.rules fuel rule left power) parser
  opening_registered attains registered := by
    rw [attains.1]
    exact registered
  extension_registered attains registered := by
    rw [attains.1]
    exact registered

namespace Action

open Meaning

variable {parser : Parser} {outcome : Outcome PrefixRule InfixRule StatementRule} {power : Power} {left : Expr}
  {fuel turns : Nat}

theorem climb_of_run (kept : outcome.parser.rules = parser.rules)
    (run : climb parser.rules (extension parser.rules fuel) power turns left parser.state = outcome.ended) :
    language.Climb True power left parser outcome := by
  induction turns generalizing left parser with
  | zero => exact absurd run outcome.ended_ne
  | succ turns ih =>
    by_cases goesOn : parser.GoesOn power
    · cases found : parser.rules.infixRule parser.state.peek.kind with
      | none =>
        have ended := run.symm.trans (climb_of_unruled goesOn found)
        obtain rfl : outcome = ⟨.ok left, parser⟩ := Outcome.eq_of_ended kept ended
        exact .unruled trivial goesOn found
      | some rule =>
        have turn := (climb_of_rule goesOn found).symm.trans run
        cases grows : extension parser.rules fuel rule left parser.advance.currentPower parser.advance.state with
        | ok grown state =>
          let between : Parser := { parser with state }
          have one : language.extension rule left parser.advance.currentPower parser.advance ⟨.ok grown, between⟩ :=
            ⟨rfl, fuel, grows⟩
          have further : language.Climb True power grown between outcome :=
            ih kept ((bind_of_ok grows _).symm.trans turn)
          exact .turn goesOn found one further
        | error stop state =>
          have ended := (bind_of_error grows _).symm.trans turn
          cases stop with
          | problem diagnostic =>
            obtain rfl : outcome = ⟨.error diagnostic, { parser with state }⟩ := Outcome.eq_of_ended kept ended.symm
            exact .fail goesOn found ⟨rfl, fuel, grows⟩
          | outOfFuel => exact absurd ended outcome.ended_ne
    · obtain rfl : outcome = ⟨.ok left, parser⟩ := Outcome.eq_of_ended kept (run.symm.trans (climb_of_stops goesOn))
      exact .stop goesOn

theorem climb_below (rules : Rules) (power : Power) (left : Expr) {fuel further turns turns' : Nat}
    (le : fuel ≤ further) (le' : turns ≤ turns') : Below (climb rules (extension rules fuel) power turns left)
      (climb rules (extension rules further) power turns' left) :=
  .climb (extends_of_le rules le).extension le'

theorem run_of_climb (climbs : language.Climb True power left parser outcome) :
    Attains (fun fuel => climb parser.rules (extension parser.rules fuel) power fuel left) parser outcome := by
  induction climbs with
  | stop stops => exact ⟨rfl, 1, climb_of_stops stops⟩
  | unruled _ goesOn missing => exact ⟨rfl, 1, climb_of_unruled goesOn missing⟩
  | @fail left parser rule diagnostic later goesOn found grows =>
    obtain ⟨kept, fuel, run⟩ := grows
    have more := ((extends_of_le parser.rules (Nat.le_succ fuel)).extension rule left _).attained run
    exact ⟨kept, fuel + 1, (climb_of_rule goesOn found).trans (bind_of_error more _)⟩
  | @turn left parser rule grown between outcome goesOn found grows _ ih =>
    obtain ⟨rules, state⟩ := between
    obtain ⟨same, fuel, run⟩ := grows
    obtain ⟨kept, turns, further⟩ := ih
    cases same
    -- Both this turn and those after it come out the same with fuel for either.
    have le : fuel ≤ max fuel turns + 1 := by omega
    have le' : turns ≤ max fuel turns + 1 := by omega
    have one := ((extends_of_le parser.rules le).extension rule left _).ok run
    have others := (climb_below parser.rules power grown le' (Nat.le_max_right fuel turns)).attained further
    exact ⟨kept, max fuel turns + 1, (climb_of_rule goesOn found).trans ((bind_of_ok one _).trans others)⟩

/-- Where the loop over the operators runs behind a routine, it goes on from what that has come to. -/
theorem attains_climb {first : Nat → Action Expr}
    (below : ∀ {fuel further}, fuel ≤ further → Below (first fuel) (first further)) :
    Attains (fun fuel => first fuel >>= climb parser.rules (extension parser.rules fuel) power fuel) parser outcome ↔
      ∃ reached, Attains first parser reached ∧ reached.Then (language.Climb True power) outcome := by
  constructor
  · rintro ⟨kept, fuel, run⟩
    cases one : first fuel parser.state with
    | ok left state =>
      let between : Parser := { parser with state }
      have further : language.Climb True power left between outcome :=
        climb_of_run kept ((bind_of_ok one _).symm.trans run)
      exact ⟨⟨.ok left, between⟩, ⟨rfl, fuel, one⟩, further⟩
    | error stop state =>
      have ended := (bind_of_error one _).symm.trans run
      cases stop with
      | problem diagnostic =>
        exact ⟨⟨.error diagnostic, { parser with state }⟩, ⟨rfl, fuel, one⟩, Outcome.eq_of_ended kept ended.symm⟩
      | outOfFuel => exact absurd ended outcome.ended_ne
  · rintro ⟨⟨result, rules, state⟩, ⟨same, fuel, one⟩, further⟩
    cases same
    cases result with
    | ok left =>
      obtain ⟨kept, turns, two⟩ := run_of_climb further
      have begun := (below (Nat.le_max_left fuel turns)).ok one
      have le : turns ≤ max fuel turns := Nat.le_max_right fuel turns
      have others := (climb_below parser.rules power left le le).attained two
      exact ⟨kept, max fuel turns, (bind_of_ok begun _).trans others⟩
    | error diagnostic =>
      cases further
      exact ⟨rfl, fuel, bind_of_error one _⟩

/-- An expression of the language is what its rules make of it, with fuel enough. -/
theorem expression_iff_attains : language.Expression True power parser outcome ↔
    Attains (fun fuel => expression parser.rules fuel power) parser outcome := by
  have below (rule : PrefixRule) {fuel further} (le : fuel ≤ further) :
      Below (opening parser.rules fuel rule) (opening parser.rules further rule) :=
    (extends_of_le parser.rules le).opening rule
  constructor
  · intro reads
    cases reads with
    | unopened missing => exact ⟨rfl, 1, expression_of_no_rule missing⟩
    | @opened rule reached _ found opens further =>
      obtain ⟨kept, fuel, run⟩ := (attains_climb (below rule)).mpr ⟨reached, opens, further⟩
      exact ⟨kept, fuel + 1, (expression_of_rule found).trans run⟩
  · rintro ⟨kept, fuel, run⟩
    cases fuel with
    | zero => exact absurd run outcome.ended_ne
    | succ fuel =>
      cases found : parser.rules.prefixRule parser.state.current.kind with
      | none =>
        have failed := run.symm.trans (expression_of_no_rule found)
        obtain rfl : outcome = ⟨.error (parser.state.problemHere (.noPrefixRule parser.state.current.kind)), parser⟩ :=
          Outcome.eq_of_ended kept failed
        exact .unopened found
      | some rule =>
        have parts := (expression_of_rule found).symm.trans run
        obtain ⟨reached, opens, further⟩ := (attains_climb (below rule)).mp ⟨kept, fuel, parts⟩
        exact .opened found opens further

end Action

end LetFn
