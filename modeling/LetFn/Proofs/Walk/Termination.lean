import LetFn.Parse
import LetFn.Proofs.Lexing.Stream
import LetFn.Proofs.Parser.Fuel
import LetFn.Proofs.Walk.Routines

namespace LetFn

namespace Action

variable {α : Type} {rules : Rules}

/-- With fuel in proportion to the tokens that remain, `routine` comes to an end by itself, and more fuel makes no
difference to where it ends. -/
def Finishes (routine : Nat → Action α) (state : ParseState) : Prop :=
  (∀ later, routine state.fuel state ≠ .error .outOfFuel later) ∧
    ∀ fuel, state.fuel ≤ fuel → routine fuel state = routine state.fuel state

theorem Ends.finishes {routine : Nat → Action α} {state : ParseState} {bound : Nat}
    (ends : (routine state.fuel).Ends bound state)
    (below : ∀ {fuel further : Nat}, fuel ≤ further → Below (routine fuel) (routine further)) :
    Finishes routine state := by
  refine ⟨fun _ => ends.of_outOfFuel, fun fuel enough => ?_⟩
  rcases below enough state with ⟨later, cut⟩ | same
  · exact (ends.of_outOfFuel cut).elim
  · exact same.symm

/-- A program is read to the end of the source, and the statement loops on the way take no more turns than there
are tokens to start one at. -/
theorem program_reaches_end (grounded : rules.Grounded) (state : ParseState) :
    ∃ program later, (∀ fuel, state.fuel ≤ fuel → Action.program rules fuel state = .ok program later) ∧
      later.current.kind = .eof ∧ later.rounds ≤ state.rounds + state.remaining := by
  have enough : 4 * state.remaining + 4 ≤ state.fuel := by
    unfold ParseState.fuel
    omega
  obtain ⟨program, later, run⟩ := program_ok grounded state enough
  obtain ⟨walk, ended⟩ := (walks_program rules state.fuel state).of_ok run
  have turns := walk.rounds_le
  rw [if_pos rfl] at turns
  exact ⟨program, later, fun fuel enough => (program_below rules enough).ok run, ended, by omega⟩

theorem program_finishes (grounded : rules.Grounded) (state : ParseState) : Finishes (program rules) state := by
  obtain ⟨program, later, run, _⟩ := program_reaches_end grounded state
  refine ⟨fun last cut => ?_, fun fuel enough => (run fuel enough).trans (run _ (Nat.le_refl _)).symm⟩
  rw [run _ (Nat.le_refl _)] at cut
  cases cut

/-- Under grounded rules every run comes to an end: that of any routine from wherever a parser stands, and that
over a whole source, which it leaves at its end after no more turns than it has tokens. -/
theorem grounded_runs_finish : Rules.standard.Grounded ∧ ∀ rules : Rules, rules.Grounded →
    (∀ state,
      (∀ power, Finishes (fun fuel => expression rules fuel power) state) ∧
      (∀ rule, Finishes (fun fuel => opening rules fuel rule) state) ∧
      (∀ rule left power, Finishes (fun fuel => extension rules fuel rule left power) state) ∧
      Finishes (fun fuel => block rules fuel) state ∧
      (∀ rule, Finishes (fun fuel => statement rules fuel rule) state) ∧
      Finishes (fun fuel => program rules fuel) state) ∧
    ∀ source, ∃ program later,
      (∀ fuel, (ParseState.ofString source).fuel ≤ fuel →
        Action.program rules fuel (.ofString source) = .ok program later) ∧
      later.current.kind = .eof ∧
      later.rounds ≤ ((tokenize source).filter (fun token => token.kind ≠ .eof)).length := by
  refine ⟨Rules.standard_grounded, fun rules grounded => ⟨fun state => ?_, fun source => ?_⟩⟩
  · have within := endsWithin grounded state.fuel
    have fuel : state.fuel = 4 * state.remaining + 16 := rfl
    refine ⟨fun power => ?_, fun rule => ?_, fun rule left power => ?_, ?_, fun rule => ?_,
      program_finishes grounded state⟩
    · exact (within.expression power state (by omega)).finishes fun le => (extends_of_le rules le).expression power
    · exact (within.opening rule state (by omega)).finishes fun le => (extends_of_le rules le).opening rule
    · exact (within.extension rule left power state (by omega)).finishes fun le =>
        (extends_of_le rules le).extension rule left power
    · exact (within.block state (by omega)).finishes fun le => (extends_of_le rules le).block
    · by_cases other : rule = .dispatch
      · subst other
        exact (within.dispatch state (by omega)).finishes fun le => (extends_of_le rules le).statement .dispatch
      · exact (within.statement rule state other (by omega)).finishes fun le =>
          (extends_of_le rules le).statement rule
  · obtain ⟨program, later, run, ended, turns⟩ := program_reaches_end grounded (.ofString source)
    rw [tokenize_filter]
    exact ⟨program, later, run, ended, turns.trans_eq (Nat.zero_add _)⟩

end Action

/-- Rules that put handlers where the language has none: a block is a statement, a conditional starts at a
semicolon, a brace calls what is before it, and an operator stands at the end of the source. -/
def Rules.crowded : Rules :=
  standard
    |>.setInfix .eof .call .operator
    |>.setInfix .rbrace .sum .call
    |>.setPrefix .semicolon .conditional
    |>.setStatement .lbrace .block

theorem Action.crowded_run_finishes :
    Rules.crowded.Grounded ∧ ∃ program later,
      (∀ fuel, (ParseState.ofString "\x7b a; \x7b b \x7d -").fuel ≤ fuel →
        Action.program .crowded fuel (.ofString "\x7b a; \x7b b \x7d -") = .ok program later) ∧
      later.current.kind = .eof ∧
      later.rounds ≤ ((tokenize "\x7b a; \x7b b \x7d -").filter (fun token => token.kind ≠ .eof)).length := by
  have grounded : Rules.crowded.Grounded := ⟨rfl, fun kind => by cases kind <;> decide⟩
  exact ⟨grounded, (Action.grounded_runs_finish.2 .crowded grounded).2 "\x7b a; \x7b b \x7d -"⟩

end LetFn
