import LetFn.Parser.Halting

namespace LetFn

/-- The state before the first token of `source`. -/
def ParseState.ofString (source : String) : ParseState :=
  .start (.ofString source)

theorem ParseState.program_ok (state : ParseState) :
    ∃ program later, Action.program .standard state.fuel state = .ok program later :=
  Action.program_ok Rules.standard_grounded state (by unfold fuel; omega)

/-- The program that `source` holds, and what is wrong with it, in the order in which it showed. A statement
that cannot be read is missing from the program. -/
def parse (source : String) : Program × List Diagnostic :=
  match run : Action.program .standard (ParseState.ofString source).fuel (.ofString source) with
  | .ok program later => (program, later.errors)
  | .error _ _ => False.elim (by
      obtain ⟨program, later, ok⟩ := (ParseState.ofString source).program_ok
      rw [run] at ok
      cases ok)

/-- `parse` gives what the run over the source gives, which is never cut short. -/
theorem parse_eq_of_run {source : String} {program : Program} {later : ParseState}
    (done : Action.program .standard (ParseState.ofString source).fuel (.ofString source) = .ok program later) :
    parse source = (program, later.errors) := by
  unfold parse
  split
  · rename_i found
    rw [done] at found
    cases found
    rfl
  · rename_i found
    rw [done] at found
    cases found

end LetFn
