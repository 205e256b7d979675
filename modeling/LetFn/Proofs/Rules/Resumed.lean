import LetFn.Proofs.Rules.Language
import LetFn.Tree.Text

namespace LetFn

theorem OpenParser.GoesOn.mono {ι κ σ : Type} {low high : Power} {parser : OpenParser ι κ σ}
    (goesOn : parser.GoesOn high) (le : low ≤ high) : parser.GoesOn low :=
  ⟨goesOn.1, Nat.lt_of_le_of_lt le goesOn.2⟩

namespace Meaning

variable {ι κ σ : Type} {meaning : Meaning ι κ σ} {early : Prop} {low high : Power} {left : Expr}
  {parser : OpenParser ι κ σ} {outcome reached : Outcome ι κ σ}

/-- The loop with the lower power takes the turns of the one with the higher. Where that ends it goes on alone. -/
theorem Climb.parted (climb : meaning.Climb early low left parser outcome) (le : low ≤ high) :
    ∃ reached, meaning.Climb early high left parser reached ∧ reached.Then (meaning.Climb early low) outcome := by
  induction climb with
  | @stop left parser stops => exact ⟨⟨.ok left, parser⟩, .stop fun goesOn => stops (goesOn.mono le), .stop stops⟩
  | @unruled left parser allowed goesOn missing =>
    by_cases further : parser.GoesOn high
    · exact ⟨⟨.ok left, parser⟩, .unruled allowed further missing, .unruled allowed goesOn missing⟩
    · exact ⟨⟨.ok left, parser⟩, .stop further, .unruled allowed goesOn missing⟩
  | @fail left parser rule diagnostic later goesOn found grows =>
    by_cases further : parser.GoesOn high
    · exact ⟨⟨.error diagnostic, later⟩, .fail further found grows, rfl⟩
    · exact ⟨⟨.ok left, parser⟩, .stop further, .fail goesOn found grows⟩
  | @turn left parser rule grown between outcome goesOn found grows others ih =>
    by_cases further : parser.GoesOn high
    · obtain ⟨reached, climb, rest⟩ := ih
      exact ⟨reached, .turn further found grows climb, rest⟩
    · exact ⟨⟨.ok left, parser⟩, .stop further, .turn goesOn found grows others⟩

theorem Climb.resumed (climb : meaning.Climb early high left parser reached) (le : low ≤ high)
    (rest : reached.Then (meaning.Climb early low) outcome) : meaning.Climb early low left parser outcome := by
  induction climb with
  | stop | unruled => exact rest
  | fail goesOn found grows =>
    cases rest
    exact .fail (goesOn.mono le) found grows
  | turn goesOn found grows _ ih => exact .turn (goesOn.mono le) found grows (ih rest)

theorem expression_resumed_iff (le : low ≤ high) : meaning.Expression early low parser outcome ↔
    ∃ reached, meaning.Expression early high parser reached ∧ reached.Then (meaning.Climb early low) outcome := by
  constructor
  · intro expression
    cases expression with
    | unopened missing => exact ⟨_, .unopened missing, rfl⟩
    | @opened rule first _ found opens further =>
      obtain ⟨result, between⟩ := first
      cases result with
      | ok left =>
        obtain ⟨reached, climb, rest⟩ := Climb.parted further le
        exact ⟨reached, .opened found opens climb, rest⟩
      | error diagnostic =>
        cases further
        exact ⟨⟨.error diagnostic, between⟩, .opened found opens rfl, rfl⟩
  · rintro ⟨reached, expression, rest⟩
    cases expression with
    | unopened missing =>
      cases rest
      exact .unopened missing
    | @opened rule first _ found opens further =>
      obtain ⟨result, between⟩ := first
      cases result with
      | ok left => exact .opened found opens (Climb.resumed further le rest)
      | error diagnostic =>
        cases further
        cases rest
        exact .opened found opens rfl

end Meaning

theorem Outcome.exists_ended {ι κ σ : Type} (rules : Tables ι κ σ) {result : EStateM.Result Stop ParseState Expr}
    (ends : ∀ later, result ≠ .error .outOfFuel later) :
    ∃ outcome : Outcome ι κ σ, outcome.parser.rules = rules ∧ outcome.ended = result := by
  cases result with
  | ok value later => exact ⟨⟨.ok value, ⟨rules, later⟩⟩, rfl, rfl⟩
  | error stop later =>
    cases stop with
    | problem diagnostic => exact ⟨⟨.error diagnostic, ⟨rules, later⟩⟩, rfl, rfl⟩
    | outOfFuel => exact absurd rfl (ends later)

namespace Action

open Meaning

/-- An expression that is asked for with a low power comes to the same, by success or failure, as one asked for with a
higher power and the loop over the operators with the lower one behind it. It is so under any rules of the language, and
under any other rules. -/
theorem expression_resumes {low high : Power} (le : low ≤ high) :
    (∀ (rules : Rules) (state : ParseState) (result : EStateM.Result Stop ParseState Expr),
      (∀ later, result ≠ .error .outOfFuel later) →
      ((∃ fuel, expression rules fuel low state = result) ↔
        ∃ fuel, (expression rules fuel high >>= climb rules (extension rules fuel) low fuel) state = result)) ∧
    ∀ {ι κ σ : Type} (meaning : Meaning ι κ σ) (parser : OpenParser ι κ σ) (outcome : Outcome ι κ σ),
      meaning.Expression True low parser outcome ↔
        ∃ reached, meaning.Expression True high parser reached ∧ reached.Then (meaning.Climb True low) outcome := by
  refine ⟨fun rules state result ends => ?_, fun meaning parser outcome => expression_resumed_iff le⟩
  obtain ⟨outcome, kept, rfl⟩ := Outcome.exists_ended rules ends
  let parser : Parser := ⟨rules, state⟩
  have below {fuel further : Nat} (le : fuel ≤ further) :
      Below (expression parser.rules fuel high) (expression parser.rules further high) :=
    (extends_of_le rules le).expression high
  calc (∃ fuel, expression rules fuel low state = outcome.ended)
    _ ↔ Attains (fun fuel => expression parser.rules fuel low) parser outcome := (and_iff_right kept).symm
    _ ↔ language.Expression True low parser outcome := expression_iff_attains.symm
    _ ↔ ∃ reached, language.Expression True high parser reached ∧
          reached.Then (language.Climb True low) outcome := expression_resumed_iff le
    _ ↔ ∃ reached, Attains (fun fuel => expression parser.rules fuel high) parser reached ∧
          reached.Then (language.Climb True low) outcome := by simp only [expression_iff_attains]
    _ ↔ Attains (fun fuel => expression parser.rules fuel high >>=
          climb parser.rules (extension parser.rules fuel) low fuel) parser outcome := (attains_climb below).symm
    _ ↔ _ := and_iff_right kept

/-- A product is read first, and the sum that it is part of behind it. -/
theorem expression_resumes_sum :
    let state := ParseState.ofString "a * b + c;"
    let run : Action Expr := expression .standard 40 .lowest
    Power.lowest ≤ .sum ∧ (run.run' state).map Expr.text = some "((a * b) + c)" ∧
      ∃ fuel, (expression .standard fuel .sum >>= climb .standard (extension .standard fuel) .lowest fuel) state =
        run state := by
  intro state run
  have read : (run.run' state).map Expr.text = some "((a * b) + c)" := by decide +kernel
  have ok : (run state matches .ok _ _) = true := by decide +kernel
  have ends (later : ParseState) : run state ≠ .error .outOfFuel later := by
    intro cut
    rw [cut] at ok
    cases ok
  have le : Power.lowest ≤ .sum := by decide
  exact ⟨le, read, ((expression_resumes le).1 .standard state (run state) ends).mp ⟨40, rfl⟩⟩

end Action

end LetFn
