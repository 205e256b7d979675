import LetFn.Proofs.Rules.Tables

namespace LetFn

namespace OpenParser

variable {ι κ σ : Type}

/-- The parser one token further on. -/
def advance (parser : OpenParser ι κ σ) : OpenParser ι κ σ :=
  { parser with state := parser.state.advance }

/-- Whether the next token belongs to an expression that holds whatever is more tight than `power`. -/
def GoesOn (power : Power) (parser : OpenParser ι κ σ) : Prop :=
  parser.state.peek.kind ≠ .semicolon ∧ power < parser.peekPower

instance (power : Power) (parser : OpenParser ι κ σ) : Decidable (parser.GoesOn power) :=
  inferInstanceAs (Decidable (_ ∧ _))

theorem goesOn_iff {power : Power} {parser : OpenParser ι κ σ} : parser.GoesOn power ↔
    parser.state.peek.kind ≠ .semicolon ∧ power < parser.rules.power parser.state.peek.kind :=
  Iff.rfl

theorem ended_of_not_goesOn {power : Power} {parser : OpenParser ι κ σ} (stops : ¬parser.GoesOn power) :
    parser.state.peek.kind = .semicolon ∨ parser.peekPower ≤ power := by
  by_cases semicolon : parser.state.peek.kind = .semicolon
  · exact .inl semicolon
  · exact .inr (Nat.le_of_not_lt fun holds => stops ⟨semicolon, holds⟩)

end OpenParser

/-- Where a call ends that comes to an end by itself: with an expression or a complaint, and with the parser as it
leaves it. -/
structure Outcome (ι κ σ : Type) where
  result : Except Diagnostic Expr
  parser : OpenParser ι κ σ

/-- From `reached`, `next` goes on to `outcome` with the expression that there is. A complaint is the end. -/
def Outcome.Then {ι κ σ : Type} (next : Expr → OpenParser ι κ σ → Outcome ι κ σ → Prop)
    (reached outcome : Outcome ι κ σ) : Prop :=
  match reached.result with
  | .ok left => next left reached.parser outcome
  | .error _ => outcome = reached

/-- What the rules for expressions do to the parser that comes upon them. They are free to do with it what they like, or
never to come to an end, but there is no other way to change its tables than by registrations. -/
structure Meaning (ι κ σ : Type) where
  opening : ι → OpenParser ι κ σ → Outcome ι κ σ → Prop
  extension : κ → Expr → Power → OpenParser ι κ σ → Outcome ι κ σ → Prop
  opening_registered {rule parser outcome} : opening rule parser outcome → parser.rules.Registered →
    outcome.parser.rules.Registered
  extension_registered {rule left power parser outcome} : extension rule left power parser outcome →
    parser.rules.Registered → outcome.parser.rules.Registered

namespace Meaning

variable {ι κ σ : Type}

section Calls

variable (meaning : Meaning ι κ σ) (early : Prop) (power : Power)

/-- What the loop over the operators comes to from an expression. Only if `early` allows it may the loop end for want of
a rule for a token that it would go on to. -/
inductive Climb : Expr → OpenParser ι κ σ → Outcome ι κ σ → Prop
  | stop {left parser} : ¬parser.GoesOn power → Climb left parser ⟨.ok left, parser⟩
  | unruled {left parser} : early → parser.GoesOn power → parser.rules.infixRule parser.state.peek.kind = none →
      Climb left parser ⟨.ok left, parser⟩
  | fail {left parser rule diagnostic later} : parser.GoesOn power →
      parser.rules.infixRule parser.state.peek.kind = some rule →
      meaning.extension rule left parser.advance.currentPower parser.advance ⟨.error diagnostic, later⟩ →
      Climb left parser ⟨.error diagnostic, later⟩
  | turn {left parser rule grown between outcome} : parser.GoesOn power →
      parser.rules.infixRule parser.state.peek.kind = some rule →
      meaning.extension rule left parser.advance.currentPower parser.advance ⟨.ok grown, between⟩ →
      Climb grown between outcome → Climb left parser outcome

/-- What a call for an expression comes to. -/
inductive Expression (parser : OpenParser ι κ σ) : Outcome ι κ σ → Prop
  | unopened : parser.rules.prefixRule parser.state.current.kind = none →
      Expression parser ⟨.error (parser.state.problemHere (.noPrefixRule parser.state.current.kind)), parser⟩
  | opened {rule reached outcome} : parser.rules.prefixRule parser.state.current.kind = some rule →
      meaning.opening rule parser reached → reached.Then (meaning.Climb early power) outcome →
      Expression parser outcome

end Calls

variable {meaning : Meaning ι κ σ} {early : Prop} {power : Power} {left value : Expr} {parser later : OpenParser ι κ σ}
  {outcome : Outcome ι κ σ}

/-- Wherever the loop comes to, the tables come of registrations, so they are in step and have the rule it needs. -/
theorem Climb.registered (climb : meaning.Climb early power left parser outcome)
    (registered : parser.rules.Registered) :
    meaning.Climb False power left parser outcome ∧ outcome.parser.rules.Registered := by
  induction climb with
  | stop stops => exact ⟨.stop stops, registered⟩
  | unruled _ goesOn missing =>
    obtain ⟨rule, found⟩ := registered.inStep.ruled goesOn.2
    rw [missing] at found
    cases found
  | fail goesOn found grows => exact ⟨.fail goesOn found grows, meaning.extension_registered grows registered⟩
  | turn goesOn found grows _ ih =>
    obtain ⟨further, kept⟩ := ih (meaning.extension_registered grows registered)
    exact ⟨.turn goesOn found grows further, kept⟩

theorem Expression.registered (expression : meaning.Expression early power parser outcome)
    (registered : parser.rules.Registered) :
    meaning.Expression False power parser outcome ∧ outcome.parser.rules.Registered := by
  cases expression with
  | unopened missing => exact ⟨.unopened missing, registered⟩
  | @opened rule reached _ found opens further =>
    have kept := meaning.opening_registered opens registered
    obtain ⟨result, between⟩ := reached
    cases result with
    | ok left =>
      obtain ⟨climb, kept⟩ := Climb.registered further kept
      exact ⟨.opened found opens climb, kept⟩
    | error diagnostic =>
      cases further
      exact ⟨.opened found opens rfl, kept⟩

/-- A loop that does not end for want of a rule ends where it does not go on. -/
theorem Climb.stops (climb : meaning.Climb False power left parser ⟨.ok value, later⟩) : ¬later.GoesOn power := by
  generalize reached : (⟨.ok value, later⟩ : Outcome ι κ σ) = outcome at climb
  induction climb with
  | stop stops =>
    cases reached
    exact stops
  | unruled never => exact never.elim
  | fail => cases reached
  | turn _ _ _ _ ih => exact ih reached

theorem Expression.stops (expression : meaning.Expression False power parser ⟨.ok value, later⟩) :
    ¬later.GoesOn power := by
  cases expression with
  | @opened rule reached _ found opens further =>
    obtain ⟨result, between⟩ := reached
    cases result with
    | ok left => exact Climb.stops further
    | error diagnostic => cases further

end Meaning

end LetFn
