import LetFn.Parser.Halting

namespace LetFn

/-- What `problem` says of a token is so. -/
def Problem.Concerns (rules : Rules) : Problem → Token → Prop
  | unexpectedPeek expected actual, token => token.kind = actual ∧ actual ≠ expected
  | noPrefixRule kind, token => token.kind = kind ∧ rules.prefixRule kind = none
  | integerRange literal, token =>
    rules.prefixRule token.kind = some .integer ∧ token.literal = literal ∧ Text.integer64? literal = none

theorem TokenStream.drop_advance (stream : TokenStream) (count : Nat) :
    (stream.drop count).advance = stream.drop (count + 1) := by
  simp only [drop, advance, List.tail_drop]

namespace ParseState

/-- A complaint that can be made here: it is right about the current token or about the next one, and placed
there. -/
def Complains (rules : Rules) (state : ParseState) (diagnostic : Diagnostic) : Prop :=
  ∃ token, (token = state.current ∨ token = state.peek) ∧ diagnostic.span = token.span ∧
    diagnostic.problem.Concerns rules token

/-- The states that a parser comes through, beside each of them whether a statement loop may still take a turn at
its current token. No token is the first one of two turns, and a complaint that is recorded is followed by a
step forward. -/
inductive Walk (rules : Rules) (state : ParseState) (free : Bool) : ParseState → Bool → Prop
  | start : Walk rules state free state free
  | advance {later free'} : Walk rules state free later free' → Walk rules state free later.advance true
  | recover {later free' diagnostic} : Walk rules state free later free' → later.Complains rules diagnostic →
      Walk rules state free (later.record diagnostic).advance true
  | turn {later} : Walk rules state free later true → later.current.kind ≠ .eof →
      Walk rules state free later.countRound false
  | pass {later} : Walk rules state free later true → Walk rules state free later false

variable {rules : Rules} {state between later : ParseState} {free middle free' : Bool}

theorem Walk.trans (one : Walk rules state free between middle) (two : Walk rules between middle later free') :
    Walk rules state free later free' := by
  induction two with
  | start => exact one
  | advance _ ih => exact .advance ih
  | recover _ complains ih => exact .recover ih complains
  | turn _ more ih => exact .turn ih more
  | pass _ ih => exact .pass ih

/-- A step forward within a turn. -/
theorem Walk.further (walk : Walk rules state free later false) : Walk rules state free later.advance false :=
  .pass (.advance walk)

/-- A parser goes forward over its tokens and does nothing else to them. -/
theorem Walk.stream (walk : Walk rules state free later free') : ∃ count, later.stream = state.stream.drop count := by
  induction walk with
  | start => exact ⟨0, rfl⟩
  | @advance last _ _ ih | @recover last _ _ _ _ ih =>
    obtain ⟨count, same⟩ := ih
    refine ⟨count + 1, ?_⟩
    rw [← TokenStream.drop_advance, ← same]
    rfl
  | turn _ _ ih | pass _ ih => exact ih

/-- What has been complained of stays on record. -/
theorem Walk.errors (walk : Walk rules state free later free') : ∃ new, later.errors = state.errors ++ new := by
  induction walk with
  | start => exact ⟨[], (List.append_nil _).symm⟩
  | @recover last _ diagnostic _ _ ih =>
    obtain ⟨new, same⟩ := ih
    refine ⟨new ++ [diagnostic], ?_⟩
    rw [← List.append_assoc, ← same]
    rfl
  | advance _ ih | turn _ _ ih | pass _ ih => exact ih

/-- Turns are paid for with tokens. Where none may be taken here, the current token is still to be paid. -/
theorem Walk.rounds_le (walk : Walk rules state true later free') :
    later.rounds + (if free' then later.remaining else max later.remaining 1 - 1) ≤
      state.rounds + state.remaining := by
  induction walk with
  | start => exact Nat.le_refl _
  | @advance last _ _ ih =>
    have less := last.advance_remaining
    have same : last.advance.rounds = last.rounds := rfl
    rw [if_pos rfl]
    split at ih <;> omega
  | @recover last _ diagnostic _ _ ih =>
    have less := (last.record diagnostic).advance_remaining
    have same : (last.record diagnostic).advance.rounds = last.rounds := rfl
    have tokens : (last.record diagnostic).remaining = last.remaining := rfl
    rw [if_pos rfl]
    split at ih <;> omega
  | @turn last _ more ih =>
    have some := remaining_pos more
    have turns : last.countRound.rounds = last.rounds + 1 := rfl
    have tokens : last.countRound.remaining = last.remaining := rfl
    rw [if_pos rfl] at ih
    rw [if_neg Bool.false_ne_true]
    omega
  | pass _ ih =>
    rw [if_pos rfl] at ih
    rw [if_neg Bool.false_ne_true]
    omega

end ParseState

end LetFn
