import LetFn.Proofs.Parser.Clean

namespace LetFn.Action

variable {α β : Type}

/-- With enough fuel, and turns enough for its own loop, `run` gives `value` and comes to `later`. -/
def Settles (run : Nat → Nat → Action α) (state : ParseState) (value : α) (later : ParseState) : Prop :=
  ∃ enough, ∀ fuel turns, enough ≤ fuel → enough ≤ turns → run fuel turns state = .ok value later

variable {run : Nat → Nat → Action α} {state between later : ParseState} {value : α}

theorem settles_of_ok {action : Action α} (done : action state = .ok value later) :
    Settles (fun _ _ => action) state value later :=
  ⟨0, fun _ _ _ _ => done⟩

theorem Settles.of_succ (settles : Settles (fun fuel turns => run (fuel + 1) turns) state value later) :
    Settles run state value later := by
  obtain ⟨enough, done⟩ := settles
  refine ⟨enough + 1, fun fuel turns le le' => ?_⟩
  obtain ⟨fuel, rfl⟩ : ∃ n, fuel = n + 1 := ⟨fuel - 1, by omega⟩
  exact done fuel turns (by omega) (by omega)

theorem Settles.of_succ_turns (settles : Settles (fun fuel turns => run fuel (turns + 1)) state value later) :
    Settles run state value later := by
  obtain ⟨enough, done⟩ := settles
  refine ⟨enough + 1, fun fuel turns le le' => ?_⟩
  obtain ⟨turns, rfl⟩ : ∃ n, turns = n + 1 := ⟨turns - 1, by omega⟩
  exact done fuel turns (by omega) (by omega)

/-- A loop takes as many turns as there is fuel. -/
theorem Settles.diagonal (settles : Settles run state value later) :
    Settles (fun fuel _ => run fuel fuel) state value later := by
  obtain ⟨enough, done⟩ := settles
  exact ⟨enough, fun fuel _ le _ => done fuel fuel le le⟩

theorem Settles.bind {first : Nat → Nat → Action α} {next : Nat → Nat → α → Action β} {result : β}
    (one : Settles first state value between)
    (two : Settles (fun fuel turns => next fuel turns value) between result later) :
    Settles (fun fuel turns => first fuel turns >>= next fuel turns) state result later := by
  obtain ⟨enough, done⟩ := one
  obtain ⟨more, finished⟩ := two
  refine ⟨enough + more, fun fuel turns le le' => ?_⟩
  exact (bind_of_ok (done fuel turns (by omega) (by omega)) _).trans (finished fuel turns (by omega) (by omega))

theorem settles_pure (value : α) : Settles (fun _ _ => pure value) state value state :=
  settles_of_ok rfl

theorem settles_current {next : Nat → Nat → Token → Action α}
    (settles : Settles (fun fuel turns => next fuel turns state.current) state value later) :
    Settles (fun fuel turns => current >>= next fuel turns) state value later :=
  settles

theorem settles_peek {next : Nat → Nat → Token → Action α}
    (settles : Settles (fun fuel turns => next fuel turns state.peek) state value later) :
    Settles (fun fuel turns => peek >>= next fuel turns) state value later :=
  settles

theorem settles_advance {next : Nat → Nat → Unit → Action α}
    (settles : Settles (fun fuel turns => next fuel turns ()) state.advance value later) :
    Settles (fun fuel turns => advance >>= next fuel turns) state value later :=
  settles

theorem settles_countRound {next : Nat → Nat → Unit → Action α}
    (settles : Settles (fun fuel turns => next fuel turns ()) state.countRound value later) :
    Settles (fun fuel turns => countRound >>= next fuel turns) state value later :=
  settles

theorem settles_expectPeek {expected : TokenKind} {next : Nat → Nat → Unit → Action α}
    (there : state.peek.kind = expected)
    (settles : Settles (fun fuel turns => next fuel turns ()) state.advance value later) :
    Settles (fun fuel turns => expectPeek expected >>= next fuel turns) state value later :=
  Settles.bind (settles_of_ok (expectPeek_of_eq there)) settles

theorem orRecord_of_ok {action : Action α} (done : action state = .ok value later) :
    Action.orRecord action state = .ok (some value) later := by
  unfold Action.orRecord
  rw [done]

theorem Settles.orRecord (settles : Settles run state value later) :
    Settles (fun fuel turns => orRecord (run fuel turns)) state (some value) later := by
  obtain ⟨enough, done⟩ := settles
  exact ⟨enough, fun fuel turns le le' => orRecord_of_ok (done fuel turns le le')⟩

theorem Settles.ite_pos {condition : Prop} [Decidable condition] {yes no : Nat → Nat → Action α}
    (holds : condition) (settles : Settles yes state value later) :
    Settles (fun fuel turns => if condition then yes fuel turns else no fuel turns) state value later := by
  simpa only [if_pos holds] using settles

theorem Settles.ite_neg {condition : Prop} [Decidable condition] {yes no : Nat → Nat → Action α}
    (fails : ¬condition) (settles : Settles no state value later) :
    Settles (fun fuel turns => if condition then yes fuel turns else no fuel turns) state value later := by
  simpa only [if_neg fails] using settles

section Items

variable (item : Nat → Action α) {values : List α}

theorem settles_commaItems_nil (other : state.peek.kind ≠ .comma) :
    Settles (fun fuel turns => commaItems (item fuel) turns) state [] state :=
  .of_succ_turns (settles_peek (.ite_neg other (settles_pure [])))

theorem settles_commaItems_cons (comma : state.peek.kind = .comma)
    (first : Settles (fun fuel _ => item fuel) state.advance value between)
    (others : Settles (fun fuel turns => commaItems (item fuel) turns) between values later) :
    Settles (fun fuel turns => commaItems (item fuel) turns) state (value :: values) later :=
  .of_succ_turns (settles_peek (.ite_pos comma (settles_advance (first.bind (others.bind (settles_pure _))))))

theorem settles_closedItems_nil (closed : state.peek.kind = .rparen) :
    Settles (fun fuel turns => closedItems (item fuel) turns) state [] state.advance :=
  settles_peek (.ite_pos closed (settles_advance (settles_pure [])))

theorem settles_closedItems_cons (other : state.peek.kind ≠ .rparen)
    (first : Settles (fun fuel _ => item fuel) state value between)
    (others : Settles (fun fuel turns => commaItems (item fuel) turns) between values later)
    (closed : later.peek.kind = .rparen) :
    Settles (fun fuel turns => closedItems (item fuel) turns) state (value :: values) later.advance :=
  settles_peek (.ite_neg other (first.bind (others.bind (settles_expectPeek closed (settles_pure _)))))

end Items

section Statements

variable {closes : TokenKind → Bool} {statement : Nat → Action Stmt} {first : Stmt} {others : List Stmt}

theorem settles_statements_nil (closed : closes state.current.kind = true) :
    Settles (fun fuel turns => statements closes (statement fuel) turns) state [] state :=
  .of_succ_turns (settles_current (.ite_pos closed (settles_pure [])))

theorem settles_statements_cons (more : ¬closes state.current.kind = true)
    (one : Settles (fun fuel _ => statement fuel) state.countRound first between)
    (many : Settles (fun fuel turns => statements closes (statement fuel) turns) between.advance others later) :
    Settles (fun fuel turns => statements closes (statement fuel) turns) state (first :: others) later :=
  .of_succ_turns (settles_current (.ite_neg more (settles_countRound
    (one.orRecord.bind (settles_advance (many.bind (settles_pure _)))))))

end Statements

section Climb

variable {rules : Rules} {grow : Nat → InfixRule → Expr → Power → Action Expr} {power : Power}
  {left grown result : Expr}

theorem settles_climb_stop (stops : ¬(state.peek.kind ≠ .semicolon ∧ power < rules.power state.peek.kind)) :
    Settles (fun fuel turns => climb rules (grow fuel) power turns left) state left state :=
  .of_succ_turns (settles_peek (.ite_neg stops (settles_pure left)))

theorem settles_climb_step (rule : InfixRule)
    (holds : state.peek.kind ≠ .semicolon ∧ power < rules.power state.peek.kind)
    (found : rules.infixRule state.peek.kind = some rule)
    (grows : Settles (fun fuel _ => grow fuel rule left (rules.power state.peek.kind)) state.advance grown between)
    (climbs : Settles (fun fuel turns => climb rules (grow fuel) power turns grown) between result later) :
    Settles (fun fuel turns => climb rules (grow fuel) power turns left) state result later := by
  refine .of_succ_turns (settles_peek (.ite_pos holds ?_))
  simp only [found]
  exact settles_advance (settles_current (grows.bind climbs))

theorem settles_expression {rule : PrefixRule} (found : rules.prefixRule state.current.kind = some rule)
    (opens : Settles (fun fuel _ => opening rules fuel rule) state left between)
    (climbs : Settles (fun fuel turns => climb rules (extension rules fuel) power turns left) between result later) :
    Settles (fun fuel _ => expression rules fuel power) state result later := by
  obtain ⟨enough, done⟩ := opens.bind climbs.diagonal
  refine ⟨enough + 1, fun fuel turns le le' => ?_⟩
  obtain ⟨fuel, rfl⟩ : ∃ n, fuel = n + 1 := ⟨fuel - 1, by omega⟩
  exact (expression_of_rule found).trans (done fuel turns (by omega) (by omega))

end Climb

end LetFn.Action
