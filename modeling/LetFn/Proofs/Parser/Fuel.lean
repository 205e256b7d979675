import LetFn.Parser.Descent

namespace LetFn.Action

variable {α β : Type}

/-- Wherever `less` comes to an end by itself, `more` does the same. -/
def Below (less more : Action α) : Prop :=
  ∀ state, (∃ later, less state = .error .outOfFuel later) ∨ less state = more state

theorem Below.refl (action : Action α) : Below action action :=
  fun _ => .inr rfl

theorem below_outOfFuel (action : Action α) : Below (throw .outOfFuel) action :=
  fun state => .inl ⟨state, rfl⟩

theorem Below.ok {less more : Action α} (below : Below less more) {state later : ParseState} {value : α}
    (run : less state = .ok value later) : more state = .ok value later := by
  rcases below state with ⟨stopped, cut⟩ | same
  · rw [run] at cut
    cases cut
  · rw [← same, run]

theorem Below.bind {less more : Action α} {next further : α → Action β} (below : Below less more)
    (continues : ∀ value, Below (next value) (further value)) : Below (less >>= next) (more >>= further) := by
  intro state
  rcases below state with ⟨stopped, cut⟩ | same
  · exact .inl ⟨stopped, bind_of_error cut next⟩
  · cases run : less state with
    | error stop later =>
      rw [bind_of_error run next, bind_of_error (same.symm.trans run) further]
      exact .inr rfl
    | ok value later =>
      rw [bind_of_ok run next, bind_of_ok (same.symm.trans run) further]
      exact continues value later

theorem Below.then {next further : α → Action β} (first : Action α)
    (continues : ∀ value, Below (next value) (further value)) : Below (first >>= next) (first >>= further) :=
  (Below.refl first).bind continues

theorem Below.ite {condition : Prop} [Decidable condition] {less more less' more' : Action α}
    (yes : Below less more) (no : Below less' more') :
    Below (if condition then less else less') (if condition then more else more') := by
  by_cases holds : condition
  · rw [if_pos holds, if_pos holds]
    exact yes
  · rw [if_neg holds, if_neg holds]
    exact no

theorem Below.orRecord {less more : Action α} (below : Below less more) :
    Below (orRecord less) (orRecord more) := by
  intro state
  rcases below state with ⟨stopped, cut⟩ | same
  · exact .inl ⟨stopped, by rw [Action.orRecord, cut]⟩
  · exact .inr (by rw [Action.orRecord, Action.orRecord, same])

theorem Below.commaItems {less more : Action α} (below : Below less more) :
    ∀ {fuel further : Nat}, fuel ≤ further → Below (commaItems less fuel) (commaItems more further) := by
  intro fuel
  induction fuel with
  | zero => exact fun _ => below_outOfFuel _
  | succ fuel ih =>
    intro further le
    obtain ⟨further, rfl⟩ : ∃ n, further = n + 1 := ⟨further - 1, by omega⟩
    refine Below.then peek fun next => .ite (Below.then advance fun _ => ?_) (.refl _)
    exact below.bind fun first => (ih (by omega)).bind fun others => .refl _

theorem Below.closedItems {less more : Action α} (below : Below less more) {fuel further : Nat}
    (le : fuel ≤ further) : Below (closedItems less fuel) (closedItems more further) := by
  refine Below.then peek fun next => .ite (.refl _) ?_
  exact below.bind fun first => (below.commaItems le).bind fun others => .refl _

theorem Below.statements {closes : TokenKind → Bool} {less more : Action Stmt} (below : Below less more) :
    ∀ {fuel further : Nat}, fuel ≤ further →
      Below (statements closes less fuel) (statements closes more further) := by
  intro fuel
  induction fuel with
  | zero => exact fun _ => below_outOfFuel _
  | succ fuel ih =>
    intro further le
    obtain ⟨further, rfl⟩ : ∃ n, further = n + 1 := ⟨further - 1, by omega⟩
    refine Below.then current fun token => .ite (.refl _) (Below.then countRound fun _ => ?_)
    exact below.orRecord.bind fun first => Below.then advance fun _ => (ih (by omega)).bind fun others => .refl _

theorem Below.climb {rules : Rules} {less more : InfixRule → Expr → Power → Action Expr} {power : Power}
    (below : ∀ rule left power, Below (less rule left power) (more rule left power)) :
    ∀ {fuel further : Nat} {left : Expr}, fuel ≤ further →
      Below (climb rules less power fuel left) (climb rules more power further left) := by
  intro fuel
  induction fuel with
  | zero => exact fun _ => below_outOfFuel _
  | succ fuel ih =>
    intro further left le
    obtain ⟨further, rfl⟩ : ∃ n, further = n + 1 := ⟨further - 1, by omega⟩
    refine Below.then peek fun next => .ite ?_ (.refl _)
    cases rules.infixRule next.kind with
    | none => exact .refl _
    | some rule =>
      exact Below.then advance fun _ => Below.then current fun token =>
        (below rule left _).bind fun grown => ih (by omega)

/-- Every routine with `fuel` does what it does with `further` fuel, unless it runs out. -/
structure Extends (rules : Rules) (fuel further : Nat) : Prop where
  expression : ∀ power, Below (Action.expression rules fuel power) (Action.expression rules further power)
  opening : ∀ rule, Below (Action.opening rules fuel rule) (Action.opening rules further rule)
  extension : ∀ rule left power,
    Below (Action.extension rules fuel rule left power) (Action.extension rules further rule left power)
  block : Below (Action.block rules fuel) (Action.block rules further)
  statement : ∀ rule, Below (Action.statement rules fuel rule) (Action.statement rules further rule)

variable {rules : Rules} {fuel further : Nat}

theorem Extends.expression_succ (less : Extends rules fuel further) (le : fuel ≤ further) (power : Power) :
    Below (Action.expression rules (fuel + 1) power) (Action.expression rules (further + 1) power) := by
  refine Below.then current fun token => ?_
  cases rules.prefixRule token.kind with
  | none => exact .refl _
  | some rule => exact (less.opening rule).bind fun left => .climb less.extension le

theorem Extends.opening_succ (less : Extends rules fuel further) (le : fuel ≤ further) (rule : PrefixRule) :
    Below (Action.opening rules (fuel + 1) rule) (Action.opening rules (further + 1) rule) := by
  cases rule with
  | identifier => exact .refl _
  | integer => exact .refl _
  | boolean => exact .refl _
  | operator =>
    exact Below.then current fun token => Below.then advance fun _ =>
      (less.expression .sign).bind fun right => .refl _
  | group =>
    exact Below.then advance fun _ => (less.expression .lowest).bind fun inner => .refl _
  | conditional =>
    refine Below.then current fun token => Below.then _ fun _ => Below.then advance fun _ => ?_
    refine (less.expression .lowest).bind fun condition => Below.then _ fun _ => Below.then _ fun _ => ?_
    refine less.block.bind fun consequence => Below.then peek fun next => .ite ?_ (.refl _)
    exact Below.then advance fun _ => Below.then _ fun _ => less.block.bind fun alternative => .refl _
  | function =>
    refine Below.then current fun token => Below.then _ fun _ => ?_
    refine ((Below.refl parameter).closedItems le).bind fun parameters => Below.then _ fun _ => ?_
    exact less.block.bind fun body => .refl _

theorem Extends.extension_succ (less : Extends rules fuel further) (le : fuel ≤ further) (rule : InfixRule)
    (left : Expr) (power : Power) : Below (Action.extension rules (fuel + 1) rule left power)
      (Action.extension rules (further + 1) rule left power) := by
  cases rule with
  | operator =>
    exact Below.then current fun token => Below.then advance fun _ =>
      (less.expression power).bind fun right => .refl _
  | call =>
    have item := Below.then advance fun _ => less.expression .lowest
    exact Below.then current fun token => (item.closedItems le).bind fun arguments => .refl _

theorem Extends.block_succ (less : Extends rules fuel further) (le : fuel ≤ further) :
    Below (Action.block rules (fuel + 1)) (Action.block rules (further + 1)) :=
  Below.then current fun _ => Below.then advance fun _ =>
    ((less.statement .dispatch).statements le).bind fun _ => .refl _

theorem Extends.statement_succ (less : Extends rules fuel further) (rule : StatementRule) :
    Below (Action.statement rules (fuel + 1) rule) (Action.statement rules (further + 1) rule) := by
  cases rule with
  | binding =>
    refine Below.then current fun token => Below.then parameter fun name => Below.then _ fun _ => ?_
    exact Below.then advance fun _ => (less.expression .lowest).bind fun value => .refl _
  | result =>
    exact Below.then current fun token => Below.then advance fun _ =>
      (less.expression .lowest).bind fun value => .refl _
  | expression =>
    exact Below.then current fun token => (less.expression .lowest).bind fun value => .refl _
  | block => exact less.block.bind fun body => .refl _
  | dispatch => exact Below.then current fun token => less.statement _

/-- More fuel changes nothing but whether a run is cut short. -/
theorem extends_of_le (rules : Rules) : ∀ {fuel further : Nat}, fuel ≤ further → Extends rules fuel further := by
  intro fuel
  induction fuel with
  | zero =>
    intro further le
    exact ⟨fun _ => below_outOfFuel _, fun _ => below_outOfFuel _, fun _ _ _ => below_outOfFuel _,
      below_outOfFuel _, fun _ => below_outOfFuel _⟩
  | succ fuel ih =>
    intro further le
    obtain ⟨further, rfl⟩ : ∃ n, further = n + 1 := ⟨further - 1, by omega⟩
    have less := ih (Nat.le_of_succ_le_succ le)
    exact ⟨less.expression_succ (by omega), less.opening_succ (by omega), less.extension_succ (by omega),
      less.block_succ (by omega), less.statement_succ⟩

theorem program_below (rules : Rules) {fuel further : Nat} (le : fuel ≤ further) :
    Below (program rules fuel) (program rules further) :=
  (((extends_of_le rules le).statement .dispatch).statements le).bind fun _ => .refl _

end LetFn.Action
