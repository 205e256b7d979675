import LetFn.Proofs.Rules.Language

namespace LetFn

theorem Meaning.expression_ends {ι κ σ : Type} {meaning : Meaning ι κ σ} {power : Power} {parser : OpenParser ι κ σ}
    {outcome : Outcome ι κ σ} (expression : meaning.Expression False power parser outcome) {value : Expr}
    (ok : outcome.result = .ok value) :
    outcome.parser.state.peek.kind = .semicolon ∨ outcome.parser.peekPower ≤ power := by
  obtain ⟨result, later⟩ := outcome
  cases ok
  exact OpenParser.ended_of_not_goesOn expression.stops

/-- A call for an expression that is made on the way ends where it should as any other does. -/
theorem Action.expression_ends {rules : Rules} (registered : rules.Registered) {fuel : Nat} {power : Power}
    {state later : ParseState} {value : Expr} (run : expression rules fuel power state = .ok value later) :
    later.peek.kind = .semicolon ∨ rules.power later.peek.kind ≤ power := by
  let parser : Parser := ⟨rules, state⟩
  let outcome : Outcome PrefixRule InfixRule StatementRule := ⟨.ok value, ⟨rules, later⟩⟩
  have attains : Attains (fun fuel => expression parser.rules fuel power) parser outcome := ⟨rfl, fuel, run⟩
  obtain ⟨ruled, -⟩ := (expression_iff_attains.mpr attains).registered registered
  exact Meaning.expression_ends ruled rfl

/-- A sign behind an operand that has itself registered anew where it is read, and holds nothing from then on. -/
def Meaning.fading : Meaning Unit Unit Empty where
  opening _ parser outcome := outcome = ⟨.ok (.identifier (.ofToken parser.state.current)), parser⟩
  extension rule left _ parser outcome :=
    outcome = ⟨.ok (.unary parser.state.current parser.state.current.literal left),
      { parser with rules := parser.rules.setInfix parser.state.current.kind .lowest rule }⟩
  opening_registered := by
    rintro _ _ _ rfl registered
    exact registered
  extension_registered := by
    rintro _ _ _ _ _ rfl registered
    exact registered.setInfix _ _ _

namespace Parser

theorem ok_of_run {α : Type} {action : Action α} {wrap : α → Reply} {parser later : Parser} {reply : Reply}
    (run : parser.run (wrap <$> action) = (.ok reply, later)) :
    ∃ value, action parser.state = .ok value later.state ∧ later.rules = parser.rules := by
  cases done : action parser.state with
  | ok value state =>
    rw [run_of_ok wrap done] at run
    cases run
    exact ⟨value, rfl, rfl⟩
  | error stop state =>
    rw [run_of_error wrap done] at run
    cases run

theorem Does.expression_ends {parser later : Parser} {power : Power} {reply : Reply}
    (does : parser.Does (.expression power) (.ok reply) later) (registered : parser.rules.Registered) :
    later.state.peek.kind = .semicolon ∨ later.peekPower ≤ power := by
  obtain ⟨-, fuel, run⟩ := does
  obtain ⟨value, done, rules⟩ := ok_of_run run
  rw [OpenParser.peekPower, rules]
  exact Action.expression_ends registered done

/-- The two tables for what follows an expression are in step, whatever has been registered and asked for. So no token
that holds anything is without a rule, no loop over the operators ends for want of one, and an expression that is read
ends before a semicolon or a token that holds no more tightly than was asked for. First for the rules of the language,
at whatever tokens they stand, and then for any others, which may register more while an expression is read. -/
theorem expression_ends_in_step :
    (∀ (stream : TokenStream) (parser : Parser), (Parser.start stream).Reaches parser →
      (∀ kind, (parser.rules.infixRule kind).isSome ↔ (parser.rules.infixPower kind).isSome) ∧
      (∀ kind power, power < parser.rules.power kind → ∃ rule, parser.rules.infixRule kind = some rule) ∧
      (∀ fuel power state value later, Action.expression parser.rules fuel power state = .ok value later →
        later.peek.kind = .semicolon ∨ parser.rules.power later.peek.kind ≤ power) ∧
      ∀ power reply later, parser.Does (.expression power) (.ok reply) later →
        later.state.peek.kind = .semicolon ∨ later.peekPower ≤ power) ∧
    ∀ {ι κ σ : Type} (meaning : Meaning ι κ σ) (parser : OpenParser ι κ σ), parser.rules.Registered →
      (∀ kind, (parser.rules.infixRule kind).isSome ↔ (parser.rules.infixPower kind).isSome) ∧
      ∀ power outcome, meaning.Expression True power parser outcome →
        meaning.Expression False power parser outcome ∧ outcome.parser.rules.Registered ∧
        ∀ value, outcome.result = .ok value →
          outcome.parser.state.peek.kind = .semicolon ∨ outcome.parser.peekPower ≤ power := by
  constructor
  · intro stream parser reaches
    have registered := reaches.registered
    refine ⟨registered.inStep, fun kind power holds => registered.inStep.ruled holds, ?_, ?_⟩
    · intro fuel power state value later run
      exact Action.expression_ends registered run
    · intro power reply later does
      exact does.expression_ends registered
  · intro ι κ σ meaning parser registered
    refine ⟨registered.inStep, fun power outcome expression => ?_⟩
    obtain ⟨ruled, kept⟩ := expression.registered registered
    exact ⟨ruled, kept, fun value ok => Meaning.expression_ends ruled ok⟩

/-- A sign with a rule and the least of powers ends an expression, and so does one that comes to that on the way. -/
theorem expression_ends_in_step_fading :
    let first := Parser.start (.ofString "a + b! c")
    let second := (first.perform (.setInfix .bang .lowest .call)).2
    let third := (second.perform (.expression .lowest)).2
    let start : OpenParser Unit Unit Empty :=
      ⟨(Tables.empty.setPrefix .ident ()).setInfix .bang .sum (),
        .start ⟨[⟨.ident, "a", ⟨0, 1⟩⟩, ⟨.bang, "!", ⟨1, 2⟩⟩, ⟨.bang, "!", ⟨2, 3⟩⟩], 3⟩⟩
    (first.Reaches second ∧ third.state.peek.kind = .bang ∧
      (third.state.peek.kind = .semicolon ∨ third.peekPower ≤ .lowest)) ∧
    start.rules.Registered ∧ ∃ outcome, Meaning.fading.Expression True .lowest start outcome ∧
      outcome.parser.state.peek.kind = .bang ∧
      (outcome.parser.state.peek.kind = .semicolon ∨ outcome.parser.peekPower ≤ .lowest) := by
  intro first second third start
  constructor
  · have one : first.Does (.setInfix .bang .lowest .call) _ second := does_of_perform nofun
    have read : ((second.perform (.expression .lowest)).1 matches .ok _) = true := by decide +kernel
    obtain ⟨reply, ok⟩ : ∃ reply, (second.perform (.expression .lowest)).1 = .ok reply := by
      cases done : (second.perform (.expression .lowest)).1 with
      | ok reply => exact ⟨reply, rfl⟩
      | error stop =>
        rw [done] at read
        cases read
    have two : second.Does (.expression .lowest) (.ok reply) third :=
      ⟨nofun, second.state.fuel, Prod.ext ok rfl⟩
    have reaches : first.Reaches second := .next .start one
    have ends := (expression_ends_in_step.1 _ second reaches).2.2.2 _ reply third two
    exact ⟨reaches, by decide +kernel, ends⟩
  · have registered : start.rules.Registered := (Tables.Registered.empty.setPrefix _ _).setInfix _ _ _
    let name : Expr := .identifier (.ofToken start.state.current)
    have climb : Meaning.fading.Climb True .lowest name start _ :=
      .turn ⟨by decide, by decide⟩ rfl rfl (.stop (by decide))
    have expression : Meaning.fading.Expression True .lowest start _ := .opened rfl rfl climb
    refine ⟨registered, _, expression, rfl, ?_⟩
    exact ((expression_ends_in_step.2 Meaning.fading start registered).2 _ _ expression).2.2 _ rfl

end Parser

end LetFn
