import LetFn.Proofs.Walk.History

namespace LetFn

namespace Tables

variable {ι κ σ : Type} {tables : Tables ι κ σ}

/-- Tables that come of registrations, one after another. A later one takes the place of an earlier for its kind. -/
inductive Registered : Tables ι κ σ → Prop
  | empty : Registered .empty
  | setPrefix {tables : Tables ι κ σ} (kind rule) (registered : Registered tables) :
      Registered (tables.setPrefix kind rule)
  | setInfix {tables : Tables ι κ σ} (kind power rule) (registered : Registered tables) :
      Registered (tables.setInfix kind power rule)
  | setStatement {tables : Tables ι κ σ} (kind rule) (registered : Registered tables) :
      Registered (tables.setStatement kind rule)

/-- What may follow an expression has both a rule and a power, and nothing else has one of them. -/
def InStep (tables : Tables ι κ σ) : Prop :=
  ∀ kind, (tables.infixRule kind).isSome ↔ (tables.infixPower kind).isSome

theorem InStep.setInfix (inStep : tables.InStep) (kind : TokenKind) (power : Power) (rule : κ) :
    (tables.setInfix kind power rule).InStep := by
  intro k
  by_cases same : k = kind
  · simp [Tables.setInfix, same]
  · simpa [Tables.setInfix, same] using inStep k

theorem Registered.inStep (registered : tables.Registered) : tables.InStep := by
  induction registered with
  | empty => exact fun kind => Iff.rfl
  | setPrefix kind rule _ ih => exact ih
  | setInfix kind power rule _ ih => exact ih.setInfix kind power rule
  | setStatement kind rule _ ih => exact ih

/-- A token that holds anything at all has a rule to go on by. -/
theorem InStep.ruled (inStep : tables.InStep) {power : Power} {kind : TokenKind} (holds : power < tables.power kind) :
    ∃ rule, tables.infixRule kind = some rule := by
  refine Option.isSome_iff_exists.mp ((inStep kind).mpr ?_)
  cases found : tables.infixPower kind with
  | some _ => rfl
  | none =>
    have lowest : tables.power kind = .lowest := by rw [Tables.power, found, Option.getD_none]
    rw [lowest] at holds
    exact absurd holds (Nat.not_lt_zero _)

end Tables

/-- A new parser has had its rules registered one by one. -/
theorem Rules.standard_registered : standard.Registered := by
  have begun : (Tables.empty : Rules).Registered := .empty
  unfold standard
  apply_rules [Tables.Registered.setPrefix, Tables.Registered.setInfix, Tables.Registered.setStatement]

theorem Request.registered {rules : Rules} (request : Request) (registered : rules.Registered) :
    (request.register rules).Registered := by
  cases request with
  | setPrefix kind rule => exact registered.setPrefix kind rule
  | setInfix kind power rule => exact registered.setInfix kind power rule
  | setStatement kind rule => exact registered.setStatement kind rule
  | advance | expectPeek | record | opening | extension | expression | statement | block | program => exact registered

/-- Whatever is asked of a parser, its rules come of registrations. -/
theorem Parser.Reaches.registered {stream : TokenStream} {parser : Parser}
    (reaches : (Parser.start stream).Reaches parser) : parser.rules.Registered := by
  induction reaches with
  | start => exact Rules.standard_registered
  | @next _ request _ _ _ does ih =>
    rw [does.onward.2]
    exact request.registered ih

end LetFn
