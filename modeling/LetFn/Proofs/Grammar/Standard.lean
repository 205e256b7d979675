import LetFn.Proofs.Grammar.Levels

namespace LetFn

/-- The levels of the grammar are the powers that the rules of the language give. -/
theorem Rules.standard_power (kind : TokenKind) :
    standard.power kind = if kind = .lparen then .call else kind.level?.getD .lowest := by
  cases kind <;> rfl

/-- What has no rule holds nothing. -/
theorem Rules.standard_power_of_infixRule {kind : TokenKind} (none : standard.infixRule kind = none) :
    standard.power kind = .lowest := by
  cases kind <;> first | rfl | cases none

/-- What holds an expression at all has a rule. -/
theorem Rules.standard_infixRule_of_lt {power : Power} {kind : TokenKind} (held : power < standard.power kind) :
    ∃ rule, standard.infixRule kind = some rule := by
  cases found : standard.infixRule kind with
  | some rule => exact ⟨rule, rfl⟩
  | none =>
    rw [standard_power_of_infixRule found] at held
    exact absurd held (Nat.not_lt_zero _)

theorem Rules.ne_eof_of_infixRule {kind : TokenKind} {rule : InfixRule}
    (found : standard.infixRule kind = some rule) : kind ≠ .eof := by
  rintro rfl
  cases found

theorem Rules.standard_operator {kind : TokenKind} (found : standard.infixRule kind = some .operator) :
    ∃ level, kind.level? = some level ∧ standard.power kind = level := by
  cases kind <;> first | exact ⟨_, rfl, rfl⟩ | cases found

theorem Rules.standard_call {kind : TokenKind} (found : standard.infixRule kind = some .call) :
    kind = .lparen := by
  cases kind <;> first | rfl | cases found

theorem Rules.standard_statementRule (kind : TokenKind) : standard.statementRule kind =
    if kind = .letWord then some .binding else if kind = .returnWord then some .result else none := by
  cases kind <;> rfl

/-- The tokens that a rule for statements is meant for. `dispatch` finds the rule itself. -/
def StatementRule.Starts : StatementRule → TokenKind → Prop
  | binding, kind => kind = .letWord
  | result, kind => kind = .returnWord
  | expression, kind => kind ≠ .letWord ∧ kind ≠ .returnWord
  | block, _ => False
  | dispatch, _ => True

theorem Rules.standard_statementRule_starts (kind : TokenKind) :
    ((standard.statementRule kind).getD .expression).Starts kind := by
  rw [standard_statementRule]
  by_cases binding : kind = .letWord
  · rw [if_pos binding]
    exact binding
  · rw [if_neg binding]
    by_cases result : kind = .returnWord
    · rw [if_pos result]
      exact result
    · rw [if_neg result]
      exact ⟨binding, result⟩

/-- The tokens that a rule for the start of an expression is meant for. -/
def PrefixRule.Starts : PrefixRule → TokenKind → Prop
  | identifier, kind => kind = .ident
  | integer, kind => kind = .int
  | boolean, kind => kind = .trueWord ∨ kind = .falseWord
  | operator, kind => kind = .bang ∨ kind = .minus
  | group, kind => kind = .lparen
  | conditional, kind => kind = .ifWord
  | function, kind => kind = .fnWord

instance (rule : PrefixRule) (kind : TokenKind) : Decidable (rule.Starts kind) :=
  match rule with
  | .identifier | .integer | .group | .conditional | .function => inferInstanceAs (Decidable (kind = _))
  | .boolean | .operator => inferInstanceAs (Decidable (kind = _ ∨ kind = _))

theorem Rules.standard_prefixRule_iff {kind : TokenKind} {rule : PrefixRule} :
    standard.prefixRule kind = some rule ↔ rule.Starts kind := by
  cases kind <;> cases rule <;> decide

/-- A token that no rule is meant for starts no expression. -/
theorem PrefixRule.Starts.ne {rule : PrefixRule} {kind other : TokenKind} (starts : rule.Starts kind)
    (none : Rules.standard.prefixRule other = none) : kind ≠ other := by
  rintro rfl
  rw [Rules.standard_prefixRule_iff.mpr starts] at none
  cases none

/-- A token of this kind starts a statement. -/
def TokenKind.StartsStatement (kind : TokenKind) : Prop :=
  kind = letWord ∨ kind = returnWord ∨ (Rules.standard.prefixRule kind).isSome

instance (kind : TokenKind) : Decidable kind.StartsStatement := inferInstanceAs (Decidable (_ ∨ _ ∨ _))

theorem TokenKind.StartsStatement.ne {kind other : TokenKind} (starts : kind.StartsStatement)
    (never : ¬other.StartsStatement) : kind ≠ other := by
  rintro rfl
  exact never starts

/-- The tokens that a phrase can start with, where it has a first token of its own. -/
def Phrase.StartsAt : Phrase → List Token → Prop
  | .expression _ _, tokens => ∃ first behind, tokens = first :: behind ∧
      ∃ rule : PrefixRule, rule.Starts first.kind
  | .statement _, tokens => ∃ first behind, tokens = first :: behind ∧ first.kind.StartsStatement
  | _, _ => True

theorem Reads.start {phrase : Phrase} {tokens rest : List Token} (read : Reads phrase tokens rest) :
    phrase.StartsAt tokens := by
  induction read with
  | identifier ident => exact ⟨_, _, rfl, .identifier, ident⟩
  | integer int => exact ⟨_, _, rfl, .integer, int⟩
  | boolean word => exact ⟨_, _, rfl, .boolean, word⟩
  | group left => exact ⟨_, _, rfl, .group, left⟩
  | conditional word => exact ⟨_, _, rfl, .conditional, word⟩
  | alternative word => exact ⟨_, _, rfl, .conditional, word⟩
  | function word => exact ⟨_, _, rfl, .function, word⟩
  | call _ _ _ ih => exact ih
  | unary sign => exact ⟨_, _, rfl, .operator, sign⟩
  | binary _ _ _ _ _ ih => exact ih
  | binding word => exact ⟨_, _, rfl, .inl word⟩
  | result word => exact ⟨_, _, rfl, .inr (.inl word)⟩
  | expression _ _ ih =>
    obtain ⟨_, _, same, rule, starts⟩ := ih
    cases same
    refine ⟨_, _, rfl, .inr (.inr ?_)⟩
    rw [Rules.standard_prefixRule_iff.mpr starts, Option.isSome_some]
  | _ => trivial

theorem Reads.expression_start {level : Power} {value : Expr} {tokens rest : List Token}
    (read : Reads (.expression level value) tokens rest) :
    ∃ first behind, tokens = first :: behind ∧ ∃ rule : PrefixRule, rule.Starts first.kind :=
  read.start

theorem Reads.statement_start {value : Stmt} {tokens rest : List Token}
    (read : Reads (.statement value) tokens rest) :
    ∃ first behind, tokens = first :: behind ∧ first.kind.StartsStatement :=
  read.start

theorem TokenKind.level_lt_sign {kind : TokenKind} {level : Power} (found : kind.level? = some level) :
    .lowest < level ∧ level < .sign := by
  cases kind <;> cases found <;> decide

/-- An expression of this power ends before `rest`: nothing is next that holds it more tightly. -/
def Power.Stops (power : Power) (rest : List Token) : Prop :=
  Rules.standard.power (nextKind rest) ≤ power

theorem Reads.lowest_lt {level : Power} {value : Expr} {tokens rest : List Token}
    (read : Reads (.expression level value) tokens rest) : .lowest < level := by
  cases read with
  | binary sign => exact (TokenKind.level_lt_sign sign).1
  | _ => decide

theorem Reads.block_start {value : Block} {tokens rest : List Token} (read : Reads (.block value) tokens rest) :
    nextKind tokens = .lbrace := by
  cases read with
  | closedBlock brace => exact brace
  | openBlock brace => exact brace

/-- Reading as far as `power` can give an expression of this level. -/
def Power.Admits (power level : Power) : Prop :=
  power < level ∨ .sign ≤ level

theorem Power.stops_call (rest : List Token) : Stops .call rest := by
  unfold Stops
  cases nextKind rest <;> decide

theorem Power.Stops.mono {low high : Power} {rest : List Token} (stops : low.Stops rest) (le : low ≤ high) :
    high.Stops rest :=
  Nat.le_trans stops le

theorem Power.stops_lowest_iff {rest : List Token} : Stops .lowest rest ↔ ¬(nextKind rest).Continues := by
  unfold Stops
  cases nextKind rest <;> decide

theorem Power.stops_of_level {level : Power} {token : Token} {rest : List Token}
    (found : token.kind.level? = some level) {power : Power} : power.Stops (token :: rest) ↔ level ≤ power := by
  have other : token.kind ≠ .lparen := by
    intro same
    rw [same] at found
    cases found
  show Rules.standard.power token.kind ≤ power ↔ _
  rw [Rules.standard_power, if_neg other, found, Option.getD_some]

theorem Power.not_lt_of_stops {power : Power} {rest : List Token} (stops : power.Stops rest) :
    ¬power < Rules.standard.power (nextKind rest) :=
  Nat.not_lt.mpr stops

theorem Power.stops_of_not_lt {power : Power} {rest : List Token}
    (held : ¬(nextKind rest ≠ .semicolon ∧ power < Rules.standard.power (nextKind rest))) : power.Stops rest := by
  by_cases semicolon : nextKind rest = .semicolon
  · rw [Stops, semicolon]
    exact Nat.zero_le _
  · exact Nat.not_lt.mp fun less => held ⟨semicolon, less⟩

end LetFn
