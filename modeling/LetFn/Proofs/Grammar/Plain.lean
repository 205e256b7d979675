import LetFn.Proofs.Grammar.Standard
import LetFn.Proofs.Text.Decimal

namespace LetFn

/-- The parts of the plain grammar. Of the lists in parentheses they begin behind the opening one. -/
inductive Part where
  | primary
  | calls
  | operand
  | operators
  | expression
  | arguments
  | moreArguments
  | parameters
  | moreParameters
  | block
  | ending
  | statement
  | statements

/-- The plain grammar, which gives the operators no order and lets a statement be followed by anything:
`Derives part kinds rest` says that `part` gives `kinds` up to `rest`. -/
inductive Derives : Part → List TokenKind → List TokenKind → Prop
  | identifier {rest} : Derives .primary (.ident :: rest) rest
  | integer {rest} : Derives .primary (.int :: rest) rest
  | trueWord {rest} : Derives .primary (.trueWord :: rest) rest
  | falseWord {rest} : Derives .primary (.falseWord :: rest) rest
  | group {kinds rest} : Derives .expression kinds (.rparen :: rest) → Derives .primary (.lparen :: kinds) rest
  | conditional {kinds between rest} : Derives .expression kinds (.rparen :: between) → Derives .block between rest →
      Derives .primary (.ifWord :: .lparen :: kinds) rest
  | alternative {kinds between behind rest} : Derives .expression kinds (.rparen :: between) →
      Derives .block between (.elseWord :: behind) → Derives .block behind rest →
      Derives .primary (.ifWord :: .lparen :: kinds) rest
  | function {kinds between rest} : Derives .parameters kinds between → Derives .block between rest →
      Derives .primary (.fnWord :: .lparen :: kinds) rest
  | noCall {rest} : Derives .calls rest rest
  | call {kinds between rest} : Derives .arguments kinds between → Derives .calls between rest →
      Derives .calls (.lparen :: kinds) rest
  | sign {kind kinds rest} : kind = .bang ∨ kind = .minus → Derives .operand kinds rest →
      Derives .operand (kind :: kinds) rest
  | called {kinds between rest} : Derives .primary kinds between → Derives .calls between rest →
      Derives .operand kinds rest
  | noOperator {rest} : Derives .operators rest rest
  | operator {kind kinds between rest} : kind.level?.isSome → Derives .operand kinds between →
      Derives .operators between rest → Derives .operators (kind :: kinds) rest
  | chain {kinds between rest} : Derives .operand kinds between → Derives .operators between rest →
      Derives .expression kinds rest
  | noArguments {rest} : Derives .arguments (.rparen :: rest) rest
  | someArguments {kinds between rest} : Derives .expression kinds between → Derives .moreArguments between rest →
      Derives .arguments kinds rest
  | lastArgument {rest} : Derives .moreArguments (.rparen :: rest) rest
  | nextArgument {kinds between rest} : Derives .expression kinds between → Derives .moreArguments between rest →
      Derives .moreArguments (.comma :: kinds) rest
  | noParameters {rest} : Derives .parameters (.rparen :: rest) rest
  | someParameters {kinds rest} : Derives .moreParameters kinds rest → Derives .parameters (.ident :: kinds) rest
  | lastParameter {rest} : Derives .moreParameters (.rparen :: rest) rest
  | nextParameter {kinds rest} : Derives .moreParameters kinds rest →
      Derives .moreParameters (.comma :: .ident :: kinds) rest
  | closedBlock {kinds rest} : Derives .statements kinds (.rbrace :: rest) → Derives .block (.lbrace :: kinds) rest
  | openBlock {kinds} : Derives .statements kinds [] → Derives .block (.lbrace :: kinds) []
  | semicolon {rest} : Derives .ending (.semicolon :: rest) rest
  | noSemicolon {rest} : Derives .ending rest rest
  | binding {kinds between rest} : Derives .expression kinds between → Derives .ending between rest →
      Derives .statement (.letWord :: .ident :: .assign :: kinds) rest
  | result {kinds between rest} : Derives .expression kinds between → Derives .ending between rest →
      Derives .statement (.returnWord :: kinds) rest
  | expression {kinds between rest} : Derives .expression kinds between → Derives .ending between rest →
      Derives .statement kinds rest
  | noStatements {rest} : Derives .statements rest rest
  | someStatements {kinds between rest} : Derives .statement kinds between → Derives .statements between rest →
      Derives .statements kinds rest

/-- The kinds of `tokens` are those that the plain grammar gives for a phrase. An expression may go on: the
plain grammar gives an operand its calls, and an expression its operators, from the front on. -/
def Phrase.Plain : Phrase → List TokenKind → List TokenKind → Prop
  | .expression level _, kinds, rest =>
      (∀ final, Derives .operators rest final → Derives .expression kinds final) ∧
      (.sign ≤ level → Derives .operand kinds rest) ∧
      (level = .call → ∀ final, Derives .calls rest final → Derives .operand kinds final)
  | .arguments _, kinds, rest => Derives .arguments kinds rest
  | .moreArguments _, kinds, rest => Derives .moreArguments kinds rest
  | .parameters _, kinds, rest => Derives .parameters kinds rest
  | .moreParameters _, kinds, rest => Derives .moreParameters kinds rest
  | .block _, kinds, rest => Derives .block kinds rest
  | .statement _, kinds, rest => Derives .statement kinds rest
  | .statements _, kinds, rest => Derives .statements kinds rest

variable {kinds between rest : List TokenKind}

theorem plain_primary {value : Expr} (primary : Derives .primary kinds rest) :
    (Phrase.expression .call value).Plain kinds rest :=
  ⟨fun _ operators => .chain (.called primary .noCall) operators, fun _ => .called primary .noCall,
    fun _ _ calls => .called primary calls⟩

theorem Phrase.Plain.whole {level : Power} {value : Expr} (plain : (Phrase.expression level value).Plain kinds rest) :
    Derives .expression kinds rest :=
  plain.1 rest .noOperator

theorem plain_binary {kind : TokenKind} {level low high : Power} {left right value : Expr}
    (operator : kind.level? = some level) (start : (Phrase.expression low left).Plain kinds (kind :: between))
    (behind : (Phrase.expression high right).Plain between rest) :
    (Phrase.expression level value).Plain kinds rest := by
  have under := (TokenKind.level_lt_sign operator).2
  refine ⟨fun final operators => start.1 final ?_, fun tight => absurd under (Nat.not_lt.mpr tight), ?_⟩
  · obtain ⟨first, others⟩ : ∃ middle, Derives .operand between middle ∧ Derives .operators middle final := by
      cases behind.1 final operators with
      | chain operand operators => exact ⟨_, operand, operators⟩
    exact .operator (by rw [operator]; rfl) others.1 others.2
  · rintro rfl
    exact absurd under (by decide)

theorem ending_of_ended {tokens rest : List Token} (ended : Ended tokens rest) :
    Derives .ending (tokens.map Token.kind) (rest.map Token.kind) := by
  cases ended with
  | semicolon sign =>
    rw [List.map_cons, sign]
    exact .semicolon
  | bare _ => exact .noSemicolon

/-- What the grammar of levels reads, the plain one gives. -/
theorem Reads.plain {phrase : Phrase} {tokens rest : List Token} (read : Reads phrase tokens rest) :
    phrase.Plain (tokens.map Token.kind) (rest.map Token.kind) := by
  induction read with
  | identifier ident =>
    rw [List.map_cons, ident]
    exact plain_primary .identifier
  | integer int =>
    rw [List.map_cons, int]
    exact plain_primary .integer
  | boolean word =>
    rw [List.map_cons]
    rcases word with word | word <;> rw [word]
    · exact plain_primary .trueWord
    · exact plain_primary .falseWord
  | group left _ right inner =>
    rw [List.map_cons, right] at inner
    rw [List.map_cons, left]
    exact plain_primary (.group inner.whole)
  | conditional word left _ right _ condition block =>
    rw [List.map_cons, right] at condition
    rw [List.map_cons, List.map_cons, word, left]
    exact plain_primary (.conditional condition.whole block)
  | alternative word left _ right _ other _ condition block block' =>
    rw [List.map_cons, right] at condition
    rw [Phrase.Plain, List.map_cons, other] at block
    rw [List.map_cons, List.map_cons, word, left]
    exact plain_primary (.alternative condition.whole block block')
  | function word left _ _ parameters block =>
    rw [List.map_cons, List.map_cons, word, left]
    exact plain_primary (.function parameters block)
  | call _ left _ callee arguments =>
    rw [List.map_cons, left] at callee
    have extended := fun final calls => callee.2.2 rfl final (.call arguments calls)
    exact ⟨fun final operators => .chain (extended _ .noCall) operators, fun _ => extended _ .noCall,
      fun _ => extended⟩
  | unary sign tight _ right =>
    have operand := Derives.sign sign (right.2.1 tight)
    exact ⟨fun final operators => .chain operand operators, fun _ => operand, nofun⟩
  | binary sign _ _ _ _ left right => exact plain_binary sign left right
  | noArguments right =>
    rw [List.map_cons, right]
    exact .noArguments
  | someArguments _ _ first others => exact .someArguments first.whole others
  | lastArgument right =>
    rw [List.map_cons, right]
    exact .lastArgument
  | nextArgument comma _ _ first others =>
    rw [List.map_cons, comma]
    exact .nextArgument first.whole others
  | noParameters right =>
    rw [List.map_cons, right]
    exact .noParameters
  | someParameters ident _ others =>
    rw [List.map_cons, ident]
    exact .someParameters others
  | lastParameter right =>
    rw [List.map_cons, right]
    exact .lastParameter
  | nextParameter comma ident _ others =>
    rw [List.map_cons, List.map_cons, comma, ident]
    exact .nextParameter others
  | closedBlock left _ right body =>
    rw [Phrase.Plain, List.map_cons, right] at body
    rw [List.map_cons, left]
    exact .closedBlock body
  | openBlock left _ body =>
    rw [List.map_cons, left]
    exact .openBlock body
  | binding word ident sign _ ended value =>
    rw [List.map_cons, List.map_cons, List.map_cons, word, ident, sign]
    exact .binding value.whole (ending_of_ended ended)
  | result word _ ended value =>
    rw [List.map_cons, word]
    exact .result value.whole (ending_of_ended ended)
  | expression _ ended value => exact .expression value.whole (ending_of_ended ended)
  | noStatements => exact .noStatements
  | someStatements _ _ first others => exact .someStatements first others

/-- Every number among `tokens` can be held in 64 bits. -/
def SmallNumbers (tokens : List Token) : Prop :=
  ∀ token ∈ tokens, token.kind = .int → Text.digitsValue token.literal.toList ≤ 0x7fffffffffffffff

theorem SmallNumbers.cons {token : Token} {tokens : List Token} (other : token.kind ≠ .int)
    (small : SmallNumbers tokens) : SmallNumbers (token :: tokens) :=
  List.forall_mem_cons.mpr ⟨fun int => absurd int other, small⟩

theorem SmallNumbers.of_kind {token : Token} {kind : TokenKind} {tokens : List Token} (small : SmallNumbers tokens)
    (same : token.kind = kind) (other : kind ≠ .int) : SmallNumbers (token :: tokens) :=
  small.cons (by rwa [same])

theorem SmallNumbers.of_ended {tokens rest : List Token} (small : SmallNumbers rest) (ended : Ended tokens rest) :
    SmallNumbers tokens := by
  cases ended with
  | semicolon sign => exact small.of_kind sign (by decide)
  | bare _ => exact small

/-- The grammar of levels reads no number that cannot be held. -/
theorem Reads.smallNumbers {phrase : Phrase} {tokens rest : List Token} (read : Reads phrase tokens rest)
    (small : SmallNumbers rest) : SmallNumbers tokens := by
  induction read with
  | identifier ident => exact small.of_kind ident (by decide)
  | integer _ digits fits =>
    refine List.forall_mem_cons.mpr ⟨fun _ => ?_, small⟩
    rwa [Text.digitsValue_of_natural? digits]
  | boolean word => exact small.cons (by rcases word with word | word <;> rw [word] <;> decide)
  | group left _ right inner => exact (inner (small.of_kind right (by decide))).of_kind left (by decide)
  | conditional word left _ right _ condition block =>
    have inside := condition ((block small).of_kind right (by decide))
    exact (inside.of_kind left (by decide)).of_kind word (by decide)
  | alternative word left _ right _ other _ condition block block' =>
    have behind := block ((block' small).of_kind other (by decide))
    have inside := condition (behind.of_kind right (by decide))
    exact (inside.of_kind left (by decide)).of_kind word (by decide)
  | function word left _ _ parameters block =>
    exact ((parameters (block small)).of_kind left (by decide)).of_kind word (by decide)
  | call _ left _ callee arguments => exact callee ((arguments small).of_kind left (by decide))
  | unary sign _ _ right => exact (right small).cons (by rcases sign with sign | sign <;> rw [sign] <;> decide)
  | binary sign _ _ _ _ left right =>
    refine left ((right small).cons fun int => ?_)
    rw [int] at sign
    cases sign
  | noArguments right => exact small.of_kind right (by decide)
  | someArguments _ _ first others => exact first (others small)
  | lastArgument right => exact small.of_kind right (by decide)
  | nextArgument comma _ _ first others => exact (first (others small)).of_kind comma (by decide)
  | noParameters right => exact small.of_kind right (by decide)
  | someParameters ident _ others => exact (others small).of_kind ident (by decide)
  | lastParameter right => exact small.of_kind right (by decide)
  | nextParameter comma ident _ others =>
    exact ((others small).of_kind ident (by decide)).of_kind comma (by decide)
  | closedBlock left _ right body => exact (body (small.of_kind right (by decide))).of_kind left (by decide)
  | openBlock left _ body => exact (body small).of_kind left (by decide)
  | binding word ident sign _ ended value =>
    exact (((value (small.of_ended ended)).of_kind sign (by decide)).of_kind ident (by decide)).of_kind word (by decide)
  | result word _ ended value => exact (value (small.of_ended ended)).of_kind word (by decide)
  | expression _ ended value => exact value (small.of_ended ended)
  | noStatements => exact small
  | someStatements _ _ first others => exact first (others small)

end LetFn
