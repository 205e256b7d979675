import LetFn.Proofs.Grammar.Plain
import LetFn.Proofs.Prediction.Goals

namespace LetFn

/-- Tokens of the given kinds, the numbers among them being small. -/
def plainTokens (kinds : List TokenKind) : List Token :=
  kinds.map (TokenKind.token · "0")

/-- The kinds that a part can start with, where it has a first one of its own. -/
def Part.StartsAt : Part → List TokenKind → Prop
  | .primary, kinds | .operand, kinds | .expression, kinds =>
    ∃ kind behind, kinds = kind :: behind ∧ (Rules.standard.prefixRule kind).isSome
  | .statement, kinds => ∃ kind behind, kinds = kind :: behind ∧ kind.StartsStatement
  | _, _ => True

theorem Derives.start {part : Part} {kinds rest : List TokenKind} (derives : Derives part kinds rest) :
    part.StartsAt kinds := by
  induction derives with
  | identifier => exact ⟨_, _, rfl, rfl⟩
  | integer => exact ⟨_, _, rfl, rfl⟩
  | trueWord => exact ⟨_, _, rfl, rfl⟩
  | falseWord => exact ⟨_, _, rfl, rfl⟩
  | group => exact ⟨_, _, rfl, rfl⟩
  | conditional => exact ⟨_, _, rfl, rfl⟩
  | alternative => exact ⟨_, _, rfl, rfl⟩
  | function => exact ⟨_, _, rfl, rfl⟩
  | sign kind => exact ⟨_, _, rfl, by rcases kind with rfl | rfl <;> rfl⟩
  | called _ _ first => exact first
  | chain _ _ first => exact first
  | binding => exact ⟨_, _, rfl, .inl rfl⟩
  | result => exact ⟨_, _, rfl, .inr (.inl rfl)⟩
  | expression _ _ first =>
    obtain ⟨_, _, same, starts⟩ := first
    exact ⟨_, _, same, .inr (.inr starts)⟩
  | _ => trivial

theorem Derives.expression_ne_rparen {kinds rest : List TokenKind} (derives : Derives .expression kinds rest) :
    nextKind (plainTokens kinds) ≠ .rparen := by
  obtain ⟨kind, behind, rfl, starts⟩ := derives.start
  intro same
  have closing : kind = .rparen := same
  rw [closing] at starts
  cases starts

theorem Derives.expression_ne_word {kinds rest : List TokenKind} (derives : Derives .expression kinds rest) :
    nextKind (plainTokens kinds) ≠ .letWord ∧ nextKind (plainTokens kinds) ≠ .returnWord := by
  obtain ⟨kind, behind, rfl, starts⟩ := derives.start
  constructor <;> intro same <;> have word : kind = _ := same <;> rw [word] at starts <;> cases starts

theorem Derives.statement_start {kinds rest : List TokenKind} (derives : Derives .statement kinds rest) :
    (nextKind (plainTokens kinds)).StartsStatement := by
  obtain ⟨kind, behind, rfl, starts⟩ := derives.start
  exact starts

section Follow

variable {kinds rest : List TokenKind}

theorem Derives.calls_follow (calls : Derives .calls kinds rest)
    (follow : nextKind (plainTokens rest) ≠ .elseWord) : nextKind (plainTokens kinds) ≠ .elseWord := by
  cases calls with
  | noCall => exact follow
  | call => exact nofun

theorem Derives.operators_follow (operators : Derives .operators kinds rest)
    (follow : nextKind (plainTokens rest) ≠ .elseWord) : nextKind (plainTokens kinds) ≠ .elseWord := by
  cases operators with
  | noOperator => exact follow
  | @operator kind _ _ _ sign =>
    intro same
    have word : kind = .elseWord := same
    rw [word] at sign
    cases sign

theorem Derives.moreArguments_follow (more : Derives .moreArguments kinds rest) :
    nextKind (plainTokens kinds) ≠ .elseWord ∧ ¬(nextKind (plainTokens kinds)).Continues := by
  cases more with
  | lastArgument => exact ⟨nofun, of_decide_eq_false rfl⟩
  | nextArgument => exact ⟨nofun, of_decide_eq_false rfl⟩

theorem Derives.ending_follow (ending : Derives .ending kinds rest)
    (follow : nextKind (plainTokens rest) ≠ .elseWord) : nextKind (plainTokens kinds) ≠ .elseWord := by
  cases ending with
  | semicolon => exact nofun
  | noSemicolon => exact follow

theorem Derives.statements_follow (statements : Derives .statements kinds rest)
    (follow : nextKind (plainTokens rest) ≠ .elseWord) : nextKind (plainTokens kinds) ≠ .elseWord := by
  cases statements with
  | noStatements => exact follow
  | someStatements first => exact first.statement_start.ne (by decide)

end Follow

/-- An expression that starts with a sign that could go on with the one before it does not go wrong where it is
taken for that. -/
def Grows (goals : List Goal) (tokens rest : List Token) : Prop :=
  Predicts (.operand :: goals) goals tokens rest ∧
    ((nextKind tokens).Continues → Predicts [.rest] [.rest] tokens rest)

/-- `goal` is a row of statements. -/
def Goal.Row (goal : Goal) : Prop :=
  ∀ tokens, (nextKind tokens).StartsStatement → Predicts [goal] [.statement, goal] tokens tokens

/-- What the prediction makes of what the plain grammar gives. -/
def Part.Agrees : Part → List Token → List Token → Prop
  | .primary, tokens, rest => nextKind rest ≠ .elseWord → Grows [] tokens rest
  | .operand, tokens, rest => nextKind rest ≠ .elseWord → Grows [.rest] tokens rest
  | .expression, tokens, rest => nextKind rest ≠ .elseWord → Grows [.rest] tokens rest
  | .calls, tokens, rest => Predicts [.rest] [.rest] tokens rest
  | .operators, tokens, rest => nextKind rest ≠ .elseWord → Predicts [.rest] [.rest] tokens rest
  | .arguments, tokens, rest => Predicts [.items .argument] [] tokens rest
  | .moreArguments, tokens, rest => Predicts [.moreItems .argument] [] tokens rest
  | .parameters, tokens, rest => Predicts [.items .parameter] [] tokens rest
  | .moreParameters, tokens, rest => Predicts [.moreItems .parameter] [] tokens rest
  | .block, tokens, rest => Predicts [.sign .lbrace, .body] [] tokens rest
  | .ending, tokens, rest => tokens = rest ∨ Predicts [.rest, .semicolon] [] tokens rest
  | .statement, tokens, rest => nextKind rest ≠ .elseWord → ∃ between,
      (between = rest ∨ Predicts [.rest, .semicolon] [] between rest) ∧
      Predicts [.statement] [.rest, .semicolon] tokens between ∧
      ((nextKind tokens).Continues → Predicts [.rest] [.rest] tokens between)
  | .statements, tokens, rest => nextKind rest = .rbrace ∨ nextKind rest = .eof → ∀ goal : Goal, goal.Row →
      Predicts [goal] [goal] tokens rest ∧ Predicts [.rest, .semicolon, goal] [goal] tokens rest

section Steps

variable {token : Token} {tokens between behind rest : List Token} {goals more : List Goal}

theorem predicts_token (kind : TokenKind) (more : List Goal) (rest : List Token) :
    Predicts (.sign kind :: more) more (kind.token "0" :: rest) rest :=
  (predicts_sign rfl).append more

theorem agrees_word {kind : TokenKind} (opens : (kind.token "0").operandGoals = .ok []) (ends : ¬kind.Continues)
    (rest : List Token) : Grows [] (kind.token "0" :: rest) rest :=
  ⟨predicts_operand opens, fun continues => absurd continues ends⟩

/-- An expression in parentheses or in a list, up to the sign that ends it. -/
theorem Grows.whole (grows : Grows [.rest] tokens rest) (ends : ¬(nextKind rest).Continues) :
    Predicts [.operand, .rest] [] tokens rest :=
  grows.1.trans (predicts_rest_stop ends)

theorem agrees_group (grows : Grows [.rest] tokens (TokenKind.rparen.token "0" :: rest))
    (first : nextKind tokens ≠ .rparen) : Grows [] (TokenKind.lparen.token "0" :: tokens) rest := by
  have inside := grows.whole (of_decide_eq_false rfl)
  constructor
  · exact (predicts_operand rfl).trans ((inside.append [.sign .rparen]).trans (predicts_token _ _ _))
  · intro _
    have items : Predicts [.items .argument] _ tokens _ :=
      (predicts_items_cons first).trans (inside.append [.moreItems .argument])
    have call := (items.trans (predicts_moreItems_nil rfl)).append [.rest]
    exact (predicts_rest_call rfl).trans call

theorem agrees_condition (grows : Grows [.rest] tokens (TokenKind.rparen.token "0" :: between))
    (block : Predicts [.sign .lbrace, .body] [] between rest) :
    Predicts [.operand] [.alternative] (TokenKind.ifWord.token "0" :: TokenKind.lparen.token "0" :: tokens) rest := by
  have inside := (grows.whole (of_decide_eq_false rfl)).append [.sign .rparen, .sign .lbrace, .body, .alternative]
  have closing := inside.trans (predicts_token _ _ _)
  exact (predicts_operand rfl).trans ((predicts_token _ _ _).trans (closing.trans (block.append [.alternative])))

theorem agrees_conditional (grows : Grows [.rest] tokens (TokenKind.rparen.token "0" :: between))
    (block : Predicts [.sign .lbrace, .body] [] between rest) (follow : nextKind rest ≠ .elseWord) :
    Grows [] (TokenKind.ifWord.token "0" :: TokenKind.lparen.token "0" :: tokens) rest :=
  ⟨(agrees_condition grows block).trans (predicts_alternative_none follow),
    fun continues => absurd continues (of_decide_eq_false rfl)⟩

theorem agrees_alternative (grows : Grows [.rest] tokens (TokenKind.rparen.token "0" :: between))
    (block : Predicts [.sign .lbrace, .body] [] between (TokenKind.elseWord.token "0" :: behind))
    (block' : Predicts [.sign .lbrace, .body] [] behind rest) :
    Grows [] (TokenKind.ifWord.token "0" :: TokenKind.lparen.token "0" :: tokens) rest :=
  ⟨(agrees_condition grows block).trans ((predicts_alternative rfl).trans block'),
    fun continues => absurd continues (of_decide_eq_false rfl)⟩

theorem agrees_function (parameters : Predicts [.items .parameter] [] tokens between)
    (block : Predicts [.sign .lbrace, .body] [] between rest) :
    Grows [] (TokenKind.fnWord.token "0" :: TokenKind.lparen.token "0" :: tokens) rest := by
  refine ⟨?_, fun continues => absurd continues (of_decide_eq_false rfl)⟩
  have behind := (parameters.append [.sign .lbrace, .body]).trans block
  exact (predicts_operand rfl).trans ((predicts_token _ _ _).trans behind)

theorem agrees_sign {kind : TokenKind} (sign : kind = .bang ∨ kind = .minus) (grows : Grows [.rest] tokens rest) :
    Grows [.rest] (kind.token "0" :: tokens) rest := by
  rcases sign with rfl | rfl
  · exact ⟨((predicts_operand rfl).append [.rest]).trans grows.1,
      fun continues => absurd continues (of_decide_eq_false rfl)⟩
  · exact ⟨((predicts_operand rfl).append [.rest]).trans grows.1,
      fun _ => (predicts_rest_operator rfl).trans grows.1⟩

theorem predicts_ending (rest : List Token) :
    Predicts [.rest, .semicolon] [] (TokenKind.semicolon.token "0" :: rest) rest := by
  have stops : ¬(nextKind (TokenKind.semicolon.token "0" :: rest)).Continues := of_decide_eq_false rfl
  exact ((predicts_rest_stop stops).append [.semicolon]).trans (predicts_semicolon rfl)

/-- Behind a statement that ends without a semicolon. -/
theorem predicts_next (ends : ¬(nextKind tokens).Continues) (other : nextKind tokens ≠ .semicolon) (goal : Goal) :
    Predicts [.rest, .semicolon, goal] [goal] tokens tokens :=
  ((predicts_rest_stop ends).append [.semicolon, goal]).trans ((predicts_semicolon_none other).append [goal])

theorem row_body : Goal.Row .body :=
  fun _ starts => predicts_body_statement (starts.ne (by decide)) (starts.ne (by decide))

theorem row_program : Goal.Row .program :=
  fun _ starts => predicts_program_statement (starts.ne (by decide))

end Steps

/-- What the plain grammar gives, the prediction has nothing against. -/
theorem Derives.agrees {part : Part} {kinds rest : List TokenKind} (derives : Derives part kinds rest) :
    part.Agrees (plainTokens kinds) (plainTokens rest) := by
  induction derives with
  | identifier => exact fun _ => agrees_word rfl (by decide) _
  | integer => exact fun _ => agrees_word rfl (by decide) _
  | trueWord => exact fun _ => agrees_word rfl (by decide) _
  | falseWord => exact fun _ => agrees_word rfl (by decide) _
  | group inner ih =>
    exact fun _ => agrees_group (ih nofun) inner.expression_ne_rparen
  | conditional _ _ condition block => exact agrees_conditional (condition nofun) block
  | alternative _ _ _ condition block block' => exact fun _ => agrees_alternative (condition nofun) block block'
  | function _ _ parameters block => exact fun _ => agrees_function parameters block
  | noCall => exact .refl _ _
  | call _ _ arguments calls =>
    exact (predicts_rest_call rfl).trans ((arguments.append [.rest]).trans calls)
  | sign kind _ ih => exact fun follow => agrees_sign kind (ih follow)
  | called _ calls primary ih =>
    intro follow
    have grows := primary (calls.calls_follow follow)
    exact ⟨(grows.1.append [.rest]).trans ih, fun continues => (grows.2 continues).trans ih⟩
  | noOperator => exact fun _ => .refl _ _
  | operator sign _ operators operand ih =>
    intro follow
    obtain ⟨level, found⟩ := Option.isSome_iff_exists.mp sign
    have grows := operand (operators.operators_follow follow)
    exact (predicts_rest_operator found).trans (grows.1.trans (ih follow))
  | chain _ operators operand ih =>
    intro follow
    have grows := operand (operators.operators_follow follow)
    exact ⟨grows.1.trans (ih follow), fun continues => (grows.2 continues).trans (ih follow)⟩
  | noArguments => exact predicts_items_nil rfl
  | someArguments first more ih others =>
    obtain ⟨follow, ends⟩ := more.moreArguments_follow
    exact (predicts_items_cons first.expression_ne_rparen).trans
      ((((ih follow).whole ends).append [.moreItems .argument]).trans others)
  | lastArgument => exact predicts_moreItems_nil rfl
  | nextArgument _ more ih others =>
    obtain ⟨follow, ends⟩ := more.moreArguments_follow
    exact (predicts_moreItems_cons rfl).trans ((((ih follow).whole ends).append [.moreItems .argument]).trans others)
  | noParameters => exact predicts_items_nil rfl
  | someParameters _ others =>
    refine Predicts.trans (predicts_items_cons ?_) ((predicts_token _ _ _).trans others)
    exact show TokenKind.ident ≠ .rparen by decide
  | lastParameter => exact predicts_moreItems_nil rfl
  | nextParameter _ others =>
    exact (predicts_moreItems_cons rfl).trans ((predicts_token _ _ _).trans others)
  | closedBlock _ ih =>
    exact (predicts_token _ _ _).trans (((ih (.inl rfl) .body row_body).1).trans (predicts_body_close rfl))
  | openBlock _ ih => exact (predicts_token _ _ _).trans (((ih (.inr rfl) .body row_body).1).trans predicts_body_end)
  | semicolon => exact .inr (predicts_ending _)
  | noSemicolon => exact .inl rfl
  | binding _ ending value ended =>
    intro follow
    refine ⟨_, ended, (predicts_statement_let rfl).trans ?_,
      fun continues => absurd continues (of_decide_eq_false rfl)⟩
    have grows := (value (ending.ending_follow follow)).1
    exact (predicts_token _ _ _).trans ((predicts_token _ _ _).trans (grows.append [.semicolon]))
  | result _ ending value ended =>
    intro follow
    refine ⟨_, ended, (predicts_statement_return rfl).trans ?_,
      fun continues => absurd continues (of_decide_eq_false rfl)⟩
    exact (value (ending.ending_follow follow)).1.append [.semicolon]
  | expression first ending value ended =>
    intro follow
    have grows := value (ending.ending_follow follow)
    obtain ⟨other, another⟩ := first.expression_ne_word
    exact ⟨_, ended, (predicts_statement_expression other another).trans (grows.1.append [.semicolon]), grows.2⟩
  | noStatements =>
    intro closed goal _
    refine ⟨.refl _ _, ?_⟩
    rcases closed with same | same <;> exact predicts_next (by rw [same]; decide) (by rw [same]; decide) goal
  | @someStatements kinds _ rest first more ih others =>
    intro closed goal row
    have follow := more.statements_follow (by rcases closed with same | same <;> rw [same] <;> decide)
    obtain ⟨between, ended, statement, grows⟩ := ih follow
    obtain ⟨plain, after⟩ := others closed goal row
    have tail : Predicts [.rest, .semicolon, goal] [goal] between (plainTokens rest) := by
      rcases ended with rfl | ended
      · exact after
      · exact (ended.append [goal]).trans plain
    have one := (row _ first.statement_start).trans ((statement.append [goal]).trans tail)
    refine ⟨one, ?_⟩
    -- Behind a statement without a semicolon, one that starts with a parenthesis or a sign is taken for more of it.
    by_cases continues : (nextKind (plainTokens kinds)).Continues
    · exact ((grows continues).append [.semicolon, goal]).trans tail
    · exact (predicts_next continues (first.statement_start.ne (by decide)) goal).trans one

end LetFn
