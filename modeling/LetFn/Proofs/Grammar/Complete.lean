import LetFn.Parse
import LetFn.Proofs.Grammar.Extent
import LetFn.Proofs.Parser.CleanLoops
import LetFn.Proofs.Parser.Fuel
import LetFn.Proofs.Parser.Settles
import LetFn.Proofs.Text.Decimal

namespace LetFn

/-- `later` is a state after `state` in which `rest` is unread and nothing more is complained of. -/
structure ParseState.Passes (state later : ParseState) (rest : List Token) : Prop where
  unread : later.unread = rest
  errors : later.errors = state.errors
  finish : later.stream.finish = state.stream.finish

namespace ParseState

variable {state : ParseState} {token : Token} {rest : List Token}

theorem current_of_ahead (front : state.stream.ahead = token :: rest) : state.current = token := by
  rw [current, TokenStream.current, front, List.headD_cons]

theorem unread_of_ahead (front : state.stream.ahead = token :: rest) : state.unread = rest := by
  rw [unread, front, List.tail_cons]

theorem peek_of_unread (front : state.unread = token :: rest) : state.peek = token :=
  state.advance.current_of_ahead front

theorem Passes.trans {first second third : ParseState} {between : List Token} (one : first.Passes second between)
    (two : second.Passes third rest) : first.Passes third rest :=
  ⟨two.unread, two.errors.trans one.errors, two.finish.trans one.finish⟩

theorem passes_of_ahead (front : state.stream.ahead = token :: rest) : state.Passes state rest :=
  ⟨unread_of_ahead front, rfl, rfl⟩

theorem Passes.advance {later : ParseState} (passes : state.Passes later (token :: rest)) :
    state.Passes later.advance rest :=
  ⟨later.advance.unread_of_ahead passes.unread, passes.errors, passes.finish⟩

theorem passes_of_unread (front : state.unread = token :: rest) : state.Passes state.advance rest :=
  Passes.advance ⟨front, rfl, rfl⟩

theorem peek_kind_of_unread {kind : TokenKind} (front : state.unread = token :: rest) (there : token.kind = kind) :
    state.peek.kind = kind := by
  rw [peek_of_unread front, there]

theorem Passes.of_advance {later : ParseState} (passes : state.advance.Passes later rest) :
    state.Passes later rest :=
  ⟨passes.unread, passes.errors, passes.finish⟩

end ParseState

namespace Action

/-- What the routine for a phrase makes of it where it is written. An expression is not always read by a single
call: what is read so far is handed to the loop over the operators, and this loop goes on with `value` as its
left operand. In the same way the loop over statements goes on behind `values`. -/
def Parses : Phrase → List Token → List Token → Prop
  | .expression level value, tokens, rest => ∀ power state, power ≠ .call → power.Admits level →
      level.Stops rest → nextKind rest ≠ .elseWord → state.stream.ahead = tokens →
      ∃ later, state.Passes later rest ∧ ∀ result final,
        Settles (fun fuel turns => climb .standard (extension .standard fuel) power turns value) later result final →
        Settles (fun fuel _ => expression .standard fuel power) state result final
  | .arguments values, tokens, rest => ∀ state, state.unread = tokens → ∃ later, state.Passes later rest ∧
      Settles (fun fuel turns => closedItems (do advance; expression .standard fuel .lowest) turns) state values later
  | .moreArguments values, tokens, rest => ∀ state, state.unread = tokens →
      ∃ middle, state.Passes middle.advance rest ∧ middle.peek.kind = .rparen ∧
      Settles (fun fuel turns => commaItems (do advance; expression .standard fuel .lowest) turns) state values middle
  | .parameters names, tokens, rest => ∀ state, state.unread = tokens → ∃ later, state.Passes later rest ∧
      Settles (fun _ turns => closedItems parameter turns) state names later
  | .moreParameters names, tokens, rest => ∀ state, state.unread = tokens →
      ∃ middle, state.Passes middle.advance rest ∧ middle.peek.kind = .rparen ∧
      Settles (fun _ turns => commaItems parameter turns) state names middle
  | .block value, tokens, rest => ∀ state, state.stream.ahead = tokens → ∃ later, state.Passes later rest ∧
      Settles (fun fuel _ => block .standard fuel) state value later
  | .statement value, tokens, rest => ∀ state, Parted TokenKind.Trails tokens rest →
      state.stream.ahead = tokens → ∃ later, state.Passes later rest ∧
        Settles (fun fuel _ => statement .standard fuel .dispatch) state value later
  | .statements values, tokens, rest => ∀ closes state,
      (∀ kind, closes kind = true → kind = .rbrace ∨ kind = .eof) →
      (values ≠ [] → Parted TokenKind.Trails tokens rest) → state.stream.ahead = tokens →
      ∃ later, later.stream = ⟨rest, state.stream.finish⟩ ∧ later.errors = state.errors ∧ ∀ others final,
        Settles (fun fuel turns => statements closes (statement .standard fuel .dispatch) turns) later others final →
        Settles (fun fuel turns => statements closes (statement .standard fuel .dispatch) turns) state
          (values ++ others) final

/-- What a rule opens is handed to the loop over the operators. -/
theorem parsed_of_opening (rule : PrefixRule) {level : Power} {value : Expr} {first : Token}
    {tokens rest : List Token} (starts : rule.Starts first.kind)
    (opens : ∀ state, level.Stops rest → nextKind rest ≠ .elseWord → state.stream.ahead = first :: tokens →
      ∃ later, state.Passes later rest ∧ Settles (fun fuel _ => opening .standard fuel rule) state value later) :
    Parses (.expression level value) (first :: tokens) rest := by
  intro power state _ _ stops other front
  obtain ⟨later, passes, settles⟩ := opens state stops other front
  have found : Rules.standard.prefixRule state.current.kind = some rule := by
    rw [ParseState.current_of_ahead front]
    exact Rules.standard_prefixRule_iff.mpr starts
  exact ⟨later, passes, fun result final climbs => settles_expression found settles climbs⟩

/-- An expression is read by one call where it cannot be continued. -/
theorem parsed_expression {level power : Power} {value : Expr} {tokens rest : List Token}
    (parsed : Parses (.expression level value) tokens rest) (least : power ≠ .call)
    (admits : power.Admits level) (stops : power.Stops rest) (higher : level.Stops rest)
    (other : nextKind rest ≠ .elseWord) (state : ParseState) (front : state.stream.ahead = tokens) :
    ∃ later, state.Passes later rest ∧ Settles (fun fuel _ => expression .standard fuel power) state value later := by
  obtain ⟨later, passes, continues⟩ := parsed power state least admits higher other front
  have held : ¬power < Rules.standard.power later.peek.kind := by
    rw [ParseState.peek_kind, passes.unread]
    exact Power.not_lt_of_stops stops
  exact ⟨later, passes, continues value later (settles_climb_stop fun holds => held holds.2)⟩

/-- An expression in parentheses, an argument or the value of a statement, with what ends it. -/
theorem parsed_whole {level : Power} {value : Expr} {tokens rest : List Token}
    (read : Reads (.expression level value) tokens rest) (parsed : Parses (.expression level value) tokens rest)
    (ends : ¬(nextKind rest).Continues) (other : nextKind rest ≠ .elseWord) (state : ParseState)
    (front : state.stream.ahead = tokens) :
    ∃ later, state.Passes later rest ∧
      Settles (fun fuel _ => expression .standard fuel .lowest) state value later := by
  have stops := Power.stops_lowest_iff.mpr ends
  have higher : level.Stops rest := stops.mono (Nat.zero_le _)
  exact parsed_expression parsed (by decide) (.inl read.lowest_lt) stops higher other state front

theorem parses_identifier {token : Token} {rest : List Token} (ident : token.kind = .ident) :
    Parses (.expression .call (.identifier (.ofToken token))) (token :: rest) rest := by
  refine parsed_of_opening .identifier ident fun state _ _ front =>
    ⟨state, ParseState.passes_of_ahead front, .of_succ (settles_current ?_)⟩
  rw [ParseState.current_of_ahead front]
  exact settles_pure _

theorem parses_integer {token : Token} {value : Nat} {rest : List Token} (int : token.kind = .int)
    (digits : Text.natural? token.literal.toList = some value) (small : value ≤ 0x7fffffffffffffff) :
    Parses (.expression .call (.integer token value)) (token :: rest) rest := by
  refine parsed_of_opening .integer int fun state _ _ front =>
    ⟨state, ParseState.passes_of_ahead front, .of_succ ⟨0, fun _ _ _ _ => ?_⟩⟩
  have number := Text.integer64?_of_natural? digits
  rw [if_pos small] at number
  rw [← ParseState.current_of_ahead front] at number ⊢
  exact opening_integer_of_some number

theorem parses_boolean {token : Token} {rest : List Token}
    (word : token.kind = .trueWord ∨ token.kind = .falseWord) :
    Parses (.expression .call (.boolean token (token.kind = .trueWord))) (token :: rest) rest := by
  refine parsed_of_opening .boolean word fun state _ _ front =>
    ⟨state, ParseState.passes_of_ahead front, .of_succ (settles_current ?_)⟩
  rw [ParseState.current_of_ahead front]
  exact settles_pure _

theorem nextKind_closing {right : Token} (rest : List Token) (closing : right.kind = .rparen) :
    ¬(nextKind (right :: rest)).Continues ∧ nextKind (right :: rest) ≠ .elseWord := by
  rw [nextKind, closing]
  decide

theorem parses_group {left right : Token} {inner : Expr} {level : Power} {tokens rest : List Token}
    (opening : left.kind = .lparen) (read : Reads (.expression level inner) tokens (right :: rest))
    (closing : right.kind = .rparen) (parsed : Parses (.expression level inner) tokens (right :: rest)) :
    Parses (.expression .call inner) (left :: tokens) rest := by
  refine parsed_of_opening .group opening fun state _ _ front => ?_
  obtain ⟨ends, other⟩ := nextKind_closing rest closing
  obtain ⟨middle, passes, settles⟩ := parsed_whole read parsed ends other
    state.advance (ParseState.unread_of_ahead front)
  have there : middle.peek.kind = .rparen := ParseState.peek_kind_of_unread passes.unread closing
  refine ⟨middle.advance, passes.advance.of_advance, .of_succ (settles_advance ?_)⟩
  exact settles.bind (settles_expectPeek there (settles_pure inner))

theorem parses_call {callee : Expr} {tokens between rest : List Token} {left : Token} {arguments : List Expr}
    (paren : left.kind = .lparen) (parsed : Parses (.expression .call callee) tokens (left :: between))
    (inside : Parses (.arguments arguments) between rest) :
    Parses (.expression .call (.call left callee arguments)) tokens rest := by
  intro power state least admits _ _ front
  have other : nextKind (left :: between) ≠ .elseWord := by
    rw [nextKind, paren]
    decide
  obtain ⟨middle, passes, continues⟩ := parsed power state least admits (Power.stops_call _) other front
  obtain ⟨later, further, settles⟩ := inside middle.advance passes.advance.unread
  have there : middle.peek = left := ParseState.peek_of_unread passes.unread
  have found : Rules.standard.infixRule middle.peek.kind = some .call := by
    rw [there, paren]
    rfl
  refine ⟨later, passes.trans further.of_advance, fun result final climbs => continues result final ?_⟩
  refine settles_climb_step .call ?_ found ?_ climbs
  · rw [there, paren]
    refine ⟨by decide, ?_⟩
    cases power <;> first | exact absurd rfl least | decide
  · refine .of_succ (settles_current (Settles.bind settles.diagonal ?_))
    rw [← there]
    exact settles_pure _

theorem parses_unary {sign : Token} {level : Power} {right : Expr} {tokens rest : List Token}
    (operator : sign.kind = .bang ∨ sign.kind = .minus) (tight : .sign ≤ level)
    (parsed : Parses (.expression level right) tokens rest) :
    Parses (.expression .sign (.unary sign sign.literal right)) (sign :: tokens) rest := by
  refine parsed_of_opening .operator operator fun state stops other front => ?_
  obtain ⟨later, passes, settles⟩ := parsed_expression parsed (by decide) (.inr tight) stops (stops.mono tight)
    other state.advance (ParseState.unread_of_ahead front)
  refine ⟨later, passes.of_advance, .of_succ (settles_current (settles_advance (settles.bind ?_)))⟩
  rw [ParseState.current_of_ahead front]
  exact settles_pure _

theorem parses_binary {sign : Token} {level low high : Power} {left right : Expr} {tokens between rest : List Token}
    (operator : sign.kind.level? = some level) (least : level ≤ low)
    (start : Parses (.expression low left) tokens (sign :: between)) (above : level < high)
    (parsed : Parses (.expression high right) between rest) :
    Parses (.expression level (.binary sign sign.literal left right)) tokens rest := by
  intro power state small admits stops other front
  have under := (TokenKind.level_lt_sign operator).2
  -- The loop that has read the left operand is not done with it, for the operator holds it more tightly.
  have holds : power < level := admits.elim id fun le => absurd under (Nat.not_lt.mpr le)
  have loose : level ≠ .call := by
    rintro rfl
    exact absurd under (by decide)
  have never : sign.kind ≠ .elseWord ∧ sign.kind ≠ .semicolon := by
    constructor <;> intro same <;> rw [same] at operator <;> cases operator
  obtain ⟨middle, passes, continues⟩ := start power state small (.inl (Nat.lt_of_lt_of_le holds least))
    ((Power.stops_of_level operator).mpr least) never.1 front
  obtain ⟨later, further, settles⟩ := parsed_expression parsed loose (.inl above) stops
    (stops.mono (Nat.le_of_lt above)) other middle.advance.advance (ParseState.unread_of_ahead passes.unread)
  have there : middle.peek = sign := ParseState.peek_of_unread passes.unread
  have found : Rules.standard.infixRule sign.kind = some .operator ∧ Rules.standard.power sign.kind = level := by
    generalize sign.kind = kind at operator
    cases kind <;> cases operator <;> exact ⟨rfl, rfl⟩
  refine ⟨later, passes.trans further.of_advance.of_advance, fun result final climbs => continues result final ?_⟩
  refine settles_climb_step .operator ?_ (by rw [there, found.1]) ?_ climbs
  · rw [there, found.2]
    exact ⟨never.2, holds⟩
  · rw [there, found.2]
    refine .of_succ (settles_current (settles_advance (settles.bind ?_)))
    rw [← there]
    exact settles_pure _

/-- The part of a conditional that both its forms share: the condition and the first block. -/
theorem parsed_condition {left right : Token} {condition : Expr} {level : Power} {consequence : Block}
    {tokens between rest : List Token} (paren : left.kind = .lparen)
    (read : Reads (.expression level condition) tokens (right :: between)) (closing : right.kind = .rparen)
    (parsed : Parses (.expression level condition) tokens (right :: between))
    (brace : nextKind between = .lbrace) (block : Parses (.block consequence) between rest) (state : ParseState)
    (front : state.unread = left :: tokens) :
    ∃ later, state.Passes later rest ∧ ∀ {α : Type} {next : Nat → Nat → Expr → Block → Action α} {value : α} {final},
      Settles (fun fuel turns => next fuel turns condition consequence) later value final →
      Settles (fun fuel turns => do
        expectPeek .lparen
        advance
        let condition ← Action.expression .standard fuel .lowest
        expectPeek .rparen
        expectPeek .lbrace
        let consequence ← Action.block .standard fuel
        next fuel turns condition consequence) state value final := by
  obtain ⟨ends, other⟩ := nextKind_closing between closing
  obtain ⟨middle, passes, settles⟩ := parsed_whole read parsed ends other state.advance.advance
    (state.advance.unread_of_ahead front)
  have opened : state.peek.kind = .lparen := ParseState.peek_kind_of_unread front paren
  have there : middle.peek.kind = .rparen := ParseState.peek_kind_of_unread passes.unread closing
  have onto : middle.advance.unread = between := passes.advance.unread
  obtain ⟨later, further, settles'⟩ := block middle.advance.advance onto
  refine ⟨later, passes.of_advance.of_advance.trans further.of_advance.of_advance, ?_⟩
  intro α next value final continues
  refine settles_expectPeek opened (settles_advance (settles.bind ?_))
  refine settles_expectPeek there (settles_expectPeek ?_ (settles'.bind continues))
  rw [ParseState.peek_kind, onto, brace]

theorem parses_conditional {word left right : Token} {condition : Expr} {level : Power} {consequence : Block}
    {tokens between rest : List Token} (start : word.kind = .ifWord) (paren : left.kind = .lparen)
    (read : Reads (.expression level condition) tokens (right :: between)) (closing : right.kind = .rparen)
    (parsed : Parses (.expression level condition) tokens (right :: between))
    (brace : nextKind between = .lbrace) (block : Parses (.block consequence) between rest) :
    Parses (.expression .call (.conditional word condition consequence none)) (word :: left :: tokens) rest := by
  refine parsed_of_opening .conditional start fun state _ other front => ?_
  obtain ⟨later, passes, continues⟩ := parsed_condition paren read closing parsed brace block state
    (ParseState.unread_of_ahead front)
  refine ⟨later, passes, .of_succ (settles_current (continues (settles_peek (.ite_neg ?_ ?_))))⟩
  · rw [ParseState.peek_kind, passes.unread]
    exact other
  · rw [ParseState.current_of_ahead front]
    exact settles_pure _

theorem parses_alternative {word left right other : Token} {condition : Expr} {level : Power}
    {consequence alternative : Block} {tokens between behind rest : List Token} (start : word.kind = .ifWord)
    (paren : left.kind = .lparen) (read : Reads (.expression level condition) tokens (right :: between))
    (closing : right.kind = .rparen) (parsed : Parses (.expression level condition) tokens (right :: between))
    (brace : nextKind between = .lbrace) (block : Parses (.block consequence) between (other :: behind))
    (word' : other.kind = .elseWord) (brace' : nextKind behind = .lbrace)
    (block' : Parses (.block alternative) behind rest) :
    Parses (.expression .call (.conditional word condition consequence (some alternative)))
      (word :: left :: tokens) rest := by
  refine parsed_of_opening .conditional start fun state _ _ front => ?_
  obtain ⟨middle, passes, continues⟩ := parsed_condition paren read closing parsed brace block state
    (ParseState.unread_of_ahead front)
  obtain ⟨later, further, settles⟩ := block' middle.advance.advance passes.advance.unread
  have there : middle.peek.kind = .elseWord := ParseState.peek_kind_of_unread passes.unread word'
  have onto : middle.advance.unread = behind := passes.advance.unread
  refine ⟨later, passes.trans further.of_advance.of_advance, .of_succ (settles_current (continues (settles_peek
    (.ite_pos there (settles_advance (settles_expectPeek ?_ (settles.bind ?_)))))))⟩
  · rw [ParseState.peek_kind, onto, brace']
  · rw [ParseState.current_of_ahead front]
    exact settles_pure _

theorem parses_function {word left : Token} {names : List Identifier} {body : Block}
    {tokens between rest : List Token} (start : word.kind = .fnWord) (paren : left.kind = .lparen)
    (parameters : Parses (.parameters names) tokens between) (brace : nextKind between = .lbrace)
    (block : Parses (.block body) between rest) :
    Parses (.expression .call (.function word names body)) (word :: left :: tokens) rest := by
  refine parsed_of_opening .function start fun state _ _ front => ?_
  have opened : state.peek.kind = .lparen :=
    ParseState.peek_kind_of_unread (ParseState.unread_of_ahead front) paren
  obtain ⟨middle, passes, settles⟩ := parameters state.advance
    (state.advance.unread_of_ahead (ParseState.unread_of_ahead front))
  obtain ⟨later, further, settles'⟩ := block middle.advance passes.unread
  refine ⟨later, passes.of_advance.trans further.of_advance, .of_succ (settles_current
    (settles_expectPeek opened (Settles.bind settles.diagonal (settles_expectPeek ?_
      (settles'.bind ?_)))))⟩
  · rw [ParseState.peek_kind, passes.unread, brace]
  · rw [ParseState.current_of_ahead front]
    exact settles_pure _

/-- An argument with what follows it, which is a comma or the closing parenthesis. -/
theorem parsed_argument {level : Power} {value : Expr} {others : List Expr} {tokens between rest : List Token}
    (read : Reads (.expression level value) tokens between) (parsed : Parses (.expression level value) tokens between)
    (more : Reads (.moreArguments others) between rest) (state : ParseState) (front : state.unread = tokens) :
    ∃ later, state.Passes later between ∧
      Settles (fun fuel _ => do advance; expression .standard fuel .lowest) state value later := by
  have ends : ¬(nextKind between).Continues ∧ nextKind between ≠ .elseWord := by
    cases more with
    | lastArgument closing => exact nextKind_closing _ closing
    | nextArgument comma =>
      rw [nextKind, comma]
      decide
  obtain ⟨later, passes, settles⟩ := parsed_whole read parsed ends.1 ends.2 state.advance front
  exact ⟨later, passes.of_advance, settles_advance settles⟩

theorem parses_noArguments {right : Token} {rest : List Token} (closing : right.kind = .rparen) :
    Parses (.arguments []) (right :: rest) rest := by
  intro state front
  have there : state.peek.kind = .rparen := ParseState.peek_kind_of_unread front closing
  exact ⟨state.advance, ParseState.passes_of_unread front, settles_closedItems_nil _ there⟩

theorem parses_someArguments {level : Power} {first : Expr} {others : List Expr} {tokens between rest : List Token}
    (read : Reads (.expression level first) tokens between) (parsed : Parses (.expression level first) tokens between)
    (more : Reads (.moreArguments others) between rest) (parsed' : Parses (.moreArguments others) between rest) :
    Parses (.arguments (first :: others)) tokens rest := by
  intro state front
  obtain ⟨middle, passes, settles⟩ := parsed_argument read parsed more state front
  obtain ⟨later, further, closed, settles'⟩ := parsed' middle passes.unread
  have more : state.peek.kind ≠ .rparen := by
    obtain ⟨token, behind, rfl, rule, starts⟩ := read.expression_start
    rw [ParseState.peek_of_unread front]
    exact starts.ne rfl
  exact ⟨later.advance, passes.trans further, settles_closedItems_cons _ more settles settles' closed⟩

theorem parses_lastArgument {right : Token} {rest : List Token} (closing : right.kind = .rparen) :
    Parses (.moreArguments []) (right :: rest) rest := by
  intro state front
  have there : state.peek.kind = .rparen := ParseState.peek_kind_of_unread front closing
  have other : state.peek.kind ≠ .comma := by
    rw [there]
    decide
  exact ⟨state, ParseState.passes_of_unread front, there, settles_commaItems_nil _ other⟩

theorem parses_nextArgument {comma : Token} {level : Power} {first : Expr} {others : List Expr}
    {tokens between rest : List Token} (separates : comma.kind = .comma)
    (read : Reads (.expression level first) tokens between) (parsed : Parses (.expression level first) tokens between)
    (more : Reads (.moreArguments others) between rest) (parsed' : Parses (.moreArguments others) between rest) :
    Parses (.moreArguments (first :: others)) (comma :: tokens) rest := by
  intro state front
  obtain ⟨middle, passes, settles⟩ := parsed_argument read parsed more state.advance
    (state.advance.unread_of_ahead front)
  obtain ⟨later, further, closed, settles'⟩ := parsed' middle passes.unread
  have there : state.peek.kind = .comma := ParseState.peek_kind_of_unread front separates
  exact ⟨later, passes.of_advance.trans further, closed, settles_commaItems_cons _ there settles settles'⟩

theorem parsed_parameter {name : Token} {rest : List Token} (ident : name.kind = .ident) (state : ParseState)
    (front : state.unread = name :: rest) :
    state.Passes state.advance rest ∧ Settles (fun _ _ => parameter) state (.ofToken name) state.advance := by
  have there : state.peek.kind = .ident := ParseState.peek_kind_of_unread front ident
  refine ⟨ParseState.passes_of_unread front, settles_expectPeek there (settles_current ?_)⟩
  rw [state.advance.current_of_ahead front]
  exact settles_pure _

theorem parses_noParameters {right : Token} {rest : List Token} (closing : right.kind = .rparen) :
    Parses (.parameters []) (right :: rest) rest := by
  intro state front
  have there : state.peek.kind = .rparen := ParseState.peek_kind_of_unread front closing
  exact ⟨state.advance, ParseState.passes_of_unread front, settles_closedItems_nil (fun _ => parameter) there⟩

theorem parses_someParameters {name : Token} {others : List Identifier} {tokens rest : List Token}
    (ident : name.kind = .ident) (parsed : Parses (.moreParameters others) tokens rest) :
    Parses (.parameters (.ofToken name :: others)) (name :: tokens) rest := by
  intro state front
  obtain ⟨passes, settles⟩ := parsed_parameter ident state front
  obtain ⟨later, further, closed, settles'⟩ := parsed state.advance passes.unread
  have more : state.peek.kind ≠ .rparen := by
    rw [ParseState.peek_of_unread front, ident]
    decide
  exact ⟨later.advance, passes.trans further,
    settles_closedItems_cons (fun _ => parameter) more settles settles' closed⟩

theorem parses_lastParameter {right : Token} {rest : List Token} (closing : right.kind = .rparen) :
    Parses (.moreParameters []) (right :: rest) rest := by
  intro state front
  have there : state.peek.kind = .rparen := ParseState.peek_kind_of_unread front closing
  have other : state.peek.kind ≠ .comma := by
    rw [there]
    decide
  exact ⟨state, ParseState.passes_of_unread front, there, settles_commaItems_nil (fun _ => parameter) other⟩

theorem parses_nextParameter {comma name : Token} {others : List Identifier} {tokens rest : List Token}
    (separates : comma.kind = .comma) (ident : name.kind = .ident)
    (parsed : Parses (.moreParameters others) tokens rest) :
    Parses (.moreParameters (.ofToken name :: others)) (comma :: name :: tokens) rest := by
  intro state front
  have there : state.peek.kind = .comma := ParseState.peek_kind_of_unread front separates
  obtain ⟨passes, settles⟩ := parsed_parameter ident state.advance (state.advance.unread_of_ahead front)
  obtain ⟨later, further, closed, settles'⟩ := parsed state.advance.advance passes.unread
  exact ⟨later, passes.of_advance.trans further, closed,
    settles_commaItems_cons (fun _ => parameter) there settles settles'⟩

theorem settles_skipSemicolon {state : ParseState} {tokens rest : List Token}
    (unread : state.unread = tokens) (ended : Ended tokens rest) (other : tokens = rest → nextKind rest ≠ .semicolon) :
    ∃ later, state.Passes later rest ∧ ∀ {α : Type} {next : Nat → Nat → Unit → Action α} {value : α} {final},
      Settles (fun fuel turns => next fuel turns ()) later value final →
      Settles (fun fuel turns => skipSemicolon >>= next fuel turns) state value final := by
  cases ended with
  | semicolon sign =>
    have there : state.peek.kind = .semicolon := ParseState.peek_kind_of_unread unread sign
    exact ⟨state.advance, ParseState.passes_of_unread unread, Settles.bind (settles_of_ok (if_pos there))⟩
  | bare _ =>
    have there : state.peek.kind ≠ .semicolon := by
      rw [ParseState.peek_kind, unread]
      exact other rfl
    exact ⟨state, ⟨unread, rfl, rfl⟩, Settles.bind (settles_of_ok (if_neg there))⟩

/-- The value of a statement with the semicolon behind it, if there is one. -/
theorem parsed_value {level : Power} {value : Expr} {tokens between rest : List Token}
    (read : Reads (.expression level value) tokens between) (parsed : Parses (.expression level value) tokens between)
    (ended : Ended between rest) (parted : Parted TokenKind.Trails tokens rest) (state : ParseState)
    (front : state.stream.ahead = tokens) :
    ∃ later, state.Passes later rest ∧ ∀ {make : Expr → Stmt},
      Settles (fun fuel _ => do
        let value ← Action.expression .standard fuel .lowest
        skipSemicolon
        return make value) state (make value) later := by
  have ends : ¬(nextKind between).Continues ∧ nextKind between ≠ .elseWord := by
    cases ended with
    | semicolon sign =>
      rw [nextKind, sign]
      decide
    | bare stops => exact ⟨stops, fun word => read.next_of_parted parted (by decide) (.inr word)⟩
  have single : between = rest → nextKind rest ≠ .semicolon := by
    rintro rfl sign
    exact read.next_of_parted parted (by decide) (.inl sign)
  obtain ⟨middle, passes, settles⟩ := parsed_whole read parsed ends.1 ends.2 state front
  obtain ⟨later, further, continues⟩ := settles_skipSemicolon passes.unread ended single
  exact ⟨later, passes.trans further, settles.bind (continues (settles_pure _))⟩

/-- A statement is read by the rule that its first token has. -/
theorem settles_dispatch {state later : ParseState} {value : Stmt} (rule : StatementRule)
    (found : (Rules.standard.statementRule state.current.kind).getD .expression = rule)
    (settles : Settles (fun fuel _ => statement .standard fuel rule) state value later) :
    Settles (fun fuel _ => statement .standard fuel .dispatch) state value later := by
  refine .of_succ (settles_current ?_)
  rw [found]
  exact settles

theorem parses_binding {word name sign : Token} {level : Power} {value : Expr} {tokens between rest : List Token}
    (start : word.kind = .letWord) (ident : name.kind = .ident) (assign : sign.kind = .assign)
    (read : Reads (.expression level value) tokens between) (parsed : Parses (.expression level value) tokens between)
    (ended : Ended between rest) :
    Parses (.statement (.binding word (.ofToken name) value)) (word :: name :: sign :: tokens) rest := by
  intro state parted front
  obtain ⟨passes, settles⟩ := parsed_parameter ident state (ParseState.unread_of_ahead front)
  have equals : state.advance.peek.kind = .assign := ParseState.peek_kind_of_unread passes.unread assign
  obtain ⟨later, further, settles'⟩ := parsed_value read parsed ended
    (parted.last_part ⟨[_, _, _], rfl⟩ (ended.last read.ends)) state.advance.advance.advance
    (ParseState.Passes.advance passes).unread
  refine ⟨later, further.of_advance.of_advance.of_advance, settles_dispatch .binding ?_ (.of_succ (settles_current
    (settles.bind (settles_expectPeek equals (settles_advance ?_)))))⟩
  · rw [ParseState.current_of_ahead front, start]
    rfl
  · rw [ParseState.current_of_ahead front]
    exact settles'

theorem parses_result {word : Token} {level : Power} {value : Expr} {tokens between rest : List Token}
    (start : word.kind = .returnWord) (read : Reads (.expression level value) tokens between)
    (parsed : Parses (.expression level value) tokens between) (ended : Ended between rest) :
    Parses (.statement (.result word value)) (word :: tokens) rest := by
  intro state parted front
  obtain ⟨later, passes, settles⟩ := parsed_value read parsed ended
    (parted.last_part ⟨[_], rfl⟩ (ended.last read.ends)) state.advance (ParseState.unread_of_ahead front)
  refine ⟨later, passes.of_advance, settles_dispatch .result ?_ (.of_succ (settles_current
    (settles_advance ?_)))⟩
  · rw [ParseState.current_of_ahead front, start]
    rfl
  · rw [ParseState.current_of_ahead front]
    exact settles

theorem parses_expression {first : Token} {level : Power} {value : Expr} {tokens between rest : List Token}
    (read : Reads (.expression level value) (first :: tokens) between)
    (parsed : Parses (.expression level value) (first :: tokens) between) (ended : Ended between rest) :
    Parses (.statement (.expression first value)) (first :: tokens) rest := by
  intro state parted front
  obtain ⟨later, passes, settles⟩ := parsed_value read parsed ended parted state front
  refine ⟨later, passes, settles_dispatch .expression ?_ (.of_succ (settles_current ?_))⟩
  · obtain ⟨_, _, same, rule, starts⟩ := read.expression_start
    cases same
    rw [ParseState.current_of_ahead front, Rules.standard_statementRule, if_neg (starts.ne rfl),
      if_neg (starts.ne rfl), Option.getD_none]
  · rw [ParseState.current_of_ahead front]
    exact settles

theorem parses_noStatements {rest : List Token} : Parses (.statements []) rest rest := by
  intro closes state _ _ front
  subst front
  exact ⟨state, rfl, rfl, fun others final settles => settles⟩

/-- Blocks and the whole program: `rest` starts with a token that ends the statements. -/
theorem parsed_statements {values : List Stmt} {tokens rest : List Token}
    (parsed : Parses (.statements values) tokens rest) (closes : TokenKind → Bool)
    (ends : ∀ kind, closes kind = true → kind = .rbrace ∨ kind = .eof) (closed : closes (nextKind rest) = true)
    (state : ParseState) (front : state.stream.ahead = tokens) :
    ∃ later, later.stream = ⟨rest, state.stream.finish⟩ ∧ later.errors = state.errors ∧
      Settles (fun fuel turns => statements closes (statement .standard fuel .dispatch) turns) state values later := by
  have parted : Parted TokenKind.Trails tokens rest := by
    refine .inr ?_
    rcases ends _ closed with kind | kind <;> rw [kind] <;> decide
  obtain ⟨later, stream, errors, continues⟩ := parsed closes state ends (fun _ => parted) front
  have here : closes later.current.kind = true := by rw [ParseState.current_kind, stream, closed]
  have settles := continues [] later (settles_statements_nil here)
  rw [List.append_nil] at settles
  exact ⟨later, stream, errors, settles⟩

theorem parses_block {left : Token} {body : List Stmt} {tokens behind : List Token}
    (parsed : Parses (.statements body) tokens behind) (closed : closesBlock (nextKind behind) = true) :
    Parses (.block (.mk left body)) (left :: tokens) behind.tail := by
  intro state front
  obtain ⟨later, stream, errors, settles⟩ := parsed_statements parsed closesBlock (by simp [closesBlock]) closed
    state.advance (ParseState.unread_of_ahead front)
  refine ⟨later, ⟨?_, errors, ?_⟩, .of_succ (settles_current (settles_advance (Settles.bind settles.diagonal ?_)))⟩
  · rw [ParseState.unread, stream]
  · rw [stream]
    rfl
  · rw [ParseState.current_of_ahead front]
    exact settles_pure _

theorem parses_someStatements {first : Stmt} {others : List Stmt} {tokens between rest : List Token}
    (read : Reads (.statement first) tokens between) (parsed : Parses (.statement first) tokens between)
    (more : Reads (.statements others) between rest) (parsed' : Parses (.statements others) between rest) :
    Parses (.statements (first :: others)) tokens rest := by
  intro closes state ends parted front
  have apart := parted (List.cons_ne_nil _ _)
  have apart' : Parted TokenKind.Trails tokens between := by
    cases more with
    | noStatements => exact apart
    | someStatements next =>
      obtain ⟨token, behind, rfl, starts⟩ := next.statement_start
      exact .inr fun trails => trails.elim (starts.ne (by decide)) (starts.ne (by decide))
  obtain ⟨middle, passes, settles⟩ := parsed state.countRound apart' front
  have parted' : others ≠ [] → Parted TokenKind.Trails between rest := by
    intro some
    rcases more.ends with ⟨none, -⟩ | last
    · exact absurd none some
    · exact apart.last_part read.suffix last
  obtain ⟨later, stream, errors, continues⟩ := parsed' closes middle.advance ends parted' passes.unread
  refine ⟨later, ?_, errors.trans passes.errors, fun further final settles' => ?_⟩
  · rw [stream]
    exact congrArg _ passes.finish
  · refine settles_statements_cons ?_ settles (continues further final settles')
    obtain ⟨token, behind, rfl, starts⟩ := read.statement_start
    rw [ParseState.current_of_ahead front]
    intro same
    rcases ends _ same with brace | eof
    · exact starts.ne (by decide) brace
    · exact starts.ne (by decide) eof

/-- What the grammar reads, the routines read. -/
theorem parses {phrase : Phrase} {tokens rest : List Token} (read : Reads phrase tokens rest) :
    Parses phrase tokens rest := by
  induction read with
  | identifier ident => exact parses_identifier ident
  | integer int digits small => exact parses_integer int digits small
  | boolean word => exact parses_boolean word
  | group opening read closing parsed => exact parses_group opening read closing parsed
  | conditional start paren read closing block parsed parsed' =>
    exact parses_conditional start paren read closing parsed block.block_start parsed'
  | alternative start paren read closing block other block' parsed parsed' parsed'' =>
    exact parses_alternative start paren read closing parsed block.block_start parsed' other block'.block_start parsed''
  | function start paren _ block parsed parsed' =>
    exact parses_function start paren parsed block.block_start parsed'
  | call _ paren _ parsed parsed' => exact parses_call paren parsed parsed'
  | unary operator tight _ parsed => exact parses_unary operator tight parsed
  | binary operator least _ above _ parsed parsed' => exact parses_binary operator least parsed above parsed'
  | noArguments closing => exact parses_noArguments closing
  | someArguments read more parsed parsed' => exact parses_someArguments read parsed more parsed'
  | lastArgument closing => exact parses_lastArgument closing
  | nextArgument separates read more parsed parsed' =>
    exact parses_nextArgument separates read parsed more parsed'
  | noParameters closing => exact parses_noParameters closing
  | someParameters ident _ parsed => exact parses_someParameters ident parsed
  | lastParameter closing => exact parses_lastParameter closing
  | nextParameter separates ident _ parsed => exact parses_nextParameter separates ident parsed
  | closedBlock _ _ closing parsed => exact parses_block parsed (by rw [nextKind, closing]; rfl)
  | openBlock _ _ parsed => exact parses_block parsed rfl
  | binding start ident assign read ended parsed => exact parses_binding start ident assign read parsed ended
  | result start read ended parsed => exact parses_result start read parsed ended
  | expression read ended parsed => exact parses_expression read parsed ended
  | noStatements => exact parses_noStatements
  | someStatements read more parsed parsed' => exact parses_someStatements read parsed more parsed'

/-- What the loop over the whole source settles on is what the parser comes to with its own fuel. -/
theorem program_of_settles {state later : ParseState} {values : List Stmt}
    (settles : Settles (fun fuel turns => statements (· = .eof) (statement .standard fuel .dispatch) turns)
      state values later) : Action.program .standard state.fuel state = .ok ⟨values⟩ later := by
  obtain ⟨enough, done⟩ := settles.diagonal
  obtain ⟨found, there, run⟩ := state.program_ok
  have ends := done (max enough state.fuel) enough (Nat.le_max_left _ _) (Nat.le_refl _)
  have again := (program_below .standard (Nat.le_max_right enough _)).ok run
  rw [Action.program, bind_of_ok ends] at again
  cases again
  exact run

theorem settles_of_program {fuel : Nat} {state later : ParseState} {program : Program}
    (run : Action.program .standard fuel state = .ok program later) :
    Settles (fun fuel turns => statements (· = .eof) (statement .standard fuel .dispatch) turns)
      state program.statements later :=
  ⟨fuel, fun _ _ le le' =>
    (((extends_of_le .standard le).statement .dispatch).statements le').ok (statements_of_program run)⟩

/-- A program that the grammar reads out of the tokens ahead is the one that the parser finds there. -/
theorem program_of_reads {program : Program} {stream : TokenStream}
    (read : Reads (.statements program.statements) stream.ahead []) :
    ∃ later, Action.program .standard (ParseState.start stream).fuel (.start stream) = .ok program later ∧
      later.errors = [] := by
  obtain ⟨later, _, clean, settles⟩ := parsed_statements (parses read) (· = .eof) (by simp) rfl (.start stream) rfl
  exact ⟨later, program_of_settles settles, clean⟩

end Action

end LetFn
