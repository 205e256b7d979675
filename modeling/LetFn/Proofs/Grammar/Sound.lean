import LetFn.Proofs.Parser.CleanLoops
import LetFn.Proofs.Text.Decimal

namespace LetFn

/-- `value` is written at the front of `tokens` with a level that `power` admits, and is not to be continued by
what holds more tightly. -/
def Power.Climbs (power : Power) (tokens : List Token) (value : Expr) (rest : List Token) : Prop :=
  ∃ level, Reads (.expression level value) tokens rest ∧ power.Admits level ∧ level.Stops rest

/-- An expression without an operator on the outside. -/
theorem Power.Climbs.ofCall {tokens rest : List Token} {value : Expr}
    (read : Reads (.expression .call value) tokens rest) : Power.sign.Climbs tokens value rest :=
  ⟨.call, read, .inl (by decide), Power.stops_call rest⟩

namespace Action

/-- What every routine reads without a complaint is written there as the grammar has it. -/
structure Sound (fuel : Nat) : Prop where
  expression : ∀ power state, (Action.expression .standard fuel power).Yields
    (fun value rest => power.Climbs state.stream.ahead value rest ∧ power.Stops rest) state
  opening : ∀ (rule : PrefixRule) state, rule.Starts state.current.kind →
    (Action.opening .standard fuel rule).Yields
      (fun value rest => Power.sign.Climbs state.stream.ahead value rest) state
  extension : ∀ rule left state, Rules.standard.infixRule state.current.kind = some rule →
    (Action.extension .standard fuel rule left (Rules.standard.power state.current.kind)).Yields
      (fun value rest => ∀ tokens low, Reads (.expression low left) tokens state.stream.ahead →
        Rules.standard.power state.current.kind ≤ low → ∃ level, Reads (.expression level value) tokens rest ∧
          Rules.standard.power state.current.kind ≤ level ∧ level.Stops rest) state
  block : ∀ state, state.current.kind = .lbrace →
    (Action.block .standard fuel).Yields (fun value rest => Reads (.block value) state.stream.ahead rest) state
  statement : ∀ (rule : StatementRule) state, rule.Starts state.current.kind →
    (Action.statement .standard fuel rule).Yields
      (fun value rest => Reads (.statement value) state.stream.ahead rest) state

theorem closesBlock_iff {kind : TokenKind} : closesBlock kind = true ↔ kind = .rbrace ∨ kind = .eof := by
  simp [closesBlock]

theorem ended_of_skipSemicolon {tokens rest : List Token} (stops : Power.lowest.Stops tokens)
    (skipped : (∃ token, token.kind = .semicolon ∧ tokens = token :: rest) ∨
      nextKind tokens ≠ .semicolon ∧ rest = tokens) : Ended tokens rest := by
  rcases skipped with ⟨token, semicolon, rfl⟩ | ⟨-, rfl⟩
  · exact .semicolon semicolon
  · exact .bare (Power.stops_lowest_iff.mp stops)

def parameterListing (finish : Nat) : Listing parameter finish where
  one name tokens rest := ∃ token, token.kind = .ident ∧ name = .ofToken token ∧ tokens = token :: rest
  more names tokens rest := Reads (.moreParameters names) tokens rest
  all names tokens rest := Reads (.parameters names) tokens rest
  badOne _ _ := True
  badMore _ _ := True
  badAll _ _ := True
  runs state _ := (runs_parameter state).yields
  last closing := .lastParameter closing
  next := by
    rintro comma name names tokens between rest separates ⟨token, ident, rfl, rfl⟩ others
    exact .nextParameter separates ident others
  empty closing := .noParameters closing
  full := by
    rintro name names tokens between rest - ⟨token, ident, rfl, rfl⟩ others
    exact .someParameters ident others
  badNext _ _ := trivial
  badLater _ _ _ := trivial
  badEnd _ _ _ _ := trivial
  badFirst _ _ := trivial
  badOthers _ _ _ := trivial

def Sound.argumentListing {fuel : Nat} (less : Sound fuel) (finish : Nat) :
    Listing (do advance; Action.expression .standard fuel .lowest) finish where
  one value tokens rest := ∃ level, Reads (.expression level value) tokens rest
  more values tokens rest := Reads (.moreArguments values) tokens rest
  all values tokens rest := Reads (.arguments values) tokens rest
  badOne _ _ := True
  badMore _ _ := True
  badAll _ _ := True
  runs state _ := runs_advance ((less.expression .lowest state.advance).mono
    fun _ _ found => ⟨_, found.1.choose_spec.1⟩)
  last closing := .lastArgument closing
  next separates found others := .nextArgument separates found.choose_spec others
  empty closing := .noArguments closing
  full _ found others := .someArguments found.choose_spec others
  badNext _ _ := trivial
  badLater _ _ _ := trivial
  badEnd _ _ _ _ := trivial
  badFirst _ _ := trivial
  badOthers _ _ _ := trivial

def Sound.series {fuel : Nat} (less : Sound fuel) (closes : TokenKind → Bool) (finish : Nat) :
    Series closes (Action.statement .standard fuel .dispatch) finish where
  one value tokens rest := Reads (.statement value) tokens rest
  many values tokens rest := Reads (.statements values) tokens rest
  badOne _ _ := True
  badMany _ _ := True
  runs state _ := less.statement .dispatch state trivial
  empty := .noStatements
  next _ first others := .someStatements first others
  badFirst _ _ := trivial
  badLater _ _ _ := trivial

variable {fuel : Nat}

/-- Whatever is added to `left`, the whole stays an expression that `power` admits. -/
theorem Sound.climb (less : Sound fuel) (power : Power) (turns : Nat) : ∀ left state,
    (Action.climb .standard (Action.extension .standard fuel) power turns left).Yields
      (fun value rest => ∀ tokens, power.Climbs tokens left state.unread →
        power.Climbs tokens value rest ∧ power.Stops rest) state := by
  induction turns with
  | zero => exact fun _ _ => runs_outOfFuel
  | succ turns ih =>
    intro left state
    refine runs_climb (fun rule found held => ?_) fun stops tokens start => ⟨start, stops⟩
    refine (less.extension rule left state.advance found).bind fun grown later => ?_
    refine (ih grown later).mono fun value rest climbs extended tokens start => ?_
    obtain ⟨low, read, -, stops⟩ := start
    have tight : Rules.standard.power state.peek.kind ≤ low := by rw [state.peek_kind]; exact stops
    obtain ⟨level, longer, least, stops⟩ := extended tokens low read tight
    exact climbs tokens ⟨level, longer, .inl (Nat.lt_of_lt_of_le held least), stops⟩

theorem Sound.expression_succ (less : Sound fuel) (power : Power) (state : ParseState) :
    (Action.expression .standard (fuel + 1) power).Yields
      (fun value rest => power.Climbs state.stream.ahead value rest ∧ power.Stops rest) state := by
  cases found : Rules.standard.prefixRule state.current.kind with
  | none => exact .of_eq .refl (expression_of_no_rule found) (runs_failHere trivial)
  | some rule =>
    refine .of_eq .refl (expression_of_rule found) ?_
    refine (less.opening rule state (Rules.standard_prefixRule_iff.mp found)).bind fun left later => ?_
    refine (less.climb power fuel left later).mono fun value rest climbs start => ?_
    obtain ⟨level, read, admits, stops⟩ := start
    have tight : Power.sign ≤ level := admits.elim Nat.le_of_lt id
    exact climbs _ ⟨level, read, .inr tight, stops⟩

theorem Sound.conditional_succ (less : Sound fuel) (state : ParseState) (word : state.current.kind = .ifWord) :
    (Action.opening .standard (fuel + 1) .conditional).Yields
      (fun value rest => Power.sign.Climbs state.stream.ahead value rest) state := by
  rw [state.ahead_of_kind word (by decide)]
  refine runs_current (runs_expectPeek (fun _ => trivial) fun left => runs_advance ?_)
  rw [state.unread_of_kind left (by decide)]
  refine (less.expression .lowest state.advance.advance).bind fun condition second => ?_
  refine runs_expectPeek (fun _ => trivial) fun right => runs_expectPeek (fun _ => trivial) fun brace => ?_
  have closing := second.unread_of_kind right (by decide)
  refine (less.block second.advance.advance brace).bind fun consequence third => ?_
  refine runs_peek (Runs.ite (fun other => ?_) fun _ => ?_)
  · have word' := third.unread_of_kind other (by decide)
    refine runs_advance (runs_expectPeek (fun _ => trivial) fun brace' => ?_)
    refine (less.block third.advance.advance brace').bind fun alternative last => runs_pure ?_
    rintro behind between ⟨⟨level, read, -⟩, -⟩
    rw [closing] at read
    rw [word'] at between
    exact .ofCall (.alternative word left read right between other behind)
  · refine runs_pure ?_
    rintro between ⟨⟨level, read, -⟩, -⟩
    rw [closing] at read
    exact .ofCall (.conditional word left read right between)

theorem Sound.function_succ (less : Sound fuel) (state : ParseState) (word : state.current.kind = .fnWord) :
    (Action.opening .standard (fuel + 1) .function).Yields
      (fun value rest => Power.sign.Climbs state.stream.ahead value rest) state := by
  rw [state.ahead_of_kind word (by decide)]
  refine runs_current (runs_expectPeek (fun _ => trivial) fun left => ?_)
  rw [state.unread_of_kind left (by decide)]
  refine ((parameterListing _).runs_closedItems fuel state.advance rfl).yields.bind fun names second => ?_
  refine runs_expectPeek (fun _ => trivial) fun brace => ?_
  refine (less.block second.advance brace).bind fun body last => runs_pure fun between parameters => ?_
  exact .ofCall (.function word left parameters between)

theorem Sound.opening_succ (less : Sound fuel) (rule : PrefixRule) (state : ParseState)
    (starts : rule.Starts state.current.kind) : (Action.opening .standard (fuel + 1) rule).Yields
      (fun value rest => Power.sign.Climbs state.stream.ahead value rest) state := by
  have first := state.ahead_eq_cons (starts.ne rfl)
  cases rule with
  | identifier =>
    have ident : state.current.kind = .ident := starts
    rw [first]
    exact runs_current (runs_pure (.ofCall (.identifier ident)))
  | integer =>
    have int : state.current.kind = .int := starts
    refine .of_proper fun proper => ?_
    obtain ⟨value, digits⟩ := (ParseState.current_proper proper (starts.ne rfl)).digits int
    have number := Text.integer64?_of_natural? digits
    by_cases small : value ≤ 0x7fffffffffffffff
    · rw [if_pos small] at number
      refine .of_eq .refl (opening_integer_of_some number) (runs_pure ?_)
      rw [first]
      exact .ofCall (.integer int digits small)
    · rw [if_neg small] at number
      exact .of_eq .refl (opening_integer_of_none number) (runs_failHere trivial)
  | boolean =>
    have word : state.current.kind = .trueWord ∨ state.current.kind = .falseWord := starts
    rw [first]
    exact runs_current (runs_pure (.ofCall (.boolean word)))
  | operator =>
    have sign : state.current.kind = .bang ∨ state.current.kind = .minus := starts
    rw [first]
    refine runs_current (runs_advance ((less.expression .sign state.advance).bind fun right later => runs_pure ?_))
    rintro ⟨⟨level, read, admits, -⟩, stops⟩
    exact ⟨.sign, .unary sign (admits.elim Nat.le_of_lt id) read, .inr (Nat.le_refl _), stops⟩
  | group =>
    have left : state.current.kind = .lparen := starts
    rw [first]
    refine runs_advance ((less.expression .lowest state.advance).bind fun inner later => ?_)
    refine runs_expectPeek (fun _ => trivial) fun right => runs_pure ?_
    rintro ⟨⟨level, read, -⟩, -⟩
    rw [later.unread_of_kind right (by decide)] at read
    exact .ofCall (.group left read right)
  | conditional => exact less.conditional_succ state starts
  | function => exact less.function_succ state starts

theorem Sound.extension_succ (less : Sound fuel) (rule : InfixRule) (left : Expr) (state : ParseState)
    (found : Rules.standard.infixRule state.current.kind = some rule) :
    (Action.extension .standard (fuel + 1) rule left (Rules.standard.power state.current.kind)).Yields
      (fun value rest => ∀ tokens low, Reads (.expression low left) tokens state.stream.ahead →
        Rules.standard.power state.current.kind ≤ low → ∃ level, Reads (.expression level value) tokens rest ∧
          Rules.standard.power state.current.kind ≤ level ∧ level.Stops rest) state := by
  rw [state.ahead_eq_cons (Rules.ne_eof_of_infixRule found)]
  cases rule with
  | operator =>
    obtain ⟨level, sign, power⟩ := Rules.standard_operator found
    rw [power]
    refine runs_current (runs_advance ((less.expression level state.advance).bind fun right later => runs_pure ?_))
    rintro ⟨⟨high, read, admits, -⟩, stops⟩ tokens low start tight
    have above : level < high := admits.elim id fun le =>
      Nat.lt_of_lt_of_le (TokenKind.level_lt_sign sign).2 le
    exact ⟨level, .binary sign tight start above read, Nat.le_refl _, stops⟩
  | call =>
    have paren := Rules.standard_call found
    rw [paren]
    refine runs_current (((less.argumentListing _).runs_closedItems fuel state rfl).yields.bind
      fun arguments later => runs_pure fun inside tokens low start tight => ?_)
    have top : low = .call := by cases low <;> first | rfl | exact absurd tight (by decide)
    rw [top] at start
    exact ⟨.call, .call start paren inside, Nat.le_refl _, Power.stops_call _⟩

theorem Sound.block_succ (less : Sound fuel) (state : ParseState) (brace : state.current.kind = .lbrace) :
    (Action.block .standard (fuel + 1)).Yields
      (fun value rest => Reads (.block value) state.stream.ahead rest) state := by
  rw [state.ahead_of_kind brace (by decide)]
  refine runs_current (runs_advance (((less.series closesBlock _).runs_statements fuel state.advance rfl).yields.bind
    fun body later => runs_pure ?_))
  rintro ⟨behind, read, closed, ended, rest⟩
  rw [rest]
  cases behind with
  | nil => exact .openBlock brace read
  | cons right behind =>
    have closing : right.kind = .rbrace := by
      rcases closesBlock_iff.mp closed with rbrace | eof
      · exact rbrace
      · cases ended eof
    exact .closedBlock brace read closing

theorem Sound.statement_succ (less : Sound fuel) (rule : StatementRule) (state : ParseState)
    (starts : rule.Starts state.current.kind) : (Action.statement .standard (fuel + 1) rule).Yields
      (fun value rest => Reads (.statement value) state.stream.ahead rest) state := by
  cases rule with
  | binding =>
    have word : state.current.kind = .letWord := starts
    rw [state.ahead_of_kind word (by decide)]
    refine runs_current ((runs_parameter state).yields.bind fun name first => ?_)
    refine runs_expectPeek (fun _ => trivial) fun sign => runs_advance ?_
    refine (less.expression .lowest first.advance.advance).bind fun value second => ?_
    refine Yields.bind (runs_skipSemicolon second) fun _ last => runs_pure ?_
    rintro skipped ⟨⟨level, read, -⟩, stops⟩ ⟨token, ident, rfl, front⟩
    rw [front, first.unread_of_kind sign (by decide)]
    exact .binding word ident sign read (ended_of_skipSemicolon stops skipped)
  | result =>
    have word : state.current.kind = .returnWord := starts
    rw [state.ahead_of_kind word (by decide)]
    refine runs_current (runs_advance ((less.expression .lowest state.advance).bind fun value later => ?_))
    refine Yields.bind (runs_skipSemicolon later) fun _ last => runs_pure ?_
    rintro skipped ⟨⟨level, read, -⟩, stops⟩
    exact .result word read (ended_of_skipSemicolon stops skipped)
  | expression =>
    refine runs_current ((less.expression .lowest state).bind fun value later => ?_)
    refine Yields.bind (runs_skipSemicolon later) fun _ last => runs_pure ?_
    rintro skipped ⟨⟨level, read, -⟩, stops⟩
    obtain ⟨first, behind, front, -⟩ := read.expression_start
    have same : state.current = first := by
      rw [ParseState.current, TokenStream.current, front, List.headD_cons]
    rw [front, same]
    rw [front] at read
    exact .expression read (ended_of_skipSemicolon stops skipped)
  | block => cases starts
  | dispatch =>
    exact runs_current (less.statement _ state (Rules.standard_statementRule_starts _))

/-- Every routine of the parser keeps to the grammar. -/
theorem sound (fuel : Nat) : Sound fuel := by
  induction fuel with
  | zero =>
    exact ⟨fun _ _ => runs_outOfFuel, fun _ _ _ => runs_outOfFuel, fun _ _ _ _ => runs_outOfFuel,
      fun _ _ => runs_outOfFuel, fun _ _ _ => runs_outOfFuel⟩
  | succ fuel less =>
    exact ⟨less.expression_succ, less.opening_succ, less.extension_succ, less.block_succ, less.statement_succ⟩

/-- A program that is read without a complaint is written there, up to the end. -/
theorem reads_of_program {fuel : Nat} {stream : TokenStream} (proper : stream.Proper) {program : Program}
    {later : ParseState} (run : Action.program .standard fuel (.start stream) = .ok program later)
    (clean : later.errors = []) : Reads (.statements program.statements) stream.ahead [] := by
  have body := ((sound fuel).series (· = .eof) stream.finish).runs_statements fuel (.start stream) rfl proper
  obtain ⟨new, leads, fine, -⟩ := body.of_ok (statements_of_program run)
  have none : new = [] := by rw [← clean, leads.errors]; rfl
  obtain ⟨behind, read, closed, ended, -⟩ := fine none
  rw [ended (of_decide_eq_true closed)] at read
  exact read

end Action

end LetFn
