import LetFn.Proofs.Grammar.Standard
import LetFn.Diagnostic
import LetFn.TokenStream

namespace LetFn

/-- What a list in parentheses is made of. -/
inductive Item where
  | argument
  | parameter

/-- What can be outstanding in the middle of a source. -/
inductive Goal where
  /-- An expression up to the first place where it may end. -/
  | operand
  /-- Whatever makes the expression before it longer, if anything does. -/
  | rest
  | sign (kind : TokenKind)
  /-- The items of a list from behind its opening parenthesis, and the closing one. -/
  | items (item : Item)
  /-- The same from behind an item. -/
  | moreItems (item : Item)
  /-- A semicolon, if there is one. -/
  | semicolon
  /-- What a condition that does not hold leads to, if that is said. -/
  | alternative
  | statement
  /-- The statements of a block and its end. -/
  | body
  | program

/-- What is outstanding for one item. -/
def Item.goals : Item → List Goal
  | argument => [.operand, .rest]
  | parameter => [.sign .ident]

namespace Token

variable (token : Token)

/-- What `token` leaves outstanding as the first one of an operand. -/
def operandGoals : Except Problem (List Goal) :=
  match Rules.standard.prefixRule token.kind with
  | none => .error (.noPrefixRule token.kind)
  | some .identifier | some .boolean => .ok []
  | some .integer =>
    match Text.integer64? token.literal with
    | none => .error (.integerRange token.literal)
    | some _ => .ok []
  | some .operator => .ok [.operand]
  | some .group => .ok [.operand, .rest, .sign .rparen]
  | some .conditional =>
    .ok [.sign .lparen, .operand, .rest, .sign .rparen, .sign .lbrace, .body, .alternative]
  | some .function => .ok [.sign .lparen, .items .parameter, .sign .lbrace, .body]

def signGoals (kind : TokenKind) : Except Problem (List Goal) :=
  if token.kind = kind then .ok [] else .error (.unexpectedPeek kind token.kind)

def itemGoals : Item → Except Problem (List Goal)
  | .argument => token.operandGoals.map (· ++ [.rest])
  | .parameter => token.signGoals .ident

def statementGoals : Except Problem (List Goal) :=
  if token.kind = .letWord then .ok [.sign .ident, .sign .assign, .operand, .rest, .semicolon]
  else if token.kind = .returnWord then .ok [.operand, .rest, .semicolon]
  else token.operandGoals.map (· ++ [.rest, .semicolon])

/-- What `token` leaves outstanding of `goals`, the first of which is met first. -/
def meet : List Goal → Except Problem (List Goal)
  | [] => .ok []
  | .operand :: goals => token.operandGoals.map (· ++ goals)
  | .rest :: goals =>
    if token.kind = .lparen then .ok (.items .argument :: .rest :: goals)
    else if token.kind.level?.isSome then .ok (.operand :: .rest :: goals)
    else meet goals
  | .sign kind :: goals => (token.signGoals kind).map (· ++ goals)
  | .items item :: goals =>
    if token.kind = .rparen then .ok goals else (token.itemGoals item).map (· ++ .moreItems item :: goals)
  | .moreItems item :: goals =>
    if token.kind = .comma then .ok (item.goals ++ .moreItems item :: goals)
    else (token.signGoals .rparen).map (· ++ goals)
  | .semicolon :: goals => if token.kind = .semicolon then .ok goals else meet goals
  | .alternative :: goals =>
    if token.kind = .elseWord then .ok (.sign .lbrace :: .body :: goals) else meet goals
  | .statement :: goals => token.statementGoals.map (· ++ goals)
  | .body :: goals =>
    if token.kind = .rbrace then .ok goals
    else if token.kind = .eof then meet goals
    else token.statementGoals.map (· ++ .body :: goals)
  | .program :: goals =>
    if token.kind = .eof then .ok goals else token.statementGoals.map (· ++ .program :: goals)

end Token

/-- The first of `tokens`, or the end of the source. -/
def front (tokens : List Token) : Token :=
  tokens.headD (TokenKind.eof.token "")

theorem front_kind (tokens : List Token) : (front tokens).kind = nextKind tokens := by
  cases tokens <;> rfl

/-- What is wrong with the first of `tokens` that does not fit, and the tokens from there on. The end is one of
them, where `goals` ask for more. -/
def fault (goals : List Goal) : List Token → Option (Problem × List Token)
  | [] =>
    match (TokenKind.eof.token "").meet goals with
    | .error problem => some (problem, [])
    | .ok _ => none
  | token :: tokens =>
    match token.meet goals with
    | .error problem => some (problem, token :: tokens)
    | .ok others => fault others tokens

variable {first second third before after goals : List Goal} {tokens between rest : List Token}

theorem fault_of_error {problem : Problem} (met : (front tokens).meet goals = .error problem) :
    fault goals tokens = some (problem, tokens) := by
  cases tokens with
  | nil =>
    rw [front, List.headD_nil] at met
    rw [fault, met]
  | cons token tokens =>
    rw [front, List.headD_cons] at met
    rw [fault, met]

theorem fault_of_ok {token : Token} {others : List Goal} (met : token.meet goals = .ok others) :
    fault goals (token :: tokens) = fault others tokens := by
  rw [fault, met]

theorem fault_of_meet_eq (same : (front tokens).meet first = (front tokens).meet second) :
    fault first tokens = fault second tokens := by
  cases tokens with
  | nil =>
    rw [front, List.headD_nil] at same
    rw [fault, fault, same]
  | cons token tokens =>
    rw [front, List.headD_cons] at same
    rw [fault, fault, same]

/-- Reading from `tokens` up to `rest` does `before` and leaves `after` to do. -/
def Predicts (before after : List Goal) (tokens rest : List Token) : Prop :=
  ∀ goals, fault (before ++ goals) tokens = fault (after ++ goals) rest

theorem Predicts.refl (goals : List Goal) (tokens : List Token) : Predicts goals goals tokens tokens :=
  fun _ => rfl

theorem Predicts.trans (one : Predicts first second tokens between) (two : Predicts second third between rest) :
    Predicts first third tokens rest :=
  fun goals => (one goals).trans (two goals)

theorem Predicts.append (predicts : Predicts before after tokens rest) (more : List Goal) :
    Predicts (before ++ more) (after ++ more) tokens rest := by
  intro goals
  rw [List.append_assoc, List.append_assoc]
  exact predicts (more ++ goals)

theorem predicts_of_meet {token : Token} (met : ∀ goals, token.meet (before ++ goals) = .ok (after ++ goals)) :
    Predicts before after (token :: rest) rest :=
  fun goals => fault_of_ok (met goals)

theorem predicts_of_meet_eq
    (same : ∀ goals, (front tokens).meet (before ++ goals) = (front tokens).meet (after ++ goals)) :
    Predicts before after tokens tokens :=
  fun goals => fault_of_meet_eq (same goals)

/-- Reading on for `before` comes to the place that `diagnostic` names. -/
def Misses (before : List Goal) (tokens : List Token) (finish : Nat) (diagnostic : Diagnostic) : Prop :=
  ∃ place, (∀ goals, fault (before ++ goals) tokens = some (diagnostic.problem, place)) ∧
    diagnostic.span = (TokenStream.mk place finish).current.span

variable {finish : Nat} {diagnostic : Diagnostic}

theorem Predicts.misses (predicts : Predicts before after tokens rest) (misses : Misses after rest finish diagnostic) :
    Misses before tokens finish diagnostic := by
  obtain ⟨place, faulty, span⟩ := misses
  exact ⟨place, fun goals => (predicts goals).trans (faulty goals), span⟩

theorem Misses.append (misses : Misses before tokens finish diagnostic) (more : List Goal) :
    Misses (before ++ more) tokens finish diagnostic := by
  obtain ⟨place, faulty, span⟩ := misses
  refine ⟨place, fun goals => ?_, span⟩
  rw [List.append_assoc]
  exact faulty (more ++ goals)

theorem misses_of_meet (wrong : ∀ goals, (front tokens).meet (before ++ goals) = .error diagnostic.problem)
    (span : diagnostic.span = (TokenStream.mk tokens finish).current.span) :
    Misses before tokens finish diagnostic :=
  ⟨tokens, fun goals => fault_of_error (wrong goals), span⟩

section Steps

variable {token : Token} {item : Item}

theorem predicts_sign {kind : TokenKind} (there : token.kind = kind) :
    Predicts [.sign kind] [] (token :: rest) rest :=
  predicts_of_meet fun goals => by
    show (token.signGoals kind).map (· ++ goals) = _
    rw [Token.signGoals, if_pos there]
    rfl

theorem predicts_operand {goals : List Goal} (met : token.operandGoals = .ok goals) :
    Predicts [.operand] goals (token :: rest) rest :=
  predicts_of_meet fun goals => by
    show token.operandGoals.map (· ++ goals) = _
    rw [met]
    rfl

theorem predicts_rest_call (paren : token.kind = .lparen) :
    Predicts [.rest] [.items .argument, .rest] (token :: rest) rest :=
  predicts_of_meet fun _ => if_pos paren

theorem predicts_rest_operator {level : Power} (operator : token.kind.level? = some level) :
    Predicts [.rest] [.operand, .rest] (token :: rest) rest := by
  refine predicts_of_meet fun goals => ?_
  have other : token.kind ≠ .lparen := by
    intro same
    rw [same] at operator
    cases operator
  exact (if_neg other).trans (if_pos (by rw [operator]; rfl))

theorem predicts_rest_stop (ends : ¬(nextKind tokens).Continues) : Predicts [.rest] [] tokens tokens := by
  rw [← front_kind, TokenKind.Continues, not_or] at ends
  exact predicts_of_meet_eq fun _ => (if_neg ends.1).trans (if_neg ends.2)

theorem predicts_items_nil (closing : token.kind = .rparen) : Predicts [.items item] [] (token :: rest) rest :=
  predicts_of_meet fun _ => if_pos closing

theorem itemGoals_eq (token : Token) (item : Item) (goals : List Goal) :
    (token.itemGoals item).map (· ++ goals) = token.meet (item.goals ++ goals) := by
  cases item with
  | argument =>
    show Except.map _ (Except.map _ token.operandGoals) = Except.map _ token.operandGoals
    cases token.operandGoals with
    | error problem => rfl
    | ok found => simp [Except.map]
  | parameter => rfl

theorem predicts_items_cons (other : nextKind tokens ≠ .rparen) :
    Predicts [.items item] (item.goals ++ [.moreItems item]) tokens tokens := by
  rw [← front_kind] at other
  refine predicts_of_meet_eq fun goals => (if_neg other).trans ?_
  rw [itemGoals_eq, List.append_assoc]
  rfl

theorem predicts_moreItems_end (other : nextKind tokens ≠ .comma) :
    Predicts [.moreItems item] [.sign .rparen] tokens tokens := by
  rw [← front_kind] at other
  exact predicts_of_meet_eq fun _ => if_neg other

theorem predicts_moreItems_nil (closing : token.kind = .rparen) :
    Predicts [.moreItems item] [] (token :: rest) rest := by
  have other : nextKind (token :: rest) ≠ .comma := by
    rw [nextKind, closing]
    decide
  exact (predicts_moreItems_end other).trans (predicts_sign closing)

theorem predicts_moreItems_cons (comma : token.kind = .comma) :
    Predicts [.moreItems item] (item.goals ++ [.moreItems item]) (token :: rest) rest := by
  refine predicts_of_meet fun goals => (if_pos comma).trans ?_
  rw [List.append_assoc]
  rfl

theorem predicts_semicolon (sign : token.kind = .semicolon) : Predicts [.semicolon] [] (token :: rest) rest :=
  predicts_of_meet fun _ => if_pos sign

theorem predicts_semicolon_none (other : nextKind tokens ≠ .semicolon) : Predicts [.semicolon] [] tokens tokens := by
  rw [← front_kind] at other
  exact predicts_of_meet_eq fun _ => if_neg other

theorem predicts_alternative (word : token.kind = .elseWord) :
    Predicts [.alternative] [.sign .lbrace, .body] (token :: rest) rest :=
  predicts_of_meet fun _ => if_pos word

theorem predicts_alternative_none (other : nextKind tokens ≠ .elseWord) :
    Predicts [.alternative] [] tokens tokens := by
  rw [← front_kind] at other
  exact predicts_of_meet_eq fun _ => if_neg other

theorem predicts_statement_let (word : token.kind = .letWord) :
    Predicts [.statement] [.sign .ident, .sign .assign, .operand, .rest, .semicolon] (token :: rest) rest :=
  predicts_of_meet fun goals => by
    show token.statementGoals.map (· ++ goals) = _
    rw [Token.statementGoals, if_pos word]
    rfl

theorem predicts_statement_return (word : token.kind = .returnWord) :
    Predicts [.statement] [.operand, .rest, .semicolon] (token :: rest) rest :=
  predicts_of_meet fun goals => by
    show token.statementGoals.map (· ++ goals) = _
    rw [Token.statementGoals, if_neg (by rw [word]; decide), if_pos word]
    rfl

theorem predicts_statement_expression (other : nextKind tokens ≠ .letWord) (another : nextKind tokens ≠ .returnWord) :
    Predicts [.statement] [.operand, .rest, .semicolon] tokens tokens := by
  rw [← front_kind] at other another
  refine predicts_of_meet_eq fun goals => ?_
  show (front tokens).statementGoals.map (· ++ goals) = (front tokens).operandGoals.map _
  rw [Token.statementGoals, if_neg other, if_neg another]
  cases (front tokens).operandGoals with
  | error problem => rfl
  | ok found => simp [Except.map]

theorem predicts_body_close (brace : token.kind = .rbrace) : Predicts [.body] [] (token :: rest) rest :=
  predicts_of_meet fun _ => if_pos brace

theorem predicts_body_end : Predicts [.body] [] [] [] :=
  predicts_of_meet_eq fun _ => rfl

theorem predicts_body_statement (more : nextKind tokens ≠ .rbrace) (more' : nextKind tokens ≠ .eof) :
    Predicts [.body] [.statement, .body] tokens tokens := by
  rw [← front_kind] at more more'
  exact predicts_of_meet_eq fun _ => (if_neg more).trans (if_neg more')

theorem predicts_program_statement (more : nextKind tokens ≠ .eof) :
    Predicts [.program] [.statement, .program] tokens tokens := by
  rw [← front_kind] at more
  exact predicts_of_meet_eq fun _ => if_neg more

end Steps

end LetFn
