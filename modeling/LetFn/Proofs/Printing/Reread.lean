import LetFn.Proofs.Grammar.Faithful
import LetFn.Proofs.Printing.Kinds

namespace LetFn

/-- `tokens` are written as `kinds` with `behind` following, but for `j` opening parentheses that are missing at the
front and `k` that are too many. -/
def Begins (j k : Nat) (tokens : List Token) (kinds behind : List TokenKind) : Prop :=
  List.replicate j .lparen ++ tokens.map Token.kind = List.replicate k .lparen ++ (kinds ++ behind)

/-- What is read at the front of the text of a phrase, being that phrase, is all of its text. An expression can also be
read from inside of parentheses around it or before it, and these are then closed behind it. -/
def Phrase.Reread : Phrase → List Token → List Token → Prop
  | .expression _ value, tokens, rest => ∀ j k behind, Begins j k tokens value.kinds behind →
      value.Explicit ∧ j ≤ k + value.isOperation.toNat ∧
        List.replicate j .rparen ++ behind = List.replicate k .rparen ++ rest.map Token.kind
  | .arguments values, tokens, rest => ∀ behind,
      tokens.map Token.kind = argumentKinds values ++ .rparen :: behind →
      explicitExprs values ∧ behind = rest.map Token.kind
  | .moreArguments values, tokens, rest => ∀ behind,
      tokens.map Token.kind = moreArgumentKinds values ++ .rparen :: behind →
      explicitExprs values ∧ behind = rest.map Token.kind
  | .parameters names, tokens, rest => ∀ behind,
      tokens.map Token.kind = nameKinds names ++ .rparen :: behind → behind = rest.map Token.kind
  | .moreParameters names, tokens, rest => ∀ behind,
      tokens.map Token.kind = moreNameKinds names ++ .rparen :: behind → behind = rest.map Token.kind
  | .block value, tokens, rest => ∀ behind, tokens.map Token.kind = value.kinds ++ behind →
      value.Explicit ∧ behind = rest.map Token.kind
  | .statement value, tokens, rest => ∀ behind, nextKind rest ≠ .semicolon → behind.head? ≠ some .semicolon →
      tokens.map Token.kind = value.kinds ++ behind →
      value.Explicit ∧ behind = rest.map Token.kind ∧
        ((∃ token expr, value = .expression token expr) → behind.head? ≠ some .lparen)
  | .statements values, tokens, rest => ∀ behind, nextKind rest ≠ .semicolon → behind.head? ≠ some .semicolon →
      tokens.map Token.kind = stmtKinds values ++ behind → explicitStmts values ∧ behind = rest.map Token.kind

section

variable {j k : Nat} {token : Token} {tokens rest : List Token} {kind : TokenKind} {kinds behind : List TokenKind}

/-- A phrase whose first token is no parenthesis starts with it. -/
theorem Begins.start (begins : Begins j k (token :: tokens) (kind :: kinds) behind) (other : token.kind ≠ .lparen)
    (other' : kind ≠ .lparen) : j = k ∧ tokens.map Token.kind = kinds ++ behind := by
  obtain ⟨same, -, front⟩ := replicate_append_cons other other' begins
  exact ⟨same, front⟩

/-- Inside a parenthesis there is one more that is missing. -/
theorem Begins.inside (begins : Begins j k (token :: tokens) kinds behind) (paren : token.kind = .lparen) :
    Begins (j + 1) k tokens kinds behind := by
  rw [Begins, ← begins, List.replicate_succ', List.append_assoc, List.map_cons, paren]
  rfl

/-- The text of an operation has a parenthesis in front. -/
theorem Begins.enclosed (begins : Begins j k tokens (.lparen :: kinds) behind) :
    Begins j (k + 1) tokens kinds behind := by
  rw [Begins, begins, List.replicate_succ', List.append_assoc]
  rfl

/-- Behind the parenthesis there is not. -/
theorem closed_outside (paren : token.kind = .rparen)
    (closed : List.replicate (j + 1) .rparen ++ behind = List.replicate k .rparen ++ (token :: rest).map Token.kind) :
    List.replicate j .rparen ++ behind = List.replicate k .rparen ++ rest.map Token.kind := by
  rw [List.map_cons, paren, ← List.singleton_append, ← List.append_assoc, ← List.replicate_succ', List.replicate_succ,
    List.replicate_succ, List.cons_append, List.cons_append] at closed
  exact List.tail_eq_of_cons_eq closed

variable {level : Power} {value : Expr}

theorem reread_whole (reread : (Phrase.expression level value).Reread tokens rest)
    (same : tokens.map Token.kind = value.kinds ++ behind) : value.Explicit ∧ behind = rest.map Token.kind := by
  obtain ⟨explicit, -, closed⟩ := reread 0 0 behind same
  exact ⟨explicit, closed⟩

/-- A condition is read from inside of its own parentheses, and so has some. -/
theorem reread_condition {left right : Token} {between : List Token} (paren : left.kind = .lparen)
    (reread : (Phrase.expression level value).Reread tokens (right :: between))
    (same : (left :: tokens).map Token.kind = value.kinds ++ behind) :
    value.isOperation = true ∧ value.Explicit ∧ behind = between.map Token.kind := by
  rw [List.map_cons, paren] at same
  obtain ⟨explicit, bound, closed⟩ := reread 1 0 behind same
  refine ⟨?_, explicit, List.tail_eq_of_cons_eq closed⟩
  cases operation : value.isOperation with
  | true => rfl
  | false =>
    rw [operation] at bound
    exact absurd bound (by decide)

/-- A statement whose text has a semicolon is read with it. -/
theorem Ended.closed {between : List Token} (ended : Ended between rest) (other : nextKind rest ≠ .semicolon)
    (same : .semicolon :: behind = between.map Token.kind) : behind = rest.map Token.kind := by
  cases ended with
  | semicolon sign => exact List.tail_eq_of_cons_eq same
  | bare _ =>
    cases rest with
    | nil => cases same
    | cons token rest => exact absurd (List.head_eq_of_cons_eq same).symm other

end

theorem nextKind_of_head {kind : TokenKind} {tokens : List Token} (head : (tokens.map Token.kind).head? = some kind) :
    nextKind tokens = kind := by
  cases tokens with
  | nil => cases head
  | cons token tokens => exact Option.some.inj head

theorem Reads.nextKind_ne_semicolon {values : List Stmt} {tokens rest : List Token}
    (read : Reads (.statements values) tokens rest) (other : nextKind rest ≠ .semicolon) :
    nextKind tokens ≠ .semicolon := by
  cases read with
  | noStatements => exact other
  | someStatements next =>
    obtain ⟨token, behind, rfl, starts⟩ := next.statement_start
    exact starts.ne (by decide)

section

variable {others : List Stmt} {behind : List TokenKind}

theorem stmtKinds_follow (faithful : faithfulStmts others) (follow : behind.head? ≠ some .semicolon) :
    (stmtKinds others ++ behind).head? ≠ some .semicolon := by
  cases others with
  | nil => exact follow
  | cons next more =>
    obtain ⟨c, cs, kind, kinds, -, front, -, other, -⟩ := next.fronts faithful.1
    rw [stmtKinds, front]
    exact fun same => other (Option.some.inj same)

/-- That a statement is kept apart can be seen from the kinds as well. -/
theorem apart_of_kinds {first : Stmt} (faithful : faithfulStmts others)
    (apart : (∃ token expr, first = .expression token expr) → (stmtKinds others ++ behind).head? ≠ some .lparen) :
    first.Apart others := by
  cases first with
  | expression token expr =>
    cases others with
    | nil => exact trivial
    | cons next more =>
      intro paren
      obtain ⟨c, cs, kind, kinds, text, front, -, -, opens⟩ := next.fronts faithful.1
      rw [text] at paren
      refine apart ⟨token, expr, rfl⟩ ?_
      rw [stmtKinds, front, opens (Option.some.inj paren)]
      rfl
  | _ => exact trivial

end

/-- A tree that is read in its own text is an explicit one. -/
theorem Reads.reread {phrase : Phrase} {tokens rest : List Token} (read : Reads phrase tokens rest)
    (faithful : phrase.Faithful) : phrase.Reread tokens rest := by
  induction read with
  | identifier ident =>
    intro j k behind begins
    obtain ⟨rfl, same⟩ := begins.start (by rw [ident]; decide) (by decide)
    exact ⟨trivial, Nat.le_add_right _ _, by rw [same, List.nil_append]⟩
  | integer int _ _ =>
    intro j k behind begins
    obtain ⟨rfl, same⟩ := begins.start (by rw [int]; decide) (by decide)
    exact ⟨trivial, Nat.le_add_right _ _, by rw [same, List.nil_append]⟩
  | boolean word =>
    intro j k behind begins
    obtain ⟨rfl, same⟩ := begins.start (by rcases word with kind | kind <;> rw [kind] <;> decide)
      (by split <;> decide)
    exact ⟨trivial, Nat.le_add_right _ _, by rw [same, List.nil_append]⟩
  | group left _ right inner =>
    intro j k behind begins
    obtain ⟨explicit, bound, closed⟩ := inner faithful (j + 1) k behind (begins.inside left)
    exact ⟨explicit, by omega, closed_outside right closed⟩
  | conditional word left _ right _ condition block =>
    intro j k behind begins
    obtain ⟨rfl, same⟩ := begins.start (by rw [word]; decide) (by decide)
    rw [List.append_assoc] at same
    obtain ⟨operation, explicit, inside⟩ := reread_condition left (condition faithful.1) same
    rw [elseKinds, List.append_nil] at inside
    obtain ⟨explicit', closed⟩ := block faithful.2.1 _ inside.symm
    exact ⟨⟨operation, explicit, explicit', trivial⟩, Nat.le_add_right _ _, by rw [closed]⟩
  | alternative word left _ right _ other _ condition block block' =>
    intro j k behind begins
    obtain ⟨rfl, same⟩ := begins.start (by rw [word]; decide) (by decide)
    rw [List.append_assoc] at same
    obtain ⟨operation, explicit, inside⟩ := reread_condition left (condition faithful.1) same
    rw [List.append_assoc] at inside
    obtain ⟨explicit', further⟩ := block faithful.2.1 _ inside.symm
    obtain ⟨explicit'', closed⟩ := block' faithful.2.2 _ (List.tail_eq_of_cons_eq further).symm
    exact ⟨⟨operation, explicit, explicit', explicit''⟩, Nat.le_add_right _ _, by rw [closed]⟩
  | function word left _ _ names block =>
    intro j k behind begins
    obtain ⟨rfl, same⟩ := begins.start (by rw [word]; decide) (by decide)
    simp only [List.map_cons, List.cons_append, List.append_assoc, List.cons.injEq] at same
    obtain ⟨explicit, closed⟩ := block faithful.2.2 _ (names faithful.2.1 _ same.2).symm
    exact ⟨explicit, Nat.le_add_right _ _, by rw [closed]⟩
  | @call _ _ left _ _ _ _ paren _ callee arguments =>
    intro j k behind begins
    simp only [Begins, Expr.kinds, List.append_assoc, List.cons_append, List.nil_append] at begins
    -- The text of a call starts with that of its callee, so that the same parentheses are missing from both.
    obtain ⟨explicit, -, closed⟩ := callee faithful.1 j k _ begins
    obtain ⟨rfl, -, same⟩ := replicate_append_cons (by decide) (by rw [paren]; decide) closed
    obtain ⟨explicit', closed⟩ := arguments faithful.2 _ same.symm
    exact ⟨⟨explicit, explicit'⟩, Nat.le_add_right _ _, by rw [closed]⟩
  | @unary sign _ _ _ _ kind _ _ right =>
    intro j k behind begins
    have other : sign.kind ≠ .lparen := by rcases kind with kind | kind <;> rw [kind] <;> decide
    -- The parenthesis of the operation itself is not read, and may be one more that is missing.
    have inside := begins.enclosed
    obtain ⟨rfl, same⟩ := inside.start other (TokenKind.ofOperator_ne _).1
    rw [List.append_assoc] at same
    obtain ⟨explicit, closed⟩ := reread_whole (right faithful.2) same
    exact ⟨explicit, Nat.le_refl _, by rw [← closed]; simp [List.replicate_succ']⟩
  | @binary sign _ _ _ _ _ _ _ _ found _ _ _ _ left right =>
    intro j k behind begins
    have other : sign.kind ≠ .rparen := by
      intro same
      rw [same] at found
      cases found
    have inside := begins.enclosed
    simp only [Begins, List.append_assoc, List.cons_append, List.nil_append] at inside
    obtain ⟨explicit, -, closed⟩ := left faithful.2.1 j (k + 1) _ inside
    obtain ⟨rfl, -, same⟩ := replicate_append_cons (TokenKind.ofOperator_ne _).2 other closed
    obtain ⟨explicit', closed⟩ := reread_whole (right faithful.2.2) same.symm
    exact ⟨⟨explicit, explicit'⟩, Nat.le_refl _, by rw [← closed]; simp [List.replicate_succ']⟩
  | noArguments right =>
    intro behind same
    simp only [argumentKinds, List.map_cons, List.nil_append, List.cons.injEq] at same
    exact ⟨trivial, same.2.symm⟩
  | someArguments _ _ first others =>
    intro behind same
    rw [argumentKinds, List.append_assoc] at same
    obtain ⟨explicit, between⟩ := reread_whole (first faithful.1) same
    obtain ⟨explicit', closed⟩ := others faithful.2 _ between.symm
    exact ⟨⟨explicit, explicit'⟩, closed⟩
  | lastArgument right =>
    intro behind same
    simp only [moreArgumentKinds, List.map_cons, List.nil_append, List.cons.injEq] at same
    exact ⟨trivial, same.2.symm⟩
  | nextArgument comma _ _ first others =>
    intro behind same
    simp only [moreArgumentKinds, List.map_cons, List.cons_append, List.append_assoc, List.cons.injEq] at same
    obtain ⟨explicit, between⟩ := reread_whole (first faithful.1) same.2
    obtain ⟨explicit', closed⟩ := others faithful.2 _ between.symm
    exact ⟨⟨explicit, explicit'⟩, closed⟩
  | noParameters right =>
    intro behind same
    simp only [nameKinds, List.map_cons, List.nil_append, List.cons.injEq] at same
    exact same.2.symm
  | someParameters name _ others =>
    intro behind same
    simp only [nameKinds, List.map_cons, List.cons_append, List.cons.injEq] at same
    exact others (List.forall_mem_cons.mp faithful).2 _ same.2
  | lastParameter right =>
    intro behind same
    simp only [moreNameKinds, List.flatMap_nil, List.map_cons, List.nil_append, List.cons.injEq] at same
    exact same.2.symm
  | nextParameter comma name _ others =>
    intro behind same
    simp only [moreNameKinds, List.flatMap_cons, List.map_cons, List.cons_append, List.nil_append,
      List.cons.injEq] at same
    exact others (List.forall_mem_cons.mp faithful).2 _ same.2.2
  | closedBlock left _ right body =>
    intro behind same
    simp only [Block.kinds, List.map_cons, List.cons_append, List.append_assoc, List.nil_append,
      List.cons.injEq] at same
    obtain ⟨explicit, closed⟩ := body faithful _ (by rw [nextKind, right]; decide) (by simp) same.2
    simp only [List.map_cons, List.cons.injEq] at closed
    exact ⟨explicit, closed.2⟩
  | openBlock left read body =>
    intro behind same
    simp only [Block.kinds, List.map_cons, List.cons_append, List.append_assoc, List.nil_append,
      List.cons.injEq] at same
    obtain ⟨-, closed⟩ := body faithful _ (by decide) (by simp) same.2
    cases closed
  | binding word name sign read ended value =>
    intro behind other _ same
    simp only [Stmt.kinds, List.map_cons, List.cons_append, List.append_assoc, List.nil_append,
      List.cons.injEq] at same
    obtain ⟨explicit, closed⟩ := reread_whole (value faithful.2.2) same.2.2.2
    refine ⟨explicit, ended.closed other closed, ?_⟩
    rintro ⟨_, _, ⟨⟩⟩
  | result word read ended value =>
    intro behind other _ same
    simp only [Stmt.kinds, List.map_cons, List.cons_append, List.append_assoc, List.nil_append,
      List.cons.injEq] at same
    obtain ⟨explicit, closed⟩ := reread_whole (value faithful.2) same.2
    refine ⟨explicit, ended.closed other closed, ?_⟩
    rintro ⟨_, _, ⟨⟩⟩
  | expression read ended value =>
    intro behind _ other same
    obtain ⟨explicit, closed⟩ := reread_whole (value faithful) same
    subst closed
    cases ended with
    | semicolon sign =>
      rw [List.map_cons, sign] at other
      exact absurd rfl other
    | bare stops =>
      refine ⟨explicit, rfl, fun _ paren => stops (.inl ?_)⟩
      exact nextKind_of_head paren
  | noStatements =>
    intro behind _ _ same
    exact ⟨trivial, same.symm⟩
  | someStatements read read' first others =>
    intro behind other follow same
    rw [stmtKinds, List.append_assoc] at same
    have other' := read'.nextKind_ne_semicolon other
    obtain ⟨explicit, between, apart⟩ := first faithful.1 _ other' (stmtKinds_follow faithful.2 follow) same
    obtain ⟨explicit', closed⟩ := others faithful.2 _ other follow between.symm
    exact ⟨⟨explicit, apart_of_kinds faithful.2 apart, explicit'⟩, closed⟩

end LetFn
