import LetFn.Proofs.Grammar.Tokens
import LetFn.Proofs.Printing.Pieces

namespace LetFn

/-- The kinds that the printer puts in or leaves out as it needs them: what groups, and what ends statements and
blocks. -/
def TokenKind.unshown : List TokenKind :=
  [lparen, rparen, semicolon, rbrace]

/-- Kind and literal of a token, but not for the kinds of which the text of a tree has its own. -/
def Token.shown? (token : Token) : Option (TokenKind × String) :=
  if token.kind ∈ TokenKind.unshown then none else some (token.kind, token.literal)

section

variable {token : Token} {kind : TokenKind} {literal : String} {tokens row : List Token}

theorem Token.shown?_of_unshown (found : token.kind = kind) (unshown : kind ∈ TokenKind.unshown) :
    token.shown? = none :=
  if_pos (by rwa [found])

theorem Token.shown?_of_kind (found : token.kind = kind) : token.shown? = (kind.token token.literal).shown? := by
  rw [← found]
  rfl

/-- A keyword or a sign shows as it is written in every text. -/
theorem Token.Proper.shown? (proper : token.Proper) (found : token.kind = kind)
    (fixed : kind.literal? = some literal) : token.shown? = (kind.token literal).shown? := by
  rw [Token.shown?_of_kind found, proper.literal_eq (by rwa [found])]

theorem Token.Proper.shown?_operator (proper : token.Proper)
    (operator : token.kind = .bang ∨ token.kind.level?.isSome) :
    token.shown? = ((TokenKind.ofOperator token.literal).token token.literal).shown? := by
  rw [proper.ofOperator operator]
  rfl

/-- The printer may put in what does not show. -/
theorem alike_added (kind : TokenKind) (literal : String) (unshown : kind ∈ TokenKind.unshown) (row : List Token) :
    Alike Token.shown? row (kind.token literal :: row) := by
  have unseen : (kind.token literal).shown? = none := Token.shown?_of_unshown rfl unshown
  rw [Alike, List.filterMap_cons_none unseen]

/-- And it may leave out what does not show. -/
theorem alike_left_out (found : token.kind = kind) (unshown : kind ∈ TokenKind.unshown) (row : List Token) :
    Alike Token.shown? (token :: row) row :=
  .skip (Token.shown?_of_unshown found unshown) rfl

end

/-- The tokens of the text of a phrase. -/
def Phrase.written : Phrase → List Token
  | .expression _ value => tokensAmong value.pieces
  | .arguments values => tokensAmong (argumentPieces values)
  | .moreArguments values => tokensAmong (moreArgumentPieces values)
  | .parameters names => tokensAmong (namePieces names)
  | .moreParameters names => tokensAmong (moreNamePieces names)
  | .block value => tokensAmong value.pieces
  | .statement value => tokensAmong value.pieces
  | .statements values => tokensAmong (spacedPieces values)

theorem Ended.shown {tokens rest : List Token} (ended : Ended tokens rest) : Alike Token.shown? tokens rest := by
  cases ended with
  | semicolon sign => exact alike_left_out sign (by decide) rest
  | bare => rfl

/-- What is read shows in the text of what it is read as, in its order. -/
theorem Reads.shown {phrase : Phrase} {tokens rest : List Token} (read : Reads phrase tokens rest)
    (proper : ProperRow tokens) : Alike Token.shown? tokens (phrase.written ++ rest) := by
  induction read with simp only [Phrase.written, Expr.pieces, Stmt.pieces, Block.pieces, elsePieces, argumentPieces,
    moreArgumentPieces, namePieces, spacedPieces, moreNamePieces_cons, tokensAmong_append, tokensAmong_token,
    tokensAmong_blank, tokensAmong_nil, List.append_assoc, List.cons_append, List.nil_append]
  | identifier ident => exact .cons (Token.shown?_of_kind ident) rfl
  | integer int => exact .cons (Token.shown?_of_kind int) rfl
  | boolean word =>
    rcases word with kind | kind
    · rw [kind]
      exact .cons (proper.head.shown? kind rfl) rfl
    · rw [kind]
      exact .cons (proper.head.shown? kind rfl) rfl
  | group left _ right inner =>
    have closed := (inner proper.tail).trans (.behind _ (alike_left_out right (by decide) _))
    exact (alike_left_out left (by decide) _).trans closed
  | conditional word left read right _ condition block =>
    have inside := proper.tail.tail
    have between := (inside.behind read.suffix).tail
    have closed := (alike_left_out right (by decide) _).trans (block between)
    have opened := (alike_left_out left (by decide) _).trans ((condition inside).trans (.behind _ closed))
    exact .cons (proper.head.shown? word rfl) opened
  | alternative word left read right read' other _ condition block block' =>
    have inside := proper.tail.tail
    have between := (inside.behind read.suffix).tail
    have last := between.behind read'.suffix
    have back := Alike.cons (last.head.shown? other rfl) (block' last.tail)
    have closed := (alike_left_out right (by decide) _).trans ((block between).trans (.behind _ back))
    have opened := (alike_left_out left (by decide) _).trans ((condition inside).trans (.behind _ closed))
    exact .cons (proper.head.shown? word rfl) opened
  | function word left read _ names block =>
    have inside := proper.tail.tail
    have closed := (block (inside.behind read.suffix)).trans (alike_added .rparen ")" (by decide) _)
    have opened := ((names inside).trans (.behind _ closed)).trans (alike_added .lparen "(" (by decide) _)
    exact .cons (proper.head.shown? word rfl) ((alike_left_out left (by decide) _).trans opened)
  | call read left _ callee arguments =>
    have inside := (proper.behind read.suffix).tail
    have closed := (arguments inside).trans (.behind _ (alike_added .rparen ")" (by decide) _))
    have opened := closed.trans (alike_added .lparen "(" (by decide) _)
    exact (callee proper).trans (.behind _ ((alike_left_out left (by decide) _).trans opened))
  | unary sign _ _ right =>
    have shown := proper.head.shown?_operator (sign.imp_right fun minus => by rw [minus]; rfl)
    have closed := (right proper.tail).trans (.behind _ (alike_added .rparen ")" (by decide) _))
    exact (Alike.cons shown closed).trans (alike_added .lparen "(" (by decide) _)
  | binary sign _ read _ _ left right =>
    have inside := proper.behind read.suffix
    have shown := inside.head.shown?_operator (.inr (by rw [sign]; rfl))
    have closed := (right inside.tail).trans (.behind _ (alike_added .rparen ")" (by decide) _))
    have whole := (left proper).trans (.behind _ (.cons shown closed))
    exact whole.trans (alike_added .lparen "(" (by decide) _)
  | noArguments right | lastArgument right | noParameters right | lastParameter right =>
    exact alike_left_out right (by decide) _
  | someArguments read _ first others =>
    have behind := others (proper.behind read.suffix)
    exact (first proper).trans (.behind _ behind)
  | nextArgument comma read _ first others =>
    have behind := others (proper.tail.behind read.suffix)
    exact .cons (proper.head.shown? comma rfl) ((first proper.tail).trans (.behind _ behind))
  | someParameters ident _ others => exact .cons (Token.shown?_of_kind ident) (others proper.tail)
  | nextParameter comma ident _ others =>
    have behind := others proper.tail.tail
    exact .cons (proper.head.shown? comma rfl) (.cons (Token.shown?_of_kind ident) behind)
  | closedBlock left _ right body =>
    have opened := (body proper.tail).trans (.behind _ (alike_left_out right (by decide) _))
    have closed := opened.trans (.behind _ (alike_added .rbrace "\x7d" (by decide) _))
    exact .cons (proper.head.shown? left rfl) closed
  | openBlock left _ body =>
    have closed := (body proper.tail).trans (.behind _ (alike_added .rbrace "\x7d" (by decide) _))
    exact .cons (proper.head.shown? left rfl) closed
  | binding word ident sign _ ended value =>
    have inside := proper.tail.tail
    have last := ended.shown.trans (alike_added .semicolon ";" (by decide) _)
    have bound := Alike.cons (inside.head.shown? sign rfl) ((value inside.tail).trans (.behind _ last))
    exact .cons (proper.head.shown? word rfl) (.cons (Token.shown?_of_kind ident) bound)
  | result word _ ended value =>
    have last := ended.shown.trans (alike_added .semicolon ";" (by decide) _)
    exact .cons (proper.head.shown? word rfl) ((value proper.tail).trans (.behind _ last))
  | expression _ ended value => exact (value proper).trans (.behind _ ended.shown)
  | noStatements => rfl
  | someStatements read _ first others =>
    have behind := others (proper.behind read.suffix)
    exact (first proper).trans (.behind _ behind)

/-- The text of what is read in a source without a complaint has the tokens of the source, but for those that group and
those that end statements and blocks. -/
theorem parse_text_shown (source : String) (clean : (parse source).2 = []) :
    (tokenize (parse source).1.text).filterMap Token.shown? = (tokenize source).filterMap Token.shown? := by
  obtain ⟨proper, cut⟩ := TokenStream.ofString_spec source
  have written := Program.tokenize_text (parse_faithful clean)
  rw [Program.tokensAmong_pieces] at written
  have shown := (parse_reads clean).shown proper
  rw [List.append_nil] at shown
  calc (tokenize (parse source).1.text).filterMap Token.shown?
      = ((tokenize (parse source).1.text).map Token.bare).filterMap Token.shown? := by rw [List.filterMap_map]; rfl
    _ = (tokensAmong (spacedPieces (parse source).1.statements)).filterMap Token.shown? ++ [(TokenKind.eof, "")] := by
      rw [written, List.filterMap_append]
      rfl
    _ = (TokenStream.ofString source).ahead.filterMap Token.shown? ++ [(TokenKind.eof, "")] :=
      congrArg (· ++ [(TokenKind.eof, "")]) (Eq.symm shown)
    _ = (tokenize source).filterMap Token.shown? := by
      rw [cut, List.filterMap_append]
      rfl

/-- This text is not read as the source is: what is a condition stands in no parentheses there, and what is a statement
becomes the argument of a call. -/
theorem parse_text_shown_regrouped :
    (parse "if (x) \x7b f(y, 1); (a + b) \x7d").1.text = "if x \x7b f(y, 1) (a + b) \x7d" ∧
      (tokenize "if x \x7b f(y, 1) (a + b) \x7d").filterMap Token.shown? =
        (tokenize "if (x) \x7b f(y, 1); (a + b) \x7d").filterMap Token.shown? := by
  have text : (parse "if (x) \x7b f(y, 1); (a + b) \x7d").1.text = "if x \x7b f(y, 1) (a + b) \x7d" := by
    decide +kernel
  have shown := parse_text_shown "if (x) \x7b f(y, 1); (a + b) \x7d" (by decide +kernel)
  rw [text] at shown
  exact ⟨text, shown⟩

end LetFn
