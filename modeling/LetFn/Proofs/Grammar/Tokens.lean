import Mathlib.Data.List.Nodup
import LetFn.Proofs.Parser.Keeps

namespace LetFn

/-- Two rows of tokens look alike to `view`, which shows of a token what it shows, or nothing. -/
def Alike {α : Type} (view : Token → Option α) (tokens row : List Token) : Prop :=
  tokens.filterMap view = row.filterMap view

section

variable {α : Type} {view : Token → Option α} {token token' : Token} {tokens row further : List Token}

theorem Alike.trans (one : Alike view tokens row) (two : Alike view row further) : Alike view tokens further :=
  Eq.trans one two

theorem Alike.cons (same : view token = view token') (alike : Alike view tokens row) :
    Alike view (token :: tokens) (token' :: row) := by
  rw [Alike, List.filterMap_cons, List.filterMap_cons, same, alike]

theorem Alike.skip (unseen : view token = none) (alike : Alike view tokens row) : Alike view (token :: tokens) row := by
  rwa [Alike, List.filterMap_cons_none unseen]

theorem Alike.behind (front : List Token) (alike : Alike view tokens row) :
    Alike view (front ++ tokens) (front ++ row) := by
  rw [Alike, List.filterMap_append, List.filterMap_append, alike]

end

/-- The kinds of what only separates or closes. A node keeps no token of them, but for the parenthesis of a call. -/
def TokenKind.unkept : List TokenKind :=
  [lparen, rparen, comma, semicolon, assign, elseWord, rbrace, eof]

/-- Of a row, what the nodes of its tree have to keep. -/
def Token.kept? (token : Token) : Option Token :=
  if token.kind ∈ TokenKind.unkept then none else some token

theorem Token.kept?_of_unkept {token : Token} {kind : TokenKind} (found : token.kind = kind)
    (unkept : kind ∈ TokenKind.unkept) : token.kept? = none :=
  if_pos (by rwa [found])

theorem mem_of_kept {token : Token} {tokens row : List Token} (alike : Alike Token.kept? tokens row)
    (kept : token.kind ∉ TokenKind.unkept) (member : token ∈ tokens) : token ∈ row := by
  have shown : token ∈ tokens.filterMap Token.kept? := List.mem_filterMap.mpr ⟨token, member, if_neg kept⟩
  rw [alike] at shown
  obtain ⟨other, inside, same⟩ := List.mem_filterMap.mp shown
  unfold Token.kept? at same
  split at same
  · cases same
  · cases same
    exact inside

/-- The tokens that the nodes of a phrase keep. -/
def Phrase.tokens : Phrase → List Token
  | .expression _ value => value.tokens
  | .arguments values | .moreArguments values => exprsTokens values
  | .parameters names | .moreParameters names => names.map Identifier.token
  | .block value => value.tokens
  | .statement value => value.tokens
  | .statements values => stmtsTokens values

theorem alike_unkept {token : Token} {kind : TokenKind} (found : token.kind = kind) (unkept : kind ∈ TokenKind.unkept)
    (row : List Token) : Alike Token.kept? (token :: row) row :=
  .skip (Token.kept?_of_unkept found unkept) rfl

theorem Ended.kept {tokens rest : List Token} (ended : Ended tokens rest) : Alike Token.kept? tokens rest := by
  cases ended with
  | semicolon sign => exact alike_unkept sign (by decide) rest
  | bare => rfl

/-- What the grammar reads is kept in its order, but for what separates and closes. -/
theorem Reads.kept {phrase : Phrase} {tokens rest : List Token} (read : Reads phrase tokens rest) :
    Alike Token.kept? tokens (phrase.tokens ++ rest) := by
  induction read with simp only [Phrase.tokens, Expr.tokens, Stmt.tokens, Block.tokens, exprsTokens, stmtsTokens,
    alternativeTokens, List.map_cons, List.map_nil, List.append_assoc, List.cons_append, List.nil_append]
  | identifier | integer | boolean => rfl
  | group left _ right inner =>
    have closed := inner.trans (.behind _ (alike_unkept right (by decide) _))
    exact (alike_unkept left (by decide) _).trans closed
  | conditional _ left _ right _ condition block =>
    have closed := (alike_unkept right (by decide) _).trans block
    have opened := (alike_unkept left (by decide) _).trans (condition.trans (.behind _ closed))
    exact .cons rfl opened
  | alternative _ left _ right _ other _ condition block block' =>
    have back := (alike_unkept other (by decide) _).trans block'
    have closed := (alike_unkept right (by decide) _).trans (block.trans (.behind _ back))
    have opened := (alike_unkept left (by decide) _).trans (condition.trans (.behind _ closed))
    exact .cons rfl opened
  | function _ left _ _ names block =>
    have opened := (alike_unkept left (by decide) _).trans (names.trans (.behind _ block))
    exact .cons rfl opened
  | call _ _ _ callee arguments => exact callee.trans (.behind _ (.cons rfl arguments))
  | unary _ _ _ right => exact .cons rfl right
  | binary _ _ _ _ _ left right => exact left.trans (.behind _ (.cons rfl right))
  | noArguments right | lastArgument right | noParameters right | lastParameter right =>
    exact alike_unkept right (by decide) _
  | someArguments _ _ first others => exact first.trans (.behind _ others)
  | nextArgument comma _ _ first others =>
    exact (alike_unkept comma (by decide) _).trans (first.trans (.behind _ others))
  | someParameters _ _ others => exact .cons rfl others
  | nextParameter comma _ _ others => exact (alike_unkept comma (by decide) _).trans (.cons rfl others)
  | closedBlock _ _ right body =>
    have closed := body.trans (.behind _ (alike_unkept right (by decide) _))
    exact .cons rfl closed
  | openBlock _ _ body => exact .cons rfl body
  | binding _ _ sign _ ended value =>
    have bound := (alike_unkept sign (by decide) _).trans (value.trans (.behind _ ended.kept))
    exact .cons rfl (.cons rfl bound)
  | result _ _ ended value => exact .cons rfl (value.trans (.behind _ ended.kept))
  | expression _ ended value => exact value.trans (.behind _ ended.kept)
  | noStatements => rfl
  | someStatements _ _ first others => exact first.trans (.behind _ others)

/-- Every program that is read, with complaints or without, is as it is read, and keeps its tokens in their order. -/
theorem parse_keeps (source : String) :
    (∀ stmt ∈ (parse source).1.statements, stmt.Genuine) ∧
      (parse source).1.tokens.Sublist (TokenStream.ofString source).ahead := by
  obtain ⟨program, later, run⟩ := (ParseState.ofString source).program_ok
  rw [parse_eq_of_run run]
  have proper : ProperRow (ParseState.ofString source).stream.ahead := (TokenStream.ofString_spec source).1
  exact Action.keeps_of_program proper run

/-- The tree of a source keeps tokens of it, each once and in their order, and all but those that only separate and
close where there is no complaint. -/
theorem parse_tokens (source : String) :
    (parse source).1.tokens.Sublist (tokenize source) ∧
      ((parse source).1.tokens.Pairwise fun first second =>
        first.span.start < second.span.start ∧ first.span.stop ≤ second.span.start) ∧
      ((parse source).2 = [] → ∀ token ∈ tokenize source,
        (token ∉ (parse source).1.tokens → token.kind ∈ TokenKind.unkept) ∧
          (token.kind ∉ TokenKind.unkept → (parse source).1.tokens.count token = 1)) := by
  obtain ⟨-, cut⟩ := TokenStream.ofString_spec source
  have sublist : (parse source).1.tokens.Sublist (tokenize source) := by
    rw [cut]
    exact (parse_keeps source).2.trans (List.sublist_append_left _ _)
  have spans := (tokenize_spans source).sublist sublist
  have once : (parse source).1.tokens.Nodup := spans.imp fun before same => by
    rw [same] at before
    exact Nat.lt_irrefl _ before.1
  refine ⟨sublist, spans, fun clean token member => ?_⟩
  have kept : token.kind ∉ TokenKind.unkept → token ∈ (parse source).1.tokens := by
    intro kept
    rw [cut, List.mem_append, List.mem_singleton] at member
    rcases member with inside | rfl
    · have read := (parse_reads clean).kept
      rw [List.append_nil] at read
      exact mem_of_kept read kept inside
    · exact absurd (show TokenKind.eof ∈ TokenKind.unkept by decide) kept
  exact ⟨fun lost => not_not.mp fun other => lost (kept other),
    fun other => List.count_eq_one_of_mem once (kept other)⟩

/-- Of a call and of a group the opening parentheses are alike, and only that of the call is kept. -/
theorem parse_tokens_call_of_group :
    (parse "f((a));").2 = [] ∧ (parse "f((a));").1.tokens = [⟨.ident, "f", ⟨0, 1⟩⟩, ⟨.lparen, "(", ⟨1, 2⟩⟩,
      ⟨.ident, "a", ⟨3, 4⟩⟩] ∧ (parse "f((a));").1.tokens.count ⟨.ident, "a", ⟨3, 4⟩⟩ = 1 := by
  have clean : (parse "f((a));").2 = [] := by decide +kernel
  have inside : (⟨.ident, "a", ⟨3, 4⟩⟩ : Token) ∈ tokenize "f((a));" := by decide +kernel
  exact ⟨clean, by decide +kernel, ((parse_tokens "f((a));").2.2 clean _ inside).2 (by decide)⟩

end LetFn
