import LetFn.Parse
import LetFn.Proofs.Grammar.Standard
import LetFn.Proofs.Lexing.Stream
import LetFn.Proofs.Parser.Tally
import LetFn.Proofs.Text.Decimal
import LetFn.Proofs.Walk.Routines

namespace LetFn

namespace TokenStream

variable {stream : TokenStream} {count : Nat}

/-- The tokens still to be read and the end token. -/
def tokens (stream : TokenStream) : List Token :=
  stream.ahead ++ [stream.endToken]

/-- The tokens stand in the order of their places. -/
def Ascending (stream : TokenStream) : Prop :=
  stream.tokens.Pairwise fun first second => first.span.start ≤ second.span.start

theorem current_mem (stream : TokenStream) : stream.current ∈ stream.tokens := by
  unfold current tokens
  cases stream.ahead with
  | nil => exact List.mem_cons_self
  | cons token rest => exact List.mem_cons_self

theorem peek_mem (stream : TokenStream) : stream.peek ∈ stream.tokens := by
  unfold peek tokens
  cases stream.ahead with
  | nil => exact List.mem_cons_self
  | cons token rest => exact List.mem_cons_of_mem _ (TokenStream.mk rest stream.finish).current_mem

theorem tokens_drop_sublist (stream : TokenStream) (count : Nat) :
    (stream.drop count).tokens.Sublist stream.tokens :=
  (List.drop_sublist count stream.ahead).append_right _

theorem Ascending.drop (ascending : stream.Ascending) (count : Nat) : (stream.drop count).Ascending :=
  List.Pairwise.sublist (stream.tokens_drop_sublist count) ascending

theorem Ascending.current_le_peek (ascending : stream.Ascending) :
    stream.current.span.start ≤ stream.peek.span.start := by
  unfold Ascending tokens at ascending
  unfold current peek
  cases ahead : stream.ahead with
  | nil => exact Nat.le_refl _
  | cons token rest =>
    rw [ahead, List.cons_append] at ascending
    refine (List.pairwise_cons.mp ascending).1 _ ?_
    cases rest <;> exact List.mem_cons_self

end TokenStream

namespace ParseState

variable {rules : Rules} {state later : ParseState} {diagnostic : Diagnostic}

/-- The complaints on record come in the order of their places, none of them is placed behind the current token, and
each is right about a token of `tokens`. -/
structure Truthful (rules : Rules) (tokens : List Token) (state : ParseState) : Prop where
  ordered : state.errors.Pairwise fun first second => first.span.start ≤ second.span.start
  behind : ∀ diagnostic ∈ state.errors, diagnostic.span.start ≤ state.current.span.start
  about : ∀ diagnostic ∈ state.errors, ∃ token ∈ tokens, token.span = diagnostic.span ∧
    diagnostic.problem.Concerns rules token

theorem Truthful.advance {tokens : List Token} (truthful : state.Truthful rules tokens)
    (ascending : state.stream.Ascending) : state.advance.Truthful rules tokens where
  ordered := truthful.ordered
  behind diagnostic member := (truthful.behind diagnostic member).trans ascending.current_le_peek
  about := truthful.about

/-- A complaint that is recorded lies between the current token and the next one, which becomes the current one. -/
theorem Truthful.recover {tokens : List Token} (truthful : state.Truthful rules tokens)
    (ascending : state.stream.Ascending) (known : ∀ token ∈ state.stream.tokens, token ∈ tokens)
    (complains : state.Complains rules diagnostic) : (state.record diagnostic).advance.Truthful rules tokens := by
  obtain ⟨token, place, span, concerns⟩ := complains
  have next := ascending.current_le_peek
  have bounds : state.current.span.start ≤ token.span.start ∧ token.span.start ≤ state.peek.span.start := by
    rcases place with rfl | rfl
    · exact ⟨Nat.le_refl _, next⟩
    · exact ⟨next, Nat.le_refl _⟩
  have there : token ∈ state.stream.tokens := by
    rcases place with rfl | rfl
    · exact state.stream.current_mem
    · exact state.stream.peek_mem
  refine ⟨?_, ?_, ?_⟩
  · refine List.pairwise_append.mpr ⟨truthful.ordered, List.pairwise_singleton _ _, fun first member last single => ?_⟩
    rw [List.mem_singleton.mp single, span]
    exact (truthful.behind first member).trans bounds.1
  · intro other member
    rcases List.mem_append.mp member with old | new
    · exact (truthful.behind other old).trans next
    · rw [List.mem_singleton.mp new, span]
      exact bounds.2
  · intro other member
    rcases List.mem_append.mp member with old | new
    · exact truthful.about other old
    · rw [List.mem_singleton.mp new]
      exact ⟨token, known token there, span.symm, concerns⟩

/-- The run lemma: from a state in order every walk leads to one. -/
theorem Walk.truthful {free free' : Bool} (walk : Walk rules state free later free')
    (ascending : state.stream.Ascending) (truthful : state.Truthful rules state.stream.tokens) :
    later.Truthful rules state.stream.tokens := by
  have forward : ∀ {last free'}, Walk rules state free last free' →
      last.stream.Ascending ∧ ∀ token ∈ last.stream.tokens, token ∈ state.stream.tokens := by
    intro last free' walk
    obtain ⟨count, same⟩ := walk.stream
    rw [same]
    exact ⟨ascending.drop count, fun token member => (state.stream.tokens_drop_sublist count).subset member⟩
  induction walk with
  | start => exact truthful
  | advance walk ih => exact ih.advance (forward walk).1
  | recover walk complains ih => exact ih.recover (forward walk).1 (forward walk).2 complains
  | turn _ _ ih => exact ⟨ih.ordered, ih.behind, ih.about⟩
  | pass _ ih => exact ih

end ParseState

/-- What `problem` says, in full, of the token that it is found at. -/
def Problem.Describes : Problem → Token → Prop
  | unexpectedPeek expected actual, token => token.kind = actual ∧ actual ≠ expected
  | noPrefixRule kind, token => token.kind = kind ∧
      kind ∉ [.ident, .int, .trueWord, .falseWord, .bang, .minus, .lparen, .ifWord, .fnWord]
  | integerRange literal, token => token.kind = .int ∧ token.literal = literal ∧
      ∃ value, Text.natural? literal.toList = some value ∧ 0x8000000000000000 ≤ value

theorem Rules.standard_prefixRule_none {kind : TokenKind} (none : standard.prefixRule kind = none) :
    kind ∉ [.ident, .int, .trueWord, .falseWord, .bang, .minus, .lparen, .ifWord, .fnWord] := by
  cases kind <;> first | decide | cases none

/-- A number that does not fit is a row of digits, so that it is too large. -/
theorem Problem.Concerns.describes {source : String} {problem : Problem} {token : Token}
    (member : token ∈ tokenize source) (concerns : problem.Concerns .standard token) : problem.Describes token := by
  cases problem with
  | unexpectedPeek expected actual => exact concerns
  | noPrefixRule kind => exact ⟨concerns.1, Rules.standard_prefixRule_none concerns.2⟩
  | integerRange literal =>
    obtain ⟨rule, rfl, wide⟩ := concerns
    have int : token.kind = .int := Rules.standard_prefixRule_iff.mp rule
    obtain ⟨proper, tokens⟩ := TokenStream.ofString_spec source
    have ahead : token ∈ (TokenStream.ofString source).ahead := by
      rw [tokens] at member
      refine (List.mem_append.mp member).resolve_right fun last => ?_
      rw [List.mem_singleton.mp last] at int
      cases int
    obtain ⟨value, digits⟩ := (proper token ahead).digits int
    refine ⟨int, rfl, value, digits, ?_⟩
    rw [Text.integer64?_of_natural? digits] at wide
    split at wide
    · cases wide
    · omega

/-- The complaints about a source come in the order of their places. Each is placed at a token of the source and says
of it what is so, and there are no more complaints and statements, at whatever depth, than there are tokens. -/
theorem parse_complaints (source : String) :
    ((parse source).2.Pairwise fun first second => first.span.start ≤ second.span.start) ∧
      (∀ diagnostic ∈ (parse source).2, ∃ token ∈ tokenize source, token.span = diagnostic.span ∧
        diagnostic.problem.Describes token) ∧
      (parse source).2.length + (parse source).1.statementCount ≤
        ((tokenize source).filter (fun token => token.kind ≠ .eof)).length := by
  obtain ⟨program, later, done⟩ := (ParseState.ofString source).program_ok
  have tokens : (ParseState.ofString source).stream.tokens = tokenize source :=
    (TokenStream.ofString_spec source).2.symm
  have ascending : (ParseState.ofString source).stream.Ascending := by
    unfold TokenStream.Ascending
    rw [tokens]
    exact (tokenize_starts source).imp Nat.le_of_lt
  have fresh : (ParseState.ofString source).Truthful .standard (ParseState.ofString source).stream.tokens :=
    ⟨.nil, nofun, nofun⟩
  have walk := ((Action.walks_program _ _ _).of_ok done).1
  have truthful := walk.truthful ascending fresh
  have turns := walk.rounds_le
  have tally := (Action.tallies_program _ _ _).of_ok done
  rw [tokens] at truthful
  rw [parse_eq_of_run done, tokenize_filter]
  refine ⟨truthful.ordered, fun diagnostic member => ?_, ?_⟩
  · obtain ⟨token, there, span, concerns⟩ := truthful.about diagnostic member
    exact ⟨token, there, span, concerns.describes there⟩
  · have none : (ParseState.ofString source).errors.length = 0 ∧ (ParseState.ofString source).rounds = 0 := ⟨rfl, rfl⟩
    have all : (ParseState.ofString source).remaining = (TokenStream.ofString source).ahead.length := rfl
    rw [if_pos rfl] at turns
    unfold ParseState.Paid at tally
    simp only
    omega

end LetFn
