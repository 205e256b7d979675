import Mathlib.Data.List.Forall2
import Mathlib.Data.List.GetD
import LetFn.Proofs.Grammar.Rendering
import LetFn.Proofs.Lexing.Laid
import LetFn.Proofs.Parser.Gathers

namespace LetFn

/-- The place in `second` of the token that has the number of the one at `span` in `first`. An empty place is that of
the end. -/
def placeOnto (first second : String) (span : Span) : Span :=
  if span.start = span.stop then ⟨second.length, second.length⟩
  else ((TokenStream.ofString second).ahead.getD (((TokenStream.ofString first).ahead.map Token.span).idxOf span)
    (TokenStream.ofString second).endToken).span

/-- Every token of `first` moves to the place of the one with its number in `second`. -/
def Motion.onto (first second : String) : Motion :=
  ⟨placeOnto first second, fun _ => by rw [placeOnto, if_pos rfl]⟩

/-- The parser makes of a source at other places what it makes of it where it is, at those places. -/
theorem parse_respan {first second : String} {move : Motion}
    (same : TokenStream.ofString second = (TokenStream.ofString first).respan move) :
    parse second = ((parse first).1.respan move, (parse first).2.map (Diagnostic.respan move)) := by
  obtain ⟨program, later, run⟩ := (ParseState.ofString first).program_ok
  have moved := Action.moves_program .standard move.alone (ParseState.ofString first).fuel (.ofString first)
  have there : ParseState.ofString second = (ParseState.ofString first).place move.alone :=
    congrArg ParseState.start same
  rw [run, ← (ParseState.ofString first).fuel_place move.alone, ← there] at moved
  rw [parse_eq_of_run run, parse_eq_of_run moved]
  rfl

/-- Two sources have the same tokens, wherever they stand. -/
def SameTokens (first second : String) : Prop :=
  (tokenize first).map Token.bare = (tokenize second).map Token.bare

theorem SameTokens.ahead {first second : String} (same : SameTokens first second) :
    (TokenStream.ofString first).ahead.map Token.bare = (TokenStream.ofString second).ahead.map Token.bare := by
  rw [SameTokens, (TokenStream.ofString_spec first).2, (TokenStream.ofString_spec second).2, List.map_append,
    List.map_append] at same
  exact (List.append_inj' same rfl).1

theorem nodup_spans (source : String) : ((TokenStream.ofString source).ahead.map Token.span).Nodup := by
  have starts := tokenize_starts source
  rw [(TokenStream.ofString_spec source).2, List.pairwise_append] at starts
  refine List.pairwise_map.mpr (starts.1.imp fun before same => ?_)
  rw [same] at before
  exact Nat.lt_irrefl _ before

theorem placeOnto_span {first second : String} {index : Nat}
    (within : index < (TokenStream.ofString first).ahead.length)
    (within' : index < (TokenStream.ofString second).ahead.length) :
    placeOnto first second (TokenStream.ofString first).ahead[index].span =
      (TokenStream.ofString second).ahead[index].span := by
  have filled := span_filled (List.getElem_mem within)
  have number := (nodup_spans first).idxOf_getElem index (by rwa [List.length_map])
  rw [List.getElem_map] at number
  rw [placeOnto, if_neg (Nat.ne_of_lt filled), number, List.getD_eq_getElem _ _ within']

theorem SameTokens.onto {first second : String} (same : SameTokens first second) :
    TokenStream.ofString second = (TokenStream.ofString first).respan (.onto first second) := by
  have length := congrArg List.length same.ahead
  rw [List.length_map, List.length_map] at length
  have ahead : (TokenStream.ofString second).ahead =
      (TokenStream.ofString first).ahead.map (Token.respan (.onto first second)) := by
    refine List.ext_getElem (by rw [List.length_map, length]) fun index within' inside => ?_
    have within : index < (TokenStream.ofString first).ahead.length := by rwa [length]
    have bare := List.getElem_of_eq same.ahead (by rwa [List.length_map])
    rw [List.getElem_map, List.getElem_map] at bare
    obtain ⟨kind, literal⟩ := Token.bare_eq_iff.mp bare
    have place : (Motion.onto first second).apply (TokenStream.ofString first).ahead[index].span =
        (TokenStream.ofString second).ahead[index].span := placeOnto_span within within'
    rw [List.getElem_map, Token.respan, kind, literal, place]
  have finish : placeOnto first second ⟨first.length, first.length⟩ = ⟨second.length, second.length⟩ := if_pos rfl
  rw [TokenStream.respan, ← ahead]
  exact congrArg (TokenStream.mk _) (congrArg Span.start finish).symm

/-- The end moves with the other tokens. -/
theorem SameTokens.tokens {first second : String} (same : SameTokens first second) :
    tokenize second = (tokenize first).map (Token.respan (.onto first second)) := by
  rw [(TokenStream.ofString_spec second).2, (TokenStream.ofString_spec first).2, same.onto,
    TokenStream.endToken_respan, List.map_append]
  rfl

theorem placeOnto_mem (first second : String) (span : Span) :
    ∃ token ∈ tokenize second, token.span = placeOnto first second span := by
  rw [(TokenStream.ofString_spec second).2]
  unfold placeOnto
  split
  · exact ⟨_, List.mem_append_right _ (List.mem_singleton_self _), rfl⟩
  · refine ⟨_, ?_, rfl⟩
    generalize ((TokenStream.ofString first).ahead.map Token.span).idxOf span = index
    by_cases within : index < (TokenStream.ofString second).ahead.length
    · rw [List.getD_eq_getElem _ _ within]
      exact List.mem_append_left _ (List.getElem_mem within)
    · rw [List.getD_eq_default _ _ (Nat.le_of_not_lt within)]
      exact List.mem_append_right _ (List.mem_singleton_self _)

/-- A complaint is placed at a token, since moving every token to its own place leaves the complaint where it is. -/
theorem complaint_at_token {source : String} {diagnostic : Diagnostic} (member : diagnostic ∈ (parse source).2) :
    ∃ token ∈ tokenize source, token.span = diagnostic.span := by
  have still := congrArg Prod.snd (parse_respan (SameTokens.onto (rfl : SameTokens source source)))
  rw [still] at member
  obtain ⟨other, -, rfl⟩ := List.mem_map.mp member
  exact placeOnto_mem source source other.span

/-- The tokens have one number, each in its source. -/
def SameNumber (first second : String) (token token' : Token) : Prop :=
  ∃ index : Nat, (tokenize first)[index]? = some token ∧ (tokenize second)[index]? = some token'

/-- The complaints are about one thing, each at the token with that number in its source. -/
def SameComplaint (first second : String) (diagnostic diagnostic' : Diagnostic) : Prop :=
  diagnostic.problem = diagnostic'.problem ∧ ∃ token token', SameNumber first second token token' ∧
    diagnostic.span = token.span ∧ diagnostic'.span = token'.span

theorem SameTokens.number {first second : String} (same : SameTokens first second) {token : Token}
    (member : token ∈ tokenize first) : SameNumber first second token (token.respan (.onto first second)) := by
  obtain ⟨index, there⟩ := List.mem_iff_getElem?.mp member
  refine ⟨index, there, ?_⟩
  rw [same.tokens, List.getElem?_map, there, Option.map_some]

theorem SameTokens.bare {first second : String} (same : SameTokens first second) :
    (parse first).1.bare = (parse second).1.bare := by
  have stream : TokenStream.bareOfString first = TokenStream.bareOfString second :=
    congrArg (fun ahead => TokenStream.mk ahead 0) same.ahead
  obtain ⟨later, run, -⟩ := parse_bare first
  obtain ⟨later', run', -⟩ := parse_bare second
  rw [stream, run'] at run
  injection run with program
  exact program.symm

/-- The layout of a source has no part in how it is read: where two sources have the same tokens, they hold the same
program and have the same complaints, and what is found at a token of the one is found at the token with its number in
the other. -/
theorem parse_layout (first second : String) (same : SameTokens first second) :
    (parse first).1.bare = (parse second).1.bare ∧
      List.Forall₂ (SameNumber first second) (parse first).1.allTokens (parse second).1.allTokens ∧
      List.Forall₂ (SameComplaint first second) (parse first).2 (parse second).2 := by
  refine ⟨same.bare, ?_, ?_⟩
  · rw [parse_respan same.onto, Program.allTokens_respan]
    refine List.forall₂_map_right_iff.mpr (List.forall₂_same.mpr fun token member => ?_)
    exact same.number (parse_allTokens_subset first member)
  · rw [parse_respan same.onto]
    refine List.forall₂_map_right_iff.mpr (List.forall₂_same.mpr fun diagnostic member => ⟨rfl, ?_⟩)
    obtain ⟨token, there, place⟩ := complaint_at_token member
    exact ⟨token, _, same.number there, place.symm, congrArg (Motion.onto first second).apply place.symm⟩

/-- A call that lacks its comma, on one line and on two: both complaints of the one are those of the other. -/
theorem parse_layout_broken_lines : SameTokens "f(a b) -1" "f (\n  a\tb)\r-1" ∧
    (parse "f(a b) -1").2 = [⟨.unexpectedPeek .rparen .ident, ⟨4, 5⟩⟩, ⟨.noPrefixRule .rparen, ⟨5, 6⟩⟩] ∧
    (parse "f(a b) -1").1.bare = (parse "f (\n  a\tb)\r-1").1.bare ∧
    List.Forall₂ (SameNumber "f(a b) -1" "f (\n  a\tb)\r-1")
      (parse "f(a b) -1").1.allTokens (parse "f (\n  a\tb)\r-1").1.allTokens ∧
    List.Forall₂ (SameComplaint "f(a b) -1" "f (\n  a\tb)\r-1")
      (parse "f(a b) -1").2 (parse "f (\n  a\tb)\r-1").2 := by
  have same : SameTokens "f(a b) -1" "f (\n  a\tb)\r-1" := by
    unfold SameTokens
    decide +kernel
  exact ⟨same, by decide +kernel, parse_layout _ _ same⟩

end LetFn
