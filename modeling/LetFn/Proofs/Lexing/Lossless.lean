import LetFn.Proofs.Lexing.Laid

namespace LetFn

def Span.Holds (span : Span) (index : Nat) : Prop :=
  span.start ≤ index ∧ index < span.stop

/-- What `source` has from `place` on before each of the tokens, one after the other, and behind the last. -/
def gaps (source : List Char) : Nat → List Token → List (List Char)
  | place, [] => [source.drop place]
  | place, token :: others =>
    (source.drop place).take (token.span.start - place) :: gaps source token.span.stop others

/-- The literals of the tokens, each behind a gap, and the gaps that are left over. -/
def weave : List (List Char) → List Token → List Char
  | gap :: gaps, token :: others => gap ++ (token.literal.toList ++ weave gaps others)
  | gaps, _ => gaps.flatten

namespace Laid

variable {position : Nat} {chars : List Char} {tokens : List Token}

theorem length_le (laid : Laid position chars tokens) : tokens.length ≤ chars.length := by
  induction laid with
  | blanks => exact Nat.zero_le _
  | token _ formed _ ih =>
    have filled := List.length_pos_iff.mpr formed.ne_nil
    simp only [List.length_cons, List.length_append]
    omega

/-- A character that no token holds is a blank. -/
theorem blank (laid : Laid position chars tokens) {index : Nat} {c : Char} (there : chars[index]? = some c)
    (free : ∀ token ∈ tokens, ¬token.span.Holds (position + index)) : isBlank c = true := by
  induction laid generalizing index with
  | blanks blank => exact blank c (List.mem_of_getElem? there)
  | @token position blanks kind text rest tokens blank _ _ ih =>
    obtain ⟨own, others⟩ := List.forall_mem_cons.mp free
    by_cases before : index < blanks.length
    · rw [List.getElem?_append_left before] at there
      exact blank c (List.mem_of_getElem? there)
    · have behind : blanks.length + text.length ≤ index := by
        by_contra inside
        exact own ⟨by simp only; omega, by simp only; omega⟩
      rw [List.getElem?_append_right (by omega), List.getElem?_append_right (by omega)] at there
      refine ih there fun token member holds => others token member ?_
      have place :
          position + blanks.length + text.length + (index - blanks.length - text.length) = position + index := by
        omega
      rwa [place] at holds

/-- The tokens with what lies between them are the text again. -/
theorem weave_gaps (laid : Laid position chars tokens) {source : List Char} (there : source.drop position = chars) :
    (∀ gap ∈ gaps source position tokens, ∀ c ∈ gap, isBlank c = true) ∧
      weave (gaps source position tokens) tokens = chars := by
  induction laid with
  | blanks blank =>
    rw [gaps, there]
    exact ⟨List.forall_mem_singleton.mpr blank, List.flatten_singleton⟩
  | @token position blanks kind text rest tokens blank _ _ ih =>
    have later : source.drop (position + blanks.length + text.length) = rest := by
      rw [← List.drop_drop, ← List.drop_drop, there, List.drop_left, List.drop_left]
    have gap : (source.drop position).take (position + blanks.length - position) = blanks := by
      rw [there, Nat.add_sub_cancel_left, List.take_left]
    obtain ⟨others, woven⟩ := ih later
    rw [gaps, gap, weave, woven, String.toList_ofList]
    exact ⟨List.forall_mem_cons.mpr ⟨blank, others⟩, rfl⟩

end Laid

/-- All of `source` is in the places and the literals of `tokens`, but for the blanks around them. -/
structure Lossless (source : String) (tokens : List Token) : Prop where
  few : tokens.length ≤ source.length
  proper : ∀ token ∈ tokens, token.kind ≠ .eof
  filled : ∀ token ∈ tokens, token.span.start < token.span.stop
  within : ∀ token ∈ tokens, token.span.stop ≤ source.length
  literal : ∀ token ∈ tokens,
    token.literal.toList = (source.toList.take token.span.stop).drop token.span.start
  ordered : tokens.Pairwise fun first second => first.span.stop ≤ second.span.start
  blank : ∀ index c, source.toList[index]? = some c → (∀ token ∈ tokens, ¬token.span.Holds index) → isBlank c = true
  blankGaps : ∀ gap ∈ gaps source.toList 0 tokens, ∀ c ∈ gap, isBlank c = true
  woven : weave (gaps source.toList 0 tokens) tokens = source.toList

/-- A source has no more tokens than characters, beside the end token, which comes last and only there. They show where
they stand and what stands there, and only blanks stand elsewhere, so that the source can be had back from them. -/
theorem tokenize_lossless (source : String) : ∃ tokens,
    tokenize source = tokens ++ [⟨.eof, "", ⟨source.length, source.length⟩⟩] ∧ Lossless source tokens := by
  have laid := laid_ahead source
  have tokens := tokenize_of_laid laid
  have sorted := tokenize_spans source
  rw [tokens, List.pairwise_append] at sorted
  have placed : ∀ token ∈ (TokenStream.ofString source).ahead, token.kind ≠ .eof ∧
      token.span.start < token.span.stop ∧ token.span.stop ≤ source.length ∧
      token.literal.toList = (source.toList.take token.span.stop).drop token.span.start := by
    intro token member
    obtain ⟨front, behind, same, span, formed⟩ := formed_of_mem member
    have length := congrArg List.length same
    simp only [List.length_append, String.length_toList] at length
    refine ⟨formed.kind_ne_eof, span_filled member, ?_, ?_⟩
    · simp only [span]
      omega
    · rw [span, same, ← List.append_assoc, ← String.length_toList, ← List.length_append, List.take_left,
        List.drop_left]
  obtain ⟨blankGaps, woven⟩ := laid.weave_gaps List.drop_zero
  refine ⟨_, tokens, ?_⟩
  exact {
    few := source.length_toList ▸ laid.length_le
    proper := fun token member => (placed token member).1
    filled := fun token member => (placed token member).2.1
    within := fun token member => (placed token member).2.2.1
    literal := fun token member => (placed token member).2.2.2
    ordered := sorted.1.imp And.right
    blank := fun index c there free => laid.blank there (by simpa only [Nat.zero_add] using free)
    blankGaps
    woven }

end LetFn
