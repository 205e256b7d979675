import LetFn.Proofs.Lexing.Seams

namespace LetFn

/-- Before this character every lexeme ends, and none is longer for it. -/
def Separates (d : Char) : Prop :=
  isWordChar d = false ∧ d ≠ '='

theorem separates_newline : Separates '\n' := by
  unfold Separates
  decide

theorem Separates.goesOn {d : Char} (separates : Separates d) (kind : TokenKind) : kind.goesOn d = false := by
  obtain ⟨word, equals⟩ := separates
  have digit : isDigit d = false := (Bool.or_eq_false_iff.mp word).2
  cases kind <;> simp only [TokenKind.goesOn, word, digit, equals, decide_false]

theorem not_fuses_newline (first second : String) : ¬Fuses first ("\n" ++ second) := by
  refine not_fuses_iff.mpr fun token _ _ c next => ?_
  have newline : c = '\n' := by simpa using next.symm
  rw [newline]
  exact separates_newline.goesOn token.kind

theorem tokenize_newline (second : String) :
    tokenize ("\n" ++ second) = (tokenize second).map (Token.respan (.shift 1)) := by
  have blank : ∀ c ∈ "\n".toList, isBlank c = true := List.forall_mem_singleton.mpr rfl
  have apart : ¬Fuses "\n" second := not_fuses_iff.mpr fun token member => by
    rw [← laid_iff.mp (.blanks blank)] at member
    cases member
  rw [tokenize_append_of_apart apart, tokenize_of_laid (.blanks blank)]
  rfl

/-- The tokens of one source, and those of another behind it on a new line. -/
theorem tokenize_append (first second : String) : tokenize (first ++ "\n" ++ second) =
    (tokenize first).dropLast ++ (tokenize second).map (Token.respan (.shift (first.length + 1))) := by
  have both : Token.respan (.shift first.length) ∘ Token.respan (.shift 1) =
      Token.respan (.shift (first.length + 1)) := by
    funext token
    simp only [Function.comp_apply, Token.respan, Motion.shift, Nat.add_assoc, Nat.add_comm 1]
  rw [String.append_assoc, tokenize_append_of_apart (not_fuses_newline first second), tokenize_newline, List.map_map,
    both]

theorem TokenStream.ofString_append (first second : String) :
    (ofString (first ++ "\n" ++ second)).ahead =
      (ofString first).ahead ++ (ofString second).ahead.map (Token.respan (.shift (first.length + 1))) := by
  have some : (tokenize second).map (Token.respan (.shift (first.length + 1))) ≠ [] := by
    rw [Ne, List.map_eq_nil_iff]
    exact Lexer.drain_ne_nil _
  simp only [ofString, tokenize_append, List.dropLast_append_of_ne_nil some, List.map_dropLast]

end LetFn
