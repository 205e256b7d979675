import LetFn.Proofs.Lexing.Spelling

namespace LetFn

/-- What the tokens of this kind are written as, where they are all written alike. -/
def TokenKind.literal? : TokenKind → Option String
  | illegal | eof | ident | int => none
  | fnWord => some "fn"
  | letWord => some "let"
  | trueWord => some "true"
  | falseWord => some "false"
  | ifWord => some "if"
  | elseWord => some "else"
  | returnWord => some "return"
  | kind => some kind.text

theorem TokenKind.ofWord_literal {word literal : String} (fixed : (ofWord word).literal? = some literal) :
    word = literal := by
  unfold ofWord at fixed
  repeat' split at fixed
  all_goals first | (cases fixed; assumption) | cases fixed

theorem TokenKind.ofSign_literal {c : Char} {kind : TokenKind} (sign : ofSign c = some kind) :
    kind.literal? = some (String.ofList [c]) := by
  unfold ofSign at sign
  split at sign
  all_goals first | (cases sign; rfl) | cases sign

/-- What a lexeme can be: a word, a number, an illegal character, or what its kind is always written as. -/
theorem Lexeme.ofFront_forms (c : Char) (after : List Char) :
    isWord (ofFront c after).text = true ∧ (ofFront c after).kind = .ofWord (String.ofList (ofFront c after).text) ∨
      (ofFront c after).kind = .int ∨ (ofFront c after).kind = .illegal ∨
      (ofFront c after).kind.literal? = some (String.ofList (ofFront c after).text) := by
  unfold ofFront
  split
  · rename_i letter
    exact .inl ⟨Bool.and_eq_true_iff.mpr ⟨letter, List.all_takeWhile⟩, rfl⟩
  · refine .inr ?_
    split
    · exact .inl rfl
    · split
      · exact .inr (.inr rfl)
      · split
        · exact .inr (.inr rfl)
        · cases sign : TokenKind.ofSign c with
          | none => exact .inr (.inl rfl)
          | some kind => exact .inr (.inr (TokenKind.ofSign_literal sign))

namespace Token.Proper

variable {token : Token}

theorem forms (proper : token.Proper) : isWord token.literal.toList = true ∧ token.kind = .ofWord token.literal ∨
    token.kind = .int ∨ token.kind = .illegal ∨ token.kind.literal? = some token.literal := by
  obtain ⟨c, cs, after, -, front, same⟩ := proper
  have forms := Lexeme.ofFront_forms c after
  rw [front] at forms
  rw [same, String.toList_ofList]
  exact forms

/-- A keyword or a sign has the literal of its kind. -/
theorem literal_eq {literal : String} (proper : token.Proper) (fixed : token.kind.literal? = some literal) :
    token.literal = literal := by
  rcases proper.forms with ⟨-, kind⟩ | kind | kind | sign
  · rw [kind] at fixed
    exact TokenKind.ofWord_literal fixed
  · rw [kind] at fixed
    cases fixed
  · rw [kind] at fixed
    cases fixed
  · exact Option.some.inj (sign.symm.trans fixed)

/-- A name is a word that is not reserved. -/
theorem name (proper : token.Proper) (ident : token.kind = .ident) :
    isWord token.literal.toList = true ∧ TokenKind.ofWord token.literal = .ident := by
  rcases proper.forms with ⟨word, kind⟩ | kind | kind | sign
  · exact ⟨word, kind.symm.trans ident⟩
  · cases kind.symm.trans ident
  · cases kind.symm.trans ident
  · rw [ident] at sign
    cases sign

end Token.Proper

end LetFn
