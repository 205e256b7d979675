import LetFn.Proofs.Lexing.Spelling

namespace LetFn

@[simp]
theorem TokenKind.token_kind (kind : TokenKind) (literal : String) : (kind.token literal).kind = kind :=
  rfl

/-- What a text is put together from: tokens, and blanks between them. -/
inductive Piece where
  | token (token : Token)
  | blank (c : Char)

def Piece.token? : Piece → Option Token
  | .token found => some found
  | .blank _ => none

/-- The tokens among the pieces of a text. -/
def tokensAmong (pieces : List Piece) : List Token :=
  pieces.filterMap Piece.token?

@[simp]
theorem tokensAmong_nil : tokensAmong [] = [] :=
  rfl

@[simp]
theorem tokensAmong_token (token : Token) (pieces : List Piece) :
    tokensAmong (.token token :: pieces) = token :: tokensAmong pieces :=
  rfl

@[simp]
theorem tokensAmong_blank (c : Char) (pieces : List Piece) : tokensAmong (.blank c :: pieces) = tokensAmong pieces :=
  rfl

@[simp]
theorem tokensAmong_append (front back : List Piece) :
    tokensAmong (front ++ back) = tokensAmong front ++ tokensAmong back :=
  List.filterMap_append

/-- `chars` are cut into `pieces`, each token being as long as it can be. -/
inductive Cut : List Char → List Piece → Prop
  | nil : Cut [] []
  | blank {c rest pieces} : isBlank c = true → Cut rest pieces → Cut (c :: rest) (.blank c :: pieces)
  | lexeme {kind c cs rest pieces} : isBlank c = false → Lexeme.ofFront c (cs ++ rest) = ⟨kind, c :: cs⟩ →
      Cut rest pieces → Cut (c :: cs ++ rest) (.token (kind.token (String.ofList (c :: cs))) :: pieces)

/-- A text is cut in one way only. -/
theorem Cut.unique {chars : List Char} {pieces pieces' : List Piece} (cut : Cut chars pieces)
    (cut' : Cut chars pieces') : pieces = pieces' := by
  induction cut generalizing pieces' with
  | nil => cases cut'; rfl
  | blank blank _ ih =>
    generalize same : _ :: _ = chars at cut'
    cases cut' with
    | nil => cases same
    | blank _ behind =>
      cases same
      rw [ih behind]
    | lexeme proper =>
      cases same
      rw [blank] at proper
      cases proper
  | lexeme proper front _ ih =>
    generalize same : _ :: _ ++ _ = chars at cut'
    cases cut' with
    | nil => cases same
    | blank blank =>
      cases same
      rw [blank] at proper
      cases proper
    | lexeme _ front' behind =>
      simp only [List.cons_append, List.cons.injEq] at same
      obtain ⟨rfl, same⟩ := same
      rw [same, front'] at front
      cases front
      rw [ih (List.append_cancel_left same ▸ behind)]

/-- The lexer makes of a text what it is cut into, without the blanks. -/
theorem Cut.spells {chars : List Char} {pieces : List Piece} (cut : Cut chars pieces) :
    Spells chars (tokensAmong pieces) := by
  induction cut with
  | nil => exact spells_nil
  | blank blank _ ih => exact spells_blank blank ih
  | lexeme proper front _ ih => exact spells_lexeme _ proper front ih

/-- Whatever follows, `chars` are cut into `pieces`, unless a word or a number went on with it. -/
def Pieced (chars : List Char) (pieces : List Piece) : Prop :=
  ∀ rest more, Delimited rest → Cut rest more → Cut (chars ++ rest) (pieces ++ more)

theorem Pieced.cut {chars : List Char} {pieces : List Piece} (pieced : Pieced chars pieces) : Cut chars pieces := by
  have whole := pieced [] [] nofun .nil
  rwa [List.append_nil, List.append_nil] at whole

theorem pieced_nil : Pieced [] [] :=
  fun _ _ _ cut => cut

theorem cut_takesLexemes : TakesLexemes Cut Piece.token :=
  fun proper front cut => .lexeme proper front cut

theorem pieced_word {word : String} {kind : TokenKind} (letters : isWord word.toList = true)
    (found : TokenKind.ofWord word = kind) : Pieced word.toList [.token (kind.token word)] :=
  fun _ _ ends cut => cut_takesLexemes.word letters found ends cut

theorem pieced_int {literal : String} {value : Nat} (digits : Text.natural? literal.toList = some value) :
    Pieced literal.toList [.token (TokenKind.int.token literal)] :=
  fun _ _ ends cut => cut_takesLexemes.int digits ends cut

section

variable {c : Char} {chars back : List Char} {kind : TokenKind} {pieces further : List Piece}

theorem Pieced.append (one : Pieced chars pieces) (two : Pieced back further) (ends : Delimited back) :
    Pieced (chars ++ back) (pieces ++ further) := by
  intro rest more after cut
  rw [List.append_assoc, List.append_assoc]
  exact one _ _ (ends.append after) (two _ _ after cut)

theorem Pieced.blank (pieced : Pieced chars pieces) (blank : isBlank c = true) :
    Pieced (c :: chars) (.blank c :: pieces) :=
  fun rest more ends cut => .blank blank (pieced rest more ends cut)

theorem Pieced.sign (pieced : Pieced chars pieces) (sign : TokenKind.ofSign c = some kind)
    (single : c ≠ '=' ∧ c ≠ '!') : Pieced (c :: chars) (.token (kind.token (String.ofList [c])) :: pieces) :=
  fun rest more ends cut => cut_takesLexemes.sign sign (.inr single) (pieced rest more ends cut)

theorem Pieced.operator {operator : String} (pieced : Pieced (c :: chars) pieces)
    (known : operator ∈ ["!", "==", "!=", "<", ">", "+", "-", "*", "/"]) (single : c ≠ '=') :
    Pieced (operator.toList ++ c :: chars) (.token ((TokenKind.ofOperator operator).token operator) :: pieces) := by
  intro rest more ends cut
  rw [List.append_assoc]
  exact cut_takesLexemes.operator known (by simpa using single) (pieced rest more ends cut)

theorem Pieced.equals (pieced : Pieced (c :: chars) pieces) (single : c ≠ '=') :
    Pieced ('=' :: c :: chars) (.token (TokenKind.assign.token "=") :: pieces) :=
  fun rest more ends cut =>
    cut_takesLexemes.sign (c := '=') rfl (.inl (by simpa using single)) (pieced rest more ends cut)

theorem pieced_close (pieced : Pieced chars pieces) (sign : TokenKind.ofSign c = some kind)
    (single : c ≠ '=' ∧ c ≠ '!') : Pieced (chars ++ [c]) (pieces ++ [.token (kind.token (String.ofList [c]))]) :=
  pieced.append (pieced_nil.sign sign single) (delimited_sign sign [])

end

end LetFn
