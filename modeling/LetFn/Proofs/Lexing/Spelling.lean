import Mathlib.Data.List.Forall2
import LetFn.Proofs.Lexing.Stream
import LetFn.Proofs.Text.Decimal
import LetFn.Proofs.Text.Lists
import LetFn.Proofs.Tree.Respan

namespace LetFn

/-- A letter, and then what may stand in a word. -/
def isWord : List Char → Bool
  | [] => false
  | c :: cs => isLetter c && cs.all isWordChar

theorem isLetter_of_isWord {c : Char} {cs : List Char} (word : isWord (c :: cs) = true) : isLetter c = true :=
  (Bool.and_eq_true_iff.mp word).1

/-- No word and no number goes on with the first of `rest`. -/
def Delimited (rest : List Char) : Prop :=
  ∀ c ∈ rest.head?, isWordChar c = false

theorem delimited_cons {c : Char} {rest : List Char} : Delimited (c :: rest) ↔ isWordChar c = false := by
  simp [Delimited]

theorem Delimited.digit {rest : List Char} (ends : Delimited rest) : ∀ c ∈ rest.head?, isDigit c = false :=
  fun c member => (Bool.or_eq_false_iff.mp (ends c member)).2

theorem Delimited.append {front rest : List Char} (first : Delimited front) (second : Delimited rest) :
    Delimited (front ++ rest) := by
  cases front with
  | nil => exact second
  | cons c front => exact first

theorem isLetter_of_isDigit {c : Char} (digit : isDigit c = true) : isLetter c = false := by
  simp only [isDigit, Char.isDigit, ge_iff_le, Bool.and_eq_true, decide_eq_true_eq, UInt32.le_iff_toNat_le] at digit
  have other : c ≠ '_' := by
    rintro rfl
    exact absurd digit.2 (by decide)
  have alpha : c.isAlpha = (decide ('A'.val ≤ c.val ∧ c.val ≤ 'Z'.val) ||
      (decide ('a'.val ≤ c.val) && decide (c.val ≤ 'z'.val))) := rfl
  simp only [isLetter, alpha, Bool.or_eq_false_iff, Bool.and_eq_false_iff, decide_eq_false_iff_not,
    UInt32.le_iff_toNat_le, other, not_false_eq_true, and_true]
  have nine : ('9' : Char).val.toNat = 57 := rfl
  have upper : ('A' : Char).val.toNat = 65 := rfl
  have lower : ('a' : Char).val.toNat = 97 := rfl
  omega

theorem isBlank_of_isWordChar {c : Char} (word : isWordChar c = true) : isBlank c = false := by
  by_contra blank
  simp only [isBlank, Bool.not_eq_false, Bool.or_eq_true, decide_eq_true_eq] at blank
  rcases blank with ((rfl | rfl) | rfl) | rfl <;> exact absurd word (by decide)

theorem sign_apart {c : Char} {kind : TokenKind} (sign : TokenKind.ofSign c = some kind) :
    isWordChar c = false ∧ isBlank c = false := by
  unfold TokenKind.ofSign at sign
  split at sign
  all_goals first | decide | cases sign

theorem delimited_sign {c : Char} {kind : TokenKind} (sign : TokenKind.ofSign c = some kind) (rest : List Char) :
    Delimited (c :: rest) :=
  delimited_cons.mpr (sign_apart sign).1

namespace Lexeme

variable {c : Char} {cs rest : List Char}

theorem ofFront_word (word : isWord (c :: cs) = true) (ends : Delimited rest) :
    ofFront c (cs ++ rest) = ⟨.ofWord (String.ofList (c :: cs)), c :: cs⟩ := by
  obtain ⟨letter, all⟩ := Bool.and_eq_true_iff.mp word
  rw [ofFront, if_pos letter, takeWhile_eq_front_iff.mpr ⟨List.all_eq_true.mp all, ends⟩]

theorem ofFront_int (digits : (c :: cs).all isDigit = true) (ends : ∀ d ∈ rest.head?, isDigit d = false) :
    ofFront c (cs ++ rest) = ⟨.int, c :: cs⟩ := by
  obtain ⟨digit, all⟩ := Bool.and_eq_true_iff.mp (List.all_cons.symm.trans digits)
  rw [ofFront, if_neg (by rw [isLetter_of_isDigit digit]; decide), if_pos digit,
    takeWhile_eq_front_iff.mpr ⟨List.all_eq_true.mp all, ends⟩]

/-- What is no part of a word is a lexeme by itself unless it makes one with the sign of equality behind it. -/
theorem ofFront_single (plain : isWordChar c = false) (single : rest.head? ≠ some '=' ∨ c ≠ '=' ∧ c ≠ '!') :
    ofFront c rest = ⟨(TokenKind.ofSign c).getD .illegal, [c]⟩ := by
  have none : ¬(c = '=' ∧ rest.head? = some '=') ∧ ¬(c = '!' ∧ rest.head? = some '=') := by
    rcases single with other | other
    · exact ⟨fun both => other both.2, fun both => other both.2⟩
    · exact ⟨fun both => other.1 both.1, fun both => other.2 both.1⟩
  obtain ⟨letter, digit⟩ := Bool.or_eq_false_iff.mp plain
  rw [ofFront, if_neg (by simp [letter]), if_neg (by simp [digit]), if_neg none.1, if_neg none.2]

theorem ofFront_sign {kind : TokenKind} (sign : TokenKind.ofSign c = some kind)
    (single : rest.head? ≠ some '=' ∨ c ≠ '=' ∧ c ≠ '!') : ofFront c rest = ⟨kind, [c]⟩ := by
  rw [ofFront_single (sign_apart sign).1 single, sign, Option.getD_some]

/-- A lexeme stays one where a blank follows it, whatever it was cut from. -/
theorem ofFront_blank {kind : TokenKind} {after : List Char} (cut : ofFront c after = ⟨kind, c :: cs⟩) :
    ofFront c (cs ++ ' ' :: rest) = ⟨kind, c :: cs⟩ := by
  have ends : Delimited (' ' :: rest) := delimited_cons.mpr (by decide)
  unfold ofFront at cut
  split at cut
  · rename_i letter
    cases cut
    exact ofFront_word (Bool.and_eq_true_iff.mpr ⟨letter, List.all_takeWhile⟩) ends
  · rename_i letter
    split at cut
    · rename_i digit
      cases cut
      exact ofFront_int (List.all_cons.trans (Bool.and_eq_true_iff.mpr ⟨digit, List.all_takeWhile⟩)) ends.digit
    · rename_i digit
      split at cut
      · cases cut
        rfl
      · split at cut
        · cases cut
          rfl
        · cases cut
          rw [List.nil_append, ofFront, if_neg letter, if_neg digit, if_neg (by simp), if_neg (by simp)]

end Lexeme

/-- The kind of an operator by its literal. -/
def TokenKind.ofOperator (operator : String) : TokenKind :=
  if operator = "!" then .bang
  else if operator = "==" then .eq
  else if operator = "!=" then .notEq
  else if operator = "<" then .lt
  else if operator = ">" then .gt
  else if operator = "+" then .plus
  else if operator = "-" then .minus
  else if operator = "*" then .asterisk
  else .slash

/-- What a text is cut into grows in front by a lexeme that stands there. -/
def TakesLexemes {α : Type} (cut : List Char → List α → Prop) (mark : Token → α) : Prop :=
  ∀ {kind c cs rest more}, isBlank c = false → Lexeme.ofFront c (cs ++ rest) = ⟨kind, c :: cs⟩ → cut rest more →
    cut (c :: cs ++ rest) (mark (kind.token (String.ofList (c :: cs))) :: more)

namespace TakesLexemes

variable {α : Type} {cut : List Char → List α → Prop} {mark : Token → α} {rest : List Char} {more : List α}

theorem word {word : String} {kind : TokenKind} (takes : TakesLexemes cut mark) (letters : isWord word.toList = true)
    (found : TokenKind.ofWord word = kind) (ends : Delimited rest) (behind : cut rest more) :
    cut (word.toList ++ rest) (mark (kind.token word) :: more) := by
  have whole : String.ofList word.toList = word := String.ofList_toList
  cases chars : word.toList with
  | nil => rw [chars] at letters; cases letters
  | cons c cs =>
    rw [chars] at letters whole
    have proper : isBlank c = false :=
      isBlank_of_isWordChar (Bool.or_eq_true_iff.mpr (.inl (isLetter_of_isWord letters)))
    have front := takes proper (Lexeme.ofFront_word letters ends) behind
    rwa [whole, found] at front

theorem int {literal : String} {value : Nat} (takes : TakesLexemes cut mark)
    (digits : Text.natural? literal.toList = some value) (ends : Delimited rest) (behind : cut rest more) :
    cut (literal.toList ++ rest) (mark (TokenKind.int.token literal) :: more) := by
  have whole : String.ofList literal.toList = literal := String.ofList_toList
  obtain ⟨filled, row, -⟩ := Text.natural?_eq_some_iff.mp digits
  cases chars : literal.toList with
  | nil => exact absurd chars filled
  | cons c cs =>
    rw [chars] at row whole
    have digit : isDigit c = true := row c List.mem_cons_self
    have proper : isBlank c = false := isBlank_of_isWordChar (Bool.or_eq_true_iff.mpr (.inr digit))
    have front := takes proper (Lexeme.ofFront_int (List.all_eq_true.mpr row) ends.digit) behind
    rwa [whole] at front

theorem sign {c : Char} {kind : TokenKind} (takes : TakesLexemes cut mark) (sign : TokenKind.ofSign c = some kind)
    (single : rest.head? ≠ some '=' ∨ c ≠ '=' ∧ c ≠ '!') (behind : cut rest more) :
    cut (c :: rest) (mark (kind.token (String.ofList [c])) :: more) := by
  have front : Lexeme.ofFront c ([] ++ rest) = ⟨kind, [c]⟩ := Lexeme.ofFront_sign sign single
  exact takes (sign_apart sign).2 front behind

theorem equals {c : Char} {kind : TokenKind} (takes : TakesLexemes cut mark)
    (double : c = '=' ∧ kind = .eq ∨ c = '!' ∧ kind = .notEq) (behind : cut rest more) :
    cut (c :: '=' :: rest) (mark (kind.token (String.ofList [c, '='])) :: more) := by
  rcases double with ⟨rfl, rfl⟩ | ⟨rfl, rfl⟩
  · have front : Lexeme.ofFront '=' (['='] ++ rest) = ⟨.eq, ['=', '=']⟩ := rfl
    exact takes (by decide) front behind
  · have front : Lexeme.ofFront '!' (['='] ++ rest) = ⟨.notEq, ['!', '=']⟩ := rfl
    exact takes (by decide) front behind

/-- An operator stands by itself where no sign of equality follows. -/
theorem operator {operator : String} (takes : TakesLexemes cut mark)
    (known : operator ∈ ["!", "==", "!=", "<", ">", "+", "-", "*", "/"]) (single : rest.head? ≠ some '=')
    (behind : cut rest more) :
    cut (operator.toList ++ rest) (mark ((TokenKind.ofOperator operator).token operator) :: more) := by
  simp only [List.mem_cons, List.not_mem_nil, or_false] at known
  rcases known with rfl | rfl | rfl | rfl | rfl | rfl | rfl | rfl | rfl
  · exact takes.sign (c := '!') rfl (.inl single) behind
  · exact takes.equals (.inl ⟨rfl, rfl⟩) behind
  · exact takes.equals (.inr ⟨rfl, rfl⟩) behind
  · exact takes.sign (c := '<') rfl (.inl single) behind
  · exact takes.sign (c := '>') rfl (.inl single) behind
  · exact takes.sign (c := '+') rfl (.inl single) behind
  · exact takes.sign (c := '-') rfl (.inl single) behind
  · exact takes.sign (c := '*') rfl (.inl single) behind
  · exact takes.sign (c := '/') rfl (.inl single) behind

end TakesLexemes

/-- `chars` are cut into `tokens`, wherever they stand. -/
def Spells (chars : List Char) (tokens : List Token) : Prop :=
  ∀ position, (Lexer.drain ⟨position, chars⟩).map Token.bare = tokens ++ [TokenKind.eof.token ""]

theorem spells_nil : Spells [] [] := by
  intro position
  have none : Lexer.next ⟨position, []⟩ = (⟨.eof, "", ⟨position, position⟩⟩, ⟨position, []⟩) :=
    @Lexer.next_of_blanks ⟨position, []⟩ (by simp)
  rw [Lexer.drain, none, if_pos rfl]
  rfl

section

variable {rest : List Char} {tokens : List Token}

theorem spells_blank {c : Char} (blank : isBlank c = true) (spells : Spells rest tokens) :
    Spells (c :: rest) tokens := by
  intro position
  have next : Lexer.next ⟨position, c :: rest⟩ = Lexer.next ⟨position + 1, rest⟩ := by
    simp only [Lexer.next, Lexer.skipBlanks, Lexer.skip, List.takeWhile_cons_of_pos blank, List.length_cons,
      List.drop_succ_cons, Nat.add_assoc, Nat.add_comm 1]
  rw [Lexer.drain, next, ← Lexer.drain]
  exact spells _

theorem spells_lexeme {kind : TokenKind} {c : Char} (cs : List Char) (proper : isBlank c = false)
    (front : Lexeme.ofFront c (cs ++ rest) = ⟨kind, c :: cs⟩) (spells : Spells rest tokens) :
    Spells (c :: cs ++ rest) (kind.token (String.ofList (c :: cs)) :: tokens) := by
  intro position
  have next := @Lexer.next_of_char position [] (cs ++ rest) c (by simp) proper
  have more : kind ≠ .eof := by
    have other := Lexeme.ofFront_kind_ne_eof c (cs ++ rest)
    rwa [front] at other
  rw [front, List.nil_append, ← List.cons_append, List.drop_left] at next
  rw [Lexer.drain, next, if_neg more, List.map_cons, spells]
  rfl

/-- A text that is cut into tokens grows by lexemes. -/
theorem spells_takesLexemes : TakesLexemes Spells id :=
  fun proper front spells => spells_lexeme _ proper front spells

theorem spells_sign {c : Char} {kind : TokenKind} (sign : TokenKind.ofSign c = some kind)
    (single : rest.head? ≠ some '=' ∨ c ≠ '=' ∧ c ≠ '!') (spells : Spells rest tokens) :
    Spells (c :: rest) (kind.token (String.ofList [c]) :: tokens) :=
  spells_takesLexemes.sign sign single spells

theorem spells_operator {operator : String} (known : operator ∈ ["!", "==", "!=", "<", ">", "+", "-", "*", "/"])
    (single : rest.head? ≠ some '=') (spells : Spells rest tokens) :
    Spells (operator.toList ++ rest) ((TokenKind.ofOperator operator).token operator :: tokens) :=
  spells_takesLexemes.operator known single spells

end

/-- Proper tokens written out with a blank behind each. -/
theorem spells_apart {tokens : List Token} (proper : ∀ token ∈ tokens, token.Proper) :
    Spells (tokens.flatMap fun token => token.literal.toList ++ [' ']) (tokens.map Token.bare) := by
  induction tokens with
  | nil => exact spells_nil
  | cons token tokens ih =>
    obtain ⟨first, others⟩ := List.forall_mem_cons.mp proper
    obtain ⟨c, cs, after, blank, cut, literal⟩ := first
    have bare : token.bare = token.kind.token (String.ofList (c :: cs)) := by rw [← literal]; rfl
    rw [List.flatMap_cons, List.map_cons, bare, literal, String.toList_ofList, List.append_assoc]
    exact spells_lexeme cs blank (Lexeme.ofFront_blank cut) (spells_blank (c := ' ') rfl (ih others))

/-- Whatever follows, `chars` are cut into `tokens`, unless a word or a number went on with it. -/
def Spelled (chars : List Char) (tokens : List Token) : Prop :=
  ∀ rest more, Delimited rest → Spells rest more → Spells (chars ++ rest) (tokens ++ more)

theorem spelled_word {word : String} {kind : TokenKind} (letters : isWord word.toList = true)
    (found : TokenKind.ofWord word = kind) : Spelled word.toList [kind.token word] :=
  fun _ _ ends spells => spells_takesLexemes.word letters found ends spells

theorem spelled_int {literal : String} {value : Nat} (digits : Text.natural? literal.toList = some value) :
    Spelled literal.toList [TokenKind.int.token literal] :=
  fun _ _ ends spells => spells_takesLexemes.int digits ends spells

section

variable {chars rest : List Char} {tokens more : List Token}

theorem Spelled.blank (spelled : Spelled chars tokens) (spells : Spells rest more) :
    Spells (chars ++ ' ' :: rest) (tokens ++ more) :=
  spelled _ _ (delimited_cons.mpr rfl) (spells_blank rfl spells)

theorem Spelled.sign {c : Char} {kind : TokenKind} (sign : TokenKind.ofSign c = some kind)
    (single : c ≠ '=' ∧ c ≠ '!') (spelled : Spelled chars tokens) (spells : Spells rest more) :
    Spells (chars ++ c :: rest) (tokens ++ kind.token (String.ofList [c]) :: more) :=
  spelled _ _ (delimited_sign sign _) (spells_sign sign (.inr single) spells)

end

theorem Spelled.append {front back : List Char} {tokens further : List Token} (one : Spelled front tokens)
    (two : Spelled back further) (ends : Delimited back) : Spelled (front ++ back) (tokens ++ further) := by
  intro rest more after spells
  rw [List.append_assoc, List.append_assoc]
  exact one _ _ (ends.append after) (two _ _ after spells)

/-- Texts in a row are cut one by one where each has something in front that lets what is before it end. -/
theorem spelled_flatMap (front : List Char) (mark : List Token) (first : Delimited front)
    (cut : ∀ rest more, Spells rest more → Spells (front ++ rest) (mark ++ more)) (filled : front ≠ [])
    {texts : List (List Char)} {rows : List (List Token)} (spelled : List.Forall₂ Spelled texts rows) :
    Spelled (texts.flatMap (front ++ ·)) (rows.flatMap (mark ++ ·)) ∧
      Delimited (texts.flatMap (front ++ ·)) := by
  induction spelled with
  | nil => exact ⟨fun _ _ _ spells => spells, by simp [Delimited]⟩
  | cons one others ih =>
    obtain ⟨spelled, ends⟩ := ih
    rw [List.flatMap_cons, List.flatMap_cons, List.append_assoc, List.append_assoc]
    constructor
    · intro rest more after spells
      have later := (one.append spelled ends) rest more after spells
      simpa only [List.append_assoc] using cut _ _ later
    · cases front with
      | nil => exact absurd rfl filled
      | cons c cs => exact first

/-- The tokens of a source, of which the end token is left aside. -/
theorem Spells.tokenize (source : String) {tokens : List Token} (spells : Spells source.toList tokens) :
    (tokenize source).map Token.bare = tokens ++ [TokenKind.eof.token ""] :=
  spells 0

/-- Any row of proper tokens is that of a source. -/
theorem exists_source {tokens : List Token} (proper : ∀ token ∈ tokens, token.Proper) :
    ∃ source : String, (LetFn.tokenize source).map Token.bare = tokens.map Token.bare ++ [TokenKind.eof.token ""] := by
  have spells := spells_apart proper
  rw [← String.toList_ofList (l := tokens.flatMap _)] at spells
  exact ⟨_, Spells.tokenize _ spells⟩

end LetFn
