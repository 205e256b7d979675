import LetFn.Proofs.Lexing.Spelling

namespace LetFn

/-- The words that are no names, each with its kind. -/
def reservedWords : List (String × TokenKind) :=
  [("fn", .fnWord), ("let", .letWord), ("true", .trueWord), ("false", .falseWord), ("if", .ifWord),
    ("else", .elseWord), ("return", .returnWord)]

/-- The signs that are never part of a longer one, each with its kind. -/
def plainSigns : List (Char × TokenKind) :=
  [('+', .plus), ('-', .minus), ('*', .asterisk), ('/', .slash), ('<', .lt), ('>', .gt), (',', .comma),
    (';', .semicolon), ('(', .lparen), (')', .rparen), ('{', .lbrace), ('}', .rbrace)]

/-- What a token may be: its kind and its characters, with the character behind them, if any, which must not make it
longer. -/
inductive Formed : TokenKind → List Char → Option Char → Prop
  | name {word next} : isWord word = true → (∀ c ∈ next, isWordChar c = false) →
      String.ofList word ∉ reservedWords.map Prod.fst → Formed .ident word next
  | reserved {word kind next} : (word, kind) ∈ reservedWords → (∀ c ∈ next, isWordChar c = false) →
      Formed kind word.toList next
  | number {digits next} : digits ≠ [] → (∀ c ∈ digits, isDigit c = true) → (∀ c ∈ next, isDigit c = false) →
      Formed .int digits next
  | equal {next} : Formed .eq ['=', '='] next
  | notEqual {next} : Formed .notEq ['!', '='] next
  | assign {next} : next ≠ some '=' → Formed .assign ['='] next
  | bang {next} : next ≠ some '=' → Formed .bang ['!'] next
  | sign {c kind next} : (c, kind) ∈ plainSigns → Formed kind [c] next
  | illegal {c next} : isWordChar c = false → isBlank c = false → c ∉ ['=', '!'] → c ∉ plainSigns.map Prod.fst →
      Formed .illegal [c] next

theorem TokenKind.ofWord_of_reserved {word : String} {kind : TokenKind} (reserved : (word, kind) ∈ reservedWords) :
    ofWord word = kind ∧ isWord word.toList = true := by
  have each : ∀ entry ∈ reservedWords, ofWord entry.1 = entry.2 ∧ isWord entry.1.toList = true := by decide
  exact each _ reserved

theorem TokenKind.ofWord_cases (word : String) :
    (word, ofWord word) ∈ reservedWords ∨ ofWord word = ident ∧ word ∉ reservedWords.map Prod.fst := by
  by_cases reserved : word ∈ reservedWords.map Prod.fst
  · obtain ⟨⟨_, kind⟩, member, rfl⟩ := List.mem_map.mp reserved
    rw [(ofWord_of_reserved member).1]
    exact .inl member
  · refine .inr ⟨?_, reserved⟩
    simp only [reservedWords, List.map_cons, List.map_nil, List.mem_cons, List.not_mem_nil, or_false,
      not_or] at reserved
    simp only [ofWord, reserved, if_false]

theorem TokenKind.ofSign_eq_some_iff {c : Char} {kind : TokenKind} :
    ofSign c = some kind ↔ (c, kind) ∈ ('=', assign) :: ('!', bang) :: plainSigns := by
  constructor
  · intro sign
    unfold ofSign at sign
    split at sign
    all_goals first | (cases sign; decide) | cases sign
  · have each : ∀ entry ∈ ('=', assign) :: ('!', bang) :: plainSigns, ofSign entry.1 = some entry.2 := by decide
    exact each (c, kind)

theorem TokenKind.ofSign_eq_none_iff {c : Char} :
    ofSign c = none ↔ c ∉ ['=', '!'] ∧ c ∉ plainSigns.map Prod.fst := by
  have listed : c ∈ (('=', assign) :: ('!', bang) :: plainSigns).map Prod.fst ↔ ∃ kind, ofSign c = some kind := by
    simp only [ofSign_eq_some_iff, List.mem_map, Prod.exists, exists_and_right, exists_eq_right]
  rw [Option.eq_none_iff_forall_ne_some, ← not_exists, ← listed]
  simp only [List.map_cons, List.mem_cons, List.not_mem_nil, or_false, not_or, and_assoc]

theorem TokenKind.ofSign_of_plain {c : Char} {kind : TokenKind} (plain : (c, kind) ∈ plainSigns) :
    ofSign c = some kind ∧ c ≠ '=' ∧ c ≠ '!' := by
  have listed : c ∈ plainSigns.map Prod.fst := List.mem_map_of_mem plain
  refine ⟨ofSign_eq_some_iff.mpr (List.mem_cons_of_mem _ (List.mem_cons_of_mem _ plain)), ?_, ?_⟩ <;> rintro rfl <;>
    exact absurd listed (by decide)

theorem isWordChar_of_isWord {c : Char} {word : List Char} (letters : isWord word = true) (member : c ∈ word) :
    isWordChar c = true := by
  cases word with
  | nil => cases member
  | cons d ds =>
    rcases List.mem_cons.mp member with rfl | behind
    · exact Bool.or_eq_true_iff.mpr (.inl (isLetter_of_isWord letters))
    · exact List.all_eq_true.mp (Bool.and_eq_true_iff.mp letters).2 c behind

namespace Lexeme

variable {kind : TokenKind} {c : Char} {cs rest : List Char}

theorem formed_sign (proper : isBlank c = false) (other : isWordChar c = false)
    (single : c = '=' → rest.head? ≠ some '=') (single' : c = '!' → rest.head? ≠ some '=') :
    Formed ((TokenKind.ofSign c).getD .illegal) [c] rest.head? := by
  cases sign : TokenKind.ofSign c with
  | none =>
    obtain ⟨equals, plain⟩ := TokenKind.ofSign_eq_none_iff.mp sign
    exact .illegal other proper equals plain
  | some kind =>
    have listed := TokenKind.ofSign_eq_some_iff.mp sign
    simp only [List.mem_cons, Prod.mk.injEq] at listed
    rcases listed with ⟨rfl, rfl⟩ | ⟨rfl, rfl⟩ | plain
    · exact .assign (single rfl)
    · exact .bang (single' rfl)
    · exact .sign plain

theorem formed_of_ofFront (proper : isBlank c = false) (cut : ofFront c (cs ++ rest) = ⟨kind, c :: cs⟩) :
    Formed kind (c :: cs) rest.head? := by
  unfold ofFront at cut
  split at cut
  · rename_i letter
    injection cut with found same
    obtain ⟨all, ends⟩ := takeWhile_eq_front_iff.mp (List.cons.inj same).2
    have word : isWord (c :: cs) = true := Bool.and_eq_true_iff.mpr ⟨letter, List.all_eq_true.mpr all⟩
    rw [same] at found
    rcases TokenKind.ofWord_cases (String.ofList (c :: cs)) with reserved | ⟨ident, other⟩
    · rw [found] at reserved
      have formed := Formed.reserved reserved ends
      rwa [String.toList_ofList] at formed
    · rw [← found, ident]
      exact .name word ends other
  · rename_i letter
    split at cut
    · rename_i digit
      injection cut with found same
      obtain ⟨all, ends⟩ := takeWhile_eq_front_iff.mp (List.cons.inj same).2
      rw [← found]
      exact .number (List.cons_ne_nil _ _) (List.forall_mem_cons.mpr ⟨digit, all⟩) ends
    · rename_i digit
      split at cut
      · cases cut
        exact .equal
      · rename_i single
        split at cut
        · cases cut
          exact .notEqual
        · rename_i single'
          cases cut
          exact formed_sign proper (by simp [isWordChar, letter, digit]) (fun eq => not_and.mp single eq)
            (fun eq => not_and.mp single' eq)

theorem ofFront_of_formed (formed : Formed kind (c :: cs) rest.head?) : ofFront c (cs ++ rest) = ⟨kind, c :: cs⟩ := by
  generalize whole : c :: cs = text at formed
  cases formed with
  | name word ends other =>
    subst whole
    have ident : TokenKind.ofWord (String.ofList (c :: cs)) = .ident :=
      ((TokenKind.ofWord_cases _).resolve_left fun reserved => other (List.mem_map_of_mem reserved)).1
    rw [ofFront_word word ends, ident]
  | reserved member ends =>
    obtain ⟨found, word⟩ := TokenKind.ofWord_of_reserved member
    rw [← whole] at word ⊢
    rw [ofFront_word word ends, whole, String.ofList_toList, found]
  | number _ all ends =>
    subst whole
    exact ofFront_int (List.all_eq_true.mpr all) ends
  | equal | notEqual => cases whole; rfl
  | assign single | bang single =>
    cases whole
    exact ofFront_sign rfl (.inl single)
  | sign member =>
    cases whole
    obtain ⟨sign, single⟩ := TokenKind.ofSign_of_plain member
    exact ofFront_sign sign (.inr single)
  | illegal other _ equals plain =>
    cases whole
    have single : c ≠ '=' ∧ c ≠ '!' := by simpa using equals
    rw [List.nil_append, ofFront_single other (.inr single), TokenKind.ofSign_eq_none_iff.mpr ⟨equals, plain⟩]
    rfl

end Lexeme

namespace Formed

variable {kind : TokenKind} {text : List Char} {next : Option Char}

theorem ne_nil (formed : Formed kind text next) : text ≠ [] := by
  cases formed with
  | name word => rintro rfl; cases word
  | reserved member =>
    intro none
    have word := (TokenKind.ofWord_of_reserved member).2
    rw [none] at word
    cases word
  | number some => exact some
  | equal | notEqual | assign | bang | sign | illegal => nofun

theorem kind_ne_eof (formed : Formed kind text next) : kind ≠ .eof := by
  obtain ⟨c, cs, rfl⟩ := List.exists_cons_of_ne_nil formed.ne_nil
  rw [← Option.head?_toList (o := next)] at formed
  have other := Lexeme.ofFront_kind_ne_eof c (cs ++ next.toList)
  rwa [Lexeme.ofFront_of_formed formed] at other

/-- No character of a token is a blank. -/
theorem unblank (formed : Formed kind text next) : ∀ c ∈ text, isBlank c = false := by
  have inWord {word : List Char} (letters : isWord word = true) : ∀ c ∈ word, isBlank c = false :=
    fun c member => isBlank_of_isWordChar (isWordChar_of_isWord letters member)
  cases formed with
  | name word => exact inWord word
  | reserved member => exact inWord (TokenKind.ofWord_of_reserved member).2
  | number _ all => exact fun c member => isBlank_of_isWordChar (Bool.or_eq_true_iff.mpr (.inr (all c member)))
  | equal | notEqual | assign | bang => simp [isBlank]
  | sign member =>
    exact List.forall_mem_singleton.mpr (sign_apart (TokenKind.ofSign_of_plain member).1).2
  | illegal _ proper => exact List.forall_mem_singleton.mpr proper

theorem proper {c : Char} {cs : List Char} (formed : Formed kind (c :: cs) next) : isBlank c = false :=
  formed.unblank c List.mem_cons_self

end Formed

end LetFn
