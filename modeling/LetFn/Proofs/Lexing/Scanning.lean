import LetFn.Proofs.Lexing.Pulled
import LetFn.Proofs.Lexing.Seams
import LetFn.Scanner

namespace LetFn

theorem Lexer.skip_succ {lexer : Lexer} {c : Char} {after : List Char} (ahead : lexer.rest = c :: after) (count : Nat) :
    lexer.skip (count + 1) = skip count ⟨lexer.position + 1, after⟩ := by
  simp only [skip, ahead, List.drop_succ_cons, Nat.add_assoc, Nat.add_comm 1]

namespace Scanner

variable {scanner : Scanner} {c : Char} {after : List Char}

/-- The place that a scanner has come to. -/
def place (scanner : Scanner) : Lexer :=
  ⟨scanner.position, scanner.input.toList.drop scanner.position⟩

/-- What holds of a scanner that has not read on behind the end. -/
structure Sound (scanner : Scanner) : Prop where
  position_le : scanner.position ≤ scanner.input.size
  readPosition_eq : scanner.readPosition = scanner.position + 1
  current_eq : scanner.current = scanner.place.current

/-- By reading on, `scanner` has become `later`, which is at the place of `lexer`. -/
structure Comes (scanner later : Scanner) (lexer : Lexer) : Prop where
  sound : later.Sound
  input_eq : later.input = scanner.input
  place_eq : later.place = lexer

/-- What is taken from `scanner` are the characters of `lexeme`. -/
structure Takes (scanner : Scanner) (taken : Token × Scanner) (lexeme : Lexeme) : Prop where
  token_eq : taken.1 = ⟨lexeme.kind, String.ofList lexeme.text,
    ⟨scanner.position, scanner.position + lexeme.text.length⟩⟩
  comes : scanner.Comes taken.2 (scanner.place.skip lexeme.text.length)

theorem getD_eq_headD_drop (input : Array Char) (index : Nat) :
    input.getD index pastEnd = (input.toList.drop index).headD '\x00' := by
  rw [Array.getD_eq_getD_getElem?, List.headD_eq_head?_getD, List.head?_drop, Array.getElem?_toList]
  rfl

namespace Sound

theorem current_of_cons (sound : scanner.Sound) (ahead : scanner.place.rest = c :: after) : scanner.current = c := by
  rw [sound.current_eq, Lexer.current, ahead, List.headD_cons]

theorem position_lt (ahead : scanner.place.rest = c :: after) : scanner.position < scanner.input.size := by
  have length := congrArg List.length ahead
  simp only [place, List.length_drop, Array.length_toList, List.length_cons] at length
  omega

theorem atEof_iff (sound : scanner.Sound) : scanner.atEof = true ↔ scanner.place.rest = [] := by
  have bound := sound.position_le
  simp only [atEof, place, decide_eq_true_eq, List.drop_eq_nil_iff, Array.length_toList]

theorem drop_of_cons (ahead : scanner.place.rest = c :: after) :
    scanner.input.toList.drop (scanner.position + 1) = after := by
  rw [← List.drop_drop]
  exact (congrArg (List.drop 1) ahead).trans List.drop_one

theorem peek_of_cons (sound : scanner.Sound) (ahead : scanner.place.rest = c :: after) :
    scanner.peek = after.headD '\x00' := by
  rw [peek, getD_eq_headD_drop, sound.readPosition_eq, drop_of_cons ahead]

/-- Reading on is right wherever there is a character to be read. -/
theorem readChar (sound : scanner.Sound) (ahead : scanner.place.rest = c :: after) :
    scanner.Comes scanner.readChar ⟨scanner.position + 1, after⟩ := by
  have bound := position_lt ahead
  have position : scanner.readChar.position = scanner.position + 1 := sound.readPosition_eq
  have behind : scanner.readChar.place = ⟨scanner.position + 1, after⟩ := by
    rw [place, position]
    exact congrArg (Lexer.mk _) (drop_of_cons ahead)
  refine ⟨⟨?_, ?_, ?_⟩, rfl, behind⟩
  · rw [position]
    exact bound
  · have within : scanner.readPosition ≤ scanner.input.size := by
      rw [sound.readPosition_eq]
      exact bound
    rw [position, ← sound.readPosition_eq]
    exact if_pos within
  · rw [behind]
    exact sound.peek_of_cons ahead

/-- A run of characters is read to its end, which is where the source ends or a character that is none of them. -/
theorem readWhile {goes : Char → Bool} (stops : goes pastEnd = false) (sound : scanner.Sound) :
    scanner.Comes (scanner.readWhile goes stops)
      (scanner.place.skip (scanner.place.rest.takeWhile goes).length) := by
  induction scanner using readWhile.induct goes stops with
  | case1 scanner holds ih =>
    cases ahead : scanner.place.rest with
    | nil =>
      rw [sound.current_eq, Lexer.current, ahead] at holds
      exact absurd (holds.symm.trans stops) (by decide)
    | cons c after =>
      have here := sound.current_of_cons ahead
      have one := sound.readChar ahead
      obtain ⟨later, input, there⟩ := ih one.sound
      rw [here] at holds
      rw [Scanner.readWhile, here, if_pos holds, List.takeWhile_cons_of_pos holds]
      refine ⟨later, input.trans one.input_eq, ?_⟩
      rw [there, one.place_eq, List.length_cons, Lexer.skip_succ ahead]
      rfl
  | case2 scanner fails =>
    have none : scanner.place.rest.takeWhile goes = [] := by
      cases ahead : scanner.place.rest with
      | nil => rfl
      | cons c after =>
        rw [sound.current_of_cons ahead] at fails
        exact List.takeWhile_cons_of_neg fails
    rw [Scanner.readWhile, if_neg fails, none]
    exact ⟨sound, rfl, rfl⟩

theorem single (sound : scanner.Sound) (ahead : scanner.place.rest = c :: after) (kind : TokenKind) :
    scanner.Takes (scanner.single kind) ⟨kind, [c]⟩ := by
  have one := sound.readChar ahead
  have literal : String.singleton scanner.current = String.ofList [c] := by
    rw [sound.current_of_cons ahead, String.singleton_eq_ofList]
  refine ⟨?_, one.sound, one.input_eq, ?_⟩
  · rw [Scanner.single, literal]
    rfl
  · exact one.place_eq.trans (Lexer.skip_succ ahead 0).symm

theorem double {d : Char} {literal : String} (sound : scanner.Sound) (ahead : scanner.place.rest = c :: d :: after)
    (spelled : literal = String.ofList [c, d]) (kind : TokenKind) :
    scanner.Takes (scanner.double kind literal) ⟨kind, [c, d]⟩ := by
  have one := sound.readChar ahead
  have rest : scanner.readChar.place.rest = d :: after := congrArg Lexer.rest one.place_eq
  have two := one.sound.readChar rest
  refine ⟨?_, two.sound, two.input_eq.trans one.input_eq, ?_⟩
  · rw [Scanner.double, spelled]
    rfl
  · have skipped : scanner.readChar.place.skip 1 = scanner.place.skip 2 := by
      rw [one.place_eq, Lexer.skip_succ ahead]
      rfl
    exact (two.place_eq.trans (Lexer.skip_succ rest 0).symm).trans skipped

/-- A run of characters makes a token that has all of them. -/
theorem upTo {goes : Char → Bool} (stops : goes pastEnd = false) (sound : scanner.Sound)
    (ahead : scanner.place.rest = c :: after) (holds : goes c = true) (kind : String → TokenKind) :
    scanner.Takes (Scanner.upTo (scanner.readWhile goes stops) kind scanner)
      ⟨kind (String.ofList (c :: after.takeWhile goes)), c :: after.takeWhile goes⟩ := by
  have later := sound.readWhile stops
  rw [ahead, List.takeWhile_cons_of_pos holds] at later
  have position : (scanner.readWhile goes stops).position =
      scanner.position + (c :: after.takeWhile goes).length := congrArg Lexer.position later.place_eq
  have cut : scanner.place.rest.take (c :: after.takeWhile goes).length = c :: after.takeWhile goes := by
    rw [ahead, List.length_cons, List.take_succ_cons]
    exact congrArg (c :: ·) (List.prefix_iff_eq_take.mp (List.takeWhile_prefix goes)).symm
  have literal : (scanner.input.extract scanner.position
      (scanner.position + (c :: after.takeWhile goes).length)).toList = c :: after.takeWhile goes := by
    rw [Array.toList_extract, List.extract_eq_take_drop, Nat.add_sub_cancel_left]
    exact cut
  refine ⟨?_, later⟩
  rw [Scanner.upTo, position, literal]

theorem ended_of_cons (ahead : scanner.place.rest = c :: after) : scanner.ended = false := by
  have more : scanner.atEof = false := decide_eq_false (Nat.not_le.mpr (position_lt ahead))
  rw [ended, more, Bool.and_false]

/-- Past the end there is the end token, and the scanner stays where it is. -/
theorem take_of_nil (sound : scanner.Sound) (ahead : scanner.place.rest = []) :
    scanner.take = (⟨.eof, "", ⟨scanner.position, scanner.position⟩⟩, scanner) := by
  have current : scanner.current = '\x00' := by rw [sound.current_eq, Lexer.current, ahead, List.headD_nil]
  have exhausted : scanner.ended = true := by simp [ended, current, pastEnd, sound.atEof_iff.mpr ahead]
  have sign : TokenKind.ofSign '\x00' = none := rfl
  rw [Scanner.take, current, if_neg (fun both => absurd both.1 (by decide)),
    if_neg (fun both => absurd both.1 (by decide)), sign]
  exact if_pos exhausted

/-- Where a word or a number starts, no sign does. -/
theorem take_of_word (sound : scanner.Sound) (ahead : scanner.place.rest = c :: after) (word : isWordChar c = true) :
    scanner.take =
      if isLetter c then Scanner.upTo (scanner.readWhile isWordChar rfl) .ofWord scanner
      else Scanner.upTo (scanner.readWhile isDigit rfl) (fun _ => .int) scanner := by
  have sign : TokenKind.ofSign c = none := by
    cases sign : TokenKind.ofSign c with
    | none => rfl
    | some kind => rw [(sign_apart sign).1] at word; cases word
  have equals : c ≠ '=' := by rintro rfl; cases word
  have bang : c ≠ '!' := by rintro rfl; cases word
  rw [Scanner.take, sound.current_of_cons ahead, if_neg (fun both => equals both.1),
    if_neg (fun both => bang both.1), sign]
  dsimp only
  rw [if_neg (by rw [ended_of_cons ahead]; decide)]
  cases letter : isLetter c with
  | true => rfl
  | false =>
    have digit : isDigit c = true := by simpa [isWordChar, letter] using word
    rw [if_neg (by decide), if_pos digit, if_neg (by decide)]

theorem take_of_plain (sound : scanner.Sound) (ahead : scanner.place.rest = c :: after) (plain : isWordChar c = false)
    (alone : after.head? ≠ some '=' ∨ c ≠ '=' ∧ c ≠ '!') :
    scanner.take = scanner.single ((TokenKind.ofSign c).getD .illegal) := by
  have peek : scanner.peek = '=' → after.head? = some '=' := by
    rw [sound.peek_of_cons ahead]
    cases after with
    | nil => intro nul; cases nul
    | cons d after => exact congrArg some
  obtain ⟨letter, digit⟩ := Bool.or_eq_false_iff.mp plain
  have first : ¬(c = '=' ∧ scanner.peek = '=') := fun both => by
    rcases alone with other | other
    · exact other (peek both.2)
    · exact other.1 both.1
  have second : ¬(c = '!' ∧ scanner.peek = '=') := fun both => by
    rcases alone with other | other
    · exact other (peek both.2)
    · exact other.2 both.1
  rw [Scanner.take, sound.current_of_cons ahead, if_neg first, if_neg second]
  cases TokenKind.ofSign c with
  | some kind => rfl
  | none =>
    dsimp only
    rw [if_neg (by rw [ended_of_cons ahead]; decide), if_neg (by rw [letter]; decide),
      if_neg (by rw [digit]; decide)]
    rfl

theorem take_of_double (sound : scanner.Sound) (ahead : scanner.place.rest = c :: '=' :: after)
    (double : c = '=' ∨ c = '!') :
    scanner.take = if c = '=' then scanner.double .eq "==" else scanner.double .notEq "!=" := by
  have peek : scanner.peek = '=' := sound.peek_of_cons ahead
  rw [Scanner.take, sound.current_of_cons ahead, peek]
  rcases double with rfl | rfl <;> rfl

/-- A scanner takes the longest lexeme. -/
theorem takes (sound : scanner.Sound) (ahead : scanner.place.rest = c :: after) :
    scanner.Takes scanner.take (Lexeme.ofFront c after) := by
  cases word : isWordChar c with
  | true =>
    rw [sound.take_of_word ahead word]
    cases letter : isLetter c with
    | true =>
      rw [if_pos rfl, Lexeme.ofFront, if_pos letter]
      exact sound.upTo rfl ahead word .ofWord
    | false =>
      have digit : isDigit c = true := by simpa [isWordChar, letter] using word
      rw [if_neg (by decide), Lexeme.ofFront, if_neg (by rw [letter]; decide), if_pos digit]
      exact sound.upTo rfl ahead digit fun _ => .int
  | false =>
    by_cases double : after.head? = some '=' ∧ (c = '=' ∨ c = '!')
    · obtain ⟨next, sign⟩ := double
      obtain ⟨behind, rfl⟩ := List.head?_eq_some_iff.mp next
      rw [sound.take_of_double ahead sign]
      rcases sign with rfl | rfl
      · exact sound.double ahead rfl .eq
      · exact sound.double ahead rfl .notEq
    · have alone : after.head? ≠ some '=' ∨ c ≠ '=' ∧ c ≠ '!' := by
        by_cases next : after.head? = some '='
        · exact .inr (not_or.mp fun sign => double ⟨next, sign⟩)
        · exact .inl next
      rw [sound.take_of_plain ahead word alone, Lexeme.ofFront_single word alone]
      exact sound.single ahead _

/-- A scanner takes the token that stands at its place, and comes to the place behind it. -/
theorem take (sound : scanner.Sound) :
    scanner.take.1 = scanner.place.take.1 ∧ scanner.Comes scanner.take.2 scanner.place.take.2 := by
  unfold Lexer.take
  cases ahead : scanner.place.rest with
  | nil =>
    rw [sound.take_of_nil ahead]
    exact ⟨rfl, sound, rfl, rfl⟩
  | cons c after =>
    have taken := sound.takes ahead
    exact ⟨taken.token_eq, taken.comes⟩

/-- The next token is that of the place, also where blanks stand before it. -/
theorem next (sound : scanner.Sound) :
    scanner.next.1 = scanner.place.next.1 ∧ scanner.Comes scanner.next.2 scanner.place.next.2 := by
  have stops : isBlank pastEnd = false := rfl
  have blanks := sound.readWhile stops
  obtain ⟨token, later⟩ := blanks.sound.take
  rw [blanks.place_eq] at token later
  exact ⟨token, later.sound, later.input_eq.trans blanks.input_eq, later.place_eq⟩

end Sound

end Scanner

end LetFn
