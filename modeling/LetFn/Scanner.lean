import LetFn.Lexer

namespace LetFn

/-- A reader of a source that sees it character by character and keeps the one it has come to. The place of the
next one is kept beside that of the current one. -/
structure Scanner where
  input : Array Char
  position : Nat
  readPosition : Nat
  current : Char
deriving DecidableEq, Inhabited

namespace Scanner

/-- Stands for the character behind the last. A source may hold it, too. -/
def pastEnd : Char := '\x00'

/-- The character after the current one. -/
def peek (scanner : Scanner) : Char :=
  scanner.input.getD scanner.readPosition pastEnd

/-- Goes on to the next character. -/
def readChar (scanner : Scanner) : Scanner where
  input := scanner.input
  position := scanner.readPosition
  readPosition :=
    if scanner.readPosition ≤ scanner.input.size then scanner.readPosition + 1 else scanner.readPosition
  current := scanner.peek

/-- At the first character of `source`. -/
def ofString (source : String) : Scanner :=
  readChar ⟨source.toList.toArray, 0, 0, pastEnd⟩

/-- Whether the source is exhausted. -/
def atEof (scanner : Scanner) : Bool :=
  scanner.input.size ≤ scanner.position

/-- Whether the current character is the one behind the last. -/
def ended (scanner : Scanner) : Bool :=
  scanner.current = pastEnd && scanner.atEof

/-- What reading on uses up, as long as it has not come to the end. -/
def work (scanner : Scanner) : Nat :=
  2 * (scanner.input.size + 1 - scanner.readPosition) + if scanner.ended then 0 else 1

theorem ended_of_ne {scanner : Scanner} (other : scanner.current ≠ pastEnd) : scanner.ended = false := by
  simp [ended, other]

/-- Behind the end of the source there is nothing but the end. -/
theorem readChar_ended {scanner : Scanner} (behind : scanner.input.size < scanner.readPosition) :
    scanner.readChar.ended = true := by
  have outside : ¬scanner.readPosition < scanner.input.size := by omega
  have within : scanner.input.size ≤ scanner.readPosition := by omega
  simp [ended, readChar, peek, atEof, Array.getD, outside, within]

theorem readChar_work (scanner : Scanner) :
    scanner.readChar.work ≤ 2 * (scanner.input.size + 1 - scanner.readPosition) := by
  have size : scanner.readChar.input.size = scanner.input.size := rfl
  by_cases within : scanner.readPosition ≤ scanner.input.size
  · have position : scanner.readChar.readPosition = scanner.readPosition + 1 := if_pos within
    simp only [work, position, size]
    split <;> omega
  · have position : scanner.readChar.readPosition = scanner.readPosition := if_neg within
    simp only [work, position, size, readChar_ended (by omega : scanner.input.size < scanner.readPosition), if_true]
    omega

theorem readChar_work_le (scanner : Scanner) : scanner.readChar.work ≤ scanner.work :=
  Nat.le_trans scanner.readChar_work (Nat.le_add_right _ _)

theorem readChar_work_lt {scanner : Scanner} (more : scanner.ended = false) :
    scanner.readChar.work < scanner.work := by
  have bound := scanner.readChar_work
  have whole : scanner.work = 2 * (scanner.input.size + 1 - scanner.readPosition) + 1 := by
    simp [work, more]
  omega

/-- Reads on over the characters that `goes` holds of, which the one behind the last is not. -/
def readWhile (goes : Char → Bool) (stops : goes pastEnd = false) (scanner : Scanner) : Scanner :=
  if goes scanner.current then readWhile goes stops scanner.readChar else scanner
termination_by scanner.work
decreasing_by
  rename_i holds
  exact readChar_work_lt (ended_of_ne fun same => by rw [same, stops] at holds; cases holds)

/-- The place of the next character that is no blank. -/
def skipBlanks (scanner : Scanner) : Scanner :=
  scanner.readWhile isBlank rfl

/-- A token of the current character, and the place behind it. -/
def single (kind : TokenKind) (scanner : Scanner) : Token × Scanner :=
  (⟨kind, String.singleton scanner.current, ⟨scanner.position, scanner.position + 1⟩⟩, scanner.readChar)

/-- A token of the current character and the next, which are `literal`, and the place behind them. -/
def double (kind : TokenKind) (literal : String) (scanner : Scanner) : Token × Scanner :=
  (⟨kind, literal, ⟨scanner.position, scanner.position + 2⟩⟩, scanner.readChar.readChar)

/-- A token of the characters from here to `later`, of the kind that they make it. -/
def upTo (later : Scanner) (kind : String → TokenKind) (scanner : Scanner) : Token × Scanner :=
  let literal := String.ofList (scanner.input.extract scanner.position later.position).toList
  (⟨kind literal, literal, ⟨scanner.position, later.position⟩⟩, later)

/-- The token at the current character, which is no blank, and the place behind it. -/
def take (scanner : Scanner) : Token × Scanner :=
  if scanner.current = '=' ∧ scanner.peek = '=' then scanner.double .eq "=="
  else if scanner.current = '!' ∧ scanner.peek = '=' then scanner.double .notEq "!="
  else
    match TokenKind.ofSign scanner.current with
    | some kind => scanner.single kind
    | none =>
      if scanner.ended then (⟨.eof, "", ⟨scanner.position, scanner.position⟩⟩, scanner)
      else if isLetter scanner.current then upTo (scanner.readWhile isWordChar rfl) .ofWord scanner
      else if isDigit scanner.current then upTo (scanner.readWhile isDigit rfl) (fun _ => .int) scanner
      else scanner.single .illegal

/-- The next token and the place behind it. -/
def next (scanner : Scanner) : Token × Scanner :=
  scanner.skipBlanks.take

theorem readWhile_work_le {goes : Char → Bool} (stops : goes pastEnd = false) (scanner : Scanner) :
    (scanner.readWhile goes stops).work ≤ scanner.work := by
  induction scanner using readWhile.induct goes stops with
  | case1 scanner holds ih =>
    rw [readWhile, if_pos holds]
    exact Nat.le_trans ih scanner.readChar_work_le
  | case2 scanner fails =>
    have still : scanner.readWhile goes stops = scanner := by rw [readWhile, if_neg fails]
    exact Nat.le_of_eq (congrArg work still)

theorem readWhile_work_lt {goes : Char → Bool} (stops : goes pastEnd = false) {scanner : Scanner}
    (holds : goes scanner.current = true) (more : scanner.ended = false) :
    (scanner.readWhile goes stops).work < scanner.work := by
  rw [readWhile, if_pos holds]
  exact Nat.lt_of_le_of_lt (readWhile_work_le stops _) (readChar_work_lt more)

theorem take_work_lt {scanner : Scanner} (proper : scanner.take.1.kind ≠ .eof) :
    scanner.take.2.work < scanner.work := by
  have step {c : Char} (same : scanner.current = c) (other : c ≠ pastEnd) : scanner.ended = false :=
    ended_of_ne (same ▸ other)
  unfold take at proper ⊢
  split at proper
  · rename_i both
    rw [if_pos both]
    exact Nat.lt_of_le_of_lt (readChar_work_le _) (readChar_work_lt (step both.1 (by decide)))
  · rename_i first
    rw [if_neg first]
    split at proper
    · rename_i both
      rw [if_pos both]
      exact Nat.lt_of_le_of_lt (readChar_work_le _) (readChar_work_lt (step both.1 (by decide)))
    · rename_i second
      rw [if_neg second]
      cases sign : TokenKind.ofSign scanner.current with
      | some kind =>
        refine readChar_work_lt (ended_of_ne fun same => ?_)
        rw [same] at sign
        cases sign
      | none =>
        rw [sign] at proper
        cases exhausted : scanner.ended with
        | true =>
          dsimp only at proper
          rw [if_pos exhausted] at proper
          exact absurd rfl proper
        | false =>
          dsimp only
          rw [if_neg (by decide)]
          split
          · rename_i letter
            exact readWhile_work_lt _ (by simp [isWordChar, letter]) exhausted
          · split
            · rename_i digit
              exact readWhile_work_lt _ digit exhausted
            · exact readChar_work_lt exhausted

/-- The tokens from here on, without the end token. -/
def tokens (scanner : Scanner) : List Token :=
  if scanner.next.1.kind = .eof then []
  else scanner.next.1 :: scanner.next.2.tokens
termination_by scanner.work
decreasing_by exact Nat.lt_of_lt_of_le (take_work_lt ‹_›) (readWhile_work_le _ _)

end Scanner

end LetFn
