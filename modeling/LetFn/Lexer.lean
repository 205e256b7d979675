import LetFn.Token

namespace LetFn

/-- What may stand between tokens. Other white space is no blank and makes a token of its own. -/
def isBlank (c : Char) : Bool :=
  c = ' ' || c = '\t' || c = '\n' || c = '\r'

/-- ASCII letters and the underscore. -/
def isLetter (c : Char) : Bool :=
  c.isAlpha || c = '_'

/-- ASCII digits. -/
def isDigit (c : Char) : Bool :=
  c.isDigit

/-- What may follow the first character of a word. -/
def isWordChar (c : Char) : Bool :=
  isLetter c || isDigit c

/-- The kind of a sign of one character. -/
def TokenKind.ofSign : Char → Option TokenKind
  | '=' => some assign
  | '+' => some plus
  | '-' => some minus
  | '!' => some bang
  | '*' => some asterisk
  | '/' => some slash
  | '<' => some lt
  | '>' => some gt
  | ',' => some comma
  | ';' => some semicolon
  | '(' => some lparen
  | ')' => some rparen
  | '{' => some lbrace
  | '}' => some rbrace
  | _ => none

/-- The characters of a token and the kind they make it. -/
structure Lexeme where
  kind : TokenKind
  text : List Char
deriving DecidableEq, Inhabited

/-- The longest lexeme at the front of `c :: after`, where `c` is no blank. A character that starts no
other lexeme is an illegal one by itself, so there always is one. -/
def Lexeme.ofFront (c : Char) (after : List Char) : Lexeme :=
  if isLetter c then
    let word := c :: after.takeWhile isWordChar
    ⟨.ofWord (String.ofList word), word⟩
  else if isDigit c then ⟨.int, c :: after.takeWhile isDigit⟩
  else if c = '=' ∧ after.head? = some '=' then ⟨.eq, ['=', '=']⟩
  else if c = '!' ∧ after.head? = some '=' then ⟨.notEq, ['!', '=']⟩
  else ⟨(TokenKind.ofSign c).getD .illegal, [c]⟩

theorem Lexeme.ofFront_text_length_pos (c : Char) (after : List Char) : 0 < (ofFront c after).text.length := by
  unfold ofFront
  repeat' split
  all_goals simp

/-- A place in a source: how many characters lie before it, and those that lie ahead. -/
structure Lexer where
  position : Nat
  rest : List Char
deriving DecidableEq, Inhabited

namespace Lexer

/-- The start of `source`. -/
def ofString (source : String) : Lexer :=
  ⟨0, source.toList⟩

/-- The place of the character after this one. -/
def readPosition (lexer : Lexer) : Nat :=
  lexer.position + 1

/-- The character here, NUL where the source is exhausted. -/
def current (lexer : Lexer) : Char :=
  lexer.rest.headD '\x00'

/-- Whether the source is exhausted. Blanks that are still ahead count as characters. -/
def atEof (lexer : Lexer) : Bool :=
  lexer.rest.isEmpty

/-- The place after the next `count` characters. -/
def skip (count : Nat) (lexer : Lexer) : Lexer :=
  ⟨lexer.position + count, lexer.rest.drop count⟩

/-- The place of the next character that is no blank. -/
def skipBlanks (lexer : Lexer) : Lexer :=
  lexer.skip (lexer.rest.takeWhile isBlank).length

/-- The token at the front of the rest and the place after it, no blank being ahead. -/
def take (lexer : Lexer) : Token × Lexer :=
  match lexer.rest with
  | [] => (⟨.eof, "", ⟨lexer.position, lexer.position⟩⟩, lexer)
  | c :: after =>
    let lexeme := Lexeme.ofFront c after
    let later := lexer.skip lexeme.text.length
    (⟨lexeme.kind, String.ofList lexeme.text, ⟨lexer.position, later.position⟩⟩, later)

/-- The next token and the place after it. At the end of the source that is the end token, again and again. -/
def next (lexer : Lexer) : Token × Lexer :=
  lexer.skipBlanks.take

theorem skip_rest_length (count : Nat) (lexer : Lexer) :
    (lexer.skip count).rest.length = lexer.rest.length - count :=
  List.length_drop

/-- A token other than the end token takes at least one character. -/
theorem next_rest_length_lt (lexer : Lexer) (more : lexer.next.1.kind ≠ .eof) :
    lexer.next.2.rest.length < lexer.rest.length := by
  have blanks : lexer.skipBlanks.rest.length ≤ lexer.rest.length := by
    rw [skipBlanks, skip_rest_length]
    omega
  unfold next take at more ⊢
  split at more
  · exact absurd rfl more
  · rename_i c after ahead
    have taken := Lexeme.ofFront_text_length_pos c after
    simp only [skip_rest_length, ahead, List.length_cons] at blanks ⊢
    omega

/-- All tokens from here on, the end token last. -/
def drain (lexer : Lexer) : List Token :=
  if lexer.next.1.kind = .eof then [lexer.next.1]
  else lexer.next.1 :: lexer.next.2.drain
termination_by lexer.rest.length
decreasing_by exact lexer.next_rest_length_lt ‹_›

end Lexer

/-- The tokens of `source`, the end token last. -/
def tokenize (source : String) : List Token :=
  (Lexer.ofString source).drain

end LetFn
