import LetFn.Proofs.Command.Lines
import LetFn.Proofs.Lexing.Concatenation
import LetFn.Proofs.Lexing.Resumed

namespace LetFn

/-- What is shown of the tokens of a source, the end token left out. -/
def displays (source : String) : List String :=
  ((tokenize source).filter fun token => token.kind ≠ .eof).map Token.description

/-- What is shown of the tokens of each line by itself. -/
def displayRows (source : String) : List (List String) :=
  (SourceLine.split source.toList).map fun line => displays (String.ofList line)

theorem displays_eq (source : String) :
    displays source = (TokenStream.ofString source).ahead.map Token.description := by
  rw [displays, tokenize_filter]

/-- Where a token stands is not shown. -/
theorem displays_append (first second : String) :
    displays (first ++ "\n" ++ second) = displays first ++ displays second := by
  have unmoved : Token.description ∘ Token.respan (.shift (first.length + 1)) = Token.description := rfl
  simp only [displays_eq, TokenStream.ofString_append, List.map_append, List.map_map, unmoved]

theorem displays_empty : displays "" = [] := by
  have laid : Laid 0 "".toList [] := .blanks nofun
  rw [displays_eq, ← laid_iff.mp laid, List.map_nil]

theorem displays_newline (line : String) : displays (line ++ "\n") = displays line := by
  have whole := displays_append line ""
  rwa [String.append_empty, displays_empty, List.append_nil] at whole

/-- No token is cut in two where a line ends, nor are two made one. -/
theorem displayRows_flatten (source : String) : (displayRows source).flatten = displays source := by
  have cut (chars : List Char) : ((cutAfter '\n' chars).map fun line => displays (String.ofList line)).flatten =
      displays (String.ofList chars) := by
    induction chars using mark_induction '\n' with
    | last row plain =>
      by_cases none : row = []
      · rw [none]
        exact displays_empty.symm
      · rw [cutAfter_of_plain plain none, List.map_singleton, List.flatten_singleton]
    | step front rest plain ih =>
      have line : String.ofList (front ++ ['\n']) = String.ofList front ++ "\n" := String.ofList_append
      have whole : String.ofList (front ++ '\n' :: rest) = String.ofList front ++ "\n" ++ String.ofList rest := by
        rw [← line, ← String.ofList_append, List.append_assoc]
        rfl
      rw [cutAfter_append_mark plain, List.map_cons, List.flatten_cons, ih, line, whole, displays_newline,
        displays_append]
  have whole := cut source.toList
  rwa [String.ofList_toList, ← SourceLine.split_eq_cutAfter] at whole

namespace Loop

/-- What is written where the answer to each line is a row of texts, one below the other, and an empty line. -/
def conversation (rows : List (List String)) : String :=
  joined (rows.map fun row => prompt ++ (joined (row.map (· ++ "\n")) ++ "\n")) ++ prompt

theorem listing_eq (line : String) : listing line = joined ((displays line).map (· ++ "\n")) ++ "\n" := by
  rw [listing, Scanner.tokens_ofString, displays_eq, List.map_map]
  rfl

/-- Line by line the tokens of the whole input are shown, each once and in order. -/
theorem run_tokens_displays {input : List UInt8} {text : String} (decoded : decodeUtf8 input = .ok text) :
    run .tokens input = ⟨0, conversation (displayRows text), ""⟩ ∧ (displayRows text).flatten = displays text := by
  refine ⟨?_, displayRows_flatten text⟩
  have replies : ∀ line ∈ SourceLine.split text.toList, answer .tokens (String.ofList line) =
      .ok (joined ((displays (String.ofList line)).map (· ++ "\n")) ++ "\n") :=
    fun line _ => congrArg Except.ok (listing_eq (String.ofList line))
  rw [run_of_answers decoded replies, conversation, displayRows, List.map_map]
  rfl

/-- A line without tokens has its row, too, and the last line needs no newline. -/
theorem run_tokens_displays_three : decodeUtf8 [33, 10, 32, 10, 61, 120] = .ok "!\n \n=x" ∧
    run .tokens [33, 10, 32, 10, 61, 120] = ⟨0, conversation (displayRows "!\n \n=x"), ""⟩ ∧
    (displayRows "!\n \n=x").flatten = displays "!\n \n=x" ∧
    displays "!\n \n=x" = ["Token \x7b kind: !, literal: \"!\" \x7d", "Token \x7b kind: =, literal: \"=\" \x7d",
      "Token \x7b kind: IDENT, literal: \"x\" \x7d"] := by
  have decoded : decodeUtf8 [33, 10, 32, 10, 61, 120] = .ok "!\n \n=x" :=
    decodeUtf8_utf8Bytes ['!', '\n', ' ', '\n', '=', 'x']
  obtain ⟨written, rows⟩ := run_tokens_displays decoded
  exact ⟨decoded, written, rows, by decide +kernel⟩

end Loop

end LetFn
