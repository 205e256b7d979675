import LetFn.Command.Arguments
import LetFn.Command.FileTree
import LetFn.Diagnostic.Report
import LetFn.Parse
import LetFn.Scanner
import LetFn.Tree.Text

namespace LetFn

/-- What a run of the program leaves behind: its exit code and what it wrote. -/
structure Transcript where
  code : Nat
  output : String
  errors : String
deriving DecidableEq, Inhabited

namespace Transcript

/-- What the run leaves behind that wrote `front` before it left `rest`. -/
def after (front : String) (rest : Transcript) : Transcript :=
  { rest with output := front ++ rest.output }

/-- What the formatter says to a width that it does not pad to. -/
def refusal : String := "Formatting argument out of range\n"

/-- What a run leaves behind that the formatter breaks off. Where in the program it does so is not said. -/
def brokenOff (output errors : String) : Transcript :=
  ⟨101, output, errors ++ refusal⟩

end Transcript

/-- What is said where `subject` cannot be read. -/
def readError (subject : String) (failure : ReadFailure) : String :=
  "Error: failed to read " ++ subject ++ "\n\nCaused by:\n    " ++ failure.text ++ "\n"

/-- Texts one after the other. -/
def joined (parts : List String) : String :=
  parts.foldr (· ++ ·) ""

namespace Loop

/-- What asks for a line. -/
def prompt : String := ">> "

/-- The name that stands for the file in reports on a line. -/
def fileName : String := "repl"

/-- The tokens of a line, one below the other, and an empty line. -/
def listing (line : String) : String :=
  joined ((Scanner.ofString line).tokens.map fun token => token.description ++ "\n") ++ "\n"

/-- The program on a line, or the reports on what is wrong with it, or the end of the run where there is no report. -/
def reading (line : String) : Except Transcript String :=
  match parse line with
  | (program, []) => .ok (program.text ++ "\n")
  | (_, errors) => (Diagnostic.reports line fileName errors).mapError fun written => .brokenOff written ""

/-- The answer to a line, or how the run ends on it. -/
def answer (mode : Mode) (line : String) : Except Transcript String :=
  match mode with
  | .tokens => .ok (listing line)
  | .parse => reading line

/-- The input line by line, each line with the newline that ends it. -/
def lines : List UInt8 → List (List UInt8)
  | [] => []
  | byte :: rest =>
    if byte = 10 then [byte] :: lines rest
    else
      match lines rest with
      | [] => [[byte]]
      | line :: later => (byte :: line) :: later

/-- The answer to a line as it was read, or how the run ends on it, as it does where the line is no text. -/
def turn (mode : Mode) (line : List UInt8) : Except Transcript String :=
  match decodeUtf8 line with
  | .error failure => .error ⟨1, "", readError "from stdin" failure⟩
  | .ok text => answer mode text

/-- Answers the lines of the input, up to its end or to a line that the run ends on. -/
def overLines (mode : Mode) : List (List UInt8) → Transcript
  | [] => ⟨0, prompt, ""⟩
  | line :: later =>
    match turn mode line with
    | .error last => last.after prompt
    | .ok reply => (overLines mode later).after (prompt ++ reply)

/-- A run of the loop over the whole input. -/
def run (mode : Mode) (input : List UInt8) : Transcript :=
  overLines mode (lines input)

end Loop

end LetFn
