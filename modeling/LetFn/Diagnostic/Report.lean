import LetFn.Diagnostic
import LetFn.SourceLine
import LetFn.Text.WhiteSpace

namespace LetFn.Diagnostic

/-- `count` copies of `c`. -/
def run (count : Nat) (c : Char) : String :=
  String.ofList (List.replicate count c)

/-- What a report says before it shows the place. -/
def heading (problem : Problem) (file : String) : String :=
  let remark :=
    match problem.tip with
    | none => ""
    | some tip => " (" ++ tip ++ ")"
  "Error: " ++ problem.name ++ remark ++ "\n-> " ++ file ++ "\n"

/-- How many spaces a line starts with. -/
def indent (line : SourceLine) : Nat :=
  (line.text.takeWhile (· = ' ')).length

/-- How wide an arrow below a line is, its head included. It starts behind the spaces that the line starts with. -/
def arrowWidth (line : SourceLine) : Nat :=
  line.column - indent line + 1

/-- The greatest width that the formatter pads a text to. -/
def widest : Nat := 65535

/-- A line of a source under an empty gutter line and above an arrow that ends below its column. The spaces
that the line starts with are left out, of the line and of the arrow. -/
def drawing (line : SourceLine) : String :=
  let number := toString line.number
  let gutter := run (number.length + 1) ' ' ++ "|"
  let shown := Text.dropTrailingWhiteSpace (line.text.drop (indent line))
  gutter ++ "\n" ++ number ++ " | " ++ String.ofList shown ++ "\n" ++
    gutter ++ " " ++ run (arrowWidth line - 1) '-' ++ "^\n"

/-- The drawing of a line, if its arrow is not too wide for the formatter. -/
def excerpt (line : SourceLine) : Option String :=
  if arrowWidth line ≤ widest then some (drawing line) else none

/-- The report on a diagnostic of `source`, which was read from `file`. A place that the source does not
have is not shown, and on one with too wide an arrow there is no report at all. -/
def report (diagnostic : Diagnostic) (source file : String) : Option String :=
  let place :=
    match SourceLine.ofPosition source diagnostic.span.start with
    | none => some ("   " ++ diagnostic.problem.message ++ "\n")
    | some line => excerpt line
  place.map (heading diagnostic.problem file ++ ·)

/-- The reports on diagnostics of `source` one after the other, or those in front of the first that there is none on. -/
def reports (source file : String) : List Diagnostic → Except String String
  | [] => .ok ""
  | diagnostic :: others =>
    match diagnostic.report source file with
    | none => .error ""
    | some first =>
      match reports source file others with
      | .ok rest => .ok (first ++ rest)
      | .error rest => .error (first ++ rest)

end LetFn.Diagnostic
