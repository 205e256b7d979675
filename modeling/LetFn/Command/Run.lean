import LetFn.Command.Loop

namespace LetFn

/-- How long the parts of a run took, as it is written. -/
structure Timings where
  tokenized : String
  parsed : String
  total : String
deriving Inhabited

/-- The lines that tell how long it took to parse `source`. -/
def Timings.lines (timings : Timings) (source : String) : String :=
  "Tokenized " ++ toString (tokenize source).length ++ " tokens in " ++ timings.tokenized ++ "\n" ++
    "Parsed in " ++ timings.parsed ++ "\n" ++ "Total time: " ++ timings.total ++ "\n"

namespace Command

/-- The response to the text of a file that was read with the given outcome. -/
def overFile (path : String) (contents : Except ReadFailure (List UInt8)) (response : String → Transcript) :
    Transcript :=
  match contents >>= decodeUtf8 with
  | .error failure => ⟨1, "", readError path failure⟩
  | .ok source => response source

/-- The tokens of a file, one below the other. -/
def listing (source : String) : Transcript :=
  ⟨0, joined ((tokenize source).map fun token => token.summary ++ "\n"), ""⟩

/-- The name of the file at `path`, without the directories that lead to it. -/
def fileName (path : String) : String :=
  (FileTree.names path).getLastD path

/-- A file parsed: the program written out, or the reports on what is wrong with it. Timings come first. -/
def reading (path : String) (timings : Option Timings) (source : String) : Transcript :=
  let preface :=
    match timings with
    | none => ""
    | some timings => timings.lines source
  match LetFn.parse source with
  | (program, []) => ⟨0, preface ++ program.text ++ "\n", ""⟩
  | (_, errors) =>
    match Diagnostic.reports source (fileName path) errors with
    | .ok written => ⟨1, preface, written⟩
    | .error written => .brokenOff preface written

/-- A run of the program over the files of `tree` with the given input. -/
def run (tree : FileTree) (input : List UInt8) (timings : Timings) : Command → Transcript
  | .loop mode => Loop.run mode input
  | .tokens path => overFile path ((tree.withInput input).read path) listing
  | .parse path timed =>
    overFile path ((tree.withInput input).read path) (reading path (if timed then some timings else none))

end Command

end LetFn
