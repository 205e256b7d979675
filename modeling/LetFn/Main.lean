import LetFn.Command.Duration
import LetFn.Command.Run

namespace LetFn

/-- What is said to arguments that spell no command. -/
def usage : String :=
  "usage: letfn [repl [--parse] | tokens <path> | parse <path> [--timings]]\n"

/-- Writes down what a run leaves behind. -/
def emit (transcript : Transcript) : IO UInt32 := do
  (← IO.getStdout).putStr transcript.output
  (← IO.getStderr).putStr transcript.errors
  return transcript.code.toUInt32

/-- The next line of the input with its newline, no bytes at the end of the input. -/
partial def readLine (input : IO.FS.Stream) (before : ByteArray) : IO ByteArray := do
  let bytes ← input.read 1
  let line := before ++ bytes
  if bytes.isEmpty || bytes.toList = [10] then return line else readLine input line

/-- Answers line after line. -/
partial def answerLines (mode : Mode) : IO UInt32 := do
  let output ← IO.getStdout
  output.putStr Loop.prompt
  output.flush
  let line ← readLine (← IO.getStdin) .empty
  if line.isEmpty then return 0
  match Loop.turn mode line.toList with
  | .ok reply =>
    output.putStr reply
    answerLines mode
  | .error last => emit last

/-- The bytes of the file at `path`. -/
def readFile (path : String) : IO (Except ReadFailure (List UInt8)) := do
  try
    return .ok (← IO.FS.readBinFile path).toList
  catch error =>
    match error with
    | .noFileOrDirectory .. => return .error .missing
    | .inappropriateType _ code _ => return .error (if code = 21 then .isFolder else .notFolder)
    | .invalidArgument _ code _ => return .error (if code = 0 - 36 then .nameTooLong else .other (toString error))
    | _ => return .error (.other (toString error))

/-- The times that the two parts of a run over `source` take. -/
def measure (source : String) : IO Timings := do
  let start ← IO.monoNanosNow
  let _ ← IO.lazyPure fun _ => (tokenize source).length
  let between ← IO.monoNanosNow
  let _ ← IO.lazyPure fun _ => (parse source).2.length
  let stop ← IO.monoNanosNow
  return ⟨Duration.text (between - start), Duration.text (stop - between), Duration.text (stop - start)⟩

/-- Carries out a command. -/
def perform : Command → IO UInt32
  | .loop mode => answerLines mode
  | .tokens path => do emit (Command.overFile path (← readFile path) Command.listing)
  | .parse path timed => do
    let contents ← readFile path
    let timings ←
      match timed, contents >>= decodeUtf8 with
      | true, .ok source => some <$> measure source
      | _, _ => pure none
    emit (Command.overFile path contents (Command.reading path timings))

end LetFn

def main (arguments : List String) : IO UInt32 := do
  match LetFn.Command.ofArguments arguments with
  | some command => LetFn.perform command
  | none =>
    (← IO.getStderr).putStr LetFn.usage
    return 2
