namespace LetFn

/-- What is done with a line or a file: its tokens are listed, or it is parsed and written out again. -/
inductive Mode where
  | tokens
  | parse
deriving DecidableEq, Inhabited

/-- What the program is called to do. -/
inductive Command where
  /-- Answer line after line of the input. -/
  | loop (mode : Mode)
  /-- List the tokens of a file. -/
  | tokens (path : String)
  /-- Parse a file, and say how long it took if `timings` is wanted. -/
  | parse (path : String) (timings : Bool)
deriving DecidableEq, Inhabited

namespace Command

/-- Whether `argument` is written like an option. A lone dash is not. -/
def isOption (argument : String) : Bool :=
  argument.toList.head? = some '-' && argument ≠ "-"

/-- Whether `flag` is among the options, and the other arguments in order. After a double dash nothing is an
option. No option but `flag` is known, and that may be given once. -/
def options (flag : Option String) : List String → Option (Bool × List String)
  | [] => some (false, [])
  | "--" :: rest => some (false, rest)
  | argument :: rest =>
    match options flag rest with
    | none => none
    | some (given, others) =>
      if isOption argument then
        if flag = some argument ∧ given = false then some (true, others) else none
      else some (given, argument :: others)

/-- The one path among the arguments that are no options. -/
def onePath : List String → Option String
  | [path] => if path = "" then none else some path
  | _ => none

/-- The command that the arguments spell, if they are well formed. -/
def ofArguments : List String → Option Command
  | [] | ["--"] => some (.loop .tokens)
  | "repl" :: rest =>
    match options (some "--parse") rest with
    | some (given, []) => some (.loop (if given then .parse else .tokens))
    | _ => none
  | "tokens" :: rest =>
    match options none rest with
    | some (_, others) => (onePath others).map .tokens
    | none => none
  | "parse" :: rest =>
    match options (some "--timings") rest with
    | some (given, others) => (onePath others).map (.parse · given)
    | none => none
  | _ => none

end Command

end LetFn
