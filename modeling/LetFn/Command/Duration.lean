namespace LetFn.Duration

/-- `count` parts of which ten to the `places` make a whole, as a decimal number without needless zeros. -/
def decimal (places count : Nat) : String :=
  let parts := Nat.pow 10 places
  let whole := toString (count / parts)
  let digits := (toString (count % parts)).toList
  let padded := List.replicate (places - digits.length) '0' ++ digits
  let fraction := (padded.reverse.dropWhile (· = '0')).reverse
  if fraction = [] then whole else whole ++ "." ++ String.ofList fraction

/-- A time in nanoseconds, written in the largest unit that it fills. -/
def text (nanoseconds : Nat) : String :=
  if nanoseconds < 1000 then decimal 0 nanoseconds ++ "ns"
  else if nanoseconds < 1000000 then decimal 3 nanoseconds ++ "µs"
  else if nanoseconds < 1000000000 then decimal 6 nanoseconds ++ "ms"
  else decimal 9 nanoseconds ++ "s"

end LetFn.Duration
