namespace LetFn

/-- A stretch of the source, from `start` up to but not including `stop`. Both count characters, not bytes. -/
structure Span where
  start : Nat
  stop : Nat
deriving DecidableEq, Inhabited

end LetFn
