import LetFn.Lexer

namespace LetFn

/-- The tokens still to be read from a source of `finish` characters. After those in `ahead` comes the
end token, for ever. -/
structure TokenStream where
  ahead : List Token
  finish : Nat
deriving DecidableEq, Inhabited

namespace TokenStream

/-- The end token, which stands behind the last character. -/
def endToken (stream : TokenStream) : Token :=
  ⟨.eof, "", ⟨stream.finish, stream.finish⟩⟩

/-- All tokens of `source`. -/
def ofString (source : String) : TokenStream :=
  ⟨(tokenize source).dropLast, source.length⟩

/-- The token that is being read. -/
def current (stream : TokenStream) : Token :=
  stream.ahead.headD stream.endToken

/-- The token after the one being read, the only one that is looked at ahead of its turn. -/
def peek (stream : TokenStream) : Token :=
  stream.ahead.tail.headD stream.endToken

/-- The stream without its next `count` tokens. The end tokens never run out. -/
def drop (count : Nat) (stream : TokenStream) : TokenStream :=
  { stream with ahead := stream.ahead.drop count }

/-- The stream whose current token was the one to peek at. -/
def advance (stream : TokenStream) : TokenStream :=
  { stream with ahead := stream.ahead.tail }

end TokenStream

end LetFn
