import LetFn.Text.Ranges

namespace LetFn.Text

/-- The code points with the Unicode property White_Space. -/
def whiteSpaceRanges : Ranges :=
  [(0x9, 0xd), (0x20, 0x20), (0x85, 0x85), (0xa0, 0xa0), (0x1680, 0x1680), (0x2000, 0x200a),
   (0x2028, 0x2029), (0x202f, 0x202f), (0x205f, 0x205f), (0x3000, 0x3000)]

/-- Any white space, the ends of lines included. -/
def isWhiteSpace (c : Char) : Bool :=
  whiteSpaceRanges.covers c

/-- `text` without the white space at its end. -/
def dropTrailingWhiteSpace (text : List Char) : List Char :=
  (text.reverse.dropWhile isWhiteSpace).reverse

end LetFn.Text
