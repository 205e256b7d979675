import LetFn.Text.DefaultIgnorable
import LetFn.Text.GraphemeExtend
import LetFn.Text.Unprintable

namespace LetFn.Text

/-- The two sound marks of halfwidth Japanese. They extend a grapheme but are drawn beside the character before
them, in a cell of their own. -/
def isHalfwidthSoundMark (c : Char) : Bool :=
  c.toNat = 0xff9e || c.toNat = 0xff9f

/-- Whether a character could not be seen by itself: it shows nothing, or it is drawn onto the one before it. -/
def isHidden (c : Char) : Bool :=
  isUnprintable c || isDefaultIgnorable c || (extendsGrapheme c && !isHalfwidthSoundMark c)

/-- A character as it stands between quotes. What could not be seen is written by its code point. -/
def escaped (c : Char) : List Char :=
  match c with
  | '\x00' => ['\\', '0']
  | '\t' => ['\\', 't']
  | '\r' => ['\\', 'r']
  | '\n' => ['\\', 'n']
  | '"' => ['\\', '"']
  | '\\' => ['\\', '\\']
  | c =>
    if isHidden c then
      ['\\', 'u', '\x7b'] ++ Nat.toDigits 16 c.toNat ++ ['\x7d']
    else [c]

/-- `text` between double quotes, with no raw quote, line end or invisible character inside. -/
def quoted (text : String) : String :=
  String.ofList ('"' :: text.toList.flatMap escaped ++ ['"'])

end LetFn.Text
