namespace LetFn.Text

/-- The value of a row of decimal digits. -/
def digitsValue (digits : List Char) : Nat :=
  digits.foldl (fun value digit => 10 * value + (digit.toNat - '0'.toNat)) 0

/-- The value of one ASCII digit or more. -/
def natural? (text : List Char) : Option Nat :=
  if text ≠ [] ∧ text.all Char.isDigit then some (digitsValue text) else none

/-- Whether a value can be held in 64 bits, one of them for the sign. -/
def fits64 (value : Int) : Bool :=
  -0x8000000000000000 ≤ value && value < 0x8000000000000000

/-- A number of 64 bits in decimal digits, with a sign in front or without. -/
def integer64? (text : String) : Option Int :=
  let value? : Option Int :=
    match text.toList with
    | '-' :: digits => (natural? digits).map fun value => -(value : Int)
    | '+' :: digits => (natural? digits).map fun value => (value : Int)
    | digits => (natural? digits).map fun value => (value : Int)
  value?.filter fits64

end LetFn.Text
