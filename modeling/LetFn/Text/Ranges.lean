namespace LetFn.Text

/-- A set of code points, as intervals that contain both their ends. -/
abbrev Ranges := List (Nat × Nat)

/-- Whether one of the intervals holds the code point of `c`. -/
def Ranges.covers (ranges : Ranges) (c : Char) : Bool :=
  ranges.any fun (first, last) => first ≤ c.toNat && c.toNat ≤ last

end LetFn.Text
