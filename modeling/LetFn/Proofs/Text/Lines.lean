import LetFn.Command.Loop
import LetFn.Proofs.Text.Lists
import LetFn.Proofs.Text.Utf8

namespace LetFn

theorem SourceLine.split_eq_cutAfter (chars : List Char) : split chars = cutAfter '\n' chars := by
  induction chars with
  | nil => rfl
  | cons c chars ih =>
    rw [split, cutAfter, ih]
    cases cutAfter '\n' chars <;> rfl

theorem Loop.lines_eq_cutAfter (bytes : List UInt8) : lines bytes = cutAfter 10 bytes := by
  induction bytes with
  | nil => rfl
  | cons byte bytes ih =>
    rw [lines, cutAfter, ih]
    cases cutAfter 10 bytes <;> rfl

/-- The lines of a text have as bytes the lines of its bytes, since no other character has the byte of a newline. -/
theorem Loop.lines_utf8Bytes (chars : List Char) :
    lines (utf8Bytes chars) = (SourceLine.split chars).map utf8Bytes := by
  rw [lines_eq_cutAfter, SourceLine.split_eq_cutAfter]
  induction chars with
  | nil => rfl
  | cons c chars ih =>
    rw [utf8Bytes_cons]
    by_cases newline : c = '\n'
    · subst newline
      have byte : String.utf8EncodeChar '\n' = [10] := by decide
      rw [cutAfter_mark, List.map_cons, ← ih, byte]
      exact cutAfter_mark _
    · have plain : 10 ∉ String.utf8EncodeChar c := fun member => newline (eq_newline_of_mem member)
      rw [cutAfter_append_of_plain plain String.utf8EncodeChar_ne_nil, ih, cutAfter_cons newline, List.map_cons,
        utf8Bytes_cons, List.map_tail]
      cases cutAfter '\n' chars <;> rfl

end LetFn
