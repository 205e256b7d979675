namespace LetFn

/-- A line of a source, its number counted from 1, and a place in it. The text holds the newline that ends
the line. -/
structure SourceLine where
  number : Nat
  text : List Char
  column : Nat
deriving DecidableEq, Inhabited

namespace SourceLine

/-- The characters of `text` line by line, each line with its newline. -/
def split : List Char → List (List Char)
  | [] => []
  | c :: rest =>
    if c = '\n' then [c] :: split rest
    else
      match split rest with
      | [] => [[c]]
      | line :: lines => (c :: line) :: lines

/-- The line of `lines` that has the character `offset` characters on, `number` being the number of the first.
The place behind all characters belongs to the last line, or to an empty one if a newline ends that. -/
def locate (number offset : Nat) : List (List Char) → Option SourceLine
  | [] => if offset = 0 then some ⟨number, [], 0⟩ else none
  | line :: lines =>
    if offset < line.length ∨ (offset = line.length ∧ lines = [] ∧ line.getLast? ≠ some '\n') then
      some ⟨number, line, offset⟩
    else locate (number + 1) (offset - line.length) lines

/-- The line that holds the character at `position`, if `source` reaches that far. -/
def ofPosition (source : String) (position : Nat) : Option SourceLine :=
  locate 1 position (split source.toList)

end SourceLine

end LetFn
