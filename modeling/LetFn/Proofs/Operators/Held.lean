import Mathlib.Data.List.TakeWhile
import LetFn.Proofs.Grammar.Complete

namespace LetFn

/-- The tokens of a row. -/
def spread (row : List (Token × Token)) : List Token :=
  row.flatMap fun entry => [entry.1, entry.2]

theorem spread_length (row : List (Token × Token)) : (spread row).length = 2 * row.length := by
  induction row with
  | nil => rfl
  | cons entry row ih =>
    change (spread row).length + 1 + 1 = _
    rw [ih, List.length_cons]
    omega

theorem spread_append (before behind : List (Token × Token)) :
    spread (before ++ behind) = spread before ++ spread behind :=
  List.flatMap_append

/-- The operators of a row, each with the operand behind it, that come before the first that holds no more tightly
than `bound`. -/
def held (power : TokenKind → Power) (bound : Power) (row : List (Token × Token)) : List (Token × Token) :=
  row.takeWhile fun entry => bound < power entry.1.kind

/-- The rest of the row. -/
def unheld (power : TokenKind → Power) (bound : Power) (row : List (Token × Token)) : List (Token × Token) :=
  row.dropWhile fun entry => bound < power entry.1.kind

section Held

variable {power : TokenKind → Power} {bound : Power} {row : List (Token × Token)} {entry : Token × Token}

theorem held_append_unheld (power : TokenKind → Power) (bound : Power) (row : List (Token × Token)) :
    held power bound row ++ unheld power bound row = row :=
  List.takeWhile_append_dropWhile

theorem lt_of_mem_held (member : entry ∈ held power bound row) : bound < power entry.1.kind := by
  unfold held at member
  have holds := List.mem_takeWhile_imp member
  exact of_decide_eq_true holds

theorem le_of_head_unheld (first : entry ∈ (unheld power bound row).head?) : power entry.1.kind ≤ bound := by
  have stops := List.head?_dropWhile_not (fun entry : Token × Token => decide (bound < power entry.1.kind)) row
  rw [show List.dropWhile _ row = unheld power bound row from rfl, first] at stops
  exact Nat.le_of_not_lt (of_decide_eq_false stops)

/-- What holds more tightly than an operator that is held itself is held with it. -/
theorem held_cons (holds : bound < power entry.1.kind) :
    held power bound (entry :: row) =
      entry :: held power (power entry.1.kind) row ++ held power bound (unheld power (power entry.1.kind) row) := by
  have both : ∀ other ∈ held power (power entry.1.kind) row, decide (bound < power other.1.kind) = true :=
    fun other member => decide_eq_true (Nat.lt_trans holds (lt_of_mem_held member))
  calc held power bound (entry :: row)
      = entry :: held power bound row := List.takeWhile_cons_of_pos (decide_eq_true holds)
    _ = entry :: held power bound (held power (power entry.1.kind) row ++ unheld power (power entry.1.kind) row) := by
      rw [held_append_unheld]
    _ = _ := congrArg (entry :: ·) (List.takeWhile_append_of_pos both)

end Held

namespace ParseState

/-- The state with its next `count` tokens read and nothing else changed. -/
def after (count : Nat) (state : ParseState) : ParseState :=
  { state with stream := state.stream.drop count }

variable {state : ParseState}

theorem after_after (count more : Nat) : (state.after count).after more = state.after (count + more) := by
  simp only [after, TokenStream.drop, List.drop_drop]

theorem advance_eq_after : state.advance = state.after 1 := by
  simp only [advance, after, TokenStream.advance, TokenStream.drop, List.drop_one]

theorem unread_after (count : Nat) : (state.after count).unread = state.unread.drop count := by
  simp only [unread, after, TokenStream.drop, List.tail_drop, List.drop_tail]

/-- Behind the operators that are held the rest of the row is unread. -/
theorem unread_after_held (power : TokenKind → Power) (bound : Power) {first : Token} {row : List (Token × Token)}
    {behind : List Token} (front : state.stream.ahead = first :: (spread row ++ behind)) :
    (state.after (2 * (held power bound row).length)).unread = spread (unheld power bound row) ++ behind := by
  have split : spread row = spread (held power bound row) ++ spread (unheld power bound row) := by
    rw [← spread_append, held_append_unheld]
  rw [unread_after, unread_of_ahead front, split, List.append_assoc, List.drop_left' (spread_length _)]

end ParseState

end LetFn
