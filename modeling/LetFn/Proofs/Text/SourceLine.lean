import LetFn.Proofs.Text.Lines

namespace LetFn

/-- The characters up to the first newline, which is one of them, or all of them if there is none. -/
def throughNewline : List Char → List Char
  | [] => []
  | c :: rest => if c = '\n' then [c] else c :: throughNewline rest

theorem throughNewline_append {front : List Char} (plain : '\n' ∉ front) (rest : List Char) :
    throughNewline (front ++ rest) = front ++ throughNewline rest := by
  induction front with
  | nil => rfl
  | cons c front ih =>
    obtain ⟨other, plain⟩ := not_or.mp (List.mem_cons.not.mp plain)
    rw [List.cons_append, throughNewline, if_neg (Ne.symm other), ih plain, List.cons_append]

theorem throughNewline_of_plain {chars : List Char} (plain : '\n' ∉ chars) : throughNewline chars = chars := by
  have whole := throughNewline_append plain []
  rwa [List.append_nil, throughNewline, List.append_nil] at whole

/-- There is no newline but at the end. -/
theorem throughNewline_cases (chars : List Char) : ∃ row, '\n' ∉ row ∧
    (throughNewline chars = row ∨ throughNewline chars = row ++ ['\n']) := by
  induction chars using mark_induction '\n' with
  | last row plain => exact ⟨row, plain, .inl (throughNewline_of_plain plain)⟩
  | step front rest plain => exact ⟨front, plain, .inr (throughNewline_append plain _)⟩

namespace SourceLine

/-- Where the line starts that `position` belongs to: behind the last newline before it. -/
def startOf (chars : List Char) (position : Nat) : Nat :=
  ((chars.take position).rdropWhile (· ≠ '\n')).length

/-- The line that `position` belongs to, from its start up to the next newline from `position` on. -/
def textAt (chars : List Char) (position : Nat) : List Char :=
  (chars.take position).drop (startOf chars position) ++ throughNewline (chars.drop position)

section

variable {chars front rest : List Char} {position offset : Nat}

/-- Where no newline comes before, the line is the first. -/
theorem startOf_of_plain (plain : '\n' ∉ chars.take position) : startOf chars position = 0 := by
  rw [startOf, List.rdropWhile_eq_nil_iff.mpr, List.length_nil]
  intro c member
  exact decide_eq_true fun newline => plain (newline ▸ member)

theorem textAt_of_plain (plain : '\n' ∉ chars.take position) :
    textAt chars position = throughNewline chars := by
  rw [textAt, startOf_of_plain plain, List.drop_zero, ← throughNewline_append plain, List.take_append_drop]

/-- From the start of the line up to the place there is no newline. -/
theorem plain_before (chars : List Char) (position : Nat) :
    '\n' ∉ (chars.take position).drop (startOf chars position) := by
  have cut := @List.rdropWhile_append_rtakeWhile _ (· ≠ '\n') (chars.take position)
  have behind : (chars.take position).drop (startOf chars position) = (chars.take position).rtakeWhile (· ≠ '\n') := by
    nth_rewrite 1 [← cut]
    exact List.drop_left
  rw [behind]
  intro member
  have other := List.mem_rtakeWhile_imp member
  exact absurd other (by decide)

theorem take_behind (front rest : List Char) (offset : Nat) :
    (front ++ '\n' :: rest).take (front.length + 1 + offset) = front ++ '\n' :: rest.take offset := by
  rw [Nat.add_assoc, List.take_length_add_append, Nat.add_comm 1, List.take_succ_cons]

theorem drop_behind (front rest : List Char) (offset : Nat) :
    (front ++ '\n' :: rest).drop (front.length + 1 + offset) = rest.drop offset := by
  rw [Nat.add_assoc, List.drop_length_add_append, Nat.add_comm 1, List.drop_succ_cons]

/-- Behind a newline the lines are those of what follows alone. -/
theorem startOf_behind (front rest : List Char) (offset : Nat) :
    startOf (front ++ '\n' :: rest) (front.length + 1 + offset) = front.length + 1 + startOf rest offset := by
  rw [startOf, take_behind, rdropWhile_append_cons (by decide), List.length_append, List.length_cons, startOf]
  omega

theorem textAt_behind (front rest : List Char) (offset : Nat) :
    textAt (front ++ '\n' :: rest) (front.length + 1 + offset) = textAt rest offset := by
  rw [textAt, textAt, startOf_behind, take_behind, drop_behind, Nat.add_assoc, List.drop_length_add_append,
    Nat.add_comm 1, List.drop_succ_cons]

theorem locate_of_plain (plain : '\n' ∉ chars) (number offset : Nat) : locate number offset (split chars) =
    if chars.length < offset then none else some ⟨number, chars, offset⟩ := by
  rw [split_eq_cutAfter]
  by_cases none : chars = []
  · rw [none]
    cases offset <;> rfl
  · have open_end : chars.getLast? ≠ some '\n' := fun last => plain (List.mem_of_getLast? last)
    rw [cutAfter_of_plain plain none, locate, locate]
    simp only [ne_eq, open_end, not_false_eq_true, and_true, ← Nat.le_iff_lt_or_eq]
    by_cases within : offset ≤ chars.length
    · rw [if_pos within, if_neg (Nat.not_lt.mpr within)]
    · have beyond := Nat.lt_of_not_le within
      rw [if_neg within, if_pos beyond, if_neg (Nat.sub_ne_zero_of_lt beyond)]

theorem locate_line (plain : '\n' ∉ front) (rest : List Char) (number offset : Nat) :
    locate number offset (split (front ++ '\n' :: rest)) =
      if offset ≤ front.length then some ⟨number, front ++ ['\n'], offset⟩
      else locate (number + 1) (offset - (front.length + 1)) (split rest) := by
  rw [split_eq_cutAfter, cutAfter_append_mark plain, locate, List.length_append, List.length_singleton,
    List.getLast?_concat, ← split_eq_cutAfter]
  simp only [ne_eq, not_true_eq_false, and_false, or_false, Nat.lt_succ_iff]

/-- The lines are gone through one by one, each of them taking its characters off the offset. -/
theorem locate_split (chars : List Char) : ∀ number offset, locate number offset (split chars) =
    if chars.length < offset then none
    else some ⟨number + (chars.take offset).count '\n', textAt chars offset, offset - startOf chars offset⟩ := by
  induction chars using mark_induction '\n' with
  | last row plain =>
    intro number offset
    have before : '\n' ∉ row.take offset := fun member => plain (List.mem_of_mem_take member)
    rw [locate_of_plain plain, List.count_eq_zero.mpr before, textAt_of_plain before, startOf_of_plain before,
      throughNewline_of_plain plain]
    rfl
  | step front rest plain ih =>
    intro number offset
    rw [locate_line plain]
    by_cases within : offset ≤ front.length
    · have before : '\n' ∉ (front ++ '\n' :: rest).take offset := by
        rw [List.take_append_of_le_length within]
        exact fun member => plain (List.mem_of_mem_take member)
      have reached : ¬(front ++ '\n' :: rest).length < offset := by
        rw [List.length_append]
        omega
      rw [if_pos within, if_neg reached, List.count_eq_zero.mpr before, textAt_of_plain before,
        startOf_of_plain before, throughNewline_append plain]
      rfl
    · obtain ⟨further, rfl⟩ : ∃ further, offset = front.length + 1 + further := ⟨offset - (front.length + 1), by omega⟩
      have same : (front ++ '\n' :: rest).length < front.length + 1 + further ↔ rest.length < further := by
        rw [List.length_append, List.length_cons]
        omega
      rw [if_neg within, Nat.add_sub_cancel_left, ih, take_behind, textAt_behind, startOf_behind,
        List.count_append, List.count_eq_zero.mpr plain, List.count_cons_self]
      simp only [same]
      congr 3 <;> omega

end

/-- A place is in a line if the source has it at all: in the line of the number that the newlines before it give, with
what that line holds, as far behind the start of the line as there are characters between. -/
theorem ofPosition_eq (source : String) (position : Nat) : ofPosition source position =
    if source.length < position then none
    else some ⟨1 + (source.toList.take position).count '\n', textAt source.toList position,
      position - startOf source.toList position⟩ := by
  rw [ofPosition, locate_split, String.length_toList]

/-- The end of a source is in its last line, which is empty where a newline comes before. -/
example : ofPosition "a\nb" 3 = some ⟨2, ['b'], 1⟩ ∧ ofPosition "a\nb\n" 4 = some ⟨3, [], 0⟩ := by decide +kernel

end SourceLine

end LetFn
