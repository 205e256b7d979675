import LetFn.Proofs.Lexing.Pieces

namespace LetFn

/-- What is printed of a value shows the value, as far as `outline` keeps it, and where it ends, whatever other value
of the same sort is printed instead and whatever follows in either case that may follow. -/
def Readable {α β : Type} (pieces : α → List Piece) (outline : α → β) (fine : α → Prop) (follows : List Piece → Prop)
    (value : α) : Prop :=
  ∀ other rest rest', fine other → follows rest → follows rest' → pieces value ++ rest = pieces other ++ rest' →
    outline value = outline other ∧ rest = rest'

section

variable {α β : Type} {pieces : α → List Piece} {outline : α → β} {fine : α → Prop} {follows : List Piece → Prop}
  {mark rest rest' : List Piece}

/-- What follows a row of values with `mark` before each is not taken for one more of them. -/
structure Closes (pieces : α → List Piece) (fine : α → Prop) (follows : List Piece → Prop) (mark rest : List Piece) :
    Prop where
  follows : follows rest
  apart : ∀ value more, fine value → mark ++ (pieces value ++ more) ≠ rest

theorem readable_rows (between : ∀ value more, fine value → follows (mark ++ (pieces value ++ more)))
    (closes : Closes pieces fine follows mark rest) (closes' : Closes pieces fine follows mark rest') :
    ∀ {values others : List α}, (∀ value ∈ values, fine value ∧ Readable pieces outline fine follows value) →
      (∀ other ∈ others, fine other) →
      values.flatMap (mark ++ pieces ·) ++ rest = others.flatMap (mark ++ pieces ·) ++ rest' →
      values.map outline = others.map outline ∧ rest = rest' := by
  have follow : ∀ {values : List α} {rest}, (∀ value ∈ values, fine value) →
      Closes pieces fine follows mark rest → follows (values.flatMap (mark ++ pieces ·) ++ rest) := by
    intro values rest good closes
    cases values with
    | nil => exact closes.follows
    | cons first values =>
      rw [List.flatMap_cons, List.append_assoc, List.append_assoc]
      exact between _ _ (good first List.mem_cons_self)
  intro values
  induction values with
  | nil =>
    intro others _ good same
    cases others with
    | nil => exact ⟨rfl, same⟩
    | cons second others =>
      rw [List.flatMap_cons, List.append_assoc, List.append_assoc] at same
      exact absurd same.symm (closes.apart _ _ (good second List.mem_cons_self))
  | cons first values ih =>
    intro others readable good same
    obtain ⟨⟨_, one⟩, more⟩ := List.forall_mem_cons.mp readable
    rw [List.flatMap_cons, List.append_assoc, List.append_assoc] at same
    cases others with
    | nil => exact absurd same (closes'.apart _ _ (readable first List.mem_cons_self).1)
    | cons second others =>
      obtain ⟨good', goods⟩ := List.forall_mem_cons.mp good
      rw [List.flatMap_cons, List.append_assoc, List.append_assoc] at same
      obtain ⟨head, tail⟩ := one _ _ _ good' (follow (fun value member => (more value member).1) closes)
        (follow goods closes') (List.append_cancel_left same)
      obtain ⟨back, last⟩ := ih more goods tail
      rw [List.map_cons, List.map_cons, head, back]
      exact ⟨rfl, last⟩

/-- Values with `mark` between neighbours. -/
def separatedPieces (pieces : α → List Piece) (mark : List Piece) : List α → List Piece
  | [] => []
  | first :: others => pieces first ++ others.flatMap (mark ++ pieces ·)

theorem readable_separated (between : ∀ value more, fine value → follows (mark ++ (pieces value ++ more)))
    (closes : Closes pieces fine follows mark rest) (closes' : Closes pieces fine follows mark rest')
    (apart : ∀ value more, fine value → pieces value ++ more ≠ rest ∧ pieces value ++ more ≠ rest')
    {values others : List α} (readable : ∀ value ∈ values, fine value ∧ Readable pieces outline fine follows value)
    (good : ∀ other ∈ others, fine other)
    (same : separatedPieces pieces mark values ++ rest = separatedPieces pieces mark others ++ rest') :
    values.map outline = others.map outline ∧ rest = rest' := by
  cases values with
  | nil =>
    cases others with
    | nil => exact ⟨rfl, same⟩
    | cons second others =>
      rw [separatedPieces, separatedPieces, List.append_assoc] at same
      exact absurd same.symm (apart _ _ (good second List.mem_cons_self)).1
  | cons first values =>
    cases others with
    | nil =>
      rw [separatedPieces, separatedPieces, List.append_assoc] at same
      exact absurd same (apart _ _ (readable first List.mem_cons_self).1).2
    | cons second others =>
      -- with a mark before the first value too, these are rows
      have rows : (first :: values).flatMap (mark ++ pieces ·) ++ rest =
          (second :: others).flatMap (mark ++ pieces ·) ++ rest' := by
        rw [List.flatMap_cons, List.flatMap_cons, List.append_assoc, List.append_assoc]
        simpa only [separatedPieces, List.append_assoc] using congrArg (mark ++ ·) same
      exact readable_rows between closes closes' readable good rows

end

end LetFn
