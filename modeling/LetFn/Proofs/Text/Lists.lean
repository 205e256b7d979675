import Mathlib.Data.List.DropRight

namespace LetFn

variable {α : Type} {p : α → Bool} {a : α} {front back : List α}

theorem takeWhile_append_cons (stops : p a = false) (front back : List α) :
    (front ++ a :: back).takeWhile p = front.takeWhile p := by
  induction front with
  | nil => exact List.takeWhile_cons_of_neg (by simp [stops])
  | cons b front ih => rw [List.cons_append, List.takeWhile_cons, List.takeWhile_cons, ih]

theorem takeWhile_eq_front_iff : (front ++ back).takeWhile p = front ↔
    (∀ b ∈ front, p b = true) ∧ ∀ b ∈ back.head?, p b = false := by
  constructor
  · intro same
    have all : ∀ b ∈ front, p b = true := by
      rw [← same]
      exact List.all_eq_true.mp List.all_takeWhile
    rw [List.takeWhile_append_of_pos all, List.append_right_eq_self] at same
    refine ⟨all, fun b first => ?_⟩
    cases back with
    | nil => cases first
    | cons c back =>
      cases first
      by_contra goes
      rw [List.takeWhile_cons_of_pos (Bool.not_eq_false _ ▸ goes)] at same
      cases same
  · rintro ⟨all, ends⟩
    rw [List.takeWhile_append_of_pos all]
    cases back with
    | nil => rw [List.takeWhile_nil, List.append_nil]
    | cons b back => rw [List.takeWhile_cons_of_neg (by simp [ends b rfl]), List.append_nil]

theorem rdropWhile_append_cons (stops : p a = false) (front back : List α) :
    (front ++ a :: back).rdropWhile p = front ++ a :: back.rdropWhile p := by
  induction back using List.reverseRecOn with
  | nil => exact List.rdropWhile_concat_neg p front a (by simp [stops])
  | append_singleton back last ih =>
    rw [← List.cons_append, ← List.append_assoc, List.rdropWhile_concat, List.rdropWhile_concat, ih]
    split
    · rfl
    · rw [List.append_assoc, List.cons_append]

theorem replicate_append_cons {x y : α} {j k : Nat} (other : x ≠ a) (other' : y ≠ a)
    (same : List.replicate j a ++ x :: front = List.replicate k a ++ y :: back) : j = k ∧ x = y ∧ front = back := by
  induction j generalizing k with
  | zero =>
    cases k with
    | zero =>
      simp only [List.replicate_zero, List.nil_append, List.cons.injEq] at same
      exact ⟨rfl, same⟩
    | succ k =>
      simp only [List.replicate_zero, List.nil_append, List.replicate_succ, List.cons_append, List.cons.injEq] at same
      exact absurd same.1 other
  | succ j ih =>
    cases k with
    | zero =>
      simp only [List.replicate_zero, List.nil_append, List.replicate_succ, List.cons_append, List.cons.injEq] at same
      exact absurd same.1.symm other'
    | succ k =>
      simp only [List.replicate_succ, List.cons_append, List.cons.injEq, true_and] at same
      obtain ⟨rfl, rest⟩ := ih same
      exact ⟨rfl, rest⟩

theorem flatMap_nil_append (rows : List (List α)) : rows.flatMap ([] ++ ·) = rows.flatten := by
  simp [List.flatMap_id']

theorem idxOf_append_cons [DecidableEq α] (other : a ∉ front) (back : List α) :
    (front ++ a :: back).idxOf a = front.length := by
  rw [List.idxOf_append_of_notMem other, List.idxOf_cons_self, Nat.add_zero]

section Cut

variable [DecidableEq α] {mark : α}

/-- The parts of a row, each with the mark that ends it. The last part may have none. -/
def cutAfter (mark : α) : List α → List (List α)
  | [] => []
  | a :: rest =>
    if a = mark then [a] :: cutAfter mark rest
    else (a :: (cutAfter mark rest).headD []) :: (cutAfter mark rest).tail

theorem cutAfter_mark (rest : List α) : cutAfter mark (mark :: rest) = [mark] :: cutAfter mark rest :=
  if_pos rfl

theorem cutAfter_cons {a : α} (other : a ≠ mark) (rest : List α) : cutAfter mark (a :: rest) =
    (a :: (cutAfter mark rest).headD []) :: (cutAfter mark rest).tail :=
  if_neg other

theorem cutAfter_ne_nil {row : List α} (some : row ≠ []) : cutAfter mark row ≠ [] := by
  cases row with
  | nil => exact absurd rfl some
  | cons a rest =>
    by_cases same : a = mark
    · rw [same, cutAfter_mark]
      exact List.cons_ne_nil _ _
    · rw [cutAfter_cons same]
      exact List.cons_ne_nil _ _

theorem cutAfter_append_of_plain {front : List α} (plain : mark ∉ front) (some : front ≠ []) (rest : List α) :
    cutAfter mark (front ++ rest) = (front ++ (cutAfter mark rest).headD []) :: (cutAfter mark rest).tail := by
  induction front with
  | nil => exact absurd rfl some
  | cons a front ih =>
    have other : a ≠ mark := fun same => plain (same ▸ List.mem_cons_self)
    rw [List.cons_append, cutAfter_cons other]
    cases front with
    | nil => rfl
    | cons b front =>
      rw [ih (fun member => plain (List.mem_cons_of_mem a member)) (List.cons_ne_nil b front)]
      rfl

theorem cutAfter_of_plain {row : List α} (plain : mark ∉ row) (some : row ≠ []) : cutAfter mark row = [row] := by
  have whole := cutAfter_append_of_plain plain some []
  rw [List.append_nil] at whole
  rw [whole]
  exact congrArg (· :: []) (List.append_nil row)

/-- The first part goes up to the first mark. -/
theorem cutAfter_append_mark {front : List α} (plain : mark ∉ front) (rest : List α) :
    cutAfter mark (front ++ mark :: rest) = (front ++ [mark]) :: cutAfter mark rest := by
  cases front with
  | nil => exact cutAfter_mark rest
  | cons a front => rw [cutAfter_append_of_plain plain (List.cons_ne_nil a front), cutAfter_mark]; rfl

/-- Behind a mark the parts are those of what follows alone. -/
theorem cutAfter_append {first : List α} (ends : first = [] ∨ ∃ front, first = front ++ [mark]) (second : List α) :
    cutAfter mark (first ++ second) = cutAfter mark first ++ cutAfter mark second := by
  rcases ends with rfl | ⟨front, rfl⟩
  · rfl
  · induction front with
    | nil => exact (cutAfter_mark second).trans (congrArg (· ++ _) (cutAfter_mark []).symm)
    | cons a front ih =>
      by_cases same : a = mark
      · subst same
        simp only [List.cons_append, cutAfter_mark, ih]
      · have some : cutAfter mark (front ++ [mark]) ≠ [] := cutAfter_ne_nil (List.concat_ne_nil mark front)
        obtain ⟨part, parts, cut⟩ := List.exists_cons_of_ne_nil some
        simp only [List.cons_append, cutAfter_cons same, ih, cut, List.headD_cons, List.tail_cons]

/-- A row is one without the mark, or there is a first mark in it and a row behind that. -/
@[elab_as_elim]
theorem mark_induction (mark : α) {motive : List α → Prop} (last : ∀ row, mark ∉ row → motive row)
    (step : ∀ front rest, mark ∉ front → motive rest → motive (front ++ mark :: rest)) (row : List α) : motive row := by
  by_cases found : mark ∈ row
  · obtain ⟨front, rest, whole, plain⟩ := List.eq_append_cons_of_mem found
    have shorter : rest.length < row.length := by
      rw [whole, List.length_append, List.length_cons]
      omega
    rw [whole]
    exact step front rest plain (mark_induction mark last step rest)
  · exact last row found
termination_by row.length

end Cut

end LetFn
