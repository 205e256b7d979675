import LetFn.Text.Decimal

namespace LetFn.Text

theorem natural?_eq_some_iff {text : List Char} {value : Nat} : natural? text = some value ↔
    text ≠ [] ∧ (∀ c ∈ text, c.isDigit = true) ∧ digitsValue text = value := by
  unfold natural?
  rw [Option.ite_none_right_eq_some, List.all_eq_true, Option.some.injEq, and_assoc]

theorem natural?_head {c : Char} {digits : List Char} {value : Nat} (found : natural? (c :: digits) = some value) :
    c.isDigit = true :=
  (natural?_eq_some_iff.mp found).2.1 c List.mem_cons_self

theorem digitsValue_of_natural? {digits : List Char} {value : Nat} (found : natural? digits = some value) :
    digitsValue digits = value :=
  (natural?_eq_some_iff.mp found).2.2

/-- A row of digits has no sign in front, so that only its size decides whether it is a number of 64 bits. -/
theorem integer64?_of_natural? {text : String} {value : Nat} (found : natural? text.toList = some value) :
    integer64? text = if value ≤ 0x7fffffffffffffff then some (value : Int) else none := by
  have fits : (some (value : Int)).filter fits64 =
      if value ≤ 0x7fffffffffffffff then some (value : Int) else none := by
    by_cases small : value ≤ 0x7fffffffffffffff
    · rw [if_pos small]
      exact Option.filter_eq_some_iff.mpr ⟨rfl, by simp only [fits64, Bool.and_eq_true, decide_eq_true_eq]; omega⟩
    · rw [if_neg small]
      refine Option.filter_eq_none_iff.mpr fun other same => ?_
      cases same
      simp only [fits64, Bool.and_eq_true, decide_eq_true_eq]
      omega
  rw [← fits]
  unfold integer64?
  split
  · rename_i digits minus
    rw [minus] at found
    exact absurd (natural?_head found) (by decide)
  · rename_i digits plus
    rw [plus] at found
    exact absurd (natural?_head found) (by decide)
  · rw [found]
    rfl

end LetFn.Text
