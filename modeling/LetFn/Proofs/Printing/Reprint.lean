import Mathlib.Logic.Function.Iterate
import LetFn.Proofs.Printing.Pieces
import LetFn.Proofs.Printing.Reread

namespace LetFn

/-- Where a program is read back from its text, the text shows where each part ends. -/
theorem explicit_of_parse_text {program : Program} (faithful : program.Faithful)
    (clean : (parse program.text).2 = []) (same : (parse program.text).1.outline = program.outline) :
    program.Explicit := by
  have faithful' := parse_faithful clean
  obtain ⟨text, shown⟩ := Program.shown_of_outline faithful' faithful same
  have kinds := Program.kinds_of_text faithful'
  rw [text] at kinds
  rw [← List.append_nil (stmtKinds _)] at kinds
  have explicit := ((parse_reads clean).reread faithful' [] (by decide) (by decide) kinds).1
  exact shown.mp explicit

/-- The text of what is read in `source`. -/
def reprint (source : String) : String :=
  (parse source).1.text

/-- Printing and reading again, however often, restores what is read in a source without a complaint if and only if its
text shows where each part ends. -/
theorem parse_reprint_iff (source : String) (clean : (parse source).2 = []) :
    (parse source).1.Explicit ↔ ∀ times, (parse (reprint^[times + 1] source)).2 = [] ∧
      (parse (reprint^[times + 1] source)).1.outline = (parse source).1.outline ∧
      reprint^[times + 1] source = reprint source := by
  have faithful := parse_faithful clean
  constructor
  · intro explicit
    have restored := Program.parse_text _ ((printableStmts_iff _).mpr ⟨faithful, explicit⟩)
    have fixed : reprint (reprint source) = reprint source :=
      (Program.shown_of_outline (parse_faithful restored.1) faithful restored.2).1
    intro times
    have same : reprint^[times + 1] source = reprint source := by
      rw [Function.iterate_succ_apply]
      exact Function.iterate_fixed fixed times
    rw [same]
    exact ⟨restored.1, restored.2, rfl⟩
  · intro stable
    obtain ⟨again, same, -⟩ := stable 0
    exact explicit_of_parse_text faithful again same

/-- The conditions of the language stand in parentheses, and the text of a name as a condition in none. -/
theorem parse_reprint_bare_condition :
    (parse "if (x) \x7b y \x7d").2 = [] ∧ reprint "if (x) \x7b y \x7d" = "if x \x7b y \x7d" ∧
      (parse (reprint "if (x) \x7b y \x7d")).2 ≠ [] := by
  decide +kernel

theorem parse_reprint_calls :
    (parse "if (a == 1) \x7b f(b)(-2) \x7d else \x7b \x7d; c").2 = [] ∧
      (parse "if (a == 1) \x7b f(b)(-2) \x7d else \x7b \x7d; c").1.Explicit ∧ ∀ times,
        (parse (reprint^[times + 1] "if (a == 1) \x7b f(b)(-2) \x7d else \x7b \x7d; c")).2 = [] := by
  have clean : (parse "if (a == 1) \x7b f(b)(-2) \x7d else \x7b \x7d; c").2 = [] := by decide +kernel
  have explicit : (parse "if (a == 1) \x7b f(b)(-2) \x7d else \x7b \x7d; c").1.Explicit := by decide +kernel
  exact ⟨clean, explicit, fun times => ((parse_reprint_iff _ clean).mp explicit times).1⟩

end LetFn
