import LetFn.Diagnostic.Report
import LetFn.Parse
import LetFn.Proofs.Lexing.Laid
import LetFn.Proofs.Text.SourceLine

namespace LetFn.Diagnostic

/-- The arrow below the place of a diagnostic is not too wide, as it never is at a column below the limit. -/
def Drawable (source : String) (diagnostic : Diagnostic) : Prop :=
  ∀ line ∈ SourceLine.ofPosition source diagnostic.span.start, arrowWidth line ≤ widest

instance (source : String) (diagnostic : Diagnostic) : Decidable (Drawable source diagnostic) :=
  inferInstanceAs (Decidable (∀ line ∈ SourceLine.ofPosition source diagnostic.span.start, arrowWidth line ≤ widest))

variable {source file : String} {diagnostic : Diagnostic}

theorem report_of_ofPosition {line : SourceLine}
    (found : SourceLine.ofPosition source diagnostic.span.start = some line) : diagnostic.report source file =
      if arrowWidth line ≤ widest then some (heading diagnostic.problem file ++ drawing line) else none := by
  rw [report, found]
  exact apply_ite (Option.map (heading diagnostic.problem file ++ ·)) _ _ _

theorem report_isSome_iff : (diagnostic.report source file).isSome ↔ Drawable source diagnostic := by
  unfold Drawable
  cases found : SourceLine.ofPosition source diagnostic.span.start with
  | none =>
    rw [report, found]
    exact iff_of_true rfl nofun
  | some line =>
    rw [report_of_ofPosition found]
    by_cases fits : arrowWidth line ≤ widest
    · exact iff_of_true (by rw [if_pos fits]; rfl) (by rintro _ ⟨⟩; exact fits)
    · exact iff_of_false (by simp [fits]) fun all => fits (all line rfl)

/-- All of several reports are written if and only if each of them can be drawn. -/
theorem exists_reports_iff {diagnostics : List Diagnostic} :
    (∃ written, reports source file diagnostics = .ok written) ↔
      ∀ diagnostic ∈ diagnostics, Drawable source diagnostic := by
  induction diagnostics with
  | nil => exact iff_of_true ⟨_, rfl⟩ nofun
  | cons first others ih =>
    rw [List.forall_mem_cons, ← ih, ← report_isSome_iff, reports]
    cases first.report source file with
    | none => simp
    | some text => cases reports source file others <;> simp

/-- A line whose only token stands behind `count` tabs and is not part of the language. -/
def tabbed (count : Nat) : List Char :=
  List.replicate count '\t' ++ ['@', '\n']

theorem ofString_tabbed (count : Nat) : TokenStream.ofString (String.ofList (tabbed count)) =
    ⟨[⟨.illegal, "@", ⟨count, count + 1⟩⟩], count + 2⟩ := by
  have tabs : ∀ c ∈ List.replicate count '\t', isBlank c = true := fun c member => by
    rw [List.eq_of_mem_replicate member]
    rfl
  have sign : Formed .illegal ['@'] ['\n'].head? := .illegal (by decide) (by decide) (by decide) (by decide)
  have newline : ∀ c ∈ ['\n'], isBlank c = true := List.forall_mem_singleton.mpr rfl
  have laid : Laid 0 (tabbed count) [⟨.illegal, "@", ⟨count, count + 1⟩⟩] := by
    have whole := @Laid.token 0 _ _ _ _ _ tabs sign (.blanks newline)
    rwa [List.length_replicate, Nat.zero_add] at whole
  rw [← String.toList_ofList (l := tabbed count)] at laid
  have length : (String.ofList (tabbed count)).length = count + 2 := by
    rw [String.length_ofList, tabbed, List.length_append, List.length_replicate]
    rfl
  rw [laid_iff.mp laid, ← length]
  rfl

theorem parse_tabbed (count : Nat) : (parse (String.ofList (tabbed count))).2 =
    [⟨.noPrefixRule .illegal, ⟨count, count + 1⟩⟩] := by
  have run : Action.program .standard (ParseState.ofString (String.ofList (tabbed count))).fuel
      (.ofString (String.ofList (tabbed count))) =
        .ok ⟨[]⟩ ⟨⟨[], count + 2⟩, [⟨.noPrefixRule .illegal, ⟨count, count + 1⟩⟩], 1⟩ := by
    rw [ParseState.ofString, ofString_tabbed]
    rfl
  rw [parse_eq_of_run run]

theorem ofPosition_tabbed (count : Nat) :
    SourceLine.ofPosition (String.ofList (tabbed count)) count = some ⟨1, tabbed count, count⟩ := by
  have tabs : (tabbed count).take count = List.replicate count '\t' := List.take_left' List.length_replicate
  have plain : '\n' ∉ (tabbed count).take count := by
    rw [tabs]
    exact fun member => absurd (List.eq_of_mem_replicate member) (by decide)
  have within : ¬(tabbed count).length < count := by
    rw [tabbed, List.length_append, List.length_replicate]
    omega
  have text : throughNewline (tabbed count) = tabbed count := by
    have front : '\n' ∉ List.replicate count '\t' := tabs ▸ plain
    rw [tabbed, throughNewline_append front]
    rfl
  rw [SourceLine.ofPosition_eq, String.toList_ofList, String.length_ofList, if_neg within,
    SourceLine.textAt_of_plain plain, SourceLine.startOf_of_plain plain, text, List.count_eq_zero.mpr plain]
  rfl

/-- On such a line there is a report as long as the tabs are fewer than the greatest width. -/
theorem drawable_tabbed_iff (count : Nat) :
    (∀ diagnostic ∈ (parse (String.ofList (tabbed count))).2, Drawable (String.ofList (tabbed count)) diagnostic) ↔
      count < widest := by
  have none : indent ⟨1, tabbed count, count⟩ = 0 := by
    rw [indent, tabbed]
    cases count <;> rfl
  rw [parse_tabbed, List.forall_mem_singleton, Drawable, ofPosition_tabbed]
  simp only [Option.mem_some_iff, forall_eq', arrowWidth, none, Nat.sub_zero]
  exact Nat.succ_le_iff

end LetFn.Diagnostic
