import LetFn.Proofs.Diagnostic.Drawn
import LetFn.Proofs.Parser.Layout

namespace LetFn

namespace SourceLine

variable {chars : List Char} {position : Nat} {c : Char}

/-- The line around the character at `position`. -/
theorem textAt_of_getElem? (there : chars[position]? = some c) :
    ∃ front back, textAt chars position = front ++ throughNewline (c :: back) ∧ '\n' ∉ front ∧
      front.length = position - startOf chars position := by
  obtain ⟨within, rfl⟩ := List.getElem?_eq_some_iff.mp there
  refine ⟨_, chars.drop (position + 1), ?_, plain_before chars position, ?_⟩
  · rw [textAt, List.drop_eq_getElem_cons within]
  · rw [List.length_drop, List.length_take_of_le (Nat.le_of_lt within)]

theorem ofPosition_of_le {source : String} (reached : position ≤ source.toList.length) :
    ∃ line, ofPosition source position = some line :=
  ⟨_, (locate_split _ _ _).trans (if_neg (Nat.not_lt.mpr reached))⟩

/-- A source has the place of each of its tokens. -/
theorem ofPosition_of_mem {source : String} {token : Token} (member : token ∈ tokenize source) :
    ∃ line, ofPosition source token.span.start = some line := by
  refine ofPosition_of_le ?_
  rcases mem_tokenize_iff.mp member with ahead | rfl
  · obtain ⟨front, behind, same, span, -⟩ := formed_of_mem ahead
    rw [same, span, List.length_append]
    exact Nat.le_add_right _ _
  · rw [String.length_toList]
    exact Nat.le_refl _

end SourceLine

namespace Diagnostic

/-- What stands left of the bar where a line has no number. -/
def margin (line : SourceLine) : List Char :=
  List.replicate ((toString line.number).length + 1) ' '

/-- What is shown of a line. -/
def shown (line : SourceLine) : List Char :=
  (line.text.drop (indent line)).rdropWhile Text.isWhiteSpace

/-- The first line of a drawing, which only starts the gutter. -/
def gutterRow (line : SourceLine) : List Char :=
  margin line ++ ['|']

/-- The second, with the number and what is shown. -/
def lineRow (line : SourceLine) : List Char :=
  (toString line.number).toList ++ ' ' :: '|' :: ' ' :: shown line

/-- The third, with the arrow. -/
def arrowRow (line : SourceLine) : List Char :=
  margin line ++ '|' :: ' ' :: (List.replicate (line.column - indent line) '-' ++ ['^'])

theorem drawing_toList (line : SourceLine) : (drawing line).toList =
    gutterRow line ++ '\n' :: (lineRow line ++ '\n' :: (arrowRow line ++ ['\n'])) := by
  simp [drawing, arrowWidth, run, gutterRow, lineRow, arrowRow, margin, shown, Text.dropTrailingWhiteSpace,
    List.rdropWhile]

theorem number_plain {c : Char} (sign : c.isDigit = false) (number : Nat) : c ∉ Nat.toDigits 10 number := by
  intro member
  rw [Nat.isDigit_of_mem_toDigits (by decide) (by decide) member] at sign
  cases sign

theorem margin_plain {c : Char} (sign : c ≠ ' ') (line : SourceLine) : c ∉ margin line :=
  fun member => sign (List.eq_of_mem_replicate member)

theorem split_drawing {line : SourceLine} (plain : '\n' ∉ shown line) : SourceLine.split (drawing line).toList =
    [gutterRow line ++ ['\n'], lineRow line ++ ['\n'], arrowRow line ++ ['\n']] := by
  have margin := margin_plain (show '\n' ≠ ' ' by decide) line
  have number := number_plain (show '\n'.isDigit = false by decide) line.number
  have gutter : '\n' ∉ gutterRow line := by simp [gutterRow, margin]
  have row : '\n' ∉ lineRow line := by simp [lineRow, number, plain]
  have arrow : '\n' ∉ arrowRow line := by simp [arrowRow, margin]
  rw [SourceLine.split_eq_cutAfter, drawing_toList, cutAfter_append_mark gutter, cutAfter_append_mark row,
    cutAfter_append_mark arrow]
  rfl

/-- The last rows of a text point at a character: an empty gutter, a line that is shown under its number, and an arrow
whose only head is below the character. The gutters end in one column. -/
structure Points (gutter row arrow : List Char) (c : Char) : Prop where
  blank : ∀ d ∈ gutter, d = ' ' ∨ d = '|'
  bars : gutter.count '|' = 1 ∧ arrow.count '|' = 1
  numbered : ∃ (number : Nat) (text : List Char), row = (toString number).toList ++ (" | ".toList ++ text)
  aligned : gutter.idxOf '|' = row.idxOf '|' ∧ arrow.idxOf '|' = row.idxOf '|'
  head : arrow.count '^' = 1
  below : row[arrow.idxOf '^']? = some c

theorem points_rows {line : SourceLine} {c : Char} (there : (shown line)[line.column - indent line]? = some c) :
    Points (gutterRow line) (lineRow line) (arrowRow line) c := by
  have margin {d : Char} (sign : d ≠ ' ') := margin_plain sign line
  have number := number_plain (show '|'.isDigit = false by decide) line.number
  have width : (Diagnostic.margin line).length = ((toString line.number).toList ++ [' ']).length := by
    rw [Diagnostic.margin, List.length_replicate, List.length_append, String.length_toList, List.length_singleton]
  have gutter : (gutterRow line).idxOf '|' = (Diagnostic.margin line).length :=
    idxOf_append_cons (margin (by decide)) []
  have row : (lineRow line).idxOf '|' = (Diagnostic.margin line).length := by
    rw [lineRow, List.append_cons, width]
    exact idxOf_append_cons (by simp [number]) _
  have arrow : (arrowRow line).idxOf '|' = (Diagnostic.margin line).length :=
    idxOf_append_cons (margin (by decide)) _
  have head : (arrowRow line).idxOf '^' = (Diagnostic.margin line).length + (2 + (line.column - indent line)) := by
    have dashes : '^' ∉ List.replicate (line.column - indent line) '-' :=
      fun member => absurd (List.eq_of_mem_replicate member) (by decide)
    have front : '^' ∉ Diagnostic.margin line ++ '|' :: ' ' :: List.replicate (line.column - indent line) '-' := by
      simp [margin, dashes]
    have whole := idxOf_append_cons front []
    rw [List.append_assoc] at whole
    refine whole.trans ?_
    rw [List.length_append, List.length_cons, List.length_cons, List.length_replicate, Nat.add_comm 2]
  refine ⟨?_, ?_, ?_, ?_, ?_, ?_⟩
  · intro d member
    rcases List.mem_append.mp member with blank | bar
    · exact .inl (List.eq_of_mem_replicate blank)
    · exact .inr (List.mem_singleton.mp bar)
  · simp [gutterRow, arrowRow, List.count_eq_zero.mpr (margin (show '|' ≠ ' ' by decide)), List.count_replicate]
  · exact ⟨line.number, shown line, rfl⟩
  · exact ⟨gutter.trans row.symm, arrow.trans row.symm⟩
  · simp [arrowRow, List.count_eq_zero.mpr (margin (show '^' ≠ ' ' by decide)), List.count_replicate]
  · have before : (Diagnostic.margin line).length + (2 + (line.column - indent line)) =
        ((toString line.number).toList ++ [' ', '|', ' ']).length + (line.column - indent line) := by
      simp only [width, List.length_append, List.length_cons, List.length_nil]
      omega
    have whole : lineRow line = (toString line.number).toList ++ [' ', '|', ' '] ++ shown line := by
      rw [List.append_assoc]
      rfl
    rw [head, before, whole, List.getElem?_append_right (Nat.le_add_right _ _), Nat.add_sub_cancel_left, there]

/-- The spaces in front of a character and the white space behind it are all that is taken away around it. -/
theorem shown_of_text {line : SourceLine} {front back : List Char} {c : Char} (text : line.text = front ++ c :: back)
    (seen : Text.isWhiteSpace c = false) : indent line ≤ front.length ∧
      shown line = front.drop (indent line) ++ c :: back.rdropWhile Text.isWhiteSpace := by
  have other : decide (c = ' ') = false := decide_eq_false fun space => by
    rw [space] at seen
    exact absurd seen (by decide)
  have spaces : indent line = (front.takeWhile (· = ' ')).length := by
    rw [indent, text, takeWhile_append_cons (p := fun d => decide (d = ' ')) other]
  have within : indent line ≤ front.length := spaces ▸ (List.takeWhile_prefix _).length_le
  refine ⟨within, ?_⟩
  rw [shown, text, List.drop_append_of_le_length within, rdropWhile_append_cons seen]

/-- The newline that ends a line is white space at its end. -/
theorem trimmed_plain (chars : List Char) : '\n' ∉ (throughNewline chars).rdropWhile Text.isWhiteSpace := by
  obtain ⟨row, plain, ends | ends⟩ := throughNewline_cases chars
  · rw [ends]
    exact fun member => plain ((List.rdropWhile_prefix _ row).subset member)
  · rw [ends, List.rdropWhile_concat_pos _ _ _ (by decide)]
    exact fun member => plain ((List.rdropWhile_prefix _ row).subset member)

/-- A character that is no white space is shown, as far behind the spaces in front as it stands in its line, and all
that is shown with it is on one line. -/
theorem shown_of_ofPosition {source : String} {position : Nat} {line : SourceLine} {c : Char}
    (found : SourceLine.ofPosition source position = some line) (there : source.toList[position]? = some c)
    (seen : Text.isWhiteSpace c = false) :
    (shown line)[line.column - indent line]? = some c ∧ '\n' ∉ shown line := by
  have within := (List.getElem?_eq_some_iff.mp there).1
  rw [SourceLine.ofPosition, SourceLine.locate_split, if_neg (Nat.lt_asymm within)] at found
  have same := Option.some.inj found
  obtain ⟨front, back, around, plain, length⟩ := SourceLine.textAt_of_getElem? there
  have other : c ≠ '\n' := fun newline => by
    rw [newline] at seen
    exact absurd seen (by decide)
  have text : line.text = front ++ c :: throughNewline back := by
    rw [throughNewline, if_neg other] at around
    rw [← same, ← around]
  have column : line.column = front.length := by rw [← same, length]
  obtain ⟨spaces, shows⟩ := shown_of_text text seen
  rw [shows, column]
  constructor
  · rw [← List.length_drop, List.getElem?_append_right (Nat.le_refl _), Nat.sub_self, List.getElem?_cons_zero]
  · simp only [List.mem_append, List.mem_cons, not_or]
    exact ⟨fun member => plain (List.mem_of_mem_drop member), Ne.symm other, trimmed_plain back⟩

/-- The report on a place, as a text, points at `c`. -/
def PointsAt (report : String) (c : Char) : Prop :=
  ∃ above gutter row arrow, SourceLine.split report.toList =
    above ++ [gutter ++ ['\n'], row ++ ['\n'], arrow ++ ['\n']] ∧ Points gutter row arrow c

theorem pointsAt_heading (problem : Problem) (file : String) {line : SourceLine} {c : Char}
    (there : (shown line)[line.column - indent line]? = some c) (plain : '\n' ∉ shown line) :
    PointsAt (heading problem file ++ drawing line) c := by
  have ends : ∃ front, (heading problem file).toList = front ++ ['\n'] := by
    rw [heading, String.toList_append]
    exact ⟨_, rfl⟩
  refine ⟨SourceLine.split (heading problem file).toList, _, _, _, ?_, points_rows there⟩
  rw [String.toList_append, SourceLine.split_eq_cutAfter, cutAfter_append (.inr ends),
    ← SourceLine.split_eq_cutAfter, ← SourceLine.split_eq_cutAfter, split_drawing plain]

/-- A report points at the character that its diagnostic is placed at, whatever the line around it is, unless that is
white space or the arrow too wide; and on whatever is wrong with a source, the report shows a line of it if its arrow
can be drawn at all. -/
theorem report_points (source file : String) :
    (∀ diagnostic c, source.toList[diagnostic.span.start]? = some c → Text.isWhiteSpace c = false →
      Drawable source diagnostic → ∃ text, report diagnostic source file = some text ∧ PointsAt text c) ∧
    ∀ diagnostic ∈ (parse source).2, ∃ line, SourceLine.ofPosition source diagnostic.span.start = some line ∧
      report diagnostic source file =
        if arrowWidth line ≤ widest then some (heading diagnostic.problem file ++ drawing line) else none := by
  constructor
  · intro diagnostic c there seen fits
    obtain ⟨line, found⟩ := SourceLine.ofPosition_of_le (Nat.le_of_lt (List.getElem?_eq_some_iff.mp there).1)
    obtain ⟨below, plain⟩ := shown_of_ofPosition found there seen
    refine ⟨_, (report_of_ofPosition found).trans (if_pos (fits line found)), ?_⟩
    exact pointsAt_heading diagnostic.problem file below plain
  · intro diagnostic member
    obtain ⟨token, there, place⟩ := complaint_at_token member
    obtain ⟨line, found⟩ := SourceLine.ofPosition_of_mem there
    rw [place] at found
    exact ⟨line, found, report_of_ofPosition found⟩

/-- Behind a space and a tab, at a character that looks like the bar of the gutter. -/
theorem report_points_bar : Text.isWhiteSpace '|' = false ∧ "x\n \t|".toList[4]? = some '|' ∧
    Drawable "x\n \t|" ⟨.noPrefixRule .illegal, ⟨4, 5⟩⟩ ∧
    (⟨.noPrefixRule .illegal, ⟨4, 5⟩⟩ : Diagnostic) ∈ (parse "x\n \t|").2 ∧
    (∃ text, report ⟨.noPrefixRule .illegal, ⟨4, 5⟩⟩ "x\n \t|" "x.mk" = some text ∧ PointsAt text '|') ∧
    ∃ line, SourceLine.ofPosition "x\n \t|" 4 = some line ∧
      report ⟨.noPrefixRule .illegal, ⟨4, 5⟩⟩ "x\n \t|" "x.mk" =
        if arrowWidth line ≤ widest then some (heading (.noPrefixRule .illegal) "x.mk" ++ drawing line) else none := by
  obtain ⟨points, shows⟩ := report_points "x\n \t|" "x.mk"
  have seen : Text.isWhiteSpace '|' = false := by decide
  have there : "x\n \t|".toList[4]? = some '|' := by decide
  have fits : Drawable "x\n \t|" ⟨.noPrefixRule .illegal, ⟨4, 5⟩⟩ := by decide +kernel
  have member : (⟨.noPrefixRule .illegal, ⟨4, 5⟩⟩ : Diagnostic) ∈ (parse "x\n \t|").2 := by decide +kernel
  exact ⟨seen, there, fits, member, points _ _ there seen fits, shows _ member⟩

example : excerpt ⟨2, " \t|".toList, 2⟩ = some "  |\n2 | \t|\n  | -^\n" ∧ excerpt ⟨2, [], 65535⟩ = none := by
  decide +kernel

end Diagnostic

end LetFn
