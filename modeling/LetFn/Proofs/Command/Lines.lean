import LetFn.Proofs.Diagnostic.Drawn
import LetFn.Proofs.Text.Lines

namespace LetFn

theorem joined_cons (part : String) (parts : List String) : joined (part :: parts) = part ++ joined parts :=
  rfl

namespace Loop

variable {mode : Mode} {texts : List (List Char)}

theorem turn_utf8Bytes (mode : Mode) (text : List Char) :
    turn mode (utf8Bytes text) = answer mode (String.ofList text) := by
  rw [turn, decodeUtf8_utf8Bytes]

theorem overLines_of_ok {line : List UInt8} {reply : String} (answered : turn mode line = .ok reply)
    (later : List (List UInt8)) :
    overLines mode (line :: later) = (overLines mode later).after (prompt ++ reply) := by
  rw [overLines, answered]

theorem overLines_of_error {line : List UInt8} {last : Transcript} (ends : turn mode line = .error last)
    (later : List (List UInt8)) : overLines mode (line :: later) = last.after prompt := by
  rw [overLines, ends]

/-- Lines that have answers are answered each by itself, and then the loop goes on as if it started there. -/
theorem overLines_append {reply : List Char → String}
    (answered : ∀ text ∈ texts, answer mode (String.ofList text) = .ok (reply text)) (later : List (List UInt8)) :
    overLines mode (texts.map utf8Bytes ++ later) =
      (overLines mode later).after (joined (texts.map fun text => prompt ++ reply text)) := by
  induction texts with
  | nil => exact congrArg (Transcript.mk _ · _) String.empty_append.symm
  | cons text texts ih =>
    obtain ⟨first, others⟩ := List.forall_mem_cons.mp answered
    rw [List.map_cons, List.cons_append, overLines_of_ok ((turn_utf8Bytes mode text).trans first), ih others,
      List.map_cons, joined_cons]
    exact congrArg (Transcript.mk _ · _) String.append_assoc.symm

/-- Where the loop has no answer to a text, the formatter has broken it off. -/
theorem code_of_answer_error {line : String} {last : Transcript} (ends : answer mode line = .error last) :
    last.code = 101 := by
  cases mode with
  | tokens => cases ends
  | parse =>
    rw [answer, reading] at ends
    split at ends
    · cases ends
    · rename_i errors _ _
      cases written : Diagnostic.reports line fileName errors <;> rw [written] at ends <;> cases ends
      rfl

/-- A run that ends on a line does not get to those behind. -/
theorem overLines_append_of_unanswered
    (unanswered : ∃ text ∈ texts, ∀ reply, answer mode (String.ofList text) ≠ .ok reply) (later : List (List UInt8)) :
    (overLines mode (texts.map utf8Bytes)).code = 101 ∧
      overLines mode (texts.map utf8Bytes ++ later) = overLines mode (texts.map utf8Bytes) := by
  induction texts with
  | nil =>
    obtain ⟨_, none, _⟩ := unanswered
    cases none
  | cons text texts ih =>
    obtain ⟨other, member, fails⟩ := unanswered
    rw [List.map_cons, List.cons_append]
    have turned := turn_utf8Bytes mode text
    cases first : answer mode (String.ofList text) with
    | error last =>
      rw [first] at turned
      rw [overLines_of_error turned, overLines_of_error turned]
      have code := code_of_answer_error first
      exact ⟨code, rfl⟩
    | ok reply =>
      rw [first] at turned
      have behind : other ∈ texts := (List.mem_cons.mp member).resolve_left (by rintro rfl; exact fails reply first)
      obtain ⟨code, same⟩ := ih ⟨other, behind, fails⟩
      rw [overLines_of_ok turned, overLines_of_ok turned, same]
      exact ⟨code, rfl⟩

/-- In the mode that parses lines, each report on a line of `text` can be drawn. -/
def Drawable (mode : Mode) (text : String) : Prop :=
  mode = .parse → ∀ line ∈ SourceLine.split text.toList, ∀ diagnostic ∈ (parse (String.ofList line)).2,
    Diagnostic.Drawable (String.ofList line) diagnostic

instance (mode : Mode) (text : String) : Decidable (Drawable mode text) :=
  inferInstanceAs (Decidable (_ → _))

theorem exists_answer_iff {line : String} : (∃ reply, answer mode line = .ok reply) ↔
    (mode = .parse → ∀ diagnostic ∈ (parse line).2, Diagnostic.Drawable line diagnostic) := by
  cases mode with
  | tokens => exact iff_of_true ⟨_, rfl⟩ nofun
  | parse =>
    rw [imp_iff_right rfl, ← @Diagnostic.exists_reports_iff line fileName, answer, reading]
    rcases parse line with ⟨program, _ | ⟨first, errors⟩⟩
    · exact iff_of_true ⟨_, rfl⟩ ⟨_, rfl⟩
    · have same {result : Except String String} {broken : String → Transcript} :
          (∃ reply, result.mapError broken = .ok reply) ↔ ∃ written, result = .ok written := by
        cases result <;> simp [Except.mapError]
      exact same

theorem drawable_iff {text : String} : Drawable mode text ↔
    ∀ line ∈ SourceLine.split text.toList, ∃ reply, answer mode (String.ofList line) = .ok reply := by
  simp only [exists_answer_iff, Drawable]
  exact ⟨fun all line member same => all same line member, fun all same line member => all line member same⟩

theorem lines_of_decodeUtf8 {input : List UInt8} {text : String} (decoded : decodeUtf8 input = .ok text) :
    lines input = (SourceLine.split text.toList).map utf8Bytes := by
  rw [eq_utf8Bytes_of_decodeUtf8 decoded, lines_utf8Bytes]

/-- The run over a text all of whose lines have answers. -/
theorem run_of_answers {input : List UInt8} {text : String} {reply : List Char → String}
    (decoded : decodeUtf8 input = .ok text)
    (answered : ∀ line ∈ SourceLine.split text.toList, answer mode (String.ofList line) = .ok (reply line)) :
    run mode input =
      ⟨0, joined ((SourceLine.split text.toList).map fun line => prompt ++ reply line) ++ prompt, ""⟩ := by
  have whole := overLines_append answered []
  rw [List.append_nil] at whole
  rw [run, lines_of_decodeUtf8 decoded, whole]
  rfl

theorem lines_append {first : List UInt8} {text : String} (decoded : decodeUtf8 first = .ok text)
    (ends : first = [] ∨ ∃ front, first = front ++ [10]) (second : List UInt8) :
    lines (first ++ second) = (SourceLine.split text.toList).map utf8Bytes ++ lines second := by
  rw [← lines_of_decodeUtf8 decoded]
  simp only [lines_eq_cutAfter]
  exact cutAfter_append ends second

/-- What is read in lines before does not change what is answered to lines behind, whether these are texts or not. Of
the run over the lines before, all but the last prompt is written first. That is so unless one of the lines before has
a report that cannot be drawn: then the run ends there, and nothing behind is read. -/
theorem run_append {first : List UInt8} {text : String} (mode : Mode) (decoded : decodeUtf8 first = .ok text)
    (ends : first = [] ∨ ∃ front, first = front ++ [10]) (second : List UInt8) :
    (Drawable mode text → ∃ written, run mode first = ⟨0, written ++ prompt, ""⟩ ∧
      run mode (first ++ second) =
        ⟨(run mode second).code, written ++ (run mode second).output, (run mode second).errors⟩) ∧
    (¬Drawable mode text → (run mode first).code = 101 ∧ run mode (first ++ second) = run mode first) := by
  have whole : run mode (first ++ second) =
      overLines mode ((SourceLine.split text.toList).map utf8Bytes ++ lines second) := by
    rw [run, lines_append decoded ends]
  rw [whole, drawable_iff]
  constructor
  · intro answered
    choose! reply replies using answered
    exact ⟨_, run_of_answers decoded replies, overLines_append replies (lines second)⟩
  · intro fails
    simp only [not_forall, not_exists] at fails
    obtain ⟨line, member, unanswered⟩ := fails
    rw [run, lines_of_decodeUtf8 decoded]
    exact overLines_append_of_unanswered ⟨line, member, unanswered⟩ (lines second)

/-- The report on the first line stands, though the last is no text and ends the run. -/
theorem run_append_broken_off : decodeUtf8 [41, 10] = .ok ")\n" ∧ [41, 10] = [41] ++ [(10 : UInt8)] ∧
    Drawable .parse ")\n" ∧ (run .parse ([41, 10] ++ [55, 10, 255])).code = 1 ∧
    ∃ written, run .parse [41, 10] = ⟨0, written ++ prompt, ""⟩ ∧
      run .parse ([41, 10] ++ [55, 10, 255]) = ⟨(run .parse [55, 10, 255]).code,
        written ++ (run .parse [55, 10, 255]).output, (run .parse [55, 10, 255]).errors⟩ := by
  have decoded : decodeUtf8 [41, 10] = .ok ")\n" := decodeUtf8_utf8Bytes [')', '\n']
  have fits : Drawable .parse ")\n" := by decide +kernel
  refine ⟨decoded, rfl, fits, by decide +kernel, ?_⟩
  exact (run_append .parse decoded (.inr ⟨[41], rfl⟩) [55, 10, 255]).1 fits

theorem answer_tabbed {count : Nat} (many : Diagnostic.widest ≤ count) :
    answer .parse (String.ofList (Diagnostic.tabbed count)) = .error (.brokenOff "" "") := by
  have errors := Diagnostic.parse_tabbed count
  have fails : ¬_ := (Diagnostic.drawable_tabbed_iff count).not.mpr (Nat.not_lt.mpr many)
  rw [errors, List.forall_mem_singleton, ← @Diagnostic.report_isSome_iff _ fileName,
    Option.not_isSome_iff_eq_none] at fails
  rw [answer, reading]
  rcases found : parse (String.ofList (Diagnostic.tabbed count)) with ⟨program, diagnostics⟩
  rw [found] at errors
  subst errors
  simp only [Diagnostic.reports, fails]
  rfl

theorem utf8Bytes_tabbed (count : Nat) : ∃ front, utf8Bytes (Diagnostic.tabbed count) = front ++ [10] := by
  refine ⟨utf8Bytes (List.replicate count '\t' ++ ['@']), ?_⟩
  rw [Diagnostic.tabbed, List.append_cons, utf8Bytes, List.flatMap_append]
  rfl

/-- A line with too many tabs before the place of its first report ends the run before anything is said of it. -/
theorem run_tabbed {count : Nat} (many : Diagnostic.widest ≤ count) (second : List UInt8) :
    run .parse (utf8Bytes (Diagnostic.tabbed count) ++ second) = .brokenOff prompt "" := by
  have plain : '\n' ∉ List.replicate count '\t' ++ ['@'] := by simp
  have split : SourceLine.split (Diagnostic.tabbed count) = [Diagnostic.tabbed count] := by
    rw [Diagnostic.tabbed, List.append_cons, SourceLine.split_eq_cutAfter, cutAfter_append_mark plain]
    rfl
  have ends := (turn_utf8Bytes .parse (Diagnostic.tabbed count)).trans (answer_tabbed many)
  rw [run, lines_append (decodeUtf8_utf8Bytes _) (.inr (utf8Bytes_tabbed count)), String.toList_ofList, split,
    List.map_singleton, List.singleton_append, overLines_of_error ends]
  rfl

/-- The line behind one with 65535 tabs is not answered, as it is by itself. -/
theorem run_append_tabbed :
    decodeUtf8 (utf8Bytes (Diagnostic.tabbed 65535)) = .ok (String.ofList (Diagnostic.tabbed 65535)) ∧
      (∃ front, utf8Bytes (Diagnostic.tabbed 65535) = front ++ [10]) ∧
      run .parse (utf8Bytes (Diagnostic.tabbed 65535) ++ [55, 10]) = .brokenOff prompt "" ∧
      ¬∃ written, (run .parse (utf8Bytes (Diagnostic.tabbed 65535))).output = written ++ prompt ∧
        run .parse (utf8Bytes (Diagnostic.tabbed 65535) ++ [55, 10]) = ⟨(run .parse [55, 10]).code,
          written ++ (run .parse [55, 10]).output, (run .parse [55, 10]).errors⟩ := by
  have ended := run_tabbed (Nat.le_refl 65535) [55, 10]
  refine ⟨decodeUtf8_utf8Bytes _, utf8Bytes_tabbed _, ended, ?_⟩
  rintro ⟨written, -, same⟩
  rw [ended] at same
  have answered : (run .parse [55, 10]).code = 0 := by decide +kernel
  have code : 101 = (run .parse [55, 10]).code := congrArg Transcript.code same
  rw [answered] at code
  cases code

end Loop

end LetFn
