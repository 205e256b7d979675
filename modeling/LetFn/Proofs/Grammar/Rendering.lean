import LetFn.Proofs.Grammar.Complete
import LetFn.Proofs.Grammar.Sound
import LetFn.Proofs.Parser.Respan

namespace LetFn

/-- The tokens of `source` as kinds and literals. -/
def TokenStream.bareOfString (source : String) : TokenStream :=
  (ofString source).respan .forget

theorem TokenStream.bareOfString_proper (source : String) : (bareOfString source).Proper := by
  intro token member
  obtain ⟨original, there, rfl⟩ := List.mem_map.mp member
  exact (ofString_spec source).1 original there

/-- The run over the bare tokens of `source` comes to what `parse` gives, without the spans. -/
theorem parse_bare (source : String) :
    ∃ later, Action.program .standard (ParseState.start (.bareOfString source)).fuel (.start (.bareOfString source)) =
        .ok (parse source).1.bare later ∧ later.errors = (parse source).2.map (Diagnostic.respan .forget) := by
  obtain ⟨program, later, done⟩ := (ParseState.ofString source).program_ok
  have moved := Action.moves_program .standard Motion.forget.alone (ParseState.ofString source).fuel (.ofString source)
  rw [done] at moved
  rw [parse_eq_of_run done]
  refine ⟨later.place Motion.forget.alone, ?_, rfl⟩
  rw [← (ParseState.ofString source).fuel_place Motion.forget.alone] at moved
  exact moved

/-- What the grammar reads out of the bare tokens of a source, the parser finds in the source. -/
theorem parse_of_reads {source : String} {program : Program}
    (read : Reads (.statements program.statements) (TokenStream.bareOfString source).ahead []) :
    (parse source).2 = [] ∧ (parse source).1.bare = program := by
  obtain ⟨later, run, clean⟩ := Action.program_of_reads read
  obtain ⟨there, run', errors⟩ := parse_bare source
  rw [run] at run'
  cases run'
  exact ⟨List.map_eq_nil_iff.mp (errors.symm.trans clean), rfl⟩

/-- What the parser finds in a source without a complaint, the grammar reads there. -/
theorem reads_of_parse {source : String} (clean : (parse source).2 = []) :
    Reads (.statements (parse source).1.bare.statements) (TokenStream.bareOfString source).ahead [] := by
  obtain ⟨later, run, errors⟩ := parse_bare source
  rw [clean, List.map_nil] at errors
  exact Action.reads_of_program (TokenStream.bareOfString_proper source) run errors

theorem rendering_iff_reads {source : String} {program : Program} :
    program.Rendering ((tokenize source).map Token.bare) ↔
      Reads (.statements program.statements) (TokenStream.bareOfString source).ahead [] := by
  have spec : (tokenize source).map Token.bare =
      (TokenStream.bareOfString source).ahead ++ [(TokenStream.ofString source).endToken.bare] := by
    rw [(TokenStream.ofString_spec source).2, List.map_append]
    rfl
  rw [spec]
  constructor
  · rintro ⟨body, finish, same, _, read⟩
    rwa [(List.append_inj' same rfl).1]
  · exact fun read => ⟨_, _, rfl, rfl, read⟩

/-- The parser finds a program in a source, and nothing to complain of, exactly where the tokens of the source
are a rendering of that program. Spans are left aside on both sides. -/
theorem parse_eq_iff_rendering (source : String) (program : Program) :
    (parse source).2 = [] ∧ (parse source).1.bare = program.bare ↔
      program.bare.Rendering ((tokenize source).map Token.bare) := by
  rw [rendering_iff_reads]
  constructor
  · rintro ⟨clean, same⟩
    rw [← same]
    exact reads_of_parse clean
  · exact parse_of_reads

end LetFn
