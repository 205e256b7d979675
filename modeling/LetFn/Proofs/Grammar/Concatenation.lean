import LetFn.Proofs.Grammar.Complete
import LetFn.Proofs.Grammar.Faithful
import LetFn.Proofs.Lexing.Concatenation
import LetFn.Proofs.Parser.Respan

namespace LetFn

theorem braceDepth_eq (tokens : List Token) : braceDepth tokens =
    tokens.countP (fun token => token.kind = .lbrace) - tokens.countP (fun token => token.kind = .rbrace) := by
  induction tokens with
  | nil => rfl
  | cons token rest ih =>
    simp only [braceDepth, ih, List.countP_cons]
    cases token.kind <;> simp [TokenKind.brace] <;> omega

/-- As many braces are closed in `source` as are opened. -/
def Balanced (source : String) : Prop :=
  (tokenize source).countP (fun token => token.kind = .lbrace) =
    (tokenize source).countP (fun token => token.kind = .rbrace)

theorem Balanced.depth {source : String} (balanced : Balanced source) :
    braceDepth (TokenStream.ofString source).ahead = 0 := by
  rw [Balanced, (TokenStream.ofString_spec source).2, List.countP_append, List.countP_append] at balanced
  simp [TokenStream.endToken] at balanced
  rw [braceDepth_eq]
  omega

/-- No statement of `first` goes on in `second`, should that come next: nothing comes before, the last token before is
a semicolon, or the next one neither continues an expression nor trails behind a statement. -/
def Seam (first second : String) : Prop :=
  (TokenStream.ofString first).ahead = [] ∨
    (∃ sign ∈ (TokenStream.ofString first).ahead.getLast?, sign.kind = .semicolon) ∨
    ¬((TokenStream.ofString second).current.kind.Trails ∨ (TokenStream.ofString second).current.kind.Continues)

/-- The tokens of `second` where they stand on the line after `first`. -/
def tokensBehind (first second : String) : List Token :=
  (TokenStream.ofString second).ahead.map (Token.respan (.shift (first.length + 1)))

theorem nextKind_tokensBehind (first second : String) :
    nextKind (tokensBehind first second) = (TokenStream.ofString second).current.kind := by
  rw [tokensBehind, TokenStream.current]
  cases (TokenStream.ofString second).ahead <;> rfl

/-- The seam as the grammar sees it. -/
theorem Seam.parted {first second : String} {values : List Stmt} (seam : Seam first second)
    (read : Reads (.statements values) (TokenStream.ofString first).ahead []) (some : values ≠ [])
    {joins : TokenKind → Prop} (either : ∀ kind, joins kind → kind.Trails ∨ kind.Continues) :
    Parted joins ((TokenStream.ofString first).ahead ++ tokensBehind first second) (tokensBehind first second) := by
  rcases seam with none | ⟨sign, last, kind⟩ | other
  · rcases read.ends with ⟨empty, -⟩ | ⟨last, behind, -⟩
    · exact absurd empty some
    · rw [none, List.suffix_nil] at behind
      cases behind
  · obtain ⟨front, same⟩ := List.getLast?_eq_some_iff.mp last
    have ends : LastIs (fun token => token.kind = .semicolon) (TokenStream.ofString first).ahead [] :=
      ⟨sign, ⟨front, same.symm⟩, kind⟩
    exact .inl (ends.append _)
  · refine .inr fun joined => other (either _ ?_)
    rwa [← nextKind_tokensBehind first]

namespace Action

/-- What a source settles on, it settles on further on as well, whatever was on record before. -/
theorem settles_placed (site : Placement) {state later : ParseState} {values : List Stmt}
    (settles : Settles (fun fuel turns => statements (· = .eof) (statement .standard fuel .dispatch) turns)
      state values later) :
    Settles (fun fuel turns => statements (· = .eof) (statement .standard fuel .dispatch) turns)
      (state.place site) (respanStmts site.move values) (later.place site) := by
  obtain ⟨enough, done⟩ := settles
  refine ⟨enough, fun fuel turns le le' => ?_⟩
  have moved := ((movable .standard site fuel).statement .dispatch).statements (· = .eof) turns state
  exact moved.trans (congrArg _ (done fuel turns le le'))

end Action

/-- At the seam nothing of `first` is left but the count of its turns. -/
theorem ParseState.at_seam {first second : String} {state : ParseState}
    (stream : state.stream = ⟨tokensBehind first second, (first ++ "\n" ++ second).length⟩)
    (clean : state.errors = []) :
    (ParseState.ofString second).place ⟨.shift (first.length + 1), [], state.rounds⟩ = state := by
  have finish : (first ++ "\n" ++ second).length = second.length + (first.length + 1) := by
    rw [String.length_append, String.length_append, Nat.add_comm]
    rfl
  obtain ⟨ahead, errors, rounds⟩ := state
  cases stream
  cases clean
  rw [finish]
  rfl

/-- Two sources, one after the other on a new line, hold the statements of both, and what is wrong with the second.
The first must have nothing wrong with it and leave no brace open, and no statement may go on across the seam. -/
theorem parse_append (first second : String) (clean : (parse first).2 = []) (balanced : Balanced first)
    (seam : Seam first second) : parse (first ++ "\n" ++ second) =
      (⟨(parse first).1.statements ++ ((parse second).1.respan (.shift (first.length + 1))).statements⟩,
        (parse second).2.map (Diagnostic.respan (.shift (first.length + 1)))) := by
  obtain ⟨program, later, run⟩ := (ParseState.ofString second).program_ok
  rw [parse_eq_of_run run]
  have read := parse_reads clean
  -- The grammar reads the first source in the same way with the second behind it, and so does the parser. From the
  -- seam on it goes the way that it goes over the second source alone.
  have longer : Reads (.statements (parse first).1.statements)
      ((TokenStream.ofString first).ahead ++ tokensBehind first second) (tokensBehind first second) :=
    read.append balanced.depth fun some _ =>
      seam.parted read (Phrase.open_statements.mp some) fun _ => .inr
  obtain ⟨middle, stream, errors, continues⟩ := Action.parses longer (· = .eof)
    (.ofString (first ++ "\n" ++ second)) (by simp) (fun some => seam.parted read some fun _ => .inl)
    (TokenStream.ofString_append first second)
  have settles := Action.settles_placed ⟨.shift (first.length + 1), [], middle.rounds⟩
    (Action.settles_of_program run)
  rw [ParseState.at_seam stream errors] at settles
  exact parse_eq_of_run (Action.program_of_settles (continues _ _ settles))

theorem parse_append_missing_comma :
    (parse "let half = fn(x) \x7b return x / 2; \x7d").2 = [] ∧ Balanced "let half = fn(x) \x7b return x / 2; \x7d" ∧
      Seam "let half = fn(x) \x7b return x / 2; \x7d" "half(a b) / 3" ∧
      (parse "half(a b) / 3").2.map Diagnostic.problem =
        [.unexpectedPeek .rparen .ident, .noPrefixRule .rparen, .noPrefixRule .slash] ∧
      parse ("let half = fn(x) \x7b return x / 2; \x7d" ++ "\n" ++ "half(a b) / 3") =
        (⟨(parse "let half = fn(x) \x7b return x / 2; \x7d").1.statements ++
            ((parse "half(a b) / 3").1.respan (.shift 35)).statements⟩,
          (parse "half(a b) / 3").2.map (Diagnostic.respan (.shift 35))) := by
  have clean : (parse "let half = fn(x) \x7b return x / 2; \x7d").2 = [] := by decide +kernel
  have balanced : Balanced "let half = fn(x) \x7b return x / 2; \x7d" := by
    unfold Balanced
    decide +kernel
  have seam : Seam "let half = fn(x) \x7b return x / 2; \x7d" "half(a b) / 3" := .inr (.inr (by decide +kernel))
  exact ⟨clean, balanced, seam, by decide +kernel, parse_append _ _ clean balanced seam⟩

end LetFn
