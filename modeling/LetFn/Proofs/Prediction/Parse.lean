import LetFn.Proofs.Grammar.Rendering
import LetFn.Proofs.Prediction.Foretells
import LetFn.Proofs.Prediction.Plain

namespace LetFn

/-- The first complaint about a source is about the first token that does not fit, and there is one where a token
does not fit. -/
theorem parse_fault (source : String) :
    ((parse source).2 = [] ↔ fault [.program] (TokenStream.ofString source).ahead = none) ∧
      ∀ first ∈ (parse source).2.head?, ∃ place,
        fault [.program] (TokenStream.ofString source).ahead = some (first.problem, place) ∧
          first.span = (TokenStream.mk place source.length).current.span := by
  obtain ⟨program, later, done⟩ := (ParseState.ofString source).program_ok
  have proper := (TokenStream.ofString_spec source).1
  obtain ⟨fine, wrong⟩ := Action.fault_of_program proper done
  rw [parse_eq_of_run done]
  refine ⟨⟨fine, fun none => ?_⟩, wrong⟩
  cases errors : later.errors with
  | nil => rfl
  | cons first others =>
    obtain ⟨place, faulty, -⟩ := wrong first (by rw [errors]; rfl)
    rw [none] at faulty
    cases faulty

/-- Where a token does not fit there is a complaint, and the first one is that. -/
theorem exists_complaint {source : String} {problem : Problem} {place : List Token}
    (faulty : fault [.program] (TokenStream.ofString source).ahead = some (problem, place)) :
    ∃ first, (parse source).2.head? = some first ∧ first.problem = problem ∧
      first.span = (TokenStream.mk place source.length).current.span := by
  obtain ⟨fine, wrong⟩ := parse_fault source
  cases errors : (parse source).2 with
  | nil =>
    rw [fine.mp errors] at faulty
    cases faulty
  | cons first others =>
    obtain ⟨there, found, span⟩ := wrong first (by rw [errors]; rfl)
    rw [found] at faulty
    cases faulty
    exact ⟨first, rfl, rfl, span⟩

/-- What a token leaves outstanding depends on its kind, and on its literal where it is an operand. -/
theorem meet_congr {token other : Token} (kind : token.kind = other.kind)
    (operand : token.operandGoals = other.operandGoals) (goals : List Goal) : token.meet goals = other.meet goals := by
  have sign : ∀ expected, token.signGoals expected = other.signGoals expected := by
    intro expected
    rw [Token.signGoals, Token.signGoals, kind]
  have item : ∀ item, token.itemGoals item = other.itemGoals item := by
    intro item
    cases item with
    | argument => rw [Token.itemGoals, Token.itemGoals, operand]
    | parameter => exact sign .ident
  have statement : token.statementGoals = other.statementGoals := by
    rw [Token.statementGoals, Token.statementGoals, operand, kind]
  induction goals with
  | nil => rfl
  | cons goal goals ih =>
    cases goal with
    | operand => rw [Token.meet, Token.meet, operand]
    | rest => rw [Token.meet, Token.meet, kind, ih]
    | sign expected => rw [Token.meet, Token.meet, sign]
    | items one => rw [Token.meet, Token.meet, item, kind]
    | moreItems one => rw [Token.meet, Token.meet, sign, kind]
    | semicolon => rw [Token.meet, Token.meet, kind, ih]
    | alternative => rw [Token.meet, Token.meet, kind, ih]
    | statement => rw [Token.meet, Token.meet, statement]
    | body => rw [Token.meet, Token.meet, statement, kind, ih]
    | program => rw [Token.meet, Token.meet, statement, kind]

theorem operandGoals_of_small {token : Token} (proper : token.Proper)
    (small : token.kind = .int → Text.digitsValue token.literal.toList ≤ 0x7fffffffffffffff) :
    token.operandGoals = (token.kind.token "0").operandGoals := by
  by_cases int : token.kind = .int
  · obtain ⟨value, digits⟩ := proper.digits int
    have number := Text.integer64?_of_natural? digits
    have fits := small int
    rw [Text.digitsValue_of_natural? digits] at fits
    rw [if_pos fits] at number
    simp only [Token.operandGoals, int, number]
    rfl
  · have other : Rules.standard.prefixRule token.kind ≠ some .integer := fun found =>
      int (Rules.standard_prefixRule_iff.mp found)
    unfold Token.operandGoals
    rw [show (token.kind.token "0").kind = token.kind from rfl]
    cases found : Rules.standard.prefixRule token.kind with
    | none => rfl
    | some rule =>
      cases rule with
      | integer => exact absurd found other
      | _ => rfl

/-- Where all numbers are small, only the kinds of tokens decide what is wrong. -/
theorem fault_of_kinds {tokens : List Token} (proper : ∀ token ∈ tokens, token.Proper) (small : SmallNumbers tokens)
    {goals : List Goal} (fine : fault goals (plainTokens (tokens.map Token.kind)) = none) :
    fault goals tokens = none := by
  induction tokens generalizing goals with
  | nil => exact fine
  | cons token tokens ih =>
    obtain ⟨first, others⟩ := List.forall_mem_cons.mp proper
    obtain ⟨fits, small⟩ := List.forall_mem_cons.mp small
    have kind : token.kind = (token.kind.token "0").kind := rfl
    have same := meet_congr kind (operandGoals_of_small first fits) goals
    rw [List.map_cons, plainTokens, List.map_cons, fault, ← same] at fine
    rw [fault]
    cases met : token.meet goals with
    | error problem => rw [met] at fine; cases fine
    | ok goals => rw [met] at fine; exact ih others small fine

/-- The parser complains of nothing exactly where every number can be held and the kinds of the tokens are those
of a program of the plain grammar. That it always takes the longer reading makes it miss none. -/
theorem parse_clean_iff_derives (source : String) :
    (parse source).2 = [] ↔ SmallNumbers (tokenize source) ∧
      ∃ kinds, (tokenize source).map Token.kind = kinds ++ [.eof] ∧ Derives .statements kinds [] := by
  obtain ⟨proper, tokens⟩ := TokenStream.ofString_spec source
  have kinds : (tokenize source).map Token.kind = (TokenStream.ofString source).ahead.map Token.kind ++ [.eof] := by
    rw [tokens, List.map_append]
    rfl
  constructor
  · intro clean
    obtain ⟨program, later, done⟩ := (ParseState.ofString source).program_ok
    rw [parse_eq_of_run done] at clean
    have read := Action.reads_of_program proper done clean
    refine ⟨?_, _, kinds, read.plain⟩
    rw [tokens]
    refine List.forall_mem_append.mpr ⟨read.smallNumbers nofun, ?_⟩
    exact SmallNumbers.cons (show TokenKind.eof ≠ .int by decide) nofun
  · rintro ⟨small, others, same, derives⟩
    rw [kinds] at same
    rw [tokens] at small
    rw [← (List.append_inj' same rfl).1] at derives
    rw [(parse_fault source).1]
    refine fault_of_kinds proper (List.forall_mem_append.mp small).1 ?_
    exact (derives.agrees (.inr rfl) .program row_program).1 []

end LetFn
