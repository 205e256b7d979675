import LetFn.Proofs.Lexing.Spelling
import LetFn.Proofs.Prediction.Completion
import LetFn.Proofs.Prediction.Parse

namespace LetFn

/-- The tokens `seen` fit, and of `goals` they leave `others`. -/
inductive Meets : List Goal → List Token → List Goal → Prop
  | none {goals} : Meets goals [] goals
  | some {goals others final token seen} : token.meet goals = .ok others → Meets others seen final →
      Meets goals (token :: seen) final

variable {goals others : List Goal} {seen place tokens : List Token} {problem : Problem}

theorem Meets.fault (meets : Meets goals seen others) (rest : List Token) :
    fault goals (seen ++ rest) = fault others rest := by
  induction meets with
  | none => rfl
  | some met _ ih => exact (fault_of_ok met).trans ih

theorem meets_of_fault (faulty : fault goals tokens = some (problem, place)) :
    ∃ seen others, tokens = seen ++ place ∧ Meets goals seen others ∧
      (front place).meet others = .error problem := by
  induction tokens generalizing goals with
  | nil =>
    rw [fault] at faulty
    cases met : (TokenKind.eof.token "").meet goals with
    | error problem =>
      rw [met] at faulty
      cases faulty
      exact ⟨[], goals, rfl, .none, met⟩
    | ok others => rw [met] at faulty; cases faulty
  | cons token tokens ih =>
    rw [fault] at faulty
    cases met : token.meet goals with
    | error problem =>
      rw [met] at faulty
      cases faulty
      exact ⟨[], goals, rfl, .none, met⟩
    | ok others =>
      rw [met] at faulty
      obtain ⟨seen, last, same, meets, wrong⟩ := ih faulty
      exact ⟨token :: seen, last, by rw [same, List.cons_append], .some met meets, wrong⟩

/-- Whatever fits can be completed. -/
theorem Meets.ready (meets : Meets goals seen others) (ready : Ready goals)
    (proper : ∀ token ∈ seen, token.Proper) : Ready others := by
  induction meets with
  | none => exact ready
  | some met _ ih =>
    obtain ⟨first, proper⟩ := List.forall_mem_cons.mp proper
    exact ih (ready.meet first.kind_ne_eof met) proper

theorem meet_of_bare_eq {token other : Token} (same : token.bare = other.bare) (goals : List Goal) :
    token.meet goals = other.meet goals := by
  obtain ⟨kind, literal⟩ := Token.bare_eq_iff.mp same
  refine meet_congr kind ?_ goals
  rw [Token.operandGoals, Token.operandGoals, kind, literal]

/-- Places do not count. -/
theorem Meets.of_bare_eq (meets : Meets goals seen others) (same : seen.map Token.bare = tokens.map Token.bare) :
    Meets goals tokens others := by
  induction meets generalizing tokens with
  | none =>
    rw [List.map_nil] at same
    rw [List.map_eq_nil_iff.mp same.symm]
    exact .none
  | some met _ ih =>
    cases tokens with
    | nil => cases same
    | cons token tokens =>
      obtain ⟨first, later⟩ := List.cons.inj same
      exact .some ((meet_of_bare_eq first _).symm.trans met) (ih later)

theorem fault_none_of_bare_eq {further : List Token} (same : tokens.map Token.bare = further.map Token.bare)
    (fine : fault goals tokens = none) : fault goals further = none := by
  induction tokens generalizing goals further with
  | nil =>
    rw [List.map_nil] at same
    rw [List.map_eq_nil_iff.mp same.symm]
    exact fine
  | cons token tokens ih =>
    cases further with
    | nil => cases same
    | cons other further =>
      obtain ⟨first, later⟩ := List.cons.inj same
      rw [fault, meet_of_bare_eq first] at fine
      rw [fault]
      cases met : other.meet goals with
      | error problem => rw [met] at fine; cases fine
      | ok others => rw [met] at fine; exact ih later fine

section Index

variable {source : String}

theorem tokenize_take (split : (TokenStream.ofString source).ahead = seen ++ place) :
    (tokenize source).take seen.length = seen := by
  rw [(TokenStream.ofString_spec source).2, split, List.append_assoc, List.take_left]

theorem tokenize_at (split : (TokenStream.ofString source).ahead = seen ++ place) :
    (tokenize source)[seen.length]? = some (TokenStream.mk place source.length).current := by
  rw [(TokenStream.ofString_spec source).2, split, List.append_assoc, List.getElem?_append_right (Nat.le_refl _),
    Nat.sub_self]
  cases place <;> rfl

theorem exists_split {k : Nat} (within : k < (tokenize source).length) :
    ∃ seen place, (TokenStream.ofString source).ahead = seen ++ place ∧ seen.length = k := by
  rw [(TokenStream.ofString_spec source).2, List.length_append] at within
  exact ⟨_, _, (List.take_append_drop k _).symm, List.length_take_of_le (Nat.le_of_lt_succ within)⟩

theorem tokenize_take_succ (split : (TokenStream.ofString source).ahead = seen ++ place) :
    (tokenize source).take (seen.length + 1) = seen ++ [(TokenStream.mk place source.length).current] := by
  rw [List.take_add_one, tokenize_take split, tokenize_at split, Option.toList_some]

theorem current_bare (place : List Token) (finish : Nat) :
    (TokenStream.mk place finish).current.bare = (front place).bare := by
  cases place <;> rfl

/-- A place names one token of a source only. -/
theorem tokenize_index_unique {j k : Nat} {first second : Token} (one : (tokenize source)[j]? = some first)
    (two : (tokenize source)[k]? = some second) (same : first.span = second.span) : j = k := by
  obtain ⟨inside, rfl⟩ := List.getElem?_eq_some_iff.mp one
  obtain ⟨inside', rfl⟩ := List.getElem?_eq_some_iff.mp two
  have sorted := List.pairwise_iff_getElem.mp (tokenize_starts source)
  rcases Nat.lt_trichotomy j k with less | equal | more
  · exact absurd (congrArg Span.start same) (Nat.ne_of_lt (sorted j k inside inside' less))
  · exact equal
  · exact absurd (congrArg Span.start same) (Nat.ne_of_gt (sorted k j inside' inside more))

end Index

/-- What is seen before the first complaint is the start of a source without one. -/
theorem exists_completed (proper : ∀ token ∈ seen, token.Proper) (meets : Meets [.program] seen others) :
    ∃ completed : String, ((tokenize completed).take seen.length).map Token.bare = seen.map Token.bare ∧
      (parse completed).2 = [] := by
  have ready := meets.ready rfl proper
  have fine : fault [.program] (seen ++ completionTokens others) = none :=
    (meets.fault _).trans ready.fault
  obtain ⟨completed, tokens⟩ := exists_source (List.forall_mem_append.mpr ⟨proper, ready.proper⟩)
  refine ⟨completed, ?_, ?_⟩
  · rw [List.map_take, tokens, List.map_append, List.append_assoc, List.take_left' (List.length_map _)]
  · rw [(parse_fault completed).1]
    refine fault_none_of_bare_eq ?_ fine
    rw [(TokenStream.ofString_spec completed).2, List.map_append] at tokens
    exact (List.append_inj' tokens rfl).1.symm

/-- The span of the first token that does not fit is that of no other token. -/
theorem tokenize_span_iff {source : String} {span : Span}
    (split : (TokenStream.ofString source).ahead = seen ++ place)
    (there : span = (TokenStream.mk place source.length).current.span) (j : Nat) :
    (tokenize source)[j]?.map Token.span = some span ↔ j = seen.length := by
  have here := tokenize_at split
  constructor
  · intro found
    obtain ⟨token, one, equal⟩ := Option.map_eq_some_iff.mp found
    exact tokenize_index_unique one here (equal.trans there)
  · rintro rfl
    rw [here, there]
    rfl

/-- A source that goes on like another one up to the first token that does not fit there has the same problem. -/
theorem fault_of_same_start {source other : String} (split : (TokenStream.ofString source).ahead = seen ++ place)
    (meets : Meets [.program] seen others) (wrong : (front place).meet others = .error problem)
    (same : ((tokenize other).take (seen.length + 1)).map Token.bare =
      ((tokenize source).take (seen.length + 1)).map Token.bare) :
    ∃ place', fault [.program] (TokenStream.ofString other).ahead = some (problem, place') ∧
      (tokenize other)[seen.length]? = some (TokenStream.mk place' other.length).current := by
  have within : seen.length < (tokenize other).length := by
    have lengths := congrArg List.length same
    have inside := (List.getElem?_eq_some_iff.mp (tokenize_at split)).1
    simp only [List.length_map, List.length_take] at lengths
    omega
  obtain ⟨seen', place', split', length⟩ := exists_split within
  have here := tokenize_at split'
  rw [length] at here
  refine ⟨place', ?_, here⟩
  rw [tokenize_take_succ split, ← length, tokenize_take_succ split', List.map_append, List.map_append] at same
  obtain ⟨before, last⟩ := List.append_inj' same rfl
  have bare : (front place').bare = (front place).bare := by
    rw [← current_bare place' other.length, ← current_bare place source.length]
    exact (List.cons.inj last).1
  rw [split', (meets.of_bare_eq before.symm).fault]
  exact fault_of_error ((meet_of_bare_eq bare _).trans wrong)

/-- The first complaint about a source is at the first token that cannot be right: what stands before it is the
start of a source that is in order, and every source that goes on with the same token gives that complaint. -/
theorem parse_first_complaint (source : String) (first : Diagnostic) (complaint : (parse source).2.head? = some first) :
    ∃ k, (∀ j, (tokenize source)[j]?.map Token.span = some first.span ↔ j = k) ∧
      (∃ completed, ((tokenize completed).take k).map Token.bare = ((tokenize source).take k).map Token.bare ∧
        (parse completed).2 = []) ∧
      ∀ other, ((tokenize other).take (k + 1)).map Token.bare = ((tokenize source).take (k + 1)).map Token.bare →
        ∃ same, (parse other).2.head? = some same ∧ same.problem = first.problem ∧
          (tokenize other)[k]?.map Token.span = some same.span := by
  obtain ⟨place, faulty, span⟩ := (parse_fault source).2 first complaint
  obtain ⟨seen, others, split, meets, wrong⟩ := meets_of_fault faulty
  have proper : ∀ token ∈ seen, token.Proper := by
    intro token member
    refine (TokenStream.ofString_spec source).1 token ?_
    rw [split]
    exact List.mem_append_left _ member
  refine ⟨seen.length, tokenize_span_iff split span, ?_, fun other same => ?_⟩
  · rw [tokenize_take split]
    exact exists_completed proper meets
  · obtain ⟨place', faulty', here⟩ := fault_of_same_start split meets wrong same
    obtain ⟨again, complains, problem, span'⟩ := exists_complaint faulty'
    refine ⟨again, complains, problem, ?_⟩
    rw [here, span']
    rfl

theorem parse_first_complaint_missing_sign :
    (parse "let x 5;").2.head? = some ⟨.unexpectedPeek .assign .int, ⟨6, 7⟩⟩ ∧ ∃ k,
      (∀ j, (tokenize "let x 5;")[j]?.map Token.span = some ⟨6, 7⟩ ↔ j = k) ∧
      (∃ completed, ((tokenize completed).take k).map Token.bare = ((tokenize "let x 5;").take k).map Token.bare ∧
        (parse completed).2 = []) ∧
      ∀ other, ((tokenize other).take (k + 1)).map Token.bare = ((tokenize "let x 5;").take (k + 1)).map Token.bare →
        ∃ same, (parse other).2.head? = some same ∧ same.problem = .unexpectedPeek .assign .int ∧
          (tokenize other)[k]?.map Token.span = some same.span :=
  ⟨by decide +kernel,
    parse_first_complaint "let x 5;" ⟨.unexpectedPeek .assign .int, ⟨6, 7⟩⟩ (by decide +kernel)⟩

end LetFn
