import LetFn.Proofs.Parser.Invariant
import LetFn.Proofs.Tree.AllTokens
import LetFn.Proofs.Walk.Complaints

namespace LetFn

namespace Action

variable {α β : Type} {tokens : α → List Token} {given : List Token} {rules : Rules} {fuel : Nat}

/-- The tokens of a value are of the `given` ones, and so are those that are still to be read. -/
structure Gathered (tokens : α → List Token) (given : List Token) (value : α) (later : ParseState) : Prop where
  tokens : tokens value ⊆ given
  rest : later.stream.tokens ⊆ given

/-- Wherever no other tokens than the `given` ones lie ahead, a run puts no others into its value. -/
def Gathers (tokens : α → List Token) (given : List Token) (action : Action α) : Prop :=
  ∀ state, state.stream.tokens ⊆ given →
    action.ComesTo True (Gathered tokens given) (fun _ later => later.stream.tokens ⊆ given) state

theorem gathered_advance {state : ParseState} (rest : state.stream.tokens ⊆ given) :
    state.advance.stream.tokens ⊆ given := by
  have fewer := (state.stream.tokens_drop_sublist 1).subset
  rw [TokenStream.drop, List.drop_one] at fewer
  exact List.Subset.trans fewer rest

theorem gathers_skipSemicolon {value : α} {state : ParseState} (found : tokens value ⊆ given)
    (rest : state.stream.tokens ⊆ given) : (skipSemicolon >>= fun _ => pure value).ComesTo True (Gathered tokens given)
      (fun _ later => later.stream.tokens ⊆ given) state := by
  refine comes_skipSemicolon fun later place => comes_pure ⟨found, ?_⟩
  rcases place with rfl | rfl
  · exact rest
  · exact gathered_advance rest

theorem Gathers.closedItems {item : Action α} (gathers : Gathers tokens given item) (fuel : Nat) :
    Gathers (List.flatMap tokens) given (closedItems item fuel) := by
  intro state rest
  refine comes_closedItems (fun _ _ fine => ⟨fine.tokens, gathered_advance fine.rest⟩) (fun done state fine => ?_)
    (fun _ _ _ fine => fine.rest) fuel ⟨List.nil_subset _, rest⟩
  refine (gathers state fine.rest).mono (fun value later one => ⟨?_, one.rest⟩) fun _ _ left => left
  rw [List.flatMap_append, List.flatMap_singleton]
  exact List.append_subset.mpr ⟨fine.tokens, one.tokens⟩

theorem gathers_parameter : Gathers (fun id => [id.token]) given parameter := by
  intro state rest
  refine comes_expectPeek (fun _ => rest) fun _ => comes_current (comes_pure ?_)
  have further := gathered_advance rest
  exact ⟨List.cons_subset.mpr ⟨further (TokenStream.current_mem _), List.nil_subset _⟩, further⟩

theorem Gathers.statements {statement : Action Stmt} (gathers : Gathers Stmt.allTokens given statement)
    (closes : TokenKind → Bool) (fuel : Nat) : Gathers stmtsAllTokens given (statements closes statement fuel) := by
  intro state rest
  refine ComesTo.mono (comes_statements (Gathered stmtsAllTokens given) (fun done state _ fine => ?_) fuel [] state
    ⟨List.nil_subset _, rest⟩) (fun _ _ found => found.1) fun _ _ left => left
  refine (gathers state.countRound fine.rest).mono (fun value later one => ⟨?_, gathered_advance one.rest⟩)
    fun _ _ left => ⟨fine.tokens, gathered_advance left⟩
  rw [stmtsAllTokens_append]
  exact List.append_subset.mpr ⟨fine.tokens, List.append_subset.mpr ⟨one.tokens, List.nil_subset _⟩⟩

/-- No routine brings a token into a tree that it has not read. -/
structure Gathering (rules : Rules) (given : List Token) (fuel : Nat) : Prop where
  expression : ∀ power, Gathers Expr.allTokens given (Action.expression rules fuel power)
  opening : ∀ rule, Gathers Expr.allTokens given (Action.opening rules fuel rule)
  extension : ∀ rule left power, left.allTokens ⊆ given →
    Gathers Expr.allTokens given (Action.extension rules fuel rule left power)
  block : Gathers Block.allTokens given (Action.block rules fuel)
  statement : ∀ rule, Gathers Stmt.allTokens given (Action.statement rules fuel rule)

theorem Gathering.expression_succ (less : Gathering rules given fuel) (power : Power) :
    Gathers Expr.allTokens given (Action.expression rules (fuel + 1) power) := by
  intro state rest
  cases found : rules.prefixRule state.current.kind with
  | none => exact .of_eq (expression_of_no_rule found) (comes_failHere rest)
  | some rule =>
    refine .of_eq (expression_of_rule found) ((less.opening rule state rest).bind fun left later one => ?_)
    refine comes_climb (fun rule left power state _ fine => ?_) fuel left later one
    exact less.extension rule left power fine.tokens _ (gathered_advance fine.rest)

theorem Gathering.conditional_succ (less : Gathering rules given fuel) :
    Gathers Expr.allTokens given (Action.opening rules (fuel + 1) .conditional) := by
  intro state rest
  have there : state.current ∈ given := rest state.stream.current_mem
  refine comes_current (comes_expectPeek (fun _ => rest) fun _ => comes_advance ?_)
  refine (less.expression _ _ (gathered_advance (gathered_advance rest))).bind fun condition first one => ?_
  refine comes_expectPeek (fun _ => one.rest) fun _ => comes_expectPeek (fun _ => gathered_advance one.rest) fun _ => ?_
  refine (less.block _ (gathered_advance (gathered_advance one.rest))).bind fun consequence second two => ?_
  refine comes_peek (.ite ?_ ?_)
  · refine fun _ => comes_advance (comes_expectPeek (fun _ => gathered_advance two.rest) fun _ => ?_)
    refine (less.block _ (gathered_advance (gathered_advance two.rest))).bind fun alternative last three => ?_
    refine comes_pure ⟨?_, three.rest⟩
    simp only [Expr.allTokens, alternativeAllTokens, List.cons_subset, List.append_subset]
    exact ⟨there, one.tokens, two.tokens, three.tokens⟩
  · refine fun _ => comes_pure ⟨?_, two.rest⟩
    simp only [Expr.allTokens, alternativeAllTokens, List.cons_subset, List.append_subset]
    exact ⟨there, one.tokens, two.tokens, List.nil_subset _⟩

theorem Gathering.opening_succ (less : Gathering rules given fuel) (rule : PrefixRule) :
    Gathers Expr.allTokens given (Action.opening rules (fuel + 1) rule) := by
  intro state rest
  have there : state.current ∈ given := rest state.stream.current_mem
  have alone : [state.current] ⊆ given := List.cons_subset.mpr ⟨there, List.nil_subset _⟩
  have further := gathered_advance rest
  cases rule with
  | identifier => exact comes_current (comes_pure ⟨alone, rest⟩)
  | integer =>
    cases value : Text.integer64? state.current.literal with
    | none => exact .of_eq (opening_integer_of_none value) (comes_failHere rest)
    | some found => exact .of_eq (opening_integer_of_some value) (comes_pure ⟨alone, rest⟩)
  | boolean => exact comes_current (comes_pure ⟨alone, rest⟩)
  | operator =>
    refine comes_current (comes_advance ((less.expression _ _ further).bind fun right later one => ?_))
    exact comes_pure ⟨List.cons_subset.mpr ⟨there, one.tokens⟩, one.rest⟩
  | group =>
    refine comes_advance ((less.expression _ _ further).bind fun inner later one => ?_)
    exact comes_expectPeek (fun _ => one.rest) fun _ => comes_pure ⟨one.tokens, gathered_advance one.rest⟩
  | conditional => exact less.conditional_succ state rest
  | function =>
    refine comes_current (comes_expectPeek (fun _ => rest) fun _ => ?_)
    refine (gathers_parameter.closedItems fuel _ further).bind fun names first one => ?_
    refine comes_expectPeek (fun _ => one.rest) fun _ => ?_
    refine (less.block _ (gathered_advance one.rest)).bind fun body last two => ?_
    refine comes_pure ⟨?_, two.rest⟩
    rw [Expr.allTokens, List.map_eq_flatMap]
    exact List.cons_subset.mpr ⟨there, List.append_subset.mpr ⟨one.tokens, two.tokens⟩⟩

theorem Gathering.extension_succ (less : Gathering rules given fuel) (rule : InfixRule) (left : Expr) (power : Power)
    (held : left.allTokens ⊆ given) :
    Gathers Expr.allTokens given (Action.extension rules (fuel + 1) rule left power) := by
  intro state rest
  have there : state.current ∈ given := rest state.stream.current_mem
  have further := gathered_advance rest
  cases rule with
  | operator =>
    refine comes_current (comes_advance ((less.expression _ _ further).bind fun right later one => ?_))
    exact comes_pure ⟨List.cons_subset.mpr ⟨there, List.append_subset.mpr ⟨held, one.tokens⟩⟩, one.rest⟩
  | call =>
    have item : Gathers Expr.allTokens given (do advance; Action.expression rules fuel .lowest) :=
      fun state rest => comes_advance (less.expression _ _ (gathered_advance rest))
    refine comes_current ((item.closedItems fuel state rest).bind fun arguments later one => comes_pure ⟨?_, one.rest⟩)
    rw [Expr.allTokens, exprsAllTokens_eq_flatMap]
    exact List.cons_subset.mpr ⟨there, List.append_subset.mpr ⟨held, one.tokens⟩⟩

theorem Gathering.block_succ (less : Gathering rules given fuel) :
    Gathers Block.allTokens given (Action.block rules (fuel + 1)) := by
  intro state rest
  have further := gathered_advance rest
  refine comes_current (comes_advance ?_)
  refine ((less.statement .dispatch).statements _ fuel _ further).bind fun values later body => ?_
  refine comes_pure ⟨?_, body.rest⟩
  exact List.cons_subset.mpr ⟨rest state.stream.current_mem, body.tokens⟩

theorem Gathering.statement_succ (less : Gathering rules given fuel) (rule : StatementRule) :
    Gathers Stmt.allTokens given (Action.statement rules (fuel + 1) rule) := by
  intro state rest
  have there : state.current ∈ given := rest state.stream.current_mem
  have further := gathered_advance rest
  cases rule with
  | binding =>
    refine comes_current ((gathers_parameter state rest).bind fun name first one => ?_)
    refine comes_expectPeek (fun _ => one.rest) fun _ => comes_advance ?_
    refine (less.expression _ _ (gathered_advance (gathered_advance one.rest))).bind fun value later two => ?_
    exact gathers_skipSemicolon (List.cons_subset.mpr ⟨there, List.append_subset.mpr ⟨one.tokens, two.tokens⟩⟩) two.rest
  | result =>
    refine comes_current (comes_advance ((less.expression _ _ further).bind fun value later one => ?_))
    exact gathers_skipSemicolon (List.cons_subset.mpr ⟨there, one.tokens⟩) one.rest
  | expression =>
    refine comes_current ((less.expression _ _ rest).bind fun value later one => ?_)
    exact gathers_skipSemicolon (List.cons_subset.mpr ⟨there, one.tokens⟩) one.rest
  | block => exact (less.block state rest).bind fun body later one => comes_pure ⟨one.tokens, one.rest⟩
  | dispatch => exact comes_current (less.statement _ state rest)

theorem gathering (rules : Rules) (given : List Token) (fuel : Nat) : Gathering rules given fuel := by
  induction fuel with
  | zero =>
    exact ⟨fun _ _ _ => comes_outOfFuel, fun _ _ _ => comes_outOfFuel, fun _ _ _ _ _ _ => comes_outOfFuel,
      fun _ _ => comes_outOfFuel, fun _ _ _ => comes_outOfFuel⟩
  | succ fuel less =>
    exact ⟨less.expression_succ, less.opening_succ, less.extension_succ, less.block_succ, less.statement_succ⟩

theorem gathers_program : Gathers Program.allTokens given (program rules fuel) := by
  intro state rest
  have body := ((gathering rules given fuel).statement .dispatch).statements (· = .eof) fuel state rest
  exact body.bind fun values later found => comes_pure ⟨found.tokens, found.rest⟩

end Action

/-- Every token in the tree of a source is one of the source. -/
theorem parse_allTokens_subset (source : String) : (parse source).1.allTokens ⊆ tokenize source := by
  obtain ⟨program, later, run⟩ := (ParseState.ofString source).program_ok
  have tokens : (ParseState.ofString source).stream.tokens = tokenize source :=
    (TokenStream.ofString_spec source).2.symm
  rw [parse_eq_of_run run]
  exact ((Action.gathers_program _ (tokens ▸ List.Subset.refl _)).of_ok run).tokens

end LetFn
