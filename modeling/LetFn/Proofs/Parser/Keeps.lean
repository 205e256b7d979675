import LetFn.Proofs.Grammar.Standard
import LetFn.Proofs.Parser.CleanLoops
import LetFn.Proofs.Parser.Invariant
import LetFn.Proofs.Tree.Genuine
import LetFn.Proofs.Tree.Tokens

namespace LetFn

theorem ProperRow.sublist {row given : List Token} (proper : ProperRow given) (sublist : row.Sublist given) :
    ProperRow row :=
  fun token member => proper token (sublist.subset member)

namespace Action

variable {α β : Type} {given held : List Token} {fine : α → Prop} {tokens : α → List Token}
  {bad : Diagnostic → ParseState → Prop} {state : ParseState}

/-- A value is fine, and its tokens come behind `held` and before what is unread, all in the order of `given`. -/
structure Drawn (fine : α → Prop) (tokens : α → List Token) (held given : List Token) (value : α)
    (rest : List Token) : Prop where
  fine : fine value
  sublist : (held ++ (tokens value ++ rest)).Sublist given

/-- A run whose value is good with the tokens that it leaves unread. What a run leaves that gives up is still of
`given`. -/
abbrev Keeps (good : α → List Token → Prop) (given : List Token) (action : Action α) (state : ParseState) : Prop :=
  action.ComesTo True (fun value later => good value later.unread) (fun _ later => later.unread.Sublist given) state

theorem Drawn.unread {value : α} {rest : List Token} (drawn : Drawn fine tokens held given value rest) :
    ((held ++ tokens value) ++ rest).Sublist given := by
  rw [List.append_assoc]
  exact drawn.sublist

/-- What is unread one token further on is no more than was unread before. -/
theorem drawn_advance (drawn : (held ++ state.unread).Sublist given) : (held ++ state.advance.unread).Sublist given :=
  ((List.tail_sublist state.unread).append_left held).trans drawn

theorem drawn_unread (drawn : (held ++ state.stream.ahead).Sublist given) : (held ++ state.unread).Sublist given :=
  ((List.tail_sublist state.stream.ahead).append_left held).trans drawn

theorem sublist_of_held {rest : List Token} (drawn : (held ++ rest).Sublist given) : rest.Sublist given :=
  (List.sublist_append_right held rest).trans drawn

theorem keeps_skipSemicolon {value : α} (drawn : Drawn fine tokens held given value state.unread) :
    (skipSemicolon >>= fun _ => pure value).Keeps (Drawn fine tokens held given) given state := by
  refine comes_skipSemicolon fun later place => comes_pure ⟨drawn.fine, ?_⟩
  rw [← List.append_assoc]
  rcases place with rfl | rfl
  · exact drawn.unread
  · exact drawn_advance drawn.unread

theorem keeps_closedItems {item : Action α}
    (keeps : ∀ held state, (held ++ state.unread).Sublist given → item.Keeps (Drawn fine tokens held given) given state)
    (fuel : Nat) (drawn : (held ++ state.unread).Sublist given) : (closedItems item fuel).Keeps
      (Drawn (fun values => ∀ value ∈ values, fine value) (List.flatMap tokens) held given) given state := by
  refine comes_closedItems (fun _ _ several => ⟨several.fine, ?_⟩) (fun done state several => ?_)
    (fun _ _ _ several => sublist_of_held several.unread) fuel ⟨nofun, drawn⟩
  · refine (keeps _ state several.unread).mono (fun value later one => ⟨?_, ?_⟩) fun _ _ left => left
    · exact List.forall_mem_append.mpr ⟨several.fine, List.forall_mem_singleton.mpr one.fine⟩
    · rw [List.flatMap_append, List.flatMap_singleton, List.append_assoc, ← List.append_assoc]
      exact one.sublist
  · rw [← List.append_assoc]
    exact drawn_advance several.unread

theorem keeps_parameter (proper : ProperRow given) (held : List Token) (state : ParseState)
    (drawn : (held ++ state.unread).Sublist given) :
    parameter.Keeps (Drawn Identifier.Genuine (fun id => [id.token]) held given) given state := by
  refine comes_expectPeek (fun _ => sublist_of_held drawn) fun ident => comes_current (comes_pure ?_)
  rw [state.unread_of_kind ident (by decide)] at drawn
  have there : state.peek.Proper := proper _ (drawn.subset (by simp))
  exact ⟨there.genuine ident, drawn⟩

theorem keeps_statements {closes : TokenKind → Bool} {statement : Action Stmt} (eof_closes : closes .eof = true)
    (proper : ProperRow given)
    (keeps : ∀ state, ProperRow state.stream.ahead → state.current.kind ≠ .eof →
      statement.Keeps (Drawn Stmt.Genuine Stmt.tokens [] state.stream.ahead) state.stream.ahead state) (fuel : Nat)
    (drawn : (held ++ state.stream.ahead).Sublist given) : (statements closes statement fuel).ComesTo True
      (fun values later => Drawn (fun values => ∀ value ∈ values, value.Genuine) stmtsTokens held given values
        later.stream.ahead) bad state := by
  refine ComesTo.mono (comes_statements (fun values later => Drawn (fun values => ∀ value ∈ values, value.Genuine)
    stmtsTokens held given values later.stream.ahead) (fun done state unclosed several => ?_) fuel [] state
    ⟨nofun, drawn⟩) (fun _ _ found => found.1) fun _ _ left => left
  have here : state.current.kind ≠ .eof := by
    intro eof
    rw [eof, eof_closes] at unclosed
    cases unclosed
  have row : ProperRow state.stream.ahead := proper.sublist (sublist_of_held several.unread)
  -- a statement is drawn from what lies ahead at its turn, which is put behind what is held only afterwards
  refine (keeps state.countRound row here).mono (fun value later one => ⟨?_, ?_⟩) fun _ later left =>
    ⟨several.fine, ?_⟩
  · exact List.forall_mem_append.mpr ⟨several.fine, List.forall_mem_singleton.mpr one.fine⟩
  · have lifted := (one.sublist.append_left (held ++ stmtsTokens done)).trans several.unread
    rw [stmtsTokens_append, stmtsTokens, stmtsTokens, List.append_nil, List.append_assoc, ← List.append_assoc]
    exact lifted
  · have lifted := (left.append_left (held ++ stmtsTokens done)).trans several.unread
    rw [← List.append_assoc]
    exact lifted

/-- What each routine brings back, and from where it may start. -/
structure Keeping (fuel : Nat) : Prop where
  expression : ∀ {power state held given}, ProperRow given → (held ++ state.stream.ahead).Sublist given →
    (Action.expression .standard fuel power).Keeps (Drawn Expr.Genuine Expr.tokens held given) given state
  opening : ∀ {rule state held given}, ProperRow given → rule.Starts state.current.kind →
    (held ++ state.stream.ahead).Sublist given →
    (Action.opening .standard fuel rule).Keeps (Drawn Expr.Genuine Expr.tokens held given) given state
  extension : ∀ {rule left power state held given}, ProperRow given →
    Rules.standard.infixRule state.current.kind = some rule → left.Genuine →
    (held ++ (left.tokens ++ state.stream.ahead)).Sublist given →
    (Action.extension .standard fuel rule left power).Keeps (Drawn Expr.Genuine Expr.tokens held given) given state
  block : ∀ {state held given}, ProperRow given → state.current.kind = .lbrace →
    (held ++ state.stream.ahead).Sublist given →
    (Action.block .standard fuel).Keeps (Drawn Block.Genuine Block.tokens held given) given state
  statement : ∀ {rule state held given}, ProperRow given → rule.Starts state.current.kind →
    state.current.kind ≠ .eof → (held ++ state.stream.ahead).Sublist given →
    (Action.statement .standard fuel rule).Keeps (Drawn Stmt.Genuine Stmt.tokens held given) given state

variable {fuel : Nat}

theorem Keeping.expression_succ (less : Keeping fuel) {power : Power} (proper : ProperRow given)
    (drawn : (held ++ state.stream.ahead).Sublist given) :
    (Action.expression .standard (fuel + 1) power).Keeps (Drawn Expr.Genuine Expr.tokens held given) given state := by
  cases found : Rules.standard.prefixRule state.current.kind with
  | none => exact .of_eq (expression_of_no_rule found) (comes_failHere (sublist_of_held (drawn_unread drawn)))
  | some rule =>
    refine .of_eq (expression_of_rule found)
      ((less.opening proper (Rules.standard_prefixRule_iff.mp found) drawn).bind fun left later one => ?_)
    refine comes_climb (fun rule left power state found one => ?_) fuel left later one
    exact @Keeping.extension _ less _ _ _ state.advance _ _ proper found one.fine one.sublist

/-- A block behind what is held already, at the brace that is next. -/
theorem Keeping.braced {next : Block → Action α} {good : α → List Token → Prop} (less : Keeping fuel)
    (proper : ProperRow given) (drawn : (held ++ state.unread).Sublist given)
    (continues : ∀ body later, Drawn Block.Genuine Block.tokens held given body later.unread →
      (next body).Keeps good given later) :
    (expectPeek .lbrace >>= fun _ => Action.block .standard fuel >>= next).Keeps good given state :=
  comes_expectPeek (fun _ => sublist_of_held drawn) fun brace =>
    (@Keeping.block _ less state.advance _ _ proper brace drawn).bind continues

theorem Keeping.conditional_succ (less : Keeping fuel) (proper : ProperRow given) (word : state.current.kind = .ifWord)
    (drawn : (held ++ state.stream.ahead).Sublist given) : (Action.opening .standard (fuel + 1) .conditional).Keeps
      (Drawn Expr.Genuine Expr.tokens held given) given state := by
  rw [state.ahead_of_kind word (by decide)] at drawn
  have there : state.current.Proper := proper _ (drawn.subset (by simp))
  rw [List.append_cons] at drawn
  refine comes_current (comes_expectPeek (fun _ => sublist_of_held drawn) fun _ => comes_advance ?_)
  refine (less.expression proper (drawn_advance drawn)).bind fun condition first one => ?_
  refine comes_expectPeek (fun _ => sublist_of_held one.unread) fun _ => ?_
  refine less.braced proper (drawn_advance one.unread) fun consequence second two => ?_
  refine comes_peek (.ite (fun _ => comes_advance ?_) fun _ => comes_pure ⟨?_, ?_⟩)
  · refine less.braced proper (drawn_advance two.unread) fun alternative last three => comes_pure ⟨?_, ?_⟩
    · exact genuine_conditional there word one.fine two.fine fun block member => by cases member; exact three.fine
    · simpa [Expr.tokens, alternativeTokens] using three.sublist
  · exact genuine_conditional there word one.fine two.fine nofun
  · simpa [Expr.tokens, alternativeTokens] using two.sublist

theorem Keeping.function_succ (less : Keeping fuel) (proper : ProperRow given) (word : state.current.kind = .fnWord)
    (drawn : (held ++ state.stream.ahead).Sublist given) :
    (Action.opening .standard (fuel + 1) .function).Keeps (Drawn Expr.Genuine Expr.tokens held given) given state := by
  rw [state.ahead_of_kind word (by decide)] at drawn
  have there : state.current.Proper := proper _ (drawn.subset (by simp))
  rw [List.append_cons] at drawn
  refine comes_current (comes_expectPeek (fun _ => sublist_of_held drawn) fun _ => ?_)
  refine (keeps_closedItems (keeps_parameter proper) fuel (drawn_advance drawn)).bind fun names first one => ?_
  refine less.braced proper one.unread fun body last two => comes_pure ⟨?_, ?_⟩
  · exact genuine_function there word one.fine two.fine
  · simpa [Expr.tokens, List.map_eq_flatMap] using two.sublist

theorem Keeping.opening_succ (less : Keeping fuel) {rule : PrefixRule} (proper : ProperRow given)
    (starts : rule.Starts state.current.kind) (drawn : (held ++ state.stream.ahead).Sublist given) :
    (Action.opening .standard (fuel + 1) rule).Keeps (Drawn Expr.Genuine Expr.tokens held given) given state := by
  have ahead := state.ahead_eq_cons (starts.ne rfl)
  have row := drawn
  rw [ahead] at row
  have there : state.current.Proper := proper _ (row.subset (by simp))
  cases rule with
  | identifier => exact comes_current (comes_pure ⟨(there.genuine starts).expr, row⟩)
  | integer =>
    cases value : Text.integer64? state.current.literal with
    | none =>
      exact .of_eq (opening_integer_of_none value) (comes_failHere (sublist_of_held (drawn_unread drawn)))
    | some found =>
      exact .of_eq (opening_integer_of_some value) (comes_pure ⟨genuine_integer there starts value, row⟩)
  | boolean => exact comes_current (comes_pure ⟨genuine_boolean there starts, row⟩)
  | operator =>
    rw [List.append_cons] at row
    refine comes_current (comes_advance ((less.expression proper row).bind fun right later one => comes_pure ⟨?_, ?_⟩))
    · exact genuine_unary there starts one.fine
    · simpa [Expr.tokens] using one.sublist
  | group =>
    refine comes_advance ((less.expression proper (drawn_unread drawn)).bind fun inner later one => ?_)
    refine comes_expectPeek (fun _ => sublist_of_held one.unread) fun _ => comes_pure ⟨one.fine, ?_⟩
    rw [← List.append_assoc]
    exact drawn_advance one.unread
  | conditional => exact less.conditional_succ proper starts drawn
  | function => exact less.function_succ proper starts drawn

theorem Keeping.extension_succ (less : Keeping fuel) {rule : InfixRule} {left : Expr} {power : Power}
    (proper : ProperRow given) (found : Rules.standard.infixRule state.current.kind = some rule)
    (genuine : left.Genuine) (drawn : (held ++ (left.tokens ++ state.stream.ahead)).Sublist given) :
    (Action.extension .standard (fuel + 1) rule left power).Keeps (Drawn Expr.Genuine Expr.tokens held given) given
      state := by
  rw [state.ahead_eq_cons (Rules.ne_eof_of_infixRule found), ← List.append_assoc] at drawn
  have there : state.current.Proper := proper _ (drawn.subset (by simp))
  rw [List.append_cons] at drawn
  cases rule with
  | operator =>
    obtain ⟨level, sign, -⟩ := Rules.standard_operator found
    refine comes_current (comes_advance ((less.expression proper drawn).bind fun right later one => ?_))
    refine comes_pure ⟨?_, ?_⟩
    · exact genuine_binary there sign genuine one.fine
    · simpa [Expr.tokens] using one.sublist
  | call =>
    have item : ∀ held there, (held ++ there.unread).Sublist given →
        Keeps (Drawn Expr.Genuine Expr.tokens held given) given
          (do advance; Action.expression .standard fuel .lowest) there :=
      fun held there drawn => comes_advance (@Keeping.expression _ less _ there.advance _ _ proper drawn)
    refine comes_current ((keeps_closedItems item fuel drawn).bind fun arguments later one => comes_pure ⟨?_, ?_⟩)
    · exact genuine_call there (Rules.standard_call found) genuine one.fine
    · simpa [Expr.tokens, exprsTokens_eq_flatMap] using one.sublist

theorem Keeping.block_succ (less : Keeping fuel) (proper : ProperRow given) (brace : state.current.kind = .lbrace)
    (drawn : (held ++ state.stream.ahead).Sublist given) :
    (Action.block .standard (fuel + 1)).Keeps (Drawn Block.Genuine Block.tokens held given) given state := by
  rw [state.ahead_of_kind brace (by decide)] at drawn
  have there : state.current.Proper := proper _ (drawn.subset (by simp))
  rw [List.append_cons] at drawn
  refine comes_current (comes_advance ?_)
  refine (keeps_statements rfl proper (fun state row here => ?_) fuel drawn).bind
    fun values later body => comes_pure ⟨genuine_block there brace body.fine, ?_⟩
  · exact less.statement row trivial here (List.Sublist.refl _)
  · have inner := drawn_unread body.unread
    simpa [Block.tokens] using inner

theorem Keeping.statement_succ (less : Keeping fuel) {rule : StatementRule} (proper : ProperRow given)
    (starts : rule.Starts state.current.kind) (here : state.current.kind ≠ .eof)
    (drawn : (held ++ state.stream.ahead).Sublist given) :
    (Action.statement .standard (fuel + 1) rule).Keeps (Drawn Stmt.Genuine Stmt.tokens held given) given state := by
  have row := drawn
  rw [state.ahead_eq_cons here] at row
  have there : state.current.Proper := proper _ (row.subset (by simp))
  rw [List.append_cons] at row
  cases rule with
  | binding =>
    refine comes_current ((keeps_parameter proper _ state row).bind fun name first one => ?_)
    refine comes_expectPeek (fun _ => sublist_of_held one.unread) fun _ => comes_advance ?_
    refine (less.expression proper (drawn_advance one.unread)).bind fun value later two => ?_
    refine keeps_skipSemicolon ⟨genuine_binding there starts one.fine two.fine, ?_⟩
    simpa [Stmt.tokens] using two.sublist
  | result =>
    refine comes_current (comes_advance ((less.expression proper row).bind fun value later one => ?_))
    refine keeps_skipSemicolon ⟨genuine_result there starts one.fine, ?_⟩
    simpa [Stmt.tokens] using one.sublist
  | expression =>
    refine comes_current ((less.expression proper drawn).bind fun value later one => ?_)
    exact keeps_skipSemicolon ⟨one.fine.stmt, one.sublist⟩
  | block => exact starts.elim
  | dispatch =>
    exact comes_current (less.statement proper (Rules.standard_statementRule_starts _) here drawn)

theorem keeping (fuel : Nat) : Keeping fuel := by
  induction fuel with
  | zero =>
    exact ⟨fun _ _ => comes_outOfFuel, fun _ _ _ => comes_outOfFuel, fun _ _ _ _ => comes_outOfFuel,
      fun _ _ _ => comes_outOfFuel, fun _ _ _ _ => comes_outOfFuel⟩
  | succ fuel less =>
    exact ⟨less.expression_succ, less.opening_succ, less.extension_succ, less.block_succ, less.statement_succ⟩

/-- A program that is read out of proper tokens is as it is read, and its tokens are some of them, in their order. -/
theorem keeps_of_program {later : ParseState} {program : Program} (proper : ProperRow state.stream.ahead)
    (run : Action.program .standard fuel state = .ok program later) :
    (∀ stmt ∈ program.statements, stmt.Genuine) ∧ program.tokens.Sublist state.stream.ahead := by
  have loop : (statements (· = .eof) (Action.statement .standard fuel .dispatch) fuel).ComesTo True
      (fun values later => Drawn (fun values => ∀ value ∈ values, value.Genuine) stmtsTokens [] state.stream.ahead
        values later.stream.ahead) (fun _ _ => True) state :=
    keeps_statements (by decide) proper
      (fun state row here =>
        @Keeping.statement _ (keeping fuel) .dispatch state [] _ row trivial here (List.Sublist.refl _))
      fuel (List.Sublist.refl _)
  have drawn := loop.of_ok (statements_of_program run)
  exact ⟨drawn.fine, (List.sublist_append_left _ _).trans drawn.sublist⟩

end Action

end LetFn
