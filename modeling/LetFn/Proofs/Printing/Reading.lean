import LetFn.Proofs.Grammar.Tokens
import LetFn.Proofs.Printing.Pieces
import LetFn.Proofs.Printing.Rows

namespace LetFn

/-- The kinds that the text of an expression begins with. -/
def TokenKind.opens : List TokenKind :=
  [ident, trueWord, falseWord, int, lparen, ifWord, fnWord]

theorem TokenKind.ofOperator_closed (operator : String) :
    ofOperator operator ∉ opens ∧ ofOperator operator ≠ elseWord := by
  unfold ofOperator
  repeat' split
  all_goals decide

@[simp]
theorem TokenKind.token_inj {kind kind' : TokenKind} {literal literal' : String} :
    kind.token literal = kind'.token literal' ↔ kind = kind' ∧ literal = literal' := by
  simp [TokenKind.token]

theorem Expr.pieces_front (expr : Expr) :
    ∃ token more, expr.pieces = .token token :: more ∧ token.kind ∈ TokenKind.opens := by
  cases expr with
  | identifier | integer => exact ⟨_, _, rfl, by simp [TokenKind.opens]⟩
  | boolean _ value => exact ⟨_, _, rfl, by cases value <;> decide⟩
  | unary | binary | conditional | function => exact ⟨_, _, rfl, by decide⟩
  | call _ callee arguments =>
    obtain ⟨token, more, front, opens⟩ := callee.pieces_front
    exact ⟨token, _, by rw [Expr.pieces, front, List.cons_append], opens⟩

theorem token_ne_pieces {token : Token} (closed : token.kind ∉ TokenKind.opens) (expr : Expr)
    (more more' : List Piece) : .token token :: more ≠ expr.pieces ++ more' := by
  intro same
  obtain ⟨first, behind, front, opens⟩ := expr.pieces_front
  rw [front] at same
  cases same
  exact closed opens

theorem Stmt.pieces_front {stmt : Stmt} (faithful : stmt.Faithful) : ∃ token more, stmt.pieces = .token token :: more ∧
    token.kind ∈ TokenKind.letWord :: .returnWord :: TokenKind.opens := by
  cases stmt with
  | binding | result => exact ⟨_, _, rfl, by decide⟩
  | expression _ value =>
    obtain ⟨token, more, front, opens⟩ := value.pieces_front
    exact ⟨token, more, front, List.mem_cons_of_mem _ (List.mem_cons_of_mem _ opens)⟩
  | block => exact faithful.elim

/-- No alternative follows. -/
def NoElse (rest : List Piece) : Prop :=
  ∀ more, rest ≠ .space :: .token (TokenKind.elseWord.token "else") :: more

/-- Nothing follows that an expression could go on with: neither an alternative nor arguments. -/
def Quiet (rest : List Piece) : Prop :=
  NoElse rest ∧ ∀ more, rest ≠ .lparen :: more

theorem quiet_of_token {token : Token} (other : token.kind ≠ .lparen) (rest : List Piece) :
    Quiet (.token token :: rest) := by
  refine ⟨fun more same => ?_, fun more same => ?_⟩
  · cases same
  · cases same
    exact other rfl

theorem quiet_of_space {token : Token} (other : token.kind ≠ .elseWord) (rest : List Piece) :
    Quiet (.space :: .token token :: rest) := by
  refine ⟨fun more same => ?_, fun more same => ?_⟩
  · cases same
    exact other rfl
  · cases same

/-- An expression is told from any other where no more arguments of it follow. -/
abbrev Expr.Told (expr : Expr) : Prop :=
  Readable Expr.pieces Expr.outline Expr.Faithful Quiet expr

abbrev Stmt.Told (stmt : Stmt) : Prop :=
  Readable Stmt.pieces Stmt.outline Stmt.Faithful Quiet stmt

/-- A block shows its end by its brace. -/
abbrev Block.Told (block : Block) : Prop :=
  Readable Block.pieces Block.outline Block.Faithful (fun _ => True) block

/-- What stands behind a callee. -/
def callPieces (arguments : List Expr) : List Piece :=
  .lparen :: (argumentPieces arguments ++ [.rparen])

theorem argumentPieces_eq (exprs : List Expr) :
    argumentPieces exprs = separatedPieces Expr.pieces [.comma, .space] exprs := by
  have more : ∀ exprs, moreArgumentPieces exprs = exprs.flatMap ([.comma, .space] ++ Expr.pieces ·) := by
    intro exprs
    induction exprs with
    | nil => rfl
    | cons first others ih => simp [moreArgumentPieces, ih]
  cases exprs with
  | nil => rfl
  | cons first others => rw [argumentPieces, separatedPieces, more]

theorem faithfulExprs_iff (exprs : List Expr) : faithfulExprs exprs ↔ ∀ expr ∈ exprs, expr.Faithful := by
  induction exprs with
  | nil => simp [faithfulExprs]
  | cons first others ih => simp [faithfulExprs, ih]

theorem faithfulStmts_iff (stmts : List Stmt) : faithfulStmts stmts ↔ ∀ stmt ∈ stmts, stmt.Faithful := by
  induction stmts with
  | nil => simp [faithfulStmts]
  | cons first others ih => simp [faithfulStmts, ih]

theorem told_arguments {exprs : List Expr} (told : ∀ expr ∈ exprs, expr.Faithful ∧ expr.Told) :
    Readable callPieces outlineExprs faithfulExprs (fun _ => True) exprs := by
  intro others rest rest' faithful _ _ same
  have closes : ∀ rest, Closes Expr.pieces Expr.Faithful Quiet [.comma, .space] (.rparen :: rest) := by
    refine fun rest => ⟨quiet_of_token (by decide) rest, fun value more _ same => ?_⟩
    cases same
  have apart : ∀ (value : Expr) more rest, value.pieces ++ more ≠ .rparen :: rest :=
    fun value more rest => (token_ne_pieces (by decide) value rest more).symm
  have inside : separatedPieces Expr.pieces [.comma, .space] exprs ++ .rparen :: rest =
      separatedPieces Expr.pieces [.comma, .space] others ++ .rparen :: rest' := by
    simpa [callPieces, argumentPieces_eq] using same
  obtain ⟨outline, last⟩ := readable_separated (fun value more _ => quiet_of_token (by decide) _) (closes rest)
    (closes rest') (fun value more _ => ⟨apart value more rest, apart value more rest'⟩) told
    ((faithfulExprs_iff others).mp faithful) inside
  rw [outlineExprs_eq_map, outlineExprs_eq_map]
  exact ⟨outline, (List.cons_inj_right _).mp last⟩

theorem namePieces_eq (ids : List Identifier) :
    namePieces ids = separatedPieces (fun id => [.name id]) [.comma, .space] ids := by
  cases ids with
  | nil => rfl
  | cons first others => rfl

theorem told_names {ids others : List Identifier} {rest rest' : List Piece}
    (same : namePieces ids ++ .rparen :: rest = namePieces others ++ .rparen :: rest') :
    ids.map Identifier.outline = others.map Identifier.outline ∧ rest = rest' := by
  have closes : ∀ rest, Closes (fun id => [.name id]) (fun _ => True) (fun _ => True) [.comma, .space]
      (.rparen :: rest) := by
    refine fun rest => ⟨trivial, fun value more _ same => ?_⟩
    cases same
  have told : ∀ id, Readable (fun id => [.name id]) Identifier.outline (fun _ => True) (fun _ => True) id := by
    intro id other rest rest' _ _ _ same
    simp only [List.cons_append, List.nil_append, List.cons.injEq, Piece.token.injEq, TokenKind.token_inj,
      true_and] at same
    rw [Identifier.outline, Identifier.outline, same.1]
    exact ⟨rfl, same.2⟩
  rw [namePieces_eq, namePieces_eq] at same
  obtain ⟨outline, last⟩ := readable_separated (fun _ _ _ => trivial) (closes rest) (closes rest')
    (fun value more _ => ⟨nofun, nofun⟩) (fun id _ => ⟨trivial, told id⟩) (fun _ _ => trivial) same
  exact ⟨outline, (List.cons_inj_right _).mp last⟩

/-- What is called with `arguments`, one list of them after the other. -/
def Expr.called (expr : Expr) (arguments : List (List Expr)) : Expr :=
  arguments.foldl (.call default) expr

theorem Expr.called_pieces (expr : Expr) (arguments : List (List Expr)) :
    (expr.called arguments).pieces = expr.pieces ++ arguments.flatMap callPieces := by
  induction arguments generalizing expr with
  | nil => rw [List.flatMap_nil, List.append_nil]; rfl
  | cons first others ih =>
    rw [List.flatMap_cons, ← List.append_assoc]
    exact ih (.call default expr first)

theorem Expr.called_outline (expr : Expr) (arguments : List (List Expr)) :
    (expr.called arguments).outline = expr.outline.called (arguments.map outlineExprs) := by
  induction arguments generalizing expr with
  | nil => rfl
  | cons first others ih => exact ih (.call default expr first)

def Expr.isCall : Expr → Bool
  | .call _ _ _ => true
  | _ => false

/-- An expression other than a call. -/
def Expr.Head (expr : Expr) : Prop :=
  expr.Faithful ∧ expr.isCall = false

/-- Every expression is what is called first, and all that it is called with. -/
theorem Expr.exists_called : (expr : Expr) → expr.Faithful → ∃ head arguments, Expr.Head head ∧
    (∀ exprs ∈ arguments, faithfulExprs exprs) ∧ expr.pieces = (head.called arguments).pieces ∧
    expr.outline = (head.called arguments).outline
  | .call token callee exprs, faithful => by
    obtain ⟨head, arguments, plain, good, pieces, outline⟩ := callee.exists_called faithful.1
    refine ⟨head, arguments ++ [exprs], plain, ?_, ?_, ?_⟩
    · exact List.forall_mem_append.mpr ⟨good, List.forall_mem_singleton.mpr faithful.2⟩
    · rw [Expr.pieces, pieces, Expr.called_pieces, Expr.called_pieces, List.flatMap_append, ← List.append_assoc]
      simp [callPieces]
    · rw [Expr.outline, outline, Expr.called, Expr.called, List.foldl_append]
      rfl
  | .identifier id, faithful => ⟨_, [], ⟨faithful, rfl⟩, nofun, rfl, rfl⟩
  | .boolean _ _, faithful | .integer _ _, faithful | .unary _ _ _, faithful | .binary _ _ _ _, faithful
  | .conditional _ _ _ _, faithful | .function _ _ _, faithful => ⟨_, [], ⟨faithful, rfl⟩, nofun, rfl, rfl⟩

/-- An expression is told from any other with the calls of it that follow. -/
def Expr.ToldCalled (expr : Expr) : Prop :=
  ∀ arguments : List (List Expr),
    (∀ exprs ∈ arguments, faithfulExprs exprs ∧ Readable callPieces outlineExprs faithfulExprs (fun _ => True) exprs) →
    (expr.called arguments).Told

theorem Expr.ToldCalled.told {expr : Expr} (told : expr.ToldCalled) : expr.Told :=
  told [] nofun

theorem toldCalled_call {token : Token} {callee : Expr} {exprs : List Expr} (faithful : faithfulExprs exprs)
    (first : callee.ToldCalled) (others : ∀ expr ∈ exprs, expr.Faithful ∧ expr.Told) :
    (Expr.call token callee exprs).ToldCalled := by
  intro arguments told other rest rest' good quiet quiet' same
  -- the arguments of this call are the first that follow its callee, and that goes down one call
  have behind := first (exprs :: arguments) (List.forall_mem_cons.mpr ⟨⟨faithful, told_arguments others⟩, told⟩)
  rw [Expr.called_pieces] at same
  have whole : (callee.called (exprs :: arguments)).pieces ++ rest = other.pieces ++ rest' := by
    rw [← same, Expr.called_pieces, List.flatMap_cons, ← List.append_assoc]
    rfl
  obtain ⟨outline, last⟩ := behind other rest rest' good quiet quiet' whole
  rw [← outline, Expr.called_outline, Expr.called_outline]
  exact ⟨rfl, last⟩

theorem toldCalled_of_head {expr : Expr} (told : Readable Expr.pieces Expr.outline Expr.Head NoElse expr) :
    expr.ToldCalled := by
  intro arguments readable other rest rest' faithful quiet quiet' same
  -- the other expression may be a call too, so both are taken apart before the fronts are compared
  obtain ⟨head, arguments', plain, good, pieces, outline⟩ := other.exists_called faithful
  have noElse : ∀ (arguments : List (List Expr)) {rest}, Quiet rest →
      NoElse (arguments.flatMap callPieces ++ rest) := by
    intro arguments rest quiet
    cases arguments with
    | nil => exact quiet.1
    | cons first others => intro more same; cases same
  have closes : ∀ {rest}, Quiet rest → Closes callPieces faithfulExprs (fun _ => True) [] rest :=
    fun quiet => ⟨trivial, fun value more _ same => quiet.2 _ same.symm⟩
  rw [pieces, Expr.called_pieces, Expr.called_pieces, List.append_assoc, List.append_assoc] at same
  obtain ⟨first, others⟩ := told head _ _ plain (noElse arguments quiet) (noElse arguments' quiet') same
  obtain ⟨back, last⟩ := readable_rows (fun _ _ _ => trivial) (closes quiet) (closes quiet') readable good others
  rw [outline, Expr.called_outline, Expr.called_outline, first, back]
  exact ⟨rfl, last⟩

section Heads

/-- An expression that is no call is told from all of these. -/
abbrev Expr.HeadTold (expr : Expr) : Prop :=
  Readable Expr.pieces Expr.outline Expr.Head NoElse expr

theorem headTold_identifier (id : Identifier) : (Expr.identifier id).HeadTold := by
  rintro other rest rest' ⟨-, plain⟩ - - same
  cases other with
  | identifier id' =>
    simp only [Expr.pieces, List.cons_append, List.nil_append, List.cons.injEq, Piece.token.injEq,
      TokenKind.token_inj, true_and] at same
    rw [Expr.outline, Expr.outline, Identifier.outline, Identifier.outline, same.1]
    exact ⟨rfl, same.2⟩
  | boolean _ value => cases value <;> simp [Expr.pieces] at same
  | call => cases plain
  | _ => simp [Expr.pieces] at same

theorem headTold_boolean (token : Token) (value : Bool) : (Expr.boolean token value).HeadTold := by
  rintro other rest rest' ⟨-, plain⟩ - - same
  cases other with
  | boolean _ value' =>
    cases value <;> cases value' <;> simp [Expr.pieces] at same
    · exact ⟨rfl, same⟩
    · exact ⟨rfl, same⟩
  | call => cases plain
  | _ => cases value <;> simp [Expr.pieces] at same

theorem headTold_integer {token : Token} {value : Int} (faithful : (Expr.integer token value).Faithful) :
    (Expr.integer token value).HeadTold := by
  rintro other rest rest' ⟨faithful', plain⟩ - - same
  cases other with
  | integer token' value' =>
    simp only [Expr.pieces, List.cons_append, List.nil_append, List.cons.injEq, Piece.token.injEq,
      TokenKind.token_inj, true_and] at same
    obtain ⟨number, digits, -, rfl⟩ := faithful
    obtain ⟨number', digits', -, rfl⟩ := faithful'
    rw [same.1, digits'] at digits
    cases digits
    rw [Expr.outline, Expr.outline, same.1]
    exact ⟨rfl, same.2⟩
  | boolean _ value => cases value <;> simp [Expr.pieces] at same
  | call => cases plain
  | _ => simp [Expr.pieces] at same

theorem headTold_unary {token : Token} {operator : String} {right : Expr} (told : right.Told) :
    (Expr.unary token operator right).HeadTold := by
  rintro other rest rest' ⟨faithful, plain⟩ - - same
  cases other with
  | unary _ operator' right' =>
    simp only [Expr.pieces, List.cons_append, List.append_assoc, List.nil_append, List.cons.injEq, Piece.token.injEq,
      TokenKind.token_inj, true_and] at same
    obtain ⟨⟨-, rfl⟩, same⟩ := same
    obtain ⟨outline, last⟩ := told _ _ _ faithful.2 (quiet_of_token (by decide) _) (quiet_of_token (by decide) _) same
    rw [Expr.outline, Expr.outline, outline]
    exact ⟨rfl, (List.cons_inj_right _).mp last⟩
  | binary _ _ left' right' =>
    simp only [Expr.pieces, List.cons_append, List.append_assoc, List.cons.injEq, true_and] at same
    exact absurd same (token_ne_pieces (TokenKind.ofOperator_closed _).1 _ _ _)
  | boolean _ value => cases value <;> simp [Expr.pieces] at same
  | call => cases plain
  | _ => simp [Expr.pieces] at same

theorem headTold_binary {token : Token} {operator : String} {left right : Expr} (told : left.Told)
    (told' : right.Told) : (Expr.binary token operator left right).HeadTold := by
  rintro other rest rest' ⟨faithful, plain⟩ - - same
  cases other with
  | binary _ operator' left' right' =>
    simp only [Expr.pieces, List.cons_append, List.append_assoc, List.nil_append, List.cons.injEq, true_and] at same
    obtain ⟨outline, behind⟩ := told _ _ _ faithful.2.1 (quiet_of_space (TokenKind.ofOperator_closed _).2 _)
      (quiet_of_space (TokenKind.ofOperator_closed _).2 _) same
    simp only [List.cons.injEq, Piece.token.injEq, TokenKind.token_inj, true_and] at behind
    obtain ⟨⟨-, rfl⟩, behind⟩ := behind
    obtain ⟨outline', last⟩ :=
      told' _ _ _ faithful.2.2 (quiet_of_token (by decide) _) (quiet_of_token (by decide) _) behind
    rw [Expr.outline, Expr.outline, outline, outline']
    exact ⟨rfl, (List.cons_inj_right _).mp last⟩
  | unary _ _ right' =>
    simp only [Expr.pieces, List.cons_append, List.append_assoc, List.cons.injEq, true_and] at same
    exact absurd same.symm (token_ne_pieces (TokenKind.ofOperator_closed _).1 _ _ _)
  | boolean _ value => cases value <;> simp [Expr.pieces] at same
  | call => cases plain
  | _ => simp [Expr.pieces] at same

theorem told_alternative {alternative other : Option Block} {rest rest' : List Piece}
    (told : ∀ block ∈ alternative, block.Told) (faithful : faithfulAlternative other) (noElse : NoElse rest)
    (noElse' : NoElse rest') (same : elsePieces alternative ++ rest = elsePieces other ++ rest') :
    outlineAlternative alternative = outlineAlternative other ∧ rest = rest' := by
  cases alternative with
  | none =>
    cases other with
    | none => exact ⟨rfl, same⟩
    | some _ => exact absurd same (noElse _)
  | some block =>
    cases other with
    | none => exact absurd same.symm (noElse' _)
    | some other =>
      simp only [elsePieces, List.cons_append, List.cons.injEq, true_and] at same
      obtain ⟨outline, last⟩ := told block rfl _ _ _ faithful trivial trivial same
      rw [outlineAlternative, outlineAlternative, outline]
      exact ⟨rfl, last⟩

theorem quiet_of_block (block : Block) (rest : List Piece) : Quiet (.space :: (block.pieces ++ rest)) := by
  cases block with
  | mk token statements => exact quiet_of_space (by decide) _

theorem headTold_conditional {token : Token} {condition : Expr} {consequence : Block} {alternative : Option Block}
    (told : condition.Told) (told' : consequence.Told) (told'' : ∀ block ∈ alternative, block.Told) :
    (Expr.conditional token condition consequence alternative).HeadTold := by
  rintro other rest rest' ⟨faithful, plain⟩ noElse noElse' same
  cases other with
  | conditional _ condition' consequence' alternative' =>
    obtain ⟨good, good', good''⟩ := faithful
    simp only [Expr.pieces, List.cons_append, List.append_assoc, List.cons.injEq, true_and] at same
    obtain ⟨outline, behind⟩ := told _ _ _ good (quiet_of_block _ _) (quiet_of_block _ _) same
    obtain ⟨outline', last⟩ := told' _ _ _ good' trivial trivial ((List.cons_inj_right _).mp behind)
    obtain ⟨outline'', last⟩ := told_alternative told'' good'' noElse noElse' last
    rw [Expr.outline, Expr.outline, outline, outline', outline'']
    exact ⟨rfl, last⟩
  | boolean _ value => cases value <;> simp [Expr.pieces] at same
  | call => cases plain
  | _ => simp [Expr.pieces] at same

theorem headTold_function {token : Token} {parameters : List Identifier} {body : Block} (told : body.Told) :
    (Expr.function token parameters body).HeadTold := by
  rintro other rest rest' ⟨faithful, plain⟩ - - same
  cases other with
  | function _ parameters' body' =>
    simp only [Expr.pieces, List.cons_append, List.append_assoc, List.cons.injEq, true_and] at same
    obtain ⟨names, behind⟩ := told_names same
    obtain ⟨outline, last⟩ := told _ _ _ faithful.2.2 trivial trivial ((List.cons_inj_right _).mp behind)
    rw [Expr.outline, Expr.outline, names, outline]
    exact ⟨rfl, last⟩
  | boolean _ value => cases value <;> simp [Expr.pieces] at same
  | call => cases plain
  | _ => simp [Expr.pieces] at same

end Heads

section Statements

variable {token : Token} {value : Expr}

theorem told_binding {name : Identifier} (told : value.Told) : (Stmt.binding token name value).Told := by
  intro other rest rest' faithful _ _ same
  cases other with
  | binding _ name' value' =>
    simp only [Stmt.pieces, List.cons_append, List.append_assoc, List.nil_append, List.cons.injEq, Piece.token.injEq,
      TokenKind.token_inj, true_and] at same
    obtain ⟨names, same⟩ := same
    obtain ⟨outline, last⟩ :=
      told _ _ _ faithful.2.2 (quiet_of_token (by decide) _) (quiet_of_token (by decide) _) same
    rw [Stmt.outline, Stmt.outline, Identifier.outline, Identifier.outline, names, outline]
    exact ⟨rfl, (List.cons_inj_right _).mp last⟩
  | result => simp [Stmt.pieces] at same
  | expression => exact absurd same (token_ne_pieces (by decide) _ _ _)
  | block => exact faithful.elim

theorem told_result (told : value.Told) : (Stmt.result token value).Told := by
  intro other rest rest' faithful _ _ same
  cases other with
  | binding => simp [Stmt.pieces] at same
  | result _ value' =>
    simp only [Stmt.pieces, List.cons_append, List.append_assoc, List.nil_append, List.cons.injEq, true_and] at same
    obtain ⟨outline, last⟩ :=
      told _ _ _ faithful.2 (quiet_of_token (by decide) _) (quiet_of_token (by decide) _) same
    rw [Stmt.outline, Stmt.outline, outline]
    exact ⟨rfl, (List.cons_inj_right _).mp last⟩
  | expression => exact absurd same (token_ne_pieces (by decide) _ _ _)
  | block => exact faithful.elim

theorem told_expression (told : value.Told) : (Stmt.expression token value).Told := by
  intro other rest rest' faithful quiet quiet' same
  cases other with
  | expression _ value' =>
    obtain ⟨outline, last⟩ := told _ _ _ faithful quiet quiet' same
    rw [Stmt.outline, Stmt.outline, outline]
    exact ⟨rfl, last⟩
  | binding | result => exact absurd same.symm (token_ne_pieces (by decide) _ _ _)
  | block => exact faithful.elim

variable {statements : List Stmt}

theorem spacedPieces_eq (stmts : List Stmt) :
    .space :: spacedPieces stmts = stmts.flatMap ([.space] ++ Stmt.pieces ·) ++ [.space] := by
  induction stmts with
  | nil => rfl
  | cons first others ih =>
    rw [spacedPieces, List.flatMap_cons, ih]
    simp

theorem outlineStmts_eq_map (stmts : List Stmt) : outlineStmts stmts = stmts.map Stmt.outline := by
  induction stmts with
  | nil => rfl
  | cons first others ih => rw [outlineStmts, ih, List.map_cons]

/-- A statement of a block is no alternative of the one before it. -/
theorem quiet_of_stmt {stmt : Stmt} (faithful : stmt.Faithful) (more : List Piece) :
    Quiet ([.space] ++ (stmt.pieces ++ more)) := by
  obtain ⟨token, behind, front, opens⟩ := stmt.pieces_front faithful
  rw [front]
  refine quiet_of_space (fun other => ?_) _
  rw [other] at opens
  exact absurd opens (by decide)

theorem told_block (told : ∀ stmt ∈ statements, stmt.Faithful ∧ stmt.Told) : (Block.mk token statements).Told := by
  rintro ⟨token', others⟩ rest rest' faithful - - same
  have closes : ∀ rest, Closes Stmt.pieces Stmt.Faithful Quiet [.space]
      (.space :: .token (TokenKind.rbrace.token "\x7d") :: rest) := by
    refine fun rest => ⟨quiet_of_space (by decide) _, fun value more good same => ?_⟩
    obtain ⟨token, behind, front, opens⟩ := value.pieces_front good
    rw [front] at same
    cases same
    exact absurd opens (by decide)
  have rows : statements.flatMap ([.space] ++ Stmt.pieces ·) ++
        .space :: .token (TokenKind.rbrace.token "\x7d") :: rest =
      others.flatMap ([.space] ++ Stmt.pieces ·) ++ .space :: .token (TokenKind.rbrace.token "\x7d") :: rest' := by
    simp only [Block.pieces, ← List.cons_append, spacedPieces_eq, List.append_assoc] at same
    simpa using same
  obtain ⟨outline, last⟩ := readable_rows (fun _ _ good => quiet_of_stmt good _) (closes rest) (closes rest') told
    ((faithfulStmts_iff others).mp faithful) rows
  rw [Block.outline, Block.outline, outlineStmts_eq_map, outlineStmts_eq_map, outline]
  simp only [List.cons.injEq, true_and] at last
  exact ⟨rfl, last⟩

end Statements

mutual

/-- An expression as it is read is told from any other by its pieces, with the calls of it that follow. -/
theorem Expr.toldCalled : (expr : Expr) → expr.Faithful → expr.ToldCalled
  | .identifier id, _ => toldCalled_of_head (headTold_identifier id)
  | .boolean token value, _ => toldCalled_of_head (headTold_boolean token value)
  | .integer _ _, faithful => toldCalled_of_head (headTold_integer faithful)
  | .unary _ _ right, faithful => toldCalled_of_head (headTold_unary (right.toldCalled faithful.2).told)
  | .binary _ _ left right, faithful =>
    toldCalled_of_head (headTold_binary (left.toldCalled faithful.2.1).told (right.toldCalled faithful.2.2).told)
  | .conditional _ condition consequence alternative, faithful =>
    toldCalled_of_head (headTold_conditional (condition.toldCalled faithful.1).told (consequence.told faithful.2.1)
      (alternativeTold alternative faithful.2.2))
  | .function _ _ body, faithful => toldCalled_of_head (headTold_function (body.told faithful.2.2))
  | .call _ callee arguments, faithful =>
    toldCalled_call faithful.2 (callee.toldCalled faithful.1) (exprsTold arguments faithful.2)

theorem Stmt.told : (stmt : Stmt) → stmt.Faithful → stmt.Told
  | .binding _ _ value, faithful => told_binding (value.toldCalled faithful.2.2).told
  | .result _ value, faithful => told_result (value.toldCalled faithful.2).told
  | .expression _ value, faithful => told_expression (value.toldCalled faithful).told

theorem Block.told : (block : Block) → block.Faithful → block.Told
  | .mk _ statements, faithful => told_block (stmtsTold statements faithful)

theorem exprsTold : (exprs : List Expr) → faithfulExprs exprs → ∀ expr ∈ exprs, expr.Faithful ∧ expr.Told
  | [], _ => nofun
  | first :: others, faithful => List.forall_mem_cons.mpr
    ⟨⟨faithful.1, (first.toldCalled faithful.1).told⟩, exprsTold others faithful.2⟩

theorem stmtsTold : (stmts : List Stmt) → faithfulStmts stmts → ∀ stmt ∈ stmts, stmt.Faithful ∧ stmt.Told
  | [], _ => nofun
  | first :: others, faithful =>
    List.forall_mem_cons.mpr ⟨⟨faithful.1, first.told faithful.1⟩, stmtsTold others faithful.2⟩

theorem alternativeTold : (alternative : Option Block) → faithfulAlternative alternative →
    ∀ block ∈ alternative, block.Told
  | none, _ => nofun
  | some alternative, faithful => fun block member => by cases member; exact alternative.told faithful

end

/-- The text of a program tells it from any other, also where it is not read back as it was. -/
theorem Program.outline_of_text {program other : Program} (faithful : program.Faithful) (faithful' : other.Faithful)
    (same : program.text = other.text) : program.outline = other.outline := by
  have pieces : program.pieces = other.pieces := by
    have cut := (Program.pieced faithful).cut
    rw [same] at cut
    exact cut.unique (Program.pieced faithful').cut
  have lines : ∀ program : Program, program.pieces =
      separatedPieces Stmt.pieces [.blank '\n'] program.statements := by
    rintro ⟨statements⟩
    cases statements with
    | nil => rfl
    | cons first others => rfl
  have quiet : ∀ c rest, c ≠ ' ' → Quiet (.blank c :: rest) := by
    refine fun c rest other => ⟨fun more same => ?_, fun more same => ?_⟩
    · cases same
      exact other rfl
    · cases same
  have closes : Closes Stmt.pieces Stmt.Faithful Quiet [.blank '\n'] [] :=
    ⟨⟨nofun, nofun⟩, fun value more _ same => by cases same⟩
  have apart : ∀ (value : Stmt) more, value.Faithful → value.pieces ++ more ≠ [] := by
    intro value more good same
    obtain ⟨token, behind, front, -⟩ := value.pieces_front good
    rw [front] at same
    cases same
  rw [lines, lines, ← List.append_nil (separatedPieces _ _ _), ← List.append_nil (separatedPieces _ _ other.statements)]
    at pieces
  obtain ⟨outline, -⟩ := readable_separated (fun _ _ _ => quiet '\n' _ (by decide)) closes closes
    (fun value more good => ⟨apart value more good, apart value more good⟩) (stmtsTold _ faithful)
    ((faithfulStmts_iff _).mp faithful') pieces
  rw [Program.outline, Program.outline, outlineStmts_eq_map, outlineStmts_eq_map, outline]

/-- Sources with the same text have the same tree, whether they are read with complaints or without, but for the places
of their tokens and for the tokens that statements keep of their expressions. -/
theorem parse_content_of_text (source source' : String) (same : (parse source).1.text = (parse source').1.text) :
    (parse source).1.content = (parse source').1.content := by
  obtain ⟨faithful, content⟩ := stmts_genuine (parse_keeps source).1
  obtain ⟨faithful', content'⟩ := stmts_genuine (parse_keeps source').1
  have outline : outlineStmts (parse source).1.statements = outlineStmts (parse source').1.statements :=
    congrArg Program.statements (Program.outline_of_text faithful faithful' same)
  rw [Program.content, Program.content, content, content', outline]

/-- A group is not kept, nor is a statement that is complained of, and the text of neither source reads as the
source. -/
theorem parse_content_of_text_regrouped :
    (parse "if (x) \x7b y; (a + b) \x7d").1.text = (parse "if ((x)) \x7b y; ) (a + b) \x7d").1.text ∧
      (parse "if ((x)) \x7b y; ) (a + b) \x7d").2 ≠ [] ∧
      (parse "if (x) \x7b y; (a + b) \x7d").1.content = (parse "if ((x)) \x7b y; ) (a + b) \x7d").1.content := by
  have same : (parse "if (x) \x7b y; (a + b) \x7d").1.text = (parse "if ((x)) \x7b y; ) (a + b) \x7d").1.text := by
    decide +kernel
  exact ⟨same, by decide +kernel, parse_content_of_text _ _ same⟩

end LetFn
