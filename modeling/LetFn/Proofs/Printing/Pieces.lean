import LetFn.Proofs.Lexing.Pieces
import LetFn.Proofs.Printing.Kinds

namespace LetFn

namespace Piece

abbrev space : Piece := .blank ' '
abbrev comma : Piece := .token (TokenKind.comma.token ",")
abbrev lparen : Piece := .token (TokenKind.lparen.token "(")
abbrev rparen : Piece := .token (TokenKind.rparen.token ")")
abbrev operator (operator : String) : Piece := .token ((TokenKind.ofOperator operator).token operator)
abbrev name (id : Identifier) : Piece := .token (TokenKind.ident.token id.name)

end Piece

/-- Names with commas before them. -/
def moreNamePieces (ids : List Identifier) : List Piece :=
  ids.flatMap fun id => [.comma, .space, .name id]

theorem moreNamePieces_cons (first : Identifier) (others : List Identifier) :
    moreNamePieces (first :: others) = .comma :: .space :: .name first :: moreNamePieces others :=
  rfl

def namePieces : List Identifier → List Piece
  | [] => []
  | first :: others => .name first :: moreNamePieces others

mutual

/-- The pieces that the text of an expression is put together from. -/
def Expr.pieces : Expr → List Piece
  | .identifier id => [.name id]
  | .boolean _ value =>
    [.token (if value then TokenKind.trueWord.token "true" else TokenKind.falseWord.token "false")]
  | .integer token _ => [.token (TokenKind.int.token token.literal)]
  | .unary _ operator right => .lparen :: .operator operator :: (right.pieces ++ [.rparen])
  | .binary _ operator left right =>
    .lparen :: (left.pieces ++ .space :: .operator operator :: .space :: (right.pieces ++ [.rparen]))
  | .conditional _ condition consequence alternative =>
    .token (TokenKind.ifWord.token "if") :: .space ::
      (condition.pieces ++ .space :: (consequence.pieces ++ elsePieces alternative))
  | .function _ parameters body =>
    .token (TokenKind.fnWord.token "fn") :: .lparen :: (namePieces parameters ++ .rparen :: .space :: body.pieces)
  | .call _ callee arguments => callee.pieces ++ .lparen :: (argumentPieces arguments ++ [.rparen])

def Stmt.pieces : Stmt → List Piece
  | .binding _ id value =>
    .token (TokenKind.letWord.token "let") :: .space :: .name id :: .space :: .token (TokenKind.assign.token "=") ::
      .space :: (value.pieces ++ [.token (TokenKind.semicolon.token ";")])
  | .result _ value =>
    .token (TokenKind.returnWord.token "return") :: .space ::
      (value.pieces ++ [.token (TokenKind.semicolon.token ";")])
  | .expression _ value => value.pieces
  | .block body => body.pieces

def Block.pieces : Block → List Piece
  | .mk _ statements =>
    .token (TokenKind.lbrace.token "\x7b") :: .space ::
      (spacedPieces statements ++ [.token (TokenKind.rbrace.token "\x7d")])

def argumentPieces : List Expr → List Piece
  | [] => []
  | first :: others => first.pieces ++ moreArgumentPieces others

/-- Arguments with commas before them. -/
def moreArgumentPieces : List Expr → List Piece
  | [] => []
  | first :: others => .comma :: .space :: (first.pieces ++ moreArgumentPieces others)

/-- Statements with a space behind each. -/
def spacedPieces : List Stmt → List Piece
  | [] => []
  | first :: others => first.pieces ++ .space :: spacedPieces others

def elsePieces : Option Block → List Piece
  | none => []
  | some alternative => .space :: .token (TokenKind.elseWord.token "else") :: .space :: alternative.pieces

end

/-- The pieces of the text of a program, in which statements stand on lines of their own. -/
def Program.pieces (program : Program) : List Piece :=
  match program.statements with
  | [] => []
  | first :: others => first.pieces ++ others.flatMap fun stmt => .blank '\n' :: stmt.pieces

section

variable {chars back : List Char} {pieces further : List Piece}

theorem Pieced.name {id : Identifier} (two : Pieced back further) (printable : id.Printable) (ends : Delimited back) :
    Pieced (id.name.toList ++ back) (.name id :: further) :=
  (pieced_word printable.1 printable.2).append two ends

theorem Pieced.comma (pieced : Pieced chars pieces) : Pieced (", ".toList ++ chars) (.comma :: .space :: pieces) :=
  (pieced.blank (c := ' ') rfl).sign rfl (by decide)

end

theorem pieced_moreNames {ids : List Identifier} (printable : ∀ id ∈ ids, id.Printable) :
    Pieced (((ids.map Identifier.name).map String.toList).flatMap (", ".toList ++ ·)) (moreNamePieces ids) := by
  induction ids with
  | nil => exact pieced_nil
  | cons first others ih =>
    obtain ⟨one, more⟩ := List.forall_mem_cons.mp printable
    rw [List.map_cons, List.map_cons, List.flatMap_cons, List.append_assoc]
    exact ((ih more).name one (delimited_commas _)).comma

theorem pieced_names {ids : List Identifier} (printable : ∀ id ∈ ids, id.Printable) :
    Pieced (separatedBy ", " (ids.map Identifier.name)).toList (namePieces ids) := by
  cases ids with
  | nil => exact pieced_nil
  | cons first others =>
    obtain ⟨one, more⟩ := List.forall_mem_cons.mp printable
    rw [List.map_cons, separatedBy_toList]
    exact (pieced_moreNames more).name one (delimited_commas _)

mutual

/-- The text of an expression is cut into its pieces. -/
theorem Expr.pieced : (expr : Expr) → expr.Faithful → Pieced expr.text.toList expr.pieces
  | .identifier _, faithful => pieced_word faithful.1 faithful.2
  | .boolean token value, literal => by
    simp only [Expr.Faithful] at literal
    rw [Expr.text, literal]
    cases value with
    | false => exact @pieced_word "false" _ (by decide) rfl
    | true => exact @pieced_word "true" _ (by decide) rfl
  | .integer token _, faithful => by
    obtain ⟨number, digits, -⟩ := faithful
    exact pieced_int digits
  | .unary _ operator right, faithful => by
    obtain ⟨c, cs, _, _, text, -, other, -⟩ := right.fronts faithful.2
    have inner := pieced_close (right.pieced faithful.2) (c := ')') rfl (by decide)
    rw [text] at inner
    have known : operator ∈ ["!", "==", "!=", "<", ">", "+", "-", "*", "/"] :=
      (show ["!", "-"] ⊆ _ by decide) faithful.1
    have whole := (inner.operator known other).sign (c := '(') rfl (by decide)
    simpa [Expr.text, Expr.pieces, text] using whole
  | .binary _ operator left right, faithful => by
    have inner := pieced_close (right.pieced faithful.2.2) (c := ')') rfl (by decide)
    have middle := (inner.blank (c := ' ') rfl).operator (List.mem_cons_of_mem "!" faithful.1) (by decide)
    have front := (left.pieced faithful.2.1).append (middle.blank (c := ' ') rfl) (delimited_cons.mpr rfl)
    have whole := front.sign (c := '(') rfl (by decide)
    simpa [Expr.text, Expr.pieces] using whole
  | .conditional _ condition consequence alternative, faithful => by
    have behind := (consequence.pieced faithful.2.1).append (elsePieced alternative faithful.2.2)
      (delimited_else alternative)
    have middle := (condition.pieced faithful.1).append (behind.blank (c := ' ') rfl) (delimited_cons.mpr rfl)
    have word : Pieced "if".toList [.token (TokenKind.ifWord.token "if")] := pieced_word (by decide) rfl
    have whole := word.append (middle.blank (c := ' ') rfl) (delimited_cons.mpr rfl)
    simpa [Expr.text, Expr.pieces] using whole
  | .function token parameters body, faithful => by
    have inner := ((body.pieced faithful.2.2).blank (c := ' ') rfl).sign (c := ')') rfl (by decide)
    have names := (pieced_names faithful.2.1).append inner (delimited_sign rfl _)
    have word : Pieced "fn".toList [.token (TokenKind.fnWord.token "fn")] := pieced_word (by decide) rfl
    have whole := word.append (names.sign (c := '(') rfl (by decide)) (delimited_sign rfl _)
    simpa [Expr.text, Expr.pieces, faithful.1] using whole
  | .call _ callee arguments, faithful => by
    have inner := pieced_close (argumentsPieced arguments faithful.2) (c := ')') rfl (by decide)
    have whole := (callee.pieced faithful.1).append (inner.sign (c := '(') rfl (by decide)) (delimited_sign rfl _)
    simpa [Expr.text, Expr.pieces] using whole

theorem Stmt.pieced : (stmt : Stmt) → stmt.Faithful → Pieced stmt.text.toList stmt.pieces
  | .binding token name value, faithful => by
    have inner := pieced_close (value.pieced faithful.2.2) (c := ';') rfl (by decide)
    have behind := (inner.blank (c := ' ') rfl).equals (by decide)
    have middle := (behind.blank (c := ' ') rfl).name faithful.2.1 (delimited_cons.mpr rfl)
    have word : Pieced "let".toList [.token (TokenKind.letWord.token "let")] := pieced_word (by decide) rfl
    have whole := word.append (middle.blank (c := ' ') rfl) (delimited_cons.mpr rfl)
    simpa [Stmt.text, Stmt.pieces, faithful.1] using whole
  | .result token value, faithful => by
    have inner := pieced_close (value.pieced faithful.2) (c := ';') rfl (by decide)
    have word : Pieced "return".toList [.token (TokenKind.returnWord.token "return")] := pieced_word (by decide) rfl
    have whole := word.append (inner.blank (c := ' ') rfl) (delimited_cons.mpr rfl)
    simpa [Stmt.text, Stmt.pieces, faithful.1] using whole
  | .expression _ value, faithful => value.pieced faithful

theorem Block.pieced : (block : Block) → block.Faithful → Pieced block.text.toList block.pieces
  | .mk _ statements, faithful => by
    have inner := pieced_close (spacedPieced statements faithful) (c := '\x7d') rfl (by decide)
    have whole := (inner.blank (c := ' ') rfl).sign (c := '\x7b') rfl (by decide)
    simpa [Block.text, Block.pieces] using whole

theorem argumentsPieced : (exprs : List Expr) → faithfulExprs exprs →
    Pieced (separatedBy ", " (exprTexts exprs)).toList (argumentPieces exprs)
  | [], _ => pieced_nil
  | first :: others, faithful => by
    rw [exprTexts, separatedBy_toList]
    exact (first.pieced faithful.1).append (moreArgumentsPieced others faithful.2) (delimited_commas _)

theorem moreArgumentsPieced : (exprs : List Expr) → faithfulExprs exprs →
    Pieced (((exprTexts exprs).map String.toList).flatMap (", ".toList ++ ·)) (moreArgumentPieces exprs)
  | [], _ => pieced_nil
  | first :: others, faithful => by
    rw [exprTexts, List.map_cons, List.flatMap_cons, List.append_assoc]
    exact ((first.pieced faithful.1).append (moreArgumentsPieced others faithful.2) (delimited_commas _)).comma

theorem spacedPieced : (stmts : List Stmt) → faithfulStmts stmts →
    Pieced (spacedTexts stmts).toList (spacedPieces stmts)
  | [], _ => pieced_nil
  | first :: others, faithful => by
    have behind := (spacedPieced others faithful.2).blank (c := ' ') rfl
    have whole := (first.pieced faithful.1).append behind (delimited_cons.mpr rfl)
    simpa [spacedTexts, spacedPieces] using whole

theorem elsePieced : (alternative : Option Block) → faithfulAlternative alternative →
    Pieced (elseText alternative).toList (elsePieces alternative)
  | none, _ => pieced_nil
  | some alternative, faithful => by
    have word : Pieced "else".toList [.token (TokenKind.elseWord.token "else")] := pieced_word (by decide) rfl
    have behind := (alternative.pieced faithful).blank (c := ' ') rfl
    have whole := (word.append behind (delimited_cons.mpr rfl)).blank (c := ' ') rfl
    simpa [elseText, elsePieces] using whole

end

theorem pieced_lines {stmts : List Stmt} (faithful : faithfulStmts stmts) :
    Pieced (((stmts.map Stmt.text).map String.toList).flatMap ("\n".toList ++ ·))
      (stmts.flatMap fun stmt => .blank '\n' :: stmt.pieces) := by
  induction stmts with
  | nil => exact pieced_nil
  | cons first others ih =>
    rw [List.map_cons, List.map_cons, List.flatMap_cons, List.flatMap_cons, List.append_assoc]
    exact ((first.pieced faithful.1).append (ih faithful.2) (delimited_lines _)).blank rfl

theorem Program.pieced {program : Program} (faithful : program.Faithful) :
    Pieced program.text.toList program.pieces := by
  obtain ⟨statements⟩ := program
  cases statements with
  | nil => exact pieced_nil
  | cons first others =>
    rw [Program.text, List.map_cons, separatedBy_toList]
    exact (first.pieced faithful.1).append (pieced_lines faithful.2) (delimited_lines _)

/-- The tokens of the text of a program are those among its pieces. -/
theorem Program.tokenize_text {program : Program} (faithful : program.Faithful) :
    (tokenize program.text).map Token.bare = tokensAmong program.pieces ++ [TokenKind.eof.token ""] :=
  Spells.tokenize _ (Program.pieced faithful).cut.spells

theorem kinds_moreNamePieces (ids : List Identifier) :
    (tokensAmong (moreNamePieces ids)).map Token.kind = moreNameKinds ids := by
  induction ids with
  | nil => rfl
  | cons first others ih => exact congrArg (.comma :: .ident :: ·) ih

theorem kinds_namePieces (ids : List Identifier) : (tokensAmong (namePieces ids)).map Token.kind = nameKinds ids := by
  cases ids with
  | nil => rfl
  | cons first others => exact congrArg (.ident :: ·) (kinds_moreNamePieces others)

mutual

theorem Expr.kinds_pieces : (expr : Expr) → (tokensAmong expr.pieces).map Token.kind = expr.kinds
  | .identifier _ | .integer _ _ => rfl
  | .boolean _ value => by cases value <;> rfl
  | .unary _ _ right => by simp [Expr.pieces, Expr.kinds, right.kinds_pieces]
  | .binary _ _ left right => by simp [Expr.pieces, Expr.kinds, left.kinds_pieces, right.kinds_pieces]
  | .conditional _ condition consequence alternative => by
    simp [Expr.pieces, Expr.kinds, condition.kinds_pieces, consequence.kinds_pieces, kinds_elsePieces alternative]
  | .function _ parameters body => by
    simp [Expr.pieces, Expr.kinds, kinds_namePieces, body.kinds_pieces]
  | .call _ callee arguments => by
    simp [Expr.pieces, Expr.kinds, callee.kinds_pieces, kinds_argumentPieces arguments]

theorem Stmt.kinds_pieces : (stmt : Stmt) → (tokensAmong stmt.pieces).map Token.kind = stmt.kinds
  | .binding _ _ value | .result _ value => by simp [Stmt.pieces, Stmt.kinds, value.kinds_pieces]
  | .expression _ value => value.kinds_pieces
  | .block body => body.kinds_pieces

theorem Block.kinds_pieces : (block : Block) → (tokensAmong block.pieces).map Token.kind = block.kinds
  | .mk _ statements => by simp [Block.pieces, Block.kinds, kinds_spacedPieces statements]

theorem kinds_argumentPieces : (exprs : List Expr) →
    (tokensAmong (argumentPieces exprs)).map Token.kind = argumentKinds exprs
  | [] => rfl
  | first :: others => by
    simp [argumentPieces, argumentKinds, first.kinds_pieces, kinds_moreArgumentPieces others]

theorem kinds_moreArgumentPieces : (exprs : List Expr) →
    (tokensAmong (moreArgumentPieces exprs)).map Token.kind = moreArgumentKinds exprs
  | [] => rfl
  | first :: others => by
    simp [moreArgumentPieces, moreArgumentKinds, first.kinds_pieces, kinds_moreArgumentPieces others]

theorem kinds_spacedPieces : (stmts : List Stmt) → (tokensAmong (spacedPieces stmts)).map Token.kind = stmtKinds stmts
  | [] => rfl
  | first :: others => by simp [spacedPieces, stmtKinds, first.kinds_pieces, kinds_spacedPieces others]

theorem kinds_elsePieces : (alternative : Option Block) →
    (tokensAmong (elsePieces alternative)).map Token.kind = elseKinds alternative
  | none => rfl
  | some alternative => by simp [elsePieces, elseKinds, alternative.kinds_pieces]

end

theorem tokensAmong_lines (stmts : List Stmt) :
    tokensAmong (stmts.flatMap fun stmt => .blank '\n' :: stmt.pieces) = tokensAmong (spacedPieces stmts) := by
  induction stmts with
  | nil => rfl
  | cons first others ih => simp [spacedPieces, ih]

/-- On lines of their own or in one line, statements have the same tokens. -/
theorem Program.tokensAmong_pieces (program : Program) :
    tokensAmong program.pieces = tokensAmong (spacedPieces program.statements) := by
  obtain ⟨statements⟩ := program
  cases statements with
  | nil => rfl
  | cons first others => simp [Program.pieces, spacedPieces, tokensAmong_lines]

/-- The tokens of the text of a program are of its kinds. -/
theorem Program.kinds_of_text {program : Program} (faithful : program.Faithful) :
    (TokenStream.ofString program.text).ahead.map Token.kind = stmtKinds program.statements := by
  have cut := Program.tokenize_text faithful
  rw [(TokenStream.ofString_spec program.text).2, List.map_append] at cut
  have bare := (List.append_inj' cut rfl).1
  rw [← kinds_spacedPieces, ← program.tokensAmong_pieces, ← bare, List.map_map]
  rfl

end LetFn
