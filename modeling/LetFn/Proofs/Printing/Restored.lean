import LetFn.Proofs.Grammar.Rendering
import LetFn.Proofs.Tree.Faithful

namespace LetFn

/-- How a printed text begins: with no sign of equality, and where it would go on with what is before it, with
a parenthesis. -/
def Opens (text : List Char) (tokens : List Token) : Prop :=
  ∃ c cs first behind, text = c :: cs ∧ tokens = first :: behind ∧ c ≠ '=' ∧ (first.kind.Continues → c = '(')

theorem Opens.append {text : List Char} {tokens : List Token} (opens : Opens text tokens) (back : List Char)
    (further : List Token) : Opens (text ++ back) (tokens ++ further) := by
  obtain ⟨c, cs, first, behind, rfl, rfl, other, only⟩ := opens
  exact ⟨c, cs ++ back, first, behind ++ further, rfl, rfl, other, only⟩

theorem opens_cons {c : Char} {kind : TokenKind} (other : c ≠ '=') (ends : ¬kind.Continues) (cs : List Char)
    (literal : String) (behind : List Token) : Opens (c :: cs) (kind.token literal :: behind) :=
  ⟨c, cs, _, behind, rfl, rfl, other, fun continues => absurd continues ends⟩

/-- The text of an expression is cut into `tokens`, of which the grammar makes `again`. The two differ in nothing
but the tokens they keep. -/
structure Expr.Restored (expr again : Expr) (tokens : List Token) : Prop where
  outline : again.outline = expr.outline
  opens : Opens expr.text.toList tokens
  spelled : Spelled expr.text.toList tokens
  reads : ∀ rest, Reads (.expression .call again) (tokens ++ rest) rest

/-- The same of an operation, of which `inner` is what stands between the parentheses. -/
structure Expr.Enclosed (expr again : Expr) (inner : List Token) : Prop where
  outline : again.outline = expr.outline
  start : ∃ cs, expr.text.toList = '(' :: cs
  spelled : Spelled expr.text.toList (TokenKind.lparen.token "(" :: (inner ++ [TokenKind.rparen.token ")"]))
  reads : ∃ level, ∀ rest, Reads (.expression level again) (inner ++ rest) rest

structure Stmt.Restored (stmt again : Stmt) (tokens : List Token) : Prop where
  outline : again.outline = stmt.outline
  opens : Opens stmt.text.toList tokens
  spelled : Spelled stmt.text.toList tokens
  reads : ∀ rest, ¬(nextKind rest).Continues ∨ (∀ token value, stmt ≠ .expression token value) →
    Reads (.statement again) (tokens ++ rest) rest

structure Block.Restored (block again : Block) (tokens : List Token) : Prop where
  outline : again.outline = block.outline
  spelled : Spelled block.text.toList tokens
  reads : ∀ rest, Reads (.block again) (tokens ++ rest) rest

theorem Expr.Enclosed.restored {expr again : Expr} {inner : List Token} (enclosed : expr.Enclosed again inner) :
    ∃ again tokens, expr.Restored again tokens := by
  obtain ⟨outline, ⟨cs, text⟩, spelled, level, reads⟩ := enclosed
  refine ⟨again, _, outline, ⟨_, _, _, _, text, rfl, by decide, fun _ => rfl⟩, spelled, fun rest => ?_⟩
  rw [List.cons_append, List.append_assoc]
  exact .group rfl (reads _) rfl

theorem restored_identifier {id : Identifier} (printable : id.Printable) :
    (Expr.identifier id).Restored (.identifier (.ofToken (TokenKind.ident.token id.name)))
      [TokenKind.ident.token id.name] := by
  obtain ⟨word, ident⟩ := printable
  refine ⟨rfl, ?_, spelled_word word ident, fun rest => .identifier rfl⟩
  cases chars : id.name.toList with
  | nil => rw [chars] at word; cases word
  | cons c cs =>
    rw [Expr.text, chars]
    refine opens_cons ?_ (by decide) _ _ _
    rintro rfl
    rw [chars] at word
    exact absurd (isLetter_of_isWord word) (by decide)

theorem restored_boolean {token : Token} {value : Bool} (literal : token.literal = if value then "true" else "false") :
    ∃ again tokens, (Expr.boolean token value).Restored again tokens := by
  cases value with
  | true =>
    have text : (Expr.boolean token true).text = "true" := literal
    refine ⟨.boolean (TokenKind.trueWord.token "true") true, [TokenKind.trueWord.token "true"], rfl, ?_, ?_,
      fun rest => .boolean (.inl rfl)⟩
    · rw [text]
      exact opens_cons (c := 't') (by decide) (by decide) _ _ _
    · rw [text]
      exact spelled_word (by decide) rfl
  | false =>
    have text : (Expr.boolean token false).text = "false" := literal
    refine ⟨.boolean (TokenKind.falseWord.token "false") false, [TokenKind.falseWord.token "false"], rfl, ?_, ?_,
      fun rest => .boolean (.inr rfl)⟩
    · rw [text]
      exact opens_cons (c := 'f') (by decide) (by decide) _ _ _
    · rw [text]
      exact spelled_word (by decide) rfl

theorem restored_integer {token : Token} {number : Nat}
    (digits : Text.natural? token.literal.toList = some number) (small : number ≤ 0x7fffffffffffffff) :
    (Expr.integer token number).Restored (.integer (TokenKind.int.token token.literal) number)
      [TokenKind.int.token token.literal] := by
  refine ⟨rfl, ?_, spelled_int digits, fun rest => .integer rfl digits small⟩
  cases chars : token.literal.toList with
  | nil => rw [chars] at digits; cases digits
  | cons c cs =>
    rw [Expr.text, chars]
    refine opens_cons ?_ (by decide) _ _ _
    rintro rfl
    rw [chars] at digits
    exact absurd (Text.natural?_head digits) (by decide)

theorem spells_unary {operator : String} (sign : operator ∈ ["!", "-"]) : ∃ kind,
    (kind = TokenKind.bang ∨ kind = TokenKind.minus) ∧ ∀ rest tokens, rest.head? ≠ some '=' → Spells rest tokens →
      Spells (operator.toList ++ rest) (kind.token operator :: tokens) := by
  simp only [List.mem_cons, List.not_mem_nil, or_false] at sign
  rcases sign with rfl | rfl
  · exact ⟨_, .inl rfl, fun rest tokens => spells_operator (by decide)⟩
  · exact ⟨_, .inr rfl, fun rest tokens => spells_operator (by decide)⟩

theorem spells_binary {operator : String} (sign : operator ∈ ["==", "!=", "<", ">", "+", "-", "*", "/"]) :
    ∃ (kind : TokenKind) (level : Power), kind.level? = some level ∧
      ∀ rest tokens, rest.head? ≠ some '=' → Spells rest tokens →
        Spells (operator.toList ++ rest) (kind.token operator :: tokens) := by
  have found : ∃ level, (TokenKind.ofOperator operator).level? = some level := by
    simp only [List.mem_cons, List.not_mem_nil, or_false] at sign
    rcases sign with rfl | rfl | rfl | rfl | rfl | rfl | rfl | rfl <;> exact ⟨_, rfl⟩
  obtain ⟨level, found⟩ := found
  exact ⟨_, level, found, fun rest tokens => spells_operator (List.mem_cons_of_mem _ sign)⟩

theorem enclosed_unary {token : Token} {operator : String} {right again : Expr} {tokens : List Token}
    (sign : operator ∈ ["!", "-"]) (restored : right.Restored again tokens) :
    ∃ again inner, (Expr.unary token operator right).Enclosed again inner := by
  obtain ⟨kind, prefixes, cut⟩ := spells_unary sign
  obtain ⟨c, cs, _, _, text, _, other, _⟩ := restored.opens
  refine ⟨.unary (kind.token operator) operator again, kind.token operator :: tokens, ?_, ?_, ?_, .sign, ?_⟩
  · rw [Expr.outline, Expr.outline, restored.outline]
  · exact ⟨_, by simp only [Expr.text, String.toList_append]; rfl⟩
  · intro rest more _ spells
    have behind := restored.spelled.sign (c := ')') rfl (by decide) spells
    have front := cut _ _ (by rw [text]; simpa using other) behind
    simpa [Expr.text] using spells_sign (c := '(') rfl (.inr (by decide)) front
  · intro rest
    exact .unary prefixes (by decide) (restored.reads rest)

theorem enclosed_binary {token : Token} {operator : String} {left right again again' : Expr}
    {tokens further : List Token} (sign : operator ∈ ["==", "!=", "<", ">", "+", "-", "*", "/"])
    (restored : left.Restored again tokens) (restored' : right.Restored again' further) :
    ∃ again inner, (Expr.binary token operator left right).Enclosed again inner := by
  obtain ⟨kind, level, found, cut⟩ := spells_binary sign
  have under := (TokenKind.level_lt_sign found).2
  have low : level < Power.call := Nat.lt_trans under (by decide)
  refine ⟨.binary (kind.token operator) operator again again', tokens ++ kind.token operator :: further,
    ?_, ?_, ?_, level, ?_⟩
  · rw [Expr.outline, Expr.outline, restored.outline, restored'.outline]
  · exact ⟨_, by simp only [Expr.text, String.toList_append]; rfl⟩
  · intro rest more _ spells
    have behind := restored'.spelled.sign (c := ')') rfl (by decide) spells
    have middle := cut _ _ (by simp) (spells_blank (c := ' ') rfl behind)
    have front := restored.spelled.blank middle
    simpa [Expr.text] using spells_sign (c := '(') rfl (.inr (by decide)) front
  · intro rest
    rw [List.append_assoc]
    exact .binary found (Nat.le_of_lt low) (restored.reads _) low (restored'.reads rest)

/-- `rows` in order, with `mark` between neighbours. -/
def separatedRows (mark : List Token) : List (List Token) → List Token
  | [] => []
  | first :: others => first ++ others.flatMap (mark ++ ·)

theorem separatedBy_toList (separator first : String) (others : List String) :
    (separatedBy separator (first :: others)).toList =
      first.toList ++ (others.map String.toList).flatMap (separator.toList ++ ·) := by
  induction others generalizing first with
  | nil => simp [separatedBy]
  | cons next more ih =>
    rw [separatedBy, String.toList_append, String.toList_append, ih]
    simp

theorem spelled_separated {separator : String} {mark : List Token} {texts : List String} {rows : List (List Token)}
    (first : Delimited separator.toList) (filled : separator.toList ≠ [])
    (cut : ∀ rest more, Spells rest more → Spells (separator.toList ++ rest) (mark ++ more))
    (spelled : List.Forall₂ (fun text row => Spelled text.toList row) texts rows) :
    Spelled (separatedBy separator texts).toList (separatedRows mark rows) := by
  cases spelled with
  | nil => exact fun _ _ _ spells => spells
  | cons one others =>
    rw [separatedBy_toList, separatedRows]
    obtain ⟨behind, ends⟩ := spelled_flatMap _ _ first cut filled (List.forall₂_map_left_iff.mpr others)
    exact one.append behind ends

theorem spelled_commas {texts : List String} {rows : List (List Token)}
    (spelled : List.Forall₂ (fun text row => Spelled text.toList row) texts rows) :
    Spelled (separatedBy ", " texts).toList (separatedRows [TokenKind.comma.token ","] rows) := by
  refine spelled_separated (delimited_cons.mpr (by decide)) (by decide) (fun rest more spells => ?_) spelled
  exact spells_sign (c := ',') rfl (.inr (by decide)) (spells_blank (c := ' ') rfl spells)

theorem spelled_lines {texts : List String} {rows : List (List Token)}
    (spelled : List.Forall₂ (fun text row => Spelled text.toList row) texts rows) :
    Spelled (separatedBy "\n" texts).toList (separatedRows [] rows) :=
  spelled_separated (delimited_cons.mpr (by decide)) (by decide)
    (fun _ _ spells => spells_blank (c := '\n') rfl spells) spelled

theorem spacedTexts_toList (stmts : List Stmt) :
    ' ' :: (spacedTexts stmts).toList = (stmts.map fun stmt => stmt.text.toList).flatMap ([' '] ++ ·) ++ [' '] := by
  induction stmts with
  | nil => rfl
  | cons first others ih =>
    rw [spacedTexts, String.toList_append, String.toList_append, List.map_cons, List.flatMap_cons, List.append_assoc,
      List.append_assoc, ← ih]
    rfl

section Arguments

variable {exprs : List Expr} {parts : List (Expr × List Token)}

theorem exprTexts_eq_map (exprs : List Expr) : exprTexts exprs = exprs.map Expr.text := by
  induction exprs with
  | nil => rfl
  | cons first others ih => rw [exprTexts, ih, List.map_cons]

theorem outlineExprs_eq_map (exprs : List Expr) : outlineExprs exprs = exprs.map Expr.outline := by
  induction exprs with
  | nil => rfl
  | cons first others ih => rw [outlineExprs, ih, List.map_cons]

theorem reads_moreArguments (restored : List.Forall₂ (fun expr part => expr.Restored part.1 part.2) exprs parts)
    (rest : List Token) : Reads (.moreArguments (parts.map Prod.fst))
      ((parts.map Prod.snd).flatMap ([TokenKind.comma.token ","] ++ ·) ++ TokenKind.rparen.token ")" :: rest) rest := by
  induction restored with
  | nil => exact .lastArgument rfl
  | cons one others ih =>
    rw [List.map_cons, List.map_cons, List.flatMap_cons, List.append_assoc, List.append_assoc]
    exact .nextArgument rfl (one.reads _) ih

theorem reads_arguments (restored : List.Forall₂ (fun expr part => expr.Restored part.1 part.2) exprs parts)
    (rest : List Token) : Reads (.arguments (parts.map Prod.fst))
      (separatedRows [TokenKind.comma.token ","] (parts.map Prod.snd) ++ TokenKind.rparen.token ")" :: rest) rest := by
  cases restored with
  | nil => exact .noArguments rfl
  | cons one others =>
    rw [List.map_cons, List.map_cons, separatedRows, List.append_assoc]
    exact .someArguments (one.reads _) (reads_moreArguments others rest)

theorem restored_call {token : Token} {callee again : Expr} {tokens : List Token}
    (restored : callee.Restored again tokens)
    (arguments : List.Forall₂ (fun expr part => expr.Restored part.1 part.2) exprs parts) :
    ∃ again tokens, (Expr.call token callee exprs).Restored again tokens := by
  refine ⟨.call (TokenKind.lparen.token "(") again (parts.map Prod.fst), tokens ++ TokenKind.lparen.token "(" ::
    (separatedRows [TokenKind.comma.token ","] (parts.map Prod.snd) ++ [TokenKind.rparen.token ")"]), ?_, ?_, ?_, ?_⟩
  · have same : (parts.map Prod.fst).map Expr.outline = exprs.map Expr.outline := by
      induction arguments with
      | nil => rfl
      | cons one others ih => rw [List.map_cons, List.map_cons, List.map_cons, one.outline, ih]
    rw [Expr.outline, Expr.outline, restored.outline, outlineExprs_eq_map, outlineExprs_eq_map, same]
  · rw [Expr.text, String.toList_append, String.toList_append, String.toList_append, List.append_assoc,
      List.append_assoc]
    exact restored.opens.append _ _
  · intro rest more _ spells
    have texts : List.Forall₂ (fun text row => Spelled text.toList row) (exprTexts exprs) (parts.map Prod.snd) := by
      rw [exprTexts_eq_map, List.forall₂_map_left_iff, List.forall₂_map_right_iff]
      exact arguments.imp fun _ _ one => one.spelled
    have inside := (spelled_commas texts).sign (c := ')') rfl (by decide) spells
    have front := restored.spelled.sign (c := '(') rfl (by decide) inside
    simpa [Expr.text] using front
  · intro rest
    rw [List.append_assoc, List.cons_append, List.append_assoc]
    exact .call (restored.reads _) rfl (reads_arguments arguments rest)

end Arguments

section Parameters

variable {ids : List Identifier}

/-- The tokens that a name is printed as. -/
def Identifier.row (id : Identifier) : List Token :=
  [TokenKind.ident.token id.name]

theorem reads_moreParameters (ids : List Identifier) (rest : List Token) :
    Reads (.moreParameters (ids.map fun id => .ofToken (TokenKind.ident.token id.name)))
      ((ids.map Identifier.row).flatMap ([TokenKind.comma.token ","] ++ ·) ++ TokenKind.rparen.token ")" :: rest)
      rest := by
  induction ids with
  | nil => exact .lastParameter rfl
  | cons first others ih => exact .nextParameter rfl rfl ih

theorem reads_parameters (ids : List Identifier) (rest : List Token) :
    Reads (.parameters (ids.map fun id => .ofToken (TokenKind.ident.token id.name)))
      (separatedRows [TokenKind.comma.token ","] (ids.map Identifier.row) ++ TokenKind.rparen.token ")" :: rest)
      rest := by
  cases ids with
  | nil => exact .noParameters rfl
  | cons first others => exact .someParameters rfl (reads_moreParameters others rest)

theorem restored_function {token : Token} {body again : Block} {tokens : List Token} (word : token.literal = "fn")
    (printable : ∀ id ∈ ids, id.Printable) (restored : body.Restored again tokens) :
    ∃ again tokens, (Expr.function token ids body).Restored again tokens := by
  have text : (Expr.function token ids body).text.toList = 'f' :: 'n' :: '(' ::
      ((separatedBy ", " (ids.map Identifier.name)).toList ++ ')' :: ' ' :: body.text.toList) := by
    rw [Expr.text, word]
    simp
  refine ⟨.function (TokenKind.fnWord.token "fn") (ids.map fun id => .ofToken (TokenKind.ident.token id.name)) again,
    TokenKind.fnWord.token "fn" :: TokenKind.lparen.token "(" ::
      (separatedRows [TokenKind.comma.token ","] (ids.map Identifier.row) ++ TokenKind.rparen.token ")" :: tokens),
    ?_, ?_, ?_, ?_⟩
  · rw [Expr.outline, Expr.outline, restored.outline, List.map_map]
    rfl
  · rw [text]
    exact opens_cons (by decide) (by decide) _ _ _
  · intro rest more ends spells
    have names : List.Forall₂ (fun text row => Spelled text.toList row) (ids.map Identifier.name)
        (ids.map Identifier.row) := by
      rw [List.forall₂_map_left_iff, List.forall₂_map_right_iff, List.forall₂_same]
      exact fun id member => (restored_identifier (printable id member)).spelled
    have behind := spells_blank (c := ' ') rfl (restored.spelled _ _ ends spells)
    have inside := (spelled_commas names).sign (c := ')') rfl (by decide) behind
    have word : Spelled "fn".toList [TokenKind.fnWord.token "fn"] := spelled_word (by decide) rfl
    have front := word.sign (c := '(') rfl (by decide) inside
    simpa [text] using front
  · intro rest
    rw [List.cons_append, List.cons_append, List.append_assoc]
    exact .function rfl rfl (reads_parameters ids _) (restored.reads rest)

end Parameters

section Conditional

variable {token : Token} {condition again : Expr} {inner tokens further : List Token}
  {consequence alternative again' again'' : Block}

theorem restored_conditional (enclosed : condition.Enclosed again inner)
    (restored : consequence.Restored again' tokens) :
    ∃ again tokens, (Expr.conditional token condition consequence none).Restored again tokens := by
  have text : (Expr.conditional token condition consequence none).text.toList =
      'i' :: 'f' :: ' ' :: (condition.text.toList ++ ' ' :: consequence.text.toList) := by
    simp [Expr.text, elseText]
  obtain ⟨level, reads⟩ := enclosed.reads
  refine ⟨.conditional (TokenKind.ifWord.token "if") again again' none, TokenKind.ifWord.token "if" ::
    TokenKind.lparen.token "(" :: (inner ++ TokenKind.rparen.token ")" :: tokens), ?_, ?_, ?_, ?_⟩
  · rw [Expr.outline, Expr.outline, enclosed.outline, restored.outline]
  · rw [text]
    exact opens_cons (by decide) (by decide) _ _ _
  · intro rest more ends spells
    have middle := enclosed.spelled.blank (restored.spelled _ _ ends spells)
    have word : Spelled "if".toList [TokenKind.ifWord.token "if"] := spelled_word (by decide) rfl
    have front := word.blank middle
    simpa [text] using front
  · intro rest
    rw [List.cons_append, List.cons_append, List.append_assoc]
    exact .conditional rfl rfl (reads _) rfl (restored.reads rest)

theorem restored_alternative (enclosed : condition.Enclosed again inner)
    (restored : consequence.Restored again' tokens) (restored' : alternative.Restored again'' further) :
    ∃ again tokens, (Expr.conditional token condition consequence (some alternative)).Restored again tokens := by
  have text : (Expr.conditional token condition consequence (some alternative)).text.toList =
      'i' :: 'f' :: ' ' :: (condition.text.toList ++ ' ' :: (consequence.text.toList ++
        ' ' :: 'e' :: 'l' :: 's' :: 'e' :: ' ' :: alternative.text.toList)) := by
    simp [Expr.text, elseText]
  obtain ⟨level, reads⟩ := enclosed.reads
  refine ⟨.conditional (TokenKind.ifWord.token "if") again again' (some again''), TokenKind.ifWord.token "if" ::
    TokenKind.lparen.token "(" :: (inner ++ TokenKind.rparen.token ")" ::
      (tokens ++ TokenKind.elseWord.token "else" :: further)), ?_, ?_, ?_, ?_⟩
  · rw [Expr.outline, Expr.outline, enclosed.outline, restored.outline]
    exact congrArg _ (congrArg some restored'.outline)
  · rw [text]
    exact opens_cons (by decide) (by decide) _ _ _
  · intro rest more ends spells
    have other : Spelled "else".toList [TokenKind.elseWord.token "else"] := spelled_word (by decide) rfl
    have behind := other.blank (restored'.spelled _ _ ends spells)
    have middle := restored.spelled.blank behind
    have inside := enclosed.spelled.blank middle
    have word : Spelled "if".toList [TokenKind.ifWord.token "if"] := spelled_word (by decide) rfl
    have front := word.blank inside
    simpa [text] using front
  · intro rest
    rw [List.cons_append, List.cons_append, List.append_assoc, List.cons_append, List.append_assoc]
    exact .alternative rfl rfl (reads _) rfl (restored.reads _) rfl (restored'.reads rest)

end Conditional

section Statements

variable {token : Token} {value again : Expr} {tokens : List Token}

theorem restored_binding {name : Identifier} (word : token.literal = "let") (printable : name.Printable)
    (restored : value.Restored again tokens) :
    ∃ again tokens, (Stmt.binding token name value).Restored again tokens := by
  have text : (Stmt.binding token name value).text.toList =
      'l' :: 'e' :: 't' :: ' ' :: (name.name.toList ++ ' ' :: '=' :: ' ' :: (value.text.toList ++ [';'])) := by
    simp [Stmt.text, word]
  refine ⟨.binding (TokenKind.letWord.token "let") (.ofToken (TokenKind.ident.token name.name)) again,
    TokenKind.letWord.token "let" :: TokenKind.ident.token name.name :: TokenKind.assign.token "=" ::
      (tokens ++ [TokenKind.semicolon.token ";"]), ?_, ?_, ?_, ?_⟩
  · rw [Stmt.outline, Stmt.outline, restored.outline]
    rfl
  · rw [text]
    exact opens_cons (by decide) (by decide) _ _ _
  · intro rest more _ spells
    have behind := restored.spelled.sign (c := ';') rfl (by decide) spells
    have equals := spells_sign (c := '=') rfl (.inl (by simp)) (spells_blank (c := ' ') rfl behind)
    have middle := (restored_identifier printable).spelled.blank equals
    have keyword : Spelled "let".toList [TokenKind.letWord.token "let"] := spelled_word (by decide) rfl
    have front := keyword.blank middle
    simpa [text, Expr.text] using front
  · intro rest _
    rw [List.cons_append, List.cons_append, List.cons_append, List.append_assoc]
    exact .binding rfl rfl rfl (restored.reads _) (.semicolon rfl)

theorem restored_result (word : token.literal = "return") (restored : value.Restored again tokens) :
    ∃ again tokens, (Stmt.result token value).Restored again tokens := by
  have text : (Stmt.result token value).text.toList =
      'r' :: 'e' :: 't' :: 'u' :: 'r' :: 'n' :: ' ' :: (value.text.toList ++ [';']) := by
    simp [Stmt.text, word]
  refine ⟨.result (TokenKind.returnWord.token "return") again, TokenKind.returnWord.token "return" ::
    (tokens ++ [TokenKind.semicolon.token ";"]), ?_, ?_, ?_, ?_⟩
  · rw [Stmt.outline, Stmt.outline, restored.outline]
  · rw [text]
    exact opens_cons (by decide) (by decide) _ _ _
  · intro rest more _ spells
    have behind := restored.spelled.sign (c := ';') rfl (by decide) spells
    have keyword : Spelled "return".toList [TokenKind.returnWord.token "return"] := spelled_word (by decide) rfl
    have front := keyword.blank behind
    simpa [text] using front
  · intro rest _
    rw [List.cons_append, List.append_assoc]
    exact .result rfl (restored.reads _) (.semicolon rfl)

theorem restored_expression (restored : value.Restored again tokens) :
    ∃ again tokens, (Stmt.expression token value).Restored again tokens := by
  obtain ⟨c, cs, first, behind, text, rfl, other, only⟩ := restored.opens
  refine ⟨.expression first again, first :: behind, ?_, ⟨c, cs, first, behind, text, rfl, other, only⟩,
    restored.spelled, fun rest follows => ?_⟩
  · rw [Stmt.outline, Stmt.outline, restored.outline]
  · exact .expression (restored.reads rest) (.bare (follows.resolve_right fun other => other _ _ rfl))

variable {stmts : List Stmt} {parts : List (Stmt × List Token)}

/-- Statements one after the other: where no semicolon ends one, what follows it does. -/
theorem reads_statements (restored : List.Forall₂ (fun stmt part => stmt.Restored part.1 part.2) stmts parts)
    (printable : printableStmts stmts) (rest : List Token) (ends : ¬(nextKind rest).Continues) :
    Reads (.statements (parts.map Prod.fst)) ((parts.map Prod.snd).flatten ++ rest) rest := by
  induction restored with
  | nil => exact .noStatements
  | @cons stmt part others parts one more ih =>
    obtain ⟨_, apart, printable⟩ := printable
    rw [List.map_cons, List.map_cons, List.flatten_cons, List.append_assoc]
    refine .someStatements (one.reads _ ?_) (ih printable)
    -- Only an expression is printed without a semicolon.
    cases stmt with
    | expression token value =>
      refine .inl ?_
      cases more with
      | nil => exact ends
      | cons next _ =>
        obtain ⟨c, cs, first, behind, text, row, _, only⟩ := next.opens
        rw [List.map_cons, List.flatten_cons, row]
        intro continues
        exact apart (by rw [text, only continues, List.head?_cons])
    | _ => exact .inr nofun

theorem outline_statements (restored : List.Forall₂ (fun stmt part => stmt.Restored part.1 part.2) stmts parts) :
    outlineStmts (parts.map Prod.fst) = outlineStmts stmts := by
  induction restored with
  | nil => rfl
  | cons one _ ih => rw [List.map_cons, outlineStmts, outlineStmts, one.outline, ih]

theorem restored_block (restored : List.Forall₂ (fun stmt part => stmt.Restored part.1 part.2) stmts parts)
    (printable : printableStmts stmts) : ∃ again tokens, (Block.mk token stmts).Restored again tokens := by
  have text : (Block.mk token stmts).text.toList =
      '\x7b' :: ((stmts.map fun stmt => stmt.text.toList).flatMap ([' '] ++ ·) ++ [' ', '\x7d']) := by
    have spaced := congrArg (· ++ ['\x7d']) (spacedTexts_toList stmts)
    simpa [Block.text] using spaced
  refine ⟨.mk (TokenKind.lbrace.token "\x7b") (parts.map Prod.fst), TokenKind.lbrace.token "\x7b" ::
    ((parts.map Prod.snd).flatten ++ [TokenKind.rbrace.token "\x7d"]), ?_, ?_, ?_⟩
  · rw [Block.outline, Block.outline, outline_statements restored]
  · intro rest more _ spells
    have texts : List.Forall₂ Spelled (stmts.map fun stmt => stmt.text.toList) (parts.map Prod.snd) := by
      rw [List.forall₂_map_left_iff, List.forall₂_map_right_iff]
      exact restored.imp fun _ _ one => one.spelled
    have last := spells_blank (c := ' ') rfl (spells_sign (c := '\x7d') rfl (.inr (by decide)) spells)
    obtain ⟨inside, _⟩ := spelled_flatMap [' '] [] (delimited_cons.mpr (by decide))
      (fun _ _ spells => spells_blank rfl spells) (by decide) texts
    have body := inside _ _ (delimited_cons.mpr (by decide)) last
    have front := spells_sign (c := '\x7b') rfl (.inr (by decide)) body
    rw [flatMap_nil_append] at front
    simpa [text] using front
  · intro rest
    rw [List.cons_append, List.append_assoc]
    exact .closedBlock rfl (reads_statements restored printable _ (show ¬TokenKind.rbrace.Continues by decide)) rfl

end Statements

mutual

theorem Expr.restored : (expr : Expr) → expr.Printable → ∃ again tokens, expr.Restored again tokens
  | .identifier _, printable => ⟨_, _, restored_identifier printable⟩
  | .boolean _ _, literal => restored_boolean literal
  | .integer _ _, printable => by
    obtain ⟨number, digits, small, rfl⟩ := printable
    exact ⟨_, _, restored_integer digits small⟩
  | .unary _ _ right, printable => by
    obtain ⟨again, tokens, restored⟩ := right.restored printable.2
    obtain ⟨again, inner, enclosed⟩ := enclosed_unary printable.1 restored
    exact enclosed.restored
  | .binary _ _ left right, printable => by
    obtain ⟨again, tokens, restored⟩ := left.restored printable.2.1
    obtain ⟨again', further, restored'⟩ := right.restored printable.2.2
    obtain ⟨again, inner, enclosed⟩ := enclosed_binary printable.1 restored restored'
    exact enclosed.restored
  | .conditional _ condition consequence none, printable => by
    obtain ⟨again, inner, enclosed⟩ := condition.enclosed printable.1 printable.2.1
    obtain ⟨again', tokens, restored⟩ := consequence.restored printable.2.2.1
    exact restored_conditional enclosed restored
  | .conditional _ condition consequence (some alternative), printable => by
    obtain ⟨again, inner, enclosed⟩ := condition.enclosed printable.1 printable.2.1
    obtain ⟨again', tokens, restored⟩ := consequence.restored printable.2.2.1
    obtain ⟨again'', further, restored'⟩ := alternative.restored printable.2.2.2
    exact restored_alternative enclosed restored restored'
  | .function _ _ body, printable => by
    obtain ⟨again, tokens, restored⟩ := body.restored printable.2.2
    exact restored_function printable.1 printable.2.1 restored
  | .call _ callee arguments, printable => by
    obtain ⟨again, tokens, restored⟩ := callee.restored printable.1
    obtain ⟨parts, inside⟩ := restoredExprs arguments printable.2
    exact restored_call restored inside

theorem Expr.enclosed : (expr : Expr) → expr.isOperation = true → expr.Printable →
    ∃ again inner, expr.Enclosed again inner
  | .unary _ _ right, _, printable => by
    obtain ⟨again, tokens, restored⟩ := right.restored printable.2
    exact enclosed_unary printable.1 restored
  | .binary _ _ left right, _, printable => by
    obtain ⟨again, tokens, restored⟩ := left.restored printable.2.1
    obtain ⟨again', further, restored'⟩ := right.restored printable.2.2
    exact enclosed_binary printable.1 restored restored'

theorem Stmt.restored : (stmt : Stmt) → stmt.Printable → ∃ again tokens, stmt.Restored again tokens
  | .binding _ _ value, printable => by
    obtain ⟨again, tokens, restored⟩ := value.restored printable.2.2
    exact restored_binding printable.1 printable.2.1 restored
  | .result _ value, printable => by
    obtain ⟨again, tokens, restored⟩ := value.restored printable.2
    exact restored_result printable.1 restored
  | .expression _ value, printable => by
    obtain ⟨again, tokens, restored⟩ := value.restored printable
    exact restored_expression restored

theorem Block.restored : (block : Block) → block.Printable → ∃ again tokens, block.Restored again tokens
  | .mk _ statements, printable => by
    obtain ⟨parts, inside⟩ := restoredStmts statements printable
    exact restored_block inside printable

theorem restoredExprs : (exprs : List Expr) → printableExprs exprs →
    ∃ parts : List (Expr × List Token), List.Forall₂ (fun expr part => expr.Restored part.1 part.2) exprs parts
  | [], _ => ⟨[], .nil⟩
  | first :: others, printable => by
    obtain ⟨again, tokens, restored⟩ := first.restored printable.1
    obtain ⟨parts, more⟩ := restoredExprs others printable.2
    exact ⟨(again, tokens) :: parts, .cons restored more⟩

theorem restoredStmts : (stmts : List Stmt) → printableStmts stmts →
    ∃ parts : List (Stmt × List Token), List.Forall₂ (fun stmt part => stmt.Restored part.1 part.2) stmts parts
  | [], _ => ⟨[], .nil⟩
  | first :: others, printable => by
    obtain ⟨again, tokens, restored⟩ := first.restored printable.1
    obtain ⟨parts, more⟩ := restoredStmts others printable.2.2
    exact ⟨(again, tokens) :: parts, .cons restored more⟩

end

/-- The text of a program is read back as that program, up to the tokens that its nodes keep. -/
theorem Program.parse_text (program : Program) (printable : program.Printable) :
    (parse program.text).2 = [] ∧ (parse program.text).1.outline = program.outline := by
  obtain ⟨parts, restored⟩ := restoredStmts program.statements printable
  have texts : List.Forall₂ (fun text row => Spelled text.toList row) (program.statements.map Stmt.text)
      (parts.map Prod.snd) := by
    rw [List.forall₂_map_left_iff, List.forall₂_map_right_iff]
    exact restored.imp fun _ _ one => one.spelled
  have spells := spelled_lines texts [] [] (by simp [Delimited]) spells_nil
  have same : separatedRows [] (parts.map Prod.snd) = (parts.map Prod.snd).flatten := by
    cases parts with
    | nil => rfl
    | cons first others => rw [List.map_cons, separatedRows, flatMap_nil_append, List.flatten_cons]
  rw [List.append_nil, List.append_nil, same] at spells
  have read := reads_statements restored printable [] (show ¬TokenKind.eof.Continues by decide)
  rw [List.append_nil] at read
  have rendering : (Program.mk (parts.map Prod.fst)).Rendering ((tokenize program.text).map Token.bare) :=
    ⟨_, _, Spells.tokenize program.text spells, rfl, read⟩
  obtain ⟨clean, found⟩ := parse_of_reads (rendering_iff_reads.mp rendering)
  refine ⟨clean, ?_⟩
  rw [← Program.outline_bare, found]
  exact congrArg Program.mk (outline_statements restored)

/-- A function and a choice whether to call it. -/
def Program.choice : Program :=
  let name (word : String) : Identifier := ⟨default, word⟩
  let word (literal : String) : Token := ⟨default, literal, default⟩
  ⟨[.binding (word "let") (name "twice") (.function (word "fn") [name "x"]
      (.mk default [.result (word "return") (.binary default "*" (.integer (word "02") 2) (.identifier (name "x")))])),
    .expression default (.conditional default (.unary default "!" (.boolean (word "false") false))
      (.mk default [.expression default (.call default (.identifier (name "twice")) [.identifier (name "y")])])
      (some (.mk default [])))]⟩

theorem Program.choice_parse_text :
    choice.text = "let twice = fn(x) \x7b return (02 * x); \x7d;\nif (!false) \x7b twice(y) \x7d else \x7b \x7d" ∧
      (parse choice.text).2 = [] ∧ (parse choice.text).1.outline = choice.outline := by
  refine ⟨rfl, choice.parse_text ?_⟩
  refine ⟨⟨rfl, ⟨rfl, rfl⟩, rfl, ?_, ⟨rfl, by decide, ⟨2, rfl, by decide, rfl⟩, rfl, rfl⟩, trivial, trivial⟩, trivial,
    ⟨rfl, ⟨by decide, rfl⟩, ⟨⟨⟨rfl, rfl⟩, ⟨rfl, rfl⟩, trivial⟩, trivial, trivial⟩, trivial⟩, trivial, trivial⟩
  simp [Identifier.Printable]
  decide

end LetFn
