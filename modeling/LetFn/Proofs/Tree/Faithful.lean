import LetFn.Proofs.Tree.Printable

namespace LetFn

mutual

/-- An expression whose nodes keep what is read: names, literals with their values, operators and keywords. -/
def Expr.Faithful : Expr → Prop
  | .identifier id => id.Printable
  | .boolean token value => token.literal = if value then "true" else "false"
  | .integer token value => ∃ number : Nat,
    Text.natural? token.literal.toList = some number ∧ number ≤ 0x7fffffffffffffff ∧ value = number
  | .unary _ operator right => operator ∈ ["!", "-"] ∧ right.Faithful
  | .binary _ operator left right =>
    operator ∈ ["==", "!=", "<", ">", "+", "-", "*", "/"] ∧ left.Faithful ∧ right.Faithful
  | .conditional _ condition consequence alternative =>
    condition.Faithful ∧ consequence.Faithful ∧ faithfulAlternative alternative
  | .function token parameters body =>
    token.literal = "fn" ∧ (∀ id ∈ parameters, id.Printable) ∧ body.Faithful
  | .call _ callee arguments => callee.Faithful ∧ faithfulExprs arguments

def Stmt.Faithful : Stmt → Prop
  | .binding token name value => token.literal = "let" ∧ name.Printable ∧ value.Faithful
  | .result token value => token.literal = "return" ∧ value.Faithful
  | .expression _ value => value.Faithful
  | .block _ => False

def Block.Faithful : Block → Prop
  | .mk _ statements => faithfulStmts statements

def faithfulExprs : List Expr → Prop
  | [] => True
  | first :: others => first.Faithful ∧ faithfulExprs others

def faithfulStmts : List Stmt → Prop
  | [] => True
  | first :: others => first.Faithful ∧ faithfulStmts others

def faithfulAlternative : Option Block → Prop
  | none => True
  | some alternative => alternative.Faithful

end

mutual

/-- An expression of which the text shows where each part ends: no condition stands without parentheses, and no
statement that is an expression comes before a parenthesis. -/
def Expr.Explicit : Expr → Prop
  | .identifier _ | .boolean _ _ | .integer _ _ => True
  | .unary _ _ right => right.Explicit
  | .binary _ _ left right => left.Explicit ∧ right.Explicit
  | .conditional _ condition consequence alternative =>
    condition.isOperation = true ∧ condition.Explicit ∧ consequence.Explicit ∧ explicitAlternative alternative
  | .function _ _ body => body.Explicit
  | .call _ callee arguments => callee.Explicit ∧ explicitExprs arguments

def Stmt.Explicit : Stmt → Prop
  | .binding _ _ value | .result _ value | .expression _ value => value.Explicit
  | .block body => body.Explicit

def Block.Explicit : Block → Prop
  | .mk _ statements => explicitStmts statements

def explicitExprs : List Expr → Prop
  | [] => True
  | first :: others => first.Explicit ∧ explicitExprs others

def explicitStmts : List Stmt → Prop
  | [] => True
  | first :: others => first.Explicit ∧ first.Apart others ∧ explicitStmts others

def explicitAlternative : Option Block → Prop
  | none => True
  | some alternative => alternative.Explicit

end

instance (first : Stmt) (others : List Stmt) : Decidable (first.Apart others) :=
  match first, others with
  | .expression _ _, next :: _ => inferInstanceAs (Decidable (next.text.toList.head? ≠ some '('))
  | .expression _ _, [] | .binding _ _ _, _ | .result _ _, _ | .block _, _ => .isTrue trivial

mutual

def Expr.decExplicit : (expr : Expr) → Decidable expr.Explicit
  | .identifier _ | .boolean _ _ | .integer _ _ => .isTrue trivial
  | .unary _ _ right => right.decExplicit
  | .binary _ _ left right => @instDecidableAnd _ _ left.decExplicit right.decExplicit
  | .conditional _ condition consequence alternative =>
    @instDecidableAnd _ _ inferInstance (@instDecidableAnd _ _ condition.decExplicit
      (@instDecidableAnd _ _ consequence.decExplicit (decExplicitAlternative alternative)))
  | .function _ _ body => body.decExplicit
  | .call _ callee arguments => @instDecidableAnd _ _ callee.decExplicit (decExplicitExprs arguments)

def Stmt.decExplicit : (stmt : Stmt) → Decidable stmt.Explicit
  | .binding _ _ value | .result _ value | .expression _ value => value.decExplicit
  | .block body => body.decExplicit

def Block.decExplicit : (block : Block) → Decidable block.Explicit
  | .mk _ statements => decExplicitStmts statements

def decExplicitExprs : (exprs : List Expr) → Decidable (explicitExprs exprs)
  | [] => .isTrue trivial
  | first :: others => @instDecidableAnd _ _ first.decExplicit (decExplicitExprs others)

def decExplicitStmts : (stmts : List Stmt) → Decidable (explicitStmts stmts)
  | [] => .isTrue trivial
  | first :: others =>
    @instDecidableAnd _ _ first.decExplicit (@instDecidableAnd _ _ inferInstance (decExplicitStmts others))

def decExplicitAlternative : (alternative : Option Block) → Decidable (explicitAlternative alternative)
  | none => .isTrue trivial
  | some alternative => alternative.decExplicit

end

def Program.Faithful (program : Program) : Prop :=
  faithfulStmts program.statements

def Program.Explicit (program : Program) : Prop :=
  explicitStmts program.statements

instance (program : Program) : Decidable program.Explicit :=
  decExplicitStmts program.statements

mutual

theorem Expr.printable_iff : (expr : Expr) → (expr.Printable ↔ expr.Faithful ∧ expr.Explicit)
  | .identifier _ | .boolean _ _ | .integer _ _ => (and_iff_left trivial).symm
  | .unary _ _ right => by
    simp only [Expr.Printable, Expr.Faithful, Expr.Explicit, right.printable_iff, and_assoc]
  | .binary _ _ left right => by
    simp only [Expr.Printable, Expr.Faithful, Expr.Explicit, left.printable_iff, right.printable_iff]
    tauto
  | .conditional _ condition consequence alternative => by
    simp only [Expr.Printable, Expr.Faithful, Expr.Explicit, condition.printable_iff, consequence.printable_iff,
      printableAlternative_iff alternative]
    tauto
  | .function _ _ body => by
    simp only [Expr.Printable, Expr.Faithful, Expr.Explicit, body.printable_iff, and_assoc]
  | .call _ callee arguments => by
    simp only [Expr.Printable, Expr.Faithful, Expr.Explicit, callee.printable_iff, printableExprs_iff arguments]
    tauto

theorem Stmt.printable_iff : (stmt : Stmt) → (stmt.Printable ↔ stmt.Faithful ∧ stmt.Explicit)
  | .binding _ _ value => by
    simp only [Stmt.Printable, Stmt.Faithful, Stmt.Explicit, value.printable_iff, and_assoc]
  | .result _ value => by
    simp only [Stmt.Printable, Stmt.Faithful, Stmt.Explicit, value.printable_iff, and_assoc]
  | .expression _ value => by
    simp only [Stmt.Printable, Stmt.Faithful, Stmt.Explicit, value.printable_iff]
  | .block _ => by simp only [Stmt.Printable, Stmt.Faithful, false_and]

theorem Block.printable_iff : (block : Block) → (block.Printable ↔ block.Faithful ∧ block.Explicit)
  | .mk _ statements => by
    simp only [Block.Printable, Block.Faithful, Block.Explicit, printableStmts_iff statements]

theorem printableExprs_iff : (exprs : List Expr) → (printableExprs exprs ↔ faithfulExprs exprs ∧ explicitExprs exprs)
  | [] => by simp only [printableExprs, faithfulExprs, explicitExprs, and_self]
  | first :: others => by
    simp only [printableExprs, faithfulExprs, explicitExprs, first.printable_iff, printableExprs_iff others]
    tauto

theorem printableStmts_iff : (stmts : List Stmt) → (printableStmts stmts ↔ faithfulStmts stmts ∧ explicitStmts stmts)
  | [] => by simp only [printableStmts, faithfulStmts, explicitStmts, and_self]
  | first :: others => by
    simp only [printableStmts, faithfulStmts, explicitStmts, first.printable_iff, printableStmts_iff others]
    tauto

theorem printableAlternative_iff : (alternative : Option Block) →
    (printableAlternative alternative ↔ faithfulAlternative alternative ∧ explicitAlternative alternative)
  | none => by simp only [printableAlternative, faithfulAlternative, explicitAlternative, and_self]
  | some alternative => by
    simp only [printableAlternative, faithfulAlternative, explicitAlternative, alternative.printable_iff]

end

theorem names_of_outline {ids ids' : List Identifier}
    (same : ids.map Identifier.outline = ids'.map Identifier.outline) :
    ids.map Identifier.name = ids'.map Identifier.name := by
  have names := congrArg (List.map Identifier.name) same
  rwa [List.map_map, List.map_map] at names

theorem spacedTexts_eq_foldr (stmts : List Stmt) :
    spacedTexts stmts = (stmts.map Stmt.text).foldr (fun text behind => text ++ " " ++ behind) "" := by
  induction stmts with
  | nil => rfl
  | cons first others ih => rw [spacedTexts, ih, List.map_cons, List.foldr_cons]

theorem Expr.isOperation_of_outline {expr expr' : Expr} (same : expr.outline = expr'.outline) :
    expr.isOperation = expr'.isOperation := by
  cases expr <;> cases expr' <;> first | rfl | cases same

theorem Stmt.apart_iff_of_outline {first first' : Stmt} {others others' : List Stmt}
    (same : first.outline = first'.outline) (texts : others.map Stmt.text = others'.map Stmt.text) :
    first.Apart others ↔ first'.Apart others' := by
  cases first <;> cases first' <;> simp only [Stmt.outline, reduceCtorEq] at same
  case expression =>
    cases others <;> cases others' <;> simp only [List.map_nil, List.map_cons, List.cons.injEq, reduceCtorEq] at texts
    · exact Iff.rfl
    · rw [Stmt.Apart, Stmt.Apart, texts.1]
  all_goals exact Iff.rfl

mutual

/-- The text of what is read shows nothing of the tokens, nor does it depend on them whether the text shows where each
part ends. -/
theorem Expr.shown_of_outline : (expr expr' : Expr) → expr.Faithful → expr'.Faithful →
    expr.outline = expr'.outline → expr.text = expr'.text ∧ (expr.Explicit ↔ expr'.Explicit)
  | .identifier _, expr', _, _, same => by
    cases expr' <;> simp only [Expr.outline, reduceCtorEq, Expr.identifier.injEq] at same
    have name := congrArg Identifier.name same
    exact ⟨name, Iff.rfl⟩
  | .boolean _ _, expr', faithful, faithful', same => by
    cases expr' <;> simp only [Expr.outline, reduceCtorEq, Expr.boolean.injEq] at same
    obtain ⟨-, rfl⟩ := same
    exact ⟨Eq.trans faithful (Eq.symm faithful'), Iff.rfl⟩
  | .integer _ _, expr', _, _, same => by
    cases expr' <;> simp only [Expr.outline, reduceCtorEq, Expr.integer.injEq] at same
    have digits := congrArg Token.literal same.1
    exact ⟨digits, Iff.rfl⟩
  | .unary _ _ right, expr', faithful, faithful', same => by
    cases expr' <;> simp only [Expr.outline, reduceCtorEq, Expr.unary.injEq] at same
    obtain ⟨-, rfl, inner⟩ := same
    obtain ⟨text, explicit⟩ := right.shown_of_outline _ faithful.2 faithful'.2 inner
    simp only [Expr.text, Expr.Explicit, text, explicit, and_self]
  | .binary _ _ left right, expr', faithful, faithful', same => by
    cases expr' <;> simp only [Expr.outline, reduceCtorEq, Expr.binary.injEq] at same
    obtain ⟨-, rfl, first, second⟩ := same
    obtain ⟨text, explicit⟩ := left.shown_of_outline _ faithful.2.1 faithful'.2.1 first
    obtain ⟨text', explicit'⟩ := right.shown_of_outline _ faithful.2.2 faithful'.2.2 second
    simp only [Expr.text, Expr.Explicit, text, text', explicit, explicit', and_self]
  | .conditional _ condition consequence alternative, expr', faithful, faithful', same => by
    cases expr' <;> simp only [Expr.outline, reduceCtorEq, Expr.conditional.injEq] at same
    obtain ⟨-, first, second, third⟩ := same
    obtain ⟨text, explicit⟩ := condition.shown_of_outline _ faithful.1 faithful'.1 first
    obtain ⟨text', explicit'⟩ := consequence.shown_of_outline _ faithful.2.1 faithful'.2.1 second
    obtain ⟨text'', explicit''⟩ := alternative_shown_of_outline alternative _ faithful.2.2 faithful'.2.2 third
    simp only [Expr.text, Expr.Explicit, Expr.isOperation_of_outline first, text, text', text'', explicit, explicit',
      explicit'', and_self]
  | .function _ parameters body, expr', faithful, faithful', same => by
    cases expr' <;> simp only [Expr.outline, reduceCtorEq, Expr.function.injEq] at same
    obtain ⟨-, names, inner⟩ := same
    obtain ⟨text, explicit⟩ := body.shown_of_outline _ faithful.2.2 faithful'.2.2 inner
    simp only [Expr.text, Expr.Explicit, faithful.1, faithful'.1, names_of_outline names, text, explicit, and_self]
  | .call _ callee arguments, expr', faithful, faithful', same => by
    cases expr' <;> simp only [Expr.outline, reduceCtorEq, Expr.call.injEq] at same
    obtain ⟨-, first, second⟩ := same
    obtain ⟨text, explicit⟩ := callee.shown_of_outline _ faithful.1 faithful'.1 first
    obtain ⟨text', explicit'⟩ := exprs_shown_of_outline arguments _ faithful.2 faithful'.2 second
    simp only [Expr.text, Expr.Explicit, text, text', explicit, explicit', and_self]

theorem Stmt.shown_of_outline : (stmt stmt' : Stmt) → stmt.Faithful → stmt'.Faithful →
    stmt.outline = stmt'.outline → stmt.text = stmt'.text ∧ (stmt.Explicit ↔ stmt'.Explicit)
  | .binding _ _ value, stmt', faithful, faithful', same => by
    cases stmt' <;> simp only [Stmt.outline, reduceCtorEq, Stmt.binding.injEq] at same
    obtain ⟨-, name, inner⟩ := same
    have names := congrArg Identifier.name name
    simp only [Identifier.outline] at names
    obtain ⟨text, explicit⟩ := value.shown_of_outline _ faithful.2.2 faithful'.2.2 inner
    simp only [Stmt.text, Stmt.Explicit, faithful.1, faithful'.1, names, text, explicit, and_self]
  | .result _ value, stmt', faithful, faithful', same => by
    cases stmt' <;> simp only [Stmt.outline, reduceCtorEq, Stmt.result.injEq] at same
    obtain ⟨text, explicit⟩ := value.shown_of_outline _ faithful.2 faithful'.2 same.2
    simp only [Stmt.text, Stmt.Explicit, faithful.1, faithful'.1, text, explicit, and_self]
  | .expression _ value, stmt', faithful, faithful', same => by
    cases stmt' <;> simp only [Stmt.outline, reduceCtorEq, Stmt.expression.injEq] at same
    exact value.shown_of_outline _ faithful faithful' same.2

theorem Block.shown_of_outline : (block block' : Block) → block.Faithful → block'.Faithful →
    block.outline = block'.outline → block.text = block'.text ∧ (block.Explicit ↔ block'.Explicit)
  | .mk _ statements, .mk _ statements', faithful, faithful', same => by
    simp only [Block.outline, Block.mk.injEq, true_and] at same
    obtain ⟨texts, explicit⟩ := stmts_shown_of_outline statements statements' faithful faithful' same
    exact ⟨by simp only [Block.text, spacedTexts_eq_foldr, texts], explicit⟩

theorem exprs_shown_of_outline : (exprs exprs' : List Expr) → faithfulExprs exprs → faithfulExprs exprs' →
    outlineExprs exprs = outlineExprs exprs' →
    exprTexts exprs = exprTexts exprs' ∧ (explicitExprs exprs ↔ explicitExprs exprs')
  | [], [], _, _, _ => ⟨rfl, Iff.rfl⟩
  | first :: others, first' :: others', faithful, faithful', same => by
    simp only [outlineExprs, List.cons.injEq] at same
    obtain ⟨text, explicit⟩ := first.shown_of_outline _ faithful.1 faithful'.1 same.1
    obtain ⟨texts, explicit'⟩ := exprs_shown_of_outline others others' faithful.2 faithful'.2 same.2
    simp only [exprTexts, explicitExprs, text, texts, explicit, explicit', and_self]

theorem stmts_shown_of_outline : (stmts stmts' : List Stmt) → faithfulStmts stmts → faithfulStmts stmts' →
    outlineStmts stmts = outlineStmts stmts' →
    stmts.map Stmt.text = stmts'.map Stmt.text ∧ (explicitStmts stmts ↔ explicitStmts stmts')
  | [], [], _, _, _ => ⟨rfl, Iff.rfl⟩
  | first :: others, first' :: others', faithful, faithful', same => by
    simp only [outlineStmts, List.cons.injEq] at same
    obtain ⟨text, explicit⟩ := first.shown_of_outline _ faithful.1 faithful'.1 same.1
    obtain ⟨texts, explicit'⟩ := stmts_shown_of_outline others others' faithful.2 faithful'.2 same.2
    simp only [List.map_cons, explicitStmts, Stmt.apart_iff_of_outline same.1 texts, text, texts, explicit, explicit',
      and_self]

theorem alternative_shown_of_outline : (alternative alternative' : Option Block) →
    faithfulAlternative alternative → faithfulAlternative alternative' →
    outlineAlternative alternative = outlineAlternative alternative' →
    elseText alternative = elseText alternative' ∧ (explicitAlternative alternative ↔ explicitAlternative alternative')
  | none, none, _, _, _ => ⟨rfl, Iff.rfl⟩
  | some alternative, some alternative', faithful, faithful', same => by
    simp only [outlineAlternative, Option.some.injEq] at same
    obtain ⟨text, explicit⟩ := alternative.shown_of_outline _ faithful faithful' same
    simp only [elseText, explicitAlternative, text, explicit, and_self]

end

theorem Program.shown_of_outline {program program' : Program} (faithful : program.Faithful)
    (faithful' : program'.Faithful) (same : program.outline = program'.outline) :
    program.text = program'.text ∧ (program.Explicit ↔ program'.Explicit) := by
  obtain ⟨texts, explicit⟩ := stmts_shown_of_outline _ _ faithful faithful' (congrArg Program.statements same)
  exact ⟨by rw [Program.text, Program.text, texts], explicit⟩

end LetFn
