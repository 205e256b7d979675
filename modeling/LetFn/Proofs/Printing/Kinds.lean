import LetFn.Proofs.Printing.Restored

namespace LetFn

theorem TokenKind.ofOperator_ne (operator : String) : ofOperator operator ≠ lparen ∧ ofOperator operator ≠ rparen := by
  unfold ofOperator
  repeat' split
  all_goals decide

/-- Kinds of names with commas before them. -/
def moreNameKinds (ids : List Identifier) : List TokenKind :=
  ids.flatMap fun _ => [.comma, .ident]

def nameKinds : List Identifier → List TokenKind
  | [] => []
  | _ :: others => .ident :: moreNameKinds others

mutual

/-- The kinds of the tokens that the text of an expression is cut into. -/
def Expr.kinds : Expr → List TokenKind
  | .identifier _ => [.ident]
  | .boolean _ value => [if value then .trueWord else .falseWord]
  | .integer _ _ => [.int]
  | .unary _ operator right => .lparen :: .ofOperator operator :: (right.kinds ++ [.rparen])
  | .binary _ operator left right =>
    .lparen :: (left.kinds ++ .ofOperator operator :: (right.kinds ++ [.rparen]))
  | .conditional _ condition consequence alternative =>
    .ifWord :: (condition.kinds ++ (consequence.kinds ++ elseKinds alternative))
  | .function _ parameters body => .fnWord :: .lparen :: (nameKinds parameters ++ .rparen :: body.kinds)
  | .call _ callee arguments => callee.kinds ++ .lparen :: (argumentKinds arguments ++ [.rparen])

def Stmt.kinds : Stmt → List TokenKind
  | .binding _ _ value => .letWord :: .ident :: .assign :: (value.kinds ++ [.semicolon])
  | .result _ value => .returnWord :: (value.kinds ++ [.semicolon])
  | .expression _ value => value.kinds
  | .block body => body.kinds

def Block.kinds : Block → List TokenKind
  | .mk _ statements => .lbrace :: (stmtKinds statements ++ [.rbrace])

def argumentKinds : List Expr → List TokenKind
  | [] => []
  | first :: others => first.kinds ++ moreArgumentKinds others

/-- Kinds of arguments with commas before them. -/
def moreArgumentKinds : List Expr → List TokenKind
  | [] => []
  | first :: others => .comma :: (first.kinds ++ moreArgumentKinds others)

def stmtKinds : List Stmt → List TokenKind
  | [] => []
  | first :: others => first.kinds ++ stmtKinds others

def elseKinds : Option Block → List TokenKind
  | none => []
  | some alternative => .elseWord :: alternative.kinds

end

/-- How a text and the kinds of its tokens begin: with no sign of equality and no semicolon, and both with a
parenthesis if the text does so. -/
def Fronts (text : List Char) (kinds : List TokenKind) : Prop :=
  ∃ c cs kind more, text = c :: cs ∧ kinds = kind :: more ∧ c ≠ '=' ∧ kind ≠ .semicolon ∧ (c = '(' → kind = .lparen)

theorem Fronts.append {text : List Char} {kinds : List TokenKind} (fronts : Fronts text kinds) (back : List Char)
    (further : List TokenKind) : Fronts (text ++ back) (kinds ++ further) := by
  obtain ⟨c, cs, kind, more, rfl, rfl, facts⟩ := fronts
  exact ⟨c, cs ++ back, kind, more ++ further, rfl, rfl, facts⟩

theorem fronts_word {word : String} {kind : TokenKind} (letters : isWord word.toList = true) (other : kind ≠ .semicolon)
    (back : List Char) (more : List TokenKind) : Fronts (word.toList ++ back) (kind :: more) := by
  cases chars : word.toList with
  | nil => rw [chars] at letters; cases letters
  | cons c cs =>
    rw [chars] at letters
    have letter := isLetter_of_isWord letters
    refine ⟨c, cs ++ back, kind, more, rfl, rfl, ?_, other, ?_⟩
    · rintro rfl
      exact absurd letter (by decide)
    · rintro rfl
      exact absurd letter (by decide)

theorem Expr.fronts : (expr : Expr) → expr.Faithful → Fronts expr.text.toList expr.kinds
  | .identifier id, faithful => by
    have front := fronts_word faithful.1 (show TokenKind.ident ≠ .semicolon by decide) [] []
    rwa [List.append_nil] at front
  | .boolean token value, literal => by
    simp only [Expr.Faithful] at literal
    rw [Expr.text, literal]
    cases value with
    | false => exact ⟨'f', _, .falseWord, _, rfl, rfl, by decide, by decide, nofun⟩
    | true => exact ⟨'t', _, .trueWord, _, rfl, rfl, by decide, by decide, nofun⟩
  | .integer token value, faithful => by
    obtain ⟨number, digits, -⟩ := faithful
    rw [Expr.text]
    cases chars : token.literal.toList with
    | nil => rw [chars] at digits; cases digits
    | cons c cs =>
      rw [chars] at digits
      have digit := Text.natural?_head digits
      refine ⟨c, cs, .int, [], rfl, rfl, ?_, by decide, ?_⟩
      · rintro rfl
        exact absurd digit (by decide)
      · rintro rfl
        exact absurd digit (by decide)
  | .unary _ operator right, _ => by
    simp only [Expr.text, String.toList_append]
    exact ⟨'(', _, .lparen, _, rfl, rfl, by decide, by decide, fun _ => rfl⟩
  | .binary _ operator left right, _ => by
    simp only [Expr.text, String.toList_append]
    exact ⟨'(', _, .lparen, _, rfl, rfl, by decide, by decide, fun _ => rfl⟩
  | .conditional _ condition consequence alternative, _ => by
    simp only [Expr.text, String.toList_append]
    exact ⟨'i', _, .ifWord, _, rfl, rfl, by decide, by decide, nofun⟩
  | .function token parameters body, faithful => by
    simp only [Expr.text, String.toList_append, faithful.1]
    exact ⟨'f', _, .fnWord, _, rfl, rfl, by decide, by decide, nofun⟩
  | .call _ callee arguments, faithful => by
    have front := (callee.fronts faithful.1).append
    simp only [Expr.text, Expr.kinds, String.toList_append, List.append_assoc]
    exact front _ _

theorem Stmt.fronts (stmt : Stmt) (faithful : stmt.Faithful) : Fronts stmt.text.toList stmt.kinds := by
  cases stmt with
  | binding token name value =>
    simp only [Stmt.text, String.toList_append, faithful.1]
    exact ⟨'l', _, .letWord, _, rfl, rfl, by decide, by decide, nofun⟩
  | result token value =>
    simp only [Stmt.text, String.toList_append, faithful.1]
    exact ⟨'r', _, .returnWord, _, rfl, rfl, by decide, by decide, nofun⟩
  | expression token value => exact value.fronts faithful
  | block body => exact faithful.elim

/-- What stands behind the first of several items begins with a comma, if there is anything. -/
theorem delimited_commas (texts : List (List Char)) : Delimited (texts.flatMap (", ".toList ++ ·)) := by
  cases texts with
  | nil => simp [Delimited]
  | cons first others => exact delimited_sign (c := ',') rfl _

theorem delimited_lines (texts : List (List Char)) : Delimited (texts.flatMap ("\n".toList ++ ·)) := by
  cases texts with
  | nil => simp [Delimited]
  | cons first others => exact delimited_cons.mpr rfl

theorem delimited_else (alternative : Option Block) : Delimited (elseText alternative).toList := by
  cases alternative with
  | none => simp [elseText, Delimited]
  | some alternative =>
    rw [elseText, String.toList_append]
    exact delimited_cons.mpr rfl

end LetFn
