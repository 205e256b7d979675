import Mathlib.Tactic.FinCases
import LetFn.Parser.Request
import LetFn.Proofs.Operators.Held
import LetFn.Proofs.Operators.Ordered
import LetFn.Proofs.Walk.Termination
import LetFn.Tree.Text

namespace LetFn

/-- The signs that can stand as operators between two operands. -/
def operatorKinds : List TokenKind :=
  [.eq, .notEq, .lt, .gt, .plus, .minus, .asterisk, .slash]

/-- The rules with each operator at the power assigned to it. -/
def Rules.assign (power : TokenKind → Power) (rules : Rules) : Rules :=
  operatorKinds.foldl (fun rules kind => rules.setInfix kind (power kind) .operator) rules

/-- The parser after a request for each operator, to give it the power assigned to it. -/
def Parser.assign (power : TokenKind → Power) (parser : Parser) : Parser :=
  operatorKinds.foldl (fun parser kind => (parser.perform (.setInfix kind (power kind) .operator)).2) parser

theorem Parser.assign_eq (power : TokenKind → Power) (parser : Parser) :
    parser.assign power = { parser with rules := Rules.assign power parser.rules } :=
  rfl

/-- Rules that read operands as the language does and operators with the powers assigned to them. -/
structure Rules.Assigned (power : TokenKind → Power) (rules : Rules) : Prop where
  prefixRule : rules.prefixRule = standard.prefixRule
  infixRule : ∀ kind ∈ operatorKinds, rules.infixRule kind = some .operator
  power : ∀ kind ∈ operatorKinds, rules.power kind = power kind
  eof : rules.power .eof = .lowest

theorem Rules.assigned_standard (power : TokenKind → Power) : (standard.assign power).Assigned power where
  prefixRule := rfl
  infixRule kind operator := by fin_cases operator <;> rfl
  power kind operator := by fin_cases operator <;> rfl
  eof := rfl

theorem Rules.grounded_assign (power : TokenKind → Power) : (standard.assign power).Grounded where
  prefixRule_eof := rfl
  statementRule_ne_dispatch := standard_grounded.statementRule_ne_dispatch

namespace Action

variable {rules : Rules} {power : TokenKind → Power} {bound : Power} {first sign next : Token}
  {row others : List (Token × Token)} {behind : List Token} {state : ParseState}

/-- An operand is read where it stands, and the parser stays at it. -/
theorem settles_operand (assigned : rules.Assigned power) {tree : Expr} (operand : state.current.operand? = some tree) :
    ∃ rule, rules.prefixRule state.current.kind = some rule ∧
      Settles (fun fuel _ => opening rules fuel rule) state tree state := by
  rw [assigned.prefixRule]
  obtain ⟨ident, rfl⟩ | ⟨int, value, fits, rfl⟩ | ⟨word, rfl⟩ := Token.operand?_cases operand
  · exact ⟨.identifier, by rw [ident]; rfl, .of_succ (settles_current (settles_pure _))⟩
  · exact ⟨.integer, by rw [int]; rfl, .of_succ ⟨0, fun _ _ _ _ => opening_integer_of_some fits⟩⟩
  · have found : Rules.standard.prefixRule state.current.kind = some .boolean := by
      rcases word with yes | no
      · rw [yes]; rfl
      · rw [no]; rfl
    exact ⟨.boolean, found, .of_succ (settles_current (settles_pure _))⟩

/-- From a left operand the loop over the operators reads on through those of the row that it holds, and makes an
ordered tree. What it has read of the row before may not hold more loosely than the operator that comes next. -/
def Climbs (rules : Rules) (power : TokenKind → Power) (row : List (Token × Token)) (behind : List Token) : Prop :=
  ∀ bound left first before state, state.unread = spread row ++ behind → InOrder left first before →
    left.Ordered power → (∀ top ∈ left.topPower? power, ∀ entry ∈ row.head?, power entry.1.kind ≤ top) →
    ∃ tree, InOrder tree first (before ++ held power bound row) ∧ tree.Ordered power ∧
      Settles (fun fuel turns => climb rules (extension rules fuel) bound turns left) state tree
        (state.after (2 * (held power bound row).length))

/-- An expression that starts with an operand is that operand with what the loop makes of it. -/
theorem Climbs.expression (climbs : Climbs rules power row behind) (assigned : rules.Assigned power)
    (operand : first.operand?.isSome) (bound : Power) (front : state.stream.ahead = first :: (spread row ++ behind)) :
    ∃ tree, InOrder tree first (held power bound row) ∧ tree.Ordered power ∧
      Settles (fun fuel _ => expression rules fuel bound) state tree
        (state.after (2 * (held power bound row).length)) := by
  obtain ⟨left, operand⟩ := Option.isSome_iff_exists.mp operand
  have here := ParseState.current_of_ahead front
  obtain ⟨rule, found, opens⟩ := settles_operand assigned (here ▸ operand)
  have plain : ∀ top ∈ left.topPower? power, ∀ entry ∈ row.head?, power entry.1.kind ≤ top := by
    rw [Token.topPower?_operand operand]
    nofun
  obtain ⟨tree, reads, ordered, settles⟩ := climbs bound left first [] state (ParseState.unread_of_ahead front)
    (.operand operand) (Token.ordered_operand operand) plain
  exact ⟨tree, reads, ordered, settles_expression found opens settles⟩

/-- Where the row is at its end the loop stops. -/
theorem climbs_nil (assigned : rules.Assigned power) (ends : nextKind behind = .semicolon ∨ nextKind behind = .eof) :
    Climbs rules power [] behind := by
  intro bound left first before state unread reads ordered _
  refine ⟨left, by simpa [held] using reads, ordered, settles_climb_stop ?_⟩
  have next : state.peek.kind = nextKind behind := by rw [ParseState.peek_kind, unread]; rfl
  rintro ⟨other, holds⟩
  rw [next] at other holds
  rcases ends with semicolon | eof
  · exact other semicolon
  · rw [eof, assigned.eof] at holds
    exact Nat.not_lt_zero _ holds

/-- An operator takes the expression behind it, read with its own power. -/
theorem settles_operator {left right : Expr} {later : ParseState} (here : state.current = sign)
    (settles : Settles (fun fuel _ => expression rules fuel bound) state.advance right later) :
    Settles (fun fuel _ => extension rules fuel .operator left bound) state
      (.binary sign sign.literal left right) later := by
  refine .of_succ (settles_current (settles_advance (settles.bind ?_)))
  rw [here]
  exact settles_pure _

/-- A right side that was read with the power of the operator has only operators that hold more tightly. -/
theorem ordered_binary {left right : Expr} (ordered : left.Ordered power) (ordered' : right.Ordered power)
    (looser : ∀ top ∈ left.topPower? power, power sign.kind ≤ top)
    (reads : InOrder right next (held power (power sign.kind) row)) :
    (Expr.binary sign sign.literal left right).Ordered power := by
  refine ⟨looser, fun top found => ?_, ordered, ordered'⟩
  obtain ⟨entry, member, rfl⟩ := reads.top_mem top found
  exact lt_of_mem_held member

/-- The loop stops at an operator that it does not hold. It goes on behind one that it holds with this one at the top of
its left operand, where what ended the right side cannot hold more tightly. -/
theorem climbs_cons (assigned : rules.Assigned power) (operator : sign.kind ∈ operatorKinds)
    (operand : next.operand?.isSome) (further : ∀ rest, rest <:+ others → Climbs rules power rest behind) :
    Climbs rules power ((sign, next) :: others) behind := by
  intro bound left first before state unread reads ordered looser
  have ahead : state.peek = sign := ParseState.peek_of_unread unread
  have known : rules.power state.peek.kind = power sign.kind := by rw [ahead, assigned.power _ operator]
  by_cases holds : bound < power sign.kind
  · let tight := held power (power sign.kind) others
    let rest := unheld power (power sign.kind) others
    have front : state.advance.advance.stream.ahead = next :: (spread others ++ behind) :=
      state.advance.unread_of_ahead unread
    obtain ⟨right, reads', ordered', settles⟩ :=
      (further others List.suffix_rfl).expression assigned operand (power sign.kind) front
    have grown := ordered_binary ordered ordered' (fun top found => looser top found _ rfl) reads'
    obtain ⟨tree, reads'', ordered'', settles'⟩ := further rest (List.dropWhile_suffix _) bound _ first _ _
      (ParseState.unread_after_held power (power sign.kind) front) (reads.binary reads') grown
      (by rintro top ⟨⟩ entry member; exact le_of_head_unheld member)
    -- The loop has read the sign, the operand behind it and what that holds, and from there it reads the rest.
    have whole : held power bound ((sign, next) :: others) = (sign, next) :: tight ++ held power bound rest :=
      held_cons holds
    have place : (state.advance.advance.after (2 * tight.length)).after (2 * (held power bound rest).length) =
        state.after (2 * (held power bound ((sign, next) :: others)).length) := by
      simp only [whole, ParseState.advance_eq_after, ParseState.after_after, List.length_append, List.length_cons]
      congr 1
      omega
    refine ⟨tree, by simpa only [whole, List.append_assoc] using reads'', ordered'', place ▸ ?_⟩
    refine settles_climb_step .operator ?_ ?_ ?_ settles'
    · rw [known, ahead]
      exact ⟨fun semicolon => by rw [semicolon] at operator; contradiction, holds⟩
    · rw [ahead, assigned.infixRule _ operator]
    · rw [known]
      exact settles_operator ahead settles
  · have none : held power bound ((sign, next) :: others) = [] := List.takeWhile_cons_of_neg (by simpa using holds)
    rw [none, List.append_nil]
    exact ⟨left, reads, ordered, settles_climb_stop fun more => holds (known ▸ more.2)⟩

/-- The loop reads any row of operators and operands. -/
theorem climbs_row (assigned : rules.Assigned power) (ends : nextKind behind = .semicolon ∨ nextKind behind = .eof)
    (entries : ∀ entry ∈ row, entry.1.kind ∈ operatorKinds ∧ entry.2.operand?.isSome) :
    ∀ rest, rest <:+ row → Climbs rules power rest behind := by
  induction row with
  | nil =>
    intro rest suffix
    rw [List.suffix_nil.mp suffix]
    exact climbs_nil assigned ends
  | cons entry others ih =>
    have shorter := ih fun entry member => entries entry (List.mem_cons_of_mem _ member)
    obtain ⟨operator, operand⟩ := entries entry List.mem_cons_self
    intro rest suffix
    rcases List.suffix_cons_iff.mp suffix with rfl | suffix
    · exact climbs_cons assigned operator operand shorter
    · exact shorter rest suffix

/-- The fuel that a parser gives to an expression is enough. -/
theorem Settles.expression_eq (grounded : rules.Grounded) {tree : Expr} {later : ParseState}
    (settles : Settles (fun fuel _ => expression rules fuel bound) state tree later) :
    expression rules state.fuel bound state = .ok tree later := by
  have fuel : state.fuel = 4 * state.remaining + 16 := rfl
  have finishes : Finishes (fun fuel => expression rules fuel bound) state :=
    ((endsWithin grounded state.fuel).expression bound state (by omega)).finishes fun le =>
      (extends_of_le rules le).expression bound
  obtain ⟨enough, done⟩ := settles
  exact (finishes.2 (max enough state.fuel) (Nat.le_max_right _ _)).symm.trans
    (done _ enough (Nat.le_max_left _ _) (Nat.le_refl _))

end Action

namespace Parser

/-- Whatever powers are assigned to the operators, an expression from an operand on is read through those operators that
hold more tightly than the power asked for, up to the first that does not. It comes out as the only ordered tree of what
is read. -/
theorem perform_expression_ordered (power : TokenKind → Power) (bound : Power) {state : ParseState} {first : Token}
    {row : List (Token × Token)} {behind : List Token}
    (front : state.stream.ahead = first :: (spread row ++ behind)) (operand : first.operand?.isSome)
    (entries : ∀ entry ∈ row, entry.1.kind ∈ operatorKinds ∧ entry.2.operand?.isSome)
    (ends : nextKind behind = .semicolon ∨ nextKind behind = .eof) :
    let parser := Parser.assign power ⟨Rules.standard, state⟩
    let later := state.after (2 * (held power bound row).length)
    later.unread = spread (unheld power bound row) ++ behind ∧
    ∃ tree, parser.perform (.expression bound) = (.ok (.expression tree), { parser with state := later }) ∧
      InOrder tree first (held power bound row) ∧ tree.Ordered power ∧
      ∀ other, InOrder other first (held power bound row) → other.Ordered power → other = tree := by
  intro parser later
  have made : parser = ⟨Rules.standard.assign power, state⟩ := Parser.assign_eq power _
  have assigned := Rules.assigned_standard power
  have climbs := Action.climbs_row assigned ends entries row List.suffix_rfl
  obtain ⟨tree, reads, ordered, settles⟩ := climbs.expression assigned operand bound front
  have done := settles.expression_eq (Rules.grounded_assign power)
  rw [made]
  exact ⟨ParseState.unread_after_held power bound front, tree, run_of_ok _ done, reads, ordered,
    fun _ reads' ordered' => reads.unique ordered reads' ordered'⟩

/-- A sum that holds more tightly than a product, and a comparison that holds no more tightly than what is asked for. -/
theorem perform_expression_ordered_sum :
    let power : TokenKind → Power := fun kind =>
      if kind = .plus then .product else if kind = .asterisk then .sum else .order
    let parser := Parser.assign power ⟨Rules.standard, .ofString "a + b * 1 == true;"⟩
    let later := parser.state.after 4
    ∃ tree, parser.perform (.expression .order) = (.ok (.expression tree), { parser with state := later }) ∧
      tree.text = "((a + b) * 1)" ∧ later.peek.kind = .eq := by
  intro power parser later
  let a : Token := ⟨.ident, "a", ⟨0, 1⟩⟩
  let plus : Token := ⟨.plus, "+", ⟨2, 3⟩⟩
  let b : Token := ⟨.ident, "b", ⟨4, 5⟩⟩
  let times : Token := ⟨.asterisk, "*", ⟨6, 7⟩⟩
  let one : Token := ⟨.int, "1", ⟨8, 9⟩⟩
  let equal : Token := ⟨.eq, "==", ⟨10, 12⟩⟩
  let yes : Token := ⟨.trueWord, "true", ⟨13, 17⟩⟩
  let semicolon : Token := ⟨.semicolon, ";", ⟨17, 18⟩⟩
  obtain ⟨-, tree, done, -, -, unique⟩ :=
    @perform_expression_ordered power .order (.ofString "a + b * 1 == true;") a [(plus, b), (times, one), (equal, yes)]
      [semicolon] (by decide +kernel) rfl (by decide +kernel) (.inl rfl)
  refine ⟨tree, done, ?_, by decide +kernel⟩
  let sum : Expr := .binary plus "+" (.identifier ⟨a, "a"⟩) (.identifier ⟨b, "b"⟩)
  have only : .binary times "*" sum (.integer one 1) = tree := by
    have fits : Text.integer64? "1" = some 1 := by decide +kernel
    have number : one.operand? = some (.integer one 1) := congrArg (Option.map (Expr.integer one)) fits
    refine unique _ (.binary (.binary (.operand rfl) (.operand rfl)) (.operand number)) ?_
    exact ⟨by decide +kernel, nofun, ⟨nofun, nofun, trivial, trivial⟩, trivial⟩
  rw [← only]
  rfl

end Parser

end LetFn
