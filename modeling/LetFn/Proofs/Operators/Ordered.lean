import Mathlib.Data.List.Basic
import LetFn.Rules
import LetFn.Text.Decimal
import LetFn.Tree

namespace LetFn

/-- The operand that a token is by itself: a name, a number in range or a truth value. -/
def Token.operand? (token : Token) : Option Expr :=
  match token.kind with
  | .ident => some (.identifier (.ofToken token))
  | .int => (Text.integer64? token.literal).map (.integer token)
  | .trueWord => some (.boolean token true)
  | .falseWord => some (.boolean token false)
  | _ => none

/-- A tree of operands and of operators between them, read from left to right: it starts with the operand `first`,
and each entry of the row is an operator and the operand behind it. -/
inductive InOrder : Expr → Token → List (Token × Token) → Prop
  | operand {token tree} : token.operand? = some tree → InOrder tree token []
  | binary {sign left right first before next behind} : InOrder left first before → InOrder right next behind →
      InOrder (.binary sign sign.literal left right) first (before ++ (sign, next) :: behind)

/-- The power of the outermost operator of a tree, if that stands between two operands. -/
def Expr.topPower? (power : TokenKind → Power) : Expr → Option Power
  | .binary sign _ _ _ => some (power sign.kind)
  | _ => none

/-- An operator to the right of another holds more tightly, and one to its left no less tightly. -/
def Expr.Ordered (power : TokenKind → Power) : Expr → Prop
  | .binary sign _ left right =>
    (∀ top ∈ left.topPower? power, power sign.kind ≤ top) ∧ (∀ top ∈ right.topPower? power, power sign.kind < top) ∧
      left.Ordered power ∧ right.Ordered power
  | _ => True

variable {power : TokenKind → Power} {tree left right : Expr} {sign first next : Token}
  {row before behind : List (Token × Token)}

theorem Token.operand?_cases {token : Token} (operand : token.operand? = some tree) :
    (token.kind = .ident ∧ tree = .identifier (.ofToken token)) ∨
    (token.kind = .int ∧ ∃ value, Text.integer64? token.literal = some value ∧ tree = .integer token value) ∨
    ((token.kind = .trueWord ∨ token.kind = .falseWord) ∧ tree = .boolean token (token.kind = .trueWord)) := by
  unfold operand? at operand
  split at operand
  case h_1 ident =>
    cases operand
    exact .inl ⟨ident, rfl⟩
  case h_2 int =>
    obtain ⟨value, fits, rfl⟩ := Option.map_eq_some_iff.mp operand
    exact .inr (.inl ⟨int, value, fits, rfl⟩)
  case h_3 yes =>
    cases operand
    exact .inr (.inr ⟨.inl yes, by rw [yes]; rfl⟩)
  case h_4 no =>
    cases operand
    exact .inr (.inr ⟨.inr no, by rw [no]; rfl⟩)
  case h_5 => cases operand

theorem Token.topPower?_operand {token : Token} (operand : token.operand? = some tree) :
    tree.topPower? power = none := by
  obtain ⟨-, rfl⟩ | ⟨-, value, -, rfl⟩ | ⟨-, rfl⟩ := operand?_cases operand <;> rfl

theorem Token.ordered_operand {token : Token} (operand : token.operand? = some tree) : tree.Ordered power := by
  obtain ⟨-, rfl⟩ | ⟨-, value, -, rfl⟩ | ⟨-, rfl⟩ := operand?_cases operand <;> exact trivial

namespace InOrder

/-- The outermost operator is one of the row. -/
theorem top_mem (reads : InOrder tree first row) :
    ∀ top ∈ tree.topPower? power, ∃ entry ∈ row, power entry.1.kind = top := by
  cases reads with
  | operand operand =>
    intro top found
    rw [Token.topPower?_operand operand] at found
    cases found
  | @binary sign _ _ _ before next behind _ _ =>
    rintro top ⟨⟩
    exact ⟨(sign, next), List.mem_append_right _ List.mem_cons_self, rfl⟩

/-- In an ordered tree no operator holds more loosely than the outermost. -/
theorem rank_le (reads : InOrder tree first row) (ordered : tree.Ordered power) {bound : Nat}
    (least : ∀ top ∈ tree.topPower? power, bound ≤ top.rank) :
    ∀ entry ∈ row, bound ≤ (power entry.1.kind).rank := by
  induction reads with
  | operand => exact fun _ member => absurd member List.not_mem_nil
  | @binary sign _ _ _ _ next _ _ _ ih ih' =>
    obtain ⟨looser, tighter, left, right⟩ := ordered
    have here : bound ≤ (power sign.kind).rank := least _ rfl
    intro entry member
    rcases List.mem_append.mp member with member | member
    · exact ih left (fun top found => Nat.le_trans here (looser top found)) entry member
    · rcases List.mem_cons.mp member with rfl | member
      · exact here
      · exact ih' right (fun top found => Nat.le_trans here (Nat.le_of_lt (tighter top found))) entry member

theorem le_of_left (reads : InOrder left first before)
    (ordered : (Expr.binary sign sign.literal left right).Ordered power) {entry : Token × Token}
    (member : entry ∈ before) : power sign.kind ≤ power entry.1.kind :=
  reads.rank_le ordered.2.2.1 ordered.1 entry member

theorem lt_of_right (reads : InOrder right next behind)
    (ordered : (Expr.binary sign sign.literal left right).Ordered power) {entry : Token × Token}
    (member : entry ∈ behind) : power sign.kind < power entry.1.kind :=
  reads.rank_le ordered.2.2.2 ordered.2.1 entry member

/-- Two ordered trees of one row have the same outermost operator: it cannot stand further to the right in the other,
where what is to its left would hold both no less tightly than it and more loosely. -/
theorem split_eq {sign' next' : Token} {left' right' : Expr} {before' behind' : List (Token × Token)}
    (ordered : (Expr.binary sign sign.literal left right).Ordered power)
    (ordered' : (Expr.binary sign' sign'.literal left' right').Ordered power)
    (reads : InOrder right next behind) (reads' : InOrder left' first before') {between : List (Token × Token)}
    (further : before' = before ++ between) (same : (sign, next) :: behind = between ++ (sign', next') :: behind') :
    between = [] := by
  cases between with
  | nil => rfl
  | cons entry between =>
    obtain ⟨rfl, rfl⟩ := List.cons.inj same
    have tighter : power sign.kind < power sign'.kind :=
      reads.lt_of_right ordered (List.mem_append_right _ List.mem_cons_self)
    have looser : power sign'.kind ≤ power sign.kind :=
      reads'.le_of_left ordered' (further ▸ List.mem_append_right _ List.mem_cons_self)
    exact absurd looser (Nat.not_le_of_lt tighter)

/-- There is only one ordered tree of a row. -/
theorem unique {other : Expr} (reads : InOrder tree first row) (ordered : tree.Ordered power)
    (reads' : InOrder other first row) (ordered' : other.Ordered power) : other = tree := by
  induction reads generalizing other with
  | operand operand =>
    generalize empty : [] = row at reads'
    cases reads' with
    | operand operand' => exact Option.some.inj (operand'.symm.trans operand)
    | binary => exact absurd empty.symm (by simp)
  | @binary sign left right first before next behind reads further ih ih' =>
    generalize whole : before ++ (sign, next) :: behind = row at reads'
    cases reads' with
    | operand => exact absurd whole (by simp)
    | @binary sign' left' right' _ before' next' behind' reads' further' =>
      have apart : before' = before ∧ (sign, next) :: behind = (sign', next') :: behind' := by
        rcases List.append_eq_append_iff.mp whole with ⟨between, longer, same⟩ | ⟨between, longer, same⟩
        · obtain rfl := split_eq ordered ordered' further reads' longer same
          exact ⟨longer.trans (List.append_nil _), same⟩
        · obtain rfl := split_eq ordered' ordered further' reads longer same
          exact ⟨(longer.trans (List.append_nil _)).symm, same.symm⟩
      obtain ⟨rfl, rest⟩ := apart
      cases rest
      rw [ih ordered.2.2.1 reads' ordered'.2.2.1, ih' ordered.2.2.2 further' ordered'.2.2.2]

end InOrder

end LetFn
