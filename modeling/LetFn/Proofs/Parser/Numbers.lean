import Mathlib.Data.List.Induction
import Mathlib.Data.Nat.Digits.Defs
import LetFn.Proofs.Grammar.Complete
import LetFn.Proofs.Grammar.Tokens
import LetFn.Proofs.Lexing.Laid
import LetFn.Proofs.Tree.Parts
import LetFn.Proofs.Walk.Routines

namespace LetFn

namespace Text

/-- What a row of digits stands for in base ten. -/
def decimalValue (digits : List Char) : Nat :=
  Nat.ofDigits 10 (digits.reverse.map fun digit => digit.toNat - '0'.toNat)

theorem digitsValue_eq (digits : List Char) : digitsValue digits = decimalValue digits := by
  induction digits using List.reverseRecOn with
  | nil => rfl
  | append_singleton digits digit ih =>
    rw [decimalValue, List.reverse_concat, List.map_cons, Nat.ofDigits_cons, ← decimalValue, ← ih, digitsValue,
      List.foldl_concat, ← digitsValue, Nat.add_comm]

theorem natural?_of_digits {digits : String} (filled : digits ≠ "") (row : ∀ c ∈ digits.toList, c.isDigit = true) :
    natural? digits.toList = some (decimalValue digits.toList) :=
  natural?_eq_some_iff.mpr ⟨fun none => filled (String.toList_eq_nil_iff.mp none), row, digitsValue_eq _⟩

end Text

namespace Action

variable {rules : Rules} {state : ParseState} {fuel : Nat} {power : Power}

/-- A number that is too large for 64 bits is no expression. -/
theorem expression_of_wide (rule : rules.prefixRule state.current.kind = some .integer)
    (wide : Text.integer64? state.current.literal = none) : expression rules (fuel + 2) power state =
      .error (.problem (state.problemHere (.integerRange state.current.literal))) state := by
  rw [expression_of_rule rule]
  exact bind_of_error (opening_integer_of_none wide) _

/-- The statement that starts with such a number fails, and no further on. -/
theorem statement_of_wide (rule : rules.prefixRule state.current.kind = some .integer)
    (plain : rules.statementRule state.current.kind = none) (wide : Text.integer64? state.current.literal = none) :
    statement rules (fuel + 4) .dispatch state =
      .error (.problem (state.problemHere (.integerRange state.current.literal))) state := by
  rw [statement, bind_current, plain, Option.getD_none, statement, bind_current]
  exact bind_of_error (expression_of_wide rule wide) _

/-- Where such a number is all there is, the program is empty, and the number is complained of. -/
theorem program_of_wide {token : Token} {finish : Nat} (int : token.kind = .int)
    (wide : Text.integer64? token.literal = none) :
    let first := (ParseState.start ⟨[token], finish⟩).countRound
    Action.program .standard (fuel + 4) (.start ⟨[token], finish⟩) =
      .ok ⟨[]⟩ (first.record ⟨.integerRange token.literal, token.span⟩).advance := by
  intro first
  have kind : first.current.kind = .int := int
  have fails := @statement_of_wide .standard first fuel (by rw [kind]; rfl) (by rw [kind]; rfl) wide
  have turn : orRecord (statement .standard (fuel + 4) .dispatch) first =
      .ok none (first.record ⟨.integerRange token.literal, token.span⟩) := by
    rw [orRecord, fails]
    rfl
  have unclosed : decide ((ParseState.start ⟨[token], finish⟩).current.kind = .eof) ≠ true := by
    rw [show (ParseState.start ⟨[token], finish⟩).current.kind = .int from int]
    decide
  rw [program, statements]
  refine bind_of_ok ?_ _
  rw [bind_current, if_neg unclosed, bind_countRound, bind_of_ok turn, bind_advance]
  rfl

end Action

/-- The token that a whole source of digits is. -/
def Token.number (digits : String) : Token :=
  ⟨.int, digits, ⟨0, digits.length⟩⟩

/-- A row of digits is one token. -/
theorem stream_of_digits {digits : String} (filled : digits ≠ "") (row : ∀ c ∈ digits.toList, c.isDigit = true) :
    TokenStream.ofString digits = ⟨[.number digits], digits.length⟩ := by
  have formed : Formed .int digits.toList [].head? :=
    .number (fun none => filled (String.toList_eq_nil_iff.mp none)) row nofun
  have laid := @Laid.token 0 _ _ _ _ _ (List.forall_mem_nil _) formed (.blanks (List.forall_mem_nil _))
  simp only [List.nil_append, List.append_nil, List.length_nil, String.length_toList, String.ofList_toList,
    Nat.zero_add] at laid
  exact congrArg (TokenStream.mk · digits.length) (laid_iff.mp laid).symm

theorem parse_digits_of_small {digits : String} (filled : digits ≠ "") (row : ∀ c ∈ digits.toList, c.isDigit = true)
    (small : Text.decimalValue digits.toList ≤ 0x7fffffffffffffff) : parse digits =
      (⟨[.expression (.number digits) (.integer (.number digits) (Text.decimalValue digits.toList))]⟩, []) := by
  have read : Reads (.statement (.expression (.number digits) (.integer (.number digits)
      (Text.decimalValue digits.toList)))) [.number digits] [] :=
    .expression (.integer rfl (Text.natural?_of_digits filled row) small) (.bare (by decide))
  obtain ⟨later, run, clean⟩ := @Action.program_of_reads ⟨_⟩ ⟨_, digits.length⟩ (.someStatements read .noStatements)
  rw [← stream_of_digits filled row] at run
  rw [parse_eq_of_run run, clean]

theorem parse_digits_of_wide {digits : String} (filled : digits ≠ "") (row : ∀ c ∈ digits.toList, c.isDigit = true)
    (wide : ¬Text.decimalValue digits.toList ≤ 0x7fffffffffffffff) :
    parse digits = (⟨[]⟩, [⟨.integerRange digits, ⟨0, digits.length⟩⟩]) := by
  have none := Text.integer64?_of_natural? (Text.natural?_of_digits filled row)
  rw [if_neg wide] at none
  have run := @Action.program_of_wide (4 * (ParseState.ofString digits).remaining + 12) (.number digits) digits.length
    rfl none
  rw [← stream_of_digits filled row] at run
  rw [parse_eq_of_run run]
  rfl

/-- An integer that is as it is read means what its digits stand for. -/
theorem Expr.Genuine.integer {token : Token} {value : Int} (genuine : (Expr.integer token value).Genuine) :
    token.kind = .int ∧ token.literal ≠ "" ∧ (∀ c ∈ token.literal.toList, c.isDigit = true) ∧
      value = Text.decimalValue token.literal.toList ∧ 0 ≤ value ∧ value ≤ 0x7fffffffffffffff := by
  obtain ⟨⟨number, found, small, rfl⟩, content⟩ := genuine
  rw [Expr.content, Expr.outline, Expr.signed, Expr.integer.injEq] at content
  have kind : token.kind = .int := congrArg Token.kind content.1
  obtain ⟨filled, row, rfl⟩ := Text.natural?_eq_some_iff.mp found
  have some : token.literal ≠ "" := fun none => filled (String.toList_eq_nil_iff.mpr none)
  exact ⟨kind, some, row, by rw [Text.digitsValue_eq], Int.natCast_nonneg _, Int.ofNat_le.mpr small⟩

/-- A source of digits is the number that they stand for, leading zeros and all, or else is complained of as a whole,
and at whatever depth an integer stands in a program, it means its digits. -/
theorem parse_integers :
    (∀ digits : String, digits ≠ "" → (∀ c ∈ digits.toList, c.isDigit = true) →
      parse digits =
        if Text.decimalValue digits.toList ≤ 0x7fffffffffffffff then
          (⟨[.expression (.number digits) (.integer (.number digits) (Text.decimalValue digits.toList))]⟩, [])
        else (⟨[]⟩, [⟨.integerRange digits, ⟨0, digits.length⟩⟩])) ∧
      ∀ source token value, Expr.integer token value ∈ (parse source).1.parts →
        token.kind = .int ∧ token.literal ≠ "" ∧ (∀ c ∈ token.literal.toList, c.isDigit = true) ∧
          value = Text.decimalValue token.literal.toList ∧ 0 ≤ value ∧ value ≤ 0x7fffffffffffffff := by
  constructor
  · intro digits filled row
    split
    · next small => exact parse_digits_of_small filled row small
    · next wide => exact parse_digits_of_wide filled row wide
  · intro source token value member
    obtain ⟨faithful, content⟩ := stmts_genuine (parse_keeps source).1
    exact (stmtsParts_genuine _ faithful content _ member).integer

/-- Zeros in front do not count, the first number above the limit is complained of, and behind a complaint an integer
is found in a function among the arguments of a call. -/
theorem parse_integers_limit :
    (parse "007").2 = [] ∧ Text.decimalValue "007".toList = 7 ∧
      parse "9223372036854775808" = (⟨[]⟩, [⟨.integerRange "9223372036854775808", ⟨0, 19⟩⟩]) ∧
      (parse ") f(fn() \x7b 00042 \x7d)").2 ≠ [] ∧
      Expr.integer ⟨.int, "00042", ⟨11, 16⟩⟩ 42 ∈ (parse ") f(fn() \x7b 00042 \x7d)").1.parts ∧
      42 = (Text.decimalValue "00042".toList : Int) := by
  have low : Text.decimalValue "007".toList = 7 := by decide +kernel
  have high : ¬Text.decimalValue "9223372036854775808".toList ≤ 0x7fffffffffffffff := by decide +kernel
  have found : ((parse ") f(fn() \x7b 00042 \x7d)").1.parts.any fun part => match part with
      | .integer token value => decide (token = ⟨.int, "00042", ⟨11, 16⟩⟩ ∧ value = 42)
      | _ => false) = true := by decide +kernel
  have member : Expr.integer ⟨.int, "00042", ⟨11, 16⟩⟩ 42 ∈ (parse ") f(fn() \x7b 00042 \x7d)").1.parts := by
    obtain ⟨part, member, shown⟩ := List.any_eq_true.mp found
    split at shown
    · obtain ⟨rfl, rfl⟩ := of_decide_eq_true shown
      exact member
    · cases shown
  have one := parse_integers.1 "007" (by decide) (List.all_eq_true.mp (by decide))
  have two := parse_integers.1 "9223372036854775808" (by decide) (List.all_eq_true.mp (by decide))
  rw [low, if_pos (by decide)] at one
  rw [if_neg high] at two
  exact ⟨congrArg Prod.snd one, low, two, by decide +kernel, member, (parse_integers.2 _ _ _ member).2.2.2.1⟩

end LetFn
