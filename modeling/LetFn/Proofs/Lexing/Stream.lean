import Mathlib.Data.List.TakeWhile
import LetFn.Text.Decimal
import LetFn.TokenStream

namespace LetFn

theorem TokenKind.ofWord_ne_eof (word : String) : ofWord word ≠ eof := by
  unfold ofWord
  repeat' split
  all_goals decide

theorem TokenKind.ofWord_ne_int (word : String) : ofWord word ≠ int := by
  unfold ofWord
  repeat' split
  all_goals decide

theorem TokenKind.ofSign_ne {c : Char} {kind : TokenKind} (found : ofSign c = some kind) :
    kind ≠ eof ∧ kind ≠ int := by
  unfold ofSign at found
  split at found
  all_goals first | (cases found; decide) | cases found

namespace Lexeme

theorem ofFront_kind_ne_eof (c : Char) (after : List Char) : (ofFront c after).kind ≠ .eof := by
  unfold ofFront
  repeat' split
  · exact TokenKind.ofWord_ne_eof _
  · nofun
  · decide
  · decide
  · cases sign : TokenKind.ofSign c with
    | none => nofun
    | some kind => exact (TokenKind.ofSign_ne sign).1

theorem ofFront_digits {c : Char} {after : List Char} (number : (ofFront c after).kind = .int) :
    ∃ value, Text.natural? (ofFront c after).text = some value := by
  unfold ofFront at number ⊢
  split at number
  · exact absurd number (TokenKind.ofWord_ne_int _)
  · rename_i letter
    rw [if_neg letter]
    split at number
    · rename_i digit
      rw [if_pos digit]
      refine ⟨_, if_pos ⟨List.cons_ne_nil _ _, ?_⟩⟩
      rw [List.all_cons, Bool.and_eq_true]
      exact ⟨digit, List.all_takeWhile⟩
    · rename_i digit
      split at number
      · cases number
      · split at number
        · cases number
        · cases sign : TokenKind.ofSign c with
          | none => rw [sign] at number; cases number
          | some kind =>
            rw [sign] at number
            exact absurd number (TokenKind.ofSign_ne sign).2

/-- A lexeme is cut from the front of the text. -/
theorem ofFront_append (c : Char) (after : List Char) :
    ∃ rest, c :: after = (ofFront c after).text ++ rest := by
  unfold ofFront
  split
  · exact ⟨after.dropWhile isWordChar, by simp⟩
  · split
    · exact ⟨after.dropWhile isDigit, by simp⟩
    · split
      · rename_i double
        obtain ⟨rfl, next⟩ := double
        cases after with
        | nil => cases next
        | cons d after => cases next; exact ⟨after, rfl⟩
      · split
        · rename_i double
          obtain ⟨rfl, next⟩ := double
          cases after with
          | nil => cases next
          | cons d after => cases next; exact ⟨after, rfl⟩
        · exact ⟨after, rfl⟩

theorem ofFront_text (c : Char) (after : List Char) : ∃ cs, (ofFront c after).text = c :: cs := by
  obtain ⟨rest, front⟩ := ofFront_append c after
  have filled := ofFront_text_length_pos c after
  cases text : (ofFront c after).text with
  | nil => rw [text] at filled; cases filled
  | cons d cs =>
    rw [text] at front
    cases front
    exact ⟨cs, rfl⟩

end Lexeme

/-- A token that may stand before the end of a source: it is what the lexer makes of some text. -/
def Token.Proper (token : Token) : Prop :=
  ∃ c cs after, isBlank c = false ∧ Lexeme.ofFront c after = ⟨token.kind, c :: cs⟩ ∧
    token.literal = String.ofList (c :: cs)

theorem Token.Proper.kind_ne_eof {token : Token} (proper : token.Proper) : token.kind ≠ .eof := by
  obtain ⟨c, cs, after, -, front, -⟩ := proper
  have other := Lexeme.ofFront_kind_ne_eof c after
  rwa [front] at other

/-- Where a proper token is a number it is a row of digits. -/
theorem Token.Proper.digits {token : Token} (proper : token.Proper) (int : token.kind = .int) :
    ∃ value, Text.natural? token.literal.toList = some value := by
  obtain ⟨c, cs, after, -, front, literal⟩ := proper
  have digits := @Lexeme.ofFront_digits c after
  rw [front] at digits
  rw [literal, String.toList_ofList]
  exact digits int

namespace Lexer

/-- The place behind the last character. -/
def finish (lexer : Lexer) : Nat :=
  lexer.position + lexer.rest.length

theorem next_of_blanks {lexer : Lexer} (blank : ∀ c ∈ lexer.rest, isBlank c = true) :
    lexer.next = (⟨.eof, "", ⟨lexer.finish, lexer.finish⟩⟩, ⟨lexer.finish, []⟩) := by
  have all : lexer.rest.takeWhile isBlank = lexer.rest := List.takeWhile_eq_self_iff.mpr blank
  simp only [next, skipBlanks, skip, all, List.drop_length, take, finish]

theorem next_of_char {position : Nat} {blanks after : List Char} {c : Char}
    (blank : ∀ d ∈ blanks, isBlank d = true) (proper : isBlank c = false) :
    next ⟨position, blanks ++ c :: after⟩ =
      (⟨(Lexeme.ofFront c after).kind, String.ofList (Lexeme.ofFront c after).text,
          ⟨position + blanks.length, position + blanks.length + (Lexeme.ofFront c after).text.length⟩⟩,
        ⟨position + blanks.length + (Lexeme.ofFront c after).text.length,
          (c :: after).drop (Lexeme.ofFront c after).text.length⟩) := by
  have front : (blanks ++ c :: after).takeWhile isBlank = blanks := by
    rw [List.takeWhile_append_of_pos blank, List.takeWhile_cons_of_neg (by simp [proper]), List.append_nil]
  simp only [next, skipBlanks, skip, front, List.drop_left, take]

theorem blanks_or_char (rest : List Char) : (∀ c ∈ rest, isBlank c = true) ∨
    ∃ blanks c after, (∀ d ∈ blanks, isBlank d = true) ∧ isBlank c = false ∧ rest = blanks ++ c :: after := by
  induction rest with
  | nil => exact .inl (by simp)
  | cons c rest ih =>
    cases proper : isBlank c with
    | false => exact .inr ⟨[], c, rest, by simp, proper, rfl⟩
    | true =>
      rcases ih with blank | ⟨blanks, d, after, blank, other, rfl⟩
      · exact .inl (List.forall_mem_cons.mpr ⟨proper, blank⟩)
      · exact .inr ⟨c :: blanks, d, after, List.forall_mem_cons.mpr ⟨proper, blank⟩, other, rfl⟩

theorem finish_next (lexer : Lexer) : lexer.next.2.finish = lexer.finish := by
  obtain ⟨position, rest⟩ := lexer
  rcases blanks_or_char rest with blank | ⟨blanks, c, after, blank, proper, rfl⟩
  · rw [next_of_blanks blank]
    simp [finish]
  · obtain ⟨later, front⟩ := Lexeme.ofFront_append c after
    have length := congrArg List.length front
    rw [next_of_char blank proper]
    simp only [finish, List.length_append, List.length_drop, List.length_cons] at length ⊢
    omega

theorem next_of_eof {lexer : Lexer} (ended : lexer.next.1.kind = .eof) :
    lexer.next.1 = ⟨.eof, "", ⟨lexer.finish, lexer.finish⟩⟩ := by
  obtain ⟨position, rest⟩ := lexer
  rcases blanks_or_char rest with blank | ⟨blanks, c, after, blank, proper, rfl⟩
  · rw [next_of_blanks blank]
  · rw [next_of_char blank proper] at ended
    exact absurd ended (Lexeme.ofFront_kind_ne_eof c after)

theorem next_proper {lexer : Lexer} (more : lexer.next.1.kind ≠ .eof) : lexer.next.1.Proper := by
  obtain ⟨position, rest⟩ := lexer
  rcases blanks_or_char rest with blank | ⟨blanks, c, after, blank, proper, rfl⟩
  · rw [next_of_blanks blank] at more
    exact absurd rfl more
  · obtain ⟨cs, text⟩ := Lexeme.ofFront_text c after
    rw [next_of_char blank proper]
    exact ⟨c, cs, after, proper, by rw [← text], by rw [text]⟩

/-- A token starts where there is reading to do, and the next one not before its end. -/
theorem next_span {lexer : Lexer} (more : lexer.next.1.kind ≠ .eof) :
    lexer.position ≤ lexer.next.1.span.start ∧ lexer.next.1.span.start < lexer.next.1.span.stop ∧
      lexer.next.1.span.stop = lexer.next.2.position := by
  obtain ⟨position, rest⟩ := lexer
  rcases blanks_or_char rest with blank | ⟨blanks, c, after, blank, proper, rfl⟩
  · rw [next_of_blanks blank] at more
    exact absurd rfl more
  · have taken := Lexeme.ofFront_text_length_pos c after
    rw [next_of_char blank proper]
    exact ⟨by simp, by simp only; omega, rfl⟩

theorem blanks_of_eof {lexer : Lexer} (ended : lexer.next.1.kind = .eof) : ∀ c ∈ lexer.rest, isBlank c = true := by
  obtain ⟨position, rest⟩ := lexer
  rcases blanks_or_char rest with blank | ⟨blanks, c, after, blank, proper, rfl⟩
  · exact blank
  · rw [next_of_char blank proper] at ended
    exact absurd ended (Lexeme.ofFront_kind_ne_eof c after)

theorem drain_of_eof {lexer : Lexer} (ended : lexer.next.1.kind = .eof) : lexer.drain = [lexer.next.1] := by
  rw [drain, if_pos ended]

theorem drain_of_ne_eof {lexer : Lexer} (more : lexer.next.1.kind ≠ .eof) :
    lexer.drain = lexer.next.1 :: lexer.next.2.drain := by
  rw [drain, if_neg more]

/-- The tokens from a place on are proper ones, and then the end. -/
theorem drain_eq (lexer : Lexer) :
    ∃ tokens, lexer.drain = tokens ++ [⟨.eof, "", ⟨lexer.finish, lexer.finish⟩⟩] ∧
      ∀ token ∈ tokens, token.Proper := by
  induction lexer using drain.induct with
  | case1 lexer ended =>
    refine ⟨[], ?_, by simp⟩
    rw [drain_of_eof ended, next_of_eof ended, List.nil_append]
  | case2 lexer more ih =>
    obtain ⟨tokens, same, proper⟩ := ih
    refine ⟨lexer.next.1 :: tokens, ?_, List.forall_mem_cons.mpr ⟨next_proper more, proper⟩⟩
    rw [drain_of_ne_eof more, same, finish_next, List.cons_append]

theorem drain_ne_nil (lexer : Lexer) : lexer.drain ≠ [] := by
  obtain ⟨tokens, same, -⟩ := lexer.drain_eq
  rw [same]
  exact List.concat_ne_nil _ _

/-- Each token stands behind all of the one before it. -/
theorem drain_spans (lexer : Lexer) :
    (∀ token ∈ lexer.drain, lexer.position ≤ token.span.start) ∧
      lexer.drain.Pairwise fun first second =>
        first.span.start < second.span.start ∧ first.span.stop ≤ second.span.start := by
  induction lexer using drain.induct with
  | case1 lexer ended =>
    rw [drain_of_eof ended, next_of_eof ended]
    simp [finish]
  | case2 lexer more ih =>
    obtain ⟨lower, sorted⟩ := ih
    obtain ⟨first, second, stop⟩ := next_span more
    rw [drain_of_ne_eof more]
    refine ⟨List.forall_mem_cons.mpr ⟨first, fun token member => ?_⟩,
      List.pairwise_cons.mpr ⟨fun token member => ?_, sorted⟩⟩
    · have bound := lower token member
      omega
    · have bound := lower token member
      omega

end Lexer

/-- A stream as it comes from a source. -/
def TokenStream.Proper (stream : TokenStream) : Prop :=
  ∀ token ∈ stream.ahead, token.Proper

theorem TokenStream.ofString_spec (source : String) :
    (ofString source).Proper ∧ tokenize source = (ofString source).ahead ++ [(ofString source).endToken] := by
  obtain ⟨tokens, same, proper⟩ := (Lexer.ofString source).drain_eq
  have ahead : (ofString source).ahead = tokens := by
    simp only [ofString, tokenize, same, List.dropLast_concat]
  refine ⟨by rw [Proper, ahead]; exact proper, ?_⟩
  rw [ahead, tokenize, same]
  simp [endToken, ofString, Lexer.finish, Lexer.ofString, String.length_toList]

/-- All tokens of a source but the end are proper ones. -/
theorem tokenize_filter (source : String) :
    (tokenize source).filter (fun token => token.kind ≠ .eof) = (TokenStream.ofString source).ahead := by
  obtain ⟨proper, tokens⟩ := TokenStream.ofString_spec source
  have kept : ∀ token ∈ (TokenStream.ofString source).ahead, decide (token.kind ≠ .eof) = true :=
    fun token member => decide_eq_true (proper token member).kind_ne_eof
  rw [tokens, List.filter_append, List.filter_eq_self.mpr kept]
  exact List.append_nil _

theorem tokenize_spans (source : String) :
    (tokenize source).Pairwise fun first second =>
      first.span.start < second.span.start ∧ first.span.stop ≤ second.span.start :=
  (Lexer.ofString source).drain_spans.2

theorem tokenize_starts (source : String) :
    (tokenize source).Pairwise fun first second => first.span.start < second.span.start :=
  (tokenize_spans source).imp And.left

end LetFn
