import Mathlib.Data.List.GetD
import LetFn.Proofs.Lexing.Stream

namespace LetFn

/-- The tokens of `source` by their number, and the end token again and again behind the last. -/
def tokenAt (source : String) (index : Nat) : Token :=
  (tokenize source).getD index ((tokenize source).getLastD default)

/-- The place after the next `count` tokens. -/
def Lexer.past : Nat → Lexer → Lexer
  | 0, lexer => lexer
  | count + 1, lexer => past count lexer.next.2

namespace TokenStream

/-- The tokens that are still to be taken from a place in a source. -/
def ofLexer (lexer : Lexer) : TokenStream :=
  ⟨lexer.drain.dropLast, lexer.finish⟩

theorem ofLexer_ofString (source : String) : ofLexer (.ofString source) = ofString source := by
  have finish : (Lexer.ofString source).finish = source.length := by
    simp only [Lexer.finish, Lexer.ofString, Nat.zero_add, String.length_toList]
  rw [ofLexer, finish]
  rfl

/-- A token that is taken from the source is one that is no longer ahead. -/
theorem ofLexer_next (lexer : Lexer) : ofLexer lexer.next.2 = (ofLexer lexer).advance := by
  rw [ofLexer, Lexer.finish_next]
  by_cases ended : lexer.next.1.kind = .eof
  · have rest : lexer.next.2 = ⟨lexer.finish, []⟩ := by rw [Lexer.next_of_blanks (Lexer.blanks_of_eof ended)]
    have none : (Lexer.next ⟨lexer.finish, []⟩).1.kind = .eof := rfl
    rw [rest, Lexer.drain_of_eof none, ofLexer, Lexer.drain_of_eof ended]
    rfl
  · rw [ofLexer, Lexer.drain_of_ne_eof ended, List.dropLast_cons_of_ne_nil (Lexer.drain_ne_nil _)]
    rfl

theorem ofLexer_past (count : Nat) (lexer : Lexer) : ofLexer (lexer.past count) = (ofLexer lexer).drop count := by
  induction count generalizing lexer with
  | zero => rfl
  | succ count ih =>
    rw [Lexer.past, ih, ofLexer_next]
    simp only [drop, advance, List.drop_tail]

/-- The current token of what is left of a source after `index` tokens. -/
theorem ofString_drop_current (source : String) (index : Nat) :
    ((ofString source).drop index).current = tokenAt source index := by
  have tokens := (ofString_spec source).2
  have last : (tokenize source).getLastD default = (ofString source).endToken := by
    rw [tokens, List.getLastD_concat]
  rw [tokenAt, last, tokens, current, drop]
  generalize (ofString source).ahead = ahead
  by_cases within : index < ahead.length
  · rw [List.getD_append _ _ _ _ within, List.drop_eq_getElem_cons within, List.getD_eq_getElem _ _ within]
    rfl
  · rw [List.drop_of_length_le (by omega), List.getD_append_right _ _ _ _ (by omega)]
    cases index - ahead.length <;> rfl

end TokenStream

end LetFn
