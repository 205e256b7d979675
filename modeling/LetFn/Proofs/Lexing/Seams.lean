import LetFn.Proofs.Lexing.Laid

namespace LetFn

/-- Whether a token of this kind is longer where `c` comes right behind it. -/
def TokenKind.goesOn : TokenKind → Char → Bool
  | ident, c | fnWord, c | letWord, c | trueWord, c | falseWord, c | ifWord, c | elseWord, c | returnWord, c =>
    isWordChar c
  | int, c => isDigit c
  | assign, c | bang, c => c = '='
  | _, _ => false

theorem TokenKind.goesOn_of_reserved {word : String} {kind : TokenKind} (member : (word, kind) ∈ reservedWords) :
    kind.goesOn = isWordChar := by
  have each : ∀ entry ∈ reservedWords, entry.2.goesOn = isWordChar := by
    simp only [reservedWords, List.forall_mem_cons]
    exact ⟨rfl, rfl, rfl, rfl, rfl, rfl, rfl, List.forall_mem_nil _⟩
  exact each _ member

theorem TokenKind.goesOn_of_plain {c d : Char} {kind : TokenKind} (member : (c, kind) ∈ plainSigns) :
    kind.goesOn d = false := by
  have each : ∀ entry ∈ plainSigns, entry.2.goesOn d = false := by
    simp only [plainSigns, List.forall_mem_cons, goesOn, List.not_mem_nil, false_implies, implies_true, and_self]
  exact each _ member

/-- What is formed with nothing behind it is formed before whatever does not make it longer, and before nothing else. -/
theorem Formed.iff_alone {kind : TokenKind} {text : List Char} {next : Option Char} :
    Formed kind text next ↔ Formed kind text none ∧ ∀ c ∈ next, kind.goesOn c = false := by
  constructor
  · intro formed
    cases formed with
    | name word ends other => exact ⟨.name word nofun other, ends⟩
    | reserved member ends => exact ⟨.reserved member nofun, TokenKind.goesOn_of_reserved member ▸ ends⟩
    | number some all ends => exact ⟨.number some all nofun, ends⟩
    | equal => exact ⟨.equal, fun _ _ => rfl⟩
    | notEqual => exact ⟨.notEqual, fun _ _ => rfl⟩
    | assign single => exact ⟨.assign nofun, fun c there => decide_eq_false fun equals => single (equals ▸ there)⟩
    | bang single => exact ⟨.bang nofun, fun c there => decide_eq_false fun equals => single (equals ▸ there)⟩
    | sign member => exact ⟨.sign member, fun _ _ => TokenKind.goesOn_of_plain member⟩
    | illegal other proper equals plain => exact ⟨.illegal other proper equals plain, fun _ _ => rfl⟩
  · rintro ⟨formed, ends⟩
    cases formed with
    | name word _ other => exact .name word ends other
    | reserved member => exact .reserved member (TokenKind.goesOn_of_reserved member ▸ ends)
    | number some all => exact .number some all ends
    | equal => exact .equal
    | notEqual => exact .notEqual
    | assign => exact .assign fun there => absurd (ends _ there) (by decide)
    | bang => exact .bang fun there => absurd (ends _ there) (by decide)
    | sign member => exact .sign member
    | illegal other proper equals plain => exact .illegal other proper equals plain

namespace Lexer

theorem next_shift (count position : Nat) (rest : List Char) : next ⟨position + count, rest⟩ =
    ((next ⟨position, rest⟩).1.respan (.shift count),
      ⟨(next ⟨position, rest⟩).2.position + count, (next ⟨position, rest⟩).2.rest⟩) := by
  rcases blanks_or_char rest with blank | ⟨blanks, c, after, blank, proper, rfl⟩
  · rw [next_of_blanks blank, next_of_blanks blank]
    simp only [finish, Token.respan, Motion.shift, Nat.add_right_comm]
  · rw [next_of_char blank proper, next_of_char blank proper]
    simp only [Token.respan, Motion.shift, Nat.add_right_comm]

/-- Text further on has the same tokens, as far further on. -/
theorem drain_shift (count : Nat) (lexer : Lexer) :
    drain ⟨lexer.position + count, lexer.rest⟩ = lexer.drain.map (Token.respan (.shift count)) := by
  induction lexer using drain.induct with
  | case1 lexer ended =>
    have next := next_shift count lexer.position lexer.rest
    rw [drain_of_eof (by rw [next]; exact ended), next, drain_of_eof ended]
    rfl
  | case2 lexer more ih =>
    have next := next_shift count lexer.position lexer.rest
    rw [drain_of_ne_eof (by rw [next]; exact more), next, drain_of_ne_eof more, List.map_cons, ← ih]

end Lexer

namespace Laid

variable {position : Nat} {chars more : List Char} {tokens others : List Token}

theorem behind_blanks {blanks : List Char} (blank : ∀ c ∈ blanks, isBlank c = true)
    (laid : Laid (position + blanks.length) more others) : Laid position (blanks ++ more) others := by
  generalize place : position + blanks.length = start at laid
  cases laid with
  | blanks blank' => exact .blanks (List.forall_mem_append.mpr ⟨blank, blank'⟩)
  | @token _ blanks' _ _ _ _ blank' formed laid =>
    have joined : start + blanks'.length = position + (blanks ++ blanks').length := by
      rw [← place, List.length_append, Nat.add_assoc]
    rw [joined] at laid ⊢
    rw [← List.append_assoc]
    exact .token (List.forall_mem_append.mpr ⟨blank, blank'⟩) formed laid

/-- Tokens lie over a text and the one behind it as they lie over each, where none that ends with the first goes on in
the second. -/
theorem append (laid : Laid position chars tokens) (behind : Laid (position + chars.length) more others)
    (apart : ∀ token ∈ tokens, token.span.stop = position + chars.length →
      ∀ c ∈ more.head?, token.kind.goesOn c = false) : Laid position (chars ++ more) (tokens ++ others) := by
  induction laid with
  | blanks blank => exact behind.behind_blanks blank
  | @token position blanks kind text rest tokens blank formed laid ih =>
    have length : position + (blanks ++ (text ++ rest)).length =
        position + blanks.length + text.length + rest.length := by
      rw [List.length_append, List.length_append, ← Nat.add_assoc, ← Nat.add_assoc]
    rw [length] at behind apart
    obtain ⟨own, apart⟩ := List.forall_mem_cons.mp apart
    rw [List.append_assoc, List.append_assoc, List.cons_append]
    refine .token blank ?_ (ih behind apart)
    cases rest with
    | nil => exact Formed.iff_alone.mpr ⟨formed, own rfl⟩
    | cons c rest => exact formed

theorem drain_append (laid : Laid position chars tokens) (apart : ∀ token ∈ tokens,
      token.span.stop = position + chars.length → ∀ c ∈ more.head?, token.kind.goesOn c = false) :
    Lexer.drain ⟨position, chars ++ more⟩ = tokens ++ Lexer.drain ⟨position + chars.length, more⟩ := by
  obtain ⟨others, behind⟩ := Lexer.exists_laid ⟨position + chars.length, more⟩
  rw [(laid.append behind apart).drain, behind.drain, List.append_assoc, List.length_append, Nat.add_assoc]

end Laid

/-- The first character of `second` makes a token longer that ends where `first` does. -/
def Fuses (first second : String) : Prop :=
  ∃ token ∈ tokenize first, token.span.stop = first.length ∧ ∃ c ∈ second.toList.head?, token.kind.goesOn c = true

theorem fuses_iff_any {first second : String} : Fuses first second ↔ (tokenize first).any (fun token =>
    token.span.stop = first.length && second.toList.head?.any token.kind.goesOn) = true := by
  simp only [Fuses, List.any_eq_true, Bool.and_eq_true, decide_eq_true_eq, Option.any_eq_true, Option.mem_def]

instance (first second : String) : Decidable (Fuses first second) :=
  decidable_of_iff _ fuses_iff_any.symm

theorem not_fuses_iff {first second : String} : ¬Fuses first second ↔
    ∀ token ∈ (TokenStream.ofString first).ahead, token.span.stop = first.length →
      ∀ c ∈ second.toList.head?, token.kind.goesOn c = false := by
  constructor
  · intro apart token member stop c next
    by_contra goes
    exact apart ⟨token, (mem_ahead_iff.mp member).1, stop, c, next, Bool.not_eq_false _ ▸ goes⟩
  · rintro apart ⟨token, member, stop, c, next, goes⟩
    have more : token.kind ≠ .eof := fun eof => by rw [eof] at goes; cases goes
    rw [apart token (mem_ahead_iff.mpr ⟨member, more⟩) stop c next] at goes
    cases goes

/-- The tokens of two sources, one right behind the other, are those of the first and then those of the second, unless
one of the first goes on in the second. -/
theorem tokenize_append_of_apart {first second : String} (apart : ¬Fuses first second) : tokenize (first ++ second) =
    (tokenize first).dropLast ++ (tokenize second).map (Token.respan (.shift first.length)) := by
  have start : 0 + first.toList.length = first.length := by rw [Nat.zero_add, String.length_toList]
  have moved := Lexer.drain_shift first.length (.ofString second)
  have joined := (laid_ahead first).drain_append (start ▸ not_fuses_iff.mp apart)
  rw [start] at joined
  rw [Lexer.ofString, Nat.zero_add] at moved
  rw [tokenize, Lexer.ofString, String.toList_append, joined, moved]
  rfl

/-- A token that goes on in the second source is not one of both together. -/
theorem apart_of_tokenize_append {first second : String} {tokens : List Token}
    (same : tokenize (first ++ second) = (tokenize first).dropLast ++ tokens) : ¬Fuses first second := by
  refine not_fuses_iff.mpr fun token member stop c next => ?_
  have both : token ∈ (TokenStream.ofString (first ++ second)).ahead :=
    mem_ahead_iff.mpr ⟨by rw [same]; exact List.mem_append_left _ member, (mem_ahead_iff.mp member).2⟩
  obtain ⟨front, behind, chars, span, formed⟩ := formed_of_mem both
  have length : (front ++ token.literal.toList).length = first.toList.length := by
    rw [span] at stop
    rw [List.length_append, String.length_toList, String.length_toList, ← stop]
  rw [String.toList_append, ← List.append_assoc] at chars
  rw [← (List.append_inj chars length.symm).2] at formed
  exact (Formed.iff_alone.mp formed).2 c next

theorem tokenize_append_iff (first second : String) : tokenize (first ++ second) =
    (tokenize first).dropLast ++ (tokenize second).map (Token.respan (.shift first.length)) ↔ ¬Fuses first second :=
  ⟨apart_of_tokenize_append, tokenize_append_of_apart⟩

/-- A digit goes on with a word, and no letter with a number. -/
example : Fuses "fn" "9" ∧ ¬Fuses "9" "fn" ∧ Fuses "!" "==" ∧ ¬Fuses "==" "=" ∧ ¬Fuses "fn " "9" := by
  decide +kernel

end LetFn
