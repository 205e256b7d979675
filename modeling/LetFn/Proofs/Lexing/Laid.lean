import LetFn.Proofs.Lexing.Forms

namespace LetFn

/-- `tokens` lie over `chars`, the first of which stands at `position`: each is formed as a token may be, and between
them are blanks. -/
inductive Laid : Nat → List Char → List Token → Prop
  | blanks {position blanks} : (∀ c ∈ blanks, isBlank c = true) → Laid position blanks []
  | token {position blanks kind text rest tokens} : (∀ c ∈ blanks, isBlank c = true) → Formed kind text rest.head? →
      Laid (position + blanks.length + text.length) rest tokens →
      Laid position (blanks ++ (text ++ rest))
        (⟨kind, String.ofList text, ⟨position + blanks.length, position + blanks.length + text.length⟩⟩ :: tokens)

namespace Laid

variable {position : Nat} {chars : List Char} {tokens : List Token}

/-- The lexer finds the tokens that lie over a text, and so there is only one row of them. -/
theorem drain (laid : Laid position chars tokens) : Lexer.drain ⟨position, chars⟩ =
    tokens ++ [⟨.eof, "", ⟨position + chars.length, position + chars.length⟩⟩] := by
  induction laid with
  | @blanks position blanks blank =>
    have next := @Lexer.next_of_blanks ⟨position, blanks⟩ blank
    rw [Lexer.drain_of_eof (by rw [next]), next]
    rfl
  | @token position blanks kind text rest tokens blank formed _ ih =>
    obtain ⟨c, cs, rfl⟩ := List.exists_cons_of_ne_nil formed.ne_nil
    have next := @Lexer.next_of_char position blanks (cs ++ rest) c blank formed.proper
    have length : position + (blanks ++ (c :: cs ++ rest)).length =
        position + blanks.length + (c :: cs).length + rest.length := by
      rw [List.length_append, List.length_append, ← Nat.add_assoc, ← Nat.add_assoc]
    rw [Lexeme.ofFront_of_formed formed, ← List.cons_append, List.drop_left] at next
    rw [Lexer.drain_of_ne_eof (by rw [next]; exact formed.kind_ne_eof), next, ih, length, List.cons_append]

/-- A token stands where its characters do, and is formed with what stands behind it. -/
theorem formed (laid : Laid position chars tokens) : ∀ token ∈ tokens, ∃ front behind,
    chars = front ++ (token.literal.toList ++ behind) ∧
      token.span = ⟨position + front.length, position + front.length + token.literal.length⟩ ∧
      Formed token.kind token.literal.toList behind.head? := by
  induction laid with
  | blanks => exact nofun
  | @token position blanks kind text rest tokens _ formed _ ih =>
    refine List.forall_mem_cons.mpr ⟨⟨blanks, rest, ?_, ?_, ?_⟩, fun token member => ?_⟩
    · rw [String.toList_ofList]
    · rw [String.length_ofList]
    · rwa [String.toList_ofList]
    · obtain ⟨front, behind, same, span, formed⟩ := ih token member
      refine ⟨blanks ++ (text ++ front), behind, ?_, ?_, formed⟩
      · rw [same, List.append_assoc, List.append_assoc]
      · rw [span, List.length_append, List.length_append, ← Nat.add_assoc, ← Nat.add_assoc]

end Laid

theorem Lexer.exists_laid (lexer : Lexer) : ∃ tokens, Laid lexer.position lexer.rest tokens := by
  induction lexer using Lexer.drain.induct with
  | case1 lexer ended => exact ⟨[], .blanks (blanks_of_eof ended)⟩
  | case2 lexer more ih =>
    obtain ⟨position, rest⟩ := lexer
    rcases blanks_or_char rest with blank | ⟨blanks, c, after, blank, proper, rfl⟩
    · exact ⟨[], .blanks blank⟩
    · obtain ⟨cs, text⟩ := Lexeme.ofFront_text c after
      obtain ⟨later, front⟩ := Lexeme.ofFront_append c after
      rw [text] at front
      have same : after = cs ++ later := (List.cons.inj front).2
      subst same
      have cut : Lexeme.ofFront c (cs ++ later) = ⟨(Lexeme.ofFront c (cs ++ later)).kind, c :: cs⟩ := by rw [← text]
      obtain ⟨tokens, laid⟩ := ih
      rw [next_of_char blank proper, text, ← List.cons_append, List.drop_left] at laid
      exact ⟨_, .token blank (Lexeme.formed_of_ofFront proper cut) laid⟩

/-- The tokens that the lexer finds in a source are those that lie over it, and no others do. -/
theorem laid_iff {source : String} {tokens : List Token} :
    Laid 0 source.toList tokens ↔ tokens = (TokenStream.ofString source).ahead := by
  have only : ∀ {tokens}, Laid 0 source.toList tokens → tokens = (TokenStream.ofString source).ahead := by
    intro tokens laid
    rw [TokenStream.ofString, tokenize, Lexer.ofString, laid.drain, List.dropLast_concat]
  constructor
  · exact only
  · obtain ⟨found, laid⟩ := (Lexer.ofString source).exists_laid
    rintro rfl
    rwa [← only laid]

theorem laid_ahead (source : String) : Laid 0 source.toList (TokenStream.ofString source).ahead :=
  laid_iff.mpr rfl

theorem tokenize_of_laid {source : String} {tokens : List Token} (laid : Laid 0 source.toList tokens) :
    tokenize source = tokens ++ [⟨.eof, "", ⟨source.length, source.length⟩⟩] := by
  rw [tokenize, Lexer.ofString, laid.drain, Nat.zero_add, String.length_toList]

theorem mem_ahead_iff {source : String} {token : Token} :
    token ∈ (TokenStream.ofString source).ahead ↔ token ∈ tokenize source ∧ token.kind ≠ .eof := by
  rw [← tokenize_filter, List.mem_filter, decide_eq_true_iff]

theorem mem_tokenize_iff {source : String} {token : Token} : token ∈ tokenize source ↔
    token ∈ (TokenStream.ofString source).ahead ∨ token = (TokenStream.ofString source).endToken := by
  rw [(TokenStream.ofString_spec source).2, List.mem_append, List.mem_singleton]

theorem formed_of_mem {source : String} {token : Token} (member : token ∈ (TokenStream.ofString source).ahead) :
    ∃ front behind, source.toList = front ++ (token.literal.toList ++ behind) ∧
      token.span = ⟨front.length, front.length + token.literal.length⟩ ∧
      Formed token.kind token.literal.toList behind.head? := by
  simpa only [Nat.zero_add] using (laid_ahead source).formed token member

theorem span_filled {source : String} {token : Token} (member : token ∈ (TokenStream.ofString source).ahead) :
    token.span.start < token.span.stop := by
  obtain ⟨front, behind, -, span, formed⟩ := formed_of_mem member
  have filled := List.length_pos_iff.mpr formed.ne_nil
  rw [String.length_toList] at filled
  rw [span]
  exact Nat.lt_add_of_pos_right filled

/-- Every token but the end stands in the source, is of the kind that its characters make it, and goes as far as it
can. -/
theorem tokenize_formed (source : String) (token : Token) (member : token ∈ tokenize source)
    (more : token.kind ≠ .eof) : ∃ front behind, source.toList = front ++ (token.literal.toList ++ behind) ∧
      token.span = ⟨front.length, front.length + token.literal.length⟩ ∧
      Formed token.kind token.literal.toList behind.head? :=
  formed_of_mem (mem_ahead_iff.mpr ⟨member, more⟩)

/-- The last characters of a word are those of a keyword, and what follows is no letter. -/
theorem tokenize_formed_word : (⟨.ident, "_if", ⟨1, 4⟩⟩ : Token) ∈ tokenize "1_if\x00" ∧
    ∃ front behind, "1_if\x00".toList = front ++ (['_', 'i', 'f'] ++ behind) ∧
      (⟨1, 4⟩ : Span) = ⟨front.length, front.length + "_if".length⟩ ∧ Formed .ident ['_', 'i', 'f'] behind.head? := by
  have member : (⟨.ident, "_if", ⟨1, 4⟩⟩ : Token) ∈ tokenize "1_if\x00" := by decide +kernel
  exact ⟨member, tokenize_formed "1_if\x00" _ member (by decide)⟩

end LetFn
