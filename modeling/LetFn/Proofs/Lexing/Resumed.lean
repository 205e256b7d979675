import LetFn.Proofs.Lexing.Scanning

namespace LetFn

namespace Lexer

theorem position_le_next (lexer : Lexer) : lexer.position ≤ lexer.next.2.position := by
  by_cases ended : lexer.next.1.kind = .eof
  · have behind : lexer.next.2 = ⟨lexer.finish, []⟩ := by rw [next_of_blanks (blanks_of_eof ended)]
    rw [behind]
    exact Nat.le_add_right _ _
  · obtain ⟨first, filled, stop⟩ := next_span ended
    omega

theorem position_le_past (lexer : Lexer) (count : Nat) : lexer.position ≤ (lexer.past count).position := by
  induction count generalizing lexer with
  | zero => exact Nat.le_refl _
  | succ count ih => exact Nat.le_trans lexer.position_le_next (ih lexer.next.2)

/-- At the end of a source one end token comes after the other. -/
theorem next_of_nil {lexer : Lexer} (exhausted : lexer.rest = []) :
    lexer.next.1.kind = .eof ∧ lexer.next.2 = lexer := by
  obtain ⟨position, rest⟩ := lexer
  cases exhausted
  exact ⟨rfl, rfl⟩

theorem past_of_nil {lexer : Lexer} (exhausted : lexer.rest = []) (count : Nat) : lexer.past count = lexer := by
  induction count with
  | zero => rfl
  | succ count ih => rw [past, (next_of_nil exhausted).2, ih]

theorem rest_of_eof {lexer : Lexer} (ended : lexer.next.1.kind = .eof) : lexer.next.2.rest = [] := by
  rw [next_of_blanks (blanks_of_eof ended)]

/-- What is read further on is as far further on at every step. -/
theorem past_shift (shift : Nat) (lexer : Lexer) (count : Nat) : past count ⟨lexer.position + shift, lexer.rest⟩ =
    ⟨(lexer.past count).position + shift, (lexer.past count).rest⟩ := by
  induction count generalizing lexer with
  | zero => rfl
  | succ count ih => rw [past, next_shift, past, ← ih lexer.next.2]

theorem current_ofLexer (lexer : Lexer) : (TokenStream.ofLexer lexer).current = lexer.next.1 := by
  by_cases ended : lexer.next.1.kind = .eof
  · rw [TokenStream.ofLexer, drain_of_eof ended, next_of_eof ended]
    rfl
  · rw [TokenStream.ofLexer, drain_of_ne_eof ended, List.dropLast_cons_of_ne_nil (drain_ne_nil _)]
    rfl

theorem next_past (source : String) (index : Nat) :
    ((Lexer.ofString source).past index).next.1 = tokenAt source index := by
  rw [← TokenStream.ofString_drop_current, ← TokenStream.ofLexer_ofString, ← TokenStream.ofLexer_past, current_ofLexer]

end Lexer

namespace Scanner

variable {scanner : Scanner}

/-- The scanner after `count` calls for a token. -/
def past : Nat → Scanner → Scanner
  | 0, scanner => scanner
  | count + 1, scanner => past count scanner.next.2

/-- The tokens that `count` calls give. -/
def taken : Nat → Scanner → List Token
  | 0, _ => []
  | count + 1, scanner => scanner.next.1 :: scanner.next.2.taken count

theorem ofString_sound (source : String) : (ofString source).Sound ∧
    (ofString source).input.toList = source.toList ∧ (ofString source).place = .ofString source := by
  refine ⟨⟨Nat.zero_le _, ?_, ?_⟩, rfl, rfl⟩
  · simp [ofString, readChar]
  · exact getD_eq_headD_drop _ 0

namespace Sound

theorem past (sound : scanner.Sound) (count : Nat) : scanner.Comes (scanner.past count) (scanner.place.past count) := by
  induction count generalizing scanner with
  | zero => exact ⟨sound, rfl, rfl⟩
  | succ count ih =>
    obtain ⟨-, one⟩ := sound.next
    have more := ih one.sound
    rw [one.place_eq] at more
    exact ⟨more.sound, more.input_eq.trans one.input_eq, more.place_eq⟩

theorem taken (sound : scanner.Sound) (count : Nat) :
    scanner.taken count = (List.range count).map fun index => (scanner.place.past index).next.1 := by
  induction count generalizing scanner with
  | zero => rfl
  | succ count ih =>
    obtain ⟨token, one⟩ := sound.next
    rw [Scanner.taken, ih one.sound, one.place_eq, token, List.range_succ_eq_map, List.map_cons, List.map_map]
    rfl

theorem position_le_past (sound : scanner.Sound) (count : Nat) : scanner.position ≤ (scanner.past count).position := by
  have further := scanner.place.position_le_past count
  rwa [← (sound.past count).place_eq] at further

theorem rest_of_eof (sound : scanner.Sound) (count : Nat)
    (ended : ∃ token ∈ scanner.taken count, token.kind = .eof) : (scanner.past count).place.rest = [] := by
  induction count generalizing scanner with
  | zero =>
    obtain ⟨token, member, -⟩ := ended
    cases member
  | succ count ih =>
    obtain ⟨first, one⟩ := sound.next
    by_cases now : scanner.next.1.kind = .eof
    · have exhausted : scanner.next.2.place.rest = [] := by
        rw [one.place_eq]
        exact Lexer.rest_of_eof (first ▸ now)
      rw [Scanner.past, (one.sound.past count).place_eq, Lexer.past_of_nil exhausted]
      exact exhausted
    · obtain ⟨token, member, eof⟩ := ended
      refine ih one.sound ⟨token, (List.mem_cons.mp member).resolve_left ?_, eof⟩
      rintro rfl
      exact now eof

theorem still (sound : scanner.Sound) (exhausted : scanner.place.rest = []) (count : Nat) :
    (scanner.past count).position = scanner.position ∧ (scanner.past count).readPosition = scanner.readPosition := by
  have later := sound.past count
  rw [Lexer.past_of_nil exhausted] at later
  have position : (scanner.past count).position = scanner.position := congrArg Lexer.position later.place_eq
  exact ⟨position, by rw [later.sound.readPosition_eq, sound.readPosition_eq, position]⟩

theorem eof_of_nil (sound : scanner.Sound) (exhausted : scanner.place.rest = []) (count : Nat) :
    ∀ token ∈ scanner.taken count, token.kind = .eof := by
  intro token member
  rw [sound.taken] at member
  obtain ⟨index, -, rfl⟩ := List.mem_map.mp member
  rw [Lexer.past_of_nil exhausted]
  exact (Lexer.next_of_nil exhausted).1

/-- The tokens to come are those of the text that is left, as far on as the scanner is. -/
theorem taken_eq_rest (sound : scanner.Sound) (count : Nat) :
    scanner.taken count = (List.range count).map fun index =>
      (tokenAt (String.ofList scanner.place.rest) index).respan (.shift scanner.position) := by
  rw [sound.taken]
  refine List.map_congr_left fun index _ => ?_
  have moved := Lexer.past_shift scanner.position (.ofString (String.ofList scanner.place.rest)) index
  rw [Lexer.ofString, String.toList_ofList, Nat.zero_add] at moved
  have here : scanner.place = ⟨scanner.position, scanner.place.rest⟩ := rfl
  rw [here, moved, Lexer.next_shift, ← Lexer.next_past, Lexer.ofString, String.toList_ofList]

theorem tokens (sound : scanner.Sound) : scanner.tokens = scanner.place.drain.dropLast := by
  induction scanner using Scanner.tokens.induct with
  | case1 scanner ended =>
    rw [Scanner.tokens, if_pos ended, Lexer.drain_of_eof (sound.next.1 ▸ ended)]
    rfl
  | case2 scanner more ih =>
    obtain ⟨token, one⟩ := sound.next
    rw [Scanner.tokens, if_neg more, Lexer.drain_of_ne_eof (token ▸ more),
      List.dropLast_cons_of_ne_nil (Lexer.drain_ne_nil _), ih one.sound, one.place_eq, token]

end Sound

/-- Token by token up to the end token, a scanner finds all tokens of a source. -/
theorem tokens_ofString (source : String) : (ofString source).tokens = (TokenStream.ofString source).ahead := by
  obtain ⟨sound, -, place⟩ := ofString_sound source
  rw [sound.tokens, place]
  rfl

/-- What is true of a scanner of `source` after `count` calls for a token, which gave `tokens`. -/
structure Tracks (source : String) (count : Nat) (tokens : List Token) (scanner : Scanner) : Prop where
  /-- The calls give the tokens of the source one by one, and then its end token again and again. -/
  tokens_eq : tokens = (List.range count).map (tokenAt source)
  position_le : scanner.position ≤ source.length
  readPosition_eq : scanner.readPosition = scanner.position + 1
  /-- The character that it keeps is that of the source at its place, or NUL behind the last one. -/
  current_eq : scanner.current = source.toList.getD scanner.position '\x00'
  onward : ∀ further, scanner.position ≤ (scanner.past further).position ∧
    scanner.readPosition ≤ (scanner.past further).readPosition
  /-- Once the end token has been given nothing changes any more. -/
  still : (∃ token ∈ tokens, token.kind = .eof) → ∀ further,
    (scanner.past further).position = scanner.position ∧ (scanner.past further).readPosition = scanner.readPosition
  atEof_iff : scanner.atEof = true ↔ scanner.position = source.length
  atEof_of_eof : (∃ token ∈ tokens, token.kind = .eof) → scanner.atEof = true
  ended : scanner.atEof = true → ∀ further, ∀ token ∈ scanner.taken further, token.kind = .eof
  /-- The tokens to come are those of the rest of the source, moved to where it stands. -/
  resumes : ∀ further, scanner.taken further = (List.range further).map fun index =>
    (tokenAt (String.ofList (source.toList.drop scanner.position)) index).respan (.shift scanner.position)

/-- A scanner that is called for tokens again and again, also at the end, gives those of the source, keeps its two
places and its character right, and goes on as one would that starts afresh with the rest of the source. -/
theorem tracks_source (source : String) (count : Nat) :
    Tracks source count ((ofString source).taken count) ((ofString source).past count) := by
  obtain ⟨start, chars, place⟩ := ofString_sound source
  obtain ⟨sound, input, -⟩ := start.past count
  have tokens : (ofString source).taken count = (List.range count).map (tokenAt source) := by
    rw [start.taken, place]
    exact List.map_congr_left fun index _ => Lexer.next_past source index
  have exhausted := start.rest_of_eof count
  rw [← input] at chars
  generalize (ofString source).past count = scanner at sound chars exhausted ⊢
  have size : scanner.input.size = source.length := by rw [← Array.length_toList, chars, String.length_toList]
  have rest : scanner.place.rest = source.toList.drop scanner.position := congrArg (List.drop scanner.position) chars
  have bound := sound.position_le
  have nil_iff : scanner.place.rest = [] ↔ scanner.position = source.length := by
    rw [rest, List.drop_eq_nil_iff, String.length_toList]
    omega
  exact {
    tokens_eq := tokens
    position_le := size ▸ bound
    readPosition_eq := sound.readPosition_eq
    current_eq := by
      rw [sound.current_eq, Lexer.current, rest, List.headD_eq_head?_getD, List.head?_drop, List.getD_eq_getElem?_getD]
    onward := fun further => by
      have onward := sound.position_le_past further
      have later := (sound.past further).sound.readPosition_eq
      have here := sound.readPosition_eq
      omega
    still := fun eof => sound.still (exhausted eof)
    atEof_iff := sound.atEof_iff.trans nil_iff
    atEof_of_eof := fun eof => sound.atEof_iff.mpr (exhausted eof)
    ended := fun atEof => sound.eof_of_nil (sound.atEof_iff.mp atEof)
    resumes := fun further => by rw [← rest]; exact sound.taken_eq_rest further }

/-- A NUL in the source is a token like others, and the scanner goes on behind it. -/
example : (ofString "a \x00").taken 4 = [⟨.ident, "a", ⟨0, 1⟩⟩, ⟨.illegal, "\x00", ⟨2, 3⟩⟩, ⟨.eof, "", ⟨3, 3⟩⟩,
    ⟨.eof, "", ⟨3, 3⟩⟩] := by
  decide +kernel

end Scanner

end LetFn
