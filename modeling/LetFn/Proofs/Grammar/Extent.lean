import LetFn.Proofs.Grammar.Standard

namespace LetFn

/-- How a token changes the number of braces that stand open. -/
def TokenKind.brace : TokenKind → Int
  | lbrace => 1
  | rbrace => -1
  | _ => 0

/-- The braces that `tokens` open, less those that they close. -/
def braceDepth : List Token → Int
  | [] => 0
  | token :: rest => token.kind.brace + braceDepth rest

/-- The last of `tokens` before `rest` is a token that `holds`. -/
def LastIs (holds : Token → Prop) (tokens rest : List Token) : Prop :=
  ∃ last, last :: rest <:+ tokens ∧ holds last

section

variable {holds other : Token → Prop} {token : Token} {tokens between rest : List Token}

theorem LastIs.suffix (last : LastIs holds tokens rest) : rest <:+ tokens := by
  obtain ⟨token, behind, -⟩ := last
  exact (List.suffix_cons token rest).trans behind

theorem LastIs.of_suffix (suffix : between <:+ tokens) (last : LastIs holds between rest) :
    LastIs holds tokens rest := by
  obtain ⟨token, behind, holds⟩ := last
  exact ⟨token, behind.trans suffix, holds⟩

theorem LastIs.cons (last : LastIs holds tokens rest) : LastIs holds (token :: tokens) rest :=
  .of_suffix (List.suffix_cons token tokens) last

theorem LastIs.both (one : LastIs holds tokens rest) (two : LastIs other tokens rest) :
    LastIs (fun last => holds last ∧ other last) tokens rest := by
  obtain ⟨token, behind, holds⟩ := one
  obtain ⟨token', behind', others⟩ := two
  have within := List.suffix_of_suffix_length_le behind behind' (Nat.le_of_eq rfl)
  cases within.eq_of_length rfl
  exact ⟨token, behind, holds, others⟩

end

/-- What stands before the rest of a phrase. An expression never ends with a semicolon, unless that is one in a
block which is left open. -/
def Phrase.Ends : Phrase → List Token → List Token → Prop
  | .statements values, tokens, rest => values = [] ∧ tokens = rest ∨ LastIs (fun _ => True) tokens rest
  | .statement _, tokens, rest => LastIs (fun _ => True) tokens rest
  | _, tokens, rest => LastIs (fun last => rest ≠ [] → last.kind ≠ .semicolon) tokens rest

theorem Ended.last {holds : Token → Prop} {tokens between rest : List Token} (ended : Ended between rest)
    (value : LastIs holds tokens between) : LastIs (fun _ => True) tokens rest := by
  cases ended with
  | semicolon _ => exact ⟨_, value.suffix, trivial⟩
  | bare _ =>
    obtain ⟨last, behind, -⟩ := value
    exact ⟨last, behind, trivial⟩

theorem Reads.ends {phrase : Phrase} {tokens rest : List Token} (read : Reads phrase tokens rest) :
    phrase.Ends tokens rest := by
  induction read with
  | @identifier token _ kind | @integer token _ _ kind =>
    exact ⟨token, List.suffix_refl _, fun _ => by rw [kind]; decide⟩
  | @boolean token _ word =>
    exact ⟨token, List.suffix_refl _, fun _ => by rcases word with kind | kind <;> rw [kind] <;> decide⟩
  | @group _ _ _ _ right _ _ _ closing inner =>
    exact ⟨right, inner.suffix.trans (List.suffix_cons _ _), fun _ => by rw [closing]; decide⟩
  | conditional _ _ _ _ _ condition block =>
    have behind := (List.suffix_cons _ _).trans condition.suffix
    exact (LastIs.of_suffix behind block).cons.cons
  | alternative _ _ _ _ _ _ _ condition block block' =>
    have behind := (List.suffix_cons _ _).trans condition.suffix
    have behind' := (List.suffix_cons _ _).trans (LastIs.suffix block)
    exact (LastIs.of_suffix behind (.of_suffix behind' block')).cons.cons
  | function _ _ _ _ names block => exact (LastIs.of_suffix (LastIs.suffix names) block).cons.cons
  | call _ _ _ callee arguments =>
    exact .of_suffix ((List.suffix_cons _ _).trans (LastIs.suffix callee)) arguments
  | unary _ _ _ right => exact LastIs.cons right
  | binary _ _ _ _ _ left right => exact .of_suffix ((List.suffix_cons _ _).trans (LastIs.suffix left)) right
  | @noArguments right _ closing | @lastArgument right _ closing | @noParameters right _ closing
  | @lastParameter right _ closing => exact ⟨right, List.suffix_refl _, fun _ => by rw [closing]; decide⟩
  | someArguments _ _ first others => exact .of_suffix (LastIs.suffix first) others
  | nextArgument _ _ _ first others => exact (LastIs.of_suffix (LastIs.suffix first) others).cons
  | someParameters _ _ others => exact LastIs.cons others
  | nextParameter _ _ _ others => exact (LastIs.cons others).cons
  | @closedBlock left _ tokens right rest _ _ closing body =>
    have behind : right :: rest <:+ tokens := by
      rcases body with ⟨-, rfl⟩ | last
      · exact List.suffix_refl _
      · exact last.suffix
    exact ⟨right, behind.trans (List.suffix_cons left _), fun _ => by rw [closing]; decide⟩
  | @openBlock left _ _ _ _ body =>
    rcases body with ⟨-, rfl⟩ | ⟨last, behind, -⟩
    · exact ⟨left, List.suffix_refl _, absurd rfl⟩
    · exact LastIs.cons ⟨last, behind, absurd rfl⟩
  | binding _ _ _ _ ended value =>
    exact (ended.last value).cons.cons.cons
  | result _ _ ended value => exact (ended.last value).cons
  | expression _ ended value => exact ended.last value
  | noStatements => exact .inl ⟨rfl, rfl⟩
  | someStatements _ _ first others =>
    rcases others with ⟨-, rfl⟩ | last
    · exact .inr first
    · exact .inr (.of_suffix (LastIs.suffix first) last)

theorem Reads.suffix {phrase : Phrase} {tokens rest : List Token} (read : Reads phrase tokens rest) :
    rest <:+ tokens := by
  have ends := read.ends
  cases phrase with
  | statements values =>
    rcases ends with ⟨-, rfl⟩ | last
    · exact List.suffix_refl _
    · exact last.suffix
  | _ => exact LastIs.suffix ends

theorem Ended.depth {between rest : List Token} (ended : Ended between rest) :
    braceDepth between = braceDepth rest := by
  cases ended with
  | semicolon sign => simp only [braceDepth, sign, TokenKind.brace, Int.zero_add]
  | bare _ => rfl

theorem TokenKind.level_brace {kind : TokenKind} {level : Power} (sign : kind.level? = some level) :
    kind.brace = 0 := by
  cases kind <;> first | rfl | cases sign

/-- No phrase closes a brace that it has not opened. -/
theorem Reads.depth {phrase : Phrase} {tokens rest : List Token} (read : Reads phrase tokens rest) :
    braceDepth rest ≤ braceDepth tokens := by
  induction read with
  | identifier kind | integer kind | noArguments kind | lastArgument kind | noParameters kind
  | lastParameter kind =>
    simp only [braceDepth, kind, TokenKind.brace]
    omega
  | boolean word =>
    rcases word with kind | kind
    all_goals
      simp only [braceDepth, kind, TokenKind.brace]
      omega
  | group left _ right inner =>
    simp only [braceDepth, left, right, TokenKind.brace] at inner ⊢
    omega
  | conditional word left _ right _ condition block =>
    simp only [braceDepth, word, left, right, TokenKind.brace] at condition ⊢
    omega
  | alternative word left _ right _ other _ condition block block' =>
    simp only [braceDepth, word, left, right, other, TokenKind.brace] at condition block ⊢
    omega
  | function word left _ _ names block =>
    simp only [braceDepth, word, left, TokenKind.brace]
    omega
  | call _ left _ callee arguments =>
    simp only [braceDepth, left, TokenKind.brace] at callee
    omega
  | unary sign _ _ right =>
    rcases sign with kind | kind
    all_goals
      simp only [braceDepth, kind, TokenKind.brace]
      omega
  | binary sign _ _ _ _ left right =>
    simp only [braceDepth, TokenKind.level_brace sign] at left
    omega
  | someArguments _ _ first others => exact Int.le_trans others first
  | nextArgument comma _ _ first others =>
    simp only [braceDepth, comma, TokenKind.brace]
    omega
  | someParameters kind _ others =>
    simp only [braceDepth, kind, TokenKind.brace]
    omega
  | nextParameter comma kind _ others =>
    simp only [braceDepth, comma, kind, TokenKind.brace]
    omega
  | closedBlock left _ right body =>
    simp only [braceDepth, left, right, TokenKind.brace] at body ⊢
    omega
  | openBlock left _ body =>
    simp only [braceDepth, left, TokenKind.brace] at body ⊢
    omega
  | binding word kind sign _ ended value =>
    rw [← ended.depth]
    simp only [braceDepth, word, kind, sign, TokenKind.brace]
    omega
  | result word _ ended value =>
    rw [← ended.depth]
    simp only [braceDepth, word, TokenKind.brace]
    omega
  | expression _ ended value => rwa [← ended.depth]
  | noStatements => exact Int.le_refl _
  | someStatements _ _ first others => exact Int.le_trans others first

/-- `rest` is set off from the tokens before it: by a semicolon, or because its first token is none that `joins`
them. -/
def Parted (joins : TokenKind → Prop) (tokens rest : List Token) : Prop :=
  LastIs (fun last => last.kind = .semicolon) tokens rest ∨ ¬joins (nextKind rest)

/-- Whether a token of this kind behind a statement may still belong to it, its expression being over. -/
def TokenKind.Trails (kind : TokenKind) : Prop :=
  kind = semicolon ∨ kind = elseWord

instance (kind : TokenKind) : Decidable kind.Trails := inferInstanceAs (Decidable (_ ∨ _))

section

variable {joins : TokenKind → Prop} {tokens between rest : List Token}

/-- What sets off the rest of the whole sets off that of its last part. -/
theorem Parted.last_part {holds : Token → Prop} (parted : Parted joins tokens rest) (suffix : between <:+ tokens)
    (last : LastIs holds between rest) : Parted joins between rest := by
  refine parted.imp_left fun sign => ?_
  obtain ⟨token, behind, -⟩ := last
  have whole : LastIs (· = token) tokens rest := ⟨token, behind.trans suffix, rfl⟩
  obtain ⟨_, -, rfl, kind⟩ := whole.both sign
  exact ⟨_, behind, kind⟩

/-- Behind an expression only the next token can set off the rest. -/
theorem Reads.next_of_parted {level : Power} {value : Expr} (read : Reads (.expression level value) tokens rest)
    (parted : Parted joins tokens rest) (eof : ¬joins .eof) : ¬joins (nextKind rest) := by
  rcases parted with sign | other
  · cases rest with
    | nil => exact eof
    | cons next rest =>
      obtain ⟨last, -, never, kind⟩ := LastIs.both read.ends sign
      exact absurd kind (never (List.cons_ne_nil _ _))
  · exact other

end

/-- A phrase whose end may depend on what follows it. -/
def Phrase.Open : Phrase → Prop
  | .statement _ | .statements (_ :: _) => True
  | _ => False

theorem Phrase.open_statements {values : List Stmt} : (statements values).Open ↔ values ≠ [] := by
  cases values <;> simp [Open]

theorem LastIs.append {holds : Token → Prop} {tokens rest : List Token} (last : LastIs holds tokens rest)
    (more : List Token) : LastIs holds (tokens ++ more) (rest ++ more) := by
  obtain ⟨token, behind, holds⟩ := last
  exact ⟨token, List.suffix_append_self_iff.mpr behind, holds⟩

variable {more : List Token}

theorem Ended.append {level : Power} {value : Expr} {tokens between rest : List Token} (ended : Ended between rest)
    (read : Reads (.expression level value) (tokens ++ more) (between ++ more))
    (parted : rest = [] → Parted TokenKind.Continues (tokens ++ more) more) :
    Ended (between ++ more) (rest ++ more) := by
  cases ended with
  | semicolon sign => exact .semicolon sign
  | bare stops =>
    refine .bare ?_
    cases between with
    | nil => exact read.next_of_parted (parted rfl) (by decide)
    | cons next between => exact stops

/-- A phrase that leaves no brace open is read in the same way with more tokens behind it, if these are set off from
it. -/
theorem Reads.append {phrase : Phrase} {tokens rest : List Token} (read : Reads phrase tokens rest)
    (closed : braceDepth tokens = braceDepth rest)
    (parted : phrase.Open → rest = [] → Parted TokenKind.Continues (tokens ++ more) more) :
    Reads phrase (tokens ++ more) (rest ++ more) := by
  induction read with
  | identifier kind => exact .identifier kind
  | integer kind digits small => exact .integer kind digits small
  | boolean word => exact .boolean word
  | group left read right inner =>
    have inside := read.depth
    simp only [braceDepth, left, right, TokenKind.brace] at inside closed inner
    exact .group left (inner (by omega) nofun) right
  | conditional word left read right block condition consequence =>
    have inside := read.depth
    have behind := block.depth
    simp only [braceDepth, word, left, right, TokenKind.brace] at inside closed condition
    exact .conditional word left (condition (by omega) nofun) right (consequence (by omega) nofun)
  | alternative word left read right block other block' condition consequence alternative =>
    have inside := read.depth
    have behind := block.depth
    have behind' := block'.depth
    simp only [braceDepth, word, left, right, other, TokenKind.brace] at inside behind closed condition consequence
    exact .alternative word left (condition (by omega) nofun) right (consequence (by omega) nofun) other
      (alternative (by omega) nofun)
  | function word left read block names body =>
    have inside := read.depth
    have behind := block.depth
    simp only [braceDepth, word, left, TokenKind.brace] at closed
    exact .function word left (names (by omega) nofun) (body (by omega) nofun)
  | call read left read' callee arguments =>
    have before := read.depth
    have inside := read'.depth
    simp only [braceDepth, left, TokenKind.brace] at before callee
    exact .call (callee (by omega) nofun) left (arguments (by omega) nofun)
  | unary sign tight _ right =>
    rcases sign with kind | kind
    all_goals
      simp only [braceDepth, kind, TokenKind.brace] at closed
      refine .unary ?_ tight (right (by omega) nofun)
      simp only [kind, reduceCtorEq, or_true, true_or]
  | binary sign least read above read' left right =>
    have before := read.depth
    have behind := read'.depth
    simp only [braceDepth, TokenKind.level_brace sign] at before left
    exact .binary sign least (left (by omega) nofun) above (right (by omega) nofun)
  | noArguments right => exact .noArguments right
  | someArguments read read' first others =>
    have before := read.depth
    have behind := read'.depth
    exact .someArguments (first (by omega) nofun) (others (by omega) nofun)
  | lastArgument right => exact .lastArgument right
  | nextArgument comma read read' first others =>
    have before := read.depth
    have behind := read'.depth
    simp only [braceDepth, comma, TokenKind.brace] at closed
    exact .nextArgument comma (first (by omega) nofun) (others (by omega) nofun)
  | noParameters right => exact .noParameters right
  | someParameters name _ others =>
    simp only [braceDepth, name, TokenKind.brace] at closed
    exact .someParameters name (others (by omega) nofun)
  | lastParameter right => exact .lastParameter right
  | nextParameter comma name _ others =>
    simp only [braceDepth, comma, name, TokenKind.brace] at closed
    exact .nextParameter comma name (others (by omega) nofun)
  | closedBlock left _ right body =>
    simp only [braceDepth, left, right, TokenKind.brace] at closed body
    exact .closedBlock left (body (by omega) nofun) right
  | openBlock left read _ =>
    -- The brace of a block that is left open has none to close it.
    have inside := read.depth
    simp only [braceDepth, left, TokenKind.brace] at inside closed
    omega
  | binding word name sign read ended value =>
    have level := ended.depth
    simp only [braceDepth, word, name, sign, TokenKind.brace] at closed
    have longer := value (by omega) nofun
    have last := (ended.last read.ends).append more
    refine .binding word name sign longer (ended.append longer ?_)
    rintro rfl
    exact (parted trivial rfl).last_part ⟨[_, _, _], rfl⟩ last
  | result word read ended value =>
    have level := ended.depth
    simp only [braceDepth, word, TokenKind.brace] at closed
    have longer := value (by omega) nofun
    have last := (ended.last read.ends).append more
    refine .result word longer (ended.append longer ?_)
    rintro rfl
    exact (parted trivial rfl).last_part ⟨[_], rfl⟩ last
  | expression read ended value =>
    have longer := value (by rw [closed, ended.depth]) nofun
    exact .expression longer (ended.append longer (parted trivial))
  | noStatements => exact .noStatements
  | someStatements read read' first others =>
    have before := read.depth
    have behind := read'.depth
    refine .someStatements (first (by omega) fun _ none => ?_) (others (by omega) fun some none => ?_)
    -- Only where nothing is left behind the first statement does it stand before `more` itself.
    · subst none
      exact parted trivial (List.suffix_nil.mp read'.suffix)
    · subst none
      rcases read'.ends with ⟨rfl, -⟩ | last
      · exact absurd some id
      · exact (parted trivial rfl).last_part (List.suffix_append_self_iff.mpr read.suffix) (last.append more)

end LetFn
