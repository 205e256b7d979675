import Mathlib.Data.List.Nodup
import LetFn.Command.Run
import LetFn.Proofs.Command.Lines
import LetFn.Proofs.Lexing.Laid
import LetFn.Proofs.Lexing.Literal

namespace LetFn

/-- Rows written one below the other are cut apart at the newlines again. -/
theorem cutAfter_joined {rows : List String} (plain : ∀ row ∈ rows, '\n' ∉ row.toList) :
    cutAfter '\n' (joined (rows.map (· ++ "\n"))).toList = rows.map fun row => row.toList ++ ['\n'] := by
  induction rows with
  | nil => rfl
  | cons row rows ih =>
    obtain ⟨first, others⟩ := List.forall_mem_cons.mp plain
    have newline : "\n".toList = ['\n'] := rfl
    rw [List.map_cons, joined_cons, String.toList_append, String.toList_append, newline, List.append_assoc,
      List.singleton_append, cutAfter_append_mark first, ih others, List.map_cons]

/-- What is written in rows without a newline shows which rows they are. -/
theorem eq_of_joined_eq {rows rows' : List String} (plain : ∀ row ∈ rows, '\n' ∉ row.toList)
    (plain' : ∀ row ∈ rows', '\n' ∉ row.toList)
    (same : joined (rows.map (· ++ "\n")) = joined (rows'.map (· ++ "\n"))) : rows = rows' := by
  have cut := cutAfter_joined plain
  rw [same, cutAfter_joined plain'] at cut
  have ended : Function.Injective fun row : String => row.toList ++ ['\n'] :=
    fun _ _ same => String.toList_inj.mp (List.append_cancel_right same)
  exact (List.map_injective_iff.mpr ended cut).symm

namespace TokenKind

/-- Every kind there is. -/
def all : List TokenKind :=
  [illegal, eof, ident, int, assign, plus, minus, bang, asterisk, slash, lt, gt, eq, notEq, comma, semicolon, lparen,
    rparen, lbrace, rbrace, fnWord, letWord, trueWord, falseWord, ifWord, elseWord, returnWord]

theorem mem_all (kind : TokenKind) : kind ∈ all := by
  cases kind <;> decide

/-- No two kinds have one name. -/
theorem text_injective : Function.Injective text := by
  have names : (all.map text).Nodup := by decide +kernel
  exact fun kind other same => List.inj_on_of_nodup_map names (mem_all kind) (mem_all other) same

theorem text_plain (kind : TokenKind) : ∀ c ∈ kind.text.toList, isBlank c = false := by
  have plain : kind.text.toList.any isBlank = false := by cases kind <;> decide
  exact fun c member => Bool.eq_false_iff.mpr (List.any_eq_false.mp plain c member)

end TokenKind

namespace Token

variable {token token' : Token}

/-- What a listing shows of the characters of a token. -/
def listed (token : Token) : String :=
  if token.kind ∈ [.ident, .int, .illegal] then token.literal else ""

theorem summary_eq (token : Token) : token.summary = token.kind.text ++ " (" ++ token.listed ++ ")" := by
  obtain ⟨kind, literal, span⟩ := token
  cases kind <;> rfl

theorem summary_toList (token : Token) :
    token.summary.toList = token.kind.text.toList ++ ' ' :: '(' :: (token.listed.toList ++ [')']) := by
  simp [summary_eq]

/-- The name of the kind ends at the blank, so that both parts of a summary can be told apart. -/
theorem eq_of_summary_eq (same : token.summary = token'.summary) :
    token.kind = token'.kind ∧ token.listed = token'.listed := by
  have whole := congrArg String.toList same
  rw [summary_toList, summary_toList] at whole
  have front (token : Token) : ' ' ∉ token.kind.text.toList :=
    fun member => absurd (token.kind.text_plain ' ' member) (by decide)
  have cut := congrArg (cutAfter ' ') whole
  rw [cutAfter_append_mark (front token), cutAfter_append_mark (front token')] at cut
  have names := List.append_cancel_right (List.cons.inj cut).1
  rw [names] at whole
  have behind := (List.cons.inj (List.cons.inj (List.append_cancel_left whole)).2).2
  exact ⟨TokenKind.text_injective (String.toList_inj.mp names), String.toList_inj.mp (List.append_cancel_right behind)⟩

/-- A token that some source has, its end token included. -/
def Read (token : Token) : Prop :=
  ∃ source, token ∈ tokenize source

theorem Read.cases (read : token.Read) : (token.Proper ∧ ∀ c ∈ token.literal.toList, isBlank c = false) ∨
    token.kind = .eof ∧ token.literal = "" := by
  obtain ⟨source, member⟩ := read
  rcases mem_tokenize_iff.mp member with ahead | rfl
  · obtain ⟨_, _, _, _, formed⟩ := formed_of_mem ahead
    exact .inl ⟨(TokenStream.ofString_spec source).1 token ahead, formed.unblank⟩
  · exact .inr ⟨rfl, rfl⟩

/-- A summary stays on its line. -/
theorem Read.summary_plain (read : token.Read) : '\n' ∉ token.summary.toList := by
  have literal : '\n' ∉ token.listed.toList := by
    unfold listed
    split
    · rcases read.cases with ⟨-, plain⟩ | ⟨-, none⟩
      · exact fun member => absurd (plain '\n' member) (by decide)
      · rw [none]
        exact List.not_mem_nil
    · exact List.not_mem_nil
  have name : '\n' ∉ token.kind.text.toList := fun member => absurd (token.kind.text_plain '\n' member) (by decide)
  simp [summary_toList, name, literal]

end Token

theorem TokenKind.exists_literal? {kind : TokenKind} (closed : kind ∉ [ident, int, illegal]) (more : kind ≠ eof) :
    ∃ literal, kind.literal? = some literal := by
  cases kind <;> first | exact ⟨_, rfl⟩ | exact absurd rfl more | exact absurd (by decide) closed

/-- What a listing leaves out of a token follows from the kind. -/
theorem Token.Read.literal_eq {token token' : Token} (read : token.Read) (read' : token'.Read)
    (kinds : token.kind = token'.kind) (same : token.listed = token'.listed) : token.literal = token'.literal := by
  unfold listed at same
  rw [← kinds] at same
  split at same
  · exact same
  · rename_i closed
    rcases read.cases with ⟨proper, -⟩ | ⟨eof, none⟩
    · obtain ⟨literal, fixed⟩ := TokenKind.exists_literal? closed proper.kind_ne_eof
      rcases read'.cases with ⟨proper', -⟩ | ⟨eof', -⟩
      · rw [proper.literal_eq fixed, proper'.literal_eq (kinds ▸ fixed)]
      · exact absurd (kinds.trans eof') proper.kind_ne_eof
    · rcases read'.cases with ⟨proper', -⟩ | ⟨-, none'⟩
      · exact absurd (kinds.symm.trans eof) proper'.kind_ne_eof
      · rw [none, none']

/-- A row of summaries shows all of its tokens but their places. -/
theorem contents_of_summaries {tokens tokens' : List Token} (read : ∀ token ∈ tokens, token.Read)
    (read' : ∀ token ∈ tokens', token.Read) (same : tokens.map Token.summary = tokens'.map Token.summary) :
    (tokens.map fun token => (token.kind, token.literal)) = tokens'.map fun token => (token.kind, token.literal) := by
  induction tokens generalizing tokens' with
  | nil =>
    cases tokens' with
    | nil => rfl
    | cons token' others' => cases same
  | cons token others ih =>
    cases tokens' with
    | nil => cases same
    | cons token' others' =>
      obtain ⟨first, rest⟩ := List.forall_mem_cons.mp read
      obtain ⟨first', rest'⟩ := List.forall_mem_cons.mp read'
      obtain ⟨summary, summaries⟩ := List.cons.inj same
      obtain ⟨kinds, shown⟩ := Token.eq_of_summary_eq summary
      rw [List.map_cons, List.map_cons, ih rest rest' summaries, kinds, first.literal_eq first' kinds shown]

namespace Command

/-- There is a file at `path`, and its text is `source`. -/
def Holds (tree : FileTree) (path source : String) : Prop :=
  tree.read path >>= decodeUtf8 = .ok source

theorem run_tokens_of_holds {tree : FileTree} {input : List UInt8} {path source : String}
    (holds : Holds (tree.withInput input) path source) (timings : Timings) :
    run tree input timings (.tokens path) = listing source := by
  rw [run, overFile]
  unfold Holds at holds
  rw [holds]

theorem contents_of_listing {source source' : String} (same : (listing source).output = (listing source').output) :
    ((tokenize source).map fun token => (token.kind, token.literal)) =
      (tokenize source').map fun token => (token.kind, token.literal) := by
  have read (source : String) : ∀ token ∈ tokenize source, token.Read := fun token member => ⟨source, member⟩
  have rows (source : String) : (listing source).output =
      joined (((tokenize source).map Token.summary).map (· ++ "\n")) := by
    rw [List.map_map]
    rfl
  have plain (source : String) : ∀ row ∈ (tokenize source).map Token.summary, '\n' ∉ row.toList := by
    intro row member
    obtain ⟨token, inside, rfl⟩ := List.mem_map.mp member
    exact (read source token inside).summary_plain
  rw [rows, rows] at same
  exact contents_of_summaries (read source) (read source') (eq_of_joined_eq (plain source) (plain source') same)

/-- Two files whose tokens are listed alike have the same tokens, up to their places, though most literals are not in
the listing. -/
theorem run_tokens_lossless {tree tree' : FileTree} {input input' : List UInt8} {path path' source source' : String}
    (holds : Holds (tree.withInput input) path source) (holds' : Holds (tree'.withInput input') path' source')
    (timings timings' : Timings)
    (same : (run tree input timings (.tokens path)).output = (run tree' input' timings' (.tokens path')).output) :
    ((tokenize source).map fun token => (token.kind, token.literal)) =
      (tokenize source').map fun token => (token.kind, token.literal) := by
  rw [run_tokens_of_holds holds, run_tokens_of_holds holds'] at same
  exact contents_of_listing same

/-- A folder with one file in it. -/
def holding (chars : List Char) : FileTree :=
  FileTree.empty.put ["tmp", "letfn", "a"] (utf8Bytes chars)

theorem names_a : FileTree.names "a" = ["a"] := by
  rw [FileTree.names, String.splitOn, if_neg (by decide), String.splitOnAux, if_neg (by decide), if_neg (by decide),
    String.splitOnAux, if_pos (by decide)]
  decide

theorem holds_holding (chars : List Char) : Holds ((holding chars).withInput []) "a" (String.ofList chars) := by
  have read : ((holding chars).withInput []).read "a" = .ok (utf8Bytes chars) := by
    rw [FileTree.read, names_a]
    rfl
  rw [Holds, read, ← decodeUtf8_utf8Bytes]
  rfl

/-- The same tokens stand close together in one file and apart in the other. The last of them but the end is illegal,
and its character does not end the row. -/
theorem run_tokens_lossless_spacings :
    Holds ((holding ['x', '=', '§']).withInput []) "a" "x=§" ∧
      Holds ((holding ['x', ' ', '=', '§', '\n']).withInput []) "a" "x =§\n" ∧
      (run (holding ['x', '=', '§']) [] default (.tokens "a")).output = "IDENT (x)\n= ()\nILLEGAL (§)\nEOF ()\n" ∧
      (run (holding ['x', '=', '§']) [] default (.tokens "a")).output =
        (run (holding ['x', ' ', '=', '§', '\n']) [] default (.tokens "a")).output ∧
      ((tokenize "x=§").map fun token => (token.kind, token.literal)) =
        (tokenize "x =§\n").map fun token => (token.kind, token.literal) := by
  have close : Holds ((holding ['x', '=', '§']).withInput []) "a" "x=§" := holds_holding _
  have apart : Holds ((holding ['x', ' ', '=', '§', '\n']).withInput []) "a" "x =§\n" := holds_holding _
  have shown : (run (holding ['x', '=', '§']) [] default (.tokens "a")).output =
      "IDENT (x)\n= ()\nILLEGAL (§)\nEOF ()\n" := by
    rw [run_tokens_of_holds close]
    decide +kernel
  have same : (run (holding ['x', '=', '§']) [] default (.tokens "a")).output =
      (run (holding ['x', ' ', '=', '§', '\n']) [] default (.tokens "a")).output := by
    rw [shown, run_tokens_of_holds apart]
    decide +kernel
  exact ⟨close, apart, shown, same, run_tokens_lossless close apart default default same⟩

end Command

end LetFn
