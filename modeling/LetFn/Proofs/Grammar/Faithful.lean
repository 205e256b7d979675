import LetFn.Parse
import LetFn.Proofs.Grammar.Extent
import LetFn.Proofs.Grammar.Sound
import LetFn.Proofs.Lexing.Literal
import LetFn.Proofs.Tree.Faithful

namespace LetFn

/-- What stands in a phrase is kept by its nodes. -/
def Phrase.Faithful : Phrase → Prop
  | .expression _ value => value.Faithful
  | .arguments values | .moreArguments values => faithfulExprs values
  | .parameters names | .moreParameters names => ∀ id ∈ names, id.Printable
  | .block value => value.Faithful
  | .statement value => value.Faithful
  | .statements values => faithfulStmts values

/-- Every token of a row is a proper one. -/
def ProperRow (tokens : List Token) : Prop :=
  ∀ token ∈ tokens, token.Proper

theorem ProperRow.behind {tokens rest : List Token} (proper : ProperRow tokens) (suffix : rest <:+ tokens) :
    ProperRow rest :=
  fun token member => proper token (suffix.subset member)

theorem ProperRow.head {token : Token} {tokens : List Token} (proper : ProperRow (token :: tokens)) :
    token.Proper :=
  proper token List.mem_cons_self

theorem ProperRow.tail {token : Token} {tokens : List Token} (proper : ProperRow (token :: tokens)) :
    ProperRow tokens :=
  proper.behind (List.suffix_cons token tokens)

theorem Token.Proper.printable {token : Token} (proper : token.Proper) (ident : token.kind = .ident) :
    (Identifier.ofToken token).Printable :=
  proper.name ident

theorem Token.Proper.operator {token : Token} {level : Power} (proper : token.Proper)
    (sign : token.kind.level? = some level) :
    token.literal ∈ ["==", "!=", "<", ">", "+", "-", "*", "/"] := by
  have written : ∃ literal ∈ ["==", "!=", "<", ">", "+", "-", "*", "/"], token.kind.literal? = some literal := by
    generalize token.kind = kind at sign
    cases kind <;> first | exact ⟨_, by decide, rfl⟩ | cases sign
  obtain ⟨literal, member, fixed⟩ := written
  rwa [proper.literal_eq fixed]

/-- The grammar gives its trees what is written in the tokens. -/
theorem Reads.faithful {phrase : Phrase} {tokens rest : List Token} (read : Reads phrase tokens rest)
    (proper : ProperRow tokens) : phrase.Faithful := by
  induction read with
  | identifier ident => exact proper.head.printable ident
  | integer _ digits small => exact ⟨_, digits, small, rfl⟩
  | boolean word =>
    simp only [Phrase.Faithful, Expr.Faithful]
    rcases word with kind | kind
    · rw [proper.head.literal_eq (by rw [kind]; rfl), kind]
      rfl
    · rw [proper.head.literal_eq (by rw [kind]; rfl), kind]
      rfl
  | group _ _ _ inner => exact inner proper.tail
  | conditional _ _ read _ _ condition block =>
    have inside := proper.tail.tail
    exact ⟨condition inside, block (inside.behind read.suffix).tail, trivial⟩
  | alternative _ _ read _ read' _ _ condition block block' =>
    have inside := proper.tail.tail
    have behind := (inside.behind read.suffix).tail
    exact ⟨condition inside, block behind, block' (behind.behind read'.suffix).tail⟩
  | function word _ read _ names block =>
    have inside := proper.tail.tail
    exact ⟨proper.head.literal_eq (by rw [word]; rfl), names inside, block (inside.behind read.suffix)⟩
  | call read _ _ callee arguments => exact ⟨callee proper, arguments (proper.behind read.suffix).tail⟩
  | unary sign _ _ right =>
    refine ⟨?_, right proper.tail⟩
    rcases sign with kind | kind
    · rw [proper.head.literal_eq (by rw [kind]; rfl)]
      decide
    · rw [proper.head.literal_eq (by rw [kind]; rfl)]
      decide
  | binary sign _ read _ _ left right =>
    have behind := proper.behind read.suffix
    exact ⟨behind.head.operator sign, left proper, right behind.tail⟩
  | noArguments | lastArgument => exact trivial
  | someArguments read _ first others => exact ⟨first proper, others (proper.behind read.suffix)⟩
  | nextArgument _ read _ first others =>
    exact ⟨first proper.tail, others (proper.tail.behind read.suffix)⟩
  | noParameters | lastParameter => exact fun _ member => absurd member List.not_mem_nil
  | someParameters ident _ others =>
    exact List.forall_mem_cons.mpr ⟨proper.head.printable ident, others proper.tail⟩
  | nextParameter _ ident _ others =>
    exact List.forall_mem_cons.mpr ⟨proper.tail.head.printable ident, others proper.tail.tail⟩
  | closedBlock _ _ _ body | openBlock _ _ body => exact body proper.tail
  | binding word ident _ _ _ value =>
    exact ⟨proper.head.literal_eq (by rw [word]; rfl), proper.tail.head.printable ident, value proper.tail.tail.tail⟩
  | result word _ _ value => exact ⟨proper.head.literal_eq (by rw [word]; rfl), value proper.tail⟩
  | expression _ _ value => exact value proper
  | noStatements => exact trivial
  | someStatements read _ first others => exact ⟨first proper, others (proper.behind read.suffix)⟩

/-- What is read without a complaint is written in the tokens of the source. -/
theorem parse_reads {source : String} (clean : (parse source).2 = []) :
    Reads (.statements (parse source).1.statements) (TokenStream.ofString source).ahead [] := by
  obtain ⟨program, later, run⟩ := (ParseState.ofString source).program_ok
  rw [parse_eq_of_run run] at clean ⊢
  exact Action.reads_of_program (TokenStream.ofString_spec source).1 run clean

theorem parse_faithful {source : String} (clean : (parse source).2 = []) : (parse source).1.Faithful :=
  (parse_reads clean).faithful (TokenStream.ofString_spec source).1

end LetFn
