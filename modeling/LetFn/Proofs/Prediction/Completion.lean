import LetFn.Proofs.Lexing.Stream
import LetFn.Proofs.Prediction.Goals

namespace LetFn

/-- The shortest way to do what is outstanding. What may be left out is left out. -/
def completion : List Goal → List TokenKind
  | [] => []
  | .operand :: goals | .statement :: goals => .ident :: completion goals
  | .sign kind :: goals => kind :: completion goals
  | .items _ :: goals | .moreItems _ :: goals => .rparen :: completion goals
  | .body :: goals => .rbrace :: completion goals
  | .rest :: goals | .semicolon :: goals | .alternative :: goals | .program :: goals => completion goals

/-- The tokens of a completion. The name of the kind of identifiers is an identifier itself. -/
def completionTokens (goals : List Goal) : List Token :=
  (completion goals).map fun kind => kind.token kind.text

/-- The kinds that occur in completions. -/
def TokenKind.Completes (kind : TokenKind) : Prop :=
  kind ∈ [ident, assign, lparen, rparen, lbrace, rbrace]

instance (kind : TokenKind) : Decidable kind.Completes := inferInstanceAs (Decidable (_ ∈ _))

/-- What completions are made of is written as it is called. -/
theorem TokenKind.Completes.proper {kind : TokenKind} (completes : kind.Completes) :
    (kind.token kind.text).Proper := by
  revert completes
  cases kind with
  | ident => exact fun _ => ⟨'I', ['D', 'E', 'N', 'T'], ['D', 'E', 'N', 'T'], rfl, by decide, rfl⟩
  | assign => exact fun _ => ⟨'=', [], [], rfl, rfl, rfl⟩
  | lparen => exact fun _ => ⟨'(', [], [], rfl, rfl, rfl⟩
  | rparen => exact fun _ => ⟨')', [], [], rfl, rfl, rfl⟩
  | lbrace => exact fun _ => ⟨'\x7b', [], [], rfl, rfl, rfl⟩
  | rbrace => exact fun _ => ⟨'\x7d', [], [], rfl, rfl, rfl⟩
  | _ => exact fun completes => absurd completes (by decide)

/-- What is outstanding in the middle of a program: an expression that could be made longer is not followed by
what would do that, and the end of the program comes last. -/
def Ready : List Goal → Prop
  | [] => True
  | .rest :: goals => nextKind (completionTokens goals) ≠ .lparen ∧ Ready goals
  | .sign kind :: goals => kind.Completes ∧ Ready goals
  | .statement :: _ => False
  | .program :: goals => goals = []
  | _ :: goals => Ready goals

variable {goals others : List Goal} {token : Token}

theorem Ready.completes (ready : Ready goals) : ∀ kind ∈ completion goals, kind.Completes := by
  induction goals with
  | nil => nofun
  | cons goal goals ih =>
    cases goal with
    | operand => exact List.forall_mem_cons.mpr ⟨by decide, ih ready⟩
    | rest => exact ih ready.2
    | sign kind => exact List.forall_mem_cons.mpr ⟨ready.1, ih ready.2⟩
    | items item => exact List.forall_mem_cons.mpr ⟨by decide, ih ready⟩
    | moreItems item => exact List.forall_mem_cons.mpr ⟨by decide, ih ready⟩
    | semicolon => exact ih ready
    | alternative => exact ih ready
    | statement => exact ready.elim
    | body => exact List.forall_mem_cons.mpr ⟨by decide, ih ready⟩
    | program =>
      rw [show goals = [] from ready]
      nofun

theorem Ready.proper (ready : Ready goals) : ∀ token ∈ completionTokens goals, token.Proper := by
  intro token member
  obtain ⟨kind, there, rfl⟩ := List.mem_map.mp member
  exact (ready.completes kind there).proper

theorem Ready.next (ready : Ready goals) :
    nextKind (completionTokens goals) = .eof ∨ (nextKind (completionTokens goals)).Completes := by
  unfold completionTokens
  cases all : completion goals with
  | nil => exact .inl rfl
  | cons kind kinds => exact .inr (ready.completes kind (by rw [all]; exact List.mem_cons_self))

theorem Ready.next_ne (ready : Ready goals) {kind : TokenKind} (other : kind ≠ .eof ∧ ¬kind.Completes) :
    nextKind (completionTokens goals) ≠ kind := by
  rintro rfl
  exact ready.next.elim other.1 other.2

/-- Nothing is wrong with a completion. -/
theorem Ready.fault (ready : Ready goals) : fault goals (completionTokens goals) = none := by
  induction goals with
  | nil => rfl
  | cons goal goals ih =>
    cases goal with
    | operand =>
      have name : Predicts [.operand] [] (TokenKind.ident.token "IDENT" :: completionTokens goals)
          (completionTokens goals) := predicts_operand rfl
      exact (name goals).trans (ih ready)
    | rest =>
      have ends : ¬(nextKind (completionTokens goals)).Continues := by
        obtain ⟨other, ready⟩ := ready
        have next := ready.next
        generalize nextKind (completionTokens goals) = kind at next other
        revert next other
        cases kind <;> decide
      exact (predicts_rest_stop ends goals).trans (ih ready.2)
    | sign kind => exact (predicts_sign rfl goals).trans (ih ready.2)
    | items item => exact (predicts_items_nil rfl goals).trans (ih ready)
    | moreItems item => exact (predicts_moreItems_nil rfl goals).trans (ih ready)
    | semicolon =>
      exact (predicts_semicolon_none (Ready.next_ne ready (by decide)) goals).trans (ih ready)
    | alternative =>
      exact (predicts_alternative_none (Ready.next_ne ready (by decide)) goals).trans (ih ready)
    | statement => exact ready.elim
    | body => exact (predicts_body_close rfl goals).trans (ih ready)
    | program =>
      rw [show goals = [] from ready]
      rfl

theorem ready_operandGoals (opens : token.operandGoals = .ok others) (ready : Ready goals) :
    Ready (others ++ goals) := by
  unfold Token.operandGoals at opens
  cases found : Rules.standard.prefixRule token.kind with
  | none => rw [found] at opens; cases opens
  | some rule =>
    rw [found] at opens
    cases rule with
    | identifier => cases opens; exact ready
    | boolean => cases opens; exact ready
    | integer =>
      cases number : Text.integer64? token.literal with
      | none => simp only [number] at opens; cases opens
      | some value => simp only [number] at opens; cases opens; exact ready
    | operator => cases opens; exact ready
    | group => cases opens; exact ⟨nofun, by decide, ready⟩
    | conditional => cases opens; exact ⟨by decide, nofun, by decide, by decide, ready⟩
    | function => cases opens; exact ⟨by decide, by decide, ready⟩

theorem ready_signGoals {kind : TokenKind} (met : token.signGoals kind = .ok others) (ready : Ready goals) :
    Ready (others ++ goals) := by
  unfold Token.signGoals at met
  split at met
  · cases met
    exact ready
  · cases met

theorem map_append_ok {front result : List Goal} {one : Except Problem (List Goal)}
    (met : one.map (· ++ front) = .ok result) : ∃ found, one = .ok found ∧ result = found ++ front := by
  cases one with
  | error problem => cases met
  | ok found => cases met; exact ⟨found, rfl, rfl⟩

theorem ready_itemGoals {item : Item} (met : token.itemGoals item = .ok others) (ready : Ready goals) :
    Ready (others ++ .moreItems item :: goals) := by
  cases item with
  | argument =>
    obtain ⟨found, opens, rfl⟩ := map_append_ok met
    rw [List.append_assoc]
    exact ready_operandGoals opens ⟨nofun, ready⟩
  | parameter => exact ready_signGoals met ready

theorem ready_statementGoals (met : token.statementGoals = .ok others) (ready : Ready goals)
    (apart : nextKind (completionTokens goals) ≠ .lparen) : Ready (others ++ goals) := by
  unfold Token.statementGoals at met
  split at met
  · cases met
    exact ⟨by decide, by decide, apart, ready⟩
  · split at met
    · cases met
      exact ⟨apart, ready⟩
    · obtain ⟨found, opens, rfl⟩ := map_append_ok met
      rw [List.append_assoc]
      exact ready_operandGoals opens ⟨apart, ready⟩

/-- A token that fits leaves something that can be done. -/
theorem Ready.meet (ready : Ready goals) (more : token.kind ≠ .eof) (met : token.meet goals = .ok others) :
    Ready others := by
  induction goals with
  | nil => cases met; trivial
  | cons goal goals ih =>
    cases goal with
    | operand =>
      obtain ⟨found, opens, rfl⟩ := map_append_ok met
      exact ready_operandGoals opens ready
    | rest =>
      unfold Token.meet at met
      split at met
      · cases met; exact ready
      · split at met
        · cases met; exact ready
        · exact ih ready.2 met
    | sign kind =>
      obtain ⟨found, opens, rfl⟩ := map_append_ok met
      exact ready_signGoals opens ready.2
    | items item =>
      unfold Token.meet at met
      split at met
      · cases met; exact ready
      · obtain ⟨found, opens, rfl⟩ := map_append_ok met
        exact ready_itemGoals opens ready
    | moreItems item =>
      unfold Token.meet at met
      split at met
      · cases met
        cases item with
        | argument => exact ⟨nofun, ready⟩
        | parameter => exact ⟨by decide, ready⟩
      · obtain ⟨found, opens, rfl⟩ := map_append_ok met
        exact ready_signGoals opens ready
    | semicolon =>
      unfold Token.meet at met
      split at met
      · cases met; exact ready
      · exact ih ready met
    | alternative =>
      unfold Token.meet at met
      split at met
      · cases met; exact ⟨by decide, ready⟩
      · exact ih ready met
    | statement => exact ready.elim
    | body =>
      unfold Token.meet at met
      rw [if_neg more] at met
      split at met
      · cases met; exact ready
      · obtain ⟨found, opens, rfl⟩ := map_append_ok met
        exact ready_statementGoals opens ready nofun
    | program =>
      rw [show goals = [] from ready] at met
      unfold Token.meet at met
      rw [if_neg more] at met
      obtain ⟨found, opens, rfl⟩ := map_append_ok met
      exact ready_statementGoals opens rfl nofun

end LetFn
