import LetFn.Parser.Comes
import LetFn.Parser.Descent
import LetFn.Proofs.Grammar.Levels
import LetFn.Proofs.Lexing.Stream

namespace LetFn

theorem TokenStream.advance_proper {stream : TokenStream} (proper : stream.Proper) : stream.advance.Proper :=
  fun token member => proper token (List.mem_of_mem_tail member)

namespace ParseState

/-- The tokens behind the current one, the first of which is the one to peek at. -/
def unread (state : ParseState) : List Token :=
  state.stream.ahead.tail

theorem current_kind (state : ParseState) : state.current.kind = nextKind state.stream.ahead := by
  unfold current TokenStream.current
  cases state.stream.ahead <;> rfl

theorem peek_kind (state : ParseState) : state.peek.kind = nextKind state.unread :=
  state.advance.current_kind

/-- Where the current token is not the end it is the first of those ahead. -/
theorem ahead_eq_cons (state : ParseState) (more : state.current.kind ≠ .eof) :
    state.stream.ahead = state.current :: state.unread := by
  rw [current_kind] at more
  unfold unread current TokenStream.current
  cases ahead : state.stream.ahead with
  | nil => rw [ahead] at more; exact absurd rfl more
  | cons token rest => rfl

theorem unread_eq_cons (state : ParseState) (more : state.peek.kind ≠ .eof) :
    state.unread = state.peek :: state.advance.unread :=
  state.advance.ahead_eq_cons more

theorem ahead_of_kind {state : ParseState} {kind : TokenKind} (there : state.current.kind = kind)
    (more : kind ≠ .eof) : state.stream.ahead = state.current :: state.unread :=
  state.ahead_eq_cons (by rwa [there])

theorem unread_of_kind {state : ParseState} {kind : TokenKind} (there : state.peek.kind = kind)
    (more : kind ≠ .eof) : state.unread = state.peek :: state.advance.unread :=
  state.advance.ahead_of_kind there more

theorem current_proper {state : ParseState} (proper : state.stream.Proper)
    (more : state.current.kind ≠ .eof) : state.current.Proper :=
  proper _ (by rw [state.ahead_eq_cons more]; exact List.mem_cons_self)

/-- In a proper stream the end is current where nothing is ahead, and nowhere else. -/
theorem ahead_eq_nil {state : ParseState} (proper : state.stream.Proper) (ended : state.current.kind = .eof) :
    state.stream.ahead = [] := by
  rw [current_kind] at ended
  cases ahead : state.stream.ahead with
  | nil => rfl
  | cons token rest =>
    rw [ahead] at ended
    exact absurd ended (proper token (by rw [ahead]; exact List.mem_cons_self)).kind_ne_eof

/-- `later` is a state that a run from `state` can have come to, with `new` for its diagnostics. -/
structure Leads (state later : ParseState) (new : List Diagnostic) : Prop where
  proper : later.stream.Proper
  finish : later.stream.finish = state.stream.finish
  errors : later.errors = state.errors ++ new

theorem Leads.refl {state : ParseState} (proper : state.stream.Proper) : Leads state state [] :=
  ⟨proper, rfl, (List.append_nil _).symm⟩

theorem Leads.trans {first second third : ParseState} {front back : List Diagnostic}
    (one : Leads first second front) (two : Leads second third back) : Leads first third (front ++ back) :=
  ⟨two.proper, two.finish.trans one.finish, by rw [two.errors, one.errors, List.append_assoc]⟩

theorem leads_advance {state : ParseState} (proper : state.stream.Proper) : Leads state state.advance [] :=
  ⟨TokenStream.advance_proper proper, rfl, (List.append_nil _).symm⟩

theorem leads_countRound {state : ParseState} (proper : state.stream.Proper) :
    Leads state state.countRound [] :=
  ⟨proper, rfl, (List.append_nil _).symm⟩

theorem leads_record (diagnostic : Diagnostic) {state : ParseState} (proper : state.stream.Proper) :
    Leads state (state.record diagnostic) [diagnostic] :=
  ⟨proper, rfl, rfl⟩

end ParseState

namespace Action

variable {α β : Type}

/-- What a run of `action` from `state` comes to, in two parts: `good` holds of its value and of the tokens it
leaves unread where it complains of nothing, and `bad` holds of its first complaint where there is one. -/
def Runs (good : α → List Token → Prop) (bad : Diagnostic → Prop) (action : Action α) (state : ParseState) : Prop :=
  state.stream.Proper → action.ComesTo True
    (fun value later => ∃ new, state.Leads later new ∧ (new = [] → good value later.unread) ∧
      ∀ first ∈ new.head?, bad first)
    (fun diagnostic later => ∃ new, state.Leads later new ∧ bad (new.headD diagnostic)) state

variable {good : α → List Token → Prop} {bad : Diagnostic → Prop} {state : ParseState}

theorem Runs.mono {good' : α → List Token → Prop} {bad' : Diagnostic → Prop} {action : Action α}
    (runs : action.Runs good bad state) (better : ∀ value rest, good value rest → good' value rest)
    (worse : ∀ diagnostic, bad diagnostic → bad' diagnostic) : action.Runs good' bad' state := by
  refine fun proper => (runs proper).mono ?_ ?_
  · rintro value later ⟨new, leads, fine, first⟩
    exact ⟨new, leads, fun clean => better _ _ (fine clean), fun d member => worse _ (first d member)⟩
  · rintro diagnostic later ⟨new, leads, first⟩
    exact ⟨new, leads, worse _ first⟩

theorem Runs.of_proper {action : Action α} (runs : state.stream.Proper → action.Runs good bad state) :
    action.Runs good bad state :=
  fun proper => runs proper proper

/-- A run that is first of all one of `second` from `between`. -/
theorem Runs.of_eq {first second : Action α} {between : ParseState}
    (leads : state.stream.Proper → state.Leads between []) (same : first state = second between)
    (runs : second.Runs good bad between) : first.Runs good bad state := by
  intro proper
  have start := leads proper
  refine .of_eq same ((runs start.proper).mono ?_ ?_)
  · rintro value later ⟨new, further, fine, worst⟩
    exact ⟨new, start.trans further, fine, worst⟩
  · rintro diagnostic later ⟨new, further, worst⟩
    exact ⟨new, start.trans further, worst⟩

/-- What comes second is looked at only where the first part was clean, but runs in any case. -/
theorem Runs.bind {middle : α → List Token → Prop} {good : β → List Token → Prop} {first : Action α}
    {next : α → Action β} (runs : first.Runs middle bad state)
    (continues : ∀ value later, later.stream.finish = state.stream.finish →
      (next value).Runs (fun result rest => middle value later.unread → good result rest)
        (fun diagnostic => middle value later.unread → bad diagnostic) later) :
    (first >>= next).Runs good bad state := by
  refine fun proper => (runs proper).bind ?_
  rintro value later ⟨new, leads, fine, worst⟩
  -- What is known of the second part counts only where `new` is empty; otherwise the first complaint is in `new`.
  refine (continues value later leads.finish leads.proper).mono ?_ ?_
  · rintro outcome last ⟨newer, further, finer, worse⟩
    refine ⟨new ++ newer, leads.trans further, fun clean => ?_, fun d member => ?_⟩
    · obtain ⟨none, none'⟩ := List.append_eq_nil_iff.mp clean
      exact finer none' (fine none)
    · cases new with
      | nil => exact worse d member (fine rfl)
      | cons e others => exact worst d member
  · rintro diagnostic last ⟨newer, further, worse⟩
    refine ⟨new ++ newer, leads.trans further, ?_⟩
    cases new with
    | nil => exact worse (fine rfl)
    | cons e others => exact worst e rfl

theorem runs_pure {value : α} (fine : good value state.unread) : (pure value : Action α).Runs good bad state :=
  fun proper => ⟨[], .refl proper, fun _ => fine, nofun⟩

theorem runs_outOfFuel : (throw .outOfFuel : Action α).Runs good bad state :=
  fun _ => trivial

theorem runs_failHere {problem : Problem} (worst : bad (state.problemHere problem)) :
    (failHere problem : Action α).Runs good bad state :=
  fun proper => ⟨[], .refl proper, worst⟩

theorem runs_current {next : Token → Action α} (continues : (next state.current).Runs good bad state) :
    (current >>= next).Runs good bad state :=
  continues

theorem runs_peek {next : Token → Action α} (continues : (next state.peek).Runs good bad state) :
    (peek >>= next).Runs good bad state :=
  continues

theorem runs_advance {next : Unit → Action α} (continues : (next ()).Runs good bad state.advance) :
    (advance >>= next).Runs good bad state :=
  .of_eq ParseState.leads_advance (bind_advance next state) continues

theorem runs_countRound {next : Unit → Action α} (continues : (next ()).Runs good bad state.countRound) :
    (countRound >>= next).Runs good bad state :=
  .of_eq ParseState.leads_countRound (bind_countRound next state) continues

theorem runs_expectPeek {expected : TokenKind} {next : Unit → Action α}
    (missing : state.peek.kind ≠ expected → bad (state.unexpectedPeek expected))
    (continues : state.peek.kind = expected → (next ()).Runs good bad state.advance) :
    (expectPeek expected >>= next).Runs good bad state :=
  fun proper => comes_expectPeek (fun other => ⟨[], .refl proper, missing other⟩)
    fun there => runs_advance (continues there) proper

theorem runs_parameter (state : ParseState) : parameter.Runs
    (fun name rest => ∃ token, token.kind = .ident ∧ name = .ofToken token ∧ state.unread = token :: rest)
    (fun diagnostic => diagnostic = state.unexpectedPeek .ident ∧ state.peek.kind ≠ .ident) state :=
  runs_expectPeek (fun missing => ⟨rfl, missing⟩) fun there =>
    runs_current (runs_pure ⟨state.peek, there, rfl, state.unread_of_kind there (by decide)⟩)

theorem runs_skipSemicolon (state : ParseState) : skipSemicolon.Runs
    (fun _ rest => (∃ token, token.kind = .semicolon ∧ state.unread = token :: rest) ∨
      nextKind state.unread ≠ .semicolon ∧ rest = state.unread) bad state := by
  intro proper
  by_cases there : state.peek.kind = .semicolon
  · have run : skipSemicolon state = .ok () state.advance := if_pos there
    have front := state.unread_of_kind there (by decide)
    refine .of_eq (run.trans rfl) (comes_pure ?_)
    exact ⟨[], ParseState.leads_advance proper, fun _ => .inl ⟨state.peek, there, front⟩, nofun⟩
  · have run : skipSemicolon state = .ok () state := if_neg there
    rw [ParseState.peek_kind] at there
    exact .of_eq run (comes_pure ⟨[], .refl proper, fun _ => .inr ⟨there, rfl⟩, nofun⟩)

theorem Runs.ite {condition : Prop} [Decidable condition] {yes no : Action α}
    (first : condition → yes.Runs good bad state) (second : ¬condition → no.Runs good bad state) :
    (if condition then yes else no).Runs good bad state :=
  fun proper => .ite (fun holds => first holds proper) fun holds => second holds proper

/-- A statement that gives up is recorded, and then the run is no longer clean. -/
theorem Runs.orRecord {action : Action α} (runs : action.Runs good bad state) :
    (orRecord action).Runs (fun found rest => ∃ value, found = some value ∧ good value rest) bad state := by
  refine fun proper => (runs proper).orRecord.mono (fun found later recorded => ?_) fun _ _ => id
  cases found with
  | some value =>
    obtain ⟨new, leads, fine, first⟩ := recorded
    exact ⟨new, leads, fun clean => ⟨value, rfl, fine clean⟩, first⟩
  | none =>
    obtain ⟨between, diagnostic, ⟨new, leads, first⟩, rfl⟩ := recorded
    refine ⟨new ++ [diagnostic], leads.trans (ParseState.leads_record diagnostic leads.proper), by simp, ?_⟩
    intro d member
    cases new with
    | nil => cases member; exact first
    | cons e others => cases member; exact first

/-- What a clean run comes to, whatever the complaints of the others. -/
abbrev Yields (good : α → List Token → Prop) (action : Action α) (state : ParseState) : Prop :=
  action.Runs good (fun _ => True) state

theorem Runs.yields {action : Action α} (runs : action.Runs good bad state) : action.Yields good state :=
  runs.mono (fun _ _ => id) fun _ _ => trivial

theorem Yields.mono {good' : α → List Token → Prop} {action : Action α} (yields : action.Yields good state)
    (better : ∀ value rest, good value rest → good' value rest) : action.Yields good' state :=
  Runs.mono yields better fun _ => id

theorem Yields.bind {middle : α → List Token → Prop} {good : β → List Token → Prop} {first : Action α}
    {next : α → Action β} (yields : first.Yields middle state)
    (continues : ∀ value later,
      (next value).Yields (fun result rest => middle value later.unread → good result rest) later) :
    (first >>= next).Yields good state :=
  Runs.bind yields fun value later _ => Runs.mono (continues value later) (fun _ _ => id) fun _ _ _ => trivial

end Action

end LetFn
