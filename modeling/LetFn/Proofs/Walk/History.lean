import LetFn.Parser.Request
import LetFn.Proofs.Lexing.Pulled
import LetFn.Proofs.Parser.Fuel
import LetFn.Proofs.Walk.Routines

namespace LetFn

namespace ParseState

/-- From `state` to `later` a parser has only gone forward over its tokens and added to its complaints. -/
structure Onward (state later : ParseState) : Prop where
  stream : ∃ count, later.stream = state.stream.drop count
  errors : state.errors <+: later.errors

variable {rules : Rules} {state later : ParseState} {free free' : Bool}

theorem Onward.refl (state : ParseState) : state.Onward state :=
  ⟨⟨0, rfl⟩, List.prefix_rfl⟩

theorem Walk.onward (walk : Walk rules state free later free') : state.Onward later := by
  obtain ⟨new, errors⟩ := walk.errors
  exact ⟨walk.stream, new, errors.symm⟩

end ParseState

namespace Action

variable {α β : Type} {rules : Rules} {state : ParseState}

/-- A run of `action` from `state` goes onward, whether it succeeds or gives up with a complaint. -/
abbrev GoesOn (action : Action α) (state : ParseState) : Prop :=
  action.ComesTo True (fun _ later => state.Onward later) (fun _ later => state.Onward later) state

theorem Walks.goesOn {free : Bool} {action : Action α} (walks : action.Walks rules state free state) :
    action.GoesOn state :=
  ComesTo.mono walks (fun _ _ walk => walk.onward) fun _ _ failed => failed.1.onward

/-- The rule for numbers goes on also where the rules do not call for it. -/
theorem opening_goesOn (rules : Rules) (fuel : Nat) (rule : PrefixRule) (state : ParseState) :
    (opening rules fuel rule).GoesOn state := by
  by_cases number : rule = .integer
  · subst number
    cases fuel with
    | zero => exact comes_outOfFuel
    | succ fuel =>
      cases value : Text.integer64? state.current.literal with
      | none => exact .of_eq (opening_integer_of_none value) (comes_failHere (.refl state))
      | some found => exact .of_eq (opening_integer_of_some value) (comes_pure (.refl state))
  · exact ((walking rules state false fuel).opening rule state (fun same => absurd same number) .start).goesOn

theorem program_goesOn (rules : Rules) (fuel : Nat) (state : ParseState) : (program rules fuel).GoesOn state :=
  (walks_program rules fuel state).mono (fun _ _ rest => rest.1.onward) fun _ _ never => never.elim

end Action

/-- What a request does to the rules. Three of the requests are made for that, and the others leave them alone. -/
def Request.register : Request → Rules → Rules
  | .setPrefix kind rule, rules => rules.setPrefix kind rule
  | .setInfix kind power rule, rules => rules.setInfix kind power rule
  | .setStatement kind rule, rules => rules.setStatement kind rule
  | _, rules => rules

namespace Parser

theorem run_below {α : Type} {less more : Action α} (below : Action.Below less more) (wrap : α → Reply)
    (parser : Parser) (ended : (parser.run (wrap <$> less)).1 ≠ .error .outOfFuel) :
    parser.run (wrap <$> more) = parser.run (wrap <$> less) := by
  rcases below parser.state with ⟨later, cut⟩ | same
  · rw [run_of_error wrap cut] at ended
    exact absurd rfl ended
  · cases done : less parser.state with
    | ok value later => rw [run_of_ok wrap done, run_of_ok wrap (same.symm.trans done)]
    | error stop later => rw [run_of_error wrap done, run_of_error wrap (same.symm.trans done)]

/-- A request that comes to an end with some fuel comes to the same end with more. -/
theorem performWithin_le {fuel further : Nat} (request : Request) (parser : Parser)
    (ended : (parser.performWithin fuel request).1 ≠ .error .outOfFuel) (le : fuel ≤ further) :
    parser.performWithin further request = parser.performWithin fuel request := by
  have more := Action.extends_of_le parser.rules le
  cases request with
  | advance | expectPeek kind | record diagnostic => rfl
  | setPrefix kind rule | setInfix kind power rule | setStatement kind rule => rfl
  | opening rule => exact run_below (more.opening rule) _ parser ended
  | extension rule left power => exact run_below (more.extension rule left power) _ parser ended
  | expression power => exact run_below (more.expression power) _ parser ended
  | statement rule => exact run_below (more.statement rule) _ parser ended
  | block => exact run_below more.block _ parser ended
  | program => exact run_below (Action.program_below parser.rules le) _ parser ended

/-- `request` comes to an end by itself, with `reply`, and leaves the parser as `later`. -/
def Does (parser : Parser) (request : Request) (reply : Except Stop Reply) (later : Parser) : Prop :=
  reply ≠ .error .outOfFuel ∧ ∃ fuel, parser.performWithin fuel request = (reply, later)

theorem does_of_perform {parser : Parser} {request : Request} (ended : (parser.perform request).1 ≠ .error .outOfFuel) :
    parser.Does request (parser.perform request).1 (parser.perform request).2 :=
  ⟨ended, parser.state.fuel, rfl⟩

/-- What a request comes to does not depend on the fuel it is given. -/
theorem Does.unique {parser later later' : Parser} {request : Request} {reply reply' : Except Stop Reply}
    (does : parser.Does request reply later) (does' : parser.Does request reply' later') :
    reply = reply' ∧ later = later' := by
  obtain ⟨ended, fuel, run⟩ := does
  obtain ⟨ended', fuel', run'⟩ := does'
  have more := performWithin_le request parser (by rw [run]; exact ended) (Nat.le_max_left fuel fuel')
  have more' := performWithin_le request parser (by rw [run']; exact ended') (Nat.le_max_right fuel fuel')
  have same : (reply, later) = (reply', later') := by rw [← run, ← run', ← more, more']
  exact Prod.mk.inj same

/-- The parsers that come of `first` by requests that all come to an end, whatever they reply. -/
inductive Reaches (first : Parser) : Parser → Prop
  | start : Reaches first first
  | next {parser request reply later} : Reaches first parser → parser.Does request reply later → Reaches first later

variable {parser later : Parser} {request : Request} {reply : Except Stop Reply}

theorem onward_of_run {α : Type} {action : Action α} {wrap : α → Reply} (goes : action.GoesOn parser.state)
    (run : parser.run (wrap <$> action) = (reply, later)) (ended : reply ≠ .error .outOfFuel) :
    parser.state.Onward later.state ∧ later.rules = parser.rules := by
  cases done : action parser.state with
  | ok value state =>
    rw [run_of_ok wrap done] at run
    cases run
    exact ⟨goes.of_ok done, rfl⟩
  | error stop state =>
    rw [run_of_error wrap done] at run
    cases run
    cases stop with
    | problem diagnostic => exact ⟨goes.of_problem done, rfl⟩
    | outOfFuel => exact absurd rfl ended

/-- The next token as it was asked for is gone on to, and any other changes nothing at all. -/
theorem performWithin_expectPeek (fuel : Nat) (kind : TokenKind) (parser : Parser) :
    parser.performWithin fuel (.expectPeek kind) =
      if parser.state.peek.kind = kind then (.ok .done, { parser with state := parser.state.advance })
      else (.error (.problem (parser.state.unexpectedPeek kind)), parser) := by
  by_cases there : parser.state.peek.kind = kind
  · rw [if_pos there, performWithin, run, Action.bind_of_ok (Action.expectPeek_of_eq there)]
    rfl
  · rw [if_neg there, performWithin, run, Action.bind_of_error (Action.expectPeek_of_ne there)]

/-- One request: whatever it is, the parser goes onward, and only a request that is made for that changes its rules. -/
theorem Does.onward (does : parser.Does request reply later) :
    parser.state.Onward later.state ∧ later.rules = request.register parser.rules := by
  obtain ⟨ended, fuel, run⟩ := does
  have routines := Action.walking parser.rules parser.state false fuel
  have forward : parser.state.Onward parser.state.advance :=
    ⟨⟨1, TokenStream.drop_advance parser.state.stream 0⟩, List.prefix_rfl⟩
  cases request with
  | advance =>
    cases run
    exact ⟨forward, rfl⟩
  | expectPeek kind =>
    rw [performWithin_expectPeek] at run
    by_cases there : parser.state.peek.kind = kind
    · rw [if_pos there] at run
      cases run
      exact ⟨forward, rfl⟩
    · rw [if_neg there] at run
      cases run
      exact ⟨.refl _, rfl⟩
  | record diagnostic =>
    cases run
    exact ⟨⟨⟨0, rfl⟩, _, rfl⟩, rfl⟩
  | setPrefix kind rule | setInfix kind power rule | setStatement kind rule =>
    cases run
    exact ⟨.refl _, rfl⟩
  | opening rule => exact onward_of_run (Action.opening_goesOn _ fuel rule _) run ended
  | extension rule left power => exact onward_of_run (routines.extension rule left power _ .start).goesOn run ended
  | expression power => exact onward_of_run (routines.expression power _ .start).goesOn run ended
  | statement rule => exact onward_of_run (routines.statement rule _ .start).goesOn run ended
  | block => exact onward_of_run (routines.block _ .start).goesOn run ended
  | program => exact onward_of_run (Action.program_goesOn _ fuel _) run ended

theorem Does.unchanged {kind : TokenKind} {stop : Stop} (does : parser.Does (.expectPeek kind) (.error stop) later) :
    later = parser := by
  obtain ⟨-, fuel, run⟩ := does
  rw [performWithin_expectPeek] at run
  by_cases there : parser.state.peek.kind = kind
  · rw [if_pos there] at run
    cases run
  · rw [if_neg there] at run
    cases run
    rfl

/-- The parser has come to the token with this number: what it has still to take lies behind, and the two tokens that
it looks at are this one and the next. -/
structure At (source : String) (index : Nat) (parser : Parser) : Prop where
  stream : parser.state.stream = .ofLexer ((Lexer.ofString source).past index)
  current : parser.state.current = tokenAt source index
  peek : parser.state.peek = tokenAt source (index + 1)

variable {source : String} {index : Nat}

theorem at_iff : parser.At source index ↔ parser.state.stream = (TokenStream.ofString source).drop index := by
  have place : .ofLexer ((Lexer.ofString source).past index) = (TokenStream.ofString source).drop index := by
    rw [TokenStream.ofLexer_past, TokenStream.ofLexer_ofString]
  constructor
  · exact fun there => there.stream.trans place
  · intro same
    refine ⟨same.trans place.symm, ?_, ?_⟩
    · rw [ParseState.current, same, TokenStream.ofString_drop_current]
    · rw [ParseState.peek, same, ← TokenStream.ofString_drop_current, ← TokenStream.drop_advance]
      rfl

/-- A parser that goes onward comes to a token that is no earlier one. -/
theorem At.onward (there : parser.At source index) (onward : parser.state.Onward later.state) :
    ∃ further, index ≤ further ∧ later.At source further := by
  obtain ⟨count, stream⟩ := onward.stream
  refine ⟨index + count, Nat.le_add_right _ _, at_iff.mpr ?_⟩
  rw [stream, at_iff.mp there]
  simp only [TokenStream.drop, List.drop_drop]

theorem start_at (source : String) (skipped : Nat) :
    (Parser.start (.ofLexer ((Lexer.ofString source).past skipped))).At source skipped :=
  at_iff.mpr (by rw [← TokenStream.ofLexer_ofString, ← TokenStream.ofLexer_past]; rfl)

/-- Whatever is asked of a parser, and whatever rules it is given on the way, it walks forward over the tokens of its
source. It starts behind those that were skipped, and each request takes it on from any token it has come to, keeps its
complaints, and leaves the rules alone unless it is made to change them. A token that is expected and not there changes
nothing. -/
theorem reaches_walks (source : String) (skipped : Nat)
    (reaches : (Parser.start (.ofLexer ((Lexer.ofString source).past skipped))).Reaches parser) :
    (∃ index, skipped ≤ index ∧ parser.At source index) ∧
      ∀ request reply later, parser.Does request reply later →
        (∀ index, parser.At source index → ∃ further, index ≤ further ∧ later.At source further) ∧
        parser.state.errors <+: later.state.errors ∧
        later.rules = request.register parser.rules ∧
        ∀ kind stop, request = .expectPeek kind → reply = .error stop → later = parser := by
  constructor
  · induction reaches with
    | start => exact ⟨skipped, Nat.le_refl _, start_at source skipped⟩
    | next _ does ih =>
      obtain ⟨index, behind, there⟩ := ih
      obtain ⟨further, onward, place⟩ := there.onward does.onward.1
      exact ⟨further, behind.trans onward, place⟩
  · intro request reply later does
    obtain ⟨onward, rules⟩ := does.onward
    refine ⟨fun index there => there.onward onward, onward.errors, rules, ?_⟩
    rintro kind stop rfl rfl
    exact does.unchanged

/-- A parenthesis that is read as a name: the first of the requests fails, and the last reads to the end. -/
theorem reaches_walks_parenthesis :
    let first := Parser.start (.ofLexer ((Lexer.ofString "let x ) y 1").past 1))
    let second := (first.perform (.expectPeek .assign)).2
    let third := (second.perform (.setPrefix .rparen .identifier)).2
    let last := (third.perform .program).2
    first.Reaches last ∧ (∃ index, 1 ≤ index ∧ last.At "let x ) y 1" index) ∧ second = first := by
  intro first second third last
  have failed : first.perform (.expectPeek .assign) =
      (.error (.problem (first.state.unexpectedPeek .assign)), first) := by
    rw [perform, performWithin_expectPeek, if_neg (by decide +kernel)]
  have read : ((third.perform .program).1 matches .ok _) = true := by decide +kernel
  have one : first.Does (.expectPeek .assign) _ second := does_of_perform (by rw [failed]; nofun)
  have two : second.Does (.setPrefix .rparen .identifier) _ third := does_of_perform nofun
  have three : third.Does .program _ last := does_of_perform fun cut => by rw [cut] at read; cases read
  have begun : first.Reaches first := .start
  have reaches := Reaches.next (.next (.next begun one) two) three
  refine ⟨reaches, (reaches_walks _ _ reaches).1, ?_⟩
  exact ((reaches_walks _ _ begun).2 _ _ _ one).2.2.2 .assign _ rfl (congrArg Prod.fst failed)

end Parser

end LetFn
