import LetFn.Diagnostic
import LetFn.Rules
import LetFn.TokenStream
import LetFn.Tree

namespace LetFn

/-- How far a parser has come. `rounds` counts the turns of its statement loops, which is what a long
run spends. -/
structure ParseState where
  stream : TokenStream
  errors : List Diagnostic
  rounds : Nat
deriving Inhabited

namespace ParseState

/-- Nothing read yet. -/
def start (stream : TokenStream) : ParseState :=
  ⟨stream, [], 0⟩

/-- The token that is being read. -/
def current (state : ParseState) : Token :=
  state.stream.current

/-- The token after it. -/
def peek (state : ParseState) : Token :=
  state.stream.peek

/-- The number of tokens from the current one to the last before the end. -/
def remaining (state : ParseState) : Nat :=
  state.stream.ahead.length

/-- More fuel than a run from here can use up, unless it goes on for ever. -/
def fuel (state : ParseState) : Nat :=
  4 * state.remaining + 16

/-- `problem`, placed at the current token. -/
def problemHere (problem : Problem) (state : ParseState) : Diagnostic :=
  ⟨problem, state.current.span⟩

/-- That the next token should have been an `expected` one. -/
def unexpectedPeek (expected : TokenKind) (state : ParseState) : Diagnostic :=
  ⟨.unexpectedPeek expected state.peek.kind, state.peek.span⟩

/-- The state one token further on. -/
def advance (state : ParseState) : ParseState :=
  { state with stream := state.stream.advance }

/-- The state with one more diagnostic, behind those there are. -/
def record (diagnostic : Diagnostic) (state : ParseState) : ParseState :=
  { state with errors := state.errors ++ [diagnostic] }

/-- The state with one more turn counted. -/
def countRound (state : ParseState) : ParseState :=
  { state with rounds := state.rounds + 1 }

end ParseState

/-- Why a run gives no value. -/
inductive Stop where
  | problem (diagnostic : Diagnostic)
  | outOfFuel
deriving DecidableEq, Inhabited

/-- A step of parsing. It has changed the state also where it gives no value. -/
abbrev Action := EStateM Stop ParseState

namespace Action

variable {α : Type}

/-- The token that is being read. -/
def current : Action Token := fun state =>
  .ok state.current state

/-- The token after it. -/
def peek : Action Token := fun state =>
  .ok state.peek state

/-- Goes on to the next token. -/
def advance : Action Unit := fun state =>
  .ok () state.advance

/-- Gives up with `problem` at the current token. -/
def failHere (problem : Problem) : Action α := fun state =>
  .error (.problem (state.problemHere problem)) state

/-- Goes on to the next token if it is an `expected` one and gives up where it stands if not. -/
def expectPeek (expected : TokenKind) : Action Unit := fun state =>
  if state.peek.kind = expected then .ok () state.advance
  else .error (.problem (state.unexpectedPeek expected)) state

/-- Goes on to a semicolon that is next, and stays where it is if there is none. -/
def skipSemicolon : Action Unit := fun state =>
  if state.peek.kind = .semicolon then .ok () state.advance else .ok () state

/-- Counts a turn of a statement loop. -/
def countRound : Action Unit := fun state =>
  .ok () state.countRound

/-- The value of `action`, or none if it gives up, its diagnostic then being recorded. -/
def orRecord (action : Action α) : Action (Option α) := fun state =>
  match action state with
  | .ok value later => .ok (some value) later
  | .error (.problem diagnostic) later => .ok none (later.record diagnostic)
  | .error .outOfFuel later => .error .outOfFuel later

variable {β : Type}

theorem bind_current (next : Token → Action β) (state : ParseState) :
    (current >>= next) state = next state.current state :=
  rfl

theorem bind_peek (next : Token → Action β) (state : ParseState) :
    (peek >>= next) state = next state.peek state :=
  rfl

theorem bind_advance (next : Unit → Action β) (state : ParseState) :
    (advance >>= next) state = next () state.advance :=
  rfl

theorem bind_countRound (next : Unit → Action β) (state : ParseState) :
    (countRound >>= next) state = next () state.countRound :=
  rfl

theorem expectPeek_of_eq {expected : TokenKind} {state : ParseState} (there : state.peek.kind = expected) :
    expectPeek expected state = .ok () state.advance :=
  if_pos there

theorem expectPeek_of_ne {expected : TokenKind} {state : ParseState} (other : state.peek.kind ≠ expected) :
    expectPeek expected state = .error (.problem (state.unexpectedPeek expected)) state :=
  if_neg other

theorem bind_of_ok {first : Action α} {state later : ParseState} {value : α} (run : first state = .ok value later)
    (next : α → Action β) : (first >>= next) state = next value later := by
  have unfolded : (first >>= next) state = EStateM.bind first next state := rfl
  rw [unfolded, EStateM.bind, run]

theorem bind_of_error {first : Action α} {state later : ParseState} {stop : Stop}
    (run : first state = .error stop later) (next : α → Action β) :
    (first >>= next) state = .error stop later := by
  have unfolded : (first >>= next) state = EStateM.bind first next state := rfl
  rw [unfolded, EStateM.bind, run]

end Action

end LetFn
