import ByteGrammar.Engine.Context
import ByteGrammar.Engine.Event

/-
  Actions: steps that move a cursor within a context, and
  match, fail or raise a fatal error, reporting events.

  An action has no outcome when it runs out of the depth it
  was given. Sequencing stops at the first failure or fatal
  error. The operations below are all that parsers are built
  from; each says what it does to the cursor and to the
  context on every outcome.

  Main declarations:
    * `Action`, `Step`, `Outcome`
    * `Action.bind`, `Action.optionally`
    * `Action.attempt`, `Action.bindReverting`
    * `Action.within`
    * `Action.bracketed`, `Action.iterate`
-/

------------------------------------------------------------
-- Outcomes
------------------------------------------------------------

namespace ByteGrammar

/- What an action comes to. -/
inductive Outcome (α : Type) where
  | matched (value : α)
  | failed
  | fatal (fault : Fault)

namespace Outcome

/- Whether the action matched. -/
def isMatched
    {α : Type} :
    Outcome α → Bool
  | .matched _ => true
  | _ => false

end Outcome

/- What an action runs on. -/
structure State where
  cursor : Cursor
  context : Context

/- A finished action: what it came to, the state it left and
  the events it reported. -/
structure Step (α : Type) where
  outcome : Outcome α
  state : State
  events : List Event

/- A step on a state, or none for lack of depth. -/
def Action (α : Type) : Type :=
  State → Option (Step α)

end ByteGrammar

------------------------------------------------------------
-- Sequencing
------------------------------------------------------------

namespace ByteGrammar

namespace Action

variable {α β : Type}

/- Runs out of depth. -/
def exhausted : Action α :=
  fun _ => none

/- Matches without doing anything. -/
def pure
    (value : α) :
    Action α :=
  fun state => some ⟨.matched value, state, []⟩

/- Goes on with `next` after a match. -/
def bind
    (first : Action α)
    (next : α → Action β) :
    Action β :=
  fun state =>
    match first state with
    | none => none
    | some ⟨.matched value, middle, events⟩ =>
        match next value middle with
        | none => none
        | some ⟨outcome, last, more⟩ =>
            some ⟨outcome, last, events ++ more⟩
    | some ⟨.failed, middle, events⟩ =>
        some ⟨.failed, middle, events⟩
    | some ⟨.fatal fault, middle, events⟩ =>
        some ⟨.fatal fault, middle, events⟩

instance : Monad Action where
  pure := Action.pure
  bind := Action.bind

/- Fails. -/
def fail : Action α :=
  fun state => some ⟨.failed, state, []⟩

/- Raises a fatal error. -/
def raise
    (fault : Fault) :
    Action α :=
  fun state => some ⟨.fatal fault, state, []⟩

/- Reports an event. -/
def report
    (event : Event) :
    Action Unit :=
  fun state => some ⟨.matched (), state, [event]⟩

/- Turns a failure into a match without value. -/
def optionally
    (action : Action α) :
    Action (Option α) :=
  fun state =>
    match action state with
    | none => none
    | some ⟨.matched value, last, events⟩ =>
        some ⟨.matched (some value), last, events⟩
    | some ⟨.failed, last, events⟩ =>
        some ⟨.matched none, last, events⟩
    | some ⟨.fatal fault, last, events⟩ =>
        some ⟨.fatal fault, last, events⟩

end Action

end ByteGrammar

------------------------------------------------------------
-- The Cursor
------------------------------------------------------------

namespace ByteGrammar

namespace Action

variable {α β : Type}

/- What a function makes of the cursor. -/
def inspect
    (view : Cursor → α) :
    Action α :=
  fun state => some ⟨.matched (view state.cursor), state, []⟩

/- The position of the cursor. -/
def position : Action Nat :=
  inspect Cursor.position

/- The checkpoint of the cursor. -/
def checkpoint : Action Checkpoint :=
  inspect Cursor.checkpoint

/- Changes the cursor. -/
def move
    (change : Cursor → Cursor) :
    Action Unit :=
  fun state =>
    some ⟨.matched (),
      { state with cursor := change state.cursor }, []⟩

/- Sets the cursor back. -/
def restore
    (saved : Checkpoint) :
    Action Unit :=
  move fun cursor => cursor.restore saved

/- Sets the cursor back to where it was if the action
  fails. -/
def attempt
    (action : Action α) :
    Action α :=
  fun state =>
    match action state with
    | none => none
    | some ⟨.matched value, last, events⟩ =>
        some ⟨.matched value, last, events⟩
    | some ⟨.failed, last, events⟩ =>
        some ⟨.failed,
          { last with
            cursor :=
              last.cursor.restore state.cursor.checkpoint },
          events⟩
    | some ⟨.fatal fault, last, events⟩ =>
        some ⟨.fatal fault, last, events⟩

/- Sets the cursor back and fails. -/
def backtrack
    (saved : Checkpoint) :
    Action α := do
  restore saved
  fail

/- The match, or else a failure with the cursor set
  back. -/
def orBacktrack
    (saved : Checkpoint)
    (action : Action α) :
    Action α := do
  match ← optionally action with
  | some value => return value
  | none => backtrack saved

/- Goes on with `next` after a match, and sets the cursor
  back to before it if `next` fails. Where the first action
  fails, the cursor stays as it left it. -/
def bindReverting
    (first : Action α)
    (next : α → Action β) :
    Action β := do
  let before ← checkpoint
  let value ← first
  orBacktrack before (next value)

end Action

end ByteGrammar

------------------------------------------------------------
-- The Context
------------------------------------------------------------

namespace ByteGrammar

namespace Action

variable {α : Type}

/- What a function makes of the context. -/
def consult
    (view : Context → α) :
    Action α :=
  fun state =>
    some ⟨.matched (view state.context), state, []⟩

/- Runs an action in a changed context. However it ends, the
  context is then changed again, in view of what it was
  before. -/
def within
    (enter : Context → Context)
    (leave : Context → Context → Context)
    (action : Action α) :
    Action α :=
  fun state =>
    match action
        { state with context := enter state.context } with
    | none => none
    | some ⟨outcome, last, events⟩ =>
        some ⟨outcome,
          { last with
            context := leave state.context last.context },
          events⟩

/- Reports that a node is entered at a position and, however
  the action ends, that it is left. -/
def bracketed
    (node : Node)
    (label : String)
    (position : Nat)
    (action : Action α) :
    Action α :=
  fun state =>
    match action state with
    | none => none
    | some ⟨outcome, last, events⟩ =>
        some ⟨outcome, last,
          .entered node label position :: events ++
            [.exited node label position
              outcome.isMatched]⟩

end Action

end ByteGrammar

------------------------------------------------------------
-- Loops
------------------------------------------------------------

namespace ByteGrammar

/- What a pass of a loop comes to: go on with a state of the
  loop, or be done with a result. -/
inductive Pass (σ : Type) (β : Type) where
  | again (state : σ)
  | done (result : β)

namespace Action

variable {σ β : Type}

/- Repeats a pass until it is done, at most `limit`
  times. -/
def iterate
    (pass : σ → Action (Pass σ β)) :
    (limit : Nat) → σ → Action β
  | 0, _ => exhausted
  | limit + 1, state => do
      match ← pass state with
      | .again next => iterate pass limit next
      | .done result => return result

/- Repeats a pass until it is done. A pass that goes on must
  have consumed something, so a loop has at most one pass
  for each remaining byte and one more. -/
def loop
    (pass : σ → Action (Pass σ β))
    (start : σ) :
    Action β := do
  let remaining ← inspect fun cursor =>
    cursor.remaining.length
  iterate pass (remaining + 1) start

end Action

end ByteGrammar
