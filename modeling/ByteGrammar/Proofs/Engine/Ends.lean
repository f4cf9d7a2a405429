import ByteGrammar.Engine.Combinators

/-
  How actions end: every operation on actions, read from its
  end back to the ends of its parts.

  Main declarations:
    * `Action.BindEnds`, `Action.bind_ends`
    * `Action.OptionallyEnds`, `Action.optionally_ends`
    * `State.backTo`, `State.advance`, `State.touch`
    * `Action.AttemptEnds`, `Action.attempt_ends`
    * `Action.OrBacktrackEnds`, `Action.orBacktrack_ends`
    * `Action.RevertingEnds`, `Action.bindReverting_ends`
    * `Action.loop_eq_iterate`, `Action.iterate_of_done`
    * `Action.WithinEnds`, `Action.within_ends`
    * `Action.BracketedEnds`, `Action.bracketed_ends`
    * `Action.GuardedEnds`, `Action.guarded_ends`
-/

------------------------------------------------------------
-- Sequencing
------------------------------------------------------------

namespace ByteGrammar

namespace Action

variable {α β : Type}

/- The ways in which one action after another can end. -/
inductive BindEnds
    (first : Action α)
    (next : α → Action β)
    (state : State) :
    Step β → Prop where
  | matched {value : α} {middle last : State}
      {outcome : Outcome β} {events more : List Event}
      (hFirst :
        first state = some ⟨.matched value, middle, events⟩)
      (hNext :
        next value middle = some ⟨outcome, last, more⟩) :
      BindEnds first next state
        ⟨outcome, last, events ++ more⟩
  | failed {middle : State} {events : List Event}
      (hFirst :
        first state = some ⟨.failed, middle, events⟩) :
      BindEnds first next state ⟨.failed, middle, events⟩
  | fatal {fault : Fault} {middle : State}
      {events : List Event}
      (hFirst :
        first state = some ⟨.fatal fault, middle, events⟩) :
      BindEnds first next state
        ⟨.fatal fault, middle, events⟩

/- A sequence ends in no other way. -/
theorem bind_ends
    {first : Action α}
    {next : α → Action β}
    {state : State}
    {step : Step β}
    (hStep : bind first next state = some step) :
    BindEnds first next state step := by
  simp only [bind] at hStep
  split at hStep
  · cases hStep
  · rename_i value middle events hFirst
    split at hStep
    · cases hStep
    · rename_i outcome last more hNext
      cases hStep
      exact .matched hFirst hNext
  · rename_i middle events hFirst
    cases hStep
    exact .failed hFirst
  · rename_i fault middle events hFirst
    cases hStep
    exact .fatal hFirst

/- After a match, the next action decides. -/
theorem bind_of_matched
    {first : Action α}
    {next : α → Action β}
    {state middle : State}
    {value : α}
    {events : List Event}
    (hFirst :
      first state = some ⟨.matched value, middle, events⟩) :
    bind first next state =
      (next value middle).map fun step =>
        { step with events := events ++ step.events } := by
  simp only [bind, hFirst]
  cases next value middle <;> rfl

/- After a match, the end of the next action is the end. -/
theorem bind_of_next
    {first : Action α}
    {next : α → Action β}
    {state middle last : State}
    {value : α}
    {outcome : Outcome β}
    {events more : List Event}
    (hFirst :
      first state = some ⟨.matched value, middle, events⟩)
    (hNext :
      next value middle = some ⟨outcome, last, more⟩) :
    bind first next state =
      some ⟨outcome, last, events ++ more⟩ := by
  rw [bind_of_matched hFirst, hNext]
  rfl

/- After a failure, there is no next action. -/
theorem bind_of_failed
    {first : Action α}
    {next : α → Action β}
    {state middle : State}
    {events : List Event}
    (hFirst :
      first state = some ⟨.failed, middle, events⟩) :
    bind first next state =
      some ⟨.failed, middle, events⟩ := by
  simp only [bind, hFirst]

/- After a fatal error, there is no next action. -/
theorem bind_of_fatal
    {first : Action α}
    {next : α → Action β}
    {state middle : State}
    {fault : Fault}
    {events : List Event}
    (hFirst :
      first state = some ⟨.fatal fault, middle, events⟩) :
    bind first next state =
      some ⟨.fatal fault, middle, events⟩ := by
  simp only [bind, hFirst]

/- To look at the cursor is no step of its own. -/
theorem inspect_bind
    (view : Cursor → α)
    (next : α → Action β)
    (state : State) :
    bind (inspect view) next state =
      next (view state.cursor) state := by
  rw [bind_of_matched rfl]
  cases next (view state.cursor) state <;> rfl

/- To look at the context is no step of its own. -/
theorem consult_bind
    (view : Context → α)
    (next : α → Action β)
    (state : State) :
    bind (consult view) next state =
      next (view state.context) state := by
  rw [bind_of_matched rfl]
  cases next (view state.context) state <;> rfl

/- To change the cursor is a step that always matches. -/
theorem move_bind
    (change : Cursor → Cursor)
    (next : Unit → Action β)
    (state : State) :
    bind (move change) next state =
      next () { state with cursor := change state.cursor } := by
  rw [bind_of_matched rfl]
  cases next () { state with cursor := change state.cursor }
    <;> rfl

/- A sequence ends only if its first action does. -/
theorem exists_of_bind
    {first : Action α}
    {next : α → Action β}
    {state : State}
    {step : Step β}
    (hStep : bind first next state = some step) :
    ∃ ended, first state = some ended := by
  cases bind_ends hStep with
  | matched hFirst _ => exact ⟨_, hFirst⟩
  | failed hFirst => exact ⟨_, hFirst⟩
  | fatal hFirst => exact ⟨_, hFirst⟩

/- What never happens has no end. -/
theorem bind_of_none
    {first : Action α}
    {next : α → Action β}
    {state : State}
    (hFirst : first state = none) :
    bind first next state = none := by
  simp only [bind, hFirst]

end Action

end ByteGrammar

------------------------------------------------------------
-- Optional and Attempted Actions
------------------------------------------------------------

namespace ByteGrammar

namespace State

/- The state with the cursor set back to where it was
  before. -/
def backTo
    (state before : State) :
    State :=
  { state with
    cursor :=
      state.cursor.restore before.cursor.checkpoint }

/- The state with the cursor moved on by some bytes. -/
def advance
    (state : State)
    (count : Nat) :
    State :=
  { state with cursor := state.cursor.advance count }

/- The state after some bytes ahead were reached. -/
def touch
    (state : State)
    (count : Nat) :
    State :=
  { state with cursor := state.cursor.touch count }

end State

namespace Action

variable {α : Type}

/- The ways in which an optional action can end. -/
inductive OptionallyEnds
    (action : Action α)
    (state : State) :
    Step (Option α) → Prop where
  | matched {value : α} {last : State} {events : List Event}
      (hAction :
        action state = some ⟨.matched value, last, events⟩) :
      OptionallyEnds action state
        ⟨.matched (some value), last, events⟩
  | failed {last : State} {events : List Event}
      (hAction :
        action state = some ⟨.failed, last, events⟩) :
      OptionallyEnds action state
        ⟨.matched none, last, events⟩
  | fatal {fault : Fault} {last : State}
      {events : List Event}
      (hAction :
        action state = some ⟨.fatal fault, last, events⟩) :
      OptionallyEnds action state
        ⟨.fatal fault, last, events⟩

/- An optional action ends in no other way. -/
theorem optionally_ends
    {action : Action α}
    {state : State}
    {step : Step (Option α)}
    (hStep : optionally action state = some step) :
    OptionallyEnds action state step := by
  simp only [optionally] at hStep
  split at hStep
  · cases hStep
  · rename_i hAction
    cases hStep
    exact .matched hAction
  · rename_i hAction
    cases hStep
    exact .failed hAction
  · rename_i hAction
    cases hStep
    exact .fatal hAction

theorem optionally_of_matched
    {action : Action α}
    {state last : State}
    {value : α}
    {events : List Event}
    (hAction :
      action state = some ⟨.matched value, last, events⟩) :
    optionally action state =
      some ⟨.matched (some value), last, events⟩ := by
  simp only [optionally, hAction]

theorem optionally_of_failed
    {action : Action α}
    {state last : State}
    {events : List Event}
    (hAction :
      action state = some ⟨.failed, last, events⟩) :
    optionally action state =
      some ⟨.matched none, last, events⟩ := by
  simp only [optionally, hAction]

theorem optionally_of_fatal
    {action : Action α}
    {state last : State}
    {fault : Fault}
    {events : List Event}
    (hAction :
      action state = some ⟨.fatal fault, last, events⟩) :
    optionally action state =
      some ⟨.fatal fault, last, events⟩ := by
  simp only [optionally, hAction]

/- The ways in which an attempt can end: a failure sets the
  cursor back to where it was. -/
inductive AttemptEnds
    (action : Action α)
    (state : State) :
    Step α → Prop where
  | matched {value : α} {last : State} {events : List Event}
      (hAction :
        action state = some ⟨.matched value, last, events⟩) :
      AttemptEnds action state ⟨.matched value, last, events⟩
  | failed {last : State} {events : List Event}
      (hAction :
        action state = some ⟨.failed, last, events⟩) :
      AttemptEnds action state
        ⟨.failed,
          { last with
            cursor :=
              last.cursor.restore state.cursor.checkpoint },
          events⟩
  | fatal {fault : Fault} {last : State}
      {events : List Event}
      (hAction :
        action state = some ⟨.fatal fault, last, events⟩) :
      AttemptEnds action state ⟨.fatal fault, last, events⟩

/- An attempt ends in no other way. -/
theorem attempt_ends
    {action : Action α}
    {state : State}
    {step : Step α}
    (hStep : attempt action state = some step) :
    AttemptEnds action state step := by
  simp only [attempt] at hStep
  split at hStep
  · cases hStep
  · rename_i hAction
    cases hStep
    exact .matched hAction
  · rename_i hAction
    cases hStep
    exact .failed hAction
  · rename_i hAction
    cases hStep
    exact .fatal hAction

/- An attempt ends only if its action does. -/
theorem exists_of_attempt
    {action : Action α}
    {state : State}
    {step : Step α}
    (hStep : attempt action state = some step) :
    ∃ ended, action state = some ended := by
  cases attempt_ends hStep with
  | matched hAction => exact ⟨_, hAction⟩
  | failed hAction => exact ⟨_, hAction⟩
  | fatal hAction => exact ⟨_, hAction⟩

theorem attempt_of_matched
    {action : Action α}
    {state last : State}
    {value : α}
    {events : List Event}
    (hAction :
      action state = some ⟨.matched value, last, events⟩) :
    attempt action state =
      some ⟨.matched value, last, events⟩ := by
  simp only [attempt, hAction]

theorem attempt_of_failed
    {action : Action α}
    {state last : State}
    {events : List Event}
    (hAction :
      action state = some ⟨.failed, last, events⟩) :
    attempt action state =
      some ⟨.failed,
        { last with
          cursor :=
            last.cursor.restore state.cursor.checkpoint },
        events⟩ := by
  simp only [attempt, hAction]

theorem attempt_of_fatal
    {action : Action α}
    {state last : State}
    {fault : Fault}
    {events : List Event}
    (hAction :
      action state = some ⟨.fatal fault, last, events⟩) :
    attempt action state =
      some ⟨.fatal fault, last, events⟩ := by
  simp only [attempt, hAction]

end Action

end ByteGrammar

------------------------------------------------------------
-- Going Back after a First Action
------------------------------------------------------------

namespace ByteGrammar

namespace Action

variable {α β : Type}

theorem orBacktrack_of_matched
    {action : Action α}
    {saved : Checkpoint}
    {state last : State}
    {value : α}
    {events : List Event}
    (hAction :
      action state = some ⟨.matched value, last, events⟩) :
    orBacktrack saved action state =
      some ⟨.matched value, last, events⟩ := by
  refine (bind_of_next (optionally_of_matched hAction)
    rfl).trans ?_
  rw [List.append_nil]

theorem orBacktrack_of_failed
    {action : Action α}
    {saved : Checkpoint}
    {state last : State}
    {events : List Event}
    (hAction :
      action state = some ⟨.failed, last, events⟩) :
    orBacktrack saved action state =
      some ⟨.failed,
        { last with cursor := last.cursor.restore saved },
        events⟩ := by
  refine (bind_of_next (optionally_of_failed hAction)
    rfl).trans ?_
  simp only [List.append_nil]

theorem orBacktrack_of_fatal
    {action : Action α}
    {saved : Checkpoint}
    {state last : State}
    {fault : Fault}
    {events : List Event}
    (hAction :
      action state = some ⟨.fatal fault, last, events⟩) :
    orBacktrack saved action state =
      some ⟨.fatal fault, last, events⟩ :=
  bind_of_fatal (optionally_of_fatal hAction)

theorem orBacktrack_of_none
    {action : Action α}
    {saved : Checkpoint}
    {state : State}
    (hAction : action state = none) :
    orBacktrack saved action state = none := by
  apply bind_of_none
  simp only [optionally, hAction]

/- The ways in which an action can end whose failure sets the
  cursor back. -/
inductive OrBacktrackEnds
    (saved : Checkpoint)
    (action : Action α)
    (state : State) :
    Step α → Prop where
  | matched {value : α} {last : State} {events : List Event}
      (hAction :
        action state = some ⟨.matched value, last, events⟩) :
      OrBacktrackEnds saved action state
        ⟨.matched value, last, events⟩
  | failed {last : State} {events : List Event}
      (hAction :
        action state = some ⟨.failed, last, events⟩) :
      OrBacktrackEnds saved action state
        ⟨.failed,
          { last with cursor := last.cursor.restore saved },
          events⟩
  | fatal {fault : Fault} {last : State}
      {events : List Event}
      (hAction :
        action state = some ⟨.fatal fault, last, events⟩) :
      OrBacktrackEnds saved action state
        ⟨.fatal fault, last, events⟩

/- It ends in no other way. -/
theorem orBacktrack_ends
    {action : Action α}
    {saved : Checkpoint}
    {state : State}
    {step : Step α}
    (hStep : orBacktrack saved action state = some step) :
    OrBacktrackEnds saved action state step := by
  cases hAction : action state with
  | none =>
      rw [orBacktrack_of_none hAction] at hStep
      cases hStep
  | some ended =>
      rcases ended with ⟨value | _ | fault, last, events⟩
      · rw [orBacktrack_of_matched hAction] at hStep
        cases hStep
        exact .matched hAction
      · rw [orBacktrack_of_failed hAction] at hStep
        cases hStep
        exact .failed hAction
      · rw [orBacktrack_of_fatal hAction] at hStep
        cases hStep
        exact .fatal hAction

variable {first : Action α}
variable {next : α → Action β}
variable {state middle last : State}
variable {value : α}
variable {events more : List Event}

/- To note where the cursor is is no step of its own. -/
theorem bindReverting_eq :
    bindReverting first next state =
      bind first
        (fun value =>
          orBacktrack state.cursor.checkpoint (next value))
        state :=
  inspect_bind Cursor.checkpoint
    (fun before => bind first
      fun value => orBacktrack before (next value))
    state

theorem bindReverting_of_none
    (hFirst : first state = none) :
    bindReverting first next state = none := by
  rw [bindReverting_eq]
  exact bind_of_none hFirst

/- A failure of the first action is left as it is. -/
theorem bindReverting_of_failed
    (hFirst : first state = some ⟨.failed, last, events⟩) :
    bindReverting first next state =
      some ⟨.failed, last, events⟩ := by
  rw [bindReverting_eq]
  exact bind_of_failed hFirst

theorem bindReverting_of_fatal
    {fault : Fault}
    (hFirst :
      first state = some ⟨.fatal fault, last, events⟩) :
    bindReverting first next state =
      some ⟨.fatal fault, last, events⟩ := by
  rw [bindReverting_eq]
  exact bind_of_fatal hFirst

/- After a match, the next action decides. -/
theorem bindReverting_of_matched
    (hFirst :
      first state = some ⟨.matched value, middle, events⟩) :
    bindReverting first next state =
      (orBacktrack state.cursor.checkpoint (next value)
          middle).map
        fun step =>
          { step with events := events ++ step.events } := by
  rw [bindReverting_eq]
  exact bind_of_matched hFirst

theorem bindReverting_of_next_matched
    {result : β}
    (hFirst :
      first state = some ⟨.matched value, middle, events⟩)
    (hNext :
      next value middle =
        some ⟨.matched result, last, more⟩) :
    bindReverting first next state =
      some ⟨.matched result, last, events ++ more⟩ := by
  rw [bindReverting_of_matched hFirst,
    orBacktrack_of_matched hNext]
  rfl

/- A failure after the first match goes back to before
  it. -/
theorem bindReverting_of_next_failed
    (hFirst :
      first state = some ⟨.matched value, middle, events⟩)
    (hNext :
      next value middle = some ⟨.failed, last, more⟩) :
    bindReverting first next state =
      some ⟨.failed, last.backTo state, events ++ more⟩ := by
  rw [bindReverting_of_matched hFirst,
    orBacktrack_of_failed hNext]
  rfl

theorem bindReverting_of_next_fatal
    {fault : Fault}
    (hFirst :
      first state = some ⟨.matched value, middle, events⟩)
    (hNext :
      next value middle =
        some ⟨.fatal fault, last, more⟩) :
    bindReverting first next state =
      some ⟨.fatal fault, last, events ++ more⟩ := by
  rw [bindReverting_of_matched hFirst,
    orBacktrack_of_fatal hNext]
  rfl

theorem bindReverting_of_next_none
    (hFirst :
      first state = some ⟨.matched value, middle, events⟩)
    (hNext : next value middle = none) :
    bindReverting first next state = none := by
  rw [bindReverting_of_matched hFirst,
    orBacktrack_of_none hNext]
  rfl

/- The ways in which two actions can end of which the
  failure of the second goes back. -/
inductive RevertingEnds
    (first : Action α)
    (next : α → Action β)
    (state : State) :
    Step β → Prop where
  | matched {value : α} {result : β} {middle last : State}
      {events more : List Event}
      (hFirst :
        first state = some ⟨.matched value, middle, events⟩)
      (hNext :
        next value middle =
          some ⟨.matched result, last, more⟩) :
      RevertingEnds first next state
        ⟨.matched result, last, events ++ more⟩
  | reverted {value : α} {middle last : State}
      {events more : List Event}
      (hFirst :
        first state = some ⟨.matched value, middle, events⟩)
      (hNext :
        next value middle = some ⟨.failed, last, more⟩) :
      RevertingEnds first next state
        ⟨.failed, last.backTo state, events ++ more⟩
  | nextFatal {value : α} {fault : Fault}
      {middle last : State} {events more : List Event}
      (hFirst :
        first state = some ⟨.matched value, middle, events⟩)
      (hNext :
        next value middle =
          some ⟨.fatal fault, last, more⟩) :
      RevertingEnds first next state
        ⟨.fatal fault, last, events ++ more⟩
  | failed {middle : State} {events : List Event}
      (hFirst :
        first state = some ⟨.failed, middle, events⟩) :
      RevertingEnds first next state
        ⟨.failed, middle, events⟩
  | fatal {fault : Fault} {middle : State}
      {events : List Event}
      (hFirst :
        first state = some ⟨.fatal fault, middle, events⟩) :
      RevertingEnds first next state
        ⟨.fatal fault, middle, events⟩

/- They end in no other way. -/
theorem bindReverting_ends
    {step : Step β}
    (hStep : bindReverting first next state = some step) :
    RevertingEnds first next state step := by
  rw [bindReverting_eq] at hStep
  cases bind_ends hStep with
  | matched hFirst hMore =>
      cases orBacktrack_ends hMore with
      | matched hNext => exact .matched hFirst hNext
      | failed hNext => exact .reverted hFirst hNext
      | fatal hNext => exact .nextFatal hFirst hNext
  | failed hFirst => exact .failed hFirst
  | fatal hFirst => exact .fatal hFirst

/- They end only if the first does. -/
theorem exists_of_bindReverting
    {step : Step β}
    (hStep : bindReverting first next state = some step) :
    ∃ ended, first state = some ended := by
  rw [bindReverting_eq] at hStep
  exact exists_of_bind hStep

end Action

end ByteGrammar

------------------------------------------------------------
-- Loops
------------------------------------------------------------

namespace ByteGrammar

namespace Action

variable {σ β : Type}
variable {pass : σ → Action (Pass σ β)}
variable {taken : σ}
variable {state middle : State}
variable {events : List Event}

theorem loop_eq_iterate
    (start : σ) :
    loop pass start state =
      iterate pass (state.cursor.remaining.length + 1) start
        state := by
  unfold loop
  exact inspect_bind _ _ state

theorem iterate_of_done
    {result : β}
    (limit : Nat)
    (hPass :
      pass taken state =
        some ⟨.matched (.done result), middle, events⟩) :
    iterate pass (limit + 1) taken state =
      some ⟨.matched result, middle, events⟩ := by
  unfold iterate
  refine (bind_of_matched hPass).trans ?_
  simp only [Pure.pure, pure, Option.map_some,
    List.append_nil]

theorem iterate_of_again
    {next : σ}
    (limit : Nat)
    (hPass :
      pass taken state =
        some ⟨.matched (.again next), middle, events⟩) :
    iterate pass (limit + 1) taken state =
      (iterate pass limit next middle).map fun step =>
        { step with events := events ++ step.events } := by
  rw [iterate]
  exact bind_of_matched hPass

end Action

end ByteGrammar

------------------------------------------------------------
-- Scopes and Brackets
------------------------------------------------------------

namespace ByteGrammar

namespace Action

variable {α : Type}

/- A scope ends as its action does, with the context changed
  once more. -/
inductive WithinEnds
    (enter : Context → Context)
    (leave : Context → Context → Context)
    (action : Action α)
    (state : State) :
    Step α → Prop where
  | inner {outcome : Outcome α} {last : State}
      {events : List Event}
      (hAction :
        action { state with context := enter state.context } =
          some ⟨outcome, last, events⟩) :
      WithinEnds enter leave action state
        ⟨outcome,
          { last with
            context := leave state.context last.context },
          events⟩

/- A scope ends in no other way. -/
theorem within_ends
    {enter : Context → Context}
    {leave : Context → Context → Context}
    {action : Action α}
    {state : State}
    {step : Step α}
    (hStep : within enter leave action state = some step) :
    WithinEnds enter leave action state step := by
  simp only [within] at hStep
  split at hStep
  · cases hStep
  · rename_i hAction
    cases hStep
    exact .inner hAction

theorem within_of_inner
    {enter : Context → Context}
    {leave : Context → Context → Context}
    {action : Action α}
    {state last : State}
    {outcome : Outcome α}
    {events : List Event}
    (hAction :
      action { state with context := enter state.context } =
        some ⟨outcome, last, events⟩) :
    within enter leave action state =
      some ⟨outcome,
        { last with
          context := leave state.context last.context },
        events⟩ := by
  simp only [within, hAction]

/- A bracketed action ends as the action does, between the
  two events of its node. -/
inductive BracketedEnds
    (node : Node)
    (label : String)
    (position : Nat)
    (action : Action α)
    (state : State) :
    Step α → Prop where
  | inner {outcome : Outcome α} {last : State}
      {events : List Event}
      (hAction : action state = some ⟨outcome, last, events⟩) :
      BracketedEnds node label position action state
        ⟨outcome, last,
          .entered node label position :: events ++
            [.exited node label position outcome.isMatched]⟩

/- A bracketed action ends in no other way. -/
theorem bracketed_ends
    {node : Node}
    {label : String}
    {position : Nat}
    {action : Action α}
    {state : State}
    {step : Step α}
    (hStep :
      bracketed node label position action state =
        some step) :
    BracketedEnds node label position action state step := by
  simp only [bracketed] at hStep
  split at hStep
  · cases hStep
  · rename_i hAction
    cases hStep
    exact .inner hAction

theorem bracketed_of_inner
    {node : Node}
    {label : String}
    {position : Nat}
    {action : Action α}
    {state last : State}
    {outcome : Outcome α}
    {events : List Event}
    (hAction :
      action state = some ⟨outcome, last, events⟩) :
    bracketed node label position action state =
      some ⟨outcome, last,
        .entered node label position :: events ++
          [.exited node label position
            outcome.isMatched]⟩ := by
  simp only [bracketed, hAction]

end Action

end ByteGrammar

------------------------------------------------------------
-- Guarded Calls
------------------------------------------------------------

namespace ByteGrammar

namespace Action

variable {id : ParserId} {here : Nat}
variable {action : Action Match} {state : State}

/- Without detection of loops, the guard does nothing. -/
theorem guarded_of_undetected
    (hDetects :
      state.context.options.loopDetection = false) :
    guarded id here action state = action state := by
  unfold guarded
  refine (consult_bind _ _ state).trans ?_
  rw [hDetects]
  rfl

/- A rule that is running is refused. -/
theorem guarded_of_active
    (hDetects :
      state.context.options.loopDetection = true)
    (hActive : state.context.isActive id here = true) :
    guarded id here action state =
      some ⟨.failed, state, [.loopDetected id here]⟩ := by
  unfold guarded
  refine (consult_bind _ _ state).trans ?_
  rw [hDetects, if_pos rfl]
  refine (consult_bind _ _ state).trans ?_
  rw [hActive]
  rfl

/- A rule that is not running is running for the while. -/
theorem guarded_of_idle
    (hDetects :
      state.context.options.loopDetection = true)
    (hIdle : state.context.isActive id here = false) :
    guarded id here action state =
      within (Context.activate id here)
        (fun _ => Context.deactivate id here) action
        state := by
  unfold guarded
  refine (consult_bind _ _ state).trans ?_
  rw [hDetects, if_pos rfl]
  refine (consult_bind _ _ state).trans ?_
  rw [hIdle]
  rfl

/- A rule that is bound runs its target, guarded. -/
theorem callRule_of_bound
    {rules : Rules}
    {run : Parser → Action Match}
    {handle : Handle}
    {target : Parser}
    (hTarget : rules.target? handle = some target) :
    callRule rules run handle state =
      bracketed (.rule (rules.idOf handle)) "deferred"
        state.cursor.position
        (guarded (rules.idOf handle) state.cursor.position
          (run target))
        state := by
  unfold callRule
  refine (inspect_bind _ _ state).trans ?_
  rw [hTarget]

/- The ways in which a guarded action can end. -/
inductive GuardedEnds
    (id : ParserId)
    (here : Nat)
    (action : Action Match)
    (state : State) :
    Step Match → Prop where
  | undetected {step : Step Match}
      (hDetects :
        state.context.options.loopDetection = false)
      (hAction : action state = some step) :
      GuardedEnds id here action state step
  | refused
      (hDetects :
        state.context.options.loopDetection = true)
      (hActive : state.context.isActive id here = true) :
      GuardedEnds id here action state
        ⟨.failed, state, [.loopDetected id here]⟩
  | idle {outcome : Outcome Match} {last : State}
      {events : List Event}
      (hDetects :
        state.context.options.loopDetection = true)
      (hIdle : state.context.isActive id here = false)
      (hAction :
        action
            { state with
              context := state.context.activate id here } =
          some ⟨outcome, last, events⟩) :
      GuardedEnds id here action state
        ⟨outcome,
          { last with
            context := last.context.deactivate id here },
          events⟩

/- A guarded action ends in no other way. -/
theorem guarded_ends
    {step : Step Match}
    (hStep : guarded id here action state = some step) :
    GuardedEnds id here action state step := by
  cases hDetects : state.context.options.loopDetection with
  | false =>
      rw [guarded_of_undetected hDetects] at hStep
      exact .undetected hDetects hStep
  | true =>
      cases hActive : state.context.isActive id here with
      | true =>
          rw [guarded_of_active hDetects hActive] at hStep
          cases hStep
          exact .refused hDetects hActive
      | false =>
          rw [guarded_of_idle hDetects hActive] at hStep
          cases within_ends hStep with
          | inner hInner => exact .idle hDetects hActive hInner

end Action

end ByteGrammar
