import ByteGrammar.Proofs.Cursor.Tracking

/-
  Actions that end.

  The states of one parse share their context and their
  buffer. An action settles if from each of them it ends,
  whatever it comes to, in another one. Loops settle because
  a pass that goes on has moved, and a loop has a pass for
  every byte that remains.

  Main declarations:
    * `State.Near`
    * `Action.SettlesAt`, `Action.Settles`
    * `Action.SettlesAt.bind`, `Action.SettlesAt.loop`
-/

------------------------------------------------------------
-- The States of a Parse
------------------------------------------------------------

namespace ByteGrammar

namespace State

/- The state has the context and the buffer of `base`, and
  its cursor is inside. -/
structure Near
    (base state : State) :
    Prop where
  context : state.context = base.context
  data : state.cursor.data = base.cursor.data
  inside : state.cursor.Inside

namespace Near

variable {base state last : State}

theorem refl
    (hInside : base.cursor.Inside) :
    base.Near base :=
  ⟨rfl, rfl, hInside⟩

/- A cursor may move on. -/
theorem move
    {cursor : Cursor}
    (hNear : base.Near state)
    (hLeads : state.cursor.Leads cursor) :
    base.Near { state with cursor := cursor } where
  context := hNear.context
  data := hLeads.data.trans hNear.data
  inside := hLeads.last_inside

/- A cursor may be set back to where it was in another
  state. -/
theorem restore
    (hNear : base.Near state)
    (hLast : base.Near last) :
    base.Near
      { last with
        cursor :=
          last.cursor.restore state.cursor.checkpoint } where
  context := hLast.context
  data := hLast.data
  inside := by
    have hData := hLast.data.trans hNear.data.symm
    have hInside := hNear.inside
    unfold Cursor.Inside at hInside ⊢
    rw [Cursor.data_restore, hData]
    exact hInside

end Near

end State

end ByteGrammar

------------------------------------------------------------
-- Actions That Settle
------------------------------------------------------------

namespace ByteGrammar

namespace Action

variable {α β : Type}

/- From a state, the action ends near `base`. -/
def SettlesAt
    (base state : State)
    (action : Action α) :
    Prop :=
  ∃ step, action state = some step ∧ base.Near step.state

/- The action ends near `base` from all states near it. -/
def Settles
    (base : State)
    (action : Action α) :
    Prop :=
  ∀ state, base.Near state → SettlesAt base state action

namespace SettlesAt

variable {base state : State}

theorem pure
    {value : α}
    (hNear : base.Near state) :
    SettlesAt base state (pure value) :=
  ⟨_, rfl, hNear⟩

theorem fail
    (hNear : base.Near state) :
    SettlesAt base state (fail : Action α) :=
  ⟨_, rfl, hNear⟩

theorem raise
    {fault : Fault}
    (hNear : base.Near state) :
    SettlesAt base state (raise fault : Action α) :=
  ⟨_, rfl, hNear⟩

theorem move
    {change : Cursor → Cursor}
    (hNear : base.Near state)
    (hLeads : state.cursor.Leads (change state.cursor)) :
    SettlesAt base state (move change) :=
  ⟨_, rfl, hNear.move hLeads⟩

/- After an operation that matches, it is up to what comes
  next. -/
theorem after
    {first : Action α}
    {next : α → Action β}
    {value : α}
    {middle : State}
    {events : List Event}
    (hFirst :
      first state = some ⟨.matched value, middle, events⟩)
    (hNext : SettlesAt base middle (next value)) :
    SettlesAt base state (bind first next) := by
  rcases hNext with ⟨step, hStep, hLast⟩
  refine ⟨{ step with events := events ++ step.events },
    ?_, hLast⟩
  rw [bind_of_matched hFirst, hStep]
  rfl

/- Where the next action settles after each match, so does
  the sequence. -/
theorem bind
    {first : Action α}
    {next : α → Action β}
    (hFirst : SettlesAt base state first)
    (hNext : ∀ value middle events,
      first state = some ⟨.matched value, middle, events⟩ →
        base.Near middle →
          SettlesAt base middle (next value)) :
    SettlesAt base state (Action.bind first next) := by
  rcases hFirst with ⟨step, hStep, hMiddle⟩
  rcases step with ⟨value | _ | fault, middle, events⟩
  · exact after hStep (hNext _ _ _ hStep hMiddle)
  · exact ⟨_, bind_of_failed hStep, hMiddle⟩
  · exact ⟨_, bind_of_fatal hStep, hMiddle⟩

theorem optionally
    {action : Action α}
    (hAction : SettlesAt base state action) :
    SettlesAt base state (optionally action) := by
  rcases hAction with ⟨step, hStep, hLast⟩
  rcases step with ⟨value | _ | fault, last, events⟩
  · refine ⟨⟨.matched (some value), last, events⟩, ?_,
      hLast⟩
    simp only [Action.optionally, hStep]
  · refine ⟨⟨.matched none, last, events⟩, ?_, hLast⟩
    simp only [Action.optionally, hStep]
  · refine ⟨⟨.fatal fault, last, events⟩, ?_, hLast⟩
    simp only [Action.optionally, hStep]

theorem attempt
    {action : Action α}
    (hNear : base.Near state)
    (hAction : SettlesAt base state action) :
    SettlesAt base state (attempt action) := by
  rcases hAction with ⟨step, hStep, hLast⟩
  rcases step with ⟨value | _ | fault, last, events⟩
  · refine ⟨⟨.matched value, last, events⟩, ?_, hLast⟩
    simp only [Action.attempt, hStep]
  · refine ⟨⟨.failed,
      { last with
        cursor :=
          last.cursor.restore state.cursor.checkpoint },
      events⟩, ?_, hNear.restore hLast⟩
    simp only [Action.attempt, hStep]
  · refine ⟨⟨.fatal fault, last, events⟩, ?_, hLast⟩
    simp only [Action.attempt, hStep]

theorem backtrack
    {before : State}
    (hBefore : base.Near before)
    (hNear : base.Near state) :
    SettlesAt base state
      (backtrack before.cursor.checkpoint : Action α) :=
  ⟨_, rfl, hBefore.restore hNear⟩

/- What goes back to a place near the base settles. -/
theorem orBacktrack
    {before : State}
    {action : Action α}
    (hBefore : base.Near before)
    (hAction : SettlesAt base state action) :
    SettlesAt base state
      (orBacktrack before.cursor.checkpoint action) := by
  rcases hAction with ⟨step, hStep, hLast⟩
  rcases step with ⟨value | _ | fault, last, events⟩
  · exact ⟨_, orBacktrack_of_matched hStep, hLast⟩
  · exact ⟨_, orBacktrack_of_failed hStep,
      hBefore.restore hLast⟩
  · exact ⟨_, orBacktrack_of_fatal hStep, hLast⟩

theorem bindReverting
    {first : Action α}
    {next : α → Action β}
    (hNear : base.Near state)
    (hFirst : SettlesAt base state first)
    (hNext : ∀ value middle events,
      first state = some ⟨.matched value, middle, events⟩ →
        base.Near middle →
          SettlesAt base middle (next value)) :
    SettlesAt base state
      (Action.bindReverting first next) := by
  unfold Action.bindReverting
  apply after rfl
  apply bind hFirst
  intro value middle events hStep hMiddle
  exact (hNext value middle events hStep
    hMiddle).orBacktrack hNear

theorem bracketed
    {node : Node}
    {label : String}
    {position : Nat}
    {action : Action α}
    (hAction : SettlesAt base state action) :
    SettlesAt base state
      (bracketed node label position action) := by
  rcases hAction with ⟨⟨outcome, last, events⟩, hStep,
    hLast⟩
  refine ⟨⟨outcome, last,
    .entered node label position :: events ++
      [.exited node label position outcome.isMatched]⟩,
    ?_, hLast⟩
  simp only [Action.bracketed, hStep]

/- A scope settles where its action settles in the changed
  context, if leaving undoes entering. -/
theorem within
    {enter : Context → Context}
    {leave : Context → Context → Context}
    {action : Action α}
    (hUndone : ∀ context,
      leave context (enter context) = context)
    (hNear : base.Near state)
    (hAction :
      Settles { base with context := enter base.context }
        action) :
    SettlesAt base state (within enter leave action) := by
  have hEntered :
      State.Near { base with context := enter base.context }
        { state with context := enter state.context } := by
    refine ⟨?_, hNear.data, hNear.inside⟩
    dsimp only
    rw [hNear.context]
  rcases hAction _ hEntered with
    ⟨⟨outcome, last, events⟩, hStep, hLast⟩
  refine ⟨⟨outcome,
    { last with
      context := leave state.context last.context },
    events⟩, ?_, ?_, hLast.data, hLast.inside⟩
  · simp only [Action.within, hStep]
  · have hContext : last.context = enter base.context :=
      hLast.context
    dsimp only
    rw [hContext, hNear.context, hUndone]

end SettlesAt

end Action

end ByteGrammar

------------------------------------------------------------
-- Loops
------------------------------------------------------------

namespace ByteGrammar

namespace Action

namespace SettlesAt

variable {σ β : Type}
variable {base : State}
variable {holds : σ → Cursor → Prop}
variable {meets : β → Cursor → Prop}
variable {watched pass : σ → Action (Pass σ β)}

/- A loop that may have more passes than bytes remain is
  done before it runs out of them. -/
theorem iterate
    (hTracks : TracksPass holds meets watched pass)
    (hPass : ∀ taken, Settles base (pass taken))
    (limit : Nat)
    {taken : σ}
    {state : State}
    (hNear : base.Near state)
    (hHolds : holds taken state.cursor)
    (hLimit : state.cursor.remaining.length < limit) :
    SettlesAt base state
      (Action.iterate pass limit taken) := by
  induction limit generalizing taken state with
  | zero => exact absurd hLimit (Nat.not_lt_zero _)
  | succ limit ih =>
      apply bind (hPass taken state hNear)
      intro result last events hStep hLast
      cases result with
      | done result => exact pure hLast
      | again next =>
          have hFollowed :=
            hTracks taken state hNear.inside hHolds
          have hMeets := hFollowed.matched _ _ _ hStep
          rcases hMeets with ⟨hMoved, hHolds'⟩
          apply ih hLast hHolds'
          -- The pass has moved, so fewer bytes remain.
          have hInside := hLast.inside
          unfold Cursor.Inside at hInside
          unfold Cursor.remaining at hLimit ⊢
          rw [List.length_drop] at hLimit ⊢
          rw [hNear.data] at hLimit
          rw [hLast.data] at hInside ⊢
          omega

theorem loop
    (start : σ)
    {state : State}
    (hTracks : TracksPass holds meets watched pass)
    (hPass : ∀ taken, Settles base (pass taken))
    (hNear : base.Near state)
    (hHolds : holds start state.cursor) :
    SettlesAt base state (Action.loop pass start) := by
  unfold Action.loop
  apply after rfl
  exact iterate hTracks hPass _ hNear hHolds
    (Nat.lt_succ_self _)

end SettlesAt

end Action

end ByteGrammar
