import ByteGrammar.Proofs.Cursor.Atomicity
import ByteGrammar.Proofs.Cursor.Leads

/-
  Actions that are followed from where they start.

  To follow an action is to know, however it ends, that the
  cursor leads there, to know what a match comes with, and
  to know that a fatal error is located between the start
  and what was reached. An action is followed together with
  a watched one, which does the same as long as the cursor
  is sound.

  Main declarations:
    * `Action.TracksFrom`
    * `Action.TracksFrom.bind`
    * `Action.TracksFrom.optionally_bind`
    * `Action.TracksPass`, `Action.TracksPass.loop`
-/

------------------------------------------------------------
-- Following an Action
------------------------------------------------------------

namespace ByteGrammar

namespace Action

variable {α β : Type}

/-
  The action on a state, as seen from a cursor that led
  there: `same` for a watched action, `leads` for all ends,
  `matched` and `fatal` for two of them.
-/
structure TracksFrom
    (base : Cursor)
    (state : State)
    (watched action : Action α)
    (meets : α → Cursor → Prop) :
    Prop where
  same : base.Sound → watched state = action state
  leads : ∀ step, action state = some step →
    base.Leads step.state.cursor
  matched : ∀ value last events,
    action state = some ⟨.matched value, last, events⟩ →
      meets value last.cursor
  fatal : ∀ fault last events,
    action state = some ⟨.fatal fault, last, events⟩ →
      base.position ≤ fault.position ∧
        fault.position ≤
          max base.position last.cursor.furthest

end Action

end ByteGrammar

------------------------------------------------------------
-- Single Operations
------------------------------------------------------------

namespace ByteGrammar

namespace Action

namespace TracksFrom

variable {α β : Type}
variable {base : Cursor} {state : State}
variable {meets : α → Cursor → Prop}

theorem exhausted :
    TracksFrom base state exhausted exhausted meets where
  same := fun _ => rfl
  leads := by
    intro step hStep
    cases hStep
  matched := by
    intro value last events hStep
    cases hStep
  fatal := by
    intro fault last events hStep
    cases hStep

theorem pure
    {value : α}
    (hLeads : base.Leads state.cursor)
    (hMeets : meets value state.cursor) :
    TracksFrom base state (pure value) (pure value)
      meets where
  same := fun _ => rfl
  leads := by
    intro step hStep
    cases hStep
    exact hLeads
  matched := by
    intro result last events hStep
    cases hStep
    exact hMeets
  fatal := by
    intro fault last events hStep
    cases hStep

theorem fail
    (hLeads : base.Leads state.cursor) :
    TracksFrom base state fail fail meets where
  same := fun _ => rfl
  leads := by
    intro step hStep
    cases hStep
    exact hLeads
  matched := by
    intro value last events hStep
    cases hStep
  fatal := by
    intro fault last events hStep
    cases hStep

theorem move
    {change : Cursor → Cursor}
    {meets : Unit → Cursor → Prop}
    (hLeads : base.Leads (change state.cursor))
    (hMeets : meets () (change state.cursor)) :
    TracksFrom base state (move change) (move change)
      meets where
  same := fun _ => rfl
  leads := by
    intro step hStep
    cases hStep
    exact hLeads
  matched := by
    intro result last events hStep
    cases hStep
    exact hMeets
  fatal := by
    intro fault last events hStep
    cases hStep

/- A fatal error is raised between the start and what was
  reached. -/
theorem raise
    {fault : Fault}
    (hLeads : base.Leads state.cursor)
    (hStart : base.position ≤ fault.position)
    (hReached :
      fault.position ≤
        max base.position state.cursor.furthest) :
    TracksFrom base state (raise fault) (raise fault)
      meets where
  same := fun _ => rfl
  leads := by
    intro step hStep
    cases hStep
    exact hLeads
  matched := by
    intro value last events hStep
    cases hStep
  fatal := by
    intro raised last events hStep
    cases hStep
    exact ⟨hStart, hReached⟩

/- An operation that matches is followed by following what
  comes next. -/
theorem after
    {first : Action β}
    {next next' : β → Action α}
    {value : β}
    {middle : State}
    {events : List Event}
    (hFirst :
      first state = some ⟨.matched value, middle, events⟩)
    (hNext :
      TracksFrom base middle (next value) (next' value)
        meets) :
    TracksFrom base state (Action.bind first next)
      (Action.bind first next') meets where
  same := by
    intro hSound
    rw [bind_of_matched hFirst, bind_of_matched hFirst,
      hNext.same hSound]
  leads := by
    intro step hStep
    cases bind_ends hStep with
    | matched hMatched hMore =>
        cases hFirst.symm.trans hMatched
        have hLeads := hNext.leads _ hMore
        exact hLeads
    | failed hFailed => cases hFirst.symm.trans hFailed
    | fatal hFatal => cases hFirst.symm.trans hFatal
  matched := by
    intro result last reported hStep
    cases bind_ends hStep with
    | matched hMatched hMore =>
        cases hFirst.symm.trans hMatched
        exact hNext.matched _ _ _ hMore
  fatal := by
    intro fault last reported hStep
    cases bind_ends hStep with
    | matched hMatched hMore =>
        cases hFirst.symm.trans hMatched
        exact hNext.fatal _ _ _ hMore
    | fatal hFatal => cases hFirst.symm.trans hFatal

end TracksFrom

end Action

end ByteGrammar

------------------------------------------------------------
-- Sequencing
------------------------------------------------------------

namespace ByteGrammar

namespace Action

namespace TracksFrom

variable {α β : Type}
variable {base : Cursor} {state : State}
variable {meets : α → Cursor → Prop}
variable {between : β → Cursor → Prop}

/- A cursor that led to the start may be looked from. -/
theorem rebase
    {watched action : Action α}
    (hLeads : base.Leads state.cursor)
    (hAction :
      TracksFrom state.cursor state watched action meets) :
    TracksFrom base state watched action meets where
  same := fun hSound => hAction.same (hLeads.sound hSound)
  leads := by
    intro step hStep
    exact hLeads.trans (hAction.leads step hStep)
  matched := hAction.matched
  fatal := by
    intro fault last events hStep
    have hLast := (hAction.leads _ hStep).kept
    have hForth := hLeads.forth
    have hReached := hLeads.reached
    rcases hAction.fatal _ _ _ hStep with ⟨hStart, hStop⟩
    dsimp only at hLast
    omega

/- What a match may come with can be weakened. -/
theorem weaken
    {meets' : α → Cursor → Prop}
    {watched action : Action α}
    (hAction : TracksFrom base state watched action meets)
    (hMeets : ∀ value cursor,
      base.Leads cursor → meets value cursor →
        meets' value cursor) :
    TracksFrom base state watched action meets' where
  same := hAction.same
  leads := hAction.leads
  matched := by
    intro value last events hStep
    have hLeads := hAction.leads _ hStep
    exact hMeets _ _ hLeads (hAction.matched _ _ _ hStep)
  fatal := hAction.fatal

/- After a match, the next action is followed from where the
  first one led to. -/
theorem bind
    {first first' : Action β}
    {next next' : β → Action α}
    (hLeads : base.Leads state.cursor)
    (hFirst :
      TracksFrom state.cursor state first first' between)
    (hNext : ∀ value last,
      state.cursor.Leads last.cursor →
        between value last.cursor →
          TracksFrom base last (next value) (next' value)
            meets) :
    TracksFrom base state (Action.bind first next)
      (Action.bind first' next') meets := by
  have hMore : ∀ value middle events,
      first' state = some ⟨.matched value, middle, events⟩ →
        TracksFrom base middle (next value) (next' value)
          meets := by
    intro value middle events hMatched
    have hMiddle := hFirst.leads _ hMatched
    have hBetween := hFirst.matched _ _ _ hMatched
    exact hNext value middle hMiddle hBetween
  have hStopped := hFirst.rebase hLeads
  constructor
  · intro hSound
    have hSame := hStopped.same hSound
    cases hStep : first' state with
    | none => simp only [Action.bind, hSame, hStep]
    | some step =>
        rcases step with ⟨value | _ | _, middle, events⟩
        · have hSame' := (hMore _ _ _ hStep).same hSound
          simp only [Action.bind, hSame, hStep, hSame']
        · simp only [Action.bind, hSame, hStep]
        · simp only [Action.bind, hSame, hStep]
  · intro step hStep
    cases bind_ends hStep with
    | matched hMatched hLast =>
        have hLeads' := (hMore _ _ _ hMatched).leads _ hLast
        exact hLeads'
    | failed hFailed => exact hStopped.leads _ hFailed
    | fatal hFatal => exact hStopped.leads _ hFatal
  · intro value last events hStep
    cases bind_ends hStep with
    | matched hMatched hLast =>
        exact (hMore _ _ _ hMatched).matched _ _ _ hLast
  · intro fault last events hStep
    cases bind_ends hStep with
    | matched hMatched hLast =>
        exact (hMore _ _ _ hMatched).fatal _ _ _ hLast
    | fatal hFatal => exact hStopped.fatal _ _ _ hFatal

end TracksFrom

end Action

end ByteGrammar

------------------------------------------------------------
-- Optional Actions, Attempts, Scopes and Brackets
------------------------------------------------------------

namespace ByteGrammar

namespace Action

namespace TracksFrom

variable {α β : Type}
variable {base : Cursor} {state : State}
variable {meets : α → Cursor → Prop}
variable {between : β → Cursor → Prop}

/- After an atomic action that failed, the cursor stands
  where the action was tried. -/
theorem optionally_bind
    {first first' : Action β}
    {next next' : Option β → Action α}
    (hLeads : base.Leads state.cursor)
    (hAtomic : Atomic first')
    (hFirst :
      TracksFrom state.cursor state first first' between)
    (hMatched : ∀ value last,
      state.cursor.Leads last.cursor →
        between value last.cursor →
          TracksFrom base last (next (some value))
            (next' (some value)) meets)
    (hFailed : ∀ last,
      state.cursor.Leads last.cursor →
        last.cursor.checkpoint = state.cursor.checkpoint →
          TracksFrom base last (next none) (next' none)
            meets) :
    TracksFrom base state
      (Action.bind (optionally first) next)
      (Action.bind (optionally first') next') meets := by
  have hOptional :
      TracksFrom state.cursor state (optionally first)
        (optionally first') fun found cursor =>
          found.elim
            (cursor.checkpoint = state.cursor.checkpoint)
            fun value => between value cursor := by
    constructor
    · intro hSound
      simp only [optionally, hFirst.same hSound]
    · intro step hStep
      cases optionally_ends hStep with
      | matched hAction => exact hFirst.leads _ hAction
      | failed hAction => exact hFirst.leads _ hAction
      | fatal hAction => exact hFirst.leads _ hAction
    · intro found last events hStep
      cases optionally_ends hStep with
      | matched hAction => exact hFirst.matched _ _ _ hAction
      | failed hAction => exact hAtomic _ _ _ hAction
    · intro fault last events hStep
      cases optionally_ends hStep with
      | fatal hAction => exact hFirst.fatal _ _ _ hAction
  apply bind hLeads hOptional
  intro found last hLast hFound
  cases found with
  | some value => exact hMatched value last hLast hFound
  | none => exact hFailed last hLast hFound

/- An attempt goes back to where it started. -/
theorem attempt
    {watched action : Action α}
    (hInside : state.cursor.Inside)
    (hAction :
      TracksFrom state.cursor state watched action meets) :
    TracksFrom state.cursor state (attempt watched)
      (attempt action) meets := by
  constructor
  · intro hSound
    simp only [Action.attempt, hAction.same hSound]
  · intro step hStep
    cases attempt_ends hStep with
    | matched hMatched => exact hAction.leads _ hMatched
    | failed hFailed =>
        exact (hAction.leads _ hFailed).back hInside
    | fatal hFatal => exact hAction.leads _ hFatal
  · intro value last events hStep
    cases attempt_ends hStep with
    | matched hMatched => exact hAction.matched _ _ _ hMatched
  · intro fault last events hStep
    cases attempt_ends hStep with
    | fatal hFatal => exact hAction.fatal _ _ _ hFatal

theorem backtrack
    (hInside : base.Inside)
    (hLeads : base.Leads state.cursor) :
    TracksFrom base state (backtrack base.checkpoint)
      (backtrack base.checkpoint) meets := by
  unfold Action.backtrack
  exact after rfl (fail (hLeads.back hInside))

/- What goes back to the base is seen from the base. -/
theorem orBacktrack
    {watched action : Action α}
    (hInside : base.Inside)
    (hAction : TracksFrom base state watched action meets) :
    TracksFrom base state
      (orBacktrack base.checkpoint watched)
      (orBacktrack base.checkpoint action) meets := by
  constructor
  · intro hSound
    simp only [Action.orBacktrack, Bind.bind, Action.bind,
      optionally, hAction.same hSound]
  · intro step hStep
    cases orBacktrack_ends hStep with
    | matched hMatched => exact hAction.leads _ hMatched
    | failed hFailed =>
        exact (hAction.leads _ hFailed).back hInside
    | fatal hFatal => exact hAction.leads _ hFatal
  · intro value last events hStep
    cases orBacktrack_ends hStep with
    | matched hMatched => exact hAction.matched _ _ _ hMatched
  · intro fault last events hStep
    cases orBacktrack_ends hStep with
    | fatal hFatal => exact hAction.fatal _ _ _ hFatal

/- What follows a match is seen from where the first action
  started, and goes back there. -/
theorem bindReverting
    {first first' : Action β}
    {next next' : β → Action α}
    (hInside : state.cursor.Inside)
    (hFirst :
      TracksFrom state.cursor state first first' between)
    (hNext : ∀ value last,
      state.cursor.Leads last.cursor →
        between value last.cursor →
          TracksFrom state.cursor last (next value)
            (next' value) meets) :
    TracksFrom state.cursor state
      (bindReverting first next)
      (bindReverting first' next') meets := by
  unfold Action.bindReverting
  apply after rfl
  apply bind (Cursor.Leads.refl hInside) hFirst
  intro value last hLast hBetween
  exact (hNext value last hLast hBetween).orBacktrack hInside

theorem within
    {enter : Context → Context}
    {leave : Context → Context → Context}
    {watched action : Action α}
    (hAction :
      TracksFrom base
        { state with context := enter state.context }
        watched action meets) :
    TracksFrom base state (within enter leave watched)
      (within enter leave action) meets := by
  constructor
  · intro hSound
    simp only [Action.within, hAction.same hSound]
  · intro step hStep
    cases within_ends hStep with
    | inner hInner =>
        have hLeads := hAction.leads _ hInner
        exact hLeads
  · intro value last events hStep
    cases within_ends hStep with
    | inner hInner =>
        have hMeets := hAction.matched _ _ _ hInner
        exact hMeets
  · intro fault last events hStep
    cases within_ends hStep with
    | inner hInner =>
        have hFault := hAction.fatal _ _ _ hInner
        exact hFault

theorem bracketed
    {watched action : Action α}
    (node : Node)
    (label : String)
    (position : Nat)
    (hAction : TracksFrom base state watched action meets) :
    TracksFrom base state
      (bracketed node label position watched)
      (bracketed node label position action) meets := by
  constructor
  · intro hSound
    simp only [Action.bracketed, hAction.same hSound]
  · intro step hStep
    cases bracketed_ends hStep with
    | inner hInner =>
        have hLeads := hAction.leads _ hInner
        exact hLeads
  · intro value last events hStep
    cases bracketed_ends hStep with
    | inner hInner => exact hAction.matched _ _ _ hInner
  · intro fault last events hStep
    cases bracketed_ends hStep with
    | inner hInner => exact hAction.fatal _ _ _ hInner

end TracksFrom

end Action

end ByteGrammar

------------------------------------------------------------
-- Loops
------------------------------------------------------------

namespace ByteGrammar

/-
  What a pass comes to, as seen from a cursor: a pass that
  goes on has moved and keeps what `holds`, and the last
  pass comes to what the loop is to meet.
-/
def Pass.Meets
    {σ β : Type}
    (before : Cursor)
    (holds : σ → Cursor → Prop)
    (meets : β → Cursor → Prop) :
    Pass σ β → Cursor → Prop
  | .again next, after =>
      before.position < after.position ∧ holds next after
  | .done result, after => meets result after

namespace Action

variable {σ β : Type}

/- From wherever a pass starts inside the buffer, in a state
  of the loop that `holds` there, it is followed to its
  end. -/
def TracksPass
    (holds : σ → Cursor → Prop)
    (meets : β → Cursor → Prop)
    (watched pass : σ → Action (Pass σ β)) :
    Prop :=
  ∀ taken state,
    state.cursor.Inside →
      holds taken state.cursor →
        TracksFrom state.cursor state (watched taken)
          (pass taken)
          (Pass.Meets state.cursor holds meets)

namespace TracksPass

variable {base : Cursor}
variable {holds : σ → Cursor → Prop}
variable {meets : β → Cursor → Prop}
variable {watched pass : σ → Action (Pass σ β)}

/- A loop is followed pass by pass. -/
theorem iterate
    (hPass : TracksPass holds meets watched pass)
    (limit : Nat)
    {taken : σ}
    {state : State}
    (hLeads : base.Leads state.cursor)
    (hHolds : holds taken state.cursor) :
    TracksFrom base state
      (Action.iterate watched limit taken)
      (Action.iterate pass limit taken) meets := by
  -- Each pass is seen from where it starts, the loop from
  -- the base.
  induction limit generalizing taken state with
  | zero => exact TracksFrom.exhausted
  | succ limit ih =>
      apply TracksFrom.bind hLeads
        (hPass taken state hLeads.last_inside hHolds)
      intro result last hLast hResult
      have hBase := hLeads.trans hLast
      cases result with
      | again next => exact ih hBase hResult.2
      | done result => exact TracksFrom.pure hBase hResult

theorem loop
    (hPass : TracksPass holds meets watched pass)
    {start : σ}
    {state : State}
    (hLeads : base.Leads state.cursor)
    (hHolds : holds start state.cursor) :
    TracksFrom base state (Action.loop watched start)
      (Action.loop pass start) meets := by
  unfold Action.loop
  apply TracksFrom.after rfl
  exact hPass.iterate _ hLeads hHolds

end TracksPass

end Action

end ByteGrammar
