import ByteGrammar.Proofs.Engine.Ends
import ByteGrammar.Proofs.Engine.ScopeCongruence

/-
  Actions that do on one state what others do on another.

  One action simulates another where, on states that are
  alike, it ends as the other does, reports the same events
  and leaves states that are alike again. What a parser does
  depends on its cursor only through the buffer and the
  position.

  Main declarations:
    * `Action.Simulated`
    * `Action.simulated_cursorCongruence`
    * `Action.simulated_scopeCongruence`
    * `Parser.run_of_alike`
    * `Cursor.likeness_samePlace`
    * `Parser.run_of_samePlace`
-/

------------------------------------------------------------
-- Simulation
------------------------------------------------------------

namespace ByteGrammar

/- States whose cursors are alike and whose contexts
  belong together. -/
structure State.Alike
    (alike : Cursor → Cursor → Prop)
    (together : Context → Context → Prop)
    (state state' : State) :
    Prop where
  cursor : alike state.cursor state'.cursor
  context : together state.context state'.context

namespace Action

variable {α β : Type}

/- Where the first action ends, the second ends likewise on
  every state that is alike. -/
def Simulated
    (alike : Cursor → Cursor → Prop)
    (together : Context → Context → Prop)
    (action action' : Action α) :
    Prop :=
  ∀ state state', state.Alike alike together state' →
    ∀ outcome last events,
      action state = some ⟨outcome, last, events⟩ →
      ∃ last', action' state' = some ⟨outcome, last', events⟩ ∧
        last.Alike alike together last'

variable {alike : Cursor → Cursor → Prop}
variable {together : Context → Context → Prop}

/- An action that always ends with the same outcome where it
  starts, reporting the same events. -/
theorem Simulated.of_const
    {action action' : Action α}
    (outcome : Outcome α)
    (events : List Event)
    (hAction : ∀ state,
      action state = some ⟨outcome, state, events⟩)
    (hAction' : ∀ state,
      action' state = some ⟨outcome, state, events⟩) :
    Simulated alike together action action' := by
  intro state state' hAlike outcome last events hStep
  rw [hAction] at hStep
  cases hStep
  exact ⟨state', hAction' state', hAlike⟩

/- What both see in contexts that belong together. -/
theorem simulated_consult
    {view : Context → α}
    (hView : ∀ context context',
      together context context' →
        view context = view context') :
    Simulated alike together (consult view)
      (consult view) := by
  intro state state' hAlike outcome last events hStep
  cases hStep
  refine ⟨state', ?_, hAlike⟩
  unfold consult
  rw [hView _ _ hAlike.context]

/- After a match, what comes next has to be simulated for
  the values only that the first action may match with. -/
theorem Simulated.bind_of_holds
    {first first' : Action α}
    {next next' : α → Action β}
    {holds : α → Prop}
    (hFirst : Simulated alike together first first')
    (hHolds : ∀ {state state' : State},
      state.Alike alike together state' →
      ∀ {value : α} {last : State} {events : List Event},
        first state =
            some ⟨.matched value, last, events⟩ →
          holds value)
    (hNext : ∀ value, holds value →
      Simulated alike together (next value) (next' value)) :
    Simulated alike together (Action.bind first next)
      (Action.bind first' next') := by
  intro state state' hAlike outcome last events hStep
  cases bind_ends hStep with
  | matched hMatched hMore =>
      rcases hFirst _ _ hAlike _ _ _ hMatched with
        ⟨middle', hMatched', hMiddle⟩
      rcases hNext _ (hHolds hAlike hMatched) _ _ hMiddle
          _ _ _ hMore with
        ⟨last', hMore', hLast⟩
      refine ⟨last', ?_, hLast⟩
      rw [bind_of_matched hMatched', hMore']
      rfl
  | failed hFailed =>
      rcases hFirst _ _ hAlike _ _ _ hFailed with
        ⟨last', hFailed', hLast⟩
      exact ⟨last', bind_of_failed hFailed', hLast⟩
  | fatal hFatal =>
      rcases hFirst _ _ hAlike _ _ _ hFatal with
        ⟨last', hFatal', hLast⟩
      exact ⟨last', bind_of_fatal hFatal', hLast⟩

theorem Simulated.bind
    {first first' : Action α}
    {next next' : α → Action β}
    (hFirst : Simulated alike together first first')
    (hNext : ∀ value,
      Simulated alike together (next value) (next' value)) :
    Simulated alike together (Action.bind first next)
      (Action.bind first' next') :=
  hFirst.bind_of_holds (fun _ _ _ _ _ => trivial)
    fun value _ => hNext value

theorem Simulated.optionally
    {action action' : Action α}
    (hAction : Simulated alike together action action') :
    Simulated alike together (optionally action)
      (optionally action') := by
  intro state state' hAlike outcome last events hStep
  cases optionally_ends hStep with
  | matched hMatched =>
      rcases hAction _ _ hAlike _ _ _ hMatched with
        ⟨last', hMatched', hLast⟩
      exact ⟨last', optionally_of_matched hMatched', hLast⟩
  | failed hFailed =>
      rcases hAction _ _ hAlike _ _ _ hFailed with
        ⟨last', hFailed', hLast⟩
      exact ⟨last', optionally_of_failed hFailed', hLast⟩
  | fatal hFatal =>
      rcases hAction _ _ hAlike _ _ _ hFatal with
        ⟨last', hFatal', hLast⟩
      exact ⟨last', optionally_of_fatal hFatal', hLast⟩

theorem Simulated.attempt
    {action action' : Action α}
    (hLike : Cursor.Outlook alike)
    (hAction : Simulated alike together action action') :
    Simulated alike together (attempt action)
      (attempt action') := by
  intro state state' hAlike outcome last events hStep
  cases attempt_ends hStep with
  | matched hMatched =>
      rcases hAction _ _ hAlike _ _ _ hMatched with
        ⟨last', hMatched', hLast⟩
      exact ⟨last', attempt_of_matched hMatched', hLast⟩
  | failed hFailed =>
      rcases hAction _ _ hAlike _ _ _ hFailed with
        ⟨last', hFailed', hLast⟩
      refine ⟨_, attempt_of_failed hFailed', ?_,
        hLast.context⟩
      exact hLike.restore hAlike.cursor hLast.cursor
  | fatal hFatal =>
      rcases hAction _ _ hAlike _ _ _ hFatal with
        ⟨last', hFatal', hLast⟩
      exact ⟨last', attempt_of_fatal hFatal', hLast⟩

theorem Simulated.bracketed
    {action action' : Action α}
    (node : Node)
    (label : String)
    (here : Nat)
    (hAction : Simulated alike together action action') :
    Simulated alike together
      (bracketed node label here action)
      (bracketed node label here action') := by
  intro state state' hAlike outcome last events hStep
  cases bracketed_ends hStep with
  | inner hInner =>
      rcases hAction _ _ hAlike _ _ _ hInner with
        ⟨last', hInner', hLast⟩
      exact ⟨last', bracketed_of_inner hInner', hLast⟩

/- A scope keeps contexts together that it enters and leaves
  together. -/
theorem Simulated.within
    {action action' : Action α}
    {enter : Context → Context}
    {leave : Context → Context → Context}
    (hEnter : ∀ {context context' : Context},
      together context context' →
        together (enter context) (enter context'))
    (hLeave : ∀ {before before' context context' : Context},
      together before before' →
      together context context' →
        together (leave before context)
          (leave before' context'))
    (hAction : Simulated alike together action action') :
    Simulated alike together (within enter leave action)
      (within enter leave action') := by
  intro state state' hAlike outcome last events hStep
  cases within_ends hStep with
  | inner hInner =>
      rcases hAction
          { state with context := enter state.context }
          { state' with context := enter state'.context }
          ⟨hAlike.cursor, hEnter hAlike.context⟩
          _ _ _ hInner with
        ⟨last', hInner', hLast⟩
      exact ⟨_, within_of_inner hInner', hLast.cursor,
        hLeave hAlike.context hLast.context⟩

/- What comes after a look at the context may depend on what
  was seen there. -/
theorem Simulated.consult_bind
    {view : Context → α}
    {next next' : α → Action β}
    (hNext : ∀ {context context' : Context},
      together context context' →
        Simulated alike together (next (view context))
          (next' (view context'))) :
    Simulated alike together
      (Action.bind (consult view) next)
      (Action.bind (consult view) next') := by
  intro state state' hAlike outcome last events hStep
  rw [Action.consult_bind] at hStep ⊢
  exact hNext hAlike.context _ _ hAlike _ _ _ hStep

/- All operations on cursors that are alike simulate each
  other, whatever the contexts. -/
theorem simulated_cursorCongruence
    (hLike : Cursor.Outlook alike) :
    CursorCongruence alike (Simulated alike together) where
  exhausted := by
    intro α state state' _ outcome last events hStep
    cases hStep
  pure := by
    intro α value
    exact .of_const _ _ (fun _ => rfl) fun _ => rfl
  bind := Simulated.bind
  fail := .of_const _ _ (fun _ => rfl) fun _ => rfl
  optionally := Simulated.optionally
  attempt := Simulated.attempt hLike
  inspect := by
    intro α view view' hView state state' hAlike
      outcome last events hStep
    cases hStep
    refine ⟨state', ?_, hAlike⟩
    unfold inspect
    rw [hView hAlike.cursor]
  move := by
    intro change change' hChange state state' hAlike
      outcome last events hStep
    cases hStep
    exact ⟨_, rfl, hChange hAlike.cursor, hAlike.context⟩
  checkpoint := by
    intro α next next' hNext state state' hAlike
      outcome last events hStep
    rw [Action.checkpoint, inspect_bind] at hStep ⊢
    exact hNext hAlike.cursor _ _ hAlike _ _ _ hStep
  record := by
    intro α β view next next' start stop hView hNext
      state state' hAlike outcome last events hStep
    rw [move_bind, inspect_bind] at hStep ⊢
    dsimp only at hStep ⊢
    rw [← hView hAlike.cursor]
    have hMark := hLike.mark start stop hAlike.cursor
    exact hNext _
      ⟨state.cursor.mark start stop, state.context⟩
      ⟨state'.cursor.mark start stop, state'.context⟩
      ⟨hMark, hAlike.context⟩ _ _ _ hStep
  unread := by
    intro error
    exact .of_const _ _ (fun _ => rfl) fun _ => rfl
  committed := by
    intro message here
    exact .of_const _ _ (fun _ => rfl) fun _ => rfl
  rejected := by
    intro message here
    exact .of_const _ _ (fun _ => rfl) fun _ => rfl
  labelled := by
    intro action action' id name here hAction
    exact hAction.bracketed _ name here

end Action

end ByteGrammar

------------------------------------------------------------
-- Contexts That Are the Same
------------------------------------------------------------

namespace ByteGrammar

namespace Action

variable {alike : Cursor → Cursor → Prop}

theorem simulated_within_eq
    {α : Type}
    {action action' : Action α}
    (enter : Context → Context)
    (leave : Context → Context → Context)
    (hAction : Simulated alike Eq action action') :
    Simulated alike Eq (within enter leave action)
      (within enter leave action') := by
  apply hAction.within
  · rintro context _ rfl
    rfl
  · rintro before _ context _ rfl rfl
    rfl

/- In one context, all operations do the same on cursors that
  are alike. -/
theorem simulated_scopeCongruence
    (hLike : Cursor.Outlook alike) :
    ScopeCongruence alike (Simulated alike Eq) where
  toCursorCongruence := simulated_cursorCongruence hLike
  consult := by
    intro α view
    exact simulated_consult fun _ _ hSame =>
      congrArg view hSame
  inScope := by
    intro α action action' enter leave _ _ _ hAction
    exact simulated_within_eq enter leave hAction
  unbound := by
    intro id here
    exact .of_const _ _ (fun _ => rfl) fun _ => rfl
  called := by
    intro action action' id here hAction
    apply CursorCongruence.called
      (simulated_cursorCongruence hLike)
    · intro view
      exact simulated_consult fun _ _ hSame =>
        congrArg view hSame
    · intro id here
      exact .of_const _ _ (fun _ => rfl) fun _ => rfl
    · intro action action' id here hAction
      exact simulated_within_eq _ _ hAction
    · intro action action' node label here hAction
      exact hAction.bracketed node label here
    · exact hAction

end Action

namespace Parser

open ByteGrammar.Action

/- In one context, a parser does the same on cursors that are
  alike. -/
theorem run_of_alike
    {alike : Cursor → Cursor → Prop}
    {rules : Rules}
    {depth : Nat}
    {parser : Parser}
    {cursor cursor' : Cursor}
    {context : Context}
    {outcome : Outcome Match}
    {last : State}
    {events : List Event}
    (hLike : Cursor.Likeness alike)
    (hAlike : alike cursor cursor')
    (hRun :
      parser.run rules depth ⟨cursor, context⟩ =
        some ⟨outcome, last, events⟩) :
    ∃ last', parser.run rules depth ⟨cursor', context⟩ =
        some ⟨outcome, last', events⟩ ∧
      last.Alike alike Eq last' := by
  have hSimulated :=
    (simulated_scopeCongruence hLike.outlook).parser_run
      hLike rules depth parser
  exact hSimulated ⟨cursor, context⟩ ⟨cursor', context⟩
    ⟨hAlike, rfl⟩ _ _ _ hRun

end Parser

end ByteGrammar

------------------------------------------------------------
-- Places
------------------------------------------------------------

namespace ByteGrammar

namespace Cursor

theorem likeness_samePlace :
    Likeness SamePlace where
  data := SamePlace.data
  position := SamePlace.position
  advance := by
    intro cursor cursor' count hSame
    refine ⟨hSame.data, ?_⟩
    simp only [Cursor.advance, hSame.data, hSame.position]
  mark := by
    intro cursor cursor' start stop hSame
    exact ⟨hSame.data, hSame.position⟩
  restore := by
    intro before before' after after' hBefore hAfter
    exact ⟨hAfter.data, hBefore.position⟩

end Cursor

namespace Parser

/- A parse does the same from the same place: what it
  recorded and reached before does not matter. -/
theorem run_of_samePlace
    {rules : Rules}
    {depth : Nat}
    {parser : Parser}
    {cursor cursor' : Cursor}
    {context : Context}
    {outcome : Outcome Match}
    {last : State}
    {events : List Event}
    (hPlace : cursor.SamePlace cursor')
    (hRun :
      parser.run rules depth ⟨cursor, context⟩ =
        some ⟨outcome, last, events⟩) :
    ∃ last', parser.run rules depth ⟨cursor', context⟩ =
        some ⟨outcome, last', events⟩ ∧
      last.Alike Cursor.SamePlace Eq last' :=
  run_of_alike Cursor.likeness_samePlace hPlace hRun

end Parser

end ByteGrammar
