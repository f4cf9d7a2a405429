import ByteGrammar.Proofs.Engine.Ends

/-
  How repetitions end.

  A repetition collects values in passes. What it yields is
  what the loop of its passes collected; with too few, it
  goes back, unless it collected nothing at all and has no
  upper bound. Then its part has failed at once, and the
  cursor is where the part left it.

  Main declarations:
    * `Action.Full`
    * `Action.CollectPassEnds`, `Action.collectPass_ends`
    * `Action.failed_of_collected_nothing`
    * `Action.repeated_of_few`, `Action.repeated_of_nothing`
-/

------------------------------------------------------------
-- One Pass of a Repetition
------------------------------------------------------------

namespace ByteGrammar

namespace Action

variable {max : Option Nat}
variable {action : Action Match}
variable {values : List Value}
variable {state last : State}
variable {found : Match}
variable {events : List Event}

/- There is no room for more than the values taken. -/
def Full
    (max : Option Nat)
    (values : List Value) :
    Prop :=
  (max.any fun max => max ≤ values.length) = true

theorem full_iff
    (hRoom : ∀ bound ∈ max, values.length ≤ bound) :
    Full max values ↔ max = some values.length := by
  cases max with
  | none => simp [Full]
  | some bound =>
      have hBound := hRoom bound rfl
      simp only [Full, Option.any_some, decide_eq_true_iff,
        Option.some.injEq]
      omega

theorem collectPass_of_full
    (hFull : Full max values) :
    collectPass max action values =
      Pure.pure (.done values) :=
  if_pos hFull

/- Where there is room, the bound does not matter. -/
theorem collectPass_of_open
    (hOpen : ¬ Full max values) :
    collectPass max action values =
      collectPass none action values :=
  (if_neg hOpen).trans (if_neg Bool.false_ne_true).symm

theorem collectPass_of_none
    (hOpen : ¬ Full max values)
    (hAction : action state = none) :
    collectPass max action values state = none := by
  rw [collectPass_of_open hOpen]
  simp [collectPass, Bind.bind, bind, position, inspect,
    optionally, hAction]

theorem collectPass_of_failed
    (hOpen : ¬ Full max values)
    (hAction :
      action state = some ⟨.failed, last, events⟩) :
    collectPass max action values state =
      some ⟨.matched (.done values), last, events⟩ := by
  rw [collectPass_of_open hOpen]
  simp [collectPass, Bind.bind, bind, position, inspect,
    optionally, hAction, Pure.pure, pure]

theorem collectPass_of_still
    (hOpen : ¬ Full max values)
    (hAction :
      action state = some ⟨.matched found, last, events⟩)
    (hStill : found.stop = state.cursor.position) :
    collectPass max action values state =
      some ⟨.matched (.done (values ++ [found.value])), last,
        events⟩ := by
  rw [collectPass_of_open hOpen]
  simp [collectPass, Bind.bind, bind, position, inspect,
    optionally, hAction, hStill, Pure.pure, pure]

theorem collectPass_of_moved
    (hOpen : ¬ Full max values)
    (hAction :
      action state = some ⟨.matched found, last, events⟩)
    (hMoved : found.stop ≠ state.cursor.position) :
    collectPass max action values state =
      some ⟨.matched (.again (values ++ [found.value])), last,
        events⟩ := by
  rw [collectPass_of_open hOpen]
  simp [collectPass, Bind.bind, bind, position, inspect,
    optionally, hAction, hMoved, Pure.pure, pure]

theorem collectPass_of_fatal
    {fault : Fault}
    (hOpen : ¬ Full max values)
    (hAction :
      action state = some ⟨.fatal fault, last, events⟩) :
    collectPass max action values state =
      some ⟨.fatal fault, last, events⟩ := by
  rw [collectPass_of_open hOpen]
  simp [collectPass, Bind.bind, bind, position, inspect,
    optionally, hAction]

/- The ways in which a pass of a repetition can end. -/
inductive CollectPassEnds
    (max : Option Nat)
    (action : Action Match)
    (values : List Value)
    (state : State) :
    Step (Pass (List Value) (List Value)) → Prop where
  | full
      (hFull : Full max values) :
      CollectPassEnds max action values state
        ⟨.matched (.done values), state, []⟩
  | failed {last : State} {events : List Event}
      (hOpen : ¬ Full max values)
      (hAction :
        action state = some ⟨.failed, last, events⟩) :
      CollectPassEnds max action values state
        ⟨.matched (.done values), last, events⟩
  | still {found : Match} {last : State}
      {events : List Event}
      (hOpen : ¬ Full max values)
      (hAction :
        action state = some ⟨.matched found, last, events⟩)
      (hStill : found.stop = state.cursor.position) :
      CollectPassEnds max action values state
        ⟨.matched (.done (values ++ [found.value])), last,
          events⟩
  | moved {found : Match} {last : State}
      {events : List Event}
      (hOpen : ¬ Full max values)
      (hAction :
        action state = some ⟨.matched found, last, events⟩)
      (hMoved : found.stop ≠ state.cursor.position) :
      CollectPassEnds max action values state
        ⟨.matched (.again (values ++ [found.value])), last,
          events⟩
  | fatal {fault : Fault} {last : State}
      {events : List Event}
      (hOpen : ¬ Full max values)
      (hAction :
        action state = some ⟨.fatal fault, last, events⟩) :
      CollectPassEnds max action values state
        ⟨.fatal fault, last, events⟩

/- A pass ends in no other way. -/
theorem collectPass_ends
    {step : Step (Pass (List Value) (List Value))}
    (hStep :
      collectPass max action values state = some step) :
    CollectPassEnds max action values state step := by
  by_cases hFull : Full max values
  · rw [collectPass_of_full hFull] at hStep
    cases hStep
    exact .full hFull
  · cases hAction : action state with
    | none =>
        rw [collectPass_of_none hFull hAction] at hStep
        cases hStep
    | some inner =>
        rcases inner with
          ⟨found | _ | fault, last, events⟩
        · by_cases hStill :
              found.stop = state.cursor.position
          · rw [collectPass_of_still hFull hAction hStill]
              at hStep
            cases hStep
            exact .still hFull hAction hStill
          · rw [collectPass_of_moved hFull hAction hStill]
              at hStep
            cases hStep
            exact .moved hFull hAction hStill
        · rw [collectPass_of_failed hFull hAction] at hStep
          cases hStep
          exact .failed hFull hAction
        · rw [collectPass_of_fatal hFull hAction] at hStep
          cases hStep
          exact .fatal hFull hAction

end Action

end ByteGrammar

------------------------------------------------------------
-- Collecting Nothing
------------------------------------------------------------

namespace ByteGrammar

namespace Action

variable {max : Option Nat}
variable {action : Action Match}
variable {values : List Value}
variable {state last : State}
variable {events : List Event}

/- What was collected is not given up. -/
theorem collected_ne_nil
    {limit : Nat}
    {taken : List Value}
    (hTaken : taken ≠ [])
    (hIterate :
      iterate (collectPass max action) limit taken state =
        some ⟨.matched values, last, events⟩) :
    values ≠ [] := by
  induction limit generalizing taken state events with
  | zero => cases hIterate
  | succ limit ih =>
      have hMore : ∀ value, taken ++ [value] ≠ [] :=
        fun value => List.append_ne_nil_of_left_ne_nil
          hTaken [value]
      cases bind_ends hIterate with
      | matched hPass hRest =>
          cases collectPass_ends hPass with
          | full =>
              cases hRest
              exact hTaken
          | failed =>
              cases hRest
              exact hTaken
          | still =>
              cases hRest
              exact hMore _
          | moved => exact ih (hMore _) hRest

/- Without an upper bound, nothing is collected only where
  the part fails at once. -/
theorem failed_of_collected_nothing
    (hLoop :
      loop (collectPass none action) [] state =
        some ⟨.matched [], last, events⟩) :
    action state = some ⟨.failed, last, events⟩ := by
  rw [loop_eq_iterate] at hLoop
  cases bind_ends hLoop with
  | matched hPass hRest =>
      cases collectPass_ends hPass with
      | full hFull => cases hFull
      | failed _ hAction =>
          cases hRest
          rw [List.append_nil]
          exact hAction
      | still => cases hRest
      | moved =>
          exact absurd rfl
            (collected_ne_nil (List.cons_ne_nil _ _) hRest)

end Action

end ByteGrammar

------------------------------------------------------------
-- Repetitions
------------------------------------------------------------

namespace ByteGrammar

namespace Action

variable {min : Nat} {max : Option Nat}
variable {action : Action Match}
variable {values : List Value}
variable {state last : State}
variable {events : List Event}

theorem repeated_of_enough
    (hLoop :
      loop (collectPass max action) [] state =
        some ⟨.matched values, last, events⟩)
    (hEnough : min ≤ values.length) :
    repeated min max action state =
      some ⟨.matched ⟨state.cursor.position,
          last.cursor.position, .list values⟩,
        last, events⟩ := by
  simp [repeated, Bind.bind, bind, position, checkpoint,
    Cursor.checkpoint, inspect, hLoop,
    Nat.not_lt.mpr hEnough, Pure.pure, pure]

/- Too little is given back. -/
theorem repeated_of_few
    (hLoop :
      loop (collectPass max action) [] state =
        some ⟨.matched values, last, events⟩)
    (hFew : values.length < min)
    (hSome : (values.isEmpty && max.isNone) = false) :
    repeated min max action state =
      some ⟨.failed, last.backTo state, events⟩ := by
  simp [repeated, Bind.bind, bind, position, checkpoint,
    inspect, hLoop, hFew, hSome, backtrack, restore, move,
    fail, State.backTo]

/- Nothing is not given back, but left to the part. -/
theorem repeated_of_nothing
    (hLoop :
      loop (collectPass none action) [] state =
        some ⟨.matched [], last, events⟩)
    (hFew : 0 < min) :
    repeated min none action state =
      some ⟨.failed, last, events⟩ := by
  simp [repeated, Bind.bind, bind, position, checkpoint,
    inspect, hLoop, hFew, fail]

theorem repeated_of_fatal
    {fault : Fault}
    (hLoop :
      loop (collectPass max action) [] state =
        some ⟨.fatal fault, last, events⟩) :
    repeated min max action state =
      some ⟨.fatal fault, last, events⟩ := by
  simp [repeated, Bind.bind, bind, checkpoint, inspect,
    hLoop]

theorem repeated_of_none
    (hLoop :
      loop (collectPass max action) [] state = none) :
    repeated min max action state = none := by
  simp [repeated, Bind.bind, bind, checkpoint, inspect,
    hLoop]

end Action

end ByteGrammar
