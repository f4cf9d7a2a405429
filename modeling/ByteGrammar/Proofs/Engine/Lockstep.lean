import ByteGrammar.Proofs.Cursor.Landing

/-
  Actions in lockstep.

  Two actions are in lockstep on a state where both end or
  neither does, and where they end they leave one state and
  report the same events. What they match with may differ,
  but agrees in some way that may depend on the state that
  they leave.

  Main declarations:
    * `Action.Lockstep`, `Action.Lockstep.of_ensures`
    * `Action.Lockstep.bind`, `Action.Lockstep.optionally`
    * `Pass.Agree`, `Action.Lockstep.loop`
-/

------------------------------------------------------------
-- Ends in Lockstep
------------------------------------------------------------

namespace ByteGrammar

namespace Action

variable {α β γ δ : Type}

/- Both actions came to no end, or both came to one with the
  same state, the same events, and values that agree or the
  same fault. -/
inductive Lockstep
    (agree : α → β → State → Prop) :
    Option (Step α) → Option (Step β) → Prop where
  | none : Lockstep agree none none
  | matched {value : α} {value' : β} {last : State}
      (events : List Event)
      (hAgree : agree value value' last) :
      Lockstep agree (some ⟨.matched value, last, events⟩)
        (some ⟨.matched value', last, events⟩)
  | failed (last : State) (events : List Event) :
      Lockstep agree (some ⟨.failed, last, events⟩)
        (some ⟨.failed, last, events⟩)
  | fatal (fault : Fault) (last : State)
      (events : List Event) :
      Lockstep agree (some ⟨.fatal fault, last, events⟩)
        (some ⟨.fatal fault, last, events⟩)

namespace Lockstep

variable {agree : α → β → State → Prop}
variable {agree' : γ → δ → State → Prop}
variable {state : State}

/- An action is in lockstep with itself, and what it ensures
  holds on both sides. -/
theorem of_ensures
    {action : Action α}
    {meets : α → State → Prop}
    (hEnsures : Ensures action state meets) :
    Lockstep
      (fun value value' last =>
        value = value' ∧ meets value last)
      (action state) (action state) := by
  cases hStep : action state with
  | none => exact .none
  | some step =>
      rcases step with ⟨value | _ | fault, last, events⟩
      · have hMeets := hEnsures.matched _ _ _ hStep
        exact .matched events ⟨rfl, hMeets⟩
      · exact .failed last events
      · exact .fatal fault last events

theorem pure
    {value : α}
    {value' : β}
    (hAgree : agree value value' state) :
    Lockstep agree (pure value state)
      (Action.pure value' state) :=
  .matched [] hAgree

/- After values that agree, what comes next is in
  lockstep. -/
theorem bind
    {first : Action α}
    {first' : Action β}
    {next : α → Action γ}
    {next' : β → Action δ}
    (hFirst : Lockstep agree (first state) (first' state))
    (hNext : ∀ value value' middle,
      agree value value' middle →
        Lockstep agree' (next value middle)
          (next' value' middle)) :
    Lockstep agree' (bind first next state)
      (Action.bind first' next' state) := by
  unfold Action.bind
  generalize first state = ended at hFirst
  generalize first' state = ended' at hFirst
  cases hFirst with
  | none => exact .none
  | @matched value value' middle events hAgree =>
      have hMore := hNext value value' middle hAgree
      dsimp only
      generalize next value middle = more at hMore
      generalize next' value' middle = more' at hMore
      cases hMore with
      | none => exact .none
      | matched more hAgree' => exact .matched _ hAgree'
      | failed last more => exact .failed last _
      | fatal fault last more => exact .fatal fault last _
  | failed last events => exact .failed last events
  | fatal fault last events =>
      exact .fatal fault last events

/- An operation that matches comes first on both sides. -/
theorem after
    {first : Action α}
    {next : α → Action γ}
    {next' : α → Action δ}
    {value : α}
    {middle : State}
    {events : List Event}
    (hFirst :
      first state = some ⟨.matched value, middle, events⟩)
    (hNext :
      Lockstep agree' (next value middle)
        (next' value middle)) :
    Lockstep agree' (Action.bind first next state)
      (Action.bind first next' state) := by
  have hOnly :
      Ensures first state fun found last =>
        found = value ∧ last = middle := by
    constructor
    intro found last reported hStep
    cases hFirst.symm.trans hStep
    exact ⟨rfl, rfl⟩
  apply bind (of_ensures hOnly)
  rintro found _ last ⟨rfl, rfl, rfl⟩
  exact hNext

/- A match on one side is a match on the other. -/
theorem optionally
    {action : Action α}
    {action' : Action β}
    (hAction : Lockstep agree (action state) (action' state)) :
    Lockstep
      (fun value value' last =>
        Option.Rel (agree · · last) value value')
      (optionally action state)
      (Action.optionally action' state) := by
  unfold Action.optionally
  generalize action state = ended at hAction
  generalize action' state = ended' at hAction
  cases hAction with
  | none => exact .none
  | matched events hAgree =>
      exact .matched events (.some hAgree)
  | failed last events => exact .matched events .none
  | fatal fault last events =>
      exact .fatal fault last events

/- A failure on both sides is set back on both sides. -/
theorem attempt
    {action : Action α}
    {action' : Action β}
    (hAction : Lockstep agree (action state) (action' state)) :
    Lockstep agree (attempt action state)
      (Action.attempt action' state) := by
  unfold Action.attempt
  generalize action state = ended at hAction
  generalize action' state = ended' at hAction
  cases hAction with
  | none => exact .none
  | matched events hAgree => exact .matched events hAgree
  | failed last events => exact .failed _ events
  | fatal fault last events =>
      exact .fatal fault last events

/- Where values agree only if they are the same, so do the
  steps. -/
theorem eq
    {first second : Option (Step α)}
    (hSame :
      Lockstep (fun value value' _ => value = value') first
        second) :
    first = second := by
  cases hSame with
  | none => rfl
  | matched events hAgree => rw [hAgree]
  | failed last events => rfl
  | fatal fault last events => rfl

end Lockstep

end Action

end ByteGrammar

------------------------------------------------------------
-- Loops
------------------------------------------------------------

namespace ByteGrammar

/- Two passes that both go on, in states of their loops that
  belong together, or are both done. -/
def Pass.Agree
    {σ τ β γ : Type}
    (holds : σ → τ → State → Prop)
    (agree : β → γ → State → Prop) :
    Pass σ β → Pass τ γ → State → Prop
  | .again taken, .again taken', last =>
      holds taken taken' last
  | .done result, .done result', last =>
      agree result result' last
  | _, _, _ => False

namespace Action

namespace Lockstep

variable {σ τ β γ : Type}
variable {holds : σ → τ → State → Prop}
variable {agree : β → γ → State → Prop}
variable {pass : σ → Action (Pass σ β)}
variable {pass' : τ → Action (Pass τ γ)}

/- Loops go on together as long as their passes do. -/
theorem loop
    (hPass : ∀ taken taken' state,
      holds taken taken' state →
        Lockstep (Pass.Agree holds agree)
          (pass taken state) (pass' taken' state))
    {start : σ}
    {start' : τ}
    {state : State}
    (hStart : holds start start' state) :
    Lockstep agree (Action.loop pass start state)
      (Action.loop pass' start' state) := by
  have hIterate : ∀ limit taken taken' state,
      holds taken taken' state →
        Lockstep agree (iterate pass limit taken state)
          (iterate pass' limit taken' state) := by
    intro limit
    induction limit with
    | zero =>
        intro taken taken' state _
        exact .none
    | succ limit ih =>
        intro taken taken' state hHolds
        apply bind (hPass taken taken' state hHolds)
        intro result result' middle hAgree
        cases result with
        | again next =>
            cases result' with
            | again next' => exact ih _ _ _ hAgree
            | done result' => cases hAgree
        | done result =>
            cases result' with
            | again next' => cases hAgree
            | done result' => exact pure hAgree
  rw [loop_eq_iterate, loop_eq_iterate]
  exact hIterate _ _ _ _ hStart

end Lockstep

end Action

end ByteGrammar
