import ByteGrammar.Proofs.Engine.ScopeCongruence

/-
  Relations between actions that every operation keeps.

  A relation that the primitive operations keep is kept by
  every combinator, and so by one node of a parser: where
  the parts of a parser are related, the parser is.

  Main declarations:
    * `Action.Congruence`
    * `Action.Congruence.scopeCongruence`
    * `Action.Congruence.step`
-/

------------------------------------------------------------
-- Congruences
------------------------------------------------------------

namespace ByteGrammar

namespace Action

/-
  A relation that the primitive operations keep. A scope
  keeps it if leaving undoes entering.
-/
structure Congruence
    (related : ∀ {α : Type}, Action α → Action α → Prop) :
    Prop where
  exhausted : ∀ {α : Type},
    related (exhausted : Action α) exhausted
  pure : ∀ {α : Type} (value : α),
    related (pure value) (pure value)
  bind : ∀ {α β : Type} {first first' : Action α}
    {next next' : α → Action β},
    related first first' →
    (∀ value, related (next value) (next' value)) →
    related (bind first next) (bind first' next')
  fail : ∀ {α : Type}, related (fail : Action α) fail
  raise : ∀ {α : Type} (fault : Fault),
    related (raise fault : Action α) (raise fault)
  report : ∀ event : Event,
    related (report event) (report event)
  optionally : ∀ {α : Type} {action action' : Action α},
    related action action' →
    related (optionally action) (optionally action')
  inspect : ∀ {α : Type} (view : Cursor → α),
    related (inspect view) (inspect view)
  move : ∀ change : Cursor → Cursor,
    related (move change) (move change)
  attempt : ∀ {α : Type} {action action' : Action α},
    related action action' →
    related (attempt action) (attempt action')
  consult : ∀ {α : Type} (view : Context → α),
    related (consult view) (consult view)
  within : ∀ {α : Type} {action action' : Action α}
    {enter : Context → Context}
    {leave : Context → Context → Context},
    (∀ context, leave context (enter context) = context) →
    related action action' →
    related (within enter leave action)
      (within enter leave action')
  bracketed : ∀ {α : Type} {action action' : Action α}
    (node : Node) (label : String) (position : Nat),
    related action action' →
    related (bracketed node label position action)
      (bracketed node label position action')

end Action

end ByteGrammar

------------------------------------------------------------
-- Nodes
------------------------------------------------------------

namespace ByteGrammar

namespace Action

namespace Congruence

variable {related : ∀ {α : Type}, Action α → Action α → Prop}
variable {run run' : Parser → Action Match}

/- The combinators are made of the primitive operations, run
  on the same cursors. -/
theorem cursorCongruence
    (hRelated : Congruence related) :
    CursorCongruence Eq related where
  exhausted := hRelated.exhausted
  pure := hRelated.pure
  bind := hRelated.bind
  fail := hRelated.fail
  optionally := hRelated.optionally
  attempt := hRelated.attempt
  inspect := by
    intro α view view' hView
    have hSame : view = view' :=
      funext fun cursor => hView rfl
    rw [hSame]
    exact hRelated.inspect view'
  move := by
    intro change change' hChange
    have hSame : change = change' :=
      funext fun cursor => hChange rfl
    rw [hSame]
    exact hRelated.move change'
  checkpoint := by
    intro α next next' hNext
    apply hRelated.bind (hRelated.inspect _)
    intro saved
    let cursor : Cursor := ⟨[], saved.position, saved.raw, 0⟩
    exact hNext (rfl : cursor = cursor)
  record := by
    intro α β view next next' start stop _ hNext
    exact hRelated.bind (hRelated.move _) fun _ =>
      hRelated.bind (hRelated.inspect view) hNext
  unread := by
    intro error
    exact hRelated.bind (hRelated.report _) fun _ =>
      hRelated.fail
  committed := by
    intro message here
    exact hRelated.bind (hRelated.report _) fun _ =>
      hRelated.raise _
  rejected := by
    intro message here
    exact hRelated.bind (hRelated.report _) fun _ =>
      hRelated.raise _
  labelled := by
    intro action action' id name here hAction
    exact hRelated.bracketed _ name here hAction

theorem scopeCongruence
    (hRelated : Congruence related) :
    ScopeCongruence Eq related where
  toCursorCongruence := hRelated.cursorCongruence
  consult := hRelated.consult
  inScope := by
    intro α action action' enter leave hUndone _ _ hAction
    exact hRelated.within hUndone hAction
  unbound := by
    intro id here
    exact hRelated.raise _
  called := by
    intro action action' id here hAction
    refine hRelated.cursorCongruence.called
      hRelated.consult ?_ ?_ hRelated.bracketed id here
      hAction
    · intro id here
      exact hRelated.bind (hRelated.report _) fun _ =>
        hRelated.fail
    · intro action action' id here hAction
      apply hRelated.within _ hAction
      intro context
      exact context.deactivate_activate id here

/- A node is related to itself where what it runs is. -/
theorem step
    (hRelated : Congruence related)
    (rules : Rules)
    (hRun : ∀ parser, related (run parser) (run' parser))
    (parser : Parser) :
    related (parser.step rules run)
      (parser.step rules run') :=
  hRelated.scopeCongruence.step Cursor.likeness_eq rules
    hRun parser

/- Where the relation is a property of single actions, a
  node has it if all that it runs has it. -/
theorem step_self
    (hRelated : Congruence related)
    (rules : Rules)
    (hRun : ∀ parser, related (run parser) (run parser))
    (parser : Parser) :
    related (parser.step rules run)
      (parser.step rules run) :=
  hRelated.step rules hRun parser

end Congruence

end Action

end ByteGrammar
