import ByteGrammar.Proofs.Engine.CursorCongruence

/-
  Relations between actions that hold through all nodes of a
  parser.

  Besides the operations on cursors, such a relation is kept
  by what looks at the context, by scopes that leave the
  options and the running rules alone, and by the calls of
  rules.

  Main declarations:
    * `Action.ScopeCongruence`
    * `Action.CursorCongruence.called`
    * `Action.ScopeCongruence.step`
-/

------------------------------------------------------------
-- Congruences
------------------------------------------------------------

namespace ByteGrammar

namespace Action

/- A relation that the operations on cursors keep, and those
  on contexts. -/
structure ScopeCongruence
    (alike : Cursor → Cursor → Prop)
    (related : ∀ {α : Type}, Action α → Action α → Prop) :
    Prop
    extends CursorCongruence alike related where
  consult : ∀ {α : Type} (view : Context → α),
    related (consult view) (consult view)
  inScope : ∀ {α : Type} {action action' : Action α}
    {enter : Context → Context}
    {leave : Context → Context → Context},
    (∀ context, leave context (enter context) = context) →
    (∀ context,
      (enter context).options = context.options) →
    (∀ context, (enter context).active = context.active) →
    related action action' →
    related (within enter leave action)
      (within enter leave action')
  unbound : ∀ (id : ParserId) (here : Nat),
    related (raise (.unbound id here) : Action Match)
      (raise (.unbound id here))
  called : ∀ {action action' : Action Match}
    (id : ParserId) (here : Nat),
    related action action' →
    related
      (bracketed (.rule id) "deferred" here
        (guarded id here action))
      (bracketed (.rule id) "deferred" here
        (guarded id here action'))

end Action

end ByteGrammar

------------------------------------------------------------
-- Calls of Rules
------------------------------------------------------------

namespace ByteGrammar

namespace Action

namespace CursorCongruence

variable {alike : Cursor → Cursor → Prop}
variable {related : ∀ {α : Type}, Action α → Action α → Prop}
variable {action action' : Action Match}

/- A relation that does not depend on what is running is
  kept by a call through the steps of the call. -/
theorem called
    (hRelated : CursorCongruence alike related)
    (hConsult : ∀ view : Context → Bool,
      related (Action.consult view) (Action.consult view))
    (hRefused : ∀ (id : ParserId) (here : Nat),
      related
        (Action.bind (report (.loopDetected id here))
          fun _ => (Action.fail : Action Match))
        (Action.bind (report (.loopDetected id here))
          fun _ => Action.fail))
    (hActivated : ∀ {action action' : Action Match}
      (id : ParserId) (here : Nat),
      related action action' →
      related
        (within (Context.activate id here)
          (fun _ => Context.deactivate id here) action)
        (within (Context.activate id here)
          (fun _ => Context.deactivate id here) action'))
    (hBracketed : ∀ {action action' : Action Match}
      (node : Node) (label : String) (here : Nat),
      related action action' →
      related (bracketed node label here action)
        (bracketed node label here action'))
    (id : ParserId)
    (here : Nat)
    (hAction : related action action') :
    related
      (bracketed (.rule id) "deferred" here
        (guarded id here action))
      (bracketed (.rule id) "deferred" here
        (guarded id here action')) := by
  apply hBracketed
  unfold guarded
  apply hRelated.bind (hConsult _)
  intro detects
  split
  · apply hRelated.bind (hConsult _)
    intro active
    split
    · exact hRefused id here
    · exact hActivated id here hAction
  · exact hAction

end CursorCongruence

end Action

end ByteGrammar

------------------------------------------------------------
-- Scopes and Rules
------------------------------------------------------------

namespace ByteGrammar

namespace Action

namespace ScopeCongruence

variable {alike : Cursor → Cursor → Prop}
variable {related : ∀ {α : Type}, Action α → Action α → Prop}
variable {action action' other other' : Action Match}
variable {run run' : Parser → Action Match}

theorem withWhitespace
    {α : Type}
    {action action' : Action α}
    (hRelated : ScopeCongruence alike related)
    (whitespace : Option Parser)
    (hAction : related action action') :
    related (Action.withWhitespace whitespace action)
      (Action.withWhitespace whitespace action') := by
  unfold Action.withWhitespace
  refine hRelated.inScope ?_ ?_ ?_ hAction
  · intro context
    exact context.installWhitespace_restored whitespace
  · intro context
    rfl
  · intro context
    rfl

theorem withFlag
    (hRelated : ScopeCongruence alike related)
    (name : String)
    (on : Bool)
    (hAction : related action action') :
    related (Action.withFlag name on action)
      (Action.withFlag name on action') := by
  unfold Action.withFlag
  refine hRelated.inScope ?_ ?_ ?_ hAction
  · intro context
    exact context.assignFlag_restored name on
  · intro context
    rfl
  · intro context
    rfl

theorem skipWhitespace
    (hRelated : ScopeCongruence alike related)
    (hLike : Cursor.Outlook alike)
    (hRun : ∀ parser, related (run parser) (run' parser)) :
    related (Action.skipWhitespace run)
      (Action.skipWhitespace run') := by
  unfold Action.skipWhitespace
  apply hRelated.bind (hRelated.consult _)
  intro whitespace
  cases whitespace with
  | some whitespace =>
      exact hRelated.bind
        (hRelated.optionally
          (hRelated.withWhitespace none (hRun whitespace)))
        fun _ => hRelated.pure ()
  | none =>
      apply hRelated.bind (hRelated.consult _)
      intro newlines
      split
      · exact hRelated.move (hLike.skipWhile _)
      · exact hRelated.move (hLike.skipWhile _)

theorem token
    (hRelated : ScopeCongruence alike related)
    (hLike : Cursor.Outlook alike)
    (hRun : ∀ parser, related (run parser) (run' parser))
    (parser : Parser) :
    related (Action.token run parser)
      (Action.token run' parser) := by
  unfold Action.token
  exact hRelated.attempt <|
    hRelated.bind (hRelated.skipWhitespace hLike hRun)
      fun _ => hRun parser

theorem select
    (hRelated : ScopeCongruence alike related)
    (condition : Condition)
    (hAction : related action action')
    (hOther : related other other') :
    related (Action.select condition action other)
      (Action.select condition action' other') := by
  unfold Action.select
  apply hRelated.bind (hRelated.consult _)
  intro holds
  split
  · exact hAction
  · exact hOther

theorem callRule
    (hRelated : ScopeCongruence alike related)
    (hLike : Cursor.Outlook alike)
    (rules : Rules)
    (hRun : ∀ parser, related (run parser) (run' parser))
    (handle : Handle) :
    related (Action.callRule rules run handle)
      (Action.callRule rules run' handle) := by
  unfold Action.callRule
  apply hRelated.bind (hRelated.position hLike)
  intro here
  cases rules.target? handle with
  | none => exact hRelated.unbound _ here
  | some target =>
      exact hRelated.called _ here (hRun target)

end ScopeCongruence

end Action

end ByteGrammar

------------------------------------------------------------
-- Nodes
------------------------------------------------------------

namespace ByteGrammar

namespace Action

namespace ScopeCongruence

variable {alike : Cursor → Cursor → Prop}
variable {related : ∀ {α : Type}, Action α → Action α → Prop}
variable {run run' : Parser → Action Match}

/- A node is related to itself where what it runs is. -/
theorem step
    (hRelated : ScopeCongruence alike related)
    (hLike : Cursor.Likeness alike)
    (rules : Rules)
    (hRun : ∀ parser, related (run parser) (run' parser))
    (parser : Parser) :
    related (parser.step rules run)
      (parser.step rules run') := by
  cases parser with
  | rule handle =>
      exact hRelated.callRule hLike.outlook rules hRun
        handle
  | token parser =>
      exact hRelated.token hLike.outlook hRun parser
  | withWhitespace whitespace parser =>
      exact hRelated.withWhitespace (some whitespace)
        (hRun parser)
  | defaultWhitespace parser =>
      exact hRelated.withWhitespace none (hRun parser)
  | withFlag name on parser =>
      exact hRelated.withFlag name on (hRun parser)
  | select condition whenTrue whenFalse =>
      exact hRelated.select condition (hRun whenTrue)
        (hRun whenFalse)
  | _ =>
      exact hRelated.toCursorCongruence.step hLike rules rfl
        fun part _ => hRun part

/- What holds of the actions of all nodes holds of parsers
  down to any depth. -/
theorem parser_run
    (hRelated : ScopeCongruence alike related)
    (hLike : Cursor.Likeness alike)
    (rules : Rules)
    (depth : Nat)
    (parser : Parser) :
    related (parser.run rules depth)
      (parser.run rules depth) := by
  induction depth generalizing parser with
  | zero => exact hRelated.exhausted
  | succ depth ih => exact hRelated.step hLike rules ih parser

end ScopeCongruence

end Action

end ByteGrammar
