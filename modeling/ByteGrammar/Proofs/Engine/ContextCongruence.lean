import ByteGrammar.Proofs.Engine.Reach
import ByteGrammar.Proofs.Engine.Simulation

/-
  Relations between actions that hold through the parsers of
  a grammar that ask of the context only in what two
  contexts agree.

  Main declarations:
    * `Context.Concord`, `Context.Guards`
    * `Action.ContextCongruence`
    * `Action.ContextCongruence.parser_run`
    * `Action.simulated_contextCongruence`
-/

------------------------------------------------------------
-- Contexts That Belong Together
------------------------------------------------------------

namespace ByteGrammar

namespace Context

/- Contexts that belong together agree in all that admitted
  parsers ask of them, and still belong together after each
  change that admitted parsers make. -/
structure Concord
    (admitted : Parser → Prop)
    (together : Context → Context → Prop) :
    Prop where
  holds : ∀ {condition : Condition}
    {whenTrue whenFalse : Parser} {context context' : Context},
    admitted (.select condition whenTrue whenFalse) →
    together context context' →
      condition.holds context = condition.holds context'
  assigned : ∀ {name : String} {on : Bool} {part : Parser}
    {context context' : Context},
    admitted (.withFlag name on part) →
    together context context' →
      context.hasFlag name = context'.hasFlag name ∧
        ∀ on, together (context.assignFlag name on)
          (context'.assignFlag name on)
  installed : ∀ {whitespace part : Parser}
    {context context' : Context},
    admitted (.withWhitespace whitespace part) →
    together context context' →
      together
        (context.installWhitespace (some whitespace))
        (context'.installWhitespace (some whitespace))
  removed : ∀ {context context' : Context},
    together context context' →
      together (context.installWhitespace none)
        (context'.installWhitespace none)
  replaced : ∀ {before before' context context' : Context},
    together before before' →
    together context context' →
      together (context.installWhitespace before.whitespace)
        (context'.installWhitespace before'.whitespace)
  skipped : ∀ {part : Parser} {context context' : Context},
    admitted (.token part) →
    together context context' →
      context.whitespace = context'.whitespace ∧
        context.options.skipNewlines =
          context'.options.skipNewlines ∧
        ∀ whitespace,
          context.whitespace = some whitespace →
            admitted whitespace

/- One whitespace parser is installed, which is admitted, or
  none is. -/
structure SameWhitespace
    (admitted : Parser → Prop)
    (context context' : Context) :
    Prop where
  same : context.whitespace = context'.whitespace
  admitted : ∀ whitespace,
    context.whitespace = some whitespace →
      admitted whitespace

namespace SameWhitespace

variable {admitted : Parser → Prop}
variable {before before' context context' : Context}

theorem refl
    (hInstalled : ∀ whitespace,
      context.whitespace = some whitespace →
        admitted whitespace) :
    SameWhitespace admitted context context :=
  ⟨rfl, hInstalled⟩

theorem symm
    (hSame : SameWhitespace admitted context context') :
    SameWhitespace admitted context' context where
  same := hSame.same.symm
  admitted := by
    rw [← hSame.same]
    exact hSame.admitted

theorem install
    {whitespace : Parser}
    (hWhitespace : admitted whitespace) :
    SameWhitespace admitted
      (context.installWhitespace (some whitespace))
      (context'.installWhitespace (some whitespace)) where
  same := rfl
  admitted := by
    rintro _ ⟨⟩
    exact hWhitespace

theorem remove :
    SameWhitespace admitted
      (context.installWhitespace none)
      (context'.installWhitespace none) where
  same := rfl
  admitted := by
    rintro _ ⟨⟩

theorem replace
    (hBefore : SameWhitespace admitted before before') :
    SameWhitespace admitted
      (context.installWhitespace before.whitespace)
      (context'.installWhitespace before'.whitespace) :=
  ⟨hBefore.same, hBefore.admitted⟩

end SameWhitespace

end Context

end ByteGrammar

------------------------------------------------------------
-- Congruences
------------------------------------------------------------

namespace ByteGrammar

namespace Action

/- A relation that the operations on cursors keep, and those
  on contexts as far as they keep contexts together. -/
structure ContextCongruence
    (alike : Cursor → Cursor → Prop)
    (together : Context → Context → Prop)
    (related : ∀ {α : Type}, Action α → Action α → Prop) :
    Prop
    extends CursorCongruence alike related where
  consult : ∀ {α β : Type} {view : Context → α}
    {next next' : α → Action β},
    (∀ {context context' : Context},
      together context context' →
        related (next (view context))
          (next' (view context'))) →
    related (Action.bind (Action.consult view) next)
      (Action.bind (Action.consult view) next')
  within : ∀ {α : Type} {action action' : Action α}
    {enter : Context → Context}
    {leave : Context → Context → Context},
    (∀ {context context' : Context},
      together context context' →
        together (enter context) (enter context')) →
    (∀ {before before' context context' : Context},
      together before before' →
      together context context' →
        together (leave before context)
          (leave before' context')) →
    related action action' →
    related (within enter leave action)
      (within enter leave action')
  unbound : ∀ (id : ParserId) (here : Nat),
    related (raise (.unbound id here) : Action Match)
      (raise (.unbound id here))
  called : ∀ {action action' : Action Match}
    (id : ParserId) (here : Nat),
    related action action' →
    related
      (bracketed (.rule id) "deferred" here
        (guarded id here action))
      (bracketed (.rule id) "deferred" here
        (guarded id here action'))

end Action

end ByteGrammar

------------------------------------------------------------
-- Scopes, Whitespace and Rules
------------------------------------------------------------

namespace ByteGrammar

namespace Action

namespace ContextCongruence

variable {alike : Cursor → Cursor → Prop}
variable {together : Context → Context → Prop}
variable {related : ∀ {α : Type}, Action α → Action α → Prop}
variable {admitted : Parser → Prop}
variable {action action' other other' : Action Match}
variable {run run' : Parser → Action Match}

/- What an admitted scope installs is taken back. -/
theorem withWhitespace
    {whitespace part : Parser}
    (hRelated : ContextCongruence alike together related)
    (hConcord : Context.Concord admitted together)
    (hAdmitted :
      admitted (.withWhitespace whitespace part))
    (hAction : related action action') :
    related (Action.withWhitespace (some whitespace) action)
      (Action.withWhitespace (some whitespace) action') := by
  unfold Action.withWhitespace
  exact hRelated.within (hConcord.installed hAdmitted)
    hConcord.replaced hAction

theorem withoutWhitespace
    (hRelated : ContextCongruence alike together related)
    (hConcord : Context.Concord admitted together)
    (hAction : related action action') :
    related (Action.withWhitespace none action)
      (Action.withWhitespace none action') := by
  unfold Action.withWhitespace
  exact hRelated.within hConcord.removed hConcord.replaced
    hAction

/- A flag is given back the state that both contexts agree
  on. -/
theorem withFlag
    {name : String}
    {on : Bool}
    {part : Parser}
    (hRelated : ContextCongruence alike together related)
    (hConcord : Context.Concord admitted together)
    (hAdmitted : admitted (.withFlag name on part))
    (hAction : related action action') :
    related (Action.withFlag name on action)
      (Action.withFlag name on action') := by
  unfold Action.withFlag
  refine hRelated.within ?_ ?_ hAction
  · intro context context' hTogether
    exact (hConcord.assigned hAdmitted hTogether).2 on
  · intro before before' context context' hBefore hTogether
    rw [(hConcord.assigned hAdmitted hBefore).1]
    exact (hConcord.assigned hAdmitted hTogether).2 _

theorem select
    {condition : Condition}
    {whenTrue whenFalse : Parser}
    (hRelated : ContextCongruence alike together related)
    (hConcord : Context.Concord admitted together)
    (hAdmitted :
      admitted (.select condition whenTrue whenFalse))
    (hAction : related action action')
    (hOther : related other other') :
    related (Action.select condition action other)
      (Action.select condition action' other') := by
  unfold Action.select
  apply hRelated.consult
  intro context context' hTogether
  rw [← hConcord.holds hAdmitted hTogether]
  split
  · exact hAction
  · exact hOther

/- The installed whitespace parser is admitted, so skipping
  is related where admitted parsers are. -/
theorem skipWhitespace
    {part : Parser}
    (hRelated : ContextCongruence alike together related)
    (hLike : Cursor.Outlook alike)
    (hConcord : Context.Concord admitted together)
    (hAdmitted : admitted (.token part))
    (hRun : ∀ parser, admitted parser →
      related (run parser) (run' parser)) :
    related (Action.skipWhitespace run)
      (Action.skipWhitespace run') := by
  unfold Action.skipWhitespace
  apply hRelated.consult
  intro context context' hTogether
  rcases hConcord.skipped hAdmitted hTogether with
    ⟨hSame, -, hInstalled⟩
  rw [← hSame]
  cases hWhitespace : context.whitespace with
  | some whitespace =>
      have hWhitespaceRun :=
        hRun whitespace (hInstalled whitespace hWhitespace)
      exact hRelated.bind
        (hRelated.optionally
          (hRelated.withoutWhitespace hConcord
            hWhitespaceRun))
        fun _ => hRelated.pure ()
  | none =>
      apply hRelated.consult
      intro context context' hTogether
      rw [← (hConcord.skipped hAdmitted hTogether).2.1]
      split
      · exact hRelated.move (hLike.skipWhile _)
      · exact hRelated.move (hLike.skipWhile _)

theorem token
    {part : Parser}
    (hRelated : ContextCongruence alike together related)
    (hLike : Cursor.Outlook alike)
    (hConcord : Context.Concord admitted together)
    (hAdmitted : admitted (.token part))
    (hRun : ∀ parser, admitted parser →
      related (run parser) (run' parser))
    (hPart : related (run part) (run' part)) :
    related (Action.token run part)
      (Action.token run' part) := by
  unfold Action.token
  exact hRelated.attempt <|
    hRelated.bind
      (hRelated.skipWhitespace hLike hConcord hAdmitted
        hRun)
      fun _ => hPart

theorem callRule
    (hRelated : ContextCongruence alike together related)
    (hLike : Cursor.Outlook alike)
    (rules : Rules)
    (handle : Handle)
    (hTarget : ∀ target,
      rules.target? handle = some target →
      related (run target) (run' target)) :
    related (Action.callRule rules run handle)
      (Action.callRule rules run' handle) := by
  unfold Action.callRule
  apply hRelated.bind (hRelated.position hLike)
  intro here
  cases hBound : rules.target? handle with
  | none => exact hRelated.unbound _ here
  | some target =>
      exact hRelated.called _ here (hTarget target hBound)

end ContextCongruence

end Action

end ByteGrammar

------------------------------------------------------------
-- Parsers
------------------------------------------------------------

namespace ByteGrammar

namespace Action

namespace ContextCongruence

variable {alike : Cursor → Cursor → Prop}
variable {together : Context → Context → Prop}
variable {related : ∀ {α : Type}, Action α → Action α → Prop}
variable {rules : Rules}
variable {admitted : Parser → Prop}

/- What holds of the actions of admitted nodes holds of
  admitted parsers down to any depth. What they read of the
  bytes behind the cursor is left open. -/
theorem run_of_outlook
    (hRelated : ContextCongruence alike together related)
    (hLike : Cursor.Outlook alike)
    (hConcord : Context.Concord admitted together)
    (hClosed : rules.Closed admitted)
    (hView : ∀ {seen : View} {part : Parser} (depth : Nat),
      admitted (.view seen part) →
      related (part.run rules depth)
        (part.run rules depth) →
      related (Action.view seen (part.run rules depth))
        (Action.view seen (part.run rules depth)))
    (hConvert : ∀ (conversion : Conversion) (part : Parser)
      (depth : Nat),
      related (part.run rules depth)
        (part.run rules depth) →
      related
        (Action.convert conversion (part.run rules depth))
        (Action.convert conversion (part.run rules depth)))
    (depth : Nat)
    {parser : Parser}
    (hAdmitted : admitted parser) :
    related (parser.run rules depth)
      (parser.run rules depth) := by
  -- Targets and whitespace are no parts, so the induction
  -- is on the depth and for all admitted parsers at once.
  induction depth generalizing parser with
  | zero => exact hRelated.exhausted
  | succ depth ih =>
      have hPart : ∀ part ∈ parser.parts,
          related (part.run rules depth)
            (part.run rules depth) := by
        intro part hMem
        exact ih (hClosed.part hAdmitted hMem)
      have hSeen : ∀ seen part, parser = .view seen part →
          related (Action.view seen (part.run rules depth))
            (Action.view seen (part.run rules depth)) := by
        rintro seen part rfl
        exact hView depth hAdmitted
          (hPart part (by simp [Parser.parts]))
      have hConverted : ∀ conversion part,
          parser = .convert conversion part →
            related
              (Action.convert conversion
                (part.run rules depth))
              (Action.convert conversion
                (part.run rules depth)) := by
        rintro conversion part rfl
        exact hConvert conversion part depth
          (hPart part (by simp [Parser.parts]))
      cases parser with
      | rule handle =>
          apply hRelated.callRule hLike rules handle
          intro target hTarget
          exact ih (hClosed.target hAdmitted hTarget)
      | token part =>
          exact hRelated.token hLike hConcord hAdmitted
            (fun _ => ih) (hPart part (by simp [Parser.parts]))
      | withWhitespace whitespace part =>
          exact hRelated.withWhitespace hConcord hAdmitted
            (hPart part (by simp [Parser.parts]))
      | defaultWhitespace part =>
          exact hRelated.withoutWhitespace hConcord
            (hPart part (by simp [Parser.parts]))
      | withFlag name on part =>
          exact hRelated.withFlag hConcord hAdmitted
            (hPart part (by simp [Parser.parts]))
      | select condition whenTrue whenFalse =>
          exact hRelated.select hConcord hAdmitted
            (hPart whenTrue (by simp [Parser.parts]))
            (hPart whenFalse (by simp [Parser.parts]))
      | _ =>
          exact hRelated.toCursorCongruence.step_of_outlook
            hLike rules rfl hPart hSeen hConverted

/- In one buffer, nothing has to be left open. -/
theorem parser_run
    (hRelated : ContextCongruence alike together related)
    (hLike : Cursor.Likeness alike)
    (hConcord : Context.Concord admitted together)
    (hClosed : rules.Closed admitted)
    (depth : Nat)
    {parser : Parser}
    (hAdmitted : admitted parser) :
    related (parser.run rules depth)
      (parser.run rules depth) := by
  apply hRelated.run_of_outlook hLike.outlook hConcord
    hClosed _ _ depth hAdmitted
  · intro seen part depth _ hPart
    exact hRelated.view hLike seen hPart
  · intro conversion part depth hPart
    exact hRelated.convert hLike conversion hPart

end ContextCongruence

end Action

end ByteGrammar

------------------------------------------------------------
-- Simulation
------------------------------------------------------------

namespace ByteGrammar

namespace Context

/- Contexts that belong together guard calls of rules in the
  same way. -/
structure Guards
    (together : Context → Context → Prop) :
    Prop where
  detects : ∀ {context context' : Context},
    together context context' →
      context.options.loopDetection =
        context'.options.loopDetection
  active : ∀ {context context' : Context}
    (id : ParserId) (here : Nat),
    together context context' →
      context.isActive id here = context'.isActive id here
  activate : ∀ {context context' : Context}
    (id : ParserId) (here : Nat),
    together context context' →
      together (context.activate id here)
        (context'.activate id here)
  deactivate : ∀ {context context' : Context}
    (id : ParserId) (here : Nat),
    together context context' →
      together (context.deactivate id here)
        (context'.deactivate id here)

end Context

namespace Action

variable {alike : Cursor → Cursor → Prop}
variable {together : Context → Context → Prop}

theorem Simulated.guarded
    {action action' : Action Match}
    (hGuards : Context.Guards together)
    (id : ParserId)
    (here : Nat)
    (hAction : Simulated alike together action action') :
    Simulated alike together (guarded id here action)
      (guarded id here action') := by
  unfold Action.guarded
  apply Simulated.consult_bind
  intro context context' hTogether
  rw [← hGuards.detects hTogether]
  split
  · apply Simulated.consult_bind
    intro context context' hTogether
    rw [← hGuards.active id here hTogether]
    split
    · exact .of_const _ _ (fun _ => rfl) fun _ => rfl
    · exact hAction.within (hGuards.activate id here)
        fun _ => hGuards.deactivate id here
  · exact hAction

/- What an action does from states that are alike looks the
  same where states that are alike look the same. -/
theorem Simulated.map_eq
    {α γ : Type}
    {action : Action α}
    {view : Step α → γ}
    (hAction : Simulated alike together action action)
    (hView : ∀ outcome events {last last' : State},
      last.Alike alike together last' →
        view ⟨outcome, last, events⟩ =
          view ⟨outcome, last', events⟩)
    {state state' : State}
    (hForth : state.Alike alike together state')
    (hBack : state'.Alike alike together state) :
    (action state).map view = (action state').map view := by
  cases hStep : action state with
  | some step =>
      rcases hAction _ _ hForth _ _ _ hStep with
        ⟨last', hStep', hLast⟩
      rw [hStep']
      exact congrArg some
        (hView step.outcome step.events hLast)
  | none =>
      cases hStep' : action state' with
      | none => rfl
      | some step =>
          rcases hAction _ _ hBack _ _ _ hStep' with
            ⟨last, hEnds, -⟩
          rw [hStep] at hEnds
          cases hEnds

/- All operations of parsers simulate each other, as far as
  they keep contexts together. -/
theorem simulated_contextCongruence
    (hLike : Cursor.Outlook alike)
    (hGuards : Context.Guards together) :
    ContextCongruence alike together
      (Simulated alike together) where
  toCursorCongruence := simulated_cursorCongruence hLike
  consult := Simulated.consult_bind
  within := Simulated.within
  unbound := by
    intro id here
    exact .of_const _ _ (fun _ => rfl) fun _ => rfl
  called := by
    intro action action' id here hAction
    exact (hAction.guarded hGuards id here).bracketed _ _ here

end Action

end ByteGrammar
