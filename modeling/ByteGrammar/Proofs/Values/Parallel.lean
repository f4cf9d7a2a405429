import ByteGrammar.Proofs.Engine.Simulation

/-
  Actions that run side by side.

  Two actions are parallel where, on one cursor, either both
  end or neither does, and if they end they come to the
  same: to matches whose values agree in some way, to a
  failure or to one fatal error, with one cursor. The
  contexts may differ in which whitespace parser is
  installed. What is reported is left open.

  Main declarations:
    * `Context.Twin`
    * `Action.EndTogether`, `Action.Parallel`
    * `Action.Parallel.bind`, `Action.Parallel.optionally`
    * `Action.Parallel.within`, `Action.Parallel.loop`
    * `Action.parallel_cursorCongruence`
-/

------------------------------------------------------------
-- What Is Kept
------------------------------------------------------------

namespace ByteGrammar

/- Contexts that differ at most in the installed whitespace
  parsers, which belong together. -/
structure Context.Twin
    (paired : Parser → Parser → Prop)
    (context context' : Context) :
    Prop where
  options : context.options = context'.options
  active : context.active = context'.active
  flags : context.flags = context'.flags
  whitespace :
    Option.Rel paired context.whitespace context'.whitespace

namespace Context.Twin

variable {paired : Parser → Parser → Prop}
variable {context context' : Context}
variable {whitespace whitespace' : Option Parser}

theorem surroundings_eq
    (hTwin : context.Twin paired context') :
    context.surroundings = context'.surroundings := by
  have hInstalled :
      context.whitespace.isSome =
        context'.whitespace.isSome := by
    have hWhitespace := hTwin.whitespace
    generalize context.whitespace = installed at hWhitespace
    generalize context'.whitespace = installed'
      at hWhitespace
    cases hWhitespace with
    | none => rfl
    | some => rfl
  unfold Context.surroundings Context.isActive
    Context.hasFlag
  rw [hTwin.options, hTwin.active, hTwin.flags, hInstalled]

theorem holds
    (hTwin : context.Twin paired context')
    (condition : Condition) :
    condition.holds context = condition.holds context' := by
  unfold Condition.holds
  rw [hTwin.surroundings_eq]

theorem install
    (hTwin : context.Twin paired context')
    (hPaired : Option.Rel paired whitespace whitespace') :
    (context.installWhitespace whitespace).Twin paired
      (context'.installWhitespace whitespace') :=
  ⟨hTwin.options, hTwin.active, hTwin.flags, hPaired⟩

theorem assign
    (hTwin : context.Twin paired context')
    (name : String)
    (on : Bool) :
    (context.assignFlag name on).Twin paired
      (context'.assignFlag name on) := by
  refine ⟨hTwin.options, hTwin.active, ?_, hTwin.whitespace⟩
  simp only [Context.assignFlag, hTwin.flags]

theorem activate
    (hTwin : context.Twin paired context')
    (id : ParserId)
    (position : Nat) :
    (context.activate id position).Twin paired
      (context'.activate id position) := by
  refine ⟨hTwin.options, ?_, hTwin.flags, hTwin.whitespace⟩
  simp only [Context.activate, hTwin.active]

theorem deactivate
    (hTwin : context.Twin paired context')
    (id : ParserId)
    (position : Nat) :
    (context.deactivate id position).Twin paired
      (context'.deactivate id position) := by
  refine ⟨hTwin.options, ?_, hTwin.flags, hTwin.whitespace⟩
  simp only [Context.deactivate, hTwin.active]

end Context.Twin

end ByteGrammar

------------------------------------------------------------
-- Parallel Actions
------------------------------------------------------------

namespace ByteGrammar

namespace Action

variable {α β γ δ : Type}

/- Two actions both came to no end, or they came to the same
  with one cursor, with values that agree or one fault. -/
inductive EndTogether
    (paired : Parser → Parser → Prop)
    (agree : α → β → Prop) :
    Option (Step α) → Option (Step β) → Prop where
  | none : EndTogether paired agree none none
  | matched {value : α} {value' : β} {last last' : State}
      {events events' : List Event}
      (hAgree : agree value value')
      (hLast : last.Alike Eq (Context.Twin paired) last') :
      EndTogether paired agree
        (some ⟨.matched value, last, events⟩)
        (some ⟨.matched value', last', events'⟩)
  | failed {last last' : State} {events events' : List Event}
      (hLast : last.Alike Eq (Context.Twin paired) last') :
      EndTogether paired agree
        (some ⟨.failed, last, events⟩)
        (some ⟨.failed, last', events'⟩)
  | fatal {last last' : State} {events events' : List Event}
      (fault : Fault)
      (hLast : last.Alike Eq (Context.Twin paired) last') :
      EndTogether paired agree
        (some ⟨.fatal fault, last, events⟩)
        (some ⟨.fatal fault, last', events'⟩)

/- Two actions that end together on one cursor. -/
def Parallel
    (paired : Parser → Parser → Prop)
    (agree : α → β → Prop)
    (action : Action α)
    (action' : Action β) :
    Prop :=
  ∀ state state',
    State.Alike Eq (Context.Twin paired) state state' →
      EndTogether paired agree (action state)
        (action' state')

namespace Parallel

variable {paired : Parser → Parser → Prop}
variable {agree : α → β → Prop}
variable {agree' : γ → δ → Prop}

theorem exhausted :
    Parallel paired agree exhausted exhausted := by
  intro state state' _
  exact .none

theorem pure
    {value : α}
    {value' : β}
    (hAgree : agree value value') :
    Parallel paired agree (pure value) (pure value') := by
  intro state state' hAlike
  exact .matched hAgree hAlike

theorem fail :
    Parallel paired agree fail fail := by
  intro state state' hAlike
  exact .failed hAlike

theorem raise
    (fault : Fault) :
    Parallel paired agree (raise fault) (raise fault) := by
  intro state state' hAlike
  exact .fatal fault hAlike

theorem report
    (event event' : Event) :
    Parallel paired Eq (report event) (report event') := by
  intro state state' hAlike
  exact .matched rfl hAlike

theorem inspect
    {view : Cursor → α}
    {view' : Cursor → β}
    (hView : ∀ cursor, agree (view cursor) (view' cursor)) :
    Parallel paired agree (inspect view) (inspect view') := by
  intro state state' hAlike
  refine .matched ?_ hAlike
  rw [← hAlike.cursor]
  exact hView state.cursor

theorem move
    (change : Cursor → Cursor) :
    Parallel paired Eq (move change) (move change) := by
  intro state state' hAlike
  have hCursor := congrArg change hAlike.cursor
  exact .matched rfl ⟨hCursor, hAlike.context⟩

theorem consult
    {view : Context → α}
    {view' : Context → β}
    (hView : ∀ context context',
      Context.Twin paired context context' →
        agree (view context) (view' context')) :
    Parallel paired agree (consult view) (consult view') := by
  intro state state' hAlike
  exact .matched (hView _ _ hAlike.context) hAlike

/- After matches that agree, what comes next is parallel. -/
theorem bind
    {first : Action α}
    {first' : Action β}
    {next : α → Action γ}
    {next' : β → Action δ}
    (hFirst : Parallel paired agree first first')
    (hNext : ∀ value value', agree value value' →
      Parallel paired agree' (next value) (next' value')) :
    Parallel paired agree' (bind first next)
      (bind first' next') := by
  intro state state' hAlike
  have hEnded := hFirst state state' hAlike
  unfold Action.bind
  generalize first state = ended at hEnded
  generalize first' state' = ended' at hEnded
  cases hEnded with
  | none => exact .none
  | @matched value value' middle middle' _ _ hAgree hMiddle =>
      have hMore := hNext value value' hAgree middle middle'
        hMiddle
      dsimp only
      generalize next value middle = more at hMore
      generalize next' value' middle' = more' at hMore
      cases hMore with
      | none => exact .none
      | matched hAgree' hLast => exact .matched hAgree' hLast
      | failed hLast => exact .failed hLast
      | fatal fault hLast => exact .fatal fault hLast
  | failed hLast => exact .failed hLast
  | fatal fault hLast => exact .fatal fault hLast

theorem optionally
    {action : Action α}
    {action' : Action β}
    (hAction : Parallel paired agree action action') :
    Parallel paired (Option.Rel agree) (optionally action)
      (optionally action') := by
  intro state state' hAlike
  have hEnded := hAction state state' hAlike
  unfold Action.optionally
  generalize action state = ended at hEnded
  generalize action' state' = ended' at hEnded
  cases hEnded with
  | none => exact .none
  | matched hAgree hLast => exact .matched (.some hAgree) hLast
  | failed hLast => exact .matched .none hLast
  | fatal fault hLast => exact .fatal fault hLast

theorem attempt
    {action : Action α}
    {action' : Action β}
    (hAction : Parallel paired agree action action') :
    Parallel paired agree (attempt action)
      (attempt action') := by
  intro state state' hAlike
  have hEnded := hAction state state' hAlike
  unfold Action.attempt
  generalize action state = ended at hEnded
  generalize action' state' = ended' at hEnded
  cases hEnded with
  | none => exact .none
  | matched hAgree hLast => exact .matched hAgree hLast
  | failed hLast =>
      refine .failed ⟨?_, hLast.context⟩
      rw [hAlike.cursor, hLast.cursor]
  | fatal fault hLast => exact .fatal fault hLast

/- A scope keeps contexts together that it enters and leaves
  together. -/
theorem within
    {action : Action α}
    {action' : Action β}
    {enter enter' : Context → Context}
    {leave leave' : Context → Context → Context}
    (hEnter : ∀ context context',
      Context.Twin paired context context' →
        (enter context).Twin paired (enter' context'))
    (hLeave : ∀ before before' context context',
      Context.Twin paired before before' →
        Context.Twin paired context context' →
          (leave before context).Twin paired
            (leave' before' context'))
    (hAction : Parallel paired agree action action') :
    Parallel paired agree (within enter leave action)
      (within enter' leave' action') := by
  intro state state' hAlike
  have hEnded :=
    hAction { state with context := enter state.context }
      { state' with context := enter' state'.context }
      ⟨hAlike.cursor, hEnter _ _ hAlike.context⟩
  unfold Action.within
  generalize action
    { state with context := enter state.context } = ended
    at hEnded
  generalize action'
    { state' with context := enter' state'.context } =
      ended' at hEnded
  have hLeft : ∀ last last' : State,
      last.Alike Eq (Context.Twin paired) last' →
        State.Alike Eq (Context.Twin paired)
          { last with
            context := leave state.context last.context }
          { last' with
            context :=
              leave' state'.context last'.context } := by
    intro last last' hLast
    exact ⟨hLast.cursor,
      hLeave _ _ _ _ hAlike.context hLast.context⟩
  cases hEnded with
  | none => exact .none
  | matched hAgree hLast =>
      exact .matched hAgree (hLeft _ _ hLast)
  | failed hLast => exact .failed (hLeft _ _ hLast)
  | fatal fault hLast =>
      exact .fatal fault (hLeft _ _ hLast)

/- What is reported of a node is left open. -/
theorem bracketed
    {action : Action α}
    {action' : Action β}
    (node node' : Node)
    (label label' : String)
    (position position' : Nat)
    (hAction : Parallel paired agree action action') :
    Parallel paired agree
      (bracketed node label position action)
      (bracketed node' label' position' action') := by
  intro state state' hAlike
  have hEnded := hAction state state' hAlike
  unfold Action.bracketed
  generalize action state = ended at hEnded
  generalize action' state' = ended' at hEnded
  cases hEnded with
  | none => exact .none
  | matched hAgree hLast => exact .matched hAgree hLast
  | failed hLast => exact .failed hLast
  | fatal fault hLast => exact .fatal fault hLast

/- Values that agree in one way may agree in another. -/
theorem weaken
    {weaker : α → β → Prop}
    {action : Action α}
    {action' : Action β}
    (hAction : Parallel paired agree action action')
    (hWeaker : ∀ value value', agree value value' →
      weaker value value') :
    Parallel paired weaker action action' := by
  intro state state' hAlike
  have hEnded := hAction state state' hAlike
  generalize action state = ended at hEnded
  generalize action' state' = ended' at hEnded
  cases hEnded with
  | none => exact .none
  | matched hAgree hLast =>
      exact .matched (hWeaker _ _ hAgree) hLast
  | failed hLast => exact .failed hLast
  | fatal fault hLast => exact .fatal fault hLast

/- Values that nobody looks at need not agree. -/
theorem forget
    {action : Action α}
    {action' : Action β}
    (hAction : Parallel paired agree action action') :
    Parallel paired (fun _ _ => True) action action' := by
  apply hAction.weaken
  intro _ _ _
  trivial

end Parallel

end Action

end ByteGrammar

------------------------------------------------------------
-- Loops
------------------------------------------------------------

namespace ByteGrammar

variable {σ τ α β : Type}

/- Passes that go on together, or are done together. -/
inductive Pass.Rel
    (holds : σ → τ → Prop)
    (agree : α → β → Prop) :
    Pass σ α → Pass τ β → Prop where
  | again {next : σ} {next' : τ}
      (hHolds : holds next next') :
      Rel holds agree (.again next) (.again next')
  | done {result : α} {result' : β}
      (hAgree : agree result result') :
      Rel holds agree (.done result) (.done result')

namespace Action

namespace Parallel

variable {paired : Parser → Parser → Prop}
variable {holds : σ → τ → Prop}
variable {agree : α → β → Prop}

/- Loops whose passes are parallel have as many passes. -/
theorem iterate
    {pass : σ → Action (Pass σ α)}
    {pass' : τ → Action (Pass τ β)}
    (hPass : ∀ taken taken', holds taken taken' →
      Parallel paired (Pass.Rel holds agree) (pass taken)
        (pass' taken'))
    (limit : Nat)
    {taken : σ}
    {taken' : τ}
    (hHolds : holds taken taken') :
    Parallel paired agree (iterate pass limit taken)
      (iterate pass' limit taken') := by
  induction limit generalizing taken taken' with
  | zero => exact exhausted
  | succ limit ih =>
      apply (hPass taken taken' hHolds).bind
      intro result result' hResult
      cases hResult with
      | again hNext => exact ih hNext
      | done hAgree => exact pure hAgree

theorem loop
    {pass : σ → Action (Pass σ α)}
    {pass' : τ → Action (Pass τ β)}
    (hPass : ∀ taken taken', holds taken taken' →
      Parallel paired (Pass.Rel holds agree) (pass taken)
        (pass' taken'))
    {start : σ}
    {start' : τ}
    (hHolds : holds start start') :
    Parallel paired agree (loop pass start)
      (loop pass' start') := by
  unfold Action.loop
  apply Parallel.bind (inspect fun _ => rfl)
  rintro remaining _ rfl
  exact iterate hPass (remaining + 1) hHolds

end Parallel

end Action

end ByteGrammar

------------------------------------------------------------
-- Equal Values
------------------------------------------------------------

namespace ByteGrammar

namespace Action

/- The operations on cursors keep values equal. -/
theorem parallel_cursorCongruence
    (paired : Parser → Parser → Prop) :
    CursorCongruence Eq (Parallel paired Eq) where
  exhausted := Parallel.exhausted
  pure := fun _ => Parallel.pure rfl
  bind := by
    intro α β first first' next next' hFirst hNext
    apply hFirst.bind
    rintro value _ rfl
    exact hNext value
  fail := Parallel.fail
  optionally := by
    intro α action action' hAction
    apply hAction.optionally.weaken
    intro found found' hFound
    cases hFound with
    | none => rfl
    | some hValue => rw [hValue]
  attempt := Parallel.attempt
  inspect := by
    intro α view view' hView
    exact Parallel.inspect fun cursor => hView rfl
  move := by
    intro change change' hChange
    have hSame : change = change' :=
      funext fun cursor => hChange rfl
    rw [hSame]
    exact Parallel.move change'
  checkpoint := by
    intro α next next' hNext
    apply Parallel.bind (Parallel.inspect fun _ => rfl)
    rintro saved _ rfl
    let cursor : Cursor := ⟨[], saved.position, saved.raw, 0⟩
    exact hNext (rfl : cursor = cursor)
  record := by
    intro α β view next next' start stop _ hNext
    apply (Parallel.move _).bind
    intro _ _ _
    apply Parallel.bind (Parallel.inspect fun _ => rfl)
    rintro value _ rfl
    exact hNext value
  unread := by
    intro error
    exact (Parallel.report _ _).bind fun _ _ _ => .fail
  committed := by
    intro message here
    exact (Parallel.report _ _).bind fun _ _ _ => .raise _
  rejected := by
    intro message here
    exact (Parallel.report _ _).bind fun _ _ _ => .raise _
  labelled := by
    intro action action' id name here hAction
    exact hAction.bracketed _ _ _ _ _ _

end Action

end ByteGrammar

------------------------------------------------------------
-- Scopes, Whitespace and Rules
------------------------------------------------------------

namespace ByteGrammar

namespace Action

namespace Parallel

variable {α β : Type}
variable {paired : Parser → Parser → Prop}
variable {agree : α → β → Prop}

theorem withWhitespace
    {whitespace whitespace' : Option Parser}
    {action : Action α}
    {action' : Action β}
    (hPaired : Option.Rel paired whitespace whitespace')
    (hAction : Parallel paired agree action action') :
    Parallel paired agree (withWhitespace whitespace action)
      (withWhitespace whitespace' action') := by
  unfold Action.withWhitespace
  refine within ?_ ?_ hAction
  · intro context context' hTwin
    exact hTwin.install hPaired
  · intro before before' context context' hBefore hTwin
    exact hTwin.install hBefore.whitespace

theorem withFlag
    (name : String)
    (on : Bool)
    {action : Action α}
    {action' : Action β}
    (hAction : Parallel paired agree action action') :
    Parallel paired agree (withFlag name on action)
      (withFlag name on action') := by
  unfold Action.withFlag
  refine within ?_ ?_ hAction
  · intro context context' hTwin
    exact hTwin.assign name on
  · intro before before' context context' hBefore hTwin
    have hFlag :
        before.hasFlag name = before'.hasFlag name := by
      simp only [Context.hasFlag, hBefore.flags]
    rw [hFlag]
    exact hTwin.assign name _

variable {run run' : Parser → Action Match}
variable {same : Match → Match → Prop}

/- Whitespace yields nothing, so it need not agree in
  value. -/
theorem skipWhitespace
    (hRun : ∀ whitespace whitespace',
      paired whitespace whitespace' →
        Parallel paired (fun _ _ => True) (run whitespace)
          (run' whitespace')) :
    Parallel paired Eq (skipWhitespace run)
      (skipWhitespace run') := by
  unfold Action.skipWhitespace
  apply Parallel.bind
    (consult fun _ _ hTwin => hTwin.whitespace)
  intro installed installed' hInstalled
  cases hInstalled with
  | some hPaired =>
      have hScope :=
        (hRun _ _ hPaired).withWhitespace .none
      apply hScope.optionally.bind
      intro found found' _
      exact pure rfl
  | none =>
      have hOptions : Parallel paired Eq
          (Action.consult fun context =>
            context.options.skipNewlines)
          (Action.consult fun context =>
            context.options.skipNewlines) := by
        apply consult
        intro context context' hTwin
        rw [hTwin.options]
      apply hOptions.bind
      rintro newlines _ rfl
      split
      · exact move _
      · exact move _

theorem token
    {part part' : Parser}
    (hWhitespace : ∀ whitespace whitespace',
      paired whitespace whitespace' →
        Parallel paired (fun _ _ => True) (run whitespace)
          (run' whitespace'))
    (hPart : Parallel paired same (run part) (run' part')) :
    Parallel paired same (token run part)
      (token run' part') := by
  unfold Action.token
  apply attempt
  apply (skipWhitespace hWhitespace).bind
  intro _ _ _
  exact hPart

theorem select
    (condition : Condition)
    {action action' other other' : Action Match}
    (hAction : Parallel paired same action action')
    (hOther : Parallel paired same other other') :
    Parallel paired same (select condition action other)
      (select condition action' other') := by
  unfold Action.select
  apply Parallel.bind
    (consult fun _ _ hTwin => hTwin.holds condition)
  rintro holds _ rfl
  split
  · exact hAction
  · exact hOther

theorem guarded
    (id : ParserId)
    (here : Nat)
    {action action' : Action Match}
    (hAction : Parallel paired same action action') :
    Parallel paired same (guarded id here action)
      (guarded id here action') := by
  unfold Action.guarded
  apply Parallel.bind
    (consult fun _ _ hTwin =>
      congrArg Options.loopDetection hTwin.options)
  rintro detects _ rfl
  split
  · have hActive : Parallel paired Eq
        (Action.consult fun context =>
          context.isActive id here)
        (Action.consult fun context =>
          context.isActive id here) := by
      apply consult
      intro context context' hTwin
      simp only [Context.isActive, hTwin.active]
    apply hActive.bind
    rintro active _ rfl
    split
    · exact (report _ _).bind fun _ _ _ => fail
    · refine within ?_ ?_ hAction
      · intro context context' hTwin
        exact hTwin.activate id here
      · intro _ _ context context' _ hTwin
        exact hTwin.deactivate id here
  · exact hAction

/- A rule is parallel to one of its identity whose target is
  parallel, if it has one. -/
theorem callRule
    {rules rules' : Rules}
    {handle : Handle}
    (hId : rules.idOf handle = rules'.idOf handle)
    (hTarget :
      Option.Rel
        (fun target target' =>
          Parallel paired same (run target) (run' target'))
        (rules.target? handle) (rules'.target? handle)) :
    Parallel paired same (callRule rules run handle)
      (callRule rules' run' handle) := by
  unfold Action.callRule
  rw [← hId]
  apply Parallel.bind (inspect fun _ => rfl)
  rintro here _ rfl
  generalize rules.target? handle = bound at hTarget
  generalize rules'.target? handle = bound' at hTarget
  cases hTarget with
  | none => exact raise _
  | some hRun =>
      exact (guarded _ here hRun).bracketed _ _ _ _ _ _

end Parallel

end Action

end ByteGrammar
