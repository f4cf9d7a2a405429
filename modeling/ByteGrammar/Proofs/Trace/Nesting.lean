import ByteGrammar.Proofs.Context.Frame

/-
  What is open while a parse reports its events.

  The events of a parse close all that they open, in the
  reverse order. While loops are detected, the rules that
  are running are those that were running before, and those
  that are open; so a call of a rule is refused just where a
  rule of its identity is open, or was running, at the same
  position.

  Main declarations:
    * `Event.Frame`, `Event.openAfter`
    * `Event.Account`
    * `Action.Accountable`
    * `Parser.events_nested_and_refusals_exact`
-/

------------------------------------------------------------
-- Frames
------------------------------------------------------------

namespace ByteGrammar

namespace Event

/- A node that was entered at a position. -/
structure Frame where
  node : Node
  label : String
  position : Nat
deriving DecidableEq

/- What is open after an event, given what was open before
  it, the innermost first. There is nothing right where what
  is left is not what was entered last. -/
def follow
    (opened : List Frame) :
    Event → Option (List Frame)
  | .entered node label position =>
      some (⟨node, label, position⟩ :: opened)
  | .exited node label position _ =>
      match opened with
      | [] => none
      | frame :: rest =>
          if frame = ⟨node, label, position⟩ then some rest
          else none
  | _ => some opened

/- What is open after some events. -/
def openAfter
    (opened : List Frame)
    (events : List Event) :
    Option (List Frame) :=
  events.foldlM follow opened

@[simp]
theorem openAfter_nil
    (opened : List Frame) :
    openAfter opened [] = some opened :=
  rfl

@[simp]
theorem openAfter_cons
    (opened : List Frame)
    (event : Event)
    (events : List Event) :
    openAfter opened (event :: events) =
      (follow opened event).bind
        fun next => openAfter next events :=
  rfl

@[simp]
theorem openAfter_append
    (opened : List Frame)
    (first more : List Event) :
    openAfter opened (first ++ more) =
      (openAfter opened first).bind
        fun next => openAfter next more :=
  List.foldlM_append

/- Leaving what was entered last uncovers what was open
  before. -/
@[simp]
theorem follow_exited
    (opened : List Frame)
    (node : Node)
    (label : String)
    (position : Nat)
    (matched : Bool) :
    follow (⟨node, label, position⟩ :: opened)
        (.exited node label position matched) =
      some opened := by
  simp [follow]

/- Whether a rule is open at a position. -/
def Running
    (opened : List Frame)
    (id : ParserId)
    (position : Nat) :
    Prop :=
  ∃ label, ⟨.rule id, label, position⟩ ∈ opened

/- Entering a rule makes it open. -/
theorem running_cons_rule
    {opened : List Frame}
    {id other : ParserId}
    {label : String}
    {position place : Nat} :
    Running (⟨.rule id, label, position⟩ :: opened)
        other place ↔
      (other, place) = (id, position) ∨
        Running opened other place := by
  simp [Running, exists_or]

/- Entering a label opens no rule. -/
theorem running_cons_label
    {opened : List Frame}
    {id other : ParserId}
    {label : String}
    {position place : Nat} :
    Running (⟨.label id, label, position⟩ :: opened)
        other place ↔
      Running opened other place := by
  simp [Running]

end Event

end ByteGrammar

------------------------------------------------------------
-- Accounts
------------------------------------------------------------

namespace ByteGrammar

namespace Event

/- Whether the event neither opens nor closes anything, and
  is no refusal. -/
def isAside :
    Event → Bool
  | .entered _ _ _ => false
  | .exited _ _ _ _ => false
  | .loopDetected _ _ => false
  | _ => true

/-
  The events of a parse that starts while some rules are
  running at some positions, with or without detection of
  loops. A rule that is called is running for the while.
-/
inductive Account
    (detects : Bool) :
    List (ParserId × Nat) → List Event → Prop where
  | none {active : List (ParserId × Nat)} :
      Account detects active []
  | append {active : List (ParserId × Nat)}
      {first more : List Event}
      (hFirst : Account detects active first)
      (hMore : Account detects active more) :
      Account detects active (first ++ more)
  | aside {active : List (ParserId × Nat)} {event : Event}
      (hAside : event.isAside = true) :
      Account detects active [event]
  | label {active : List (ParserId × Nat)}
      {events : List Event} {id : ParserId} {label : String}
      {position : Nat} {matched : Bool}
      (hEvents : Account detects active events) :
      Account detects active
        (.entered (.label id) label position :: events ++
          [.exited (.label id) label position matched])
  | unguarded {active : List (ParserId × Nat)}
      {events : List Event} {id : ParserId} {label : String}
      {position : Nat} {matched : Bool}
      (hDetects : detects = false)
      (hEvents : Account detects active events) :
      Account detects active
        (.entered (.rule id) label position :: events ++
          [.exited (.rule id) label position matched])
  | called {active : List (ParserId × Nat)}
      {events : List Event} {id : ParserId} {label : String}
      {position : Nat} {matched : Bool}
      (hIdle : (id, position) ∉ active)
      (hEvents :
        Account detects ((id, position) :: active) events) :
      Account detects active
        (.entered (.rule id) label position :: events ++
          [.exited (.rule id) label position matched])
  | refused {active : List (ParserId × Nat)} {id : ParserId}
      {label : String} {position : Nat}
      (hDetects : detects = true)
      (hActive : (id, position) ∈ active) :
      Account detects active
        [.entered (.rule id) label position,
          .loopDetected id position,
          .exited (.rule id) label position false]

namespace Account

variable {detects : Bool}
variable {active : List (ParserId × Nat)}
variable {events : List Event}

/- An account closes all that it opens. -/
theorem openAfter_eq
    (hEvents : Account detects active events)
    (opened : List Frame) :
    openAfter opened events = some opened := by
  induction hEvents generalizing opened with
  | none => rfl
  | append _ _ hFirst hMore =>
      rw [openAfter_append, hFirst, Option.bind_some, hMore]
  | @aside active event hAside =>
      cases event <;> first | rfl | cases hAside
  | label _ ih =>
      rw [List.cons_append, openAfter_cons]
      simp [follow, ih]
  | unguarded _ _ ih =>
      rw [List.cons_append, openAfter_cons]
      simp [follow, ih]
  | called _ _ ih =>
      rw [List.cons_append, openAfter_cons]
      simp [follow, ih]
  | refused => simp [follow]

/- Without detection, nothing is refused. -/
theorem loopDetected_not_mem
    (hEvents : Account detects active events)
    (hDetects : detects = false)
    (id : ParserId)
    (position : Nat) :
    .loopDetected id position ∉ events := by
  induction hEvents with
  | none => exact List.not_mem_nil
  | append _ _ hFirst hMore => simp [hFirst, hMore]
  | @aside active event hAside =>
      intro hEvent
      cases List.mem_singleton.mp hEvent
      cases hAside
  | label _ ih => simp [ih]
  | unguarded _ _ ih => simp [ih]
  | called _ _ ih => simp [ih]
  | refused hDetects' =>
      rw [hDetects] at hDetects'
      cases hDetects'

/- No account starts with a refusal: the call that is refused
  comes first. -/
theorem ne_loopDetected_cons
    (hEvents : Account detects active events)
    (id : ParserId)
    (position : Nat)
    (rest : List Event) :
    events ≠ .loopDetected id position :: rest := by
  induction hEvents generalizing rest with
  | none => exact fun hEq => nomatch hEq
  | @append active first more _ _ hFirst hMore =>
      intro hEq
      cases first with
      | nil => exact hMore rest hEq
      | cons event others =>
          rcases List.cons.inj hEq with ⟨hHead, -⟩
          exact hFirst others (by rw [hHead])
  | @aside active event hAside =>
      intro hEq
      cases hEq
      cases hAside
  | label => simp
  | unguarded => simp
  | called => simp
  | refused => simp

end Account

end Event

end ByteGrammar

------------------------------------------------------------
-- Refusals
------------------------------------------------------------

namespace ByteGrammar

namespace Event

/- Whether the events that follow a call say that it was
  refused. -/
def Refused
    (id : ParserId)
    (label : String)
    (position : Nat)
    (following : List Event) :
    Prop :=
  ∃ rest, following =
    .loopDetected id position ::
      .exited (.rule id) label position false :: rest

/-
  What is open can be followed through the events, and of
  the calls of rules those are refused that would run a rule
  where it is open already or was running before.
-/
def RefusesExactly
    (active : List (ParserId × Nat)) :
    List Frame → List Event → Prop
  | _, [] => True
  | opened, event :: following =>
      (∀ id label position,
        event = .entered (.rule id) label position →
          (Refused id label position following ↔
            Running opened id position ∨
              (id, position) ∈ active)) ∧
      ∃ next, follow opened event = some next ∧
        RefusesExactly active next following

namespace RefusesExactly

variable {active : List (ParserId × Nat)}
variable {opened : List Frame}
variable {following : List Event}

/- An event that enters no rule has but to be followed. -/
theorem cons
    {event : Event}
    {next : List Frame}
    (hEvent : ∀ id label position,
      event ≠ .entered (.rule id) label position)
    (hNext : follow opened event = some next)
    (hFollowing : RefusesExactly active next following) :
    RefusesExactly active opened (event :: following) := by
  refine ⟨?_, next, hNext, hFollowing⟩
  intro id label position hEntered
  exact absurd hEntered (hEvent id label position)

/- Leaving what was entered last. -/
theorem exited
    {node : Node}
    {label : String}
    {position : Nat}
    {matched : Bool}
    (hFollowing : RefusesExactly active opened following) :
    RefusesExactly active
      (⟨node, label, position⟩ :: opened)
      (.exited node label position matched ::
        following) := by
  refine cons ?_ (follow_exited _ _ _ _ _) hFollowing
  intro id label position hEntered
  cases hEntered

/- At each call, this says which rules are open. -/
theorem of_split
    {before after : List Event}
    {id : ParserId}
    {label : String}
    {position : Nat}
    (hEvents :
      RefusesExactly active opened
        (before ++ .entered (.rule id) label position ::
          after)) :
    ∃ now, openAfter opened before = some now ∧
      (Refused id label position after ↔
        Running now id position ∨
          (id, position) ∈ active) := by
  induction before generalizing opened with
  | nil => exact ⟨opened, rfl, hEvents.1 _ _ _ rfl⟩
  | cons event before ih =>
      rcases hEvents with ⟨-, next, hNext, hRest⟩
      rcases ih hRest with ⟨now, hNow, hRefused⟩
      refine ⟨now, ?_, hRefused⟩
      rw [openAfter_cons, hNext]
      exact hNow

end RefusesExactly

/- An account refuses exactly, where the rules that are
  running are those that are open or were running
  before. -/
theorem Account.refusesExactly
    {running active : List (ParserId × Nat)}
    {events following : List Event}
    {opened : List Frame}
    (hEvents : Account true running events)
    (hRunning : ∀ id position,
      (id, position) ∈ running ↔
        Running opened id position ∨
          (id, position) ∈ active)
    (hFollowing : RefusesExactly active opened following) :
    RefusesExactly active opened (events ++ following) := by
  induction hEvents generalizing opened following with
  | none => exact hFollowing
  | append _ _ hFirst hMore =>
      rw [List.append_assoc]
      exact hFirst hRunning (hMore hRunning hFollowing)
  | @aside running event hAside =>
      refine RefusesExactly.cons ?_ ?_ hFollowing
      · intro id label position hEntered
        cases hEntered
        cases hAside
      · cases event <;> first | rfl | cases hAside
  | @label running events id label position matched _ ih =>
      rw [List.cons_append, List.cons_append,
        List.append_assoc]
      refine RefusesExactly.cons ?_ rfl
        (ih ?_ hFollowing.exited)
      · intro id' label' position' hEntered
        cases hEntered
      · intro id' position'
        rw [hRunning, running_cons_label]
  | unguarded hDetects => cases hDetects
  | @called running events id label position matched
      hIdle hEvents ih =>
      rw [List.cons_append, List.cons_append,
        List.append_assoc]
      refine ⟨?_, _, rfl, ih ?_ hFollowing.exited⟩
      · -- The rule was not running, and its target does not
        -- start with a refusal.
        intro id' label' position' hEntered
        cases hEntered
        rw [← hRunning]
        refine iff_of_false ?_ hIdle
        rintro ⟨rest, hRest⟩
        cases events with
        | nil => cases hRest
        | cons event others =>
            rcases List.cons.inj hRest with ⟨hHead, -⟩
            exact hEvents.ne_loopDetected_cons id position
              others (by rw [hHead])
      · intro id' position'
        rw [List.mem_cons, hRunning, running_cons_rule,
          or_assoc]
  | @refused running id label position _ hActive =>
      refine ⟨?_, _, rfl, ?_⟩
      · intro id' label' position' hEntered
        cases hEntered
        exact iff_of_true ⟨following, rfl⟩
          ((hRunning id position).mp hActive)
      · refine RefusesExactly.cons ?_ rfl hFollowing.exited
        intro id' label' position' hEntered
        cases hEntered

end Event

end ByteGrammar

------------------------------------------------------------
-- Accountable Actions
------------------------------------------------------------

namespace ByteGrammar

namespace Action

open ByteGrammar.Event

variable {α β : Type}

/- However the action ends, its events are an account of it,
  and the context is what it was. -/
def Accountable
    (action : Action α) :
    Prop :=
  ∀ state step, action state = some step →
    Account state.context.options.loopDetection
        state.context.active step.events ∧
      step.state.context = state.context

theorem accountable_inspect
    (view : Cursor → α) :
    Accountable (inspect view) := by
  intro state step hStep
  cases hStep
  exact ⟨.none, rfl⟩

theorem accountable_move
    (change : Cursor → Cursor) :
    Accountable (move change) := by
  intro state step hStep
  cases hStep
  exact ⟨.none, rfl⟩

theorem accountable_fail :
    Accountable (fail : Action α) := by
  intro state step hStep
  cases hStep
  exact ⟨.none, rfl⟩

theorem accountable_raise
    (fault : Fault) :
    Accountable (raise fault : Action α) := by
  intro state step hStep
  cases hStep
  exact ⟨.none, rfl⟩

theorem accountable_report
    {event : Event}
    (hAside : event.isAside = true) :
    Accountable (report event) := by
  intro state step hStep
  cases hStep
  exact ⟨.aside hAside, rfl⟩

theorem Accountable.bind
    {first : Action α}
    {next : α → Action β}
    (hFirst : Accountable first)
    (hNext : ∀ value, Accountable (next value)) :
    Accountable (bind first next) := by
  intro state step hStep
  cases bind_ends hStep with
  | matched hMatched hMore =>
      rcases hFirst _ _ hMatched with ⟨hEvents, hContext⟩
      rcases hNext _ _ _ hMore with ⟨hEvents', hContext'⟩
      dsimp only at hContext hContext' ⊢
      rw [hContext] at hEvents' hContext'
      exact ⟨hEvents.append hEvents', hContext'⟩
  | failed hFailed => exact hFirst _ _ hFailed
  | fatal hFatal => exact hFirst _ _ hFatal

/- A call is refused, or its rule is running for the while,
  unless loops are not detected. -/
theorem Accountable.called
    {action : Action Match}
    (id : ParserId)
    (here : Nat)
    (hAction : Accountable action) :
    Accountable
      (bracketed (.rule id) "deferred" here
        (guarded id here action)) := by
  intro state step hStep
  cases bracketed_ends hStep with
  | inner hInner =>
      cases guarded_ends hInner with
      | undetected hDetects hRun =>
          rcases hAction _ _ hRun with ⟨hEvents, hContext⟩
          exact ⟨.unguarded hDetects hEvents, hContext⟩
      | refused hDetects hActive =>
          have hMem : (id, here) ∈ state.context.active := by
            simpa [Context.isActive] using hActive
          exact ⟨.refused hDetects hMem, rfl⟩
      | idle hDetects hIdle hRun =>
          have hNotMem :
              (id, here) ∉ state.context.active := by
            simpa [Context.isActive] using hIdle
          rcases hAction _ _ hRun with ⟨hEvents, hContext⟩
          refine ⟨.called hNotMem hEvents, ?_⟩
          dsimp only at hContext ⊢
          rw [hContext]
          exact state.context.deactivate_activate id here

/- All operations give account of what they enter and leave,
  and of what they refuse. -/
theorem accountable_cursorCongruence :
    CursorCongruence Eq
      fun action _ => Accountable action where
  exhausted := by
    intro α state step hStep
    cases hStep
  pure := by
    intro α value state step hStep
    cases hStep
    exact ⟨.none, rfl⟩
  bind := by
    intro α β first _ next _ hFirst hNext
    exact hFirst.bind hNext
  fail := accountable_fail
  optionally := by
    intro α action _ hAction state step hStep
    cases optionally_ends hStep with
    | matched hMatched => exact hAction _ _ hMatched
    | failed hFailed => exact hAction _ _ hFailed
    | fatal hFatal => exact hAction _ _ hFatal
  attempt := by
    intro α action _ hAction state step hStep
    cases attempt_ends hStep with
    | matched hMatched => exact hAction _ _ hMatched
    | failed hFailed =>
        have hEvents := hAction _ _ hFailed
        exact hEvents
    | fatal hFatal => exact hAction _ _ hFatal
  inspect := by
    intro α view _ _
    exact accountable_inspect view
  move := by
    intro change _ _
    exact accountable_move change
  checkpoint := by
    intro α next _ hNext
    apply (accountable_inspect _).bind
    intro saved
    let cursor : Cursor := ⟨[], saved.position, saved.raw, 0⟩
    exact hNext (rfl : cursor = cursor)
  record := by
    intro α β view next _ start stop _ hNext
    exact (accountable_move _).bind fun _ =>
      (accountable_inspect view).bind hNext
  unread := by
    intro error
    exact (accountable_report rfl).bind fun _ =>
      accountable_fail
  committed := by
    intro message here
    exact (accountable_report rfl).bind fun _ =>
      accountable_raise _
  rejected := by
    intro message here
    exact (accountable_report rfl).bind fun _ =>
      accountable_raise _
  labelled := by
    intro action _ id name here hAction state step hStep
    cases bracketed_ends hStep with
    | inner hInner =>
        rcases hAction _ _ hInner with ⟨hEvents, hContext⟩
        exact ⟨.label hEvents, hContext⟩

theorem accountable_scopeCongruence :
    ScopeCongruence Eq
      fun action _ => Accountable action where
  toCursorCongruence := accountable_cursorCongruence
  consult := by
    intro α view state step hStep
    cases hStep
    exact ⟨.none, rfl⟩
  inScope := by
    intro α action _ enter leave hUndone hOptions hActive
      hAction state step hStep
    cases within_ends hStep with
    | inner hInner =>
        rcases hAction _ _ hInner with ⟨hEvents, hContext⟩
        dsimp only at hEvents hContext ⊢
        rw [hOptions, hActive] at hEvents
        rw [hContext, hUndone]
        exact ⟨hEvents, rfl⟩
  unbound := by
    intro id here
    exact accountable_raise _
  called := by
    intro action _ id here hAction
    exact hAction.called id here

end Action

end ByteGrammar

------------------------------------------------------------
-- Parsers
------------------------------------------------------------

namespace ByteGrammar

namespace Parser

open ByteGrammar.Action
open ByteGrammar.Event

/- The events of a parse are an account of it. -/
theorem account_run
    {rules : Rules}
    {depth : Nat}
    {parser : Parser}
    {state : State}
    {step : Step Match}
    (hRun : parser.run rules depth state = some step) :
    Account state.context.options.loopDetection
      state.context.active step.events := by
  have hAccountable :=
    accountable_scopeCongruence.parser_run Cursor.likeness_eq
      rules depth parser
  exact (hAccountable state step hRun).1

/-
  A parse leaves all that it enters, the innermost first.
  With detection of loops, a call of a rule is followed by a
  refusal just where a rule of its identity is open at its
  position, or was running there when the parse started.
  Without it, nothing is refused.
-/
theorem events_nested_and_refusals_exact
    {rules : Rules}
    {depth : Nat}
    {parser : Parser}
    {state : State}
    {step : Step Match}
    (hRun : parser.run rules depth state = some step) :
    openAfter [] step.events = some [] ∧
    (state.context.options.loopDetection = true →
      ∀ before id label position after,
        step.events =
            before ++
              .entered (.rule id) label position :: after →
          ∃ opened, openAfter [] before = some opened ∧
            ((∃ rest, after =
                .loopDetected id position ::
                  .exited (.rule id) label position false ::
                    rest) ↔
              (∃ label',
                ⟨.rule id, label', position⟩ ∈ opened) ∨
                (id, position) ∈ state.context.active)) ∧
    (state.context.options.loopDetection = false →
      ∀ id position,
        .loopDetected id position ∉ step.events) := by
  have hEvents := account_run hRun
  refine ⟨hEvents.openAfter_eq [], ?_, ?_⟩
  · intro hDetects before id label position after hSplit
    rw [hDetects] at hEvents
    have hRunning : ∀ id position,
        (id, position) ∈ state.context.active ↔
          Running [] id position ∨
            (id, position) ∈ state.context.active := by
      intro id position
      simp [Running]
    have hNone :
        RefusesExactly state.context.active [] [] := by
      simp [RefusesExactly]
    have hExact := hEvents.refusesExactly hRunning hNone
    rw [List.append_nil, hSplit] at hExact
    exact hExact.of_split
  · intro hDetects id position
    exact hEvents.loopDetected_not_mem hDetects id position

/- A rule that runs itself first is refused where it is open,
  and where it was running before. -/
theorem events_nested_and_refusals_exact_left_recursive :
    let one : Parser := .terminal (.byteWhere (· == 0x31))
    let body : Parser :=
      .either (.rule 0)
        (.sequence .pair one (.orDefault .unit (.rule 0)))
    let context : Context :=
      { Context.fresh .standard with active := [(1, 1)] }
    let following : List Event :=
      [.loopDetected 1 0,
        .exited (.rule 1) "deferred" 0 false,
        .entered (.rule 1) "deferred" 1,
        .loopDetected 1 1,
        .exited (.rule 1) "deferred" 1 false,
        .exited (.rule 1) "deferred" 0 true]
    let step : Step Match :=
      ⟨.matched ⟨0, 1, .pair (.byte 0x31) .unit⟩,
        ⟨⟨[0x31], 1, .origin, 1⟩, context⟩,
        [.entered (.rule 1) "deferred" 0] ++
          .entered (.rule 1) "deferred" 0 :: following⟩
    (Parser.rule 0).run ⟨[⟨1, some body⟩], 2⟩ 9
        ⟨.ofBytes [0x31], context⟩ = some step ∧
      openAfter [] step.events = some [] ∧
      ∃ opened,
        openAfter [] [.entered (.rule 1) "deferred" 0] =
          some opened ∧
        ((∃ rest, following =
            .loopDetected 1 0 ::
              .exited (.rule 1) "deferred" 0 false ::
                rest) ↔
          (∃ label, ⟨.rule 1, label, 0⟩ ∈ opened) ∨
            (1, 0) ∈ context.active) := by
  intro one body context following step
  have hRun :
      (Parser.rule 0).run ⟨[⟨1, some body⟩], 2⟩ 9
          ⟨.ofBytes [0x31], context⟩ =
        some step := rfl
  rcases events_nested_and_refusals_exact hRun with
    ⟨hNested, hExact, -⟩
  exact ⟨hRun, hNested, hExact rfl _ 1 _ 0 following rfl⟩

end Parser

end ByteGrammar
