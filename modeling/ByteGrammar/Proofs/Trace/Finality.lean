import ByteGrammar.Engine.Parse
import ByteGrammar.Proofs.Engine.Ends
import ByteGrammar.Proofs.Engine.ScopeCongruence

/-
  What a parse reports of its fatal error.

  A commit point that fails and a match that is rejected are
  announced by an event. Nothing that runs such a parser
  tries anything else: all it still reports is that nodes
  are left without a match.

  Main declarations:
    * `Event.isAlarm`, `Fault.alarm?`
    * `Event.Concludes`
    * `Action.Conclusive`
    * `Event.Decisive`
    * `Parser.decisive_events`
-/

------------------------------------------------------------
-- Alarms
------------------------------------------------------------

namespace ByteGrammar

namespace Event

/- Whether the event announces a fatal error. -/
def isAlarm :
    Event → Bool
  | .commitFailed _ _ => true
  | .matchRejected _ _ => true
  | _ => false

/- Whether the event says that a node is left without a
  match. -/
def isFutileExit :
    Event → Bool
  | .exited _ _ _ matched => !matched
  | _ => false

end Event

namespace Fault

/- The event that announces a fatal error. A rule that is not
  bound is not announced. -/
def alarm? :
    Fault → Option Event
  | .committed message position =>
      some (.commitFailed position message)
  | .rejected message position =>
      some (.matchRejected position message)
  | .unbound _ _ => none

end Fault

namespace Outcome

/- The fatal error of an outcome, if it is one. -/
def fault?
    {α : Type} :
    Outcome α → Option Fault
  | .fatal fault => some fault
  | _ => none

end Outcome

namespace Report

/- The fatal error of a report, if there is one. -/
def fault?
    (report : Report) :
    Option Fault :=
  match report.result with
  | .error (.fatal fault _) => some fault
  | _ => none

/- The event that closes a report, if it is that of a
  failure. -/
def closing
    (report : Report) :
    List Event :=
  match report.result with
  | .ok _ => []
  | .error (.noMatch location) =>
      [.noMatch location.position]
  | .error (.trailingInput location) =>
      [.trailingInput location.position]
  | .error (.fatal fault _) =>
      [.fatal fault.position fault.kind]

end Report

end ByteGrammar

------------------------------------------------------------
-- Conclusive Events
------------------------------------------------------------

namespace ByteGrammar

namespace Event

/- None of the events is an alarm. -/
def Quiet
    (events : List Event) :
    Prop :=
  ∀ event ∈ events, event.isAlarm = false

/- All events are exits without a match. -/
def Futile
    (events : List Event) :
    Prop :=
  ∀ event ∈ events, event.isFutileExit = true

theorem quiet_nil : Quiet [] := by
  intro event hEvent
  cases hEvent

theorem Quiet.append
    {first more : List Event}
    (hFirst : Quiet first)
    (hMore : Quiet more) :
    Quiet (first ++ more) := by
  intro event hEvent
  rcases List.mem_append.mp hEvent with hIn | hIn
  · exact hFirst event hIn
  · exact hMore event hIn

/- Exits are no alarms. -/
theorem Futile.quiet
    {events : List Event}
    (hFutile : Futile events) :
    Quiet events := by
  intro event hEvent
  have hExit := hFutile event hEvent
  cases event <;> first | rfl | cases hExit

/-
  Events that go with what was raised: without a fatal
  error there is no alarm, and with one there is its own,
  with nothing but exits after it.
-/
inductive Concludes :
    Option Fault → List Event → Prop where
  | quiet {events : List Event}
      (hQuiet : Quiet events) :
      Concludes none events
  | raised {fault : Fault} {before after : List Event}
      (hBefore : Quiet before)
      (hAfter : Futile after) :
      Concludes (some fault)
        (before ++ (fault.alarm?.toList ++ after))

namespace Concludes

variable {raised : Option Fault} {events : List Event}

theorem quiet_of_none
    (hEvents : Concludes none events) :
    Quiet events := by
  cases hEvents with
  | quiet hQuiet => exact hQuiet

/- Events without an alarm may come before. -/
theorem after_quiet
    {first : List Event}
    (hFirst : Quiet first)
    (hEvents : Concludes raised events) :
    Concludes raised (first ++ events) := by
  cases hEvents with
  | quiet hQuiet => exact .quiet (hFirst.append hQuiet)
  | raised hBefore hAfter =>
      rw [← List.append_assoc]
      exact .raised (hFirst.append hBefore) hAfter

/- A node that is left without a match may come after; a
  match only where nothing was raised. -/
theorem before_exit
    {node : Node}
    {label : String}
    {position : Nat}
    {matched : Bool}
    (hEvents : Concludes raised events)
    (hMatched : matched = true → raised = none) :
    Concludes raised
      (events ++ [.exited node label position matched]) := by
  cases hEvents with
  | quiet hQuiet =>
      refine .quiet (hQuiet.append ?_)
      intro event hEvent
      cases List.mem_singleton.mp hEvent
      rfl
  | raised hBefore hAfter =>
      have hFutile : matched = false := by
        cases matched with
        | false => rfl
        | true => cases hMatched rfl
      subst hFutile
      rw [List.append_assoc, List.append_assoc]
      apply Concludes.raised hBefore
      intro event hEvent
      rcases List.mem_append.mp hEvent with hIn | hIn
      · exact hAfter event hIn
      · cases List.mem_singleton.mp hIn
        rfl

end Concludes

end Event

end ByteGrammar

------------------------------------------------------------
-- Conclusive Actions
------------------------------------------------------------

namespace ByteGrammar

namespace Action

open ByteGrammar.Event

variable {α β : Type}

/- However the action ends, its events go with what it
  raised. -/
def Conclusive
    (action : Action α) :
    Prop :=
  ∀ state step, action state = some step →
    Concludes step.outcome.fault? step.events

theorem conclusive_pure
    (value : α) :
    Conclusive (pure value) := by
  intro state step hStep
  cases hStep
  exact .quiet quiet_nil

theorem conclusive_fail :
    Conclusive (fail : Action α) := by
  intro state step hStep
  cases hStep
  exact .quiet quiet_nil

theorem conclusive_inspect
    (view : Cursor → α) :
    Conclusive (inspect view) := by
  intro state step hStep
  cases hStep
  exact .quiet quiet_nil

theorem conclusive_move
    (change : Cursor → Cursor) :
    Conclusive (move change) := by
  intro state step hStep
  cases hStep
  exact .quiet quiet_nil

/- What is no alarm may be reported anywhere. -/
theorem conclusive_report
    {event : Event}
    (hEvent : event.isAlarm = false) :
    Conclusive (report event) := by
  intro state step hStep
  cases hStep
  refine .quiet ?_
  intro reported hReported
  cases List.mem_singleton.mp hReported
  exact hEvent

/- An action that matched has raised no alarm. -/
theorem Conclusive.bind
    {first : Action α}
    {next : α → Action β}
    (hFirst : Conclusive first)
    (hNext : ∀ value, Conclusive (next value)) :
    Conclusive (bind first next) := by
  intro state step hStep
  cases bind_ends hStep with
  | matched hMatched hMore =>
      have hQuiet := (hFirst _ _ hMatched).quiet_of_none
      exact (hNext _ _ _ hMore).after_quiet hQuiet
  | failed hFailed => exact hFirst _ _ hFailed
  | fatal hFatal => exact hFirst _ _ hFatal

/- An alarm is raised at once. -/
theorem conclusive_alarm
    {event : Event}
    {fault : Fault}
    (hAlarm : fault.alarm? = some event) :
    Conclusive
      (bind (report event)
        fun _ => (raise fault : Action α)) := by
  intro state step hStep
  cases hStep
  have hRaised :
      Concludes (some fault)
        ([] ++ (fault.alarm?.toList ++ [])) :=
    .raised quiet_nil fun _ hEvent => by cases hEvent
  rw [hAlarm] at hRaised
  exact hRaised

theorem Conclusive.bracketed
    {action : Action α}
    (node : Node)
    (label : String)
    (position : Nat)
    (hAction : Conclusive action) :
    Conclusive (bracketed node label position action) := by
  intro state step hStep
  cases bracketed_ends hStep with
  | @inner outcome _ events hInner =>
      have hInside :
          Concludes outcome.fault?
            ([.entered node label position] ++ events) := by
        apply (hAction _ _ hInner).after_quiet
        intro event hEvent
        cases List.mem_singleton.mp hEvent
        rfl
      apply hInside.before_exit
      intro hMatched
      cases outcome with
      | matched value => rfl
      | failed => cases hMatched
      | fatal fault => cases hMatched

theorem Conclusive.within
    {enter : Context → Context}
    {leave : Context → Context → Context}
    {action : Action α}
    (hAction : Conclusive action) :
    Conclusive (within enter leave action) := by
  intro state step hStep
  cases within_ends hStep with
  | inner hInner =>
      have hEvents := hAction _ _ hInner
      exact hEvents

/- Nothing swallows a fatal error, raises another one or
  goes on after it. -/
theorem conclusive_cursorCongruence :
    CursorCongruence Eq
      fun action _ => Conclusive action where
  exhausted := by
    intro α state step hStep
    cases hStep
  pure := conclusive_pure
  bind := by
    intro α β first _ next _ hFirst hNext
    exact hFirst.bind hNext
  fail := conclusive_fail
  optionally := by
    intro α action _ hAction state step hStep
    cases optionally_ends hStep with
    | matched hMatched => exact hAction _ _ hMatched
    | failed hFailed => exact hAction _ _ hFailed
    | fatal hFatal => exact hAction _ _ hFatal
  attempt := by
    intro α action _ hAction state step hStep
    cases attempt_ends hStep with
    | matched hMatched => exact hAction _ _ hMatched
    | failed hFailed =>
        have hEvents := hAction _ _ hFailed
        exact hEvents
    | fatal hFatal => exact hAction _ _ hFatal
  inspect := by
    intro α view _ _
    exact conclusive_inspect view
  move := by
    intro change _ _
    exact conclusive_move change
  checkpoint := by
    intro α next _ hNext
    apply (conclusive_inspect _).bind
    intro saved
    let cursor : Cursor := ⟨[], saved.position, saved.raw, 0⟩
    exact hNext (rfl : cursor = cursor)
  record := by
    intro α β view next _ start stop _ hNext
    exact (conclusive_move _).bind fun _ =>
      (conclusive_inspect view).bind hNext
  unread := by
    intro error
    exact (conclusive_report rfl).bind fun _ =>
      conclusive_fail
  committed := by
    intro message here
    exact conclusive_alarm rfl
  rejected := by
    intro message here
    exact conclusive_alarm rfl
  labelled := by
    intro action _ id name here hAction
    exact hAction.bracketed (.label id) name here

theorem conclusive_scopeCongruence :
    ScopeCongruence Eq
      fun action _ => Conclusive action where
  toCursorCongruence := conclusive_cursorCongruence
  consult := by
    intro α view state step hStep
    cases hStep
    exact .quiet quiet_nil
  inScope := by
    intro α action _ enter leave _ _ _ hAction
    exact hAction.within
  unbound := by
    intro id here state step hStep
    cases hStep
    have hRaised :
        Concludes (some (.unbound id here)) ([] ++ []) :=
      .raised quiet_nil fun _ hEvent => by cases hEvent
    exact hRaised
  called := by
    intro action _ id here hAction
    refine @CursorCongruence.called Eq _ action action
      conclusive_cursorCongruence ?_ ?_ ?_ ?_ id here hAction
    · intro view state step hStep
      cases hStep
      exact .quiet quiet_nil
    · intro id here
      exact (conclusive_report rfl).bind fun _ =>
        conclusive_fail
    · intro action _ id here hAction
      exact hAction.within
    · intro action _ node label here hAction
      exact hAction.bracketed node label here

end Action

end ByteGrammar

------------------------------------------------------------
-- Decisive Events
------------------------------------------------------------

namespace ByteGrammar

namespace Event

/-
  Events that decide what a parse comes to, up to those that
  close them: there is an alarm just where its fatal error
  was raised, with the message and position of the error.
  Then it is the only one, and only exits without a match
  follow.
-/
structure Decisive
    (raised : Option Fault)
    (closing events : List Event) :
    Prop where
  committed :
    (∃ position message,
      .commitFailed position message ∈ events) ↔
      ∃ message position,
        raised = some (.committed message position)
  rejected :
    (∃ position message,
      .matchRejected position message ∈ events) ↔
      ∃ message position,
        raised = some (.rejected message position)
  final : ∀ fault event,
    raised = some fault → fault.alarm? = some event →
      ∃ before after,
        events = before ++ event :: (after ++ closing) ∧
        (∀ other ∈ before ++ after ++ closing,
          other.isAlarm = false) ∧
        ∀ later ∈ after, ∃ node label position,
          later = .exited node label position false

/- The alarms among events are those of what was raised. -/
theorem Concludes.alarm_mem_iff
    {raised : Option Fault}
    {events : List Event}
    {event : Event}
    (hEvents : Concludes raised events)
    (hAlarm : event.isAlarm = true) :
    event ∈ events ↔ raised.bind Fault.alarm? = some event := by
  cases hEvents with
  | quiet hQuiet =>
      constructor
      · intro hEvent
        rw [hQuiet event hEvent] at hAlarm
        cases hAlarm
      · intro hNone
        cases hNone
  | @raised fault before after hBefore hAfter =>
      have hAside : ∀ events, Quiet events →
          event ∉ events := by
        intro events hQuiet hEvent
        rw [hQuiet event hEvent] at hAlarm
        cases hAlarm
      simp only [List.mem_append, hAside before hBefore,
        hAside after hAfter.quiet, Option.mem_toList,
        Option.bind_some, false_or, or_false]

/- The alarm of a commit point is that of its error. -/
theorem bind_alarm?_eq_commitFailed
    {raised : Option Fault}
    {position : Nat}
    {message : String} :
    raised.bind Fault.alarm? =
        some (.commitFailed position message) ↔
      raised = some (.committed message position) := by
  cases raised with
  | none => simp
  | some fault =>
      cases fault <;> simp [Fault.alarm?, and_comm]

/- The alarm of a rejected match is that of its error. -/
theorem bind_alarm?_eq_matchRejected
    {raised : Option Fault}
    {position : Nat}
    {message : String} :
    raised.bind Fault.alarm? =
        some (.matchRejected position message) ↔
      raised = some (.rejected message position) := by
  cases raised with
  | none => simp
  | some fault =>
      cases fault <;> simp [Fault.alarm?, and_comm]

/- Events that go with what was raised decide it, also when
  they are closed by what is no alarm. -/
theorem Concludes.decisive
    {raised : Option Fault}
    {closing events : List Event}
    (hEvents : Concludes raised events)
    (hClosing : Quiet closing) :
    Decisive raised closing (events ++ closing) := by
  have hMem : ∀ event : Event, event.isAlarm = true →
      (event ∈ events ++ closing ↔
        raised.bind Fault.alarm? = some event) := by
    intro event hAlarm
    rw [← hEvents.alarm_mem_iff hAlarm, List.mem_append,
      or_iff_left]
    intro hEvent
    rw [hClosing event hEvent] at hAlarm
    cases hAlarm
  constructor
  · rw [exists_comm]
    refine exists_congr fun message =>
      exists_congr fun position => ?_
    rw [hMem _ rfl, bind_alarm?_eq_commitFailed]
  · rw [exists_comm]
    refine exists_congr fun message =>
      exists_congr fun position => ?_
    rw [hMem _ rfl, bind_alarm?_eq_matchRejected]
  · intro fault event hRaised hAlarm
    subst hRaised
    cases hEvents with
    | @raised _ before after hBefore hAfter =>
        refine ⟨before, after, ?_, ?_, ?_⟩
        · rw [hAlarm, List.append_assoc]
          rfl
        · exact (hBefore.append hAfter.quiet).append hClosing
        · intro later hLater
          have hExit := hAfter later hLater
          cases later with
          | exited node label position matched =>
              cases matched with
              | false => exact ⟨node, label, position, rfl⟩
              | true => cases hExit
          | _ => cases hExit

end Event

end ByteGrammar

------------------------------------------------------------
-- Parses
------------------------------------------------------------

namespace ByteGrammar

namespace Report

/- The event that closes a report is no alarm. -/
theorem quiet_closing
    (report : Report) :
    Event.Quiet report.closing := by
  unfold closing
  intro event hEvent
  split at hEvent
  · cases hEvent
  all_goals
    cases List.mem_singleton.mp hEvent
    rfl

/- A report has the events of its parse between those that
  open and close it. -/
theorem ofStep_events
    (code : List UInt8)
    (requireEof : Bool)
    (step : Step Match) :
    let report := ofStep code requireEof step
    report.fault? = step.outcome.fault? ∧
      report.events =
        .started code.length :: step.events ++
          report.closing := by
  rcases step with ⟨outcome, last, events⟩
  cases outcome with
  | failed => exact ⟨rfl, rfl⟩
  | fatal fault => exact ⟨rfl, rfl⟩
  | matched found =>
      unfold ofStep
      dsimp only
      split
      · exact ⟨rfl, rfl⟩
      · exact ⟨rfl, (List.append_nil _).symm⟩

end Report

namespace Parser

open ByteGrammar.Action

/-
  The events of every parse decide what it comes to: a
  failed commit point and a rejected match are final and
  reported unchanged. So do the events of a parse of a whole
  input, up to the one that closes its report.
-/
theorem decisive_events
    (rules : Rules)
    (parser : Parser) :
    (∀ (depth : Nat) (state : State) (step : Step Match),
      parser.run rules depth state = some step →
        Event.Decisive step.outcome.fault? []
          step.events) ∧
    ∀ (options : Options) (input : String)
      (report : Report),
      parser.tryParse rules options input = some report →
        Event.Decisive report.fault? report.closing
          report.events := by
  have hRun : ∀ (depth : Nat),
      Conclusive (parser.run rules depth) := by
    intro depth
    exact conclusive_scopeCongruence.parser_run
      Cursor.likeness_eq rules depth parser
  constructor
  · intro depth state step hStep
    have hDecisive :=
      (hRun depth state step hStep).decisive Event.quiet_nil
    rw [List.append_nil] at hDecisive
    exact hDecisive
  · intro options input report hReport
    unfold tryParse at hReport
    rcases Option.map_eq_some_iff.mp hReport with
      ⟨step, hStep, rfl⟩
    have hSteps := hRun _ _ step hStep
    rcases Report.ofStep_events (Utf8.encode input)
      options.requireEof step with ⟨hFault, hEvents⟩
    rw [hFault, hEvents]
    have hOpening :
        Event.Quiet [.started (Utf8.encode input).length] := by
      intro event hEvent
      cases List.mem_singleton.mp hEvent
      rfl
    have hOpened := hSteps.after_quiet hOpening
    exact hOpened.decisive (Report.quiet_closing _)

/- A match is rejected in a rule below a choice, after a
  label was left with a match. -/
theorem decisive_events_of_reject :
    let letter (byte : UInt8) : Parser :=
      .terminal (.byteWhere (· == byte))
    let body : Parser :=
      .sequence .pair (.label 2 "a" (letter 0x61))
        (.reject "no b" (letter 0x62))
    let rules : Rules := ⟨[⟨1, some body⟩], 3⟩
    let parser : Parser :=
      .either (.repeated 0 none (.rule 0)) (letter 0x61)
    let events : List Event :=
      [.entered (.rule 1) "deferred" 0,
        .entered (.label 2) "a" 0,
        .exited (.label 2) "a" 0 true,
        .matchRejected 1 "no b",
        .exited (.rule 1) "deferred" 0 false]
    let step : Step Match :=
      ⟨.fatal (.rejected "no b" 1),
        ⟨⟨[0x61, 0x62], 1, .origin, 2⟩, .fresh .standard⟩,
        events⟩
    let report : Report :=
      ⟨.error (.fatal (.rejected "no b" 1)
          ⟨[0x61, 0x62], 1⟩),
        .started 2 :: events ++ [.fatal 1 .rejected]⟩
    (parser.run rules 7
          ⟨.ofBytes [0x61, 0x62], .fresh .standard⟩ =
        some step ∧
      Event.Decisive step.outcome.fault? [] step.events) ∧
    parser.tryParse rules .standard "ab" = some report ∧
      Event.Decisive report.fault? report.closing
        report.events := by
  intro letter body rules parser events step report
  have hRun :
      parser.run rules 7
          ⟨.ofBytes [0x61, 0x62], .fresh .standard⟩ =
        some step := rfl
  have hReport :
      parser.tryParse rules .standard "ab" =
        some report := by
    rfl
  have hDecisive := decisive_events rules parser
  exact ⟨⟨hRun, hDecisive.1 7 _ _ hRun⟩, hReport,
    hDecisive.2 _ _ _ hReport⟩

end Parser

end ByteGrammar
