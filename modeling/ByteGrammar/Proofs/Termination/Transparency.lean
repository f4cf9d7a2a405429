import ByteGrammar.Proofs.Context.Frame
import ByteGrammar.Proofs.Engine.ContextCongruence
import ByteGrammar.Proofs.Termination.Detection

/-
  Detection of loops changes nothing until a loop is
  detected.

  An action is taken as far as it detects no loop. What a
  parse does in this way with detection, it also does
  without, where no rule is recorded as running: the only
  step that depends on the record is the refusal of a call,
  and a refusal is always reported.

  Main declarations:
    * `Action.undetected`
    * `Parser.OverlooksDetection`
    * `Context.Unwatched`
    * `Action.Echoed`, `Action.echoed_contextCongruence`
    * `Parser.parse_undetected_of_silent`
-/

------------------------------------------------------------
-- As Far as No Loop Is Detected
------------------------------------------------------------

namespace ByteGrammar

namespace Event

/- Whether the event says that a loop was detected. -/
def isDetection :
    Event → Bool
  | .loopDetected _ _ => true
  | _ => false

/- No loop was detected in a stretch of a trace. -/
def Silent
    (events : List Event) :
    Prop :=
  ∀ event ∈ events, event.isDetection = false

instance
    (events : List Event) :
    Decidable (Silent events) :=
  inferInstanceAs (Decidable (∀ event ∈ events, _))

theorem silent_of_not_mem
    {events : List Event}
    (hNone : ∀ id position,
      .loopDetected id position ∉ events) :
    Silent events := by
  intro event hEvent
  cases event with
  | loopDetected id position =>
      exact absurd hEvent (hNone id position)
  | _ => rfl

theorem silent_append
    {events more : List Event} :
    Silent (events ++ more) ↔
      Silent events ∧ Silent more :=
  List.forall_mem_append

end Event

namespace Action

variable {α β : Type}

/- The action as far as it detects no loop. Where it does,
  there is no outcome. -/
def undetected
    (action : Action α) :
    Action α :=
  fun state =>
    (action state).filter fun step =>
      decide (Event.Silent step.events)

theorem undetected_eq_some
    {action : Action α}
    {state : State}
    {step : Step α} :
    undetected action state = some step ↔
      action state = some step ∧
        Event.Silent step.events := by
  simp [undetected, Option.filter_eq_some_iff]

theorem refines_undetected
    (action : Action α) :
    Refines (undetected action) action := by
  intro state step hStep
  exact (undetected_eq_some.mp hStep).1

/- Where no loop is detected in a sequence, none is in what
  comes later. -/
theorem undetected_bind_refines_next
    (first : Action α)
    (next : α → Action β) :
    Refines (undetected (bind first next))
      (bind first fun value => undetected (next value)) := by
  intro state step hStep
  rcases undetected_eq_some.mp hStep with ⟨hBind, hSilent⟩
  cases bind_ends hBind with
  | matched hMatched hMore =>
      have hLater := (Event.silent_append.mp hSilent).2
      rw [bind_of_matched hMatched,
        undetected_eq_some.mpr ⟨hMore, hLater⟩]
      rfl
  | failed hFailed => exact bind_of_failed hFailed
  | fatal hFatal => exact bind_of_fatal hFatal

/- Where no loop is detected in a sequence, none is in its
  parts. -/
theorem undetected_bind_refines
    (first : Action α)
    (next : α → Action β) :
    Refines (undetected (bind first next))
      (bind (undetected first)
        fun value => undetected (next value)) := by
  intro state step hStep
  rcases undetected_eq_some.mp hStep with ⟨hBind, hSilent⟩
  cases bind_ends hBind with
  | matched hMatched hMore =>
      rcases Event.silent_append.mp hSilent with
        ⟨hFirst, hLater⟩
      rw [bind_of_matched
          (undetected_eq_some.mpr ⟨hMatched, hFirst⟩),
        undetected_eq_some.mpr ⟨hMore, hLater⟩]
      rfl
  | failed hFailed =>
      exact bind_of_failed
        (undetected_eq_some.mpr ⟨hFailed, hSilent⟩)
  | fatal hFatal =>
      exact bind_of_fatal
        (undetected_eq_some.mpr ⟨hFatal, hSilent⟩)

theorem undetected_optionally_refines
    (action : Action α) :
    Refines (undetected (optionally action))
      (optionally (undetected action)) := by
  intro state step hStep
  rcases undetected_eq_some.mp hStep with ⟨hEnds, hSilent⟩
  cases optionally_ends hEnds with
  | matched hMatched =>
      exact optionally_of_matched
        (undetected_eq_some.mpr ⟨hMatched, hSilent⟩)
  | failed hFailed =>
      exact optionally_of_failed
        (undetected_eq_some.mpr ⟨hFailed, hSilent⟩)
  | fatal hFatal =>
      exact optionally_of_fatal
        (undetected_eq_some.mpr ⟨hFatal, hSilent⟩)

theorem undetected_attempt_refines
    (action : Action α) :
    Refines (undetected (attempt action))
      (attempt (undetected action)) := by
  intro state step hStep
  rcases undetected_eq_some.mp hStep with ⟨hEnds, hSilent⟩
  cases attempt_ends hEnds with
  | matched hMatched =>
      exact attempt_of_matched
        (undetected_eq_some.mpr ⟨hMatched, hSilent⟩)
  | failed hFailed =>
      exact attempt_of_failed
        (undetected_eq_some.mpr ⟨hFailed, hSilent⟩)
  | fatal hFatal =>
      exact attempt_of_fatal
        (undetected_eq_some.mpr ⟨hFatal, hSilent⟩)

theorem undetected_within_refines
    (enter : Context → Context)
    (leave : Context → Context → Context)
    (action : Action α) :
    Refines (undetected (within enter leave action))
      (within enter leave (undetected action)) := by
  intro state step hStep
  rcases undetected_eq_some.mp hStep with ⟨hEnds, hSilent⟩
  cases within_ends hEnds with
  | inner hInner =>
      exact within_of_inner
        (undetected_eq_some.mpr ⟨hInner, hSilent⟩)

theorem undetected_bracketed_refines
    (node : Node)
    (label : String)
    (position : Nat)
    (action : Action α) :
    Refines (undetected (bracketed node label position action))
      (bracketed node label position
        (undetected action)) := by
  intro state step hStep
  rcases undetected_eq_some.mp hStep with ⟨hEnds, hSilent⟩
  cases bracketed_ends hEnds with
  | inner hInner =>
      have hInside := (Event.silent_append.mp hSilent).1
      have hEvents :=
        (List.forall_mem_cons.mp hInside).2
      exact bracketed_of_inner
        (undetected_eq_some.mpr ⟨hInner, hEvents⟩)

end Action

end ByteGrammar

------------------------------------------------------------
-- Contexts With and Without Detection
------------------------------------------------------------

namespace ByteGrammar

namespace Parser

/- Detection of loops makes no difference to what a node
  asks of the context. -/
def OverlooksDetection :
    Parser → Prop
  | select condition _ _ => condition.OverlooksDetection
  | _ => True

end Parser

namespace Context

/- Contexts with detection and without, whichever rules are
  running in them, with one whitespace parser, which is
  admitted. -/
structure Unwatched
    (admitted : Parser → Prop)
    (context context' : Context) :
    Prop
    extends SameWhitespace admitted context context' where
  detects : context.options.loopDetection = true
  options :
    context'.options =
      { context.options with loopDetection := false }
  flags : context.flags = context'.flags

namespace Unwatched

variable {admitted : Parser → Prop}
variable {context context' : Context}

theorem of_detecting
    (hInstalled : ∀ whitespace,
      context.whitespace = some whitespace →
        admitted whitespace) :
    Unwatched admitted (context.detecting true)
      (context.detecting false) where
  toSameWhitespace := ⟨rfl, hInstalled⟩
  detects := rfl
  options := rfl
  flags := rfl

theorem undetects
    (hUnwatched : Unwatched admitted context context') :
    context'.options.loopDetection = false := by
  rw [hUnwatched.options]

theorem newlines
    (hUnwatched : Unwatched admitted context context') :
    context.options.skipNewlines =
      context'.options.skipNewlines := by
  rw [hUnwatched.options]

/- The record of what is running does not matter. -/
theorem withActive
    (active : List (ParserId × Nat))
    (hUnwatched : Unwatched admitted context context') :
    Unwatched admitted { context with active := active }
      context' where
  toSameWhitespace := ⟨hUnwatched.same, hUnwatched.admitted⟩
  detects := hUnwatched.detects
  options := hUnwatched.options
  flags := hUnwatched.flags

/- There is the same to see in them but for detection. -/
theorem surroundings_eq
    (hUnwatched : Unwatched admitted context context') :
    context'.surroundings =
      { context.surroundings with
        options :=
          { context.options with loopDetection := false }
        isActive := context'.isActive } := by
  have hFlags : context'.hasFlag = context.hasFlag := by
    funext name
    rw [hasFlag, hasFlag, hUnwatched.flags]
  simp only [surroundings, ← hUnwatched.same,
    hUnwatched.options, hFlags]

theorem holds
    {condition : Condition}
    (hOverlooks : condition.OverlooksDetection)
    (hUnwatched : Unwatched admitted context context') :
    condition.holds context = condition.holds context' := by
  unfold Condition.holds
  rw [hUnwatched.surroundings_eq]
  exact (hOverlooks context.surroundings false _).symm

theorem concord
    (hOverlook : ∀ node, admitted node →
      node.OverlooksDetection)
    (hInstalls : ∀ {whitespace part : Parser},
      admitted (.withWhitespace whitespace part) →
        admitted whitespace) :
    Concord admitted (Unwatched admitted) where
  holds := by
    intro condition whenTrue whenFalse context context'
      hAdmitted hUnwatched
    exact hUnwatched.holds (hOverlook _ hAdmitted)
  assigned := by
    intro name on part context context' _ hUnwatched
    refine ⟨?_, ?_⟩
    · rw [hasFlag, hasFlag, hUnwatched.flags]
    · intro on
      refine ⟨⟨hUnwatched.same, hUnwatched.admitted⟩,
        hUnwatched.detects, hUnwatched.options, ?_⟩
      simp only [assignFlag, hUnwatched.flags]
  installed := by
    intro whitespace part context context' hAdmitted
      hUnwatched
    exact ⟨.install (hInstalls hAdmitted),
      hUnwatched.detects, hUnwatched.options,
      hUnwatched.flags⟩
  removed := by
    intro context context' hUnwatched
    exact ⟨.remove, hUnwatched.detects,
      hUnwatched.options, hUnwatched.flags⟩
  replaced := by
    intro before before' context context' hBefore hUnwatched
    exact ⟨hBefore.toSameWhitespace.replace,
      hUnwatched.detects, hUnwatched.options,
      hUnwatched.flags⟩
  skipped := by
    intro part context context' _ hUnwatched
    exact ⟨hUnwatched.same, hUnwatched.newlines,
      hUnwatched.admitted⟩

end Unwatched

end Context

end ByteGrammar

------------------------------------------------------------
-- Echoes
------------------------------------------------------------

namespace ByteGrammar

namespace Action

open Context

variable {α β : Type}
variable {admitted : Parser → Prop}

/- What refines an action that is simulated is simulated. -/
theorem Simulated.of_refines
    {alike : Cursor → Cursor → Prop}
    {together : Context → Context → Prop}
    {small action action' : Action α}
    (hRefines : Refines small action)
    (hAction : Simulated alike together action action') :
    Simulated alike together small action' := by
  intro state state' hAlike outcome last events hStep
  exact hAction state state' hAlike outcome last events
    (hRefines state _ hStep)

/- As far as the first action detects no loop, the second
  does the same without detection. -/
def Echoed
    (admitted : Parser → Prop)
    (action action' : Action α) :
    Prop :=
  Simulated Eq (Unwatched admitted) (undetected action)
    action'

theorem Echoed.of_simulated
    {action action' : Action α}
    (hAction :
      Simulated Eq (Unwatched admitted) action action') :
    Echoed admitted action action' :=
  hAction.of_refines (refines_undetected action)

/- A guarded call that is not refused runs its action, and
  does so without detection. -/
theorem Echoed.guarded
    {action action' : Action Match}
    (id : ParserId)
    (here : Nat)
    (hAction : Echoed admitted action action') :
    Echoed admitted (guarded id here action)
      (guarded id here action') := by
  intro state state' hAlike outcome last events hStep
  rcases undetected_eq_some.mp hStep with ⟨hEnds, hSilent⟩
  have hContext := hAlike.context
  rw [guarded_of_undetected hContext.undetects]
  cases guarded_ends hEnds with
  | undetected hOff =>
      rw [hContext.detects] at hOff
      cases hOff
  | refused =>
      have hDetection :=
        hSilent (.loopDetected id here) List.mem_cons_self
      cases hDetection
  | @idle outcome inner events _ _ hInner =>
      have hActivated :
          State.Alike Eq (Unwatched admitted)
            { state with
              context := state.context.activate id here }
            state' :=
        ⟨hAlike.cursor, hContext.withActive _⟩
      rcases hAction _ _ hActivated _ _ _
          (undetected_eq_some.mpr ⟨hInner, hSilent⟩) with
        ⟨last', hInner', hLast⟩
      exact ⟨last', hInner', hLast.cursor,
        hLast.context.withActive _⟩

/- All operations on cursors are echoed. -/
theorem echoed_cursorCongruence :
    CursorCongruence Eq (Echoed admitted) := by
  have hSimulated :
      CursorCongruence Eq
        (Simulated Eq (Unwatched admitted)) :=
    simulated_cursorCongruence Cursor.likeness_eq.outlook
  constructor
  case exhausted =>
    intro α
    exact .of_simulated hSimulated.exhausted
  case pure =>
    intro α value
    exact .of_simulated (hSimulated.pure value)
  case bind =>
    intro α β first first' next next' hFirst hNext
    exact (hSimulated.bind hFirst hNext).of_refines
      (undetected_bind_refines first next)
  case fail =>
    intro α
    exact .of_simulated hSimulated.fail
  case optionally =>
    intro α action action' hAction
    exact (hSimulated.optionally hAction).of_refines
      (undetected_optionally_refines action)
  case attempt =>
    intro α action action' hAction
    exact (hSimulated.attempt hAction).of_refines
      (undetected_attempt_refines action)
  case inspect =>
    intro α view view' hView
    exact .of_simulated (hSimulated.inspect hView)
  case move =>
    intro change change' hChange
    exact .of_simulated (hSimulated.move hChange)
  case checkpoint =>
    intro α next next' hNext
    exact (hSimulated.checkpoint hNext).of_refines
      (undetected_bind_refines_next checkpoint next)
  case record =>
    intro α β view next next' start stop hView hNext
    refine (hSimulated.record start stop hView
      hNext).of_refines ?_
    intro state step hStep
    have hInspect :=
      undetected_bind_refines_next _ _ _ _ hStep
    exact refines_congruence.bind
      (refines_congruence.move _)
      (fun _ => undetected_bind_refines_next _ _) _ _
      hInspect
  case unread =>
    intro error
    exact .of_simulated (hSimulated.unread error)
  case committed =>
    intro message here
    exact .of_simulated (hSimulated.committed message here)
  case rejected =>
    intro message here
    exact .of_simulated (hSimulated.rejected message here)
  case labelled =>
    intro action action' id name here hAction
    exact (hSimulated.labelled id name here
      hAction).of_refines
        (undetected_bracketed_refines _ name here action)

/- All operations of parsers are echoed. -/
theorem echoed_contextCongruence :
    ContextCongruence Eq (Unwatched admitted)
      (Echoed admitted) where
  toCursorCongruence := echoed_cursorCongruence
  consult := by
    intro α β view next next' hNext
    exact (Simulated.consult_bind hNext).of_refines
      (undetected_bind_refines_next (consult view) next)
  within := by
    intro α action action' enter leave hEnter hLeave hAction
    exact (Simulated.within hEnter hLeave
      hAction).of_refines
        (undetected_within_refines enter leave action)
  unbound := by
    intro id here
    apply Echoed.of_simulated
    exact .of_const _ _ (fun _ => rfl) fun _ => rfl
  called := by
    intro action action' id here hAction
    exact ((hAction.guarded id here).bracketed _ _
      here).of_refines
        (undetected_bracketed_refines _ _ here _)

end Action

end ByteGrammar

------------------------------------------------------------
-- Parsers
------------------------------------------------------------

namespace ByteGrammar

namespace Parser

open ByteGrammar.Action ByteGrammar.Context

variable {rules : Rules}
variable {parser : Parser}
variable {cursor : Cursor}
variable {context : Context}

/- A parse without detection may go as deep as one with
  detection. -/
theorem depth_detecting_le :
    depth rules parser ⟨cursor, context.detecting true⟩ ≤
      depth rules parser
        ⟨cursor, context.detecting false⟩ := by
  have hVariants : ∀ nodes,
      variants nodes (context.detecting true).options ≤
        variants nodes (context.detecting false).options := by
    intro nodes
    simp [variants, detecting, Nat.one_shiftLeft,
      Nat.one_le_two_pow]
  have hFrames :=
    Nat.mul_le_mul_left
      (frames rules ⟨cursor, context.detecting true⟩)
      (hVariants (rules.size + parser.size +
        (context.detecting true).whitespaceSize))
  exact Nat.add_le_add_right
    (Nat.add_le_add_right
      (Nat.mul_le_mul_right (rules.size + 1) hFrames) _) 1

/-
  A parse with detection ends. If it detects no loop, the
  same parse without detection ends too: with the same
  outcome, the same cursor and the same events. Both leave
  their contexts as they were, which differ in detection
  only.
-/
theorem parse_undetected_of_silent
    (hOverlook : ∀ node, parser.MayRun rules context node →
      node.OverlooksDetection)
    (hPosition : cursor.position ≤ cursor.data.length) :
    ∃ outcome last events,
      parser.parse rules ⟨cursor, context.detecting true⟩ =
          some ⟨outcome, ⟨last, context.detecting true⟩,
            events⟩ ∧
        ((∀ id position,
            .loopDetected id position ∉ events) →
          parser.parse rules
              ⟨cursor, context.detecting false⟩ =
            some ⟨outcome, ⟨last, context.detecting false⟩,
              events⟩) := by
  have hSettles :
      Settles ⟨cursor, context.detecting true⟩
        (parser.run rules
          (depth rules parser
            ⟨cursor, context.detecting true⟩)) :=
    settles_run rfl (budget_lt_depth rfl)
  rcases hSettles _ (State.Near.refl hPosition) with
    ⟨⟨outcome, ⟨last, found⟩, events⟩, hRun, -⟩
  have hKept := keepsContext_run rules _ parser _ _ hRun
  dsimp only at hKept
  subst hKept
  refine ⟨outcome, last, events, hRun, ?_⟩
  intro hNone
  have hEchoed :
      Echoed (parser.MayRun rules context)
        (parser.run rules
          (depth rules parser
            ⟨cursor, context.detecting true⟩))
        (parser.run rules
          (depth rules parser
            ⟨cursor, context.detecting true⟩)) :=
    echoed_contextCongruence.parser_run Cursor.likeness_eq
      (Unwatched.concord hOverlook MayRun.installs)
      MayRun.closed _ MayRun.self
  have hAlike :
      State.Alike Eq
        (Unwatched (parser.MayRun rules context))
        ⟨cursor, context.detecting true⟩
        ⟨cursor, context.detecting false⟩ :=
    ⟨rfl, .of_detecting fun _ => MayRun.installed⟩
  have hSilent := Event.silent_of_not_mem hNone
  rcases hEchoed _ _ hAlike _ _ _
      (undetected_eq_some.mpr ⟨hRun, hSilent⟩) with
    ⟨⟨cursor', context'⟩, hRun', hLast⟩
  have hKept := keepsContext_run rules _ parser _ _ hRun'
  have hCursor := hLast.cursor
  dsimp only at hKept hCursor
  subst hKept hCursor
  exact run_refines depth_detecting_le parser _ _ hRun'

/- A letter in parentheses, after a blank that is installed
  on the way, by a rule that runs again one byte further
  on. -/
theorem parse_undetected_of_silent_nested :
    let letter (byte : UInt8) : Parser :=
      .terminal (.byteWhere (· == byte))
    let group : Parser :=
      .between (letter 0x28) (.rule 0) (letter 0x29)
    let spaced : Parser :=
      .withWhitespace (letter 0x5F)
        (.withFlag "strict" true (.token (letter 0x61)))
    let rules : Rules :=
      ⟨[⟨1, some (.either group spaced)⟩], 2⟩
    let context : Context := .fresh .standard
    let data : List UInt8 := [0x28, 0x5F, 0x61, 0x29]
    let events : List Event :=
      [.entered (.rule 1) "deferred" 0,
        .entered (.rule 1) "deferred" 1,
        .exited (.rule 1) "deferred" 1 true,
        .exited (.rule 1) "deferred" 0 true]
    (∀ node, (Parser.rule 0).MayRun rules context node →
        node.OverlooksDetection) ∧
      (Cursor.ofBytes data).position ≤ data.length ∧
      (∀ id position, .loopDetected id position ∉ events) ∧
      (Parser.rule 0).parse rules
          ⟨.ofBytes data, context.detecting false⟩ =
        some ⟨.matched ⟨0, 4, .byte 0x61⟩,
          ⟨⟨data, 4, .origin, 4⟩, context.detecting false⟩,
          events⟩ := by
  intro letter group spaced rules context data events
  have hRules : rules.Every OverlooksDetection := by
    simp [Rules.Every, Every, rules, group, spaced, letter,
      OverlooksDetection]
  have hOverlook : ∀ node,
      (Parser.rule 0).MayRun rules context node →
        node.OverlooksDetection := by
    intro node hNode
    apply hNode.meets_of_every hRules
    simp [Every, context, Context.fresh, OverlooksDetection]
  have hPosition :
      (Cursor.ofBytes data).position ≤ data.length :=
    Nat.zero_le _
  have hNone : ∀ id position,
      .loopDetected id position ∉ events := by
    intro id position
    simp [events]
  refine ⟨hOverlook, hPosition, hNone, ?_⟩
  rcases parse_undetected_of_silent hOverlook hPosition
    with
    ⟨outcome, last, found, hRun, hEcho⟩
  have hFound :
      (Parser.rule 0).parse rules
          ⟨.ofBytes data, context.detecting true⟩ =
        some ⟨.matched ⟨0, 4, .byte 0x61⟩,
          ⟨⟨data, 4, .origin, 4⟩, context.detecting true⟩,
          events⟩ := rfl
  rw [hFound] at hRun
  cases hRun
  exact hEcho hNone

end Parser

end ByteGrammar
