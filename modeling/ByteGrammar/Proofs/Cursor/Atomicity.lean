import ByteGrammar.Engine.Evaluation
import ByteGrammar.Proofs.Engine.Alternation
import ByteGrammar.Proofs.Engine.Collecting

/-
  A parse that fails leaves the cursor where it was, with
  the raw region that it had.

  Few combinators set the cursor back whatever they run: a
  choice after its first part, a token, the search for a
  terminator and the test that something is absent. The
  others rely on their parts. A sequence and its kin go back
  where what follows the first part fails, but leave a
  failure of the first part to that part; so does a
  repetition without an upper bound that collects nothing.
  Where a combinator does not go back at all, what comes
  after a part that moved the cursor never fails.

  So where the parts are atomic, it makes no difference
  whether a combinator also goes back after its first part,
  or does so between two alternatives.

  Main declarations:
    * `Action.Atomic`, `Action.Unfailing`
    * `Action.bindReverting_eq_attempt`
    * `Action.repeated_eq_attempt`
    * `Action.orElse_eq_either`
    * `Parser.atomic_run`
    * `Parser.cursor_of_run_failed`
-/

------------------------------------------------------------
-- Atomic and Unfailing Actions
------------------------------------------------------------

namespace ByteGrammar

namespace Action

variable {α β : Type}

/- If the action fails, position and raw region are what they
  were. -/
def Atomic
    (action : Action α) :
    Prop :=
  ∀ state last events,
    action state = some ⟨.failed, last, events⟩ →
      last.cursor.checkpoint = state.cursor.checkpoint

/- The action matches or raises a fatal error, if it ends at
  all. -/
def Unfailing
    (action : Action α) :
    Prop :=
  ∀ state last events,
    action state ≠ some ⟨.failed, last, events⟩

theorem Unfailing.atomic
    {action : Action α}
    (hAction : Unfailing action) :
    Atomic action := by
  intro state last events hStep
  exact absurd hStep (hAction state last events)

theorem unfailing_pure
    (value : α) :
    Unfailing (pure value) := by
  intro state last events hStep
  cases hStep

theorem unfailing_raise
    (fault : Fault) :
    Unfailing (raise fault : Action α) := by
  intro state last events hStep
  cases hStep

theorem unfailing_report
    (event : Event) :
    Unfailing (report event) := by
  intro state last events hStep
  cases hStep

theorem unfailing_inspect
    (view : Cursor → α) :
    Unfailing (inspect view) := by
  intro state last events hStep
  cases hStep

theorem unfailing_move
    (change : Cursor → Cursor) :
    Unfailing (move change) := by
  intro state last events hStep
  cases hStep

theorem unfailing_optionally
    (action : Action α) :
    Unfailing (optionally action) := by
  intro state last events hStep
  cases optionally_ends hStep

theorem Unfailing.bind
    {first : Action α}
    {next : α → Action β}
    (hFirst : Unfailing first)
    (hNext : ∀ value, Unfailing (next value)) :
    Unfailing (bind first next) := by
  intro state last events hStep
  cases bind_ends hStep with
  | matched _ hMore => exact hNext _ _ _ _ hMore
  | failed hFailed => exact hFirst _ _ _ hFailed

theorem unfailing_iterate
    {σ : Type}
    {pass : σ → Action (Pass σ β)}
    (hPass : ∀ taken, Unfailing (pass taken))
    (limit : Nat)
    (taken : σ) :
    Unfailing (iterate pass limit taken) := by
  induction limit generalizing taken with
  | zero =>
      intro state last events hStep
      cases hStep
  | succ limit ih =>
      apply (hPass taken).bind
      intro result
      cases result with
      | again next => exact ih next
      | done result => exact unfailing_pure result

theorem unfailing_loop
    {σ : Type}
    {pass : σ → Action (Pass σ β)}
    (hPass : ∀ taken, Unfailing (pass taken))
    (start : σ) :
    Unfailing (loop pass start) := by
  unfold loop
  apply (unfailing_inspect _).bind
  intro remaining
  exact unfailing_iterate hPass (remaining + 1) start

end Action

end ByteGrammar

------------------------------------------------------------
-- How Atomicity Is Kept
------------------------------------------------------------

namespace ByteGrammar

namespace Action

variable {α β : Type}

theorem atomic_fail :
    Atomic (fail : Action α) := by
  intro state last events hStep
  cases hStep
  rfl

/- An attempt is atomic whatever it runs. -/
theorem atomic_attempt
    (action : Action α) :
    Atomic (attempt action) := by
  intro state last events hStep
  cases attempt_ends hStep
  rfl

/- An atomic action may be followed by what never fails. -/
theorem Atomic.bind
    {first : Action α}
    {next : α → Action β}
    (hFirst : Atomic first)
    (hNext : ∀ value, Unfailing (next value)) :
    Atomic (bind first next) := by
  intro state last events hStep
  cases bind_ends hStep with
  | matched _ hMore =>
      exact absurd hMore (hNext _ _ _ _)
  | failed hFailed => exact hFirst _ _ _ hFailed

/- To go back to where an atomic action failed is no
  move. -/
theorem Atomic.backTo_eq
    {action : Action α}
    {state last : State}
    {events : List Event}
    (hAction : Atomic action)
    (hFailed :
      action state = some ⟨.failed, last, events⟩) :
    last.backTo state = last := by
  unfold State.backTo
  rw [← hAction _ _ _ hFailed, Cursor.restore_checkpoint]

/- After an atomic action, it is the same to go back from
  what follows and to go back from the whole. -/
theorem bindReverting_eq_attempt
    {first : Action α}
    (hFirst : Atomic first)
    (next : α → Action β) :
    bindReverting first next = attempt (bind first next) := by
  funext state
  cases hStep : first state with
  | none =>
      rw [bindReverting_of_none hStep]
      simp only [attempt, bind, hStep]
  | some step =>
      rcases step with ⟨value | _ | fault, middle, events⟩
      · cases hNext : next value middle with
        | none =>
            rw [bindReverting_of_next_none hStep hNext]
            simp only [attempt, bind, hStep, hNext]
        | some after =>
            have hBoth := bind_of_next hStep hNext
            rcases after with ⟨result | _ | fault, last, more⟩
            · rw [attempt_of_matched hBoth]
              exact bindReverting_of_next_matched hStep hNext
            · rw [attempt_of_failed hBoth]
              exact bindReverting_of_next_failed hStep hNext
            · rw [attempt_of_fatal hBoth]
              exact bindReverting_of_next_fatal hStep hNext
      · rw [bindReverting_of_failed hStep,
          attempt_of_failed (bind_of_failed hStep)]
        have hBack := hFirst.backTo_eq hStep
        unfold State.backTo at hBack
        rw [hBack]
      · rw [bindReverting_of_fatal hStep,
          attempt_of_fatal (bind_of_fatal hStep)]

theorem Atomic.bindReverting
    {first : Action α}
    (hFirst : Atomic first)
    (next : α → Action β) :
    Atomic (bindReverting first next) := by
  rw [bindReverting_eq_attempt hFirst]
  exact atomic_attempt _

/- An attempt of an atomic action is the action. -/
theorem Atomic.attempt_eq
    {action : Action α}
    (hAction : Atomic action) :
    attempt action = action := by
  funext state
  cases hStep : action state with
  | none => simp only [attempt, hStep]
  | some step =>
      rcases step with ⟨value | _ | fault, last, events⟩
      · exact attempt_of_matched hStep
      · rw [attempt_of_failed hStep]
        have hBack := hAction.backTo_eq hStep
        unfold State.backTo at hBack
        rw [hBack]
      · exact attempt_of_fatal hStep

/- What reads the cursor may be followed by what is
  atomic. -/
theorem atomic_inspect_bind
    (view : Cursor → α)
    {next : α → Action β}
    (hNext : ∀ value, Atomic (next value)) :
    Atomic (bind (inspect view) next) := by
  intro state last events hStep
  cases bind_ends hStep with
  | matched hFirst hMore =>
      cases hFirst
      exact hNext _ _ _ _ hMore
  | failed hFailed => cases hFailed

/- What reads the context may be followed by what is
  atomic. -/
theorem atomic_consult_bind
    (view : Context → α)
    {next : α → Action β}
    (hNext : ∀ value, Atomic (next value)) :
    Atomic (bind (consult view) next) := by
  intro state last events hStep
  cases bind_ends hStep with
  | matched hFirst hMore =>
      cases hFirst
      exact hNext _ _ _ _ hMore
  | failed hFailed => cases hFailed

/- After an atomic action that did not match, the cursor is
  where it was, so an atomic action may take over. -/
theorem Atomic.optionally_bind
    {first : Action α}
    {next : Option α → Action β}
    (hFirst : Atomic first)
    (hMatched : ∀ value, Unfailing (next (some value)))
    (hFailed : Atomic (next none)) :
    Atomic (Action.bind (optionally first) next) := by
  intro state last events hStep
  cases bind_ends hStep with
  | matched hOptional hMore =>
      cases optionally_ends hOptional with
      | matched => exact absurd hMore (hMatched _ _ _ _)
      | failed hAction =>
          exact (hFailed _ _ _ hMore).trans
            (hFirst _ _ _ hAction)
  | failed hOptional => cases optionally_ends hOptional

theorem Atomic.within
    {enter : Context → Context}
    {leave : Context → Context → Context}
    {action : Action α}
    (hAction : Atomic action) :
    Atomic (within enter leave action) := by
  intro state last events hStep
  cases within_ends hStep with
  | inner hInner =>
      have hCheckpoint := hAction _ _ _ hInner
      exact hCheckpoint

theorem Atomic.bracketed
    {action : Action α}
    (node : Node)
    (label : String)
    (position : Nat)
    (hAction : Atomic action) :
    Atomic (bracketed node label position action) := by
  intro state last events hStep
  cases bracketed_ends hStep with
  | inner hInner => exact hAction _ _ _ hInner

end Action

end ByteGrammar

------------------------------------------------------------
-- Combinators
------------------------------------------------------------

namespace ByteGrammar

namespace Action

variable {action second : Action Match}

theorem atomic_scan
    (terminal : Terminal) :
    Atomic (scan terminal) := by
  unfold scan
  apply atomic_inspect_bind
  intro start
  apply atomic_inspect_bind
  intro found
  cases found with
  | hit length value =>
      apply Unfailing.atomic
      exact (unfailing_move _).bind fun _ =>
        (unfailing_inspect _).bind fun _ =>
          unfailing_pure _
  | still value => exact (unfailing_pure _).atomic
  | broken length =>
      -- What is touched is not moved to.
      intro state last events hStep
      cases bind_ends hStep with
      | matched hTouch hFail =>
          cases hTouch
          cases hFail
          rfl
      | failed hTouch => cases hTouch
  | miss => exact atomic_fail

theorem atomic_orElse
    (hFirst : Atomic action)
    (hSecond : Atomic second) :
    Atomic (orElse action second) := by
  unfold orElse
  exact hFirst.optionally_bind
    (fun found => unfailing_pure found) hSecond

theorem atomic_either
    (first : Action Match)
    (hSecond : Atomic second) :
    Atomic (either first second) :=
  atomic_orElse (atomic_attempt first) hSecond

/- After an atomic action, it is the same to try another from
  there and from where the first was tried. -/
theorem orElse_eq_either
    (hFirst : Atomic action)
    (second : Action Match) :
    orElse action second = either action second := by
  unfold either
  rw [hFirst.attempt_eq]

theorem unfailing_orDefault
    (fallback : Value)
    (action : Action Match) :
    Unfailing (orDefault fallback action) := by
  unfold orDefault
  apply (unfailing_inspect _).bind
  intro here
  apply (unfailing_optionally action).bind
  intro found
  cases found with
  | some found => exact unfailing_pure found
  | none => exact unfailing_pure _

theorem atomic_peek
    (hAction : Atomic action) :
    Atomic (peek action) := by
  unfold peek
  apply atomic_inspect_bind
  intro before
  apply hAction.bind
  intro found
  exact (unfailing_move _).bind fun _ => unfailing_pure _

/- Where the action matches, the checkpoint is restored;
  where it fails, there is a match. -/
theorem atomic_absent
    (action : Action Match) :
    Atomic (absent action) := by
  intro state last events hStep
  unfold absent at hStep
  cases bind_ends hStep with
  | matched hBefore hRest =>
      cases hBefore
      cases bind_ends hRest with
      | @matched found _ _ _ _ _ hAction hMore =>
          cases found with
          | none => cases hMore
          | some found =>
              cases bind_ends hMore with
              | matched hRestore hFail =>
                  cases hRestore
                  cases hFail
                  rfl
              | failed hRestore => cases hRestore
      | failed hAction => cases optionally_ends hAction
  | failed hBefore => cases hBefore

theorem unfailing_expect
    (message : String)
    (action : Action Match) :
    Unfailing (expect message action) := by
  unfold expect
  apply (unfailing_inspect _).bind
  intro here
  apply (unfailing_optionally action).bind
  intro found
  cases found with
  | some found => exact unfailing_pure found
  | none =>
      exact (unfailing_report _).bind fun _ =>
        unfailing_raise _

theorem unfailing_reject
    (message : String)
    (action : Action Match) :
    Unfailing (reject message action) := by
  unfold reject
  apply (unfailing_inspect _).bind
  intro before
  apply (unfailing_optionally action).bind
  intro found
  cases found with
  | some found =>
      exact (unfailing_move _).bind fun _ =>
        (unfailing_report _).bind fun _ =>
          unfailing_raise _
  | none => exact unfailing_pure _

theorem atomic_map
    (change : Value → Value)
    (hAction : Atomic action) :
    Atomic (map change action) := by
  unfold map
  exact hAction.bind fun _ => unfailing_pure _

theorem atomic_capture
    (hAction : Atomic action) :
    Atomic (capture action) := by
  unfold capture
  apply hAction.bind
  intro found
  exact (unfailing_move _).bind fun _ => unfailing_pure _

theorem atomic_view
    (seen : View)
    (hAction : Atomic action) :
    Atomic (view seen action) := by
  unfold view
  apply hAction.bind
  intro found
  exact (unfailing_inspect _).bind fun _ => unfailing_pure _

end Action

end ByteGrammar

------------------------------------------------------------
-- Repetitions
------------------------------------------------------------

namespace ByteGrammar

namespace Action

variable {action : Action Match}

theorem unfailing_collectPass
    (max : Option Nat)
    (action : Action Match)
    (values : List Value) :
    Unfailing (collectPass max action values) := by
  intro state last events hStep
  cases collectPass_ends hStep

/- With an atomic part, a repetition that collects too little
  is where it started, whether or not it goes back. -/
theorem Atomic.repeated_of_few
    {min : Nat}
    {max : Option Nat}
    {values : List Value}
    {state last : State}
    {events : List Event}
    (hAction : Atomic action)
    (hLoop :
      loop (collectPass max action) [] state =
        some ⟨.matched values, last, events⟩)
    (hFew : values.length < min) :
    repeated min max action state =
      some ⟨.failed, last.backTo state, events⟩ := by
  cases hSome : values.isEmpty && max.isNone with
  | false => exact Action.repeated_of_few hLoop hFew hSome
  | true =>
      simp only [Bool.and_eq_true, List.isEmpty_iff,
        Option.isNone_iff_eq_none] at hSome
      rcases hSome with ⟨rfl, rfl⟩
      rw [hAction.backTo_eq
        (failed_of_collected_nothing hLoop)]
      exact repeated_of_nothing hLoop hFew

/- With an atomic part, a repetition might as well go back
  whenever it fails. -/
theorem repeated_eq_attempt
    (min : Nat)
    (max : Option Nat)
    (hAction : Atomic action) :
    repeated min max action =
      attempt (do
        let start ← position
        let values ← loop (collectPass max action) []
        let stop ← position
        if values.length < min then fail
        else return ⟨start, stop, .list values⟩) := by
  funext state
  have hUnfailing :=
    unfailing_loop (unfailing_collectPass max action) []
  cases hLoop : loop (collectPass max action) [] state with
  | none =>
      rw [repeated_of_none hLoop]
      simp [attempt, Bind.bind, bind, position, inspect,
        hLoop]
  | some step =>
      rcases step with ⟨values | _ | fault, last, events⟩
      · by_cases hFew : values.length < min
        · rw [hAction.repeated_of_few hLoop hFew]
          simp [attempt, Bind.bind, bind, position, inspect,
            hLoop, hFew, fail, State.backTo]
        · rw [repeated_of_enough hLoop (Nat.not_lt.mp hFew)]
          simp [attempt, Bind.bind, bind, position, inspect,
            hLoop, hFew, Pure.pure, pure]
      · exact absurd hLoop (hUnfailing _ _ _)
      · rw [repeated_of_fatal hLoop]
        simp [attempt, Bind.bind, bind, position, inspect,
          hLoop]

theorem atomic_repeated
    (min : Nat)
    (max : Option Nat)
    (hAction : Atomic action) :
    Atomic (repeated min max action) := by
  rw [repeated_eq_attempt min max hAction]
  exact atomic_attempt _

end Action

end ByteGrammar

------------------------------------------------------------
-- Lists, Chains and Scopes
------------------------------------------------------------

namespace ByteGrammar

namespace Action

variable {action other item operand : Action Match}
variable {run : Parser → Action Match}

/- After the first item, there is no failure. -/
theorem atomic_alternate
    {γ : Type}
    (still : Nat × γ → Checkpoint → Nat)
    (single : Match → γ)
    (extend : γ → Match → Match → γ)
    (value : γ → Value)
    (separator : Action Match)
    (hItem : Atomic item) :
    Atomic
      (alternate still single extend value
        item separator) := by
  have hPass : ∀ taken,
      Unfailing
        (alternatePass still extend item separator
          taken) := by
    intro taken
    unfold alternatePass
    apply (unfailing_inspect _).bind
    intro before
    apply (unfailing_optionally separator).bind
    intro between
    cases between with
    | none => exact unfailing_pure _
    | some between =>
        apply (unfailing_optionally item).bind
        intro found
        cases found with
        | none =>
            exact (unfailing_move _).bind fun _ =>
              unfailing_pure _
        | some found =>
            dsimp only
            split
            · exact (unfailing_move _).bind fun _ =>
                unfailing_pure _
            · exact unfailing_pure _
  unfold alternate
  apply hItem.bind
  intro found
  exact (unfailing_loop hPass _).bind fun _ =>
    unfailing_pure _

theorem atomic_separatedList
    (separator : Action Match)
    (hItem : Atomic item) :
    Atomic (separatedList item separator) := by
  rw [separatedList_eq_alternate]
  exact atomic_alternate _ _ _ _ separator hItem

theorem atomic_chain
    (combine : Value → Value → Value → Value)
    (operator : Action Match)
    (hOperand : Atomic operand) :
    Atomic (chain combine operand operator) := by
  rw [chain_eq_alternate]
  exact atomic_alternate _ _ _ _ operator hOperand

theorem atomic_withWhitespace
    (whitespace : Option Parser)
    (hAction : Atomic action) :
    Atomic (withWhitespace whitespace action) := by
  unfold withWhitespace
  exact hAction.within

theorem atomic_withFlag
    (name : String)
    (on : Bool)
    (hAction : Atomic action) :
    Atomic (withFlag name on action) := by
  unfold withFlag
  exact hAction.within

theorem atomic_select
    (condition : Condition)
    (hAction : Atomic action)
    (hOther : Atomic other) :
    Atomic (select condition action other) := by
  unfold select
  apply atomic_consult_bind
  intro holds
  split
  · exact hAction
  · exact hOther

theorem atomic_label
    (id : ParserId)
    (name : String)
    (hAction : Atomic action) :
    Atomic (label id name action) := by
  unfold label
  apply atomic_inspect_bind
  intro here
  exact (hAction.bracketed (.label id) name here).bind
    fun _ => unfailing_pure _

/- A refused attempt does not touch the cursor. -/
theorem atomic_guarded
    (id : ParserId)
    (here : Nat)
    (hAction : Atomic action) :
    Atomic (guarded id here action) := by
  unfold guarded
  apply atomic_consult_bind
  intro detects
  split
  · apply atomic_consult_bind
    intro active
    split
    · intro state last events hStep
      cases bind_ends hStep with
      | matched hReport hFail =>
          cases hReport
          cases hFail
          rfl
      | failed hReport => cases hReport
    · exact hAction.within
  · exact hAction

theorem atomic_callRule
    (rules : Rules)
    (hRun : ∀ parser, Atomic (run parser))
    (handle : Handle) :
    Atomic (callRule rules run handle) := by
  unfold callRule
  apply atomic_inspect_bind
  intro here
  cases rules.target? handle with
  | none => exact (unfailing_raise _).atomic
  | some target =>
      exact (atomic_guarded _ here (hRun target)).bracketed
        _ _ here

end Action

end ByteGrammar

------------------------------------------------------------
-- Parsers
------------------------------------------------------------

namespace ByteGrammar

namespace Parser

open ByteGrammar.Action

/- A node is atomic where what it runs is. -/
theorem atomic_step
    (rules : Rules)
    {run : Parser → Action Match}
    (hRun : ∀ parser, Atomic (run parser))
    (parser : Parser) :
    Atomic (parser.step rules run) := by
  cases parser with
  | terminal leaf => exact atomic_scan leaf
  | sequence join first second =>
      exact (hRun first).bindReverting _
  | between opening content closing =>
      exact (hRun opening).bindReverting _
  | either first second =>
      exact atomic_either (run first) (hRun second)
  | orElse first second =>
      exact atomic_orElse (hRun first) (hRun second)
  | map change parser => exact atomic_map change (hRun parser)
  | filter test parser =>
      exact (hRun parser).bindReverting _
  | repeated min max parser =>
      exact atomic_repeated min max (hRun parser)
  | orDefault fallback parser =>
      exact (unfailing_orDefault fallback (run parser)).atomic
  | followedBy parser lookahead =>
      exact (hRun parser).bindReverting _
  | peek parser => exact atomic_peek (hRun parser)
  | absent parser => exact atomic_absent (run parser)
  | capture parser => exact atomic_capture (hRun parser)
  | view seen parser => exact atomic_view seen (hRun parser)
  | convert conversion parser =>
      exact (hRun parser).bindReverting _
  | expect message parser =>
      exact (unfailing_expect message (run parser)).atomic
  | reject message parser =>
      exact (unfailing_reject message (run parser)).atomic
  | takeUntil orEnd terminator => exact atomic_attempt _
  | rule handle => exact atomic_callRule rules hRun handle
  | label id name parser =>
      exact atomic_label id name (hRun parser)
  | token parser => exact atomic_attempt _
  | withWhitespace whitespace parser =>
      exact atomic_withWhitespace (some whitespace)
        (hRun parser)
  | defaultWhitespace parser =>
      exact atomic_withWhitespace none (hRun parser)
  | withFlag name on parser =>
      exact atomic_withFlag name on (hRun parser)
  | select condition whenTrue whenFalse =>
      exact atomic_select condition (hRun whenTrue)
        (hRun whenFalse)
  | separatedList item separator =>
      exact atomic_separatedList (run separator) (hRun item)
  | chain combine operand operator =>
      exact atomic_chain combine (run operator)
        (hRun operand)

/- Parsers are atomic. -/
theorem atomic_run
    (rules : Rules)
    (depth : Nat)
    (parser : Parser) :
    Atomic (parser.run rules depth) := by
  induction depth generalizing parser with
  | zero =>
      intro state last events hStep
      cases hStep
  | succ depth ih => exact atomic_step rules ih parser

/- After a failure, position and raw region are what they
  were before the parse. -/
theorem cursor_of_run_failed
    {rules : Rules}
    {depth : Nat}
    {parser : Parser}
    {state last : State}
    {events : List Event}
    (hRun :
      parser.run rules depth state =
        some ⟨.failed, last, events⟩) :
    last.cursor.position = state.cursor.position ∧
      last.cursor.raw = state.cursor.raw := by
  have hCheckpoint :
      last.cursor.checkpoint = state.cursor.checkpoint :=
    atomic_run rules depth parser state last events hRun
  simp only [Cursor.checkpoint, Checkpoint.mk.injEq]
    at hCheckpoint
  exact hCheckpoint

/- A sequence that fails after a token was captured. -/
theorem cursor_of_run_failed_after_capture :
    let letter (byte : UInt8) : Parser :=
      .terminal (.byteWhere (· == byte))
    let parser : Parser :=
      .sequence .pair (.capture (.token (letter 0x61)))
        (letter 0x62)
    let before : Cursor :=
      ⟨[0x20, 0x61, 0x63], 0, ⟨2, 1⟩, 0⟩
    let after : Cursor := { before with furthest := 2 }
    let context : Context := .fresh .standard
    parser.run .empty 4 ⟨before, context⟩ =
        some ⟨.failed, ⟨after, context⟩, []⟩ ∧
      after.position = before.position ∧
      after.raw = before.raw := by
  intro letter parser before after context
  have hRun :
      parser.run .empty 4 ⟨before, context⟩ =
        some ⟨.failed, ⟨after, context⟩, []⟩ := rfl
  exact ⟨hRun, cursor_of_run_failed hRun⟩

end Parser

end ByteGrammar
