import ByteGrammar.Proofs.Cursor.Spans
import ByteGrammar.Proofs.Engine.Depth
import ByteGrammar.Proofs.Termination.Budget
import ByteGrammar.Proofs.Termination.Settling

/-
  With loop detection, parses end.

  A combinator settles where its parts do. Parts that are
  parsers have a smaller budget, so a parse settles to any
  depth that exceeds its own.

  Main declarations:
    * `Parser.settles_step`
    * `Parser.settles_run`
    * `Parser.exists_outcome`
-/

------------------------------------------------------------
-- Terminals, Sequences and Choices
------------------------------------------------------------

namespace ByteGrammar

namespace Action

open Cursor

variable {base : State}
variable {first second third : Action Match}

theorem settles_scan
    (terminal : Terminal) :
    Settles base (scan terminal) := by
  intro state hNear
  unfold scan
  apply SettlesAt.after rfl
  apply SettlesAt.after rfl
  dsimp only
  cases terminal.scan state.cursor.remaining with
  | hit length value =>
      have hAdvance := leads_advance hNear.inside length
      apply SettlesAt.after rfl
      apply SettlesAt.after rfl
      exact SettlesAt.pure (hNear.move hAdvance)
  | still value => exact SettlesAt.pure hNear
  | broken length =>
      have hTouch := leads_touch hNear.inside length
      apply SettlesAt.after rfl
      exact SettlesAt.fail (hNear.move hTouch)
  | miss => exact SettlesAt.fail hNear

theorem settles_sequence
    (join : Value → Value → Value)
    (hFirst : Settles base first)
    (hSecond : Settles base second) :
    Settles base (sequence join first second) := by
  intro state hNear
  unfold sequence
  apply SettlesAt.bindReverting hNear (hFirst state hNear)
  intro left middle _ _ hMiddle
  apply SettlesAt.bind (hSecond middle hMiddle)
  intro right last _ _ hLast
  exact SettlesAt.pure hLast

theorem settles_between
    (hFirst : Settles base first)
    (hSecond : Settles base second)
    (hThird : Settles base third) :
    Settles base (between first second third) := by
  intro state hNear
  unfold between
  apply SettlesAt.bindReverting hNear (hFirst state hNear)
  intro left opened _ _ hOpened
  apply SettlesAt.bind (hSecond opened hOpened)
  intro middle inner _ _ hInner
  apply SettlesAt.bind (hThird inner hInner)
  intro right last _ _ hLast
  exact SettlesAt.pure hLast

theorem settles_orElse
    (hFirst : Settles base first)
    (hSecond : Settles base second) :
    Settles base (orElse first second) := by
  intro state hNear
  unfold orElse
  apply SettlesAt.bind (hFirst state hNear).optionally
  intro found last _ _ hLast
  cases found with
  | some found => exact SettlesAt.pure hLast
  | none => exact hSecond last hLast

theorem settles_either
    (hFirst : Settles base first)
    (hSecond : Settles base second) :
    Settles base (either first second) := by
  unfold either
  apply settles_orElse _ hSecond
  intro state hNear
  exact SettlesAt.attempt hNear (hFirst state hNear)

theorem settles_orDefault
    (fallback : Value)
    (hFirst : Settles base first) :
    Settles base (orDefault fallback first) := by
  intro state hNear
  unfold orDefault
  apply SettlesAt.after rfl
  apply SettlesAt.bind (hFirst state hNear).optionally
  intro found last _ _ hLast
  cases found with
  | some found => exact SettlesAt.pure hLast
  | none => exact SettlesAt.pure hLast

end Action

end ByteGrammar

------------------------------------------------------------
-- Lookahead and Commit Points
------------------------------------------------------------

namespace ByteGrammar

namespace Action

variable {base : State}
variable {first second : Action Match}

theorem settles_followedBy
    (hFirst : Settles base first)
    (hSecond : Settles base second) :
    Settles base (followedBy first second) := by
  intro state hNear
  unfold followedBy
  apply SettlesAt.bindReverting hNear (hFirst state hNear)
  intro found middle _ _ hMiddle
  apply SettlesAt.after rfl
  apply SettlesAt.bind (hSecond middle hMiddle)
  intro _ last _ _ hLast
  apply SettlesAt.after rfl
  exact SettlesAt.pure (hMiddle.restore hLast)

theorem settles_peek
    (hFirst : Settles base first) :
    Settles base (peek first) := by
  intro state hNear
  unfold peek
  apply SettlesAt.after rfl
  apply SettlesAt.bind (hFirst state hNear)
  intro found last _ _ hLast
  apply SettlesAt.after rfl
  exact SettlesAt.pure (hNear.restore hLast)

theorem settles_absent
    (hFirst : Settles base first) :
    Settles base (absent first) := by
  intro state hNear
  unfold absent
  apply SettlesAt.after rfl
  apply SettlesAt.bind (hFirst state hNear).optionally
  intro found last _ _ hLast
  cases found with
  | some found =>
      apply SettlesAt.after rfl
      exact SettlesAt.fail (hNear.restore hLast)
  | none => exact SettlesAt.pure hLast

theorem settles_expect
    (message : String)
    (hFirst : Settles base first) :
    Settles base (expect message first) := by
  intro state hNear
  unfold expect
  apply SettlesAt.after rfl
  apply SettlesAt.bind (hFirst state hNear).optionally
  intro found last _ _ hLast
  cases found with
  | some found => exact SettlesAt.pure hLast
  | none =>
      apply SettlesAt.after rfl
      exact SettlesAt.raise hLast

theorem settles_reject
    (message : String)
    (hFirst : Settles base first) :
    Settles base (reject message first) := by
  intro state hNear
  unfold reject
  apply SettlesAt.after rfl
  apply SettlesAt.bind (hFirst state hNear).optionally
  intro found last _ _ hLast
  cases found with
  | some found =>
      apply SettlesAt.after rfl
      apply SettlesAt.after rfl
      exact SettlesAt.raise (hNear.restore hLast)
  | none => exact SettlesAt.pure hLast

end Action

end ByteGrammar

------------------------------------------------------------
-- Values and Regions
------------------------------------------------------------

namespace ByteGrammar

namespace Action

open Cursor

variable {base : State}
variable {action : Action Match}

theorem settles_map
    (change : Value → Value)
    (hAction : Settles base action) :
    Settles base (map change action) := by
  intro state hNear
  unfold map
  apply SettlesAt.bind (hAction state hNear)
  intro found last _ _ hLast
  exact SettlesAt.pure hLast

theorem settles_filter
    (test : Value → Bool)
    (hAction : Settles base action) :
    Settles base (filter test action) := by
  intro state hNear
  unfold filter
  apply SettlesAt.bindReverting hNear (hAction state hNear)
  intro found last _ _ hLast
  split
  · exact SettlesAt.pure hLast
  · exact SettlesAt.fail hLast

theorem settles_capture
    (hAction : Settles base action) :
    Settles base (capture action) := by
  intro state hNear
  unfold capture
  apply SettlesAt.bind (hAction state hNear)
  intro found last _ _ hLast
  have hMark := (Leads.refl hLast.inside).mark
    found.start found.stop
  apply SettlesAt.after rfl
  exact SettlesAt.pure (hLast.move hMark)

theorem settles_view
    (seen : View)
    (hAction : Settles base action) :
    Settles base (view seen action) := by
  intro state hNear
  unfold view
  apply SettlesAt.bind (hAction state hNear)
  intro found last _ _ hLast
  apply SettlesAt.after rfl
  exact SettlesAt.pure hLast

theorem settles_convert
    (conversion : Conversion)
    (hAction : Settles base action) :
    Settles base (convert conversion action) := by
  intro state hNear
  unfold convert
  apply SettlesAt.bindReverting hNear (hAction state hNear)
  intro found last _ _ hLast
  have hMark := (Leads.refl hLast.inside).mark
    found.start found.stop
  have hMarked := hLast.move hMark
  apply SettlesAt.after rfl
  apply SettlesAt.after rfl
  split
  · exact SettlesAt.pure hMarked
  · exact SettlesAt.fail hMarked
  · apply SettlesAt.after rfl
    exact SettlesAt.fail hMarked

end Action

end ByteGrammar

------------------------------------------------------------
-- Repetition
------------------------------------------------------------

namespace ByteGrammar

namespace Action

open Cursor

variable {base : State}
variable {watched action : Action Match}

theorem settles_collectPass
    (max : Option Nat)
    (hAction : Settles base action)
    (values : List Value) :
    Settles base (collectPass max action values) := by
  intro state hNear
  unfold collectPass
  split
  · exact SettlesAt.pure hNear
  · apply SettlesAt.after rfl
    apply SettlesAt.bind (hAction state hNear).optionally
    intro found last _ _ hLast
    cases found with
    | none => exact SettlesAt.pure hLast
    | some found =>
        dsimp only
        split
        · exact SettlesAt.pure hLast
        · exact SettlesAt.pure hLast

theorem settles_repeated
    (min : Nat)
    (max : Option Nat)
    (hAtomic : Atomic action)
    (hTracks : Tracks watched action)
    (hAction : Settles base action) :
    Settles base (repeated min max action) := by
  intro state hNear
  have hLoop := SettlesAt.loop []
    (tracks_collectPass max hAtomic hTracks)
    (settles_collectPass max hAction) hNear trivial
  unfold repeated
  apply SettlesAt.after rfl
  apply SettlesAt.bind hLoop
  intro values last _ _ hLast
  apply SettlesAt.after rfl
  split
  · split
    · exact SettlesAt.fail hLast
    · exact SettlesAt.backtrack hNear hLast
  · exact SettlesAt.pure hLast

theorem settles_takeUntilPass
    (orEnd : Bool)
    (hAction : Settles base action)
    (taken : Unit) :
    Settles base (takeUntilPass orEnd action taken) := by
  intro state hNear
  unfold takeUntilPass
  apply SettlesAt.after rfl
  apply SettlesAt.bind (hAction state hNear).optionally
  intro found last _ _ hLast
  cases found with
  | some found =>
      apply SettlesAt.after rfl
      exact SettlesAt.pure (hNear.restore hLast)
  | none =>
      apply SettlesAt.after rfl
      split
      · cases orEnd with
        | true => exact SettlesAt.pure hLast
        | false => exact SettlesAt.fail hLast
      · have hAdvance := leads_advance hLast.inside 1
        apply SettlesAt.after rfl
        exact SettlesAt.pure (hLast.move hAdvance)

theorem settles_takeUntil
    (orEnd : Bool)
    (hAtomic : Atomic action)
    (hTracks : Tracks watched action)
    (hAction : Settles base action) :
    Settles base (takeUntil orEnd action) := by
  intro state hNear
  have hLoop := SettlesAt.loop ()
    (tracks_takeUntilPass orEnd hAtomic hTracks)
    (settles_takeUntilPass orEnd hAction) hNear trivial
  unfold takeUntil
  apply SettlesAt.attempt hNear
  apply SettlesAt.after rfl
  apply SettlesAt.bind hLoop
  intro _ last _ _ hLast
  apply SettlesAt.after rfl
  exact SettlesAt.pure hLast

end Action

end ByteGrammar

------------------------------------------------------------
-- Lists and Chains
------------------------------------------------------------

namespace ByteGrammar

namespace Action

variable {base : State}
variable {watchedItem item watchedSeparator separator :
  Action Match}
variable {watchedOperand operand watchedOperator operator :
  Action Match}

theorem settles_alternatePass
    {γ : Type}
    (still : Nat × γ → Checkpoint → Nat)
    (extend : γ → Match → Match → γ)
    (hItem : Settles base item)
    (hSeparator : Settles base separator)
    (taken : Nat × γ) :
    Settles base
      (alternatePass still extend item separator taken) := by
  intro state hNear
  unfold alternatePass
  apply SettlesAt.after rfl
  apply SettlesAt.bind (hSeparator state hNear).optionally
  intro between middle _ _ hMiddle
  cases between with
  | none => exact SettlesAt.pure hMiddle
  | some between =>
      apply SettlesAt.bind (hItem middle hMiddle).optionally
      intro found last _ _ hLast
      have hBack := hNear.restore hLast
      cases found with
      | none =>
          apply SettlesAt.after rfl
          exact SettlesAt.pure hBack
      | some found =>
          dsimp only
          split
          · apply SettlesAt.after rfl
            exact SettlesAt.pure hBack
          · exact SettlesAt.pure hLast

theorem settles_alternate
    {γ : Type}
    {still : Nat × γ → Checkpoint → Nat}
    (single : Match → γ)
    (extend : γ → Match → Match → γ)
    (value : γ → Value)
    (hStill : ∀ taken cursor, EndsHere taken cursor →
      still taken cursor.checkpoint = cursor.position)
    (hAtomicItem : Atomic item)
    (hAtomicSeparator : Atomic separator)
    (hTracksItem : Tracks watchedItem item)
    (hTracksSeparator : Tracks watchedSeparator separator)
    (hItem : Settles base item)
    (hSeparator : Settles base separator) :
    Settles base
      (alternate still single extend value
        item separator) := by
  intro state hNear
  unfold alternate
  apply SettlesAt.bind (hItem state hNear)
  intro first middle events hStep hMiddle
  have hFollowed := hTracksItem state hNear.inside
  have hStart :
      EndsHere (first.stop, single first) middle.cursor :=
    (hFollowed.matched _ _ _ hStep).ends
  have hLoop := SettlesAt.loop _
    (tracks_alternatePass extend hStill hAtomicItem
      hAtomicSeparator hTracksItem hTracksSeparator)
    (settles_alternatePass still extend hItem hSeparator)
    hMiddle hStart
  apply SettlesAt.bind hLoop
  intro result last _ _ hLast
  exact SettlesAt.pure hLast

theorem settles_separatedList
    (hAtomicItem : Atomic item)
    (hAtomicSeparator : Atomic separator)
    (hTracksItem : Tracks watchedItem item)
    (hTracksSeparator : Tracks watchedSeparator separator)
    (hItem : Settles base item)
    (hSeparator : Settles base separator) :
    Settles base (separatedList item separator) := by
  rw [separatedList_eq_alternate]
  exact settles_alternate _ _ _ (fun _ _ _ => rfl)
    hAtomicItem hAtomicSeparator hTracksItem
    hTracksSeparator hItem hSeparator

theorem settles_chain
    (combine : Value → Value → Value → Value)
    (hAtomicOperand : Atomic operand)
    (hAtomicOperator : Atomic operator)
    (hTracksOperand : Tracks watchedOperand operand)
    (hTracksOperator : Tracks watchedOperator operator)
    (hOperand : Settles base operand)
    (hOperator : Settles base operator) :
    Settles base (chain combine operand operator) := by
  rw [chain_eq_alternate]
  exact settles_alternate _ _ _ (fun _ _ hEnds => hEnds)
    hAtomicOperand hAtomicOperator hTracksOperand
    hTracksOperator hOperand hOperator

end Action

end ByteGrammar

------------------------------------------------------------
-- Scopes, Tokens, Labels and Rules
------------------------------------------------------------

namespace ByteGrammar

namespace Action

open Cursor

variable {base : State}
variable {action other : Action Match}
variable {run : Parser → Action Match}

theorem settles_withWhitespace
    {α : Type}
    {action : Action α}
    (whitespace : Option Parser)
    (hAction :
      Settles
        { base with
          context :=
            base.context.installWhitespace whitespace }
        action) :
    Settles base (withWhitespace whitespace action) := by
  intro state hNear
  unfold withWhitespace
  apply SettlesAt.within _ hNear hAction
  intro context
  exact context.installWhitespace_restored whitespace

theorem settles_withFlag
    (name : String)
    (on : Bool)
    (hAction :
      Settles
        { base with
          context := base.context.assignFlag name on }
        action) :
    Settles base (withFlag name on action) := by
  intro state hNear
  unfold withFlag
  apply SettlesAt.within _ hNear hAction
  intro context
  exact Context.assignFlag_restored name on context

theorem settles_select
    (condition : Condition)
    (hAction : Settles base action)
    (hOther : Settles base other) :
    Settles base (select condition action other) := by
  intro state hNear
  unfold select
  apply SettlesAt.after rfl
  split
  · exact hAction state hNear
  · exact hOther state hNear

/- Skipping settles if the installed whitespace parser does
  when it runs without one. -/
theorem settles_skipWhitespace
    (hWhitespace : ∀ whitespace,
      base.context.whitespace = some whitespace →
        Settles
          { base with
            context := base.context.installWhitespace none }
          (run whitespace)) :
    Settles base (skipWhitespace run) := by
  intro state hNear
  unfold skipWhitespace
  apply SettlesAt.after rfl
  cases hInstalled : state.context.whitespace with
  | some whitespace =>
      rw [hNear.context] at hInstalled
      have hSkip :=
        settles_withWhitespace none
          (hWhitespace whitespace hInstalled)
      apply SettlesAt.bind (hSkip state hNear).optionally
      intro _ last _ _ hLast
      exact SettlesAt.pure hLast
  | none =>
      apply SettlesAt.after rfl
      split
      · exact SettlesAt.move hNear
          (leads_advance hNear.inside _)
      · exact SettlesAt.move hNear
          (leads_advance hNear.inside _)

theorem settles_token
    (parser : Parser)
    (hWhitespace : ∀ whitespace,
      base.context.whitespace = some whitespace →
        Settles
          { base with
            context := base.context.installWhitespace none }
          (run whitespace))
    (hParser : Settles base (run parser)) :
    Settles base (token run parser) := by
  intro state hNear
  have hSkip := settles_skipWhitespace hWhitespace
  unfold token
  apply SettlesAt.attempt hNear
  apply SettlesAt.bind (hSkip state hNear)
  intro _ middle _ _ hMiddle
  exact hParser middle hMiddle

theorem settles_label
    (id : ParserId)
    (name : String)
    (hAction : Settles base action) :
    Settles base (label id name action) := by
  intro state hNear
  unfold label
  apply SettlesAt.after rfl
  apply SettlesAt.bind (hAction state hNear).bracketed
  intro found last _ _ hLast
  exact SettlesAt.pure hLast

/- A call settles if the target does wherever the rule is
  idle. -/
theorem settles_callRule
    {rules : Rules}
    {handle : Handle}
    (hDetects : base.context.options.loopDetection = true)
    (hTarget : ∀ target here,
      rules.target? handle = some target →
        here ≤ base.cursor.data.length →
          base.context.isActive (rules.idOf handle) here =
            false →
            Settles
              { base with
                context :=
                  base.context.activate (rules.idOf handle)
                    here }
              (run target)) :
    Settles base (callRule rules run handle) := by
  intro state hNear
  have hHere :
      state.cursor.position ≤ base.cursor.data.length := by
    have hInside := hNear.inside
    unfold Inside at hInside
    rwa [hNear.data] at hInside
  unfold callRule
  apply SettlesAt.after rfl
  cases hBound : rules.target? handle with
  | none => exact SettlesAt.raise hNear
  | some target =>
      apply SettlesAt.bracketed
      unfold guarded
      apply SettlesAt.after rfl
      rw [hNear.context, if_pos hDetects]
      apply SettlesAt.after rfl
      rw [hNear.context]
      by_cases hActive :
          base.context.isActive (rules.idOf handle)
            state.cursor.position = true
      · rw [if_pos hActive]
        apply SettlesAt.after rfl
        exact SettlesAt.fail hNear
      · rw [if_neg hActive]
        have hIdle := Bool.eq_false_iff.mpr hActive
        have hInner := hTarget target _ hBound hHere hIdle
        apply SettlesAt.within _ hNear hInner
        intro context
        exact Context.deactivate_activate _ _ context

end Action

end ByteGrammar

------------------------------------------------------------
-- Parsers
------------------------------------------------------------

namespace ByteGrammar

namespace Parser

open ByteGrammar.Action

/- A node settles where every parser with a smaller budget
  does. -/
theorem settles_step
    (rules : Rules)
    {watched run : Parser → Action Match}
    (hAtomic : ∀ parser, Atomic (run parser))
    (hTracks : ∀ parser,
      Tracks (watched parser) (run parser))
    (parser : Parser)
    {base : State}
    (hDetects : base.context.options.loopDetection = true)
    (hRun : ∀ part other,
      other.context.options.loopDetection = true →
        budget rules part other < budget rules parser base →
          Settles other (run part)) :
    Settles base (parser.step rules run) := by
  have hPart : ∀ part : Parser, part.size < parser.size →
      Settles base (run part) := by
    intro part hSize
    exact hRun part base hDetects (budget_part_lt hSize)
  cases parser with
  | terminal leaf => exact settles_scan leaf
  | sequence join first second =>
      apply settles_sequence join
      · exact hPart first (by simp only [size]; omega)
      · exact hPart second (by simp only [size]; omega)
  | between opening content closing =>
      apply settles_between
      · exact hPart opening (by simp only [size]; omega)
      · exact hPart content (by simp only [size]; omega)
      · exact hPart closing (by simp only [size]; omega)
  | either first second =>
      apply settles_either
      · exact hPart first (by simp only [size]; omega)
      · exact hPart second (by simp only [size]; omega)
  | orElse first second =>
      apply settles_orElse
      · exact hPart first (by simp only [size]; omega)
      · exact hPart second (by simp only [size]; omega)
  | map change part =>
      exact settles_map change
        (hPart part (Nat.lt_succ_self _))
  | filter test part =>
      exact settles_filter test
        (hPart part (Nat.lt_succ_self _))
  | repeated min max part =>
      exact settles_repeated min max (hAtomic part)
        (hTracks part) (hPart part (Nat.lt_succ_self _))
  | orDefault fallback part =>
      exact settles_orDefault fallback
        (hPart part (Nat.lt_succ_self _))
  | followedBy part lookahead =>
      apply settles_followedBy
      · exact hPart part (by simp only [size]; omega)
      · exact hPart lookahead (by simp only [size]; omega)
  | peek part =>
      exact settles_peek (hPart part (Nat.lt_succ_self _))
  | absent part =>
      exact settles_absent (hPart part (Nat.lt_succ_self _))
  | capture part =>
      exact settles_capture (hPart part (Nat.lt_succ_self _))
  | view seen part =>
      exact settles_view seen
        (hPart part (Nat.lt_succ_self _))
  | convert conversion part =>
      exact settles_convert conversion
        (hPart part (Nat.lt_succ_self _))
  | expect message part =>
      exact settles_expect message
        (hPart part (Nat.lt_succ_self _))
  | reject message part =>
      exact settles_reject message
        (hPart part (Nat.lt_succ_self _))
  | takeUntil orEnd terminator =>
      exact settles_takeUntil orEnd (hAtomic terminator)
        (hTracks terminator)
        (hPart terminator (Nat.lt_succ_self _))
  | rule handle =>
      -- The target is no part; an idle pair pays for it.
      apply settles_callRule hDetects
      intro target here hTarget hHere hIdle
      exact hRun target _ hDetects
        (budget_target_lt hTarget hHere hIdle)
  | label id name part =>
      exact settles_label id name
        (hPart part (Nat.lt_succ_self _))
  | token part =>
      apply settles_token part
      · intro whitespace hInstalled
        exact hRun whitespace _ hDetects
          (budget_skip_lt hInstalled)
      · exact hPart part (Nat.lt_succ_self _)
  | withWhitespace whitespace part =>
      apply settles_withWhitespace (some whitespace)
      exact hRun part _ hDetects budget_scoped_lt
  | defaultWhitespace part =>
      apply settles_withWhitespace none
      exact hRun part _ hDetects budget_unscoped_lt
  | withFlag name on part =>
      apply settles_withFlag name on
      exact hRun part _ hDetects
        (budget_flagged_lt (Nat.lt_succ_self _))
  | select condition whenTrue whenFalse =>
      apply settles_select condition
      · exact hPart whenTrue (by simp only [size]; omega)
      · exact hPart whenFalse (by simp only [size]; omega)
  | separatedList item separator =>
      apply settles_separatedList (hAtomic item)
        (hAtomic separator) (hTracks item)
        (hTracks separator)
      · exact hPart item (by simp only [size]; omega)
      · exact hPart separator (by simp only [size]; omega)
  | chain combine operand operator =>
      apply settles_chain combine (hAtomic operand)
        (hAtomic operator) (hTracks operand)
        (hTracks operator)
      · exact hPart operand (by simp only [size]; omega)
      · exact hPart operator (by simp only [size]; omega)

/- A parser settles to a depth that exceeds its budget. -/
theorem settles_run
    {rules : Rules}
    {depth : Nat}
    {parser : Parser}
    {base : State}
    (hDetects : base.context.options.loopDetection = true)
    (hBudget : budget rules parser base < depth) :
    Settles base (parser.run rules depth) := by
  -- A part may run in another context, so the induction is
  -- for all of them at once.
  induction depth generalizing parser base with
  | zero => exact absurd hBudget (Nat.not_lt_zero _)
  | succ depth ih =>
      apply settles_step rules (atomic_run rules depth)
        (tracks_run_self rules depth) parser hDetects
      intro part other hDetects hLess
      apply ih hDetects
      omega

/- With loop detection, the outcome to any depth is that of
  the parse, whose depth is enough. -/
theorem parse_eq_of_run
    {rules : Rules}
    {deep : Nat}
    {parser : Parser}
    {state : State}
    {step : Step Match}
    (hDetects : state.context.options.loopDetection = true)
    (hPosition :
      state.cursor.position ≤ state.cursor.data.length)
    (hRun : parser.run rules deep state = some step) :
    parser.parse rules state = some step := by
  have hSettles :
      Settles state
        (parser.run rules (depth rules parser state)) :=
    settles_run hDetects (budget_lt_depth hDetects)
  rcases hSettles state (State.Near.refl hPosition) with
    ⟨found, hFound, -⟩
  -- Both are the outcome to the greater of the two depths.
  have hDeep :=
    run_refines
      (Nat.le_max_left deep (depth rules parser state))
      parser state step hRun
  have hEnough :=
    run_refines
      (Nat.le_max_right deep (depth rules parser state))
      parser state found hFound
  rw [hDeep] at hEnough
  rw [hEnough]
  exact hFound

/-
  With loop detection, a parse from any position of a buffer
  has an outcome, whatever the grammar, the input, the
  running rules and the installed whitespace parser. The
  depth of a parse is enough, and more changes nothing.
-/
theorem exists_outcome
    (rules : Rules)
    (parser : Parser)
    {state : State}
    (hDetects : state.context.options.loopDetection = true)
    (hPosition :
      state.cursor.position ≤ state.cursor.data.length) :
    ∃ step, parser.parse rules state = some step ∧
      ∀ more, depth rules parser state ≤ more →
        parser.run rules more state = some step := by
  have hSettles :
      Settles state
        (parser.run rules (depth rules parser state)) :=
    settles_run hDetects (budget_lt_depth hDetects)
  rcases hSettles state (State.Near.refl hPosition) with
    ⟨step, hStep, _⟩
  refine ⟨step, hStep, ?_⟩
  intro more hMore
  exact run_refines hMore parser state step hStep

/- A rule that calls itself from the left, and from the
  whitespace parser that is installed, after a blank. -/
theorem exists_outcome_left_recursive :
    let letter (byte : UInt8) : Parser :=
      .terminal (.byteWhere (· == byte))
    let sum : Parser :=
      .either
        (.sequence .pair (.rule 0) (.token (letter 0x61)))
        (.repeated 0 none (.rule 0))
    let rules : Rules := ⟨[⟨1, some sum⟩], 2⟩
    let parser : Parser := .token (.rule 0)
    let context : Context :=
      ⟨.standard, some (.rule 0), [(1, 1)], .empty⟩
    let state : State :=
      ⟨⟨[0x20, 0x61], 0, .origin, 0⟩, context⟩
    state.context.options.loopDetection = true ∧
      state.cursor.position ≤ state.cursor.data.length ∧
      ∃ step, parser.parse rules state = some step ∧
        ∀ more, depth rules parser state ≤ more →
          parser.run rules more state = some step := by
  intro letter sum rules parser context state
  have hDetects :
      state.context.options.loopDetection = true := rfl
  have hPosition :
      state.cursor.position ≤ state.cursor.data.length :=
    Nat.zero_le _
  exact ⟨hDetects, hPosition,
    exists_outcome rules parser hDetects hPosition⟩

end Parser

end ByteGrammar
