import ByteGrammar.Proofs.Cursor.Watch

/-
  A parse moves on from where it starts: a match starts
  there or later and ends at the cursor, and a fatal error
  is located between the start and what was reached. This
  holds of all that a parse runs, so that a watched parse of
  a sound cursor raises no alarm.

  Main declarations:
    * `Match.Spans`
    * `Action.Tracks`
    * `Parser.tracks_step`
    * `Parser.tracks_run`, `Parser.tracks_run_self`
-/

------------------------------------------------------------
-- The Span of a Match
------------------------------------------------------------

namespace ByteGrammar

namespace Match

/- The match is one of a parse that started at `before` and
  left the cursor as `after`. -/
structure Spans
    (before : Cursor)
    (found : Match)
    (after : Cursor) :
    Prop where
  begins : before.position ≤ found.start
  ordered : found.start ≤ found.stop
  ends : found.stop = after.position

namespace Spans

variable {before middle after : Cursor}
variable {found : Match}

theorem withValue
    (hFound : Spans before found after)
    (value : Value) :
    Spans before (found.withValue value) after :=
  ⟨hFound.begins, hFound.ordered, hFound.ends⟩

/- A match of nothing spans no move. -/
theorem nothingAt
    (value : Value)
    (hPosition : after.position = before.position) :
    Spans before (Match.nothingAt before.position value)
      after :=
  ⟨Nat.le_refl _, Nat.le_refl _, hPosition.symm⟩

/- A match can be extended to where the cursor gets. -/
theorem extend
    {stop : Nat}
    {value : Value}
    (hFound : Spans before found middle)
    (hForth : middle.position ≤ after.position)
    (hEnds : stop = after.position) :
    Spans before ⟨found.start, stop, value⟩ after := by
  rcases hFound with ⟨hBegins, hOrdered, hEnd⟩
  refine ⟨hBegins, ?_, hEnds⟩
  dsimp only
  omega

end Spans

end Match

namespace Action

/- From wherever the action starts inside the buffer, it is
  followed to a match that spans the move. -/
def Tracks
    (watched action : Action Match) :
    Prop :=
  ∀ state, state.cursor.Inside →
    TracksFrom state.cursor state watched action
      (Match.Spans state.cursor)

end Action

end ByteGrammar

------------------------------------------------------------
-- Ends That Fit
------------------------------------------------------------

namespace ByteGrammar

namespace Action

namespace Tracks

variable {watched action : Action Match}

/- On a sound cursor, the end of an action that is followed
  fits. -/
theorem fits
    (hAction : Tracks watched action)
    (state : State)
    {step : Step Match}
    (hSound : state.cursor.Sound)
    (hStep : action state = some step) :
    step.Fits state.cursor := by
  have hTracks := hAction state hSound.inside
  have hLeads := hTracks.leads step hStep
  refine ⟨hLeads.sound hSound, hLeads.kept, ?_⟩
  rcases step with ⟨found | _ | fault, last, events⟩
  · have hFound := hTracks.matched _ _ _ hStep
    exact ⟨hFound.begins, hFound.ordered, hFound.ends⟩
  · trivial
  · have hFault := hTracks.fatal _ _ _ hStep
    have hReached :
        state.cursor.position ≤ last.cursor.furthest :=
      Nat.le_trans hSound.1 hLeads.kept
    refine ⟨hFault.1, ?_⟩
    dsimp only
    omega

/- There is no alarm where an action that is followed is
  entered with a sound cursor. -/
theorem vetParse
    (alarm : Fault)
    (hAction : Tracks watched action) :
    Tracks (vetParse alarm watched) action := by
  intro state hInside
  have hTracks := hAction state hInside
  refine ⟨?_, hTracks.leads, hTracks.matched,
    hTracks.fatal⟩
  intro hSound
  have hSame := hTracks.same hSound
  unfold Action.vetParse
  rw [if_pos hSound, hSame]
  cases hStep : action state with
  | none => rfl
  | some step =>
      have hFits := hAction.fits state hSound hStep
      exact if_pos hFits

/- Nor is there one where the region of its match is
  recorded. -/
theorem vetWindow
    (alarm : Fault)
    (hAction : Tracks watched action) :
    Tracks (vetWindow alarm watched) action := by
  intro state hInside
  apply TracksFrom.vetWindow alarm (hAction state hInside)
  intro found cursor hFound
  exact ⟨hFound.ordered, hFound.ends⟩

end Tracks

end Action

end ByteGrammar

------------------------------------------------------------
-- Terminals, Sequences and Choices
------------------------------------------------------------

namespace ByteGrammar

namespace Action

open Cursor

variable {first first' second second' : Action Match}
variable {third third' : Action Match}

theorem tracks_scan
    (terminal : Terminal) :
    Tracks (scan terminal) (scan terminal) := by
  intro state hInside
  have hHere := Leads.refl hInside
  unfold scan
  apply TracksFrom.after rfl
  apply TracksFrom.after rfl
  dsimp only
  cases terminal.scan state.cursor.remaining with
  | hit length value =>
      have hAdvance := leads_advance hInside length
      apply TracksFrom.after rfl
      apply TracksFrom.after rfl
      apply TracksFrom.pure hAdvance
      exact ⟨Nat.le_refl _, hAdvance.forth, rfl⟩
  | still value =>
      apply TracksFrom.pure hHere
      exact Match.Spans.nothingAt value rfl
  | broken length =>
      apply TracksFrom.after rfl
      exact TracksFrom.fail (leads_touch hInside length)
  | miss => exact TracksFrom.fail hHere

theorem tracks_sequence
    (join : Value → Value → Value)
    (hFirst : Tracks first first')
    (hSecond : Tracks second second') :
    Tracks (sequence join first second)
      (sequence join first' second') := by
  intro state hInside
  unfold sequence
  apply TracksFrom.bindReverting hInside
    (hFirst state hInside)
  intro left middle hMiddle hLeft
  apply TracksFrom.bind hMiddle
    (hSecond middle hMiddle.last_inside)
  intro right last hLast hRight
  apply TracksFrom.pure (hMiddle.trans hLast)
  exact hLeft.extend hLast.forth hRight.ends

theorem tracks_between
    (hFirst : Tracks first first')
    (hSecond : Tracks second second')
    (hThird : Tracks third third') :
    Tracks (between first second third)
      (between first' second' third') := by
  intro state hInside
  unfold between
  apply TracksFrom.bindReverting hInside
    (hFirst state hInside)
  intro left opened hOpened hLeft
  apply TracksFrom.bind hOpened
    (hSecond opened hOpened.last_inside)
  intro middle inner hInner hMiddle
  have hBase := hOpened.trans hInner
  apply TracksFrom.bind hBase (hThird inner hBase.last_inside)
  intro right last hLast hRight
  apply TracksFrom.pure (hBase.trans hLast)
  have hForth := (hInner.trans hLast).forth
  exact hLeft.extend hForth hRight.ends

theorem tracks_orElse
    (hAtomic : Atomic first')
    (hFirst : Tracks first first')
    (hSecond : Tracks second second') :
    Tracks (orElse first second)
      (orElse first' second') := by
  intro state hInside
  unfold orElse
  apply TracksFrom.optionally_bind (Leads.refl hInside)
    hAtomic (hFirst state hInside)
  · intro found last hLast hFound
    exact TracksFrom.pure hLast hFound
  · intro last hLast hBack
    -- The second parser starts where the first one did.
    have hPosition :
        last.cursor.position = state.cursor.position :=
      congrArg Checkpoint.position hBack
    have hOther := hSecond last hLast.last_inside
    apply (hOther.rebase hLast).weaken
    intro found after _ hFound
    rcases hFound with ⟨hBegins, hOrdered, hEnds⟩
    exact ⟨hPosition ▸ hBegins, hOrdered, hEnds⟩

theorem tracks_either
    (hFirst : Tracks first first')
    (hSecond : Tracks second second') :
    Tracks (either first second)
      (either first' second') := by
  unfold either
  apply tracks_orElse (atomic_attempt first') _ hSecond
  intro state hInside
  exact TracksFrom.attempt hInside (hFirst state hInside)

theorem tracks_orDefault
    (fallback : Value)
    (hAtomic : Atomic first')
    (hFirst : Tracks first first') :
    Tracks (orDefault fallback first)
      (orDefault fallback first') := by
  intro state hInside
  unfold orDefault
  apply TracksFrom.after rfl
  apply TracksFrom.optionally_bind (Leads.refl hInside)
    hAtomic (hFirst state hInside)
  · intro found last hLast hFound
    exact TracksFrom.pure hLast hFound
  · intro last hLast hBack
    have hPosition := congrArg Checkpoint.position hBack
    apply TracksFrom.pure hLast
    exact Match.Spans.nothingAt fallback hPosition

end Action

end ByteGrammar

------------------------------------------------------------
-- Lookahead and Commit Points
------------------------------------------------------------

namespace ByteGrammar

namespace Action

open Cursor

variable {first first' second second' : Action Match}

theorem tracks_followedBy
    (hFirst : Tracks first first')
    (hSecond : Tracks second second') :
    Tracks (followedBy first second)
      (followedBy first' second') := by
  intro state hInside
  unfold followedBy
  apply TracksFrom.bindReverting hInside
    (hFirst state hInside)
  intro found middle hMiddle hFound
  have hMiddleInside := hMiddle.last_inside
  apply TracksFrom.after rfl
  apply TracksFrom.bind hMiddle
    (hSecond middle hMiddleInside)
  intro _ last hLast _
  apply TracksFrom.after rfl
  have hBack := hLast.back hMiddleInside
  apply TracksFrom.pure (hMiddle.trans hBack)
  exact ⟨hFound.begins, hFound.ordered, hFound.ends⟩

theorem tracks_peek
    (hFirst : Tracks first first') :
    Tracks (peek first) (peek first') := by
  intro state hInside
  unfold peek
  apply TracksFrom.after rfl
  apply TracksFrom.bind (Leads.refl hInside)
    (hFirst state hInside)
  intro found last hLast _
  have hBack := hLast.back hInside
  apply TracksFrom.after rfl
  apply TracksFrom.pure hBack
  exact Match.Spans.nothingAt found.value rfl

theorem tracks_absent
    (hAtomic : Atomic first')
    (hFirst : Tracks first first') :
    Tracks (absent first) (absent first') := by
  intro state hInside
  unfold absent
  apply TracksFrom.after rfl
  apply TracksFrom.optionally_bind (Leads.refl hInside)
    hAtomic (hFirst state hInside)
  · intro found last hLast _
    have hBack := hLast.back hInside
    apply TracksFrom.after rfl
    exact TracksFrom.fail hBack
  · intro last hLast hBack
    have hPosition := congrArg Checkpoint.position hBack
    apply TracksFrom.pure hLast
    exact Match.Spans.nothingAt .unit hPosition

theorem tracks_expect
    (message : String)
    (hAtomic : Atomic first')
    (hFirst : Tracks first first') :
    Tracks (expect message first)
      (expect message first') := by
  intro state hInside
  unfold expect
  apply TracksFrom.after rfl
  apply TracksFrom.optionally_bind (Leads.refl hInside)
    hAtomic (hFirst state hInside)
  · intro found last hLast hFound
    exact TracksFrom.pure hLast hFound
  · intro last hLast _
    apply TracksFrom.after rfl
    exact TracksFrom.raise hLast (Nat.le_refl _)
      (Nat.le_max_left _ _)

theorem tracks_reject
    (message : String)
    (hAtomic : Atomic first')
    (hFirst : Tracks first first') :
    Tracks (reject message first)
      (reject message first') := by
  intro state hInside
  unfold reject
  apply TracksFrom.after rfl
  apply TracksFrom.optionally_bind (Leads.refl hInside)
    hAtomic (hFirst state hInside)
  · intro found last hLast _
    have hBack := hLast.back hInside
    apply TracksFrom.after rfl
    apply TracksFrom.after rfl
    exact TracksFrom.raise hBack (Nat.le_refl _)
      (Nat.le_max_left _ _)
  · intro last hLast hBack
    have hPosition := congrArg Checkpoint.position hBack
    apply TracksFrom.pure hLast
    exact Match.Spans.nothingAt .unit hPosition

end Action

end ByteGrammar

------------------------------------------------------------
-- Values and Regions
------------------------------------------------------------

namespace ByteGrammar

namespace Action

open Cursor

variable {action action' : Action Match}

theorem tracks_map
    (change : Value → Value)
    (hAction : Tracks action action') :
    Tracks (map change action) (map change action') := by
  intro state hInside
  unfold map
  apply TracksFrom.bind (Leads.refl hInside)
    (hAction state hInside)
  intro found last hLast hFound
  exact TracksFrom.pure hLast (hFound.withValue _)

theorem tracks_filter
    (test : Value → Bool)
    (hAction : Tracks action action') :
    Tracks (filter test action) (filter test action') := by
  intro state hInside
  unfold filter
  apply TracksFrom.bindReverting hInside
    (hAction state hInside)
  intro found last hLast hFound
  split
  · exact TracksFrom.pure hLast hFound
  · exact TracksFrom.fail hLast

theorem tracks_capture
    (hAction : Tracks action action') :
    Tracks (capture action) (capture action') := by
  intro state hInside
  unfold capture
  apply TracksFrom.bind (Leads.refl hInside)
    (hAction state hInside)
  intro found last hLast hFound
  have hMark := hLast.mark found.start found.stop
  apply TracksFrom.after rfl
  apply TracksFrom.pure hMark
  exact ⟨hFound.begins, hFound.ordered, hFound.ends⟩

theorem tracks_view
    (seen : View)
    (hAction : Tracks action action') :
    Tracks (view seen action) (view seen action') := by
  intro state hInside
  unfold view
  apply TracksFrom.bind (Leads.refl hInside)
    (hAction state hInside)
  intro found last hLast hFound
  apply TracksFrom.after rfl
  exact TracksFrom.pure hLast (hFound.withValue _)

theorem tracks_convert
    (conversion : Conversion)
    (hAction : Tracks action action') :
    Tracks (convert conversion action)
      (convert conversion action') := by
  intro state hInside
  unfold convert
  apply TracksFrom.bindReverting hInside
    (hAction state hInside)
  intro found last hLast hFound
  have hMark := hLast.mark found.start found.stop
  apply TracksFrom.after rfl
  apply TracksFrom.after rfl
  split
  · apply TracksFrom.pure hMark
    exact ⟨hFound.begins, hFound.ordered, hFound.ends⟩
  · exact TracksFrom.fail hMark
  · apply TracksFrom.after rfl
    exact TracksFrom.fail hMark

end Action

end ByteGrammar

------------------------------------------------------------
-- Repetition
------------------------------------------------------------

namespace ByteGrammar

namespace Action

open Cursor

variable {action action' : Action Match}

/- A pass that takes a value and goes on has moved. -/
theorem tracks_collectPass
    (max : Option Nat)
    (hAtomic : Atomic action')
    (hAction : Tracks action action') :
    TracksPass (fun _ _ => True) (fun _ _ => True)
      (collectPass max action)
      (collectPass max action') := by
  intro values state hInside _
  have hHere := Leads.refl hInside
  unfold collectPass
  split
  · exact TracksFrom.pure hHere trivial
  · apply TracksFrom.after rfl
    apply TracksFrom.optionally_bind hHere hAtomic
      (hAction state hInside)
    · intro found last hLast hFound
      dsimp only
      by_cases hStill : found.stop = state.cursor.position
      · rw [if_pos hStill]
        exact TracksFrom.pure hLast trivial
      · rw [if_neg hStill]
        have hForth := hLast.forth
        have hEnds := hFound.ends
        apply TracksFrom.pure hLast
        refine ⟨?_, trivial⟩
        omega
    · intro last hLast _
      exact TracksFrom.pure hLast trivial

theorem tracks_repeated
    (min : Nat)
    (max : Option Nat)
    (hAtomic : Atomic action')
    (hAction : Tracks action action') :
    Tracks (repeated min max action)
      (repeated min max action') := by
  intro state hInside
  have hHere := Leads.refl hInside
  unfold repeated
  apply TracksFrom.after rfl
  have hPass := tracks_collectPass max hAtomic hAction
  apply TracksFrom.bind hHere (hPass.loop hHere trivial)
  intro values last hLast _
  apply TracksFrom.after rfl
  split
  · split
    · exact TracksFrom.fail hLast
    · exact TracksFrom.backtrack hInside hLast
  · apply TracksFrom.pure hLast
    exact ⟨Nat.le_refl _, hLast.forth, rfl⟩

/- A pass that goes on has skipped a byte. -/
theorem tracks_takeUntilPass
    (orEnd : Bool)
    (hAtomic : Atomic action')
    (hAction : Tracks action action') :
    TracksPass (fun _ _ => True) (fun _ _ => True)
      (takeUntilPass orEnd action)
      (takeUntilPass orEnd action') := by
  intro _ state hInside _
  unfold takeUntilPass
  apply TracksFrom.after rfl
  apply TracksFrom.optionally_bind (Leads.refl hInside)
    hAtomic (hAction state hInside)
  · intro found last hLast _
    have hBack := hLast.back hInside
    apply TracksFrom.after rfl
    exact TracksFrom.pure hBack trivial
  · intro last hLast _
    apply TracksFrom.after rfl
    by_cases hEnd : last.cursor.atEnd = true
    · rw [if_pos hEnd]
      cases orEnd with
      | true => exact TracksFrom.pure hLast trivial
      | false => exact TracksFrom.fail hLast
    · rw [if_neg hEnd]
      have hAdvance := leads_advance hLast.last_inside 1
      have hMoved := position_lt_advance
        (Bool.eq_false_iff.mpr hEnd) Nat.one_pos
      have hForth := hLast.forth
      apply TracksFrom.after rfl
      apply TracksFrom.pure (hLast.trans hAdvance)
      refine ⟨?_, trivial⟩
      dsimp only
      omega

theorem tracks_takeUntil
    (orEnd : Bool)
    (hAtomic : Atomic action')
    (hAction : Tracks action action') :
    Tracks (takeUntil orEnd action)
      (takeUntil orEnd action') := by
  intro state hInside
  have hHere := Leads.refl hInside
  unfold takeUntil
  apply TracksFrom.attempt hInside
  apply TracksFrom.after rfl
  have hPass := tracks_takeUntilPass orEnd hAtomic hAction
  apply TracksFrom.bind hHere (hPass.loop hHere trivial)
  intro _ last hLast _
  apply TracksFrom.after rfl
  apply TracksFrom.pure hLast
  exact ⟨Nat.le_refl _, hLast.forth, rfl⟩

end Action

end ByteGrammar

------------------------------------------------------------
-- Lists and Chains
------------------------------------------------------------

namespace ByteGrammar

namespace Action

open Cursor

variable {item item' separator separator' : Action Match}
variable {operand operand' operator operator' : Action Match}

/- What was taken so far ends at the cursor. -/
def EndsHere
    {α : Type}
    (taken : Nat × α)
    (cursor : Cursor) :
    Prop :=
  taken.1 = cursor.position

/- A separator and an item that are taken have moved, if a
  pass is held against where it started. -/
theorem tracks_alternatePass
    {γ : Type}
    {still : Nat × γ → Checkpoint → Nat}
    (extend : γ → Match → Match → γ)
    (hStill : ∀ taken cursor, EndsHere taken cursor →
      still taken cursor.checkpoint = cursor.position)
    (hAtomicItem : Atomic item')
    (hAtomicSeparator : Atomic separator')
    (hItem : Tracks item item')
    (hSeparator : Tracks separator separator') :
    TracksPass EndsHere EndsHere
      (alternatePass still extend item separator)
      (alternatePass still extend item' separator') := by
  intro taken state hInside hTaken
  have hHere := hStill taken state.cursor hTaken
  unfold alternatePass
  apply TracksFrom.after rfl
  apply TracksFrom.optionally_bind (Leads.refl hInside)
    hAtomicSeparator (hSeparator state hInside)
  · intro between middle hMiddle _
    have hMiddleInside := hMiddle.last_inside
    apply TracksFrom.optionally_bind hMiddle hAtomicItem
      (hItem middle hMiddleInside)
    · intro found last hLast hFound
      have hBase := hMiddle.trans hLast
      dsimp only
      rw [hHere]
      by_cases hSame : found.stop = state.cursor.position
      · rw [if_pos hSame]
        have hBack := hBase.back hInside
        apply TracksFrom.after rfl
        exact TracksFrom.pure hBack hTaken
      · rw [if_neg hSame]
        have hForth := hBase.forth
        have hEnds := hFound.ends
        apply TracksFrom.pure hBase
        refine ⟨?_, hEnds⟩
        omega
    · intro last hLast _
      have hBack := (hMiddle.trans hLast).back hInside
      apply TracksFrom.after rfl
      exact TracksFrom.pure hBack hTaken
  · intro last hLast hBack
    have hPosition :
        last.cursor.position = state.cursor.position :=
      congrArg Checkpoint.position hBack
    apply TracksFrom.pure hLast
    exact hTaken.trans hPosition.symm

theorem tracks_alternate
    {γ : Type}
    {still : Nat × γ → Checkpoint → Nat}
    (single : Match → γ)
    (extend : γ → Match → Match → γ)
    (value : γ → Value)
    (hStill : ∀ taken cursor, EndsHere taken cursor →
      still taken cursor.checkpoint = cursor.position)
    (hAtomicItem : Atomic item')
    (hAtomicSeparator : Atomic separator')
    (hItem : Tracks item item')
    (hSeparator : Tracks separator separator') :
    Tracks
      (alternate still single extend value item separator)
      (alternate still single extend value
        item' separator') := by
  intro state hInside
  have hPass := tracks_alternatePass extend hStill
    hAtomicItem hAtomicSeparator hItem hSeparator
  unfold alternate
  apply TracksFrom.bind (Leads.refl hInside)
    (hItem state hInside)
  intro first middle hMiddle hFirst
  have hMiddleHere := Leads.refl hMiddle.last_inside
  have hStart : EndsHere (first.stop, single first)
      middle.cursor :=
    hFirst.ends
  apply TracksFrom.bind hMiddle
    (hPass.loop hMiddleHere hStart)
  intro result last hLast hEnds
  apply TracksFrom.pure (hMiddle.trans hLast)
  exact hFirst.extend hLast.forth hEnds

theorem tracks_separatedList
    (hAtomicItem : Atomic item')
    (hAtomicSeparator : Atomic separator')
    (hItem : Tracks item item')
    (hSeparator : Tracks separator separator') :
    Tracks (separatedList item separator)
      (separatedList item' separator') := by
  rw [separatedList_eq_alternate,
    separatedList_eq_alternate]
  exact tracks_alternate _ _ _ (fun _ _ _ => rfl)
    hAtomicItem hAtomicSeparator hItem hSeparator

/- The chain so far ends where a pass starts. -/
theorem tracks_chain
    (combine : Value → Value → Value → Value)
    (hAtomicOperand : Atomic operand')
    (hAtomicOperator : Atomic operator')
    (hOperand : Tracks operand operand')
    (hOperator : Tracks operator operator') :
    Tracks (chain combine operand operator)
      (chain combine operand' operator') := by
  rw [chain_eq_alternate, chain_eq_alternate]
  exact tracks_alternate _ _ _ (fun _ _ hEnds => hEnds)
    hAtomicOperand hAtomicOperator hOperand hOperator

end Action

end ByteGrammar

------------------------------------------------------------
-- Scopes, Tokens, Labels and Rules
------------------------------------------------------------

namespace ByteGrammar

namespace Action

open Cursor

variable {action action' other other' : Action Match}
variable {watched run : Parser → Action Match}

theorem tracks_withWhitespace
    (whitespace : Option Parser)
    (hAction : Tracks action action') :
    Tracks (withWhitespace whitespace action)
      (withWhitespace whitespace action') := by
  intro state hInside
  unfold withWhitespace
  apply TracksFrom.within
  exact hAction ⟨state.cursor,
    state.context.installWhitespace whitespace⟩ hInside

theorem tracks_withFlag
    (name : String)
    (on : Bool)
    (hAction : Tracks action action') :
    Tracks (withFlag name on action)
      (withFlag name on action') := by
  intro state hInside
  unfold withFlag
  apply TracksFrom.within
  exact hAction ⟨state.cursor,
    state.context.assignFlag name on⟩ hInside

theorem tracks_select
    (condition : Condition)
    (hAction : Tracks action action')
    (hOther : Tracks other other') :
    Tracks (select condition action other)
      (select condition action' other') := by
  intro state hInside
  unfold select
  apply TracksFrom.after rfl
  split
  · exact hAction state hInside
  · exact hOther state hInside

/- Skipping whitespace moves on, whatever the whitespace
  parser comes to. -/
theorem tracks_skipWhitespace
    (hAtomic : ∀ parser, Atomic (run parser))
    (hRun : ∀ parser, Tracks (watched parser) (run parser))
    {state : State}
    (hInside : state.cursor.Inside) :
    TracksFrom state.cursor state (skipWhitespace watched)
      (skipWhitespace run) (fun _ _ => True) := by
  have hHere := Leads.refl hInside
  unfold skipWhitespace
  apply TracksFrom.after rfl
  cases state.context.whitespace with
  | some whitespace =>
      have hParser :=
        tracks_withWhitespace none (hRun whitespace)
      apply TracksFrom.optionally_bind hHere
        (atomic_withWhitespace none (hAtomic whitespace))
        (hParser state hInside)
      · intro found last hLast _
        exact TracksFrom.pure hLast trivial
      · intro last hLast _
        exact TracksFrom.pure hLast trivial
  | none =>
      apply TracksFrom.after rfl
      split
      · have hSkip : state.cursor.Leads
            state.cursor.skipBlanks.2 :=
          leads_advance hInside _
        exact TracksFrom.move hSkip trivial
      · have hSkip : state.cursor.Leads
            state.cursor.skipInline.2 :=
          leads_advance hInside _
        exact TracksFrom.move hSkip trivial

/- What is skipped stands before the match. -/
theorem tracks_token
    (hAtomic : ∀ parser, Atomic (run parser))
    (hRun : ∀ parser, Tracks (watched parser) (run parser))
    (parser : Parser) :
    Tracks (token watched parser) (token run parser) := by
  intro state hInside
  unfold token
  apply TracksFrom.attempt hInside
  apply TracksFrom.bind (Leads.refl hInside)
    (tracks_skipWhitespace hAtomic hRun hInside)
  intro _ middle hMiddle _
  have hParser := hRun parser middle hMiddle.last_inside
  apply (hParser.rebase hMiddle).weaken
  intro found last _ hFound
  rcases hFound with ⟨hBegins, hOrdered, hEnds⟩
  refine ⟨?_, hOrdered, hEnds⟩
  exact Nat.le_trans hMiddle.forth hBegins

theorem tracks_label
    (id : ParserId)
    (name : String)
    (hAction : Tracks action action') :
    Tracks (label id name action)
      (label id name action') := by
  intro state hInside
  have hInner := hAction state hInside
  unfold label
  apply TracksFrom.after rfl
  apply TracksFrom.bind (Leads.refl hInside)
    (hInner.bracketed _ _ _)
  intro found last hLast hFound
  exact TracksFrom.pure hLast (hFound.withValue _)

theorem tracks_guarded
    (id : ParserId)
    (here : Nat)
    (hAction : Tracks action action') :
    Tracks (guarded id here action)
      (guarded id here action') := by
  intro state hInside
  have hHere := Leads.refl hInside
  unfold guarded
  apply TracksFrom.after rfl
  split
  · apply TracksFrom.after rfl
    split
    · apply TracksFrom.after rfl
      exact TracksFrom.fail hHere
    · apply TracksFrom.within
      exact hAction ⟨state.cursor,
        state.context.activate id here⟩ hInside
  · exact hAction state hInside

theorem tracks_callRule
    (rules : Rules)
    (hRun : ∀ parser, Tracks (watched parser) (run parser))
    (handle : Handle) :
    Tracks (callRule rules watched handle)
      (callRule rules run handle) := by
  intro state hInside
  have hHere := Leads.refl hInside
  unfold callRule
  apply TracksFrom.after rfl
  cases rules.target? handle with
  | none =>
      exact TracksFrom.raise hHere (Nat.le_refl _)
        (Nat.le_max_left _ _)
  | some target =>
      have hTarget := tracks_guarded (rules.idOf handle)
        state.cursor.position (hRun target)
      exact (hTarget state hInside).bracketed _ _ _

end Action

end ByteGrammar

------------------------------------------------------------
-- Parsers
------------------------------------------------------------

namespace ByteGrammar

namespace Parser

open ByteGrammar.Action

/- A node is followed, under watch, where what it runs
  is. -/
theorem tracks_step
    (alarm : Fault)
    (rules : Rules)
    {watched run : Parser → Action Match}
    (hAtomic : ∀ parser, Atomic (run parser))
    (hRun : ∀ parser, Tracks (watched parser) (run parser))
    (parser : Parser) :
    Tracks (parser.watchedStep alarm rules watched)
      (parser.step rules run) := by
  cases parser with
  | terminal leaf => exact tracks_scan leaf
  | sequence join first second =>
      exact tracks_sequence join (hRun first) (hRun second)
  | between opening content closing =>
      exact tracks_between (hRun opening) (hRun content)
        (hRun closing)
  | either first second =>
      exact tracks_either (hRun first) (hRun second)
  | orElse first second =>
      exact tracks_orElse (hAtomic first) (hRun first)
        (hRun second)
  | map change parser => exact tracks_map change (hRun parser)
  | filter test parser =>
      exact tracks_filter test (hRun parser)
  | repeated min max parser =>
      exact tracks_repeated min max (hAtomic parser)
        (hRun parser)
  | orDefault fallback parser =>
      exact tracks_orDefault fallback (hAtomic parser)
        (hRun parser)
  | followedBy parser lookahead =>
      exact tracks_followedBy (hRun parser) (hRun lookahead)
  | peek parser => exact tracks_peek (hRun parser)
  | absent parser =>
      exact tracks_absent (hAtomic parser) (hRun parser)
  | capture parser =>
      exact tracks_capture ((hRun parser).vetWindow alarm)
  | view seen parser =>
      exact tracks_view seen ((hRun parser).vetWindow alarm)
  | convert conversion parser =>
      exact tracks_convert conversion
        ((hRun parser).vetWindow alarm)
  | expect message parser =>
      exact tracks_expect message (hAtomic parser)
        (hRun parser)
  | reject message parser =>
      exact tracks_reject message (hAtomic parser)
        (hRun parser)
  | takeUntil orEnd terminator =>
      have hSearch := tracks_takeUntil orEnd
        (hAtomic terminator) (hRun terminator)
      exact hSearch.vetWindow alarm
  | rule handle => exact tracks_callRule rules hRun handle
  | label id name parser =>
      exact tracks_label id name (hRun parser)
  | token parser => exact tracks_token hAtomic hRun parser
  | withWhitespace whitespace parser =>
      exact tracks_withWhitespace (some whitespace)
        (hRun parser)
  | defaultWhitespace parser =>
      exact tracks_withWhitespace none (hRun parser)
  | withFlag name on parser =>
      exact tracks_withFlag name on (hRun parser)
  | select condition whenTrue whenFalse =>
      exact tracks_select condition (hRun whenTrue)
        (hRun whenFalse)
  | separatedList item separator =>
      exact tracks_separatedList (hAtomic item)
        (hAtomic separator) (hRun item) (hRun separator)
  | chain combine operand operator =>
      exact tracks_chain combine (hAtomic operand)
        (hAtomic operator) (hRun operand) (hRun operator)

/- Parsers are followed under watch. -/
theorem tracks_run
    (alarm : Fault)
    (rules : Rules)
    (depth : Nat)
    (parser : Parser) :
    Tracks (parser.watchedRun alarm rules depth)
      (parser.run rules depth) := by
  induction depth generalizing parser with
  | zero =>
      intro state _
      exact TracksFrom.exhausted
  | succ depth ih =>
      have hStep := tracks_step alarm rules
        (atomic_run rules depth) ih parser
      exact hStep.vetParse alarm

/- Parsers are followed without a watch, too. -/
theorem tracks_run_self
    (rules : Rules)
    (depth : Nat)
    (parser : Parser) :
    Tracks (parser.run rules depth)
      (parser.run rules depth) := by
  intro state hInside
  have hWatched := tracks_run (.committed "" 0) rules depth
    parser state hInside
  exact ⟨fun _ => rfl, hWatched.leads, hWatched.matched,
    hWatched.fatal⟩

end Parser

end ByteGrammar
