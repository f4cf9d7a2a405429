import ByteGrammar.Grammar.Forms
import ByteGrammar.Proofs.Engine.Equivalence
import ByteGrammar.Proofs.Engine.Lockstep
import ByteGrammar.Proofs.Engine.Repetition
import ByteGrammar.Proofs.Forms.Laws

/-
  Searches for a terminator.

  A search tries its terminator at one position after the
  other and stops at the least one where that does not fail.
  Where the terminator is, what comes before it is covered;
  the terminator itself is left.

  Main declarations:
    * `State.atPlace`, `Parser.EndsAt`
    * `Parser.Misses`, `Parser.SearchEnds`
    * `Parser.SearchEnds.endsAt`
    * `Parser.endsAt_takeUntil`
-/

------------------------------------------------------------
-- Parsers at Places
------------------------------------------------------------

namespace ByteGrammar

namespace State

/- The state with the cursor at another position of the
  buffer. -/
def atPlace
    (state : State)
    (place : Nat) :
    State :=
  { state with
    cursor := { state.cursor with position := place } }

end State

namespace Parser

variable {rules : Rules} {parser : Parser}
variable {state : State}
variable {outcome outcome' : Outcome Match}
variable {stop stop' : Nat}

/- The outcome that a parser comes to and the position where
  it leaves the cursor. -/
def EndsAt
    (rules : Rules)
    (parser : Parser)
    (state : State)
    (outcome : Outcome Match)
    (stop : Nat) :
    Prop :=
  ∃ last, EndsIn rules parser state outcome last ∧
    last.cursor.position = stop

theorem EndsAt.unique
    (hEnds : EndsAt rules parser state outcome stop)
    (hOther : EndsAt rules parser state outcome' stop') :
    outcome = outcome' ∧ stop = stop' := by
  rcases hEnds with ⟨last, hEnds, rfl⟩
  rcases hOther with ⟨last', hOther, rfl⟩
  rcases hEnds.unique hOther with ⟨hOutcome, rfl⟩
  exact ⟨hOutcome, rfl⟩

/- Where a parser fails, it leaves the cursor in its
  place. -/
theorem EndsAt.stop_eq_of_failed
    (hEnds : EndsAt rules parser state .failed stop) :
    stop = state.cursor.position := by
  rcases hEnds with ⟨last, hEnds, rfl⟩
  exact congrArg Checkpoint.position hEnds.checkpoint_eq

/- What a parser comes to on a state, it comes to wherever
  the cursor has the same place and the context is the
  same. -/
theorem endsAt_iff_comesTo
    (hInside : state.cursor.Inside) :
    EndsAt rules parser state outcome stop ↔
      ComesTo rules state.cursor.data (· = state.context)
        state.cursor.position parser outcome stop := by
  constructor
  · rintro ⟨last, hEnds, rfl⟩
    have hData := (hEnds.leads hInside).data
    have hContext := hEnds.context_eq
    rcases hEnds.exists_least with ⟨least, events, hRun⟩
    refine ⟨least, ?_⟩
    rintro depth hDepth cursor _ hData' hStart rfl
    have hPlace : state.cursor.SamePlace cursor :=
      ⟨hData'.symm, hStart.symm⟩
    rcases run_of_samePlace hPlace (hRun depth hDepth) with
      ⟨⟨last', _⟩, hRun', hSame, rfl⟩
    rw [hContext] at hRun'
    exact ⟨last', events, hRun',
      hSame.data.symm.trans hData, hSame.position.symm⟩
  · rintro ⟨least, hComes⟩
    rcases hComes least (Nat.le_refl least) state.cursor
        state.context rfl rfl rfl with
      ⟨last, events, hRun, _, hStop⟩
    exact ⟨_, .of_run hRun, hStop⟩

/- What is reached from a place ends there as it does on any
  state of that place. -/
theorem endsAt_congr
    {state' : State}
    (hInside : state.cursor.Inside)
    (hPlace : state.cursor.SamePlace state'.cursor)
    (hContext : state.context = state'.context) :
    EndsAt rules parser state outcome stop ↔
      EndsAt rules parser state' outcome stop := by
  have hInside' : state'.cursor.Inside := by
    unfold Cursor.Inside
    rw [← hPlace.data, ← hPlace.position]
    exact hInside
  rw [endsAt_iff_comesTo hInside,
    endsAt_iff_comesTo hInside', hPlace.data,
    hPlace.position, hContext]

end Parser

end ByteGrammar

------------------------------------------------------------
-- What a Search Comes To
------------------------------------------------------------

namespace ByteGrammar

namespace Match

/- A match of the region between two positions. -/
def covering
    (start stop : Nat) :
    Match :=
  ⟨start, stop, .region (Region.between start stop)⟩

end Match

namespace Parser

/- The parser fails at each position from that of a state up
  to another one. -/
def Misses
    (rules : Rules)
    (parser : Parser)
    (state : State)
    (stop : Nat) :
    Prop :=
  ∀ place, state.cursor.position ≤ place → place < stop →
    EndsAt rules parser (state.atPlace place) .failed place

/-
  What a search for a terminator comes to, and where: the
  terminator fails at each position before a least one,
  where it matches or raises a fatal error, or it fails at
  each position up to the end of the buffer, where the
  search is over or fails.
-/
inductive SearchEnds
    (rules : Rules)
    (terminator : Parser)
    (orEnd : Bool)
    (state : State) :
    Outcome Match → Nat → Prop where
  | found {place stop : Nat} {found : Match}
      (hOrder : state.cursor.position ≤ place)
      (hInside : place ≤ state.cursor.data.length)
      (hMisses : Misses rules terminator state place)
      (hMatch :
        EndsAt rules terminator (state.atPlace place)
          (.matched found) stop) :
      SearchEnds rules terminator orEnd state
        (.matched (.covering state.cursor.position place))
        place
  | fatal {place stop : Nat} {fault : Fault}
      (hOrder : state.cursor.position ≤ place)
      (hInside : place ≤ state.cursor.data.length)
      (hMisses : Misses rules terminator state place)
      (hFatal :
        EndsAt rules terminator (state.atPlace place)
          (.fatal fault) stop) :
      SearchEnds rules terminator orEnd state (.fatal fault)
        stop
  | atEnd
      (hAllowed : orEnd = true)
      (hMisses :
        Misses rules terminator state
          (state.cursor.data.length + 1)) :
      SearchEnds rules terminator orEnd state
        (.matched (.covering state.cursor.position
          state.cursor.data.length))
        state.cursor.data.length
  | nowhere
      (hRequired : orEnd = false)
      (hMisses :
        Misses rules terminator state
          (state.cursor.data.length + 1)) :
      SearchEnds rules terminator orEnd state .failed
        state.cursor.position

end Parser

end ByteGrammar

------------------------------------------------------------
-- Searches Come to It
------------------------------------------------------------

namespace ByteGrammar

namespace Action

namespace ComesTo

variable {data : List UInt8}
variable {admitted : Context → Prop}
variable {start place stop : Nat}
variable {orEnd : Bool}
variable {terminator : Action Match}
variable {fault : Fault}

/- A fatal error of the terminator ends a pass. -/
theorem takeUntilPass_fatal
    (hFatal :
      ComesTo data admitted start terminator (.fatal fault)
        stop) :
    ComesTo data admitted start
      (takeUntilPass orEnd terminator ()) (.fatal fault)
      stop := by
  unfold takeUntilPass
  apply checkpoint_bind
  intro saved _
  exact bind_fatal (optionally_fatal hFatal)

/- And so it ends the search. -/
theorem takeUntil_fatal
    (hOrder : start ≤ place)
    (hMisses : ∀ between, start ≤ between →
      between < place →
        ComesTo data admitted between terminator .failed
          between)
    (hInside : place ≤ data.length)
    (hFatal :
      ComesTo data admitted place terminator (.fatal fault)
        stop) :
    ComesTo data admitted start
      (Action.takeUntil orEnd terminator) (.fatal fault)
      stop := by
  unfold Action.takeUntil
  apply attempt_fatal
  apply position_bind
  apply bind_fatal
  apply loop
  apply iterate_takeUntilPass hOrder hMisses hInside _ _
    (Nat.lt_succ_self _)
  intro limit hLimit
  cases limit with
  | zero => cases hLimit
  | succ limit =>
      exact iterate_fatal limit (takeUntilPass_fatal hFatal)

end ComesTo

end Action

namespace Parser

variable {rules : Rules} {terminator : Parser}
variable {orEnd : Bool}
variable {state : State}
variable {outcome : Outcome Match}
variable {stop : Nat}

/- To one depth, a terminator fails at all the positions at
  which it fails. -/
theorem Misses.exists_depth
    (hMisses : Misses rules terminator state stop)
    (hWithin : stop ≤ state.cursor.data.length + 1) :
    ∃ least, ∀ depth, least ≤ depth →
      ∀ place, state.cursor.position ≤ place →
        place < stop →
          Action.ComesTo state.cursor.data
            (· = state.context) place
            (terminator.run rules depth) .failed place := by
  induction stop with
  | zero =>
      exact ⟨0, fun _ _ _ _ hPlace =>
        absurd hPlace (Nat.not_lt_zero _)⟩
  | succ stop ih =>
      have hBefore : Misses rules terminator state stop := by
        intro place hOrder hPlace
        exact hMisses place hOrder (Nat.lt_succ_of_lt hPlace)
      rcases ih hBefore (by omega) with ⟨one, hBefore⟩
      by_cases hOrder : state.cursor.position ≤ stop
      · have hHere : (state.atPlace stop).cursor.Inside :=
          Nat.le_of_succ_le_succ hWithin
        rcases (endsAt_iff_comesTo hHere).mp
            (hMisses stop hOrder (Nat.lt_succ_self stop))
          with ⟨two, hLast⟩
        refine ⟨max one two, ?_⟩
        intro depth hDepth place hStart hPlace
        cases Nat.lt_succ_iff_lt_or_eq.mp hPlace with
        | inl hPlace =>
            exact hBefore depth (by omega) place hStart
              hPlace
        | inr hSame =>
            subst hSame
            exact hLast depth (by omega)
      · refine ⟨one, ?_⟩
        intro depth hDepth place hStart hPlace
        exact hBefore depth hDepth place hStart (by omega)

/- What is decided by the terminator is what the search
  comes to. -/
theorem SearchEnds.endsAt
    (hInside : state.cursor.Inside)
    (hSearch :
      SearchEnds rules terminator orEnd state outcome
        stop) :
    EndsAt rules (.takeUntil orEnd terminator) state outcome
      stop := by
  rw [endsAt_iff_comesTo hInside]
  cases hSearch with
  | found hOrder hWithin hMisses hMatch =>
      have hHere : (state.atPlace stop).cursor.Inside :=
        hWithin
      have hPlace := (endsAt_iff_comesTo hHere).mp hMatch
      rcases hMisses.exists_depth (by omega) with
        ⟨one, hMisses⟩
      rcases hPlace with ⟨two, hMatch⟩
      apply ComesTo.of_step (max one two)
      intro depth hDepth
      exact .takeUntil hOrder (hMisses depth (by omega))
        hWithin (hMatch depth (by omega))
  | @fatal place _ _ hOrder hWithin hMisses hFatal =>
      have hHere : (state.atPlace place).cursor.Inside :=
        hWithin
      have hPlace := (endsAt_iff_comesTo hHere).mp hFatal
      rcases hMisses.exists_depth (by omega) with
        ⟨one, hMisses⟩
      rcases hPlace with ⟨two, hFatal⟩
      apply ComesTo.of_step (max one two)
      intro depth hDepth
      exact .takeUntil_fatal hOrder
        (hMisses depth (by omega)) hWithin
        (hFatal depth (by omega))
  | atEnd hAllowed hMisses =>
      subst hAllowed
      rcases hMisses.exists_depth (Nat.le_refl _) with
        ⟨least, hMisses⟩
      apply ComesTo.of_step least
      intro depth hDepth
      apply Action.ComesTo.takeUntil_end hInside
      intro place hOrder hPlace
      exact hMisses depth hDepth place hOrder
        (Nat.lt_succ_of_le hPlace)
  | nowhere hRequired hMisses =>
      subst hRequired
      rcases hMisses.exists_depth (Nat.le_refl _) with
        ⟨least, hMisses⟩
      apply ComesTo.of_step least
      intro depth hDepth
      apply Action.ComesTo.takeUntil_failed hInside
      intro place hOrder hPlace
      exact hMisses depth hDepth place hOrder
        (Nat.lt_succ_of_le hPlace)

end Parser

end ByteGrammar

------------------------------------------------------------
-- Passes of a Search
------------------------------------------------------------

namespace ByteGrammar

namespace Action

variable {orEnd : Bool}
variable {terminator : Action Match}
variable {state last : State}
variable {events : List Event}

theorem takeUntilPass_of_none
    (hTerminator : terminator state = none) :
    takeUntilPass orEnd terminator () state = none := by
  unfold takeUntilPass
  refine (inspect_bind _ _ state).trans ?_
  apply bind_of_none
  simp only [optionally, hTerminator]

/- Before a terminator, the search is done. -/
theorem takeUntilPass_of_matched
    {found : Match}
    (hTerminator :
      terminator state =
        some ⟨.matched found, last, events⟩) :
    takeUntilPass orEnd terminator () state =
      some ⟨.matched (.done ()), last.backTo state,
        events⟩ := by
  unfold takeUntilPass
  refine (inspect_bind _ _ state).trans ?_
  have hOptional := optionally_of_matched hTerminator
  refine (bind_of_matched hOptional).trans ?_
  refine (congrArg _ (move_bind _ _ last)).trans ?_
  simp only [Pure.pure, pure, Option.map_some,
    List.append_nil]
  rfl

theorem takeUntilPass_of_fatal
    {fault : Fault}
    (hTerminator :
      terminator state =
        some ⟨.fatal fault, last, events⟩) :
    takeUntilPass orEnd terminator () state =
      some ⟨.fatal fault, last, events⟩ := by
  unfold takeUntilPass
  refine (inspect_bind _ _ state).trans ?_
  exact bind_of_fatal (optionally_of_fatal hTerminator)

/- At the end of the buffer, the search is done if it may
  be. -/
theorem takeUntilPass_of_end
    (hTerminator :
      terminator state = some ⟨.failed, last, events⟩)
    (hEnd : last.cursor.atEnd = true) :
    takeUntilPass true terminator () state =
      some ⟨.matched (.done ()), last, events⟩ := by
  unfold takeUntilPass
  refine (inspect_bind _ _ state).trans ?_
  have hOptional := optionally_of_failed hTerminator
  refine (bind_of_matched hOptional).trans ?_
  refine (congrArg _ (inspect_bind _ _ last)).trans ?_
  simp only [hEnd, if_true, Pure.pure, pure,
    Option.map_some, List.append_nil]

/- Without a terminator, it goes on by a byte. -/
theorem takeUntilPass_of_failed
    (hTerminator :
      terminator state = some ⟨.failed, last, events⟩)
    (hBefore : last.cursor.atEnd = false) :
    takeUntilPass orEnd terminator () state =
      some ⟨.matched (.again ()), last.advance 1,
        events⟩ := by
  unfold takeUntilPass
  refine (inspect_bind _ _ state).trans ?_
  have hOptional := optionally_of_failed hTerminator
  refine (bind_of_matched hOptional).trans ?_
  refine (congrArg _ (inspect_bind _ _ last)).trans ?_
  rw [hBefore, if_neg Bool.false_ne_true]
  refine (congrArg _ (move_bind _ _ last)).trans ?_
  simp only [Pure.pure, pure, Option.map_some,
    List.append_nil]
  rfl

end Action

end ByteGrammar

------------------------------------------------------------
-- Searches Come to Nothing Else
------------------------------------------------------------

namespace ByteGrammar

namespace Parser

open ByteGrammar.Action

variable {rules : Rules} {terminator : Parser}
variable {orEnd : Bool}
variable {state here last : State}
variable {outcome : Outcome Match}
variable {stop : Nat}

/- A search from a state has come to another one of the same
  buffer: the terminator failed at each position before. -/
structure Passes
    (rules : Rules)
    (terminator : Parser)
    (state here : State) :
    Prop where
  data : here.cursor.data = state.cursor.data
  context : here.context = state.context
  order : state.cursor.position ≤ here.cursor.position
  inside : here.cursor.Inside
  misses :
    Misses rules terminator state here.cursor.position

theorem passes_start
    (hInside : state.cursor.Inside) :
    Passes rules terminator state state where
  data := rfl
  context := rfl
  order := Nat.le_refl _
  inside := hInside
  misses := fun _ hOrder hPlace =>
    absurd hPlace (Nat.not_lt.mpr hOrder)

namespace Passes

theorem within
    (hPasses : Passes rules terminator state here) :
    here.cursor.position ≤ state.cursor.data.length := by
  rw [← hPasses.data]
  exact hPasses.inside

/- What the terminator comes to here is what it comes to at
  this position. -/
theorem endsAt
    (hPasses : Passes rules terminator state here)
    (hEnds : EndsIn rules terminator here outcome last) :
    EndsAt rules terminator
      (state.atPlace here.cursor.position) outcome
      last.cursor.position := by
  have hPlace :
      here.cursor.SamePlace
        (state.atPlace here.cursor.position).cursor :=
    ⟨hPasses.data, rfl⟩
  exact (endsAt_congr hPasses.inside hPlace
    hPasses.context).mp ⟨last, hEnds, rfl⟩

/- Where the terminator fails, it is missed up to behind this
  position. -/
theorem misses_succ
    (hPasses : Passes rules terminator state here)
    (hFailed : EndsIn rules terminator here .failed last) :
    Misses rules terminator state
      (here.cursor.position + 1) := by
  intro place hOrder hPlace
  cases Nat.lt_succ_iff_lt_or_eq.mp hPlace with
  | inl hBefore => exact hPasses.misses place hOrder hBefore
  | inr hSame =>
      have hHere := hPasses.endsAt hFailed
      rw [hHere.stop_eq_of_failed] at hHere
      rw [hSame]
      exact hHere

/- If a byte is there, the search goes on behind it. -/
theorem advance
    (hPasses : Passes rules terminator state here)
    (hFailed : EndsIn rules terminator here .failed last)
    (hBefore : last.cursor.atEnd = false) :
    Passes rules terminator state (last.advance 1) := by
  have hLeads := hFailed.leads hPasses.inside
  have hPlace :
      last.cursor.position = here.cursor.position :=
    congrArg Checkpoint.position hFailed.checkpoint_eq
  have hByte :
      last.cursor.position + 1 ≤ last.cursor.data.length := by
    apply Nat.succ_le_of_lt
    simpa [Cursor.atEnd] using hBefore
  have hNext := Cursor.position_advance hByte
  have hOrder := hPasses.order
  constructor
  · exact hLeads.data.trans hPasses.data
  · exact hFailed.context_eq.trans hPasses.context
  · simp only [State.advance]
    omega
  · exact Cursor.position_advance_le _ _
  · simp only [State.advance]
    rw [hNext, hPlace]
    exact hPasses.misses_succ hFailed

/- At the end of the buffer, it has been missed at all
  positions. -/
theorem misses_all
    (hPasses : Passes rules terminator state here)
    (hFailed : EndsIn rules terminator here .failed last)
    (hEnd : last.cursor.atEnd = true) :
    Misses rules terminator state
      (state.cursor.data.length + 1) := by
  have hData := (hFailed.leads hPasses.inside).data
  have hPlace :
      last.cursor.position = here.cursor.position :=
    congrArg Checkpoint.position hFailed.checkpoint_eq
  have hAll :
      state.cursor.data.length ≤ here.cursor.position := by
    rw [← hPasses.data, ← hData, ← hPlace]
    simpa [Cursor.atEnd] using hEnd
  have hWithin := hPasses.within
  have hLast :
      here.cursor.position = state.cursor.data.length := by
    omega
  rw [← hLast]
  exact hPasses.misses_succ hFailed

/- A search that goes on from here and ends comes to
  something. -/
theorem exists_searchEnds
    {depth limit : Nat}
    {step : Step Unit}
    (hPasses : Passes rules terminator state here)
    (hRun :
      iterate
          (takeUntilPass orEnd
            (terminator.run rules depth))
          limit () here =
        some step) :
    ∃ outcome stop,
      SearchEnds rules terminator orEnd state outcome
        stop := by
  induction limit generalizing here step with
  | zero => cases hRun
  | succ limit ih =>
      cases hTried : terminator.run rules depth here with
      | none =>
          have hPass :
              takeUntilPass orEnd (terminator.run rules depth)
                () here = none :=
            takeUntilPass_of_none hTried
          rw [iterate] at hRun
          rcases exists_of_bind hRun with ⟨ended, hEnded⟩
          rw [hPass] at hEnded
          cases hEnded
      | some tried =>
          rcases tried with
            ⟨found | _ | fault, last, events⟩
          · have hHere := hPasses.endsAt (.of_run hTried)
            exact ⟨_, _, .found hPasses.order hPasses.within
              hPasses.misses hHere⟩
          · have hFailed := EndsIn.of_run hTried
            cases hEnd : last.cursor.atEnd with
            | true =>
                have hMisses :=
                  hPasses.misses_all hFailed hEnd
                cases orEnd with
                | true => exact ⟨_, _, .atEnd rfl hMisses⟩
                | false =>
                    exact ⟨_, _, .nowhere rfl hMisses⟩
            | false =>
                rw [iterate_of_again limit
                    (takeUntilPass_of_failed hTried hEnd),
                  Option.map_eq_some_iff] at hRun
                rcases hRun with ⟨more, hMore, _⟩
                exact ih (hPasses.advance hFailed hEnd)
                  hMore
          · have hHere := hPasses.endsAt (.of_run hTried)
            exact ⟨_, _, .fatal hPasses.order hPasses.within
              hPasses.misses hHere⟩

end Passes

/- A search comes to what its terminator decides. -/
theorem endsAt_takeUntil
    (hInside : state.cursor.Inside) :
    EndsAt rules (.takeUntil orEnd terminator) state outcome
        stop ↔
      SearchEnds rules terminator orEnd state outcome
        stop := by
  constructor
  · intro hEnds
    have hSearch : ∃ outcome stop,
        SearchEnds rules terminator orEnd state outcome
          stop := by
      rcases hEnds with ⟨last, ⟨events, depth, hRun⟩, _⟩
      cases depth with
      | zero => cases hRun
      | succ depth =>
          rcases exists_of_attempt hRun with ⟨inner, hInner⟩
          have hSearch := (inspect_bind _ _ _).symm.trans hInner
          rcases exists_of_bind hSearch with
            ⟨ended, hLoop⟩
          rw [loop_eq_iterate] at hLoop
          exact (passes_start hInside).exists_searchEnds hLoop
    rcases hSearch with ⟨outcome', stop', hSearch⟩
    rcases hEnds.unique (hSearch.endsAt hInside) with
      ⟨rfl, rfl⟩
    exact hSearch
  · intro hSearch
    exact hSearch.endsAt hInside

end Parser

end ByteGrammar
