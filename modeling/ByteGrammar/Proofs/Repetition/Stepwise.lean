import ByteGrammar.Proofs.Repetition.Elements
import ByteGrammar.Proofs.Repetition.Search
import ByteGrammar.Proofs.Terminals.Scanning

/-
  Searches as repetitions of single bytes.

  A search that may end with the buffer does what a
  repetition of bytes does, before each of which the
  terminator must be absent. The two go in lockstep: where
  the terminator is, the one is done and the other has no
  next element; where it is not, both take a byte. A search
  that must find its terminator does what the repetition
  does if the terminator then follows.

  Main declarations:
    * `Action.byteBefore`, `Parser.bytesBefore`
    * `Action.lockstep_takeUntilPass`
    * `Action.capture_repeated_byteBefore`
    * `Parser.takeUntil_specified`
-/

------------------------------------------------------------
-- A Byte without the Terminator
------------------------------------------------------------

namespace ByteGrammar

namespace Action

/- A byte at which the terminator is absent. -/
def byteBefore
    (terminator : Action Match) :
    Action Match :=
  sequence (fun _ right => right) (absent terminator)
    (scan (.byteWhere fun _ => true))

variable {terminator : Action Match}
variable {state last : State}
variable {events : List Event}

theorem byteBefore_of_none
    (hTerminator : terminator state = none) :
    byteBefore terminator state = none :=
  sequence_of_none (absent_of_none hTerminator)

/- Where the terminator is, there is no such byte. -/
theorem byteBefore_of_matched
    {found : Match}
    (hTerminator :
      terminator state =
        some ⟨.matched found, last, events⟩) :
    byteBefore terminator state =
      some ⟨.failed, last.backTo state, events⟩ := by
  have hAbsent := absent_of_matched hTerminator
  exact (sequence_of_failed hAbsent).trans rfl

theorem byteBefore_of_fatal
    {fault : Fault}
    (hTerminator :
      terminator state =
        some ⟨.fatal fault, last, events⟩) :
    byteBefore terminator state =
      some ⟨.fatal fault, last, events⟩ :=
  sequence_of_fatal (absent_of_fatal hTerminator)

/- Nor is there one at the end of the buffer. -/
theorem byteBefore_of_end
    (hTerminator :
      terminator state = some ⟨.failed, last, events⟩)
    (hBack :
      last.cursor.checkpoint = state.cursor.checkpoint)
    (hEnd : last.cursor.atEnd = true) :
    byteBefore terminator state =
      some ⟨.failed, last, events⟩ := by
  have hNone : last.cursor.remaining = [] := by
    simpa [Cursor.atEnd, Cursor.remaining] using hEnd
  refine (sequence_of_second_failed
    (absent_of_failed hTerminator)
    (scan_anyByte_end hNone)).trans ?_
  rw [State.backTo, ← hBack, Cursor.restore_checkpoint,
    List.append_nil]

/- Elsewhere, it is taken. -/
theorem byteBefore_of_failed
    (hTerminator :
      terminator state = some ⟨.failed, last, events⟩)
    (hBefore : last.cursor.atEnd = false) :
    ∃ value,
      byteBefore terminator state =
        some ⟨.matched ⟨state.cursor.position,
            (last.cursor.advance 1).position, value⟩,
          last.advance 1, events⟩ := by
  have hSome : last.cursor.remaining ≠ [] := by
    simpa [Cursor.atEnd, Cursor.remaining] using hBefore
  rcases List.exists_cons_of_ne_nil hSome with
    ⟨byte, rest, hBytes⟩
  refine ⟨.byte byte, ?_⟩
  refine (sequence_of_matched (absent_of_failed hTerminator)
    (scan_anyByte hBytes)).trans ?_
  rw [List.append_nil]
  rfl

end Action

end ByteGrammar

------------------------------------------------------------
-- Passes in Lockstep
------------------------------------------------------------

namespace ByteGrammar

namespace Action

variable {terminator : Action Match}

/- A pass of the search goes on where one more byte is
  collected, and is done where none is. -/
theorem lockstep_takeUntilPass
    (hAtomic : Atomic terminator)
    (values : List Value)
    (state : State) :
    Lockstep
      (Pass.Agree (fun _ _ _ => True) (fun _ _ _ => True))
      (takeUntilPass true terminator () state)
      (collectPass none (byteBefore terminator) values
        state) := by
  have hOpen : ¬ Full none values := Bool.false_ne_true
  cases hTried : terminator state with
  | none =>
      have hByte := byteBefore_of_none hTried
      rw [takeUntilPass_of_none hTried,
        collectPass_of_none hOpen hByte]
      exact .none
  | some tried =>
      rcases tried with ⟨found | _ | fault, last, events⟩
      · have hByte := byteBefore_of_matched hTried
        rw [takeUntilPass_of_matched hTried,
          collectPass_of_failed hOpen hByte]
        exact .matched events trivial
      · cases hEnd : last.cursor.atEnd with
        | true =>
            have hBack := hAtomic _ _ _ hTried
            have hByte :=
              byteBefore_of_end hTried hBack hEnd
            rw [takeUntilPass_of_end hTried hEnd,
              collectPass_of_failed hOpen hByte]
            exact .matched events trivial
        | false =>
            rcases byteBefore_of_failed hTried hEnd with
              ⟨value, hByte⟩
            have hMoved :
                (last.cursor.advance 1).position ≠
                  state.cursor.position := by
              have hHere :
                  last.cursor.position =
                    state.cursor.position :=
                congrArg Checkpoint.position
                  (hAtomic _ _ _ hTried)
              have hInside :
                  last.cursor.position <
                    last.cursor.data.length := by
                simpa [Cursor.atEnd] using hEnd
              rw [Cursor.position_advance hInside]
              omega
            rw [takeUntilPass_of_failed hTried hEnd,
              collectPass_of_moved hOpen hByte hMoved]
            exact .matched events trivial
      · have hByte := byteBefore_of_fatal hTried
        rw [takeUntilPass_of_fatal hTried,
          collectPass_of_fatal hOpen hByte]
        exact .fatal fault last events

/- So the search covers what the repetition collects. -/
theorem lockstep_takeUntil
    (hAtomic : Atomic terminator)
    (state : State) :
    Lockstep
      (fun found collected _ =>
        found = collected.withValue (.region collected.region))
      (takeUntil true terminator state)
      (repeated 0 none (byteBefore terminator) state) := by
  have hByte : Atomic (byteBefore terminator) :=
    (atomic_absent terminator).bindReverting _
  rw [repeated_eq_attempt 0 none hByte]
  unfold takeUntil
  apply Lockstep.attempt
  apply Lockstep.after rfl
  have hLoop :
      Lockstep (fun _ _ _ => True)
        (loop (takeUntilPass true terminator) () state)
        (loop (collectPass none (byteBefore terminator)) []
          state) :=
    Lockstep.loop (fun _ values state _ =>
      lockstep_takeUntilPass hAtomic values state) trivial
  apply Lockstep.bind hLoop
  intro _ values middle _
  apply Lockstep.after rfl
  exact .pure rfl

/- Captured, the repetition is the search with its region
  recorded. -/
theorem capture_repeated_byteBefore
    (hAtomic : Atomic terminator) :
    capture (repeated 0 none (byteBefore terminator)) =
      (do
        let found ← takeUntil true terminator
        move fun cursor =>
          cursor.mark found.start found.stop
        return found) := by
  funext state
  symm
  apply Lockstep.eq
  unfold capture
  apply Lockstep.bind (lockstep_takeUntil hAtomic state)
  rintro _ collected middle rfl
  apply Lockstep.after rfl
  exact .pure rfl

end Action

end ByteGrammar

------------------------------------------------------------
-- Bytes before a Terminator
------------------------------------------------------------

namespace ByteGrammar

namespace Parser

open ByteGrammar.Action

variable {rules : Rules} {terminator : Parser}
variable {state : State}
variable {outcome : Outcome Match}
variable {stop : Nat}

/- The bytes before a terminator, one at a time. -/
def bytesBefore
    (terminator : Parser) :
    Parser :=
  .capture (.many (.andThen (.absent terminator) .anyByte))

theorem run_bytesBefore
    (rules : Rules)
    (terminator : Parser)
    (depth : Nat) :
    (bytesBefore terminator).run rules (depth + 4) =
      (do
        let found ←
          (Parser.takeUntil true terminator).run rules
            (depth + 1)
        move fun cursor =>
          cursor.mark found.start found.stop
        return found) :=
  capture_repeated_byteBefore
    (atomic_run rules depth terminator)

/- They are what a search covers that may end with the
  buffer. -/
theorem endsAt_bytesBefore :
    EndsAt rules (bytesBefore terminator) state outcome
        stop ↔
      EndsAt rules (.takeUntil true terminator) state outcome
        stop := by
  constructor
  · rintro ⟨last, hEnds, rfl⟩
    rcases hEnds.exists_least with ⟨least, events, hRun⟩
    have hDeep := hRun (least + 4) (Nat.le_add_right _ _)
    rw [run_bytesBefore] at hDeep
    cases bind_ends hDeep with
    | matched hFound hMarked =>
        cases hMarked
        exact ⟨_, .of_run hFound, rfl⟩
    | failed hFailed => exact ⟨_, .of_run hFailed, rfl⟩
    | fatal hFatal => exact ⟨_, .of_run hFatal, rfl⟩
  · rintro ⟨last, ⟨events, depth, hRun⟩, rfl⟩
    cases depth with
    | zero => cases hRun
    | succ depth =>
        have hBytes :=
          congrFun (run_bytesBefore rules terminator depth)
            state
        rcases outcome with found | _ | fault
        · have hMarked :=
            hBytes.trans (bind_of_matched hRun)
          exact ⟨_, .of_run hMarked, rfl⟩
        · have hFailed := hBytes.trans (bind_of_failed hRun)
          exact ⟨_, .of_run hFailed, rfl⟩
        · have hFatal := hBytes.trans (bind_of_fatal hRun)
          exact ⟨_, .of_run hFatal, rfl⟩

/- With the terminator after them, they are what a search
  covers that must find it. -/
theorem SearchEnds.followedBy
    (hInside : state.cursor.Inside)
    (hSearch :
      SearchEnds rules terminator false state outcome
        stop) :
    EndsAt rules
      (.followedBy (bytesBefore terminator) terminator) state
      outcome stop := by
  have hFirst : ∀ {outcome stop},
      SearchEnds rules terminator true state outcome stop →
        ComesTo rules state.cursor.data (· = state.context)
          state.cursor.position (bytesBefore terminator)
          outcome stop := by
    intro outcome stop hSearch
    have hBytes :=
      endsAt_bytesBefore.mpr (hSearch.endsAt hInside)
    exact (endsAt_iff_comesTo hInside).mp hBytes
  rw [endsAt_iff_comesTo hInside]
  cases hSearch with
  | found hOrder hWithin hMisses hMatch =>
      have hHere : (state.atPlace stop).cursor.Inside :=
        hWithin
      exact .followedBy
        (hFirst (.found hOrder hWithin hMisses hMatch))
        ((endsAt_iff_comesTo hHere).mp hMatch)
  | fatal hOrder hWithin hMisses hFatal =>
      exact .followedBy_fatal
        (hFirst (.fatal hOrder hWithin hMisses hFatal))
  | atEnd hAllowed => cases hAllowed
  | nowhere _ hMisses =>
      have hEnd :
          (state.atPlace
            state.cursor.data.length).cursor.Inside :=
        Nat.le_refl _
      have hMiss :=
        hMisses state.cursor.data.length hInside
          (Nat.lt_succ_self _)
      exact .followedBy_failed
        (hFirst (.atEnd rfl hMisses))
        ((endsAt_iff_comesTo hEnd).mp hMiss)

/- What decides a search that may end with the buffer
  decides one that may not. -/
theorem SearchEnds.required
    (hSearch :
      SearchEnds rules terminator true state outcome stop) :
    ∃ outcome stop,
      SearchEnds rules terminator false state outcome
        stop := by
  cases hSearch with
  | found hOrder hWithin hMisses hMatch =>
      exact ⟨_, _, .found hOrder hWithin hMisses hMatch⟩
  | fatal hOrder hWithin hMisses hFatal =>
      exact ⟨_, _, .fatal hOrder hWithin hMisses hFatal⟩
  | atEnd _ hMisses => exact ⟨_, _, .nowhere rfl hMisses⟩
  | nowhere hRequired => cases hRequired

theorem endsAt_followedBy_bytesBefore
    (hInside : state.cursor.Inside) :
    EndsAt rules
        (.followedBy (bytesBefore terminator) terminator)
        state outcome stop ↔
      SearchEnds rules terminator false state outcome
        stop := by
  constructor
  · intro hEnds
    have hBytes : ∃ outcome stop,
        EndsAt rules (bytesBefore terminator) state outcome
          stop := by
      rcases hEnds with ⟨last, ⟨events, depth, hRun⟩, _⟩
      cases depth with
      | zero => cases hRun
      | succ depth =>
          rcases exists_of_bindReverting hRun with
            ⟨step, hFirst⟩
          exact ⟨_, _, _, .of_run hFirst, rfl⟩
    rcases hBytes with ⟨outcome', stop', hBytes⟩
    have hSearch :=
      (endsAt_takeUntil hInside).mp
        (endsAt_bytesBefore.mp hBytes)
    rcases hSearch.required with ⟨_, _, hRequired⟩
    rcases hEnds.unique (hRequired.followedBy hInside) with
      ⟨rfl, rfl⟩
    exact hRequired
  · intro hSearch
    exact hSearch.followedBy hInside

end Parser

end ByteGrammar

------------------------------------------------------------
-- Searches for a Terminator
------------------------------------------------------------

namespace ByteGrammar

namespace Parser

/-
  What a search for a terminator does. It stops at the least
  position where the terminator does not fail: before it, if
  it matches there, and with its fault, if it is fatal
  there. If there is no such position, it ends with the
  buffer or fails. Where it may end with the buffer, it
  agrees with a repetition of the bytes at which the
  terminator is absent; where it may not, with the same
  repetition if the terminator follows.
-/
theorem takeUntil_specified
    (rules : Rules)
    (terminator : Parser)
    {state : State}
    (hInside : state.cursor.Inside)
    (outcome : Outcome Match)
    (stop : Nat) :
    (∀ orEnd,
      EndsAt rules (.takeUntil orEnd terminator) state outcome
          stop ↔
        SearchEnds rules terminator orEnd state outcome
          stop) ∧
    (EndsAt rules (.takeUntil true terminator) state outcome
        stop ↔
      EndsAt rules (bytesBefore terminator) state outcome
        stop) ∧
    (EndsAt rules (.takeUntil false terminator) state outcome
        stop ↔
      EndsAt rules
        (.followedBy (bytesBefore terminator) terminator)
        state outcome stop) := by
  refine ⟨?_, ?_, ?_⟩
  · intro orEnd
    exact endsAt_takeUntil hInside
  · exact endsAt_bytesBefore.symm
  · exact (endsAt_takeUntil hInside).trans
      (endsAt_followedBy_bytesBefore hInside).symm

/- The search for the end of a comment. -/
theorem takeUntil_specified_comment :
    let state : State :=
      ⟨.ofBytes [0x61, 0x2A, 0x2F, 0x62], .fresh .standard⟩
    let covered : Outcome Match :=
      .matched (.covering 0 1)
    state.cursor.Inside ∧
      SearchEnds .empty (.text "*/") false state covered 1 ∧
      EndsAt .empty
        (.followedBy (bytesBefore (.text "*/"))
          (.text "*/"))
        state covered 1 := by
  intro state covered
  have hInside : state.cursor.Inside := Nat.zero_le _
  have hEnds :
      EndsAt .empty (.takeUntil false (.text "*/")) state
        covered 1 :=
    ⟨_, ⟨[], 2, rfl⟩, rfl⟩
  rcases takeUntil_specified .empty (.text "*/") hInside
      covered 1 with
    ⟨hSearch, _, hFollowed⟩
  exact ⟨hInside, (hSearch false).mp hEnds,
    hFollowed.mp hEnds⟩

end Parser

end ByteGrammar
