import ByteGrammar.Proofs.Cursor.Spans
import ByteGrammar.Session

/-
  Where the cursor of a session can get to.

  Between its parses a session may move its cursor, keep
  checkpoints and go back to them. Its cursor stays sound,
  and what was reached counts for ever; all that a parse
  then runs fits the cursor that it is entered with.

  Main declarations:
    * `Session.Move`, `Session.Moves`
    * `Session.Steady`, `Session.Steady.move`
    * `Session.steady_of_moves`
    * `Session.sound_of_moves`
-/

------------------------------------------------------------
-- Moves of a Session
------------------------------------------------------------

namespace ByteGrammar

namespace Session

/-
  What can be done to a session: parses and skips down to
  any depth and with any outcome, operations of the cursor,
  and going back to a checkpoint that was kept. Context and
  grammar may be anything.
-/
inductive Move : Session → Session → Prop where
  | prepare (session : Session) (context : Context)
      (rules : Rules) :
      Move session
        { session.withContext context with rules := rules }
  | parse {session next : Session} {parser : Parser}
      {depth : Nat} {outcome : Outcome Match}
      {events : List Event}
      (hParse :
        session.run (parser.run session.rules depth) =
          some (outcome, events, next)) :
      Move session next
  | skip {session next : Session} {depth : Nat}
      {outcome : Outcome Unit} {events : List Event}
      (hSkip :
        session.run
            (Action.skipWhitespace
              (Parser.run session.rules depth)) =
          some (outcome, events, next)) :
      Move session next
  | read (session : Session) :
      Move session (session.onCursor Cursor.read?).2
  | advance (session : Session) (count : Nat) :
      Move session
        (session.moveCursor fun cursor =>
          cursor.advance count)
  | moveToEnd (session : Session) :
      Move session (session.onCursor Cursor.moveToEnd).2
  | skipInline (session : Session) :
      Move session (session.onCursor Cursor.skipInline).2
  | skipBlanks (session : Session) :
      Move session (session.onCursor Cursor.skipBlanks).2
  | save (session : Session) (slot : String) :
      Move session (session.save slot)
  | rollback {session next : Session} {slot : String}
      (hRollback : session.rollback slot = some next) :
      Move session next

/- One move after another, from the first session to the
  last. -/
inductive Moves
    (first : Session) :
    Session → Prop where
  | none : Moves first first
  | more {middle last : Session}
      (hMoves : Moves first middle)
      (hMove : Move middle last) :
      Moves first last

end Session

end ByteGrammar

------------------------------------------------------------
-- What Moves Keep
------------------------------------------------------------

namespace ByteGrammar

namespace Session

/- The cursor is a sound one of the buffer, and every
  checkpoint that was kept is at a position that was
  reached. -/
structure Steady
    (data : List UInt8)
    (session : Session) :
    Prop where
  data : session.cursor.data = data
  sound : session.cursor.Sound
  saved : ∀ slot saved, (slot, saved) ∈ session.slots →
    saved.position ≤ session.cursor.furthest

/- A fresh session is steady. -/
theorem steady_start
    (data : List UInt8)
    (options : Options)
    (rules : Rules) :
    Steady data (start data options rules) where
  data := rfl
  sound := Cursor.sound_ofBytes data
  saved := by
    intro slot saved hSaved
    cases hSaved

/- What a run leaves is the session with another state. -/
theorem run_ends
    {α : Type}
    {session next : Session}
    {action : Action α}
    {outcome : Outcome α}
    {events : List Event}
    (hRun :
      session.run action = some (outcome, events, next)) :
    ∃ state,
      action session.state = some ⟨outcome, state, events⟩ ∧
        next = { session with state := state } := by
  unfold run at hRun
  rcases Option.map_eq_some_iff.mp hRun with
    ⟨step, hStep, hNext⟩
  cases hNext
  exact ⟨step.state, hStep, rfl⟩

namespace Steady

variable {data : List UInt8} {session next : Session}

/- Where the cursor leads, the session is steady. -/
theorem of_leads
    (hSteady : Steady data session)
    (hLeads : session.cursor.Leads next.cursor)
    (hSlots : next.slots = session.slots) :
    Steady data next ∧
      session.cursor.furthest ≤ next.cursor.furthest := by
  have hKept := hLeads.kept
  refine ⟨⟨?_, ?_, ?_⟩, hKept⟩
  · exact hLeads.data.trans hSteady.data
  · exact hLeads.sound hSteady.sound
  · intro slot saved hSaved
    rw [hSlots] at hSaved
    have hPosition := hSteady.saved slot saved hSaved
    exact Nat.le_trans hPosition hKept

/- Going back to what was reached keeps the session
  steady. -/
theorem of_rollback
    {slot : String}
    (hSteady : Steady data session)
    (hRollback : session.rollback slot = some next) :
    Steady data next ∧
      session.cursor.furthest ≤ next.cursor.furthest := by
  unfold rollback at hRollback
  rcases Option.map_eq_some_iff.mp hRollback with
    ⟨saved, hLookup, hNext⟩
  cases hNext
  rcases List.lookup_eq_some_iff.mp hLookup with
    ⟨before, after, hSlots, _⟩
  have hMem : (slot, saved) ∈ session.slots := by
    rw [hSlots]
    simp
  have hReached := hSteady.saved slot saved hMem
  refine ⟨⟨hSteady.data, ?_, hSteady.saved⟩, ?_⟩
  · exact ⟨hReached, hSteady.sound.2⟩
  · exact Nat.le_refl _

end Steady

end Session

end ByteGrammar

------------------------------------------------------------
-- Single Moves
------------------------------------------------------------

namespace ByteGrammar

namespace Session

open ByteGrammar.Action

variable {session next : Session}

/- A parse leads on, whatever it comes to. -/
theorem leads_parse
    {rules : Rules}
    {depth : Nat}
    {parser : Parser}
    {outcome : Outcome Match}
    {events : List Event}
    (hInside : session.cursor.Inside)
    (hParse :
      session.run (parser.run rules depth) =
        some (outcome, events, next)) :
    session.cursor.Leads next.cursor ∧
      next.slots = session.slots := by
  rcases run_ends hParse with ⟨state, hStep, rfl⟩
  have hTracks := Parser.tracks_run_self rules depth parser
  have hLeads :=
    (hTracks session.state hInside).leads _ hStep
  exact ⟨hLeads, rfl⟩

/- Skipping leads on, whatever the whitespace parser comes
  to. -/
theorem leads_skip
    {rules : Rules}
    {depth : Nat}
    {outcome : Outcome Unit}
    {events : List Event}
    (hInside : session.cursor.Inside)
    (hSkip :
      session.run (skipWhitespace (Parser.run rules depth)) =
        some (outcome, events, next)) :
    session.cursor.Leads next.cursor ∧
      next.slots = session.slots := by
  rcases run_ends hSkip with ⟨state, hStep, rfl⟩
  have hTracks := Parser.tracks_run_self rules depth
  have hAtomic := Parser.atomic_run rules depth
  have hFollowed :
      TracksFrom session.state.cursor session.state _ _ _ :=
    tracks_skipWhitespace hAtomic hTracks hInside
  have hLeads := hFollowed.leads _ hStep
  exact ⟨hLeads, rfl⟩

/- Reading a byte leads on, also at the end. -/
theorem leads_read
    (hInside : session.cursor.Inside) :
    session.cursor.Leads
      (session.onCursor Cursor.read?).2.cursor := by
  unfold onCursor Cursor.read?
  cases session.cursor.peek? with
  | some byte => exact Cursor.leads_advance hInside 1
  | none => exact Cursor.Leads.refl hInside

/- One move keeps a session steady, and what was reached. -/
theorem Steady.move
    {data : List UInt8}
    (hSteady : Steady data session)
    (hMove : Move session next) :
    Steady data next ∧
      session.cursor.furthest ≤ next.cursor.furthest := by
  have hInside := hSteady.sound.inside
  cases hMove with
  | prepare context rules =>
      exact hSteady.of_leads (Cursor.Leads.refl hInside) rfl
  | parse hParse =>
      have hLeads := leads_parse hInside hParse
      exact hSteady.of_leads hLeads.1 hLeads.2
  | skip hSkip =>
      have hLeads := leads_skip hInside hSkip
      exact hSteady.of_leads hLeads.1 hLeads.2
  | read => exact hSteady.of_leads (leads_read hInside) rfl
  | advance count =>
      exact hSteady.of_leads
        (Cursor.leads_advance hInside count) rfl
  | moveToEnd =>
      exact hSteady.of_leads
        (Cursor.leads_advance hInside _) rfl
  | skipInline =>
      exact hSteady.of_leads
        (Cursor.leads_advance hInside _) rfl
  | skipBlanks =>
      exact hSteady.of_leads
        (Cursor.leads_advance hInside _) rfl
  | save slot =>
      refine ⟨⟨hSteady.data, hSteady.sound, ?_⟩,
        Nat.le_refl _⟩
      intro other saved hSaved
      rcases List.mem_cons.mp hSaved with hNew | hOld
      · -- The new checkpoint is at the cursor.
        cases hNew
        exact hSteady.sound.1
      · exact hSteady.saved other saved hOld
  | rollback hRollback => exact hSteady.of_rollback hRollback

end Session

end ByteGrammar

------------------------------------------------------------
-- All Moves
------------------------------------------------------------

namespace ByteGrammar

namespace Session

variable {session last : Session}

/- Moves keep a session steady, and what was reached. -/
theorem steady_of_moves
    {data : List UInt8}
    (hSteady : Steady data session)
    (hMoves : Moves session last) :
    Steady data last ∧
      session.cursor.furthest ≤ last.cursor.furthest := by
  -- Steadiness is the invariant of the induction.
  induction hMoves with
  | none => exact ⟨hSteady, Nat.le_refl _⟩
  | more _ hMove ih =>
      rcases ih with ⟨hMiddle, hFurthest⟩
      rcases hMiddle.move hMove with ⟨hLast, hFurthest'⟩
      exact ⟨hLast, Nat.le_trans hFurthest hFurthest'⟩

/-
  However a fresh session was moved, its cursor is sound,
  and no move takes back what was reached. Every parse
  from there, in any context, fits the cursor, and so does
  all that it runs: under watch it raises no alarm.
-/
theorem sound_of_moves
    {data : List UInt8}
    {options : Options}
    {rules : Rules}
    (hMoves : Moves (start data options rules) session) :
    (session.cursor.position ≤ session.cursor.furthest ∧
      session.cursor.furthest ≤ data.length) ∧
    (∀ last, Moves session last →
      session.cursor.furthest ≤ last.cursor.furthest) ∧
    ∀ (grammar : Rules) (depth : Nat) (parser : Parser)
      (context : Context),
      (∀ step,
        parser.run grammar depth ⟨session.cursor, context⟩ =
            some step →
          step.Fits session.cursor) ∧
      ∀ alarm,
        parser.watchedRun alarm grammar depth
            ⟨session.cursor, context⟩ =
          parser.run grammar depth
            ⟨session.cursor, context⟩ := by
  have hSteady :=
    (steady_of_moves (steady_start data options rules)
      hMoves).1
  have hSound := hSteady.sound
  refine ⟨⟨hSound.1, ?_⟩, ?_, ?_⟩
  · have hBounded := hSound.2
    rwa [hSteady.data] at hBounded
  · intro last hMore
    exact (steady_of_moves hSteady hMore).2
  · intro grammar depth parser context
    constructor
    · intro step hStep
      have hTracks :=
        Parser.tracks_run_self grammar depth parser
      exact hTracks.fits ⟨session.cursor, context⟩ hSound
        hStep
    · intro alarm
      have hTracks := Parser.tracks_run alarm grammar depth
        parser ⟨session.cursor, context⟩ hSound.inside
      exact hTracks.same hSound

/- A capture after all was read and the cursor set back. -/
theorem sound_of_moves_back :
    let letter (byte : UInt8) : Parser :=
      .terminal (.byteWhere (· == byte))
    let parser : Parser := .capture (letter 0x61)
    let context : Context := .fresh .standard
    let fresh := start [0x61, 0x62] .standard .empty
    let kept := fresh.save "start"
    let read := (kept.onCursor Cursor.moveToEnd).2
    let back : Session :=
      read.withCursor ⟨[0x61, 0x62], 0, .origin, 2⟩
    let step : Step Match :=
      ⟨.matched ⟨0, 1, .region ⟨0, 1⟩⟩,
        ⟨⟨[0x61, 0x62], 1, ⟨0, 1⟩, 2⟩, context⟩, []⟩
    Moves fresh back ∧
      parser.run .empty 2 ⟨back.cursor, context⟩ =
        some step ∧
      step.Fits back.cursor ∧
      parser.watchedRun (.unbound 0 0) .empty 2
          ⟨back.cursor, context⟩ =
        some step := by
  intro letter parser context fresh kept read back step
  have hBack : Moves fresh back :=
    Moves.none
      |>.more (.save fresh "start")
      |>.more (.moveToEnd kept)
      |>.more (.rollback (rfl :
          read.rollback "start" = some back))
  have hRun :
      parser.run .empty 2 ⟨back.cursor, context⟩ =
        some step := rfl
  have hSound := sound_of_moves hBack
  have hParse := hSound.2.2 .empty 2 parser context
  have hSame := hParse.2 (.unbound 0 0)
  exact ⟨hBack, hRun, hParse.1 step hRun,
    hSame.trans hRun⟩

end Session

end ByteGrammar
