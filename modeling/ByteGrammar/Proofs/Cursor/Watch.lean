import ByteGrammar.Engine.Evaluation
import ByteGrammar.Proofs.Cursor.Tracking

/-
  Parsers under watch.

  A watched parser does what the parser does, but raises an
  alarm where a parser is entered with a cursor that is not
  sound, where a parser is left in a way that does not fit
  the cursor it was entered with, and where the region of a
  match is recorded that does not end after its start, at a
  position that was reached. Nothing catches a fatal error,
  and any fault can be the alarm, also one that no parser
  raises.

  Main declarations:
    * `Step.Fits`
    * `Action.vetParse`, `Action.vetWindow`
    * `Parser.watchedStep`, `Parser.watchedRun`
-/

------------------------------------------------------------
-- Vetting
------------------------------------------------------------

namespace ByteGrammar

namespace Match

/- The match is in order, and ends where it was reached. -/
def Recordable
    (found : Match)
    (cursor : Cursor) :
    Prop :=
  found.start ≤ found.stop ∧ found.stop ≤ cursor.furthest

instance
    (found : Match)
    (cursor : Cursor) :
    Decidable (found.Recordable cursor) :=
  inferInstanceAs (Decidable (_ ∧ _))

end Match

namespace Outcome

/- A match starts where the parse did or later, is in order
  and ends at the cursor. A fatal error is located between
  where the parse started and what was reached. -/
def Fits
    (before after : Cursor) :
    Outcome Match → Prop
  | .matched found =>
      before.position ≤ found.start ∧
        found.start ≤ found.stop ∧
        found.stop = after.position
  | .failed => True
  | .fatal fault =>
      before.position ≤ fault.position ∧
        fault.position ≤ after.furthest

instance
    (before after : Cursor) :
    (outcome : Outcome Match) →
      Decidable (outcome.Fits before after)
  | .matched _ => inferInstanceAs (Decidable (_ ∧ _ ∧ _))
  | .failed => inferInstanceAs (Decidable True)
  | .fatal _ => inferInstanceAs (Decidable (_ ∧ _))

end Outcome

/- The end of a parse fits the cursor that it started with:
  the cursor is still sound, what was reached still counts,
  and the outcome fits. -/
def Step.Fits
    (before : Cursor)
    (step : Step Match) :
    Prop :=
  step.state.cursor.Sound ∧
    before.furthest ≤ step.state.cursor.furthest ∧
    step.outcome.Fits before step.state.cursor

instance
    (before : Cursor)
    (step : Step Match) :
    Decidable (step.Fits before) :=
  inferInstanceAs (Decidable (_ ∧ _ ∧ _))

namespace Action

/- Runs an action on a sound cursor; raises an alarm on any
  other, and if the end does not fit. -/
def vetParse
    (alarm : Fault)
    (action : Action Match) :
    Action Match :=
  fun state =>
    if state.cursor.Sound then
      match action state with
      | none => none
      | some step =>
          if step.Fits state.cursor then some step
          else some { step with outcome := .fatal alarm }
    else raise alarm state

/- The match, if its region can be recorded; raises an alarm
  if it cannot. -/
def vetWindow
    (alarm : Fault)
    (action : Action Match) :
    Action Match := do
  let found ← action
  if ← inspect fun cursor =>
      decide (found.Recordable cursor) then
    return found
  else raise alarm

end Action

end ByteGrammar

------------------------------------------------------------
-- Watched Parsers
------------------------------------------------------------

namespace ByteGrammar

namespace Parser

/- The action of a parser that watches the regions it
  records. Captures, conversions and views record that of
  their part, a search for a terminator records its own. -/
def watchedStep
    (alarm : Fault)
    (rules : Rules)
    (run : Parser → Action Match) :
    Parser → Action Match
  | .capture parser =>
      Action.capture (Action.vetWindow alarm (run parser))
  | .view seen parser =>
      Action.view seen
        (Action.vetWindow alarm (run parser))
  | .convert conversion parser =>
      Action.convert conversion
        (Action.vetWindow alarm (run parser))
  | .takeUntil orEnd terminator =>
      Action.vetWindow alarm
        (Action.takeUntil orEnd (run terminator))
  | parser => parser.step rules run

/- The action of a parser down to a depth, where this parser
  and all that it runs are watched. -/
def watchedRun
    (alarm : Fault)
    (rules : Rules) :
    (depth : Nat) → Parser → Action Match
  | 0, _ => Action.exhausted
  | depth + 1, parser =>
      Action.vetParse alarm
        (parser.watchedStep alarm rules
          (watchedRun alarm rules depth))

end Parser

end ByteGrammar

------------------------------------------------------------
-- Where No Alarm Is Raised
------------------------------------------------------------

namespace ByteGrammar

namespace Action

namespace TracksFrom

variable {base : Cursor} {state : State}
variable {watched action : Action Match}

/- There is no alarm after a match that is in order and ends
  at the cursor. -/
theorem vetWindow
    {meets : Match → Cursor → Prop}
    (alarm : Fault)
    (hAction : TracksFrom base state watched action meets)
    (hMeets : ∀ found cursor, meets found cursor →
      found.start ≤ found.stop ∧
        found.stop = cursor.position) :
    TracksFrom base state (vetWindow alarm watched) action
      meets where
  same := by
    intro hSound
    have hSame := hAction.same hSound
    unfold Action.vetWindow
    cases hStep : action state with
    | none => exact bind_of_none (hSame.trans hStep)
    | some step =>
        rcases step with ⟨found | _ | _, last, events⟩
        · have hLast : last.cursor.Sound :=
            (hAction.leads _ hStep).sound hSound
          have hFound := hAction.matched _ _ _ hStep
          have hRecordable :
              found.Recordable last.cursor := by
            have hOrder := hMeets _ _ hFound
            rcases hLast with ⟨hReached, hBounded⟩
            unfold Match.Recordable
            omega
          refine (bind_of_matched
            (hSame.trans hStep)).trans ?_
          simp [Bind.bind, Action.bind, inspect, hRecordable,
            Pure.pure, Action.pure]
        · exact bind_of_failed (hSame.trans hStep)
        · exact bind_of_fatal (hSame.trans hStep)
  leads := hAction.leads
  matched := hAction.matched
  fatal := hAction.fatal

end TracksFrom

end Action

end ByteGrammar
