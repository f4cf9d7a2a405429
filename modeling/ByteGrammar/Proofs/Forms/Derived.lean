import ByteGrammar.Grammar.Forms
import ByteGrammar.Proofs.Engine.Equivalence
import ByteGrammar.Proofs.Forms.Laws

/-
  Forms that come to the same as others.

  Each law of actions becomes a law of parsers: both sides
  make the same of the same parts, which they nest at
  different levels.

  Main declarations:
    * `Value.nestRight`, `Value.nestLeft`
    * `Parser.forms_row_left`, `Parser.forms_row_right`
    * `Parser.choice_append_included`
    * `Parser.forms_equivalent`
-/

------------------------------------------------------------
-- Nested Pairs
------------------------------------------------------------

namespace ByteGrammar

namespace Value

/- Nests three values to the right that are nested to the
  left. -/
def nestRight :
    Value → Value
  | .pair (.pair first second) third =>
      .pair first (.pair second third)
  | value => value

/- Nests three values to the left that are nested to the
  right. -/
def nestLeft :
    Value → Value
  | .pair first (.pair second third) =>
      .pair (.pair first second) third
  | value => value

end Value

end ByteGrammar

------------------------------------------------------------
-- Sequences
------------------------------------------------------------

namespace ByteGrammar

namespace Action

variable {first first' second second' third third' :
  Action Match}

theorem row_refines
    (join : Value → Value → Value → Value)
    (hFirst : Refines first first')
    (hSecond : Refines second second')
    (hThird : Refines third third') :
    Refines (row join first second third)
      (row join first' second' third') := by
  unfold row
  apply refines_congruence.cursorCongruence.bindReverting
    Cursor.likeness_eq.outlook hFirst
  intro left
  exact refines_congruence.bind hSecond fun _ =>
    refines_congruence.bind hThird fun _ =>
      refines_congruence.pure _

end Action

namespace Parser

open ByteGrammar.Action

variable (rules : Rules)
variable (first second third : Parser)

theorem forms_between :
    Forms rules
      (fun run =>
        row (fun _ middle _ => middle) (run first)
          (run second) (run third))
      (between first second third) :=
  Forms.of_run_eq 1 fun _ => rfl

/- A sequence whose first part is a sequence. -/
theorem forms_row_left
    (join inner : Value → Value → Value) :
    Forms rules
      (fun run =>
        row (fun left middle right =>
          join (inner left middle) right)
          (run first) (run second) (run third))
      (sequence join (sequence inner first second)
        third) := by
  refine ⟨2, 1, ?_⟩
  intro depth
  have hRun :
      (sequence join (sequence inner first second)
          third).run rules (depth + 2) =
        row (fun left middle right =>
          join (inner left middle) right)
          (first.run rules depth) (second.run rules depth)
          (third.run rules (depth + 1)) :=
    sequence_sequence_left _ _ _ _ _
  have hFirst := run_refines_succ rules depth first
  have hSecond := run_refines_succ rules depth second
  have hThird := run_refines_succ rules depth third
  rw [hRun]
  constructor
  · exact row_refines _ (.refl _) (.refl _) hThird
  · exact row_refines _ hFirst hSecond (.refl _)

/- A sequence whose second part is a sequence. -/
theorem forms_row_right
    (join inner : Value → Value → Value) :
    Forms rules
      (fun run =>
        row (fun left middle right =>
          join left (inner middle right))
          (run first) (run second) (run third))
      (sequence join first
        (sequence inner second third)) := by
  refine ⟨2, 1, ?_⟩
  intro depth
  have hRun :
      (sequence join first
          (sequence inner second third)).run rules
            (depth + 2) =
        row (fun left middle right =>
          join left (inner middle right))
          (first.run rules (depth + 1))
          (second.run rules depth)
          (third.run rules depth) :=
    sequence_sequence_right _ _ _ _ _
  have hFirst := run_refines_succ rules depth first
  have hSecond := run_refines_succ rules depth second
  have hThird := run_refines_succ rules depth third
  rw [hRun]
  constructor
  · exact row_refines _ hFirst (.refl _) (.refl _)
  · exact row_refines _ (.refl _) hSecond hThird

/- The value of a row may be changed afterwards. -/
theorem Forms.map_row
    {parser : Parser}
    {join : Value → Value → Value → Value}
    (change : Value → Value)
    (hForms :
      Forms rules
        (fun run =>
          row join (run first) (run second) (run third))
        parser) :
    Forms rules
      (fun run =>
        row (fun left middle right =>
          change (join left middle right))
          (run first) (run second) (run third))
      (.map change parser) := by
  rcases hForms with ⟨levels, shift, hSides⟩
  refine ⟨levels + 1, shift, ?_⟩
  intro depth
  rcases hSides depth with ⟨hLower, hUpper⟩
  have hMap :=
    refines_congruence.cursorCongruence.map change hLower
  have hMap' :=
    refines_congruence.cursorCongruence.map change hUpper
  rw [Action.map_row] at hMap hMap'
  exact ⟨hMap, hMap'⟩

end Parser

end ByteGrammar

------------------------------------------------------------
-- Lookahead and Fallbacks
------------------------------------------------------------

namespace ByteGrammar

namespace Parser

open ByteGrammar.Action

variable (rules : Rules)
variable (first second third : Parser)

theorem forms_followedBy :
    Forms rules
      (fun run =>
        Action.sequence (fun left _ => left) (run first)
          (Action.peek (run second)))
      (followedBy first second) := by
  apply Forms.of_run_eq 1
  intro depth
  exact followedBy_eq_sequence _ (lands_run rules depth first)

theorem forms_skip_peek :
    Forms rules
      (fun run =>
        Action.sequence (fun left _ => left) (run first)
          (Action.peek (run second)))
      (skip first (peek second)) := by
  refine ⟨2, 1, ?_⟩
  intro depth
  have hFirst := run_refines_succ rules depth first
  have hPeek :=
    refines_congruence.cursorCongruence.peek
      Cursor.likeness_eq.outlook
      (run_refines_succ rules depth second)
  constructor
  · exact refines_congruence.cursorCongruence.sequence
      Cursor.likeness_eq.outlook (fun left _ => left)
      hFirst (.refl _)
  · exact refines_congruence.cursorCongruence.sequence
      Cursor.likeness_eq.outlook (fun left _ => left)
      (.refl _) hPeek

theorem forms_absent_absent :
    Forms rules
      (fun run =>
        Action.map (fun _ => .unit)
          (Action.peek (run first)))
      (absent (absent first)) := by
  apply Forms.of_run_eq 2
  intro depth
  exact absent_absent (atomic_run rules depth first)

theorem forms_discard_peek :
    Forms rules
      (fun run =>
        Action.map (fun _ => .unit)
          (Action.peek (run first)))
      (discard (peek first)) :=
  Forms.of_run_eq 2 fun _ => rfl

theorem forms_orDefault
    (fallback : Value) :
    Forms rules
      (fun run =>
        Action.either (run first)
          (scan (.succeed fallback)))
      (orDefault fallback first) := by
  apply Forms.of_run_eq 1
  intro depth
  exact orDefault_eq_either fallback
    (atomic_run rules depth first)

theorem forms_either_succeed
    (fallback : Value) :
    Forms rules
      (fun run =>
        Action.either (run first)
          (scan (.succeed fallback)))
      (either first (succeed fallback)) := by
  refine ⟨2, 1, ?_⟩
  intro depth
  have hFirst := run_refines_succ rules depth first
  constructor
  · exact refines_congruence.cursorCongruence.either hFirst
      (.refl _)
  · exact .refl _

end Parser

end ByteGrammar

------------------------------------------------------------
-- Choices
------------------------------------------------------------

namespace ByteGrammar

namespace Parser

open ByteGrammar.Action

variable (rules : Rules)
variable (first second third : Parser)

theorem forms_either_left :
    Forms rules
      (fun run =>
        Action.either (run first)
          (Action.either (run second) (run third)))
      (either (either first second) third) := by
  refine ⟨2, 1, ?_⟩
  intro depth
  have hRun :
      (either (either first second) third).run rules
          (depth + 2) =
        Action.either (first.run rules depth)
          (Action.either (second.run rules depth)
            (third.run rules (depth + 1))) :=
    either_assoc _ _ _
  have hFirst := run_refines_succ rules depth first
  have hSecond := run_refines_succ rules depth second
  have hThird := run_refines_succ rules depth third
  have hEither := refines_congruence.cursorCongruence.either
    (Refines.refl (second.run rules depth)) hThird
  have hEither' :=
    refines_congruence.cursorCongruence.either hSecond
      (Refines.refl (third.run rules (depth + 1)))
  rw [hRun]
  constructor
  · exact refines_congruence.cursorCongruence.either
      (.refl _) hEither
  · exact refines_congruence.cursorCongruence.either
      hFirst hEither'

theorem forms_either_right :
    Forms rules
      (fun run =>
        Action.either (run first)
          (Action.either (run second) (run third)))
      (either first (either second third)) := by
  refine ⟨2, 1, ?_⟩
  intro depth
  have hFirst := run_refines_succ rules depth first
  have hSecond := run_refines_succ rules depth second
  have hThird := run_refines_succ rules depth third
  have hEither :=
    refines_congruence.cursorCongruence.either hSecond
      hThird
  constructor
  · exact refines_congruence.cursorCongruence.either
      hFirst (.refl _)
  · exact refines_congruence.cursorCongruence.either
      (.refl _) hEither

theorem forms_either_fail :
    Forms rules (fun run => run first)
      (either fail first) := by
  refine ⟨2, 1, ?_⟩
  intro depth
  have hRun :
      (either fail first).run rules (depth + 2) =
        first.run rules (depth + 1) :=
    either_fail _
  rw [hRun]
  exact ⟨run_refines_succ rules depth first, .refl _⟩

/- The alternatives of two choices, one after the other, are
  those of the choice between the two. -/
theorem choice_append_included
    (firsts seconds : List Parser) :
    Included rules (choice (firsts ++ seconds))
        (either (choice firsts) (choice seconds)) ∧
      Included rules
        (either (choice firsts) (choice seconds))
        (choice (firsts ++ seconds)) := by
  induction firsts with
  | nil =>
      have hChoice :
          Forms rules (fun run => run (choice seconds))
            (choice seconds) :=
        Forms.of_run_eq 0 fun _ => rfl
      have hEither := forms_either_fail rules
        (choice seconds)
      exact ⟨hChoice.included hEither,
        hEither.included hChoice⟩
  | cons first firsts ih =>
      rcases ih with ⟨hForth, hBack⟩
      have hLeft := forms_either_left rules first
        (choice firsts) (choice seconds)
      have hRight := forms_either_right rules first
        (choice firsts) (choice seconds)
      constructor
      · exact (hForth.either first).trans
          (hRight.included hLeft)
      · exact (hLeft.included hRight).trans
          (hBack.either first)

end Parser

end ByteGrammar

------------------------------------------------------------
-- Equivalent Forms
------------------------------------------------------------

namespace ByteGrammar

namespace Parser

/-
  The derived forms come to the same as what defines them,
  whatever their parts are: on every state, with one outcome
  and span, one cursor and one context. Pairs may be nested
  either way, if they are nested that way afterwards.
-/
theorem forms_equivalent
    (rules : Rules)
    (first second third : Parser)
    (fallback : Value)
    (firsts seconds : List Parser) :
    Equivalent rules (between first second third)
        (skip (andThen first second) third) ∧
      Equivalent rules (followedBy first second)
        (skip first (peek second)) ∧
      Equivalent rules (absent (absent first))
        (discard (peek first)) ∧
      Equivalent rules (orDefault fallback first)
        (either first (succeed fallback)) ∧
      Equivalent rules (choice (firsts ++ seconds))
        (either (choice firsts) (choice seconds)) ∧
      Equivalent rules (separatedPair first second third)
        (both (skip first second) third) ∧
      Equivalent rules
        (map Value.nestRight
          (both (both first second) third))
        (both first (both second third)) ∧
      Equivalent rules
        (map Value.nestLeft
          (both first (both second third)))
        (both (both first second) third) := by
  have hBetween :=
    (forms_between rules first second third).equivalent
      (forms_row_left rules first second third
        (fun left _ => left) (fun _ right => right))
  have hFollowed :=
    (forms_followedBy rules first second).equivalent
      (forms_skip_peek rules first second)
  have hAbsent :=
    (forms_absent_absent rules first).equivalent
      (forms_discard_peek rules first)
  have hDefault :=
    (forms_orDefault rules first fallback).equivalent
      (forms_either_succeed rules first fallback)
  have hChoice :=
    choice_append_included rules firsts seconds
  have hLeft :=
    forms_row_left rules first second third .pair .pair
  have hRight :=
    forms_row_right rules first second third .pair .pair
  have hSkip :=
    forms_row_left rules first second third .pair
      (fun left _ => left)
  have hPair :=
    (hLeft.map_row rules first second third
      dropMiddle).equivalent hSkip
  have hNestRight :=
    (hLeft.map_row rules first second third
      Value.nestRight).equivalent hRight
  have hNestLeft :=
    (hRight.map_row rules first second third
      Value.nestLeft).equivalent hLeft
  exact ⟨hBetween, hFollowed, hAbsent, hDefault,
    hChoice.1.equivalent hChoice.2, hPair, hNestRight,
    hNestLeft⟩

end Parser

end ByteGrammar
