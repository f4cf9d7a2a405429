import ByteGrammar.Proofs.Context.Frame
import ByteGrammar.Proofs.Cursor.Landing
import ByteGrammar.Proofs.Engine.Simulation
import ByteGrammar.Proofs.Termination.Parses

/-
  Parsers that come to the same.

  Two parsers are equivalent if each comes to whatever the
  other comes to, on every state, perhaps to another depth.
  With loop detection, their parses are then equal.

  Main declarations:
    * `Parser.Yields`, `Parser.Yields.parse_eq`
    * `Parser.EndsIn`, `Parser.EndsIn.unique`
    * `Parser.Equivalent`
    * `Parser.Included`, `Parser.Included.equivalent`
    * `Parser.Forms`, `Parser.Forms.equivalent`
-/

------------------------------------------------------------
-- What a Parser Yields
------------------------------------------------------------

namespace ByteGrammar

namespace Parser

variable {rules : Rules} {parser : Parser}
variable {state : State} {step other : Step Match}

/- What a parser comes to, given enough depth. -/
def Yields
    (rules : Rules)
    (parser : Parser)
    (state : State)
    (step : Step Match) :
    Prop :=
  ∃ depth, parser.run rules depth state = some step

/- A parser comes to one thing only. -/
theorem Yields.unique
    (hStep : Yields rules parser state step)
    (hOther : Yields rules parser state other) :
    step = other := by
  rcases hStep with ⟨depth, hRun⟩
  rcases hOther with ⟨depth', hRun'⟩
  have hDeep :=
    run_refines (Nat.le_max_left depth depth') parser
      state step hRun
  have hDeep' :=
    run_refines (Nat.le_max_right depth depth') parser
      state other hRun'
  rw [hDeep] at hDeep'
  exact Option.some.inj hDeep'

/- With loop detection, a parse finds what there is to
  find. -/
theorem Yields.parse_eq
    (hDetects : state.context.options.loopDetection = true)
    (hInside : state.cursor.Inside)
    (hYields : Yields rules parser state step) :
    parser.parse rules state = some step := by
  rcases hYields with ⟨depth, hRun⟩
  exact parse_eq_of_run hDetects hInside hRun

/- With loop detection, there is something to find. -/
theorem exists_yields
    (rules : Rules)
    (parser : Parser)
    (hDetects : state.context.options.loopDetection = true)
    (hInside : state.cursor.Inside) :
    ∃ step, Yields rules parser state step := by
  have hSettles :
      Action.Settles state
        (parser.run rules (depth rules parser state)) :=
    settles_run hDetects (budget_lt_depth hDetects)
  rcases hSettles state (.refl hInside) with ⟨step, hRun, _⟩
  exact ⟨step, _, hRun⟩

/- The outcome and the state that a parser comes to. -/
def EndsIn
    (rules : Rules)
    (parser : Parser)
    (state : State)
    (outcome : Outcome Match)
    (last : State) :
    Prop :=
  ∃ events, Yields rules parser state ⟨outcome, last, events⟩

namespace EndsIn

variable {outcome : Outcome Match}
variable {last : State}

theorem of_run
    {depth : Nat}
    {events : List Event}
    (hRun :
      parser.run rules depth state =
        some ⟨outcome, last, events⟩) :
    EndsIn rules parser state outcome last :=
  ⟨events, depth, hRun⟩

/- From some depth on, a parser ends the same way. -/
theorem exists_least
    (hEnds : EndsIn rules parser state outcome last) :
    ∃ least events, ∀ depth, least ≤ depth →
      parser.run rules depth state =
        some ⟨outcome, last, events⟩ := by
  rcases hEnds with ⟨events, least, hRun⟩
  refine ⟨least, events, ?_⟩
  intro depth hDepth
  exact run_refines hDepth parser state _ hRun

/- A parser ends in one way only. -/
theorem unique
    {outcome' : Outcome Match}
    {last' : State}
    (hEnds : EndsIn rules parser state outcome last)
    (hOther : EndsIn rules parser state outcome' last') :
    outcome = outcome' ∧ last = last' := by
  rcases hEnds with ⟨events, hYields⟩
  rcases hOther with ⟨events', hYields'⟩
  cases hYields.unique hYields'
  exact ⟨rfl, rfl⟩

/- A parser goes on from where it starts. -/
theorem leads
    (hInside : state.cursor.Inside)
    (hEnds : EndsIn rules parser state outcome last) :
    state.cursor.Leads last.cursor := by
  rcases hEnds with ⟨events, depth, hRun⟩
  have hLeads :=
    (tracks_run_self rules depth parser state hInside).leads
      _ hRun
  exact hLeads

/- A match spans what was consumed, or its end. -/
theorem spans
    {found : Match}
    (hInside : state.cursor.Inside)
    (hEnds :
      EndsIn rules parser state (.matched found) last) :
    found.Spans state.cursor last.cursor := by
  rcases hEnds with ⟨events, depth, hRun⟩
  have hSpans :=
    (tracks_run_self rules depth parser state
      hInside).matched _ _ _ hRun
  exact hSpans

/- A match stops where the cursor then stands. -/
theorem stop_eq
    {found : Match}
    (hEnds :
      EndsIn rules parser state (.matched found) last) :
    found.stop = last.cursor.position := by
  rcases hEnds with ⟨events, depth, hRun⟩
  exact (lands_run rules depth parser state).matched _ _ _
    hRun

/- A failure leaves the cursor in its place. -/
theorem checkpoint_eq
    (hEnds : EndsIn rules parser state .failed last) :
    last.cursor.checkpoint = state.cursor.checkpoint := by
  rcases hEnds with ⟨events, depth, hRun⟩
  exact atomic_run rules depth parser state last events hRun

/- The context is restored. -/
theorem context_eq
    (hEnds : EndsIn rules parser state outcome last) :
    last.context = state.context := by
  rcases hEnds with ⟨events, depth, hRun⟩
  have hContext :=
    keepsContext_run rules depth parser state _ hRun
  exact hContext

/- What a parser comes to depends on its place only. -/
theorem of_samePlace
    {state' : State}
    (hPlace : state.cursor.SamePlace state'.cursor)
    (hContext : state.context = state'.context)
    (hEnds : EndsIn rules parser state outcome last) :
    ∃ last', EndsIn rules parser state' outcome last' := by
  rcases state with ⟨cursor, context⟩
  rcases state' with ⟨cursor', context'⟩
  cases hContext
  rcases hEnds with ⟨events, depth, hRun⟩
  rcases run_of_samePlace hPlace hRun with
    ⟨last', hRun', _⟩
  exact ⟨last', .of_run hRun'⟩

end EndsIn

end Parser

end ByteGrammar

------------------------------------------------------------
-- Equivalent Parsers
------------------------------------------------------------

namespace ByteGrammar

namespace Parser

/-
  Two parsers come to the same on every state or else to
  nothing alike: one outcome, one cursor, one context and
  the same events. With loop detection, so do their parses.
-/
structure Equivalent
    (rules : Rules)
    (parser parser' : Parser) :
    Prop where
  yields : ∀ state step,
    Yields rules parser state step ↔
      Yields rules parser' state step
  parse : ∀ state,
    state.context.options.loopDetection = true →
      state.cursor.Inside →
        parser.parse rules state = parser'.parse rules state

end Parser

end ByteGrammar

------------------------------------------------------------
-- Inclusion
------------------------------------------------------------

namespace ByteGrammar

namespace Action

theorem Refines.refl
    {α : Type}
    (action : Action α) :
    Refines action action :=
  fun _ _ hStep => hStep

theorem Refines.trans
    {α : Type}
    {small middle large : Action α}
    (hSmall : Refines small middle)
    (hLarge : Refines middle large) :
    Refines small large := by
  intro state step hStep
  exact hLarge state step (hSmall state step hStep)

end Action

namespace Parser

open ByteGrammar.Action

/- To whatever depth the first parser is run, some depth of
  the second comes to the same. -/
def Included
    (rules : Rules)
    (parser parser' : Parser) :
    Prop :=
  ∀ depth, ∃ more,
    Refines (parser.run rules depth)
      (parser'.run rules more)

namespace Included

variable {rules : Rules}
variable {parser parser' parser'' : Parser}

theorem trans
    (hFirst : Included rules parser parser')
    (hMore : Included rules parser' parser'') :
    Included rules parser parser'' := by
  intro depth
  rcases hFirst depth with ⟨middle, hMiddle⟩
  rcases hMore middle with ⟨last, hLast⟩
  exact ⟨last, hMiddle.trans hLast⟩

/- The second alternative may be exchanged for one that
  includes it. -/
theorem either
    (first : Parser)
    (hSecond : Included rules parser parser') :
    Included rules (.either first parser)
      (.either first parser') := by
  intro depth
  cases depth with
  | zero =>
      refine ⟨0, ?_⟩
      intro state step hStep
      cases hStep
  | succ depth =>
      rcases hSecond depth with ⟨more, hMore⟩
      refine ⟨max depth more + 1, ?_⟩
      have hFirst :
          Refines (first.run rules depth)
            (first.run rules (max depth more)) :=
        run_refines (Nat.le_max_left depth more) first
      have hDeep :
          Refines (parser'.run rules more)
            (parser'.run rules (max depth more)) :=
        run_refines (Nat.le_max_right depth more) parser'
      exact refines_congruence.cursorCongruence.either hFirst
        (hMore.trans hDeep)

/- Whatever the first parser yields, the second does. -/
theorem yields
    {state : State}
    {step : Step Match}
    (hIncluded : Included rules parser parser')
    (hYields : Yields rules parser state step) :
    Yields rules parser' state step := by
  rcases hYields with ⟨depth, hRun⟩
  rcases hIncluded depth with ⟨more, hMore⟩
  exact ⟨more, hMore _ _ hRun⟩

/- Parsers that include each other are equivalent. -/
theorem equivalent
    (hForth : Included rules parser parser')
    (hBack : Included rules parser' parser) :
    Equivalent rules parser parser' where
  yields := by
    intro state step
    exact ⟨hForth.yields, hBack.yields⟩
  parse := by
    intro state hDetects hInside
    cases hParse : parser.parse rules state with
    | some step =>
        have hYields := hForth.yields ⟨_, hParse⟩
        exact (hYields.parse_eq hDetects hInside).symm
    | none =>
        cases hParse' : parser'.parse rules state with
        | none => rfl
        | some step =>
            have hYields := hBack.yields ⟨_, hParse'⟩
            rw [hYields.parse_eq hDetects hInside] at hParse
            cases hParse

end Included

end Parser

end ByteGrammar

------------------------------------------------------------
-- What a Parser Makes of Its Parts
------------------------------------------------------------

namespace ByteGrammar

namespace Parser

open ByteGrammar.Action

variable {rules : Rules} {parser parser' : Parser}
variable {form : (Parser → Action Match) → Action Match}

/-
  The parser does with its parts what `form` does. The parts
  may lie at several levels, so a parser some levels deeper
  than all its parts is held against `form` with the parts
  at the least depth and at the greatest.
-/
def Forms
    (rules : Rules)
    (form : (Parser → Action Match) → Action Match)
    (parser : Parser) :
    Prop :=
  ∃ levels shift, ∀ depth,
    Refines (form fun part => part.run rules depth)
        (parser.run rules (depth + levels)) ∧
      Refines (parser.run rules (depth + levels))
        (form fun part => part.run rules (depth + shift))

/- All parts may lie at one level. -/
theorem Forms.of_run_eq
    (levels : Nat)
    (hRun : ∀ depth,
      parser.run rules (depth + levels) =
        form fun part => part.run rules depth) :
    Forms rules form parser := by
  refine ⟨levels, 0, ?_⟩
  intro depth
  rw [hRun depth]
  exact ⟨.refl _, .refl _⟩

/- What is made of the same parts in the same way comes to
  the same. -/
theorem Forms.included
    (hForms : Forms rules form parser)
    (hForms' : Forms rules form parser') :
    Included rules parser parser' := by
  rcases hForms with ⟨levels, shift, hUpper⟩
  rcases hForms' with ⟨levels', _, hLower⟩
  intro depth
  refine ⟨depth + shift + levels', ?_⟩
  have hDeep :
      Refines (parser.run rules depth)
        (parser.run rules (depth + levels)) :=
    run_refines (Nat.le_add_right depth levels) parser
  have hForm := (hUpper depth).2
  have hForm' := (hLower (depth + shift)).1
  exact (hDeep.trans hForm).trans hForm'

theorem Forms.equivalent
    (hForms : Forms rules form parser)
    (hForms' : Forms rules form parser') :
    Equivalent rules parser parser' :=
  (hForms.included hForms').equivalent
    (hForms'.included hForms)

end Parser

end ByteGrammar
