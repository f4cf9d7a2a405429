import ByteGrammar.Proofs.Operators.Alternatives
import ByteGrammar.Proofs.Operators.Chosen

/-
  What a level of operators matches.

  A level matches an operand and the links of a chain: an
  operator that is chosen where the chain ends, with an
  operand after it. The chain stops where no operator
  matches, where an operator has no operand after it, or
  where the two together consume nothing.

  Main declarations:
    * `Action.ChainPassEnds`, `Action.chainPass_ends`
    * `Operator.Stops`, `Operator.Links`
    * `Operator.links_of_iterate`
    * `Operator.exists_iterate_of_links`
    * `Operator.levels_specified`
-/

------------------------------------------------------------
-- One Pass of a Chain
------------------------------------------------------------

namespace ByteGrammar

namespace Action

variable {combine : Value → Value → Value → Value}
variable {operand operator : Action Match}
variable {taken : Nat × Value}
variable {state middle after : State}
variable {symbol right : Match}
variable {events more : List Event}

theorem chainPass_of_failed
    (hOperator :
      operator state = some ⟨.failed, middle, events⟩) :
    chainPass combine operand operator taken state =
      some ⟨.matched (.done taken), middle, events⟩ := by
  simp [chainPass, Bind.bind, bind, checkpoint, inspect,
    optionally, hOperator, Pure.pure, pure]

theorem chainPass_of_dangling
    (hOperator :
      operator state =
        some ⟨.matched symbol, middle, events⟩)
    (hOperand :
      operand middle = some ⟨.failed, after, more⟩) :
    chainPass combine operand operator taken state =
      some ⟨.matched (.done taken), after.backTo state,
        events ++ more⟩ := by
  simp [chainPass, Bind.bind, bind, checkpoint, inspect,
    optionally, hOperator, hOperand, restore, move,
    Pure.pure, pure, State.backTo]

theorem chainPass_of_still
    (hOperator :
      operator state =
        some ⟨.matched symbol, middle, events⟩)
    (hOperand :
      operand middle = some ⟨.matched right, after, more⟩)
    (hStill : right.stop = taken.1) :
    chainPass combine operand operator taken state =
      some ⟨.matched (.done taken), after.backTo state,
        events ++ more⟩ := by
  simp [chainPass, Bind.bind, bind, checkpoint, inspect,
    optionally, hOperator, hOperand, hStill, restore, move,
    Pure.pure, pure, State.backTo]

theorem chainPass_of_moved
    (hOperator :
      operator state =
        some ⟨.matched symbol, middle, events⟩)
    (hOperand :
      operand middle = some ⟨.matched right, after, more⟩)
    (hMoved : right.stop ≠ taken.1) :
    chainPass combine operand operator taken state =
      some ⟨.matched (.again (right.stop,
          combine taken.2 symbol.value right.value)),
        after, events ++ more⟩ := by
  simp [chainPass, Bind.bind, bind, checkpoint, inspect,
    optionally, hOperator, hOperand, hMoved, Pure.pure,
    pure]

/- The ways in which a pass of a chain can end. -/
inductive ChainPassEnds
    (combine : Value → Value → Value → Value)
    (operand operator : Action Match)
    (taken : Nat × Value)
    (state : State) :
    Step (Pass (Nat × Value) (Nat × Value)) → Prop where
  | noOperator {middle : State} {events : List Event}
      (hOperator :
        operator state = some ⟨.failed, middle, events⟩) :
      ChainPassEnds combine operand operator taken state
        ⟨.matched (.done taken), middle, events⟩
  | noOperand {middle after : State} {symbol : Match}
      {events more : List Event}
      (hOperator :
        operator state =
          some ⟨.matched symbol, middle, events⟩)
      (hOperand :
        operand middle = some ⟨.failed, after, more⟩) :
      ChainPassEnds combine operand operator taken state
        ⟨.matched (.done taken), after.backTo state,
          events ++ more⟩
  | still {middle after : State} {symbol right : Match}
      {events more : List Event}
      (hOperator :
        operator state =
          some ⟨.matched symbol, middle, events⟩)
      (hOperand :
        operand middle =
          some ⟨.matched right, after, more⟩)
      (hStill : right.stop = taken.1) :
      ChainPassEnds combine operand operator taken state
        ⟨.matched (.done taken), after.backTo state,
          events ++ more⟩
  | moved {middle after : State} {symbol right : Match}
      {events more : List Event}
      (hOperator :
        operator state =
          some ⟨.matched symbol, middle, events⟩)
      (hOperand :
        operand middle =
          some ⟨.matched right, after, more⟩)
      (hMoved : right.stop ≠ taken.1) :
      ChainPassEnds combine operand operator taken state
        ⟨.matched (.again (right.stop,
            combine taken.2 symbol.value right.value)),
          after, events ++ more⟩
  | fatal {fault : Fault} {last : State}
      {events : List Event} :
      ChainPassEnds combine operand operator taken state
        ⟨.fatal fault, last, events⟩

/- A pass ends in no other way. -/
theorem chainPass_ends
    {step : Step (Pass (Nat × Value) (Nat × Value))}
    (hStep :
      chainPass combine operand operator taken state =
        some step) :
    ChainPassEnds combine operand operator taken state
      step := by
  cases hOperator : operator state with
  | none =>
      simp [chainPass, Bind.bind, bind, checkpoint, inspect,
        optionally, hOperator] at hStep
  | some first =>
      rcases first with ⟨symbol | _ | fault, middle, events⟩
      · cases hOperand : operand middle with
        | none =>
            simp [chainPass, Bind.bind, bind, checkpoint,
              inspect, optionally, hOperator, hOperand]
              at hStep
        | some second =>
            rcases second with
              ⟨right | _ | fault, after, more⟩
            · by_cases hStill : right.stop = taken.1
              · rw [chainPass_of_still hOperator hOperand
                  hStill] at hStep
                cases hStep
                exact .still hOperator hOperand hStill
              · rw [chainPass_of_moved hOperator hOperand
                  hStill] at hStep
                cases hStep
                exact .moved hOperator hOperand hStill
            · rw [chainPass_of_dangling hOperator hOperand]
                at hStep
              cases hStep
              exact .noOperand hOperator hOperand
            · have hFatal :
                  chainPass combine operand operator taken
                      state =
                    some ⟨.fatal fault, after,
                      events ++ more⟩ := by
                simp [chainPass, Bind.bind, bind,
                  checkpoint, inspect, optionally,
                  hOperator, hOperand]
              rw [hFatal] at hStep
              cases hStep
              exact .fatal
      · rw [chainPass_of_failed hOperator] at hStep
        cases hStep
        exact .noOperator hOperator
      · have hFatal :
            chainPass combine operand operator taken state =
              some ⟨.fatal fault, middle, events⟩ := by
          simp [chainPass, Bind.bind, bind, checkpoint,
            inspect, optionally, hOperator]
        rw [hFatal] at hStep
        cases hStep
        exact .fatal

end Action

end ByteGrammar

------------------------------------------------------------
-- Links
------------------------------------------------------------

namespace ByteGrammar

namespace Operator

open ByteGrammar.Parser

/-
  Why a chain stops where it stands, and the state that it
  leaves: no operator matches; the chosen operator has no
  operand after it, whatever operators come later in the
  list; or the two together consume nothing.
-/
inductive Stops
    (rules : Rules)
    (operand : Parser)
    (operators : List Operator) :
    State → State → Prop where
  | noOperator {state last : State}
      (hOperator :
        Selects rules operators state none last) :
      Stops rules operand operators state last
  | noOperand {state middle after : State}
      {operator : Operator}
      (hOperator :
        Selects rules operators state (some operator) middle)
      (hOperand :
        EndsIn rules operand middle .failed after) :
      Stops rules operand operators state
        (after.backTo state)
  | nothing {state middle after : State}
      {operator : Operator} {right : Match}
      (hOperator :
        Selects rules operators state (some operator) middle)
      (hOperand :
        EndsIn rules operand middle (.matched right) after)
      (hStill :
        after.cursor.position = state.cursor.position) :
      Stops rules operand operators state
        (after.backTo state)

/- The links of a chain, from where it stands to where it
  stops. Each link consumes something. -/
inductive Links
    (rules : Rules)
    (operand : Parser)
    (operators : List Operator) :
    State → List (Operator × Match) → State → Prop where
  | stopped {state last : State}
      (hStops : Stops rules operand operators state last) :
      Links rules operand operators state [] last
  | linked {state middle next last : State}
      {operator : Operator} {right : Match}
      {links : List (Operator × Match)}
      (hOperator :
        Selects rules operators state (some operator) middle)
      (hOperand :
        EndsIn rules operand middle (.matched right) next)
      (hMoved :
        state.cursor.position < next.cursor.position)
      (hRest :
        Links rules operand operators next links last) :
      Links rules operand operators state
        ((operator, right) :: links) last

/- A value with the operands of a chain, combined from the
  left. -/
def combined
    (value : Value)
    (links : List (Operator × Match)) :
    Value :=
  links.foldl
    (fun left link => link.1.combine left link.2.value)
    value

/- Where the last operand of a chain stops. -/
def reach
    (stop : Nat)
    (links : List (Operator × Match)) :
    Nat :=
  links.foldl (fun _ link => link.2.stop) stop

end Operator

end ByteGrammar

------------------------------------------------------------
-- Runs of Chains
------------------------------------------------------------

namespace ByteGrammar

namespace Operator

open ByteGrammar.Parser

variable {rules : Rules}
variable {operand : Parser}
variable {operators : List Operator}
variable {links : List (Operator × Match)}
variable {state last : State}

/- One pass of the chain of a level, down to a depth. -/
def passAt
    (rules : Rules)
    (operand : Parser)
    (operators : List Operator)
    (depth : Nat) :
    Nat × Value → Action (Pass (Nat × Value) (Nat × Value)) :=
  Action.chainPass (combineAt operators)
    (operand.run rules depth)
    ((choice (tagged operators)).run rules depth)

/- Passes of a level, taken one after the other, follow the
  links of its chain. -/
theorem links_of_iterate
    {depth limit : Nat}
    {taken : Nat × Value}
    {outcome : Outcome (Nat × Value)}
    {events : List Event}
    (hInside : state.cursor.Inside)
    (hStands : taken.1 = state.cursor.position)
    (hRun :
      Action.iterate (passAt rules operand operators depth)
          limit taken state =
        some ⟨outcome, last, events⟩)
    (hSettled : ∀ fault, outcome ≠ .fatal fault) :
    ∃ links,
      Links rules operand operators state links last ∧
        outcome =
          .matched
            (reach taken.1 links,
              combined taken.2 links) := by
  induction limit generalizing taken state events with
  | zero => cases hRun
  | succ limit ih =>
      rw [Action.iterate] at hRun
      cases Action.bind_ends hRun with
      | matched hPass hMore =>
          cases Action.chainPass_ends hPass with
          | noOperator hOperator =>
              cases hMore
              have hSelects :=
                endsIn_tagged_failed.mp (.of_run hOperator)
              exact ⟨[], .stopped (.noOperator hSelects),
                rfl⟩
          | noOperand hOperator hOperand =>
              cases hMore
              rcases exists_selects_of_matched
                  (.of_run hOperator) with
                ⟨operator, hSelects, _⟩
              have hStops :=
                Stops.noOperand hSelects (.of_run hOperand)
              exact ⟨[], .stopped hStops, rfl⟩
          | still hOperator hOperand hStill =>
              cases hMore
              rcases exists_selects_of_matched
                  (.of_run hOperator) with
                ⟨operator, hSelects, _⟩
              have hStop :=
                (lands_run rules depth operand _).matched
                  _ _ _ hOperand
              have hStops :=
                Stops.nothing hSelects (.of_run hOperand)
                  (by omega)
              exact ⟨[], .stopped hStops, rfl⟩
          | moved hOperator hOperand hMoved =>
              rcases exists_selects_of_matched
                  (.of_run hOperator) with
                ⟨operator, hSelects, hTells⟩
              have hStop :=
                (lands_run rules depth operand _).matched
                  _ _ _ hOperand
              have hMiddle := hSelects.leads hInside
              have hLeads :=
                hMiddle.trans <|
                  EndsIn.leads hMiddle.last_inside
                    (.of_run hOperand)
              have hForth := hLeads.forth
              rcases ih hLeads.last_inside hStop hMore with
                ⟨links, hLinks, hOutcome⟩
              have hLink :=
                Links.linked hSelects (.of_run hOperand)
                  (by omega) hLinks
              refine ⟨_, hLink, ?_⟩
              rw [hOutcome, hTells]
              rfl
      | failed hPass => cases Action.chainPass_ends hPass
      | fatal hPass => exact absurd rfl (hSettled _)

/- From some depth on, the pass of a chain that stops is the
  last. -/
theorem exists_pass_of_stops
    (hStops : Stops rules operand operators state last) :
    ∃ least, ∀ depth, least ≤ depth →
      ∀ taken : Nat × Value,
        taken.1 = state.cursor.position →
          ∃ events,
            passAt rules operand operators depth taken
                state =
              some ⟨.matched (.done taken), last,
                events⟩ := by
  cases hStops with
  | noOperator hOperator =>
      have hFailed := endsIn_tagged_failed.mpr hOperator
      rcases hFailed.exists_least with
        ⟨least, events, hRun⟩
      refine ⟨least, ?_⟩
      intro depth hDepth taken _
      exact ⟨events,
        Action.chainPass_of_failed (hRun depth hDepth)⟩
  | noOperand hOperator hOperand =>
      rcases exists_matched_of_selects hOperator with
        ⟨symbol, hSymbol, _⟩
      rcases hSymbol.exists_least with ⟨least, events, hRun⟩
      rcases hOperand.exists_least with
        ⟨least', more, hRun'⟩
      refine ⟨max least least', ?_⟩
      intro depth hDepth taken _
      have hMatched := hRun depth (by omega)
      have hFailed := hRun' depth (by omega)
      exact ⟨events ++ more,
        Action.chainPass_of_dangling hMatched hFailed⟩
  | nothing hOperator hOperand hStill =>
      rcases exists_matched_of_selects hOperator with
        ⟨symbol, hSymbol, _⟩
      rcases hSymbol.exists_least with ⟨least, events, hRun⟩
      rcases hOperand.exists_least with
        ⟨least', more, hRun'⟩
      refine ⟨max least least', ?_⟩
      intro depth hDepth taken hStands
      have hMatched := hRun depth (by omega)
      have hMatched' := hRun' depth (by omega)
      have hStop := hOperand.stop_eq
      exact ⟨events ++ more,
        Action.chainPass_of_still hMatched hMatched'
          (by omega)⟩

/- From some depth on, the pass of a link goes on with the
  next. -/
theorem exists_pass_of_link
    {middle next : State}
    {operator : Operator}
    {right : Match}
    (hOperator :
      Selects rules operators state (some operator) middle)
    (hOperand :
      EndsIn rules operand middle (.matched right) next)
    (hMoved :
      state.cursor.position < next.cursor.position) :
    ∃ least, ∀ depth, least ≤ depth →
      ∀ taken : Nat × Value,
        taken.1 = state.cursor.position →
          ∃ events,
            passAt rules operand operators depth taken
                state =
              some ⟨.matched (.again (right.stop,
                  operator.combine taken.2 right.value)),
                next, events⟩ := by
  rcases exists_matched_of_selects hOperator with
    ⟨symbol, hSymbol, hTells⟩
  rcases hSymbol.exists_least with ⟨least, events, hRun⟩
  rcases hOperand.exists_least with ⟨least', more, hRun'⟩
  refine ⟨max least least', ?_⟩
  intro depth hDepth taken hStands
  have hMatched := hRun depth (by omega)
  have hMatched' := hRun' depth (by omega)
  have hStop := hOperand.stop_eq
  refine ⟨events ++ more, ?_⟩
  unfold passAt
  rw [Action.chainPass_of_moved hMatched hMatched'
    (by omega), hTells]

/- From some depth on, a loop follows the links of a chain:
  each consumes something, so they are no more than the
  bytes that remain. -/
theorem exists_iterate_of_links
    (hInside : state.cursor.Inside)
    (hLinks :
      Links rules operand operators state links last) :
    ∃ least, ∀ depth, least ≤ depth →
      ∀ limit, state.cursor.remaining.length < limit →
        ∀ taken : Nat × Value,
          taken.1 = state.cursor.position →
            ∃ events,
              Action.iterate
                  (passAt rules operand operators depth)
                  limit taken state =
                some ⟨.matched
                    (reach taken.1 links,
                      combined taken.2 links),
                  last, events⟩ := by
  induction hLinks with
  | stopped hStops =>
      rcases exists_pass_of_stops hStops with ⟨least, hPass⟩
      refine ⟨least, ?_⟩
      intro depth hDepth limit hLimit taken hStands
      cases limit with
      | zero => cases hLimit
      | succ limit =>
          rcases hPass depth hDepth taken hStands with
            ⟨events, hDone⟩
          exact ⟨events, Action.iterate_of_done limit hDone⟩
  | linked hOperator hOperand hMoved _ ih =>
      have hMiddle := hOperator.leads hInside
      have hLeads :=
        hMiddle.trans (hOperand.leads hMiddle.last_inside)
      have hFewer := hLeads.remaining_lt hMoved
      rcases exists_pass_of_link hOperator hOperand hMoved
        with ⟨least, hPass⟩
      rcases ih hLeads.last_inside with ⟨least', hRest⟩
      refine ⟨max least least', ?_⟩
      intro depth hDepth limit hLimit taken hStands
      cases limit with
      | zero => cases hLimit
      | succ limit =>
          rcases hPass depth (by omega) taken hStands with
            ⟨events, hAgain⟩
          have hStop := hOperand.stop_eq
          rcases hRest depth (by omega) limit (by omega)
              (_, _) hStop with
            ⟨more, hIterate⟩
          refine ⟨events ++ more, ?_⟩
          rw [Action.iterate_of_again limit hAgain,
            hIterate]
          rfl

end Operator

end ByteGrammar

------------------------------------------------------------
-- Levels
------------------------------------------------------------

namespace ByteGrammar

namespace Operator

open ByteGrammar.Parser

variable {rules : Rules}
variable {operand : Parser}
variable {operators : List Operator}
variable {state last : State}

/- What a level does, down to a depth. -/
def levelAt
    (rules : Rules)
    (operand : Parser)
    (operators : List Operator)
    (depth : Nat) :
    Action Match := do
  let first ← operand.run rules depth
  let (stop, value) ←
    Action.loop (passAt rules operand operators depth)
      (first.stop, first.value)
  return ⟨first.start, stop, value⟩

theorem run_level
    (depth : Nat) :
    (leftAssociative operand operators).run rules
        (depth + 1) =
      levelAt rules operand operators depth := by
  rw [run_leftAssociative]
  rfl

/- After the first operand, a level does not fail. -/
theorem unfailing_loop_passAt
    (depth : Nat)
    (taken : Nat × Value) :
    Action.Unfailing
      (Action.loop (passAt rules operand operators depth)
        taken) := by
  apply Action.unfailing_loop
  intro taken state last events hStep
  cases Action.chainPass_ends hStep

/- A level fails where its first operand does. -/
theorem endsIn_level_failed :
    EndsIn rules (leftAssociative operand operators) state
        .failed last ↔
      EndsIn rules operand state .failed last := by
  constructor
  · rintro ⟨events, depth, hRun⟩
    cases depth with
    | zero => cases hRun
    | succ depth =>
        rw [run_level] at hRun
        unfold levelAt at hRun
        cases Action.bind_ends hRun with
        | failed hFirst => exact .of_run hFirst
        | matched _ hRest =>
            cases Action.bind_ends hRest with
            | matched _ hMore => cases hMore
            | failed hLoop =>
                exact absurd hLoop
                  (unfailing_loop_passAt depth _ _ _ _)
  · rintro ⟨events, depth, hRun⟩
    refine ⟨events, depth + 1, ?_⟩
    rw [run_level]
    unfold levelAt
    exact Action.bind_of_failed hRun

/- A level matches its first operand and the links of a
  chain. -/
theorem endsIn_level_matched
    {found : Match}
    (hInside : state.cursor.Inside) :
    EndsIn rules (leftAssociative operand operators) state
        (.matched found) last ↔
      ∃ first middle links,
        EndsIn rules operand state (.matched first) middle ∧
          Links rules operand operators middle links last ∧
            found =
              ⟨first.start, reach first.stop links,
                combined first.value links⟩ := by
  constructor
  · rintro ⟨events, depth, hRun⟩
    cases depth with
    | zero => cases hRun
    | succ depth =>
        rw [run_level] at hRun
        unfold levelAt at hRun
        cases Action.bind_ends hRun with
        | @matched first middle _ _ _ _ hFirst hRest =>
            cases Action.bind_ends hRest with
            | matched hLoop hMore =>
                cases hMore
                have hEnds :
                    EndsIn rules operand state
                      (.matched first) middle :=
                  .of_run hFirst
                have hLeads := hEnds.leads hInside
                rw [Action.loop_eq_iterate] at hLoop
                rcases links_of_iterate hLeads.last_inside
                    hEnds.stop_eq hLoop nofun with
                  ⟨links, hLinks, hResult⟩
                cases hResult
                exact ⟨first, middle, links, hEnds, hLinks,
                  rfl⟩
  · rintro ⟨first, middle, links, hFirst, hLinks, rfl⟩
    have hLeads := hFirst.leads hInside
    rcases hFirst.exists_least with ⟨least, events, hRun⟩
    rcases exists_iterate_of_links hLeads.last_inside hLinks
      with ⟨least', hIterate⟩
    have hMatched := hRun _ (Nat.le_max_left least least')
    rcases hIterate _ (Nat.le_max_right least least') _
        (Nat.lt_succ_self _) (first.stop, first.value)
        hFirst.stop_eq with
      ⟨more, hLoop⟩
    rw [← Action.loop_eq_iterate] at hLoop
    refine ⟨events ++ (more ++ []), max least least' + 1, ?_⟩
    rw [run_level]
    unfold levelAt
    refine (Action.bind_of_matched hMatched).trans ?_
    refine (congrArg _
      (Action.bind_of_matched hLoop)).trans ?_
    rfl

/- A table fails where its base operand does. -/
theorem endsIn_levels_failed
    (levels : List (List Operator)) :
    EndsIn rules (levels.foldl leftAssociative operand)
        state .failed last ↔
      EndsIn rules operand state .failed last := by
  induction levels generalizing operand with
  | nil => rfl
  | cons operators levels ih =>
      rw [List.foldl_cons, ih]
      exact endsIn_level_failed

/-
  What a level matches, from wherever it starts inside the
  buffer. It fails where its first operand does. Otherwise
  it matches the first operand and the links of a chain
  after it, combined from the left, and ends where the last
  operand stops. Each operator is the first of the list that
  matches there. A table of levels fails where its base
  operand does.
-/
theorem levels_specified
    (rules : Rules)
    (operand : Parser)
    (operators : List Operator)
    {state : State}
    (hInside : state.cursor.Inside) :
    (∀ last,
      EndsIn rules (leftAssociative operand operators) state
          .failed last ↔
        EndsIn rules operand state .failed last) ∧
    (∀ found last,
      EndsIn rules (leftAssociative operand operators) state
          (.matched found) last ↔
        ∃ first middle links,
          EndsIn rules operand state (.matched first)
              middle ∧
            Links rules operand operators middle links
                last ∧
              found =
                ⟨first.start, reach first.stop links,
                  combined first.value links⟩) ∧
    (∀ found last,
      EndsIn rules (leftAssociative operand operators) state
          (.matched found) last →
        last.cursor.position = found.stop) ∧
    (∀ chosen last,
      Selects rules operators state chosen last →
        IsFirst rules operators state chosen) ∧
    (∀ levels table,
      precedence operand levels = .ok table →
        ∀ last,
          EndsIn rules table state .failed last ↔
            EndsIn rules operand state .failed last) := by
  refine ⟨?_, ?_, ?_, ?_, ?_⟩
  · intro last
    exact endsIn_level_failed
  · intro found last
    exact endsIn_level_matched hInside
  · intro found last hEnds
    exact hEnds.stop_eq.symm
  · intro chosen last hSelects
    exact hSelects.isFirst hInside
  · intro levels table hTable last
    cases levels with
    | nil => cases hTable
    | cons operators levels =>
        cases hTable
        exact endsIn_levels_failed (operators :: levels)

/- A difference before an operator without an operand, which
  is given back. -/
theorem levels_specified_dangling :
    let operand : Parser := .digit
    let minus : Operator := ⟨.byte 0x2D, .bin "-"⟩
    let state : State :=
      ⟨.ofBytes [0x37, 0x2D, 0x32, 0x2D], .fresh .standard⟩
    state.cursor.Inside ∧
      ∃ first middle links last,
        EndsIn .empty operand state (.matched first)
            middle ∧
          Links .empty operand [minus] middle links last ∧
          combined first.value links =
            .bin "-" (.byte 0x37) (.byte 0x32) ∧
          last.cursor.position = 3 := by
  intro operand minus state
  have hInside : state.cursor.Inside := Nat.zero_le _
  have hSpecified :=
    levels_specified .empty operand [minus] hInside
  have hRun :
      (leftAssociative operand [minus]).run .empty 5 state =
        some ⟨.matched
            ⟨0, 3, .bin "-" (.byte 0x37) (.byte 0x32)⟩,
          ⟨⟨[0x37, 0x2D, 0x32, 0x2D], 3, .origin, 4⟩,
            .fresh .standard⟩, []⟩ := rfl
  rcases (hSpecified.2.1 _ _).mp (.of_run hRun) with
    ⟨first, middle, links, hFirst, hLinks, hFound⟩
  have hValue := congrArg Match.value hFound
  exact ⟨hInside, first, middle, links, _, hFirst, hLinks,
    hValue.symm, rfl⟩

end Operator

end ByteGrammar
