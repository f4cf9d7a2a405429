import ByteGrammar.Proofs.Repetition.Elements

/-
  Exact repetitions and sequences of as many parsers.

  A sequence calls its parser a number of times, whatever
  the calls consume. A repetition of that number ceases
  after an element of nothing, so the two part where such
  an element is not the last.

  Main declarations:
    * `Parser.endsIn_sequence_matched`,
      `Parser.endsIn_sequence_unmatched`
    * `Grouping`, `Grouping.sequence`, `Grouping.values`
    * `Grouping.endsIn_matched`, `Grouping.endsIn_unmatched`
    * `Parser.Stuck`, `Parser.exists_stuck_of_not_advance`
    * `Grouping.exact_repetitions_and_sequences`
-/

------------------------------------------------------------
-- Sequences
------------------------------------------------------------

namespace ByteGrammar

namespace Parser

open ByteGrammar.Action

variable {rules : Rules}
variable {join : Value → Value → Value}
variable {first second : Parser}
variable {state last : State}

/- A sequence matches one parser after the other. -/
theorem endsIn_sequence_matched
    {found : Match} :
    EndsIn rules (.sequence join first second) state
        (.matched found) last ↔
      ∃ left middle right,
        EndsIn rules first state (.matched left) middle ∧
          EndsIn rules second middle (.matched right)
            last ∧
          found =
            ⟨left.start, right.stop,
              join left.value right.value⟩ := by
  constructor
  · rintro ⟨events, depth, hRun⟩
    cases depth with
    | zero => cases hRun
    | succ depth =>
        have hSequence :
            Action.sequence join (first.run rules depth)
                (second.run rules depth) state =
              some ⟨.matched found, last, events⟩ := hRun
        cases bindReverting_ends hSequence with
        | matched hLeft hRest =>
            cases bind_ends hRest with
            | matched hRight hMore =>
                cases hMore
                exact ⟨_, _, _, .of_run hLeft,
                  .of_run hRight, rfl⟩
  · rintro ⟨left, middle, right, hLeft, hRight, rfl⟩
    rcases hLeft.exists_least with ⟨least, events, hRun⟩
    rcases hRight.exists_least with ⟨least', more, hRun'⟩
    have hFirst := hRun _ (Nat.le_max_left least least')
    have hSecond := hRun' _ (Nat.le_max_right least least')
    exact ⟨_, max least least' + 1,
      bindReverting_of_next_matched hFirst
        (bind_of_next hSecond rfl)⟩

/- What keeps a sequence from a match is what keeps one of
  its parsers from it. -/
theorem endsIn_sequence_unmatched
    {outcome : Outcome Match}
    (hUnmatched : ∀ found, outcome ≠ .matched found) :
    (∃ last, EndsIn rules (.sequence join first second)
        state outcome last) ↔
      (∃ last, EndsIn rules first state outcome last) ∨
        ∃ left middle last,
          EndsIn rules first state (.matched left) middle ∧
            EndsIn rules second middle outcome last := by
  constructor
  · rintro ⟨last, events, depth, hRun⟩
    cases depth with
    | zero => cases hRun
    | succ depth =>
        have hSequence :
            Action.sequence join (first.run rules depth)
                (second.run rules depth) state =
              some ⟨outcome, last, events⟩ := hRun
        cases bindReverting_ends hSequence with
        | matched => exact absurd rfl (hUnmatched _)
        | failed hLeft => exact .inl ⟨_, .of_run hLeft⟩
        | fatal hLeft => exact .inl ⟨_, .of_run hLeft⟩
        | reverted hLeft hRest =>
            cases bind_ends hRest with
            | matched _ hMore => cases hMore
            | failed hRight =>
                exact .inr ⟨_, _, _, .of_run hLeft,
                  .of_run hRight⟩
        | nextFatal hLeft hRest =>
            cases bind_ends hRest with
            | matched _ hMore => cases hMore
            | fatal hRight =>
                exact .inr ⟨_, _, _, .of_run hLeft,
                  .of_run hRight⟩
  · rintro (⟨last, events, depth, hRun⟩ |
      ⟨left, middle, last, hLeft, hRight⟩)
    · cases outcome with
      | matched found => exact absurd rfl (hUnmatched found)
      | failed =>
          exact ⟨_, _, depth + 1,
            bindReverting_of_failed hRun⟩
      | fatal fault =>
          exact ⟨_, _, depth + 1,
            bindReverting_of_fatal hRun⟩
    · rcases hLeft.exists_least with ⟨least, events, hRun⟩
      rcases hRight.exists_least with
        ⟨least', more, hRun'⟩
      have hFirst := hRun _ (Nat.le_max_left least least')
      have hSecond :=
        hRun' _ (Nat.le_max_right least least')
      cases outcome with
      | matched found => exact absurd rfl (hUnmatched found)
      | failed =>
          exact ⟨_, _, max least least' + 1,
            bindReverting_of_next_failed hFirst
              (bind_of_failed hSecond)⟩
      | fatal fault =>
          exact ⟨_, _, max least least' + 1,
            bindReverting_of_next_fatal hFirst
              (bind_of_fatal hSecond)⟩

end Parser

end ByteGrammar

------------------------------------------------------------
-- Groupings
------------------------------------------------------------

namespace ByteGrammar

/- The ways to group a row of calls in pairs. -/
inductive Grouping where
  | one
  | both (left right : Grouping)

namespace Grouping

open ByteGrammar.Parser

/- The number of calls. -/
def count :
    Grouping → Nat
  | one => 1
  | both left right => left.count + right.count

/- The parser as often in sequence, grouped in pairs. -/
def sequence
    (parser : Parser) :
    Grouping → Parser
  | one => parser
  | both left right =>
      Parser.both (left.sequence parser)
        (right.sequence parser)

/- The values of the calls, out of the pairs. -/
def values :
    Grouping → Value → List Value
  | one, value => [value]
  | both left right, .pair first second =>
      left.values first ++ right.values second
  | both _ _, _ => []

theorem count_pos
    (grouping : Grouping) :
    0 < grouping.count := by
  induction grouping with
  | one => exact Nat.zero_lt_one
  | both left right hLeft _ =>
      exact Nat.add_pos_left hLeft right.count

variable {rules : Rules} {parser : Parser}
variable {grouping : Grouping}
variable {state last : State}

/- What a sequence matches, its parser matched in turn. -/
theorem exists_inTurn_of_endsIn
    {found : Match}
    (hEnds :
      EndsIn rules (grouping.sequence parser) state
        (.matched found) last) :
    ∃ elements,
      InTurn rules parser state elements last ∧
        elements.length = grouping.count ∧
        grouping.values found.value =
          elements.map Match.value := by
  induction grouping generalizing state last found with
  | one => exact ⟨[found], .first hEnds .none, rfl, rfl⟩
  | both left right ihLeft ihRight =>
      rcases endsIn_sequence_matched.mp hEnds with
        ⟨first, middle, second, hFirst, hSecond, rfl⟩
      rcases ihLeft hFirst with
        ⟨elements, hTurn, hLength, hValues⟩
      rcases ihRight hSecond with
        ⟨more, hTurn', hLength', hValues'⟩
      refine ⟨elements ++ more, hTurn.append hTurn', ?_, ?_⟩
      · rw [List.length_append, hLength, hLength']
        rfl
      · rw [List.map_append, ← hValues, ← hValues']
        rfl

/- What a parser matches in turn as often as a sequence
  calls it, the sequence matches. -/
theorem exists_endsIn_of_inTurn
    {elements : List Match}
    (hTurn : InTurn rules parser state elements last)
    (hLength : elements.length = grouping.count) :
    ∃ found,
      EndsIn rules (grouping.sequence parser) state
          (.matched found) last ∧
        grouping.values found.value =
          elements.map Match.value := by
  induction grouping generalizing state last elements with
  | one =>
      rcases List.length_eq_one_iff.mp hLength with
        ⟨element, rfl⟩
      cases hTurn with
      | first hElement hRest =>
          cases hRest
          exact ⟨element, hElement, rfl⟩
  | both left right ihLeft ihRight =>
      rw [count] at hLength
      rcases hTurn.exists_cut_at left.count with
        ⟨middle, hBefore, hAfter⟩
      have hTake :
          (elements.take left.count).length = left.count :=
        List.length_take_of_le (by omega)
      have hDrop :
          (elements.drop left.count).length =
            right.count := by
        rw [List.length_drop]
        omega
      rcases ihLeft hBefore hTake with
        ⟨first, hFirst, hValues⟩
      rcases ihRight hAfter hDrop with
        ⟨second, hSecond, hValues'⟩
      refine ⟨_, endsIn_sequence_matched.mpr
        ⟨first, middle, second, hFirst, hSecond, rfl⟩, ?_⟩
      rw [← List.take_append_drop left.count elements,
        List.map_append, ← hValues, ← hValues']
      rfl

/- A sequence comes to no match where one of its calls,
  before there are enough, comes to none. -/
theorem endsIn_unmatched
    {outcome : Outcome Match}
    (hUnmatched : ∀ found, outcome ≠ .matched found) :
    (∃ last, EndsIn rules (grouping.sequence parser) state
        outcome last) ↔
      ∃ elements here next,
        InTurn rules parser state elements here ∧
          elements.length < grouping.count ∧
          EndsIn rules parser here outcome next := by
  induction grouping generalizing state with
  | one =>
      constructor
      · rintro ⟨last, hEnds⟩
        exact ⟨[], state, last, .none, Nat.zero_lt_one,
          hEnds⟩
      · rintro ⟨elements, here, next, hTurn, hFewer, hEnds⟩
        rw [List.length_eq_zero_iff.mp
          (Nat.lt_one_iff.mp hFewer)] at hTurn
        cases hTurn
        exact ⟨next, hEnds⟩
  | both left right ihLeft ihRight =>
      refine (endsIn_sequence_unmatched hUnmatched).trans ?_
      rw [ihLeft]
      constructor
      · rintro (⟨elements, here, next, hTurn, hFewer, hEnds⟩ |
          ⟨first, middle, last, hFirst, hSecond⟩)
        · exact ⟨elements, here, next, hTurn,
            Nat.lt_add_right right.count hFewer, hEnds⟩
        · rcases exists_inTurn_of_endsIn hFirst with
            ⟨before, hBefore, hLength, _⟩
          rcases ihRight.mp ⟨last, hSecond⟩ with
            ⟨elements, here, next, hTurn, hFewer, hEnds⟩
          refine ⟨before ++ elements, here, next,
            hBefore.append hTurn, ?_, hEnds⟩
          rw [List.length_append, count]
          omega
      · -- The call is one of the left part, or else the left
        -- part matches and the call is one of the right.
        rintro ⟨elements, here, next, hTurn, hFewer, hEnds⟩
        rw [count] at hFewer
        by_cases hLeft : elements.length < left.count
        · exact .inl
            ⟨elements, here, next, hTurn, hLeft, hEnds⟩
        · rcases hTurn.exists_cut_at left.count with
            ⟨middle, hBefore, hAfter⟩
          have hTake :
              (elements.take left.count).length =
                left.count :=
            List.length_take_of_le (by omega)
          have hDrop :
              (elements.drop left.count).length <
                right.count := by
            rw [List.length_drop]
            omega
          rcases exists_endsIn_of_inTurn hBefore hTake with
            ⟨first, hFirst, _⟩
          rcases ihRight.mpr
              ⟨_, here, next, hAfter, hDrop, hEnds⟩ with
            ⟨last, hSecond⟩
          exact .inr ⟨first, middle, last, hFirst, hSecond⟩

end Grouping

end ByteGrammar

------------------------------------------------------------
-- Elements of Nothing
------------------------------------------------------------

namespace ByteGrammar

namespace Parser

variable {rules : Rules} {parser : Parser}
variable {element : Match} {elements : List Match}
variable {state next last : State}

/- The parser matches nothing where it stands. -/
structure Stuck
    (rules : Rules)
    (parser : Parser)
    (element : Match)
    (state : State) :
    Prop where
  inside : state.cursor.Inside
  still : ∃ next,
    EndsIn rules parser state (.matched element) next ∧
      next.cursor.position = state.cursor.position

namespace Stuck

/- What has matched nothing does so again: what it comes to
  depends on its place only. -/
theorem again
    (hInside : state.cursor.Inside)
    (hElement :
      EndsIn rules parser state (.matched element) next)
    (hStill :
      next.cursor.position = state.cursor.position) :
    Stuck rules parser element next where
  inside := (hElement.leads hInside).last_inside
  still := by
    have hPlace : state.cursor.SamePlace next.cursor :=
      ⟨(hElement.leads hInside).data.symm, hStill.symm⟩
    rcases hElement.of_samePlace hPlace
        hElement.context_eq.symm with
      ⟨after, hAgain⟩
    have hStop := hElement.stop_eq
    have hStop' := hAgain.stop_eq
    exact ⟨after, hAgain, by omega⟩

/- Whatever else it matches in turn, it matches nothing. -/
theorem inTurn
    (hStuck : Stuck rules parser element state)
    (hTurn : InTurn rules parser state elements last) :
    Stuck rules parser element last := by
  induction hTurn with
  | none => exact hStuck
  | first hElement _ ih =>
      rcases hStuck.still with ⟨after, hSame, hStill⟩
      rcases hElement.unique hSame with ⟨hMatched, rfl⟩
      exact ih (again hStuck.inside hSame hStill)

/- It matches nothing as often as one likes. -/
theorem exists_inTurn
    (hStuck : Stuck rules parser element state)
    (count : Nat) :
    ∃ elements last,
      InTurn rules parser state elements last ∧
        elements.length = count := by
  induction count generalizing state with
  | zero => exact ⟨[], state, .none, rfl⟩
  | succ count ih =>
      rcases hStuck.still with ⟨next, hElement, hStill⟩
      rcases ih (again hStuck.inside hElement hStill) with
        ⟨rest, last, hRest, hLength⟩
      exact ⟨element :: rest, last, .first hElement hRest,
        congrArg (· + 1) hLength⟩

end Stuck

/- Among elements that do not advance, one is the first of
  nothing. -/
theorem exists_stuck_of_not_advance
    (hInside : state.cursor.Inside)
    (hTurn : InTurn rules parser state elements last)
    (hStays :
      ¬ Match.Advance state.cursor.position elements) :
    ∃ taken element more here next,
      elements = taken ++ element :: more ∧
        InTurn rules parser state taken here ∧
        Match.Advance state.cursor.position taken ∧
        EndsIn rules parser here (.matched element) next ∧
        next.cursor.position = here.cursor.position ∧
        InTurn rules parser next more last := by
  induction hTurn with
  | none => exact absurd (Match.advance_nil _) hStays
  | @first state middle last element rest hElement hRest ih =>
      have hLeads := hElement.leads hInside
      have hForth := hLeads.forth
      have hStop := hElement.stop_eq
      by_cases hMoved :
          state.cursor.position < middle.cursor.position
      · have hStays' :
            ¬ Match.Advance middle.cursor.position rest := by
          intro hAdvance
          apply hStays
          rw [Match.advance_cons, hStop]
          exact ⟨hMoved, hAdvance⟩
        rcases ih hLeads.last_inside hStays' with
          ⟨taken, still, more, here, next, rfl, hTaken,
            hAdvance, hStill⟩
        refine ⟨element :: taken, still, more, here, next,
          rfl, .first hElement hTaken, ?_, hStill⟩
        rw [Match.advance_cons, hStop]
        exact ⟨hMoved, hAdvance⟩
      · exact ⟨[], element, rest, state, middle, rfl, .none,
          Match.advance_nil _, hElement, by omega, hRest⟩

/- Before a call that comes to no match, all elements
  advance: after one of nothing, all calls match. -/
theorem InTurn.advance_of_unmatched
    {outcome : Outcome Match}
    (hInside : state.cursor.Inside)
    (hTurn : InTurn rules parser state elements last)
    (hEnds : EndsIn rules parser last outcome next)
    (hUnmatched : ∀ found, outcome ≠ .matched found) :
    Match.Advance state.cursor.position elements := by
  by_contra hStays
  rcases exists_stuck_of_not_advance hInside hTurn hStays
    with
    ⟨taken, element, more, here, after, rfl, hTaken, _,
      hElement, hStill, hMore⟩
  have hHere := (hTaken.leads hInside).last_inside
  have hStuck := Stuck.again hHere hElement hStill
  rcases (hStuck.inTurn hMore).still with ⟨_, hAgain, _⟩
  exact hUnmatched element (hEnds.unique hAgain).1

end Parser

end ByteGrammar

------------------------------------------------------------
-- Exact Repetitions
------------------------------------------------------------

namespace ByteGrammar

namespace Parser

variable {rules : Rules} {parser : Parser}
variable {times : Nat}
variable {state here last : State}
variable {elements : List Match}

theorem gathered_of_advance
    (hTurn : InTurn rules parser state elements here)
    (hAdvance :
      Match.Advance state.cursor.position elements)
    (hLength : elements.length ≤ times) :
    Gathered rules parser (some times) state elements
      here where
  turn := hTurn
  advance := hAdvance
  room := by
    rintro _ ⟨⟩
    exact hLength

theorem open_of_fewer
    (hFewer : elements.length < times) :
    some times ≠ some elements.length := by
  rintro ⟨⟩
  exact Nat.lt_irrefl _ hFewer

/- As many elements as are asked for are collected if they
  are matched in turn and advance up to the last. -/
theorem collects_exact_iff
    (hTimes : 0 < times)
    (hInside : state.cursor.Inside) :
    Collects rules parser (some times) state
          (.matched elements) last ∧
        times ≤ elements.length ↔
      InTurn rules parser state elements last ∧
        elements.length = times ∧
        Match.Advance state.cursor.position
          elements.dropLast := by
  constructor
  · rintro ⟨hCollects, hEnough⟩
    have hLength :=
      hCollects.length_le_max times rfl
    have hAdvance := hCollects.advance_dropLast
    refine ⟨?_, by omega, hAdvance⟩
    rcases hCollects with
      ⟨taken, here, hGathered, hCeases⟩
    cases hCeases with
    | enough => exact hGathered.turn
    | failed hOpen =>
        have hSame : times = elements.length := by omega
        exact absurd (congrArg some hSame) hOpen
    | nothing _ hElement =>
        exact hGathered.turn.concat hElement
  · rintro ⟨hTurn, hLength, hAdvance⟩
    refine ⟨?_, by omega⟩
    cases elements using List.reverseRecOn with
    | nil =>
        rw [List.length_nil] at hLength
        omega
    | append_singleton taken element =>
        rw [List.dropLast_concat] at hAdvance
        rw [List.length_append, List.length_singleton]
          at hLength
        rcases hTurn.exists_cut with ⟨here, hTaken, hLast⟩
        cases hLast with
        | first hElement hRest =>
            cases hRest
            have hFewer : taken.length < times := by omega
            have hGathered :=
              gathered_of_advance hTaken hAdvance
                (Nat.le_of_lt hFewer)
            have hOpen := open_of_fewer hFewer
            have hHere :=
              (hTaken.leads hInside).last_inside
            have hForth := (hElement.leads hHere).forth
            by_cases hStill :
                last.cursor.position = here.cursor.position
            · exact ⟨taken, here, hGathered,
                .nothing hOpen hElement hStill⟩
            · refine ⟨taken ++ [element], last,
                hGathered.concat hOpen hElement (by omega),
                .enough ?_⟩
              rw [List.length_append, List.length_singleton,
                hLength]

/- A call that comes to no match, before there are enough,
  is what a repetition comes to. -/
theorem exists_endsIn_of_unmatched
    {outcome : Outcome Match}
    (hInside : state.cursor.Inside)
    (hTurn : InTurn rules parser state elements here)
    (hFewer : elements.length < times)
    (hEnds : EndsIn rules parser here outcome last)
    (hUnmatched : ∀ found, outcome ≠ .matched found) :
    ∃ stop,
      EndsIn rules (.repeated times (some times) parser)
        state outcome stop := by
  have hAdvance :=
    hTurn.advance_of_unmatched hInside hEnds hUnmatched
  have hGathered :=
    gathered_of_advance hTurn hAdvance (Nat.le_of_lt hFewer)
  have hOpen := open_of_fewer hFewer
  cases outcome with
  | matched found => exact absurd rfl (hUnmatched found)
  | failed =>
      exact ⟨_, (endsIn_repeated hInside).mpr ⟨_, last,
        ⟨elements, here, hGathered, .failed hOpen hEnds⟩,
        .tooFew hFewer⟩⟩
  | fatal fault =>
      exact ⟨_, (endsIn_repeated hInside).mpr ⟨_, last,
        ⟨elements, here, hGathered, .fatal hOpen hEnds⟩,
        .fatal⟩⟩

/- After an element of nothing that is not the last, a
  repetition has too few. -/
theorem exists_failed_of_not_advance
    (hInside : state.cursor.Inside)
    (hTurn : InTurn rules parser state elements last)
    (hLength : elements.length = times)
    (hStays :
      ¬ Match.Advance state.cursor.position
        elements.dropLast) :
    ∃ stop,
      EndsIn rules (.repeated times (some times) parser)
        state .failed stop := by
  cases elements using List.reverseRecOn with
  | nil => exact absurd (Match.advance_nil _) hStays
  | append_singleton before final =>
      rw [List.dropLast_concat] at hStays
      rcases hTurn.exists_cut with ⟨middle, hBefore, _⟩
      rcases exists_stuck_of_not_advance hInside hBefore
          hStays with
        ⟨taken, element, more, here, next, rfl, hTaken,
          hAdvance, hElement, hStill, _⟩
      simp only [List.length_append, List.length_cons]
        at hLength
      have hFewer : taken.length < times := by omega
      have hFewer' :
          (taken ++ [element]).length < times := by
        rw [List.length_append, List.length_singleton]
        omega
      have hGathered :=
        gathered_of_advance hTaken hAdvance
          (Nat.le_of_lt hFewer)
      exact ⟨_, (endsIn_repeated hInside).mpr ⟨_, next,
        ⟨taken, here, hGathered,
          .nothing (open_of_fewer hFewer) hElement hStill⟩,
        .tooFew hFewer'⟩⟩

/- A repetition that has too few met a failure, or an
  element of nothing, which matches as often as is asked
  for. -/
theorem fails_or_stays_of_few
    (hInside : state.cursor.Inside)
    (hCollects :
      Collects rules parser (some times) state
        (.matched elements) here)
    (hFew : elements.length < times) :
    (∃ elements here next,
      InTurn rules parser state elements here ∧
        elements.length < times ∧
        EndsIn rules parser here .failed next) ∨
      ∃ elements last,
        InTurn rules parser state elements last ∧
          elements.length = times ∧
          ¬ Match.Advance state.cursor.position
            elements.dropLast := by
  rcases hCollects with ⟨taken, stand, hGathered, hCeases⟩
  cases hCeases with
  | enough hEnough =>
      cases hEnough
      exact absurd hFew (Nat.lt_irrefl _)
  | failed _ hElement =>
      exact .inl ⟨elements, stand, here, hGathered.turn,
        hFew, hElement⟩
  | @nothing element _ _ hElement hStill =>
      -- A sequence goes on where the repetition has ceased:
      -- what is missing is matched in place.
      have hStand :=
        (hGathered.turn.leads hInside).last_inside
      have hStuck := Stuck.again hStand hElement hStill
      rcases hStuck.exists_inTurn
          (times - (taken ++ [element]).length) with
        ⟨more, last, hMore, hLength⟩
      have hTaken := hGathered.turn.concat hElement
      have hNonempty : more ≠ [] := by
        rintro rfl
        rw [List.length_nil] at hLength
        omega
      refine .inr ⟨(taken ++ [element]) ++ more, last,
        hTaken.append hMore, ?_, ?_⟩
      · rw [List.length_append, hLength]
        omega
      · intro hAdvance
        rw [List.dropLast_append_of_ne_nil hNonempty]
          at hAdvance
        have hMoved :=
          (Match.advance_concat.mp hAdvance.of_append).2
        rw [hGathered.turn.reach_eq, hElement.stop_eq,
          hStill] at hMoved
        exact Nat.lt_irrefl _ hMoved

end Parser

end ByteGrammar

------------------------------------------------------------
-- Repetitions and Sequences
------------------------------------------------------------

namespace ByteGrammar

namespace Grouping

open ByteGrammar.Parser

variable {rules : Rules} {parser : Parser}
variable {grouping : Grouping}
variable {state last : State}

/- A repetition matches what a sequence does if only the
  last element consumes nothing. -/
theorem endsIn_exact_matched
    {found : Match}
    (hInside : state.cursor.Inside) :
    EndsIn rules
        (.repeated grouping.count (some grouping.count)
          parser)
        state (.matched found) last ↔
      ∃ elements other,
        InTurn rules parser state elements last ∧
          elements.length = grouping.count ∧
          Match.Advance state.cursor.position
            elements.dropLast ∧
          EndsIn rules (grouping.sequence parser) state
            (.matched other) last ∧
          grouping.values other.value =
            elements.map Match.value ∧
          found =
            ⟨state.cursor.position, last.cursor.position,
              .list (grouping.values other.value)⟩ := by
  rw [endsIn_repeated hInside]
  constructor
  · rintro ⟨collected, here, hCollects, hCounts⟩
    cases hCounts with
    | enough hEnough =>
        rcases (collects_exact_iff grouping.count_pos
            hInside).mp ⟨hCollects, hEnough⟩ with
          ⟨hTurn, hLength, hAdvance⟩
        rcases exists_endsIn_of_inTurn hTurn hLength with
          ⟨other, hOther, hValues⟩
        refine ⟨_, other, hTurn, hLength, hAdvance, hOther,
          hValues, ?_⟩
        rw [hValues]
  · rintro ⟨elements, other, hTurn, hLength, hAdvance, _,
      hValues, rfl⟩
    rcases (collects_exact_iff grouping.count_pos
        hInside).mpr ⟨hTurn, hLength, hAdvance⟩ with
      ⟨hCollects, hEnough⟩
    rw [hValues]
    exact ⟨_, last, hCollects, .enough hEnough⟩

/- A repetition fails where a sequence does, and where it
  matches although an element of nothing comes before the
  last. -/
theorem endsIn_exact_failed
    (hInside : state.cursor.Inside) :
    (∃ last,
      EndsIn rules
        (.repeated grouping.count (some grouping.count)
          parser)
        state .failed last) ↔
      (∃ last,
        EndsIn rules (grouping.sequence parser) state
          .failed last) ∨
      ∃ elements other last,
        InTurn rules parser state elements last ∧
          elements.length = grouping.count ∧
          ¬ Match.Advance state.cursor.position
            elements.dropLast ∧
          EndsIn rules (grouping.sequence parser) state
            (.matched other) last := by
  have hUnmatched : ∀ found : Match,
      Outcome.failed ≠ .matched found := nofun
  rw [endsIn_unmatched hUnmatched]
  constructor
  · rintro ⟨last, hFailed⟩
    rcases (endsIn_repeated hInside).mp hFailed with
      ⟨collected, here, hCollects, hCounts⟩
    cases hCounts with
    | tooFew hFew =>
        rcases fails_or_stays_of_few hInside hCollects hFew
          with hCall | ⟨elements, last, hTurn, hLength, hStays⟩
        · exact .inl hCall
        · rcases exists_endsIn_of_inTurn hTurn hLength with
            ⟨other, hOther, _⟩
          exact .inr ⟨elements, other, last, hTurn, hLength,
            hStays, hOther⟩
  · rintro (⟨elements, here, next, hTurn, hFewer, hEnds⟩ |
      ⟨elements, _, last, hTurn, hLength, hStays, _⟩)
    · exact exists_endsIn_of_unmatched hInside hTurn hFewer hEnds
        hUnmatched
    · exact exists_failed_of_not_advance hInside hTurn hLength
        hStays

/- A repetition raises what a sequence raises. -/
theorem endsIn_exact_fatal
    {fault : Fault}
    (hInside : state.cursor.Inside) :
    (∃ last,
      EndsIn rules
        (.repeated grouping.count (some grouping.count)
          parser)
        state (.fatal fault) last) ↔
      ∃ last,
        EndsIn rules (grouping.sequence parser) state
          (.fatal fault) last := by
  have hUnmatched : ∀ found : Match,
      Outcome.fatal fault ≠ .matched found := nofun
  rw [endsIn_unmatched hUnmatched]
  constructor
  · rintro ⟨last, hFatal⟩
    rcases (endsIn_repeated hInside).mp hFatal with
      ⟨collected, here, hCollects, hCounts⟩
    cases hCounts with
    | fatal =>
        rcases hCollects with
          ⟨taken, stand, hGathered, hCeases⟩
        cases hCeases with
        | fatal hOpen hElement =>
            exact ⟨taken, stand, last, hGathered.turn,
              hGathered.length_lt hOpen _ rfl, hElement⟩
  · rintro ⟨elements, here, next, hTurn, hFewer, hEnds⟩
    exact exists_endsIn_of_unmatched hInside hTurn hFewer hEnds
      hUnmatched

/-
  An exact repetition against the sequence of as many calls,
  however these are grouped. The sequence matches elements
  in turn. The repetition matches if the sequence does and
  each element but the last consumes something, with the
  same values and the same last state. Where the sequence
  fails or raises a fatal error, so does the repetition.
  Where the sequence matches although an element before the
  last consumes nothing, the repetition fails, as it ceases
  after that element; it fails nowhere else.
-/
theorem exact_repetition_specified
    (rules : Rules)
    (parser : Parser)
    (grouping : Grouping)
    {state : State}
    (hInside : state.cursor.Inside) :
    let times := grouping.count
    let repetition :=
      Parser.repeated times (some times) parser
    let sequence := grouping.sequence parser
    (∀ other last,
      EndsIn rules sequence state (.matched other) last →
        ∃ elements,
          InTurn rules parser state elements last ∧
            elements.length = times ∧
            grouping.values other.value =
              elements.map Match.value) ∧
    (∀ found last,
      EndsIn rules repetition state (.matched found) last ↔
        ∃ elements other,
          InTurn rules parser state elements last ∧
            elements.length = times ∧
            Match.Advance state.cursor.position
              elements.dropLast ∧
            EndsIn rules sequence state (.matched other)
              last ∧
            grouping.values other.value =
              elements.map Match.value ∧
            found =
              ⟨state.cursor.position, last.cursor.position,
                .list (grouping.values other.value)⟩) ∧
    ((∃ last, EndsIn rules repetition state .failed last) ↔
      (∃ last, EndsIn rules sequence state .failed last) ∨
      ∃ elements other last,
        InTurn rules parser state elements last ∧
          elements.length = times ∧
          ¬ Match.Advance state.cursor.position
            elements.dropLast ∧
          EndsIn rules sequence state (.matched other)
            last) ∧
    (∀ fault,
      (∃ last,
        EndsIn rules repetition state (.fatal fault)
          last) ↔
        ∃ last,
          EndsIn rules sequence state (.fatal fault)
            last) := by
  intro times repetition sequence
  refine ⟨?_, ?_, ?_, ?_⟩
  · intro other last hEnds
    exact exists_inTurn_of_endsIn hEnds
  · intro found last
    exact endsIn_exact_matched hInside
  · exact endsIn_exact_failed hInside
  · intro fault
    exact endsIn_exact_fatal hInside

/- A repetition of what may match nothing, where the first
  element of nothing is the last. -/
theorem exact_repetition_specified_nothing :
    let parser : Parser := .optional (.byte 0x61)
    let grouping : Grouping := .both .one .one
    let state : State :=
      ⟨.ofBytes [0x61], .fresh .standard⟩
    state.cursor.Inside ∧
      ∃ elements other last,
        InTurn .empty parser state elements last ∧
          EndsIn .empty (grouping.sequence parser) state
            (.matched other) last ∧
          elements.map Match.value =
            [.some (.byte 0x61), .none] := by
  intro parser grouping state
  have hInside : state.cursor.Inside := Nat.zero_le _
  have hSpecified :=
    exact_repetition_specified .empty parser grouping
      hInside
  have hRun :
      (Parser.repeated 2 (some 2) parser).run .empty 5
          state =
        some ⟨.matched
            ⟨0, 1, .list [.some (.byte 0x61), .none]⟩,
          ⟨⟨[0x61], 1, .origin, 1⟩, .fresh .standard⟩,
          []⟩ := rfl
  rcases (hSpecified.2.1 _ _).mp (.of_run hRun) with
    ⟨elements, other, hTurn, _, _, hOther, hValues,
      hFound⟩
  have hListed := Value.list.inj (congrArg Match.value hFound)
  exact ⟨hInside, elements, other, _, hTurn, hOther,
    hValues.symm.trans hListed.symm⟩

/- Two elements of nothing make a sequence but not a
  repetition. -/
theorem sequence_without_repetition :
    let parser : Parser := .optional (.byte 0x61)
    let sequence := Parser.both parser parser
    let repetition := Parser.repeated 2 (some 2) parser
    let state : State :=
      ⟨.ofBytes [], .fresh .standard⟩
    (∃ last,
      sequence.parse .empty state =
        some ⟨.matched ⟨0, 0, .pair .none .none⟩, last,
          []⟩) ∧
      ∃ last,
        repetition.parse .empty state =
          some ⟨.failed, last, []⟩ :=
  ⟨⟨_, rfl⟩, _, rfl⟩

end Grouping

end ByteGrammar
