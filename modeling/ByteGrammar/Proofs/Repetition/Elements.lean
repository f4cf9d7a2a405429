import ByteGrammar.Grammar.Forms
import ByteGrammar.Proofs.Engine.Collecting
import ByteGrammar.Proofs.Engine.Equivalence

/-
  What a repetition collects.

  A repetition matches elements in turn. It takes them as
  long as they consume something, and ceases where it has
  enough, where no element matches, or after an element of
  nothing.

  Main declarations:
    * `Parser.InTurn`, `Match.Advance`
    * `Parser.Gathered`, `Parser.Ceases`, `Parser.Collects`
    * `Parser.collects_of_iterate`
    * `Parser.Collects.iterates`
    * `Parser.Counts`, `Parser.endsIn_repeated`
    * `Parser.repetitions_specified`
-/

------------------------------------------------------------
-- Elements in Turn
------------------------------------------------------------

namespace ByteGrammar

namespace Parser

/- Elements that a parser matches in turn, each from where
  the one before it ends, and the state that the last of
  them leaves. -/
inductive InTurn
    (rules : Rules)
    (parser : Parser) :
    State → List Match → State → Prop where
  | none {state : State} :
      InTurn rules parser state [] state
  | first {state middle last : State} {element : Match}
      {rest : List Match}
      (hElement :
        EndsIn rules parser state (.matched element) middle)
      (hRest : InTurn rules parser middle rest last) :
      InTurn rules parser state (element :: rest) last

namespace InTurn

variable {rules : Rules} {parser : Parser}
variable {state middle last : State}
variable {element : Match} {elements more : List Match}

theorem append
    (hTurn : InTurn rules parser state elements middle)
    (hMore : InTurn rules parser middle more last) :
    InTurn rules parser state (elements ++ more) last := by
  induction hTurn with
  | none => exact hMore
  | first hElement _ ih => exact .first hElement (ih hMore)

theorem concat
    (hTurn : InTurn rules parser state elements middle)
    (hElement :
      EndsIn rules parser middle (.matched element) last) :
    InTurn rules parser state (elements ++ [element]) last :=
  hTurn.append (.first hElement .none)

/- Elements in turn can be cut anywhere. -/
theorem exists_cut
    (hTurn :
      InTurn rules parser state (elements ++ more) last) :
    ∃ middle, InTurn rules parser state elements middle ∧
      InTurn rules parser middle more last := by
  induction elements generalizing state with
  | nil => exact ⟨state, .none, hTurn⟩
  | cons element elements ih =>
      cases hTurn with
      | first hElement hRest =>
          rcases ih hRest with ⟨middle, hBefore, hAfter⟩
          exact ⟨middle, .first hElement hBefore, hAfter⟩

theorem exists_cut_at
    (hTurn : InTurn rules parser state elements last)
    (count : Nat) :
    ∃ middle,
      InTurn rules parser state (elements.take count)
          middle ∧
        InTurn rules parser middle (elements.drop count)
          last := by
  rw [← List.take_append_drop count elements] at hTurn
  exact hTurn.exists_cut

theorem leads
    (hInside : state.cursor.Inside)
    (hTurn : InTurn rules parser state elements last) :
    state.cursor.Leads last.cursor := by
  induction hTurn with
  | none => exact .refl hInside
  | first hElement _ ih =>
      have hLeads := hElement.leads hInside
      exact hLeads.trans (ih hLeads.last_inside)

end InTurn

end Parser

namespace Match

/- Where the last of some matches stops. -/
def reach
    (start : Nat)
    (elements : List Match) :
    Nat :=
  elements.foldl (fun _ element => element.stop) start

/- Each match stops behind where the one before it does. -/
def Advance
    (start : Nat)
    (elements : List Match) :
    Prop :=
  (start :: elements.map Match.stop).IsChain (· < ·)

variable {start : Nat}
variable {element : Match} {elements : List Match}

theorem advance_nil
    (start : Nat) :
    Advance start [] :=
  .singleton start

theorem advance_cons :
    Advance start (element :: elements) ↔
      start < element.stop ∧
        Advance element.stop elements :=
  List.isChain_cons_cons

theorem advance_concat :
    Advance start (elements ++ [element]) ↔
      Advance start elements ∧
        reach start elements < element.stop := by
  induction elements generalizing start with
  | nil => simp [advance_cons, advance_nil, reach]
  | cons first elements ih =>
      rw [List.cons_append, advance_cons, advance_cons, ih,
        and_assoc]
      rfl

theorem Advance.of_append
    {more : List Match}
    (hAdvance : Advance start (elements ++ more)) :
    Advance start elements := by
  rw [Advance, List.map_append, ← List.cons_append]
    at hAdvance
  exact hAdvance.left_of_append

theorem Advance.dropLast
    (hAdvance : Advance start elements) :
    Advance start elements.dropLast := by
  cases elements using List.reverseRecOn with
  | nil => exact hAdvance
  | append_singleton elements element =>
      rw [List.dropLast_concat]
      exact hAdvance.of_append

/- Matches that advance are no more than the bytes between
  where they start and where they stop. -/
theorem Advance.length_le
    (hAdvance : Advance start elements) :
    start + elements.length ≤ reach start elements := by
  induction elements generalizing start with
  | nil => exact Nat.le_refl start
  | cons first elements ih =>
      rcases advance_cons.mp hAdvance with ⟨hFirst, hRest⟩
      have hLength := ih hRest
      have hReach :
          reach start (first :: elements) =
            reach first.stop elements := rfl
      rw [hReach, List.length_cons]
      omega

end Match

namespace Parser

/- Elements in turn reach up to where the last of them
  leaves the cursor. -/
theorem InTurn.reach_eq
    {rules : Rules}
    {parser : Parser}
    {state last : State}
    {elements : List Match}
    (hTurn : InTurn rules parser state elements last) :
    Match.reach state.cursor.position elements =
      last.cursor.position := by
  induction hTurn with
  | none => rfl
  | first hElement _ ih =>
      rw [← ih, ← hElement.stop_eq]
      rfl

end Parser

end ByteGrammar

------------------------------------------------------------
-- What Is Collected
------------------------------------------------------------

namespace ByteGrammar

namespace Parser

variable {rules : Rules} {parser : Parser}
variable {max : Option Nat}
variable {state here next last : State}
variable {element : Match} {elements : List Match}

/- Elements that a repetition has taken, each of which
  consumed something, and the state where it goes on. -/
structure Gathered
    (rules : Rules)
    (parser : Parser)
    (max : Option Nat)
    (state : State)
    (elements : List Match)
    (here : State) :
    Prop where
  turn : InTurn rules parser state elements here
  advance : Match.Advance state.cursor.position elements
  room : ∀ bound ∈ max, elements.length ≤ bound

theorem gathered_nil
    (rules : Rules)
    (parser : Parser)
    (max : Option Nat)
    (state : State) :
    Gathered rules parser max state [] state where
  turn := .none
  advance := Match.advance_nil _
  room := fun bound _ => Nat.zero_le bound

theorem Gathered.length_lt
    (hGathered :
      Gathered rules parser max state elements here)
    (hOpen : max ≠ some elements.length) :
    ∀ bound ∈ max, elements.length < bound := by
  rintro bound rfl
  apply Nat.lt_of_le_of_ne (hGathered.room bound rfl)
  rintro rfl
  exact hOpen rfl

/- One more element is taken where there is room for it and
  it consumes something. -/
theorem Gathered.concat
    (hGathered :
      Gathered rules parser max state elements here)
    (hOpen : max ≠ some elements.length)
    (hElement :
      EndsIn rules parser here (.matched element) next)
    (hMoved :
      here.cursor.position < next.cursor.position) :
    Gathered rules parser max state (elements ++ [element])
      next where
  turn := hGathered.turn.concat hElement
  advance := by
    refine Match.advance_concat.mpr
      ⟨hGathered.advance, ?_⟩
    rw [hGathered.turn.reach_eq, hElement.stop_eq]
    exact hMoved
  room := by
    intro bound hBound
    rw [List.length_append, List.length_singleton]
    exact hGathered.length_lt hOpen bound hBound

/-
  Why a repetition ceases where it stands, with which
  elements or fault, and the state that it leaves: it has
  enough; no element matches; the element consumes nothing,
  which is still taken; or a fatal error is raised.
-/
inductive Ceases
    (rules : Rules)
    (parser : Parser)
    (max : Option Nat)
    (elements : List Match)
    (here : State) :
    Outcome (List Match) → State → Prop where
  | enough
      (hEnough : max = some elements.length) :
      Ceases rules parser max elements here
        (.matched elements) here
  | failed {last : State}
      (hOpen : max ≠ some elements.length)
      (hElement : EndsIn rules parser here .failed last) :
      Ceases rules parser max elements here
        (.matched elements) last
  | nothing {element : Match} {last : State}
      (hOpen : max ≠ some elements.length)
      (hElement :
        EndsIn rules parser here (.matched element) last)
      (hStill :
        last.cursor.position = here.cursor.position) :
      Ceases rules parser max elements here
        (.matched (elements ++ [element])) last
  | fatal {fault : Fault} {last : State}
      (hOpen : max ≠ some elements.length)
      (hElement :
        EndsIn rules parser here (.fatal fault) last) :
      Ceases rules parser max elements here (.fatal fault)
        last

/- What a repetition collects from a state, and the state
  that it leaves. -/
def Collects
    (rules : Rules)
    (parser : Parser)
    (max : Option Nat)
    (state : State)
    (outcome : Outcome (List Match))
    (last : State) :
    Prop :=
  ∃ elements here,
    Gathered rules parser max state elements here ∧
      Ceases rules parser max elements here outcome last

end Parser

end ByteGrammar

------------------------------------------------------------
-- Runs of Repetitions
------------------------------------------------------------

namespace ByteGrammar

namespace Parser

open ByteGrammar.Action

variable {rules : Rules} {parser : Parser}
variable {max : Option Nat}
variable {state here last : State}
variable {elements : List Match}
variable {outcome : Outcome (List Match)}

/- What matches yield, where there is no fault. -/
def yielded :
    Outcome (List Match) → Outcome (List Value)
  | .matched elements => .matched (elements.map Match.value)
  | .failed => .failed
  | .fatal fault => .fatal fault

/- There is no room for the values of elements where there
  is none for the elements. -/
theorem Gathered.full_iff
    (hGathered :
      Gathered rules parser max state elements here) :
    Full max (elements.map Match.value) ↔
      max = some elements.length := by
  have hRoom := hGathered.room
  rw [← List.length_map Match.value] at hRoom ⊢
  exact Action.full_iff hRoom

theorem Gathered.open_iff
    (hGathered :
      Gathered rules parser max state elements here) :
    ¬ Full max (elements.map Match.value) ↔
      max ≠ some elements.length :=
  not_congr hGathered.full_iff

/- A pass that goes on has gathered one more element. -/
theorem Gathered.of_again
    {depth : Nat}
    {next : List Value}
    {events : List Event}
    (hInside : state.cursor.Inside)
    (hGathered :
      Gathered rules parser max state elements here)
    (hPass :
      collectPass max (parser.run rules depth)
          (elements.map Match.value) here =
        some ⟨.matched (.again next), last, events⟩) :
    ∃ element,
      Gathered rules parser max state
          (elements ++ [element]) last ∧
        next = (elements ++ [element]).map Match.value := by
  cases collectPass_ends hPass with
  | @moved element _ _ hRoom hElement hMoved =>
      have hOpen := hGathered.open_iff.mp hRoom
      have hEnds := EndsIn.of_run hElement
      have hHere := (hGathered.turn.leads hInside).last_inside
      have hForth := (hEnds.leads hHere).forth
      have hStop := hEnds.stop_eq
      refine ⟨element,
        hGathered.concat hOpen hEnds (by omega), ?_⟩
      rw [List.map_append]
      rfl

/- A pass that is done ceases with what it has. -/
theorem Gathered.ceases_of_done
    {depth : Nat}
    {result : List Value}
    {events : List Event}
    (hGathered :
      Gathered rules parser max state elements here)
    (hPass :
      collectPass max (parser.run rules depth)
          (elements.map Match.value) here =
        some ⟨.matched (.done result), last, events⟩) :
    ∃ collected,
      Ceases rules parser max elements here
          (.matched collected) last ∧
        result = collected.map Match.value := by
  cases collectPass_ends hPass with
  | full hFull =>
      have hEnough := hGathered.full_iff.mp hFull
      exact ⟨elements, .enough hEnough, rfl⟩
  | failed hRoom hElement =>
      have hOpen := hGathered.open_iff.mp hRoom
      exact ⟨elements, .failed hOpen (.of_run hElement),
        rfl⟩
  | @still element _ _ hRoom hElement hStill =>
      have hOpen := hGathered.open_iff.mp hRoom
      have hEnds := EndsIn.of_run hElement
      have hPlace := hEnds.stop_eq.symm.trans hStill
      refine ⟨elements ++ [element],
        .nothing hOpen hEnds hPlace, ?_⟩
      rw [List.map_append]
      rfl

/- A pass that raises a fatal error ceases with it. -/
theorem Gathered.ceases_of_fatal
    {depth : Nat}
    {fault : Fault}
    {events : List Event}
    (hGathered :
      Gathered rules parser max state elements here)
    (hPass :
      collectPass max (parser.run rules depth)
          (elements.map Match.value) here =
        some ⟨.fatal fault, last, events⟩) :
    Ceases rules parser max elements here (.fatal fault)
      last := by
  cases collectPass_ends hPass with
  | fatal hRoom hElement =>
      have hOpen := hGathered.open_iff.mp hRoom
      exact .fatal hOpen (.of_run hElement)

/- Passes of a repetition, taken one after the other, go on
  with what was gathered. -/
theorem collects_of_iterate
    {depth limit : Nat}
    {result : Outcome (List Value)}
    {events : List Event}
    (hInside : state.cursor.Inside)
    (hGathered :
      Gathered rules parser max state elements here)
    (hRun :
      iterate (collectPass max (parser.run rules depth))
          limit (elements.map Match.value) here =
        some ⟨result, last, events⟩) :
    ∃ outcome,
      Collects rules parser max state outcome last ∧
        result = yielded outcome := by
  -- The limit bounds the passes that are left; what was
  -- gathered before them is the invariant.
  induction limit generalizing elements here events with
  | zero => cases hRun
  | succ limit ih =>
      rw [iterate] at hRun
      cases bind_ends hRun with
      | @matched pass _ _ _ _ _ hPass hMore =>
          cases pass with
          | again next =>
              rcases hGathered.of_again hInside hPass with
                ⟨element, hNext, rfl⟩
              exact ih hNext hMore
          | done result =>
              cases hMore
              rcases hGathered.ceases_of_done hPass with
                ⟨collected, hCeases, rfl⟩
              exact ⟨.matched collected,
                ⟨elements, here, hGathered, hCeases⟩, rfl⟩
      | failed hPass => cases collectPass_ends hPass
      | fatal hPass =>
          have hCeases := hGathered.ceases_of_fatal hPass
          exact ⟨.fatal _,
            ⟨elements, here, hGathered, hCeases⟩, rfl⟩

/- From some depth on, whatever the limit, a repetition that
  has taken some values goes on to a result: each pass but
  the last consumes something, so they are no more than the
  bytes that remain. -/
def Iterates
    (rules : Rules)
    (parser : Parser)
    (max : Option Nat)
    (values : List Value)
    (state : State)
    (result : Outcome (List Value))
    (last : State) :
    Prop :=
  ∃ least, ∀ depth, least ≤ depth →
    ∀ limit, state.cursor.remaining.length < limit →
      ∃ events,
        iterate (collectPass max (parser.run rules depth))
            limit values state =
          some ⟨result, last, events⟩

/- An element that consumes something is taken first. -/
theorem Iterates.of_element
    {values : List Value}
    {result : Outcome (List Value)}
    {element : Match}
    (hInside : state.cursor.Inside)
    (hOpen : ¬ Full max values)
    (hElement :
      EndsIn rules parser state (.matched element) here)
    (hMoved : state.cursor.position < element.stop)
    (hRest :
      Iterates rules parser max (values ++ [element.value])
        here result last) :
    Iterates rules parser max values state result last := by
  have hLeads := hElement.leads hInside
  have hStop := hElement.stop_eq
  have hFewer := hLeads.remaining_lt (by omega)
  rcases hElement.exists_least with ⟨least, events, hRun⟩
  rcases hRest with ⟨least', hRest⟩
  refine ⟨least + least', ?_⟩
  intro depth hDepth limit hLimit
  cases limit with
  | zero => cases hLimit
  | succ limit =>
      have hAgain :=
        collectPass_of_moved hOpen
          (hRun depth (by omega)) (by omega)
      rcases hRest depth (by omega) limit (by omega) with
        ⟨more, hMore⟩
      refine ⟨events ++ more, ?_⟩
      rw [iterate_of_again limit hAgain, hMore]
      rfl

/- Elements that advance are taken first. -/
theorem Iterates.of_inTurn
    {values : List Value}
    {result : Outcome (List Value)}
    (hInside : state.cursor.Inside)
    (hTurn : InTurn rules parser state elements here)
    (hAdvance :
      Match.Advance state.cursor.position elements)
    (hRoom : ∀ bound ∈ max,
      values.length + elements.length ≤ bound)
    (hRest :
      Iterates rules parser max
        (values ++ elements.map Match.value) here result
        last) :
    Iterates rules parser max values state result last := by
  induction hTurn generalizing values with
  | none =>
      rw [List.map_nil, List.append_nil] at hRest
      exact hRest
  | @first state middle here element rest hElement _ ih =>
      rcases Match.advance_cons.mp hAdvance with
        ⟨hMoved, hAdvance⟩
      have hLeads := hElement.leads hInside
      have hStop := hElement.stop_eq
      have hOpen : ¬ Full max values := by
        cases max with
        | none => exact Bool.false_ne_true
        | some bound =>
            have hBound := hRoom bound rfl
            rw [List.length_cons] at hBound
            simp only [Full, Option.any_some,
              decide_eq_true_iff]
            omega
      apply Iterates.of_element hInside hOpen hElement
        hMoved
      apply ih hLeads.last_inside
      · rw [← hStop]
        exact hAdvance
      · intro bound hBound
        have hMore := hRoom bound hBound
        rw [List.length_cons] at hMore
        rw [List.length_append, List.length_singleton]
        omega
      · rw [List.append_assoc]
        exact hRest

/- Where a pass is done, the repetition has its result. -/
theorem Iterates.of_done
    {least : Nat}
    {values result : List Value}
    {events : List Event}
    (hPass : ∀ depth, least ≤ depth →
      collectPass max (parser.run rules depth) values here =
        some ⟨.matched (.done result), last, events⟩) :
    Iterates rules parser max values here (.matched result)
      last := by
  refine ⟨least, ?_⟩
  intro depth hDepth limit hLimit
  cases limit with
  | zero => cases hLimit
  | succ limit =>
      exact ⟨events,
        iterate_of_done limit (hPass depth hDepth)⟩

/- Where a repetition ceases, it has its result. -/
theorem Iterates.of_ceases
    (hGathered :
      Gathered rules parser max state elements here)
    (hCeases :
      Ceases rules parser max elements here outcome last) :
    Iterates rules parser max (elements.map Match.value)
      here (yielded outcome) last := by
  cases hCeases with
  | enough hEnough =>
      have hFull := hGathered.full_iff.mpr hEnough
      have hPass : ∀ depth, 0 ≤ depth →
          collectPass max (parser.run rules depth)
              (elements.map Match.value) here =
            some ⟨.matched
                (.done (elements.map Match.value)),
              here, []⟩ := by
        intro depth _
        rw [collectPass_of_full hFull]
        rfl
      exact .of_done hPass
  | failed hOpen hElement =>
      have hRoom := hGathered.open_iff.mpr hOpen
      rcases hElement.exists_least with
        ⟨least, events, hRun⟩
      apply Iterates.of_done
      intro depth hDepth
      exact collectPass_of_failed hRoom (hRun depth hDepth)
  | @nothing element _ hOpen hElement hStill =>
      have hRoom := hGathered.open_iff.mpr hOpen
      have hStop := hElement.stop_eq.trans hStill
      rcases hElement.exists_least with
        ⟨least, events, hRun⟩
      rw [yielded, List.map_append]
      apply Iterates.of_done
      intro depth hDepth
      exact collectPass_of_still hRoom (hRun depth hDepth)
        hStop
  | fatal hOpen hElement =>
      have hRoom := hGathered.open_iff.mpr hOpen
      rcases hElement.exists_least with
        ⟨least, events, hRun⟩
      refine ⟨least, ?_⟩
      intro depth hDepth limit hLimit
      cases limit with
      | zero => cases hLimit
      | succ limit =>
          have hPass :=
            collectPass_of_fatal hRoom (hRun depth hDepth)
          refine ⟨events, ?_⟩
          rw [iterate]
          exact bind_of_fatal hPass

/- Whatever a repetition collects, it goes on to. -/
theorem Collects.iterates
    (hInside : state.cursor.Inside)
    (hCollects :
      Collects rules parser max state outcome last) :
    Iterates rules parser max [] state (yielded outcome)
      last := by
  rcases hCollects with
    ⟨elements, here, hGathered, hCeases⟩
  apply Iterates.of_inTurn hInside hGathered.turn
    hGathered.advance
  · intro bound hBound
    rw [List.length_nil, Nat.zero_add]
    exact hGathered.room bound hBound
  · exact .of_ceases hGathered hCeases

end Parser

end ByteGrammar

------------------------------------------------------------
-- Repetitions
------------------------------------------------------------

namespace ByteGrammar

namespace Parser

open ByteGrammar.Action

variable {rules : Rules} {parser : Parser}
variable {min : Nat} {max : Option Nat}
variable {state here last : State}
variable {elements : List Match}

/- What a repetition makes of what it collects: enough of it
  is a match from where the repetition starts, and too few
  are given back. -/
inductive Counts
    (min : Nat)
    (state : State) :
    Outcome (List Match) → State → Outcome Match → State →
      Prop where
  | enough {elements : List Match} {last : State}
      (hEnough : min ≤ elements.length) :
      Counts min state (.matched elements) last
        (.matched ⟨state.cursor.position,
          last.cursor.position,
          .list (elements.map Match.value)⟩)
        last
  | tooFew {elements : List Match} {here : State}
      (hFew : elements.length < min) :
      Counts min state (.matched elements) here .failed
        (here.backTo state)
  | fatal {fault : Fault} {last : State} :
      Counts min state (.fatal fault) last (.fatal fault)
        last

theorem loop_of_iterates
    {result : Outcome (List Value)}
    (hIterates :
      Iterates rules parser max [] state result last) :
    ∃ depth events,
      loop (collectPass max (parser.run rules depth)) []
          state =
        some ⟨result, last, events⟩ := by
  rcases hIterates with ⟨least, hIterates⟩
  rcases hIterates least (Nat.le_refl least) _
      (Nat.lt_succ_self _) with
    ⟨events, hRun⟩
  refine ⟨least, events, ?_⟩
  rw [loop_eq_iterate]
  exact hRun

/- A repetition ends as its loop does, and counts. -/
theorem endsIn_repeated
    {outcome : Outcome Match}
    (hInside : state.cursor.Inside) :
    EndsIn rules (.repeated min max parser) state outcome
        last ↔
      ∃ collected here,
        Collects rules parser max state collected here ∧
          Counts min state collected here outcome last := by
  constructor
  · rintro ⟨events, depth, hRun⟩
    cases depth with
    | zero => cases hRun
    | succ depth =>
        have hRepeated :
            Action.repeated min max
                (parser.run rules depth) state =
              some ⟨outcome, last, events⟩ := hRun
        cases hLoop :
            loop (collectPass max (parser.run rules depth))
              [] state with
        | none =>
            rw [repeated_of_none hLoop] at hRepeated
            cases hRepeated
        | some step =>
            rcases step with ⟨result, here, taken⟩
            rw [loop_eq_iterate] at hLoop
            rcases collects_of_iterate hInside
                (gathered_nil rules parser max state) hLoop
              with ⟨collected, hCollects, rfl⟩
            rw [← loop_eq_iterate] at hLoop
            refine ⟨collected, here, hCollects, ?_⟩
            cases collected with
            | matched elements =>
                by_cases hEnough : min ≤ elements.length
                · rw [repeated_of_enough hLoop (by simpa)]
                    at hRepeated
                  cases hRepeated
                  exact .enough hEnough
                · have hFew := Nat.lt_of_not_le hEnough
                  have hPart := atomic_run rules depth parser
                  rw [hPart.repeated_of_few hLoop
                    (by simpa)] at hRepeated
                  cases hRepeated
                  exact .tooFew hFew
            | failed =>
                rcases hCollects with ⟨_, _, _, hCeases⟩
                cases hCeases
            | fatal fault =>
                rw [repeated_of_fatal hLoop] at hRepeated
                cases hRepeated
                exact .fatal
  · rintro ⟨collected, here, hCollects, hCounts⟩
    rcases loop_of_iterates (hCollects.iterates hInside)
      with ⟨depth, events, hLoop⟩
    refine ⟨events, depth + 1, ?_⟩
    cases hCounts with
    | enough hEnough =>
        exact repeated_of_enough hLoop (by simpa)
    | tooFew hFew =>
        exact (atomic_run rules depth parser).repeated_of_few
          hLoop (by simpa)
    | fatal => exact repeated_of_fatal hLoop

/- What is too little leaves no trace but what was reached:
  a failure is its own way back. -/
theorem EndsIn.backTo_eq
    (hEnds : EndsIn rules parser state .failed last) :
    last.backTo state = last := by
  rw [State.backTo, ← hEnds.checkpoint_eq,
    Cursor.restore_checkpoint]

namespace Collects

/- What is collected was matched in turn, up to where the
  cursor is left. -/
theorem exists_inTurn
    (hCollects :
      Collects rules parser max state (.matched elements)
        last) :
    ∃ here, InTurn rules parser state elements here ∧
      here.cursor.position = last.cursor.position := by
  rcases hCollects with ⟨taken, here, hGathered, hCeases⟩
  cases hCeases with
  | enough => exact ⟨last, hGathered.turn, rfl⟩
  | failed _ hElement =>
      have hBack :=
        congrArg Checkpoint.position hElement.checkpoint_eq
      exact ⟨here, hGathered.turn, hBack.symm⟩
  | nothing _ hElement _ =>
      exact ⟨last, hGathered.turn.concat hElement, rfl⟩

/- Only the last of what is collected may have consumed
  nothing. -/
theorem advance_dropLast
    (hCollects :
      Collects rules parser max state (.matched elements)
        last) :
    Match.Advance state.cursor.position
      elements.dropLast := by
  rcases hCollects with ⟨taken, here, hGathered, hCeases⟩
  cases hCeases with
  | enough => exact hGathered.advance.dropLast
  | failed => exact hGathered.advance.dropLast
  | nothing =>
      rw [List.dropLast_concat]
      exact hGathered.advance

/- No more is collected than there is room for. -/
theorem length_le_max
    (hCollects :
      Collects rules parser max state (.matched elements)
        last) :
    ∀ bound ∈ max, elements.length ≤ bound := by
  rcases hCollects with ⟨taken, here, hGathered, hCeases⟩
  cases hCeases with
  | enough => exact hGathered.room
  | failed => exact hGathered.room
  | nothing hOpen =>
      intro bound hBound
      rw [List.length_append, List.length_singleton]
      exact hGathered.length_lt hOpen bound hBound

/- No more is collected than bytes are consumed, and one
  more. -/
theorem length_le
    (hCollects :
      Collects rules parser max state (.matched elements)
        last) :
    state.cursor.position + elements.length ≤
      last.cursor.position + 1 := by
  rcases hCollects with ⟨taken, here, hGathered, hCeases⟩
  have hLength := hGathered.advance.length_le
  rw [hGathered.turn.reach_eq] at hLength
  cases hCeases with
  | enough => omega
  | failed _ hElement =>
      have hBack :=
        congrArg Checkpoint.position hElement.checkpoint_eq
      simp only [Cursor.checkpoint] at hBack
      omega
  | nothing _ _ hStill =>
      rw [List.length_append, List.length_singleton]
      omega

end Collects

/- Where every call that a repetition makes ends, it
  collects something or raises a fatal error. -/
theorem exists_collects
    (hInside : state.cursor.Inside)
    (hGathered :
      Gathered rules parser max state elements here)
    (hCalls : ∀ elements here,
      Gathered rules parser max state elements here →
        max ≠ some elements.length →
          ∃ outcome last,
            EndsIn rules parser here outcome last) :
    ∃ outcome last,
      Collects rules parser max state outcome last := by
  induction hCount : here.cursor.remaining.length
    using Nat.strong_induction_on
    generalizing elements here with
  | _ count ih =>
      by_cases hEnough : max = some elements.length
      · exact ⟨.matched elements, here,
          ⟨elements, here, hGathered, .enough hEnough⟩⟩
      · rcases hCalls elements here hGathered hEnough with
          ⟨outcome, next, hElement⟩
        cases outcome with
        | matched element =>
            have hHere := hGathered.turn.leads hInside
            have hNext := hElement.leads hHere.last_inside
            have hForth := hNext.forth
            by_cases hStill :
                next.cursor.position = here.cursor.position
            · exact ⟨.matched (elements ++ [element]), next,
                ⟨elements, here, hGathered,
                  .nothing hEnough hElement hStill⟩⟩
            · have hMoved :
                  here.cursor.position <
                    next.cursor.position := by omega
              have hFewer := hNext.remaining_lt hMoved
              exact ih _ (by omega)
                (hGathered.concat hEnough hElement hMoved)
                rfl
        | failed =>
            exact ⟨.matched elements, next,
              ⟨elements, here, hGathered,
                .failed hEnough hElement⟩⟩
        | fatal fault =>
            exact ⟨.fatal fault, next,
              ⟨elements, here, hGathered,
                .fatal hEnough hElement⟩⟩

/- Where, besides, no call raises a fatal error, it collects
  something. -/
theorem exists_collects_of_unfatal
    (hInside : state.cursor.Inside)
    (hCalls : ∀ elements here,
      Gathered rules parser max state elements here →
        max ≠ some elements.length →
          ∃ outcome last,
            EndsIn rules parser here outcome last ∧
              ∀ fault, outcome ≠ .fatal fault) :
    ∃ elements last,
      Collects rules parser max state (.matched elements)
        last := by
  have hNil := gathered_nil rules parser max state
  have hCollects :
      ∃ outcome last,
        Collects rules parser max state outcome last := by
    apply exists_collects hInside hNil
    intro elements here hGathered hOpen
    rcases hCalls elements here hGathered hOpen with
      ⟨outcome, last, hEnds, _⟩
    exact ⟨outcome, last, hEnds⟩
  rcases hCollects with
    ⟨outcome, last, elements, here, hGathered, hCeases⟩
  have hCollects :
      Collects rules parser max state outcome last :=
    ⟨elements, here, hGathered, hCeases⟩
  cases hCeases with
  | enough => exact ⟨_, _, hCollects⟩
  | failed => exact ⟨_, _, hCollects⟩
  | nothing => exact ⟨_, _, hCollects⟩
  | @fatal fault _ hOpen hElement =>
      rcases hCalls elements here hGathered hOpen with
        ⟨outcome, last', hOther, hUnfatal⟩
      exact absurd (hOther.unique hElement).1
        (hUnfatal fault)

/- Nothing is collected where there is room and no element
  matches. -/
theorem collects_nil_iff
    (hOpen : max ≠ some 0) :
    Collects rules parser max state (.matched []) last ↔
      EndsIn rules parser state .failed last := by
  constructor
  · rintro ⟨taken, here, hGathered, hCeases⟩
    generalize hResult : Outcome.matched [] = result
      at hCeases
    cases hCeases with
    | enough hEnough =>
        cases hResult
        exact absurd hEnough hOpen
    | failed _ hElement =>
        cases hResult
        cases hGathered.turn
        exact hElement
    | nothing => simp at hResult
    | fatal => cases hResult
  · intro hFailed
    exact ⟨[], state, gathered_nil rules parser max state,
      .failed hOpen hFailed⟩

/- At least one element is found unless there is none where
  the repetition starts. -/
theorem endsIn_many1_failed
    (hInside : state.cursor.Inside) :
    EndsIn rules (.many1 parser) state .failed last ↔
      EndsIn rules parser state .failed last := by
  have hOpen : none ≠ some 0 := nofun
  rw [many1, endsIn_repeated hInside]
  constructor
  · rintro ⟨collected, here, hCollects, hCounts⟩
    cases hCounts with
    | tooFew hFew =>
        rw [List.length_eq_zero_iff.mp
          (Nat.lt_one_iff.mp hFew)] at hCollects
        have hFailed := (collects_nil_iff hOpen).mp hCollects
        rw [hFailed.backTo_eq]
        exact hFailed
  · intro hFailed
    have hCounts :
        Counts 1 state (.matched []) last .failed
          (last.backTo state) :=
      .tooFew Nat.zero_lt_one
    rw [hFailed.backTo_eq] at hCounts
    exact ⟨_, last, (collects_nil_iff hOpen).mpr hFailed,
      hCounts⟩

/- A repetition without a least number never fails. -/
theorem not_endsIn_many_failed
    (hInside : state.cursor.Inside) :
    ¬ EndsIn rules (.many parser) state .failed last := by
  intro hFailed
  rw [many, endsIn_repeated hInside] at hFailed
  rcases hFailed with ⟨collected, here, _, hCounts⟩
  cases hCounts with
  | tooFew hFew => cases hFew

/-
  What repetitions match, from wherever they start inside
  the buffer. They collect elements in turn, of which only
  the last may consume nothing, until they have enough,
  until no element matches or after an element of nothing:
  no more than there is room for, and at most one more than
  the bytes consumed. A repetition matches if these are
  enough, from where it starts to where the cursor is left,
  with their values in order; fails and goes back to where
  it started if they are too few; and raises what a call
  raises. Without a least number it never fails, and one
  that asks for a single element fails where that fails.
  Where every call that it makes ends without a fatal
  error, there is something to collect.
-/
theorem repetitions_specified
    (rules : Rules)
    (parser : Parser)
    (max : Option Nat)
    {state : State}
    (hInside : state.cursor.Inside) :
    (∀ min found last,
      EndsIn rules (.repeated min max parser) state
          (.matched found) last ↔
        ∃ elements,
          Collects rules parser max state
              (.matched elements) last ∧
            min ≤ elements.length ∧
              found =
                ⟨state.cursor.position,
                  last.cursor.position,
                  .list (elements.map Match.value)⟩) ∧
    (∀ min last,
      EndsIn rules (.repeated min max parser) state .failed
          last ↔
        ∃ elements here,
          Collects rules parser max state
              (.matched elements) here ∧
            elements.length < min ∧
              last = here.backTo state) ∧
    (∀ min fault last,
      EndsIn rules (.repeated min max parser) state
          (.fatal fault) last ↔
        Collects rules parser max state (.fatal fault)
          last) ∧
    (∀ last,
      ¬ EndsIn rules (.many parser) state .failed last) ∧
    (∀ last,
      EndsIn rules (.many1 parser) state .failed last ↔
        EndsIn rules parser state .failed last) ∧
    (∀ elements last,
      Collects rules parser max state (.matched elements)
          last →
        (∃ here,
          InTurn rules parser state elements here ∧
            here.cursor.position = last.cursor.position) ∧
          Match.Advance state.cursor.position
            elements.dropLast ∧
          (∀ bound ∈ max, elements.length ≤ bound) ∧
          state.cursor.position + elements.length ≤
            last.cursor.position + 1) ∧
    ((∀ elements here,
      Gathered rules parser max state elements here →
        max ≠ some elements.length →
          ∃ outcome last,
            EndsIn rules parser here outcome last ∧
              ∀ fault, outcome ≠ .fatal fault) →
      ∃ elements last,
        Collects rules parser max state (.matched elements)
          last) := by
  refine ⟨?_, ?_, ?_, ?_, ?_, ?_, ?_⟩
  · intro min found last
    rw [endsIn_repeated hInside]
    constructor
    · rintro ⟨_, _, hCollects, hCounts⟩
      cases hCounts with
      | enough hEnough => exact ⟨_, hCollects, hEnough, rfl⟩
    · rintro ⟨elements, hCollects, hEnough, rfl⟩
      exact ⟨_, last, hCollects, .enough hEnough⟩
  · intro min last
    rw [endsIn_repeated hInside]
    constructor
    · rintro ⟨_, _, hCollects, hCounts⟩
      cases hCounts with
      | tooFew hFew => exact ⟨_, _, hCollects, hFew, rfl⟩
    · rintro ⟨elements, here, hCollects, hFew, rfl⟩
      exact ⟨_, here, hCollects, .tooFew hFew⟩
  · intro min fault last
    rw [endsIn_repeated hInside]
    constructor
    · rintro ⟨_, _, hCollects, hCounts⟩
      cases hCounts with
      | fatal => exact hCollects
    · intro hCollects
      exact ⟨_, last, hCollects, .fatal⟩
  · intro last
    exact not_endsIn_many_failed hInside
  · intro last
    exact endsIn_many1_failed hInside
  · intro elements last hCollects
    exact ⟨hCollects.exists_inTurn,
      hCollects.advance_dropLast, hCollects.length_le_max,
      hCollects.length_le⟩
  · intro hCalls
    exact exists_collects_of_unfatal hInside hCalls

/- A byte and an element of nothing after it: as many as the
  bytes consumed, and one more. -/
theorem repetitions_specified_nothing :
    let parser : Parser := .optional (.byte 0x61)
    let state : State :=
      ⟨.ofBytes [0x61, 0x62], .fresh .standard⟩
    state.cursor.Inside ∧
      ∃ elements last,
        Collects .empty parser none state
            (.matched elements) last ∧
          elements.map Match.value =
            [.some (.byte 0x61), .none] ∧
          last.cursor.position = 1 := by
  intro parser state
  have hInside : state.cursor.Inside := Nat.zero_le _
  have hSpecified :=
    repetitions_specified .empty parser none hInside
  have hRun :
      (Parser.many parser).run .empty 5 state =
        some ⟨.matched
            ⟨0, 1, .list [.some (.byte 0x61), .none]⟩,
          ⟨⟨[0x61, 0x62], 1, .origin, 1⟩,
            .fresh .standard⟩, []⟩ := rfl
  rcases (hSpecified.1 _ _ _).mp (.of_run hRun) with
    ⟨elements, hCollects, _, hFound⟩
  have hValue := congrArg Match.value hFound
  have hValues := Value.list.inj hValue
  exact ⟨hInside, elements, _, hCollects, hValues.symm, rfl⟩

end Parser

end ByteGrammar
