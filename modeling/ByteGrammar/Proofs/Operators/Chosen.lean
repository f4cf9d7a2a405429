import ByteGrammar.Grammar.Operators
import ByteGrammar.Proofs.Engine.Equivalence
import ByteGrammar.Proofs.Engine.Simulation
import ByteGrammar.Proofs.Forms.Laws

/-
  Which operator of a level is chosen.

  A level runs the choice among the matchers of its
  operators, each of which yields its place in the list.
  What the choice comes to says which operator is chosen,
  and the other way round.

  Main declarations:
    * `Parser.endsIn_map_matched`, `Parser.endsIn_either`
    * `Operator.Selects`, `Operator.IsFirst`
    * `Operator.Selects.isFirst`
    * `Operator.exists_selects_of_matched`
    * `Operator.exists_matched_of_selects`
-/

------------------------------------------------------------
-- Values and Choices
------------------------------------------------------------

namespace ByteGrammar

namespace Parser

open ByteGrammar.Action

variable {rules : Rules}
variable {parser first second : Parser}
variable {state last : State}

theorem endsIn_map_failed
    (change : Value → Value) :
    EndsIn rules (.map change parser) state .failed last ↔
      EndsIn rules parser state .failed last := by
  constructor
  · rintro ⟨events, depth, hRun⟩
    cases depth with
    | zero => cases hRun
    | succ depth =>
        have hMap :
            Action.map change (parser.run rules depth)
                state =
              some ⟨.failed, last, events⟩ := hRun
        unfold Action.map at hMap
        cases bind_ends hMap with
        | matched _ hMore => cases hMore
        | failed hFailed => exact .of_run hFailed
  · rintro ⟨events, depth, hRun⟩
    exact ⟨events, depth + 1, map_of_failed change hRun⟩

theorem endsIn_map_matched
    (change : Value → Value)
    {found : Match} :
    EndsIn rules (.map change parser) state
        (.matched found) last ↔
      ∃ inner,
        EndsIn rules parser state (.matched inner) last ∧
          found = inner.withValue (change inner.value) := by
  constructor
  · rintro ⟨events, depth, hRun⟩
    cases depth with
    | zero => cases hRun
    | succ depth =>
        have hMap :
            Action.map change (parser.run rules depth)
                state =
              some ⟨.matched found, last, events⟩ := hRun
        unfold Action.map at hMap
        cases bind_ends hMap with
        | @matched inner _ _ _ _ _ hMatched hMore =>
            cases hMore
            exact ⟨inner, .of_run hMatched, rfl⟩
  · rintro ⟨inner, ⟨events, depth, hRun⟩, rfl⟩
    exact ⟨events, depth + 1, map_of_matched change hRun⟩

/- A choice comes to what the first alternative comes to,
  unless that fails, and to what the second comes to
  then. -/
theorem endsIn_either
    {outcome : Outcome Match} :
    EndsIn rules (.either first second) state outcome
        last ↔
      EndsIn rules first state outcome last ∧
          outcome ≠ .failed ∨
        ∃ middle,
          EndsIn rules first state .failed middle ∧
            EndsIn rules second middle outcome last := by
  constructor
  · rintro ⟨events, depth, hRun⟩
    cases depth with
    | zero => cases hRun
    | succ depth =>
        have hEither :
            Action.either (first.run rules depth)
                (second.run rules depth) state =
              some ⟨outcome, last, events⟩ := hRun
        cases hFirst : first.run rules depth state with
        | none =>
            rw [either_of_none hFirst] at hEither
            cases hEither
        | some step =>
            rcases step with
              ⟨found | _ | fault, middle, reported⟩
            · rw [either_of_matched hFirst] at hEither
              cases hEither
              exact .inl ⟨.of_run hFirst, nofun⟩
            · have hEnds := EndsIn.of_run hFirst
              have hBack := hEnds.checkpoint_eq
              rw [either_of_failed hFirst, ← hBack,
                Cursor.restore_checkpoint] at hEither
              cases hSecond :
                  second.run rules depth middle with
              | none =>
                  rw [hSecond] at hEither
                  cases hEither
              | some step =>
                  rw [hSecond] at hEither
                  cases hEither
                  exact .inr ⟨middle, hEnds,
                    .of_run hSecond⟩
            · rw [either_of_fatal hFirst] at hEither
              cases hEither
              exact .inl ⟨.of_run hFirst, nofun⟩
  · rintro (⟨⟨events, depth, hRun⟩, hSettled⟩ |
      ⟨middle, hFirst, hSecond⟩)
    · refine ⟨events, depth + 1, ?_⟩
      cases outcome with
      | matched found => exact either_of_matched hRun
      | failed => exact absurd rfl hSettled
      | fatal fault => exact either_of_fatal hRun
    · have hBack := hFirst.checkpoint_eq
      rcases hFirst.exists_least with ⟨least, events, hRun⟩
      rcases hSecond.exists_least with
        ⟨least', more, hRun'⟩
      have hMiddle := hRun _ (Nat.le_max_left least least')
      have hLast := hRun' _ (Nat.le_max_right least least')
      refine ⟨events ++ more, max least least' + 1, ?_⟩
      refine (either_of_failed hMiddle).trans ?_
      rw [← hBack, Cursor.restore_checkpoint, hLast]
      rfl

end Parser

end ByteGrammar

------------------------------------------------------------
-- The Chosen Operator
------------------------------------------------------------

namespace ByteGrammar

namespace Operator

open ByteGrammar.Parser

/-
  Which of some operators is chosen on a state: the first
  whose matcher matches, or none if all of them fail. What
  fails leaves the cursor in its place for the next.
-/
inductive Selects
    (rules : Rules) :
    List Operator → State → Option Operator → State →
      Prop where
  | none {state : State} :
      Selects rules [] state none state
  | hit {operator : Operator} {rest : List Operator}
      {state last : State} {symbol : Match}
      (hMatch :
        EndsIn rules operator.matcher state
          (.matched symbol) last) :
      Selects rules (operator :: rest) state (some operator)
        last
  | miss {operator : Operator} {rest : List Operator}
      {state middle last : State} {chosen : Option Operator}
      (hMiss :
        EndsIn rules operator.matcher state .failed middle)
      (hRest : Selects rules rest middle chosen last) :
      Selects rules (operator :: rest) state chosen last

/- The matchers of operators, numbered from some number
  on. -/
def numbered
    (first : Nat)
    (operators : List Operator) :
    List Parser :=
  (operators.zipIdx first).map fun (operator, index) =>
    Parser.supply (.u64 index) operator.matcher

theorem numbered_cons
    (first : Nat)
    (operator : Operator)
    (rest : List Operator) :
    numbered first (operator :: rest) =
      Parser.supply (.u64 first) operator.matcher ::
        numbered (first + 1) rest := by
  unfold numbered
  rw [List.zipIdx_cons, List.map_cons]

/- The outcome that stands for a choice among operators
  that are numbered from some number on. -/
def Denotes
    (first : Nat)
    (operators : List Operator) :
    Option Operator → Outcome Match → Prop
  | none, outcome => outcome = .failed
  | some operator, outcome =>
      ∃ symbol index, outcome = .matched symbol ∧
        symbol.value = .u64 (first + index) ∧
        operators[index]? = some operator

theorem Denotes.cons
    {first : Nat}
    {operators : List Operator}
    {chosen : Option Operator}
    {outcome : Outcome Match}
    (operator : Operator)
    (hDenotes :
      Denotes (first + 1) operators chosen outcome) :
    Denotes first (operator :: operators) chosen outcome := by
  cases chosen with
  | none => exact hDenotes
  | some chosen =>
      rcases hDenotes with ⟨symbol, index, hOutcome, hValue,
        hIndex⟩
      refine ⟨symbol, index + 1, hOutcome, ?_, hIndex⟩
      rw [hValue]
      congr 1
      omega

variable {rules : Rules}
variable {operators : List Operator}
variable {state last : State}

/- What the choice among the matchers comes to says which
  operator is chosen. -/
theorem selects_of_endsIn
    {first : Nat}
    {outcome : Outcome Match}
    (hEnds :
      EndsIn rules (choice (numbered first operators)) state
        outcome last)
    (hSettled : ∀ fault, outcome ≠ .fatal fault) :
    ∃ chosen,
      Selects rules operators state chosen last ∧
        Denotes first operators chosen outcome := by
  induction operators generalizing first state with
  | nil =>
      rcases hEnds with ⟨events, depth, hRun⟩
      cases depth with
      | zero => cases hRun
      | succ depth =>
          cases hRun
          exact ⟨none, .none, rfl⟩
  | cons operator rest ih =>
      rw [numbered_cons] at hEnds
      rcases endsIn_either.mp hEnds with
        ⟨hFirst, hMatched⟩ | ⟨middle, hFirst, hSecond⟩
      · cases outcome with
        | matched found =>
            rcases (endsIn_map_matched _).mp hFirst with
              ⟨symbol, hMatch, rfl⟩
            exact ⟨some operator, .hit hMatch, _, 0, rfl,
              rfl, rfl⟩
        | failed => exact absurd rfl hMatched
        | fatal fault => exact absurd rfl (hSettled fault)
      · have hMiss := (endsIn_map_failed _).mp hFirst
        rcases ih hSecond with ⟨chosen, hRest, hDenotes⟩
        exact ⟨chosen, .miss hMiss hRest, hDenotes.cons _⟩

/- The choice among the matchers comes to what stands for
  the operator that is chosen. -/
theorem endsIn_of_selects
    (first : Nat)
    {chosen : Option Operator}
    (hSelects :
      Selects rules operators state chosen last) :
    ∃ outcome,
      EndsIn rules (choice (numbered first operators)) state
          outcome last ∧
        Denotes first operators chosen outcome := by
  induction hSelects generalizing first with
  | none => exact ⟨.failed, ⟨[], 1, rfl⟩, rfl⟩
  | @hit operator rest state last symbol hMatch =>
      rw [numbered_cons]
      have hFirst :=
        (endsIn_map_matched fun _ => .u64 first).mpr
          ⟨symbol, hMatch, rfl⟩
      exact ⟨_, endsIn_either.mpr (.inl ⟨hFirst, nofun⟩),
        _, 0, rfl, rfl, rfl⟩
  | @miss operator rest state middle last chosen hMiss _ ih =>
      rcases ih (first + 1) with ⟨outcome, hRest, hDenotes⟩
      rw [numbered_cons]
      have hFirst :=
        (endsIn_map_failed fun _ => .u64 first).mpr hMiss
      exact ⟨outcome,
        endsIn_either.mpr (.inr ⟨middle, hFirst, hRest⟩),
        hDenotes.cons operator⟩

/- Where the choice fails, no operator is chosen. -/
theorem endsIn_tagged_failed :
    EndsIn rules (choice (tagged operators)) state .failed
        last ↔
      Selects rules operators state none last := by
  constructor
  · intro hEnds
    rcases selects_of_endsIn hEnds nofun with
      ⟨chosen, hSelects, hDenotes⟩
    cases chosen with
    | none => exact hSelects
    | some operator =>
        rcases hDenotes with ⟨symbol, index, hOutcome, _⟩
        cases hOutcome
  · intro hSelects
    rcases endsIn_of_selects 0 hSelects with
      ⟨outcome, hEnds, rfl⟩
    exact hEnds

/- The value of a match tells which operator is chosen. -/
def Tells
    (operators : List Operator)
    (symbol : Match)
    (operator : Operator) :
    Prop :=
  ∀ left right,
    combineAt operators left symbol.value right =
      operator.combine left right

theorem tells_of_denotes
    {operator : Operator}
    {outcome : Outcome Match}
    (hDenotes :
      Denotes 0 operators (some operator) outcome) :
    ∃ symbol, outcome = .matched symbol ∧
      Tells operators symbol operator := by
  rcases hDenotes with
    ⟨symbol, index, hOutcome, hValue, hIndex⟩
  refine ⟨symbol, hOutcome, ?_⟩
  intro left right
  rw [Nat.zero_add] at hValue
  simp only [combineAt, hValue, hIndex]

theorem exists_selects_of_matched
    {symbol : Match}
    (hEnds :
      EndsIn rules (choice (tagged operators)) state
        (.matched symbol) last) :
    ∃ operator,
      Selects rules operators state (some operator) last ∧
        Tells operators symbol operator := by
  rcases selects_of_endsIn hEnds nofun with
    ⟨chosen, hSelects, hDenotes⟩
  cases chosen with
  | none => cases hDenotes
  | some operator =>
      rcases tells_of_denotes hDenotes with
        ⟨_, hOutcome, hTells⟩
      cases hOutcome
      exact ⟨operator, hSelects, hTells⟩

theorem exists_matched_of_selects
    {operator : Operator}
    (hSelects :
      Selects rules operators state (some operator) last) :
    ∃ symbol,
      EndsIn rules (choice (tagged operators)) state
          (.matched symbol) last ∧
        Tells operators symbol operator := by
  rcases endsIn_of_selects 0 hSelects with
    ⟨outcome, hEnds, hDenotes⟩
  rcases tells_of_denotes hDenotes with
    ⟨symbol, rfl, hTells⟩
  exact ⟨symbol, hEnds, hTells⟩

/- To choose an operator is to go on from where one
  stands. -/
theorem Selects.leads
    {chosen : Option Operator}
    (hInside : state.cursor.Inside)
    (hSelects :
      Selects rules operators state chosen last) :
    state.cursor.Leads last.cursor := by
  induction hSelects with
  | none => exact .refl hInside
  | hit hMatch => exact hMatch.leads hInside
  | miss hMiss _ ih =>
      have hLeads := hMiss.leads hInside
      exact hLeads.trans (ih hLeads.last_inside)

end Operator

end ByteGrammar

------------------------------------------------------------
-- The First That Matches
------------------------------------------------------------

namespace ByteGrammar

namespace Operator

open ByteGrammar.Parser

/- The operator is the first in the list whose matcher
  matches on the state; without one, all matchers fail
  there. -/
def IsFirst
    (rules : Rules)
    (operators : List Operator)
    (state : State) :
    Option Operator → Prop
  | none => ∀ operator ∈ operators, ∃ last,
      EndsIn rules operator.matcher state .failed last
  | some operator => ∃ before after,
      operators = before ++ operator :: after ∧
        (∀ other ∈ before, ∃ last,
          EndsIn rules other.matcher state .failed last) ∧
        ∃ symbol last,
          EndsIn rules operator.matcher state
            (.matched symbol) last

variable {rules : Rules}
variable {operators : List Operator}
variable {chosen : Option Operator}
variable {state state' last : State}

theorem IsFirst.of_samePlace
    (hPlace : state.cursor.SamePlace state'.cursor)
    (hContext : state.context = state'.context)
    (hFirst : IsFirst rules operators state chosen) :
    IsFirst rules operators state' chosen := by
  cases chosen with
  | none =>
      intro operator hMember
      rcases hFirst operator hMember with ⟨last, hEnds⟩
      exact hEnds.of_samePlace hPlace hContext
  | some operator =>
      rcases hFirst with
        ⟨before, after, hSplit, hBefore, symbol, last,
          hMatch⟩
      refine ⟨before, after, hSplit, ?_, symbol,
        hMatch.of_samePlace hPlace hContext⟩
      intro other hMember
      rcases hBefore other hMember with ⟨last, hEnds⟩
      exact hEnds.of_samePlace hPlace hContext

theorem IsFirst.cons
    {operator : Operator}
    (hMiss :
      EndsIn rules operator.matcher state .failed last)
    (hFirst : IsFirst rules operators state chosen) :
    IsFirst rules (operator :: operators) state chosen := by
  cases chosen with
  | none =>
      intro other hMember
      rcases List.mem_cons.mp hMember with rfl | hRest
      · exact ⟨last, hMiss⟩
      · exact hFirst other hRest
  | some found =>
      rcases hFirst with
        ⟨before, after, hSplit, hBefore, hMatch⟩
      refine ⟨operator :: before, after, ?_, ?_, hMatch⟩
      · rw [hSplit, List.cons_append]
      · intro other hMember
        rcases List.mem_cons.mp hMember with rfl | hRest
        · exact ⟨last, hMiss⟩
        · exact hBefore other hRest

/- The operator that is chosen is the first that matches
  where it is chosen. -/
theorem Selects.isFirst
    (hInside : state.cursor.Inside)
    (hSelects :
      Selects rules operators state chosen last) :
    IsFirst rules operators state chosen := by
  induction hSelects with
  | none => exact nofun
  | hit hMatch => exact ⟨[], _, rfl, nofun, _, _, hMatch⟩
  | @miss operator rest state middle last chosen hMiss _ ih =>
      have hLeads := hMiss.leads hInside
      have hPlace : middle.cursor.SamePlace state.cursor :=
        ⟨hLeads.data,
          congrArg Checkpoint.position hMiss.checkpoint_eq⟩
      have hFirst := ih hLeads.last_inside
      exact (hFirst.of_samePlace hPlace
        hMiss.context_eq).cons hMiss

end Operator

end ByteGrammar
