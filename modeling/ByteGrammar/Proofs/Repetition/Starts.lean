import ByteGrammar.Grammar.Operators
import ByteGrammar.Proofs.Repetition.Elements

/-
  Where the matches of compound parsers start.

  Sequences, lists and levels start where their first part
  does. A repetition starts where it was tried, so that it
  takes in what its first element leaves out: the blanks
  before a token.

  Main declarations:
    * `Action.StartsWith`, `Action.startsWith_bind`
    * `Parser.StartsWith`
    * `Parser.starts_of_repetitions`
-/

------------------------------------------------------------
-- The First Part
------------------------------------------------------------

namespace ByteGrammar

namespace Action

/- A match of the action starts where one of its first part
  does. -/
def StartsWith
    (first action : Action Match) :
    Prop :=
  ∀ state, Ensures action state fun found _ =>
    ∃ part middle events,
      first state =
          some ⟨.matched part, middle, events⟩ ∧
        found.start = part.start

/- What comes after the first part has to keep its start. -/
theorem startsWith_bind
    {first : Action Match}
    {next : Match → Action Match}
    (hNext : ∀ part middle,
      Ensures (next part) middle fun found _ =>
        found.start = part.start) :
    StartsWith first (bind first next) := by
  intro state
  constructor
  intro found last events hStep
  cases bind_ends hStep with
  | matched hFirst hMore =>
      exact ⟨_, _, _, hFirst,
        (hNext _ _).matched _ _ _ hMore⟩

theorem startsWith_bindReverting
    {first : Action Match}
    {next : Match → Action Match}
    (hNext : ∀ part middle,
      Ensures (next part) middle fun found _ =>
        found.start = part.start) :
    StartsWith first (bindReverting first next) := by
  intro state
  constructor
  intro found last events hStep
  cases bindReverting_ends hStep with
  | matched hFirst hMore =>
      exact ⟨_, _, _, hFirst,
        (hNext _ _).matched _ _ _ hMore⟩

theorem startsWith_sequence
    (join : Value → Value → Value)
    (first second : Action Match) :
    StartsWith first (sequence join first second) := by
  apply startsWith_bindReverting
  intro left middle
  apply Ensures.bind_any
  intro right last
  exact .pure rfl

theorem startsWith_between
    (opening content closing : Action Match) :
    StartsWith opening
      (between opening content closing) := by
  apply startsWith_bindReverting
  intro left middle
  apply Ensures.bind_any
  intro inner after
  apply Ensures.bind_any
  intro right last
  exact .pure rfl

theorem startsWith_separatedList
    (item separator : Action Match) :
    StartsWith item (separatedList item separator) := by
  apply startsWith_bind
  intro first middle
  apply Ensures.bind_any
  intro taken last
  exact .pure rfl

theorem startsWith_chain
    (combine : Value → Value → Value → Value)
    (operand operator : Action Match) :
    StartsWith operand
      (chain combine operand operator) := by
  apply startsWith_bind
  intro first middle
  apply Ensures.bind_any
  intro taken last
  exact .pure rfl

end Action

namespace Parser

/- A match of the parser starts where one of its first part
  does. -/
def StartsWith
    (rules : Rules)
    (first parser : Parser) :
    Prop :=
  ∀ state found last,
    EndsIn rules parser state (.matched found) last →
      ∃ part middle,
        EndsIn rules first state (.matched part) middle ∧
          found.start = part.start

theorem startsWith_of_run
    {rules : Rules}
    {first parser : Parser}
    (hRun : ∀ depth,
      Action.StartsWith (first.run rules depth)
        (parser.run rules (depth + 1))) :
    StartsWith rules first parser := by
  rintro state found last ⟨events, depth, hEnds⟩
  cases depth with
  | zero => cases hEnds
  | succ depth =>
      rcases (hRun depth state).matched _ _ _ hEnds with
        ⟨part, middle, taken, hFirst, hStart⟩
      exact ⟨part, middle, .of_run hFirst, hStart⟩

end Parser

end ByteGrammar

------------------------------------------------------------
-- Repetitions
------------------------------------------------------------

namespace ByteGrammar

namespace Parser

open ByteGrammar.Operator

variable {rules : Rules} {parser : Parser}
variable {max : Option Nat}
variable {state last : State}

/- What is collected, if anything, was matched from where
  the repetition starts. -/
theorem Collects.exists_first
    {elements : List Match}
    (hCollects :
      Collects rules parser max state (.matched elements)
        last)
    (hSome : elements ≠ []) :
    ∃ first rest middle,
      elements = first :: rest ∧
        EndsIn rules parser state (.matched first)
          middle := by
  rcases hCollects.exists_inTurn with ⟨here, hTurn, _⟩
  cases hTurn with
  | none => exact absurd rfl hSome
  | first hElement => exact ⟨_, _, _, rfl, hElement⟩

/-
  Where a match starts. That of a repetition of at least one
  element starts where the repetition was tried, whatever
  its first element leaves out before it: it starts where
  that does only if nothing is left out. Sequences, lists
  and levels of operators start where their first part
  does, and leave out what it leaves out.
-/
theorem starts_of_repetitions
    (rules : Rules)
    (parser : Parser)
    {state : State}
    (hInside : state.cursor.Inside) :
    (∀ min max found last,
      0 < min →
        EndsIn rules (.repeated min max parser) state
            (.matched found) last →
          found.start = state.cursor.position ∧
            ∃ first middle rest,
              EndsIn rules parser state (.matched first)
                  middle ∧
                found.start ≤ first.start ∧
                found.value =
                  .list (first.value :: rest)) ∧
    (∀ join second,
      StartsWith rules parser
        (.sequence join parser second)) ∧
    (∀ content closing,
      StartsWith rules parser
        (.between parser content closing)) ∧
    (∀ separator,
      StartsWith rules parser
        (.separatedList parser separator)) ∧
    (∀ operators,
      StartsWith rules parser
        (leftAssociative parser operators)) := by
  refine ⟨?_, ?_, ?_, ?_, ?_⟩
  · intro min max found last hMin hEnds
    rcases (endsIn_repeated hInside).mp hEnds with
      ⟨collected, here, hCollects, hCounts⟩
    cases hCounts with
    | @enough elements _ hEnough =>
        have hSome : elements ≠ [] := by
          rintro rfl
          exact Nat.not_lt.mpr hEnough hMin
        rcases hCollects.exists_first hSome with
          ⟨first, rest, middle, rfl, hFirst⟩
        exact ⟨rfl, first, middle, _, hFirst,
          (hFirst.spans hInside).begins, rfl⟩
  · intro join second
    exact startsWith_of_run fun depth =>
      Action.startsWith_sequence join _ _
  · intro content closing
    exact startsWith_of_run fun depth =>
      Action.startsWith_between _ _ _
  · intro separator
    exact startsWith_of_run fun depth =>
      Action.startsWith_separatedList _ _
  · intro operators
    exact startsWith_of_run fun depth =>
      Action.startsWith_chain _ _ _

/- A token and a repetition of it, tried before a blank. -/
theorem endsIn_after_blank :
    EndsIn .empty (.token (.byte 0x61))
        ⟨.ofBytes [0x20, 0x61], .fresh .standard⟩
        (.matched ⟨1, 2, .byte 0x61⟩)
        ⟨⟨[0x20, 0x61], 2, .origin, 2⟩,
          .fresh .standard⟩ ∧
      EndsIn .empty (.many1 (.token (.byte 0x61)))
        ⟨.ofBytes [0x20, 0x61], .fresh .standard⟩
        (.matched ⟨0, 2, .list [.byte 0x61]⟩)
        ⟨⟨[0x20, 0x61], 2, .origin, 2⟩,
          .fresh .standard⟩ :=
  ⟨⟨[], 5, rfl⟩, [], 5, rfl⟩

/- A blank before the first token is part of a repetition
  of tokens. -/
theorem starts_of_repetitions_blank :
    let parser : Parser := .token (.byte 0x61)
    let state : State :=
      ⟨.ofBytes [0x20, 0x61], .fresh .standard⟩
    let found : Match := ⟨0, 2, .list [.byte 0x61]⟩
    state.cursor.Inside ∧ 0 < 1 ∧
      (∃ last,
        EndsIn .empty (.repeated 1 none parser) state
          (.matched found) last) ∧
      found.start = state.cursor.position ∧
      ∃ first middle rest,
        EndsIn .empty parser state (.matched first)
            middle ∧
          found.start ≤ first.start ∧
          found.value = .list (first.value :: rest) := by
  intro parser state found
  have hInside : state.cursor.Inside := Nat.zero_le _
  have hEnds := endsIn_after_blank.2
  have hStarts :=
    (starts_of_repetitions .empty parser hInside).1 1 none
      found _ Nat.zero_lt_one hEnds
  exact ⟨hInside, Nat.zero_lt_one, ⟨_, hEnds⟩, hStarts⟩

/- So it does not start with its first token. -/
theorem not_startsWith_many1_token :
    ¬ StartsWith .empty (.token (.byte 0x61))
      (.many1 (.token (.byte 0x61))) := by
  intro hStarts
  rcases endsIn_after_blank with ⟨hToken, hTokens⟩
  rcases hStarts _ _ _ hTokens with
    ⟨part, middle, hPart, hStart⟩
  cases (hPart.unique hToken).1
  cases hStart

end Parser

end ByteGrammar
