import ByteGrammar.Proofs.Engine.Forms
import ByteGrammar.Proofs.Operators.Chosen
import ByteGrammar.Proofs.Repetition.Sequences
import ByteGrammar.Proofs.Terminals.Scanning

/-
  Where a choice between texts fails.

  A text that breaks off is reached as far as it is met, and
  a text behind another one from where that one stops. So a
  row of texts is reached as far as it agrees with the bytes,
  wherever it is cut, and a choice between such rows as far
  as the best of them agrees.

  Main declarations:
    * `Terminal.commonLength_append`,
      `Terminal.commonLength_append_of_broken`
    * `Agreement`, `Agreement.unique`,
      `agreement_furthestMet`
    * `State.touch_touch`, `State.backTo_touch_advance`
    * `Parser.EndsIn.sequence_failed`,
      `Parser.EndsIn.sequence_failed_behind`
    * `Wording`, `Wording.endsIn_of_start`,
      `Wording.endsIn_of_broken`
    * `Wording.endsIn_choice_matched`,
      `Wording.endsIn_choice_failed`
    * `Wording.choice_specified`
-/

------------------------------------------------------------
-- Common Starts
------------------------------------------------------------

namespace ByteGrammar

namespace Terminal

theorem commonLength_append
    (front bytes more : List UInt8) :
    commonLength (front ++ bytes) (front ++ more) =
      front.length + commonLength bytes more := by
  induction front with
  | nil => simp
  | cons byte front ih =>
      rw [List.cons_append, List.cons_append, commonLength,
        if_pos rfl, ih, List.length_cons, Nat.add_right_comm]

/- What follows the break is not met. -/
theorem commonLength_append_of_broken
    {bytes front : List UInt8}
    (hBreaks : ¬ front <+: bytes)
    (more : List UInt8) :
    commonLength bytes (front ++ more) =
      commonLength bytes front := by
  fun_induction commonLength bytes front with
  | case1 rest byte front ih =>
      have hRest : ¬ front <+: rest := by
        intro hPrefix
        exact hBreaks
          (List.cons_prefix_cons.mpr ⟨rfl, hPrefix⟩)
      rw [List.cons_append, commonLength, if_pos rfl,
        ih hRest]
  | case2 byte rest expected front hByte =>
      rw [List.cons_append, commonLength, if_neg hByte]
  | case3 bytes front hNone =>
      cases front with
      | nil => exact absurd List.nil_prefix hBreaks
      | cons expected front =>
          cases bytes with
          | nil => rfl
          | cons byte rest =>
              exact absurd rfl
                (hNone byte rest expected front rfl)

theorem exists_shared
    (bytes content : List UInt8) :
    ∃ shared, shared <+: bytes ∧ shared <+: content ∧
      shared.length = commonLength bytes content := by
  fun_induction commonLength bytes content with
  | case1 rest byte more ih =>
      rcases ih with ⟨shared, hBytes, hContent, hLength⟩
      exact ⟨byte :: shared,
        List.cons_prefix_cons.mpr ⟨rfl, hBytes⟩,
        List.cons_prefix_cons.mpr ⟨rfl, hContent⟩,
        congrArg (· + 1) hLength⟩
  | case2 => exact ⟨[], List.nil_prefix, List.nil_prefix, rfl⟩
  | case3 => exact ⟨[], List.nil_prefix, List.nil_prefix, rfl⟩

theorem length_le_commonLength
    {shared bytes content : List UInt8}
    (hBytes : shared <+: bytes)
    (hContent : shared <+: content) :
    shared.length ≤ commonLength bytes content := by
  rcases hBytes with ⟨rest, rfl⟩
  rcases hContent with ⟨more, rfl⟩
  rw [commonLength_append]
  exact Nat.le_add_right _ _

end Terminal

/-
  How far some bytes agree with the best of some contents:
  the greatest length of a common start, or nothing if there
  are no contents.
-/
structure Agreement
    (bytes : List UInt8)
    (contents : List (List UInt8))
    (length : Nat) :
    Prop where
  met :
    length = 0 ∨
      ∃ content ∈ contents, ∃ shared, shared <+: bytes ∧
        shared <+: content ∧ shared.length = length
  longest : ∀ content ∈ contents, ∀ shared,
    shared <+: bytes → shared <+: content →
      shared.length ≤ length

namespace Agreement

variable {bytes : List UInt8}
variable {contents : List (List UInt8)}
variable {length other : Nat}

theorem le_length
    (hAgreement : Agreement bytes contents length) :
    length ≤ bytes.length := by
  rcases hAgreement.met with hNone | ⟨_, _, _, hBytes, _, rfl⟩
  · rw [hNone]
    exact Nat.zero_le _
  · exact hBytes.length_le

theorem le
    (hAgreement : Agreement bytes contents length)
    (hOther : Agreement bytes contents other) :
    length ≤ other := by
  rcases hAgreement.met with hNone |
    ⟨content, hContent, shared, hBytes, hShared, rfl⟩
  · rw [hNone]
    exact Nat.zero_le _
  · exact hOther.longest content hContent shared hBytes
      hShared

theorem unique
    (hAgreement : Agreement bytes contents length)
    (hOther : Agreement bytes contents other) :
    length = other :=
  Nat.le_antisymm (hAgreement.le hOther)
    (hOther.le hAgreement)

end Agreement

/- The furthest that any content is met. -/
def furthestMet
    (bytes : List UInt8) :
    List (List UInt8) → Nat
  | [] => 0
  | content :: contents =>
      max (Terminal.commonLength bytes content)
        (furthestMet bytes contents)

theorem agreement_furthestMet
    (bytes : List UInt8)
    (contents : List (List UInt8)) :
    Agreement bytes contents (furthestMet bytes contents) := by
  induction contents with
  | nil => exact ⟨.inl rfl, nofun⟩
  | cons content contents ih =>
      rw [furthestMet]
      constructor
      · rcases Nat.le_total (furthestMet bytes contents)
            (Terminal.commonLength bytes content) with
          hLess | hMore
        · rw [Nat.max_eq_left hLess]
          exact .inr ⟨content, List.mem_cons_self,
            Terminal.exists_shared bytes content⟩
        · rw [Nat.max_eq_right hMore]
          rcases ih.met with hNone | ⟨other, hOther, hShared⟩
          · exact .inl hNone
          · exact .inr ⟨other,
              List.mem_cons_of_mem content hOther, hShared⟩
      · rw [List.forall_mem_cons]
        refine ⟨?_, ?_⟩
        · intro shared hBytes hContent
          exact Nat.le_trans
            (Terminal.length_le_commonLength hBytes hContent)
            (Nat.le_max_left _ _)
        · intro other hOther shared hBytes hContent
          exact Nat.le_trans
            (ih.longest other hOther shared hBytes hContent)
            (Nat.le_max_right _ _)

end ByteGrammar

------------------------------------------------------------
-- Moving On and Reaching Ahead
------------------------------------------------------------

namespace ByteGrammar

namespace State

/- To reach ahead changes the furthest position only. -/
theorem touch_eq
    (state : State)
    (count : Nat) :
    state.touch count =
      { state with
        cursor :=
          { state.cursor with
            furthest :=
              max state.cursor.furthest
                (min (state.cursor.position + count)
                  state.cursor.data.length) } } :=
  rfl

theorem touch_touch
    (state : State)
    (first second : Nat) :
    (state.touch first).touch second =
      state.touch (max first second) := by
  have hFurthest :
      max
          (max state.cursor.furthest
            (min (state.cursor.position + first)
              state.cursor.data.length))
          (min (state.cursor.position + second)
            state.cursor.data.length) =
        max state.cursor.furthest
          (min (state.cursor.position + max first second)
            state.cursor.data.length) := by
    omega
  simp only [touch_eq, hFurthest]

theorem touch_zero
    {state : State}
    (hSound : state.cursor.Sound) :
    state.touch 0 = state := by
  have hFurthest :
      max state.cursor.furthest
          (min (state.cursor.position + 0)
            state.cursor.data.length) =
        state.cursor.furthest := by
    rcases hSound with ⟨hOrder, _⟩
    omega
  rw [touch_eq, hFurthest]

theorem sound_touch
    {state : State}
    (hSound : state.cursor.Sound)
    (count : Nat) :
    (state.touch count).cursor.Sound := by
  rcases hSound with ⟨hOrder, hEnd⟩
  exact ⟨Nat.le_trans hOrder (Nat.le_max_left _ _),
    Nat.max_le.mpr ⟨hEnd, Nat.min_le_right _ _⟩⟩

/- What is reached behind some bytes is reached ahead. -/
theorem backTo_touch_advance
    (state : State)
    (count more : Nat) :
    ((state.advance count).touch more).backTo state =
      state.touch (count + more) := by
  have hFurthest :
      max
          (max state.cursor.furthest
            (min (state.cursor.position + count)
              state.cursor.data.length))
          (min
            (min (state.cursor.position + count)
                state.cursor.data.length + more)
            state.cursor.data.length) =
        max state.cursor.furthest
          (min (state.cursor.position + (count + more))
            state.cursor.data.length) := by
    omega
  rw [touch_eq state, ← hFurthest]
  rfl

theorem advance_advance
    (state : State)
    (first second : Nat) :
    (state.advance first).advance second =
      state.advance (first + second) := by
  have hPosition :
      min
          (min (state.cursor.position + first)
              state.cursor.data.length + second)
          state.cursor.data.length =
        min (state.cursor.position + (first + second))
          state.cursor.data.length := by
    omega
  have hFurthest :
      max
          (max state.cursor.furthest
            (min (state.cursor.position + first)
              state.cursor.data.length))
          (min (state.cursor.position + (first + second))
            state.cursor.data.length) =
        max state.cursor.furthest
          (min (state.cursor.position + (first + second))
            state.cursor.data.length) := by
    omega
  simp only [advance, Cursor.advance, hPosition, hFurthest]

end State

end ByteGrammar

------------------------------------------------------------
-- Sequences That Fail
------------------------------------------------------------

namespace ByteGrammar

namespace Parser.EndsIn

open ByteGrammar.Action

variable {rules : Rules}
variable {join : Value → Value → Value}
variable {first second : Parser}
variable {state middle last : State}
variable {found : Match}

theorem sequence_failed
    (hFirst : EndsIn rules first state .failed middle) :
    EndsIn rules (.sequence join first second) state .failed
      middle := by
  rcases hFirst with ⟨events, depth, hRun⟩
  exact ⟨events, depth + 1, sequence_of_failed hRun⟩

theorem sequence_failed_behind
    (hFirst :
      EndsIn rules first state (.matched found) middle)
    (hSecond : EndsIn rules second middle .failed last) :
    EndsIn rules (.sequence join first second) state .failed
      (last.backTo state) := by
  rcases hFirst.exists_least with ⟨least, events, hRun⟩
  rcases hSecond.exists_least with ⟨least', more, hRun'⟩
  have hLeft := hRun _ (Nat.le_max_left least least')
  have hRight := hRun' _ (Nat.le_max_right least least')
  exact ⟨events ++ more, max least least' + 1,
    sequence_of_second_failed hLeft hRight⟩

end Parser.EndsIn

end ByteGrammar

------------------------------------------------------------
-- Rows of Texts
------------------------------------------------------------

namespace ByteGrammar

/- Texts in a row, in sequences of two. -/
inductive Wording where
  | text (words : String)
  | both
      (join : Value → Value → Value)
      (first second : Wording)

namespace Wording

open ByteGrammar.Parser

/- The parser of a row of texts. -/
def parser :
    Wording → Parser
  | .text words => .terminal (.text words)
  | .both join first second =>
      .sequence join first.parser second.parser

/- The text of the row. -/
def content :
    Wording → String
  | .text words => words
  | .both _ first second => first.content ++ second.content

/- The value of the row. -/
def value :
    Wording → Value
  | .text words => .str words
  | .both join first second => join first.value second.value

/- The bytes of the row. -/
def bytes
    (wording : Wording) :
    List UInt8 :=
  Utf8.encode wording.content

theorem bytes_both
    (join : Value → Value → Value)
    (first second : Wording) :
    (Wording.both join first second).bytes =
      first.bytes ++ second.bytes :=
  Utf8.encode_append _ _

theorem unscoped_row
    (wording : Wording) :
    wording.parser.Every (·.isScoped = false) := by
  induction wording with
  | text words => exact ⟨rfl, trivial⟩
  | both join first second ihFirst ihSecond =>
      exact ⟨rfl, ihFirst, ihSecond⟩

variable {rules : Rules}
variable {state : State}
variable {wording : Wording}

theorem inside_of_start
    {bytes : List UInt8}
    (hInside : state.cursor.Inside)
    (hPrefix : bytes <+: state.cursor.remaining) :
    state.cursor.position + bytes.length ≤
      state.cursor.data.length := by
  have hLength := hPrefix.length_le
  rw [Cursor.remaining, List.length_drop] at hLength
  have hInside' :
      state.cursor.position ≤ state.cursor.data.length :=
    hInside
  omega

/- A row that the bytes start with is matched. -/
theorem endsIn_of_start
    (hInside : state.cursor.Inside)
    (hPrefix : wording.bytes <+: state.cursor.remaining) :
    EndsIn rules wording.parser state
      (.matched ⟨state.cursor.position,
        state.cursor.position + wording.bytes.length,
        wording.value⟩)
      (state.advance wording.bytes.length) := by
  induction wording generalizing state with
  | text words =>
      have hHit :
          (Terminal.text words).scan state.cursor.remaining =
            .hit (Utf8.encode words).length
              fun _ => .str words :=
        Terminal.scanText_hit hPrefix
      have hStop :
          (state.advance
              (Utf8.encode words).length).cursor.position =
            _ :=
        Cursor.position_advance
          (inside_of_start hInside hPrefix)
      have hScan := Action.scan_of_hit hHit
      rw [hStop] at hScan
      exact endsIn_terminal.mpr ⟨[], hScan⟩
  | both join first second ihFirst ihSecond =>
      rw [bytes_both] at hPrefix ⊢
      rcases hPrefix with ⟨rest, hRest⟩
      rw [List.append_assoc] at hRest
      have hFirst : first.bytes <+: state.cursor.remaining :=
        ⟨second.bytes ++ rest, hRest⟩
      have hMiddle := inside_of_start hInside hFirst
      have hRemaining := State.remaining_advance hMiddle
      rw [← hRest, List.drop_left] at hRemaining
      have hBehind :
          (state.advance
            first.bytes.length).cursor.Inside :=
        Cursor.position_advance_le _ _
      have hSecond :=
        ihSecond hBehind ⟨rest, hRemaining.symm⟩
      have hStop :
          (state.advance first.bytes.length).cursor.position =
            _ :=
        Cursor.position_advance hMiddle
      rw [hStop, State.advance_advance, Nat.add_assoc] at hSecond
      rw [List.length_append]
      exact endsIn_sequence_matched.mpr
        ⟨_, _, _, ihFirst hInside hFirst, hSecond, rfl⟩

/- Any other row fails, and is reached as far as it agrees
  with the bytes. -/
theorem endsIn_of_broken
    (hInside : state.cursor.Inside)
    (hBreaks : ¬ wording.bytes <+: state.cursor.remaining) :
    EndsIn rules wording.parser state .failed
      (state.touch
        (Terminal.commonLength state.cursor.remaining
          wording.bytes)) := by
  induction wording generalizing state with
  | text words =>
      have hBroken :
          (Terminal.text words).scan state.cursor.remaining =
            .broken _ :=
        Terminal.scanText_miss hBreaks
      exact endsIn_terminal.mpr
        ⟨[], Action.scan_of_broken hBroken⟩
  | both join first second ihFirst ihSecond =>
      rw [bytes_both] at hBreaks ⊢
      -- The row breaks off behind its first part or in it.
      by_cases hFirst : first.bytes <+: state.cursor.remaining
      · have hBehind :
            (state.advance
              first.bytes.length).cursor.Inside :=
          Cursor.position_advance_le _ _
        have hMatched :
            EndsIn rules first.parser state _ _ :=
          endsIn_of_start hInside hFirst
        have hRemaining :=
          State.remaining_advance
            (inside_of_start hInside hFirst)
        rcases hFirst with ⟨rest, hRest⟩
        rw [← hRest, List.drop_left] at hRemaining
        rw [← hRest, List.prefix_append_right_inj] at hBreaks
        rw [← hRemaining] at hBreaks
        have hEnds :
            EndsIn rules
              (.sequence join first.parser second.parser)
              state .failed _ :=
          hMatched.sequence_failed_behind
            (ihSecond hBehind hBreaks)
        rw [hRemaining, State.backTo_touch_advance,
          ← Terminal.commonLength_append, hRest] at hEnds
        exact hEnds
      · rw [Terminal.commonLength_append_of_broken hFirst]
        exact (ihFirst hInside hFirst).sequence_failed

/- A choice matches the first row that the bytes start
  with. -/
theorem endsIn_choice_matched
    {before : List Wording}
    (hSound : state.cursor.Sound)
    (hBefore : ∀ earlier ∈ before,
      ¬ earlier.bytes <+: state.cursor.remaining)
    (hPrefix : wording.bytes <+: state.cursor.remaining)
    (after : List Wording) :
    ∃ reached,
      EndsIn rules
        (choice
          ((before ++ wording :: after).map Wording.parser))
        state
        (.matched ⟨state.cursor.position,
          state.cursor.position + wording.bytes.length,
          wording.value⟩)
        ((state.touch reached).advance
          wording.bytes.length) := by
  have hInside : state.cursor.Inside := hSound.inside
  induction before generalizing state with
  | nil =>
      refine ⟨0, ?_⟩
      rw [State.touch_zero hSound]
      exact endsIn_either.mpr
        (.inl ⟨endsIn_of_start hInside hPrefix, nofun⟩)
  | cons earlier before ih =>
      rw [List.forall_mem_cons] at hBefore
      have hFailed :
          EndsIn rules earlier.parser state .failed _ :=
        endsIn_of_broken hInside hBefore.1
      rcases ih (State.sound_touch hSound _) hBefore.2 hPrefix
          hInside with
        ⟨reached, hEnds⟩
      rw [State.touch_touch] at hEnds
      exact ⟨_, endsIn_either.mpr
        (.inr ⟨_, hFailed, hEnds⟩)⟩

/- Without one, it fails, and is reached as far as the best
  of them agrees. -/
theorem endsIn_choice_failed
    {wordings : List Wording}
    (hSound : state.cursor.Sound)
    (hNone : ∀ wording ∈ wordings,
      ¬ wording.bytes <+: state.cursor.remaining) :
    EndsIn rules (choice (wordings.map Wording.parser)) state
      .failed
      (state.touch
        (furthestMet state.cursor.remaining
          (wordings.map Wording.bytes))) := by
  induction wordings generalizing state with
  | nil =>
      rw [List.map_nil, List.map_nil, furthestMet,
        State.touch_zero hSound]
      exact endsIn_terminal.mpr ⟨[], Action.scan_of_miss rfl⟩
  | cons wording wordings ih =>
      rw [List.forall_mem_cons] at hNone
      have hFailed :
          EndsIn rules wording.parser state .failed _ :=
        endsIn_of_broken hSound.inside hNone.1
      refine endsIn_either.mpr (.inr ⟨_, hFailed, ?_⟩)
      -- The rest starts where this row did, with what it
      -- reached on record.
      rw [List.map_cons, furthestMet, ← State.touch_touch]
      exact ih (State.sound_touch hSound _) hNone.2

theorem unscoped_choice_map
    (wordings : List Wording) :
    (choice (wordings.map Wording.parser)).Every
      (·.isScoped = false) := by
  apply unscoped_choice
  intro part hPart
  rcases List.mem_map.mp hPart with ⟨wording, _, rfl⟩
  exact unscoped_row wording

end Wording

end ByteGrammar

------------------------------------------------------------
-- Whole Inputs
------------------------------------------------------------

namespace ByteGrammar

/- Where a parse of a whole input starts. -/
def State.ofInput
    (options : Options)
    (input : String) :
    State :=
  ⟨.ofBytes (Utf8.encode input), .fresh options⟩

/- Without scopes, a parse is deep enough to report what the
  parser comes to. -/
theorem Parser.EndsIn.tryParse_of_unscoped
    {rules : Rules}
    {parser : Parser}
    {options : Options}
    {input : String}
    {outcome : Outcome Match}
    {last : State}
    (hEnds :
      EndsIn rules parser (.ofInput options input) outcome
        last)
    (hUnscoped : parser.Every (·.isScoped = false)) :
    ∃ events, tryParse rules parser options input =
      some (.ofStep (Utf8.encode input) options.requireEof
        ⟨outcome, last, events⟩) := by
  rcases hEnds with ⟨events, depth, hRun⟩
  have hParse :
      parser.parse rules (.ofInput options input) =
        some ⟨outcome, last, events⟩ :=
    run_refines_of_unscoped depth hUnscoped
      (size_le_depth rules parser _) _ _ hRun
  exact ⟨events, congrArg (Option.map _) hParse⟩

/- A match is reported unless something is left over. -/
theorem Report.result_ofStep_matched
    {code : List UInt8}
    {found : Match}
    {last : State}
    {stop : Nat}
    (hData : last.cursor.data = code)
    (hStop : last.cursor.position = stop)
    (requireEof : Bool)
    (events : List Event) :
    (ofStep code requireEof
        ⟨.matched found, last, events⟩).result =
      if requireEof = true ∧ stop < code.length then
        .error (.trailingInput ⟨code, stop⟩)
      else .ok found.value := by
  have hLeft :
      (requireEof && !last.cursor.atEnd) = true ↔
        requireEof = true ∧ stop < code.length := by
    simp [Cursor.atEnd, hData, hStop]
  by_cases hTrailing : requireEof = true ∧ stop < code.length
  · rw [if_pos hTrailing]
    simp only [ofStep, if_pos (hLeft.mpr hTrailing), hStop]
  · rw [if_neg hTrailing]
    simp only [ofStep, if_neg (mt hLeft.mp hTrailing)]

namespace Wording

open ByteGrammar.Parser

variable {input : String}

theorem tryParse_choice_failed
    {wordings : List Wording}
    (rules : Rules)
    (options : Options)
    (hNone : ∀ wording ∈ wordings,
      ¬ wording.bytes <+: Utf8.encode input) :
    let position :=
      furthestMet (Utf8.encode input)
        (wordings.map Wording.bytes)
    ∃ report,
      tryParse rules (choice (wordings.map Wording.parser))
          options input =
        some report ∧
      report.result =
        .error (.noMatch ⟨Utf8.encode input, position⟩) := by
  intro position
  have hEnds :
      EndsIn rules (choice (wordings.map Wording.parser))
        (.ofInput options input) .failed
        (State.touch (.ofInput options input) position) :=
    endsIn_choice_failed (Cursor.sound_ofBytes _) hNone
  rcases hEnds.tryParse_of_unscoped
      (unscoped_choice_map wordings) with
    ⟨events, hParse⟩
  refine ⟨_, hParse, ?_⟩
  have hInside : position ≤ (Utf8.encode input).length :=
    (agreement_furthestMet _ _).le_length
  have hFurthest :
      max 0 (min (0 + position) (Utf8.encode input).length) =
        position := by
    omega
  exact congrArg
    (fun furthest => Except.error
      (Failure.noMatch ⟨Utf8.encode input, furthest⟩))
    hFurthest

theorem tryParse_choice_matched
    {before : List Wording}
    {wording : Wording}
    (rules : Rules)
    (options : Options)
    (hBefore : ∀ earlier ∈ before,
      ¬ earlier.bytes <+: Utf8.encode input)
    (hPrefix : wording.bytes <+: Utf8.encode input)
    (after : List Wording) :
    ∃ report,
      tryParse rules
          (choice
            ((before ++ wording :: after).map Wording.parser))
          options input =
        some report ∧
      report.result =
        if options.requireEof = true ∧
            wording.bytes.length <
              (Utf8.encode input).length then
          .error (.trailingInput
            ⟨Utf8.encode input, wording.bytes.length⟩)
        else .ok wording.value := by
  have hSound :
      (State.ofInput options input).cursor.Sound :=
    Cursor.sound_ofBytes _
  rcases endsIn_choice_matched hSound hBefore hPrefix after
    with ⟨reached, hEnds⟩
  rcases hEnds.tryParse_of_unscoped
      (unscoped_choice_map _) with
    ⟨events, hParse⟩
  refine ⟨_, hParse, ?_⟩
  have hStop :
      min (0 + wording.bytes.length)
          (Utf8.encode input).length =
        wording.bytes.length := by
    have hLength := hPrefix.length_le
    omega
  exact Report.result_ofStep_matched rfl hStop _ events

/-
  What a whole parse of a choice between rows of texts comes
  to. If the input starts with none of them, there is no
  match, at the position up to which the best of them agrees
  with the input. Otherwise the first that the input starts
  with is matched, and what is left over behind it is an
  error where the end is required.
-/
theorem choice_specified
    (rules : Rules)
    (wordings : List Wording)
    (options : Options)
    (input : String) :
    let code := Utf8.encode input
    ∃ report,
      tryParse rules (choice (wordings.map Wording.parser))
          options input =
        some report ∧
      ((∀ wording ∈ wordings, ¬ wording.bytes <+: code) →
        ∃ position,
          Agreement code (wordings.map Wording.bytes)
            position ∧
          report.result =
            .error (.noMatch ⟨code, position⟩)) ∧
      (∀ before wording after,
        wordings = before ++ wording :: after →
          (∀ earlier ∈ before, ¬ earlier.bytes <+: code) →
            wording.bytes <+: code →
              report.result =
                if options.requireEof = true ∧
                    wording.bytes.length < code.length then
                  .error (.trailingInput
                    ⟨code, wording.bytes.length⟩)
                else .ok wording.value) := by
  intro code
  cases hFind :
      wordings.find? fun wording =>
        wording.bytes.isPrefixOf code with
  | none =>
      have hNone : ∀ wording ∈ wordings,
          ¬ wording.bytes <+: code := by
        intro wording hWording hPrefix
        exact List.find?_eq_none.mp hFind wording hWording
          (List.isPrefixOf_iff_prefix.mpr hPrefix)
      rcases tryParse_choice_failed rules options hNone with
        ⟨report, hParse, hResult⟩
      refine ⟨report, hParse, ?_, ?_⟩
      · intro _
        exact ⟨_, agreement_furthestMet _ _, hResult⟩
      · rintro before wording after rfl _ hPrefix
        exact absurd hPrefix (hNone wording (by simp))
  | some wording =>
      rcases List.find?_eq_some_iff_append.mp hFind with
        ⟨hHit, before, after, hWordings, hBefore⟩
      have hPrefix : wording.bytes <+: code :=
        List.isPrefixOf_iff_prefix.mp hHit
      have hEarlier : ∀ earlier ∈ before,
          ¬ earlier.bytes <+: code := by
        intro earlier hMem hStarts
        have hMissed := hBefore earlier hMem
        rw [List.isPrefixOf_iff_prefix.mpr hStarts] at hMissed
        cases hMissed
      rcases tryParse_choice_matched rules options hEarlier
          hPrefix after with
        ⟨report, hParse, -⟩
      rw [← hWordings] at hParse
      refine ⟨report, hParse, ?_, ?_⟩
      · intro hNone
        exact absurd hPrefix
          (hNone wording (by simp [hWordings]))
      · rintro before' wording' after' rfl hBefore' hPrefix'
        rcases tryParse_choice_matched rules options hBefore'
            hPrefix' after' with
          ⟨report', hParse', hResult⟩
        cases hParse.symm.trans hParse'
        exact hResult

/- A row that is met further than another one, which breaks
  off behind its first text, and a row with something left
  over behind it. -/
theorem choice_specified_shared_start :
    let wordings : List Wording :=
      [.text "hex", .both .pair (.text "he") (.text "llo"),
        .text "heap"]
    let parser := choice (wordings.map Wording.parser)
    (∃ report,
      tryParse .empty parser .standard "help" =
          some report ∧
        report.result =
          .error (.noMatch ⟨Utf8.encode "help", 3⟩)) ∧
      ∃ report,
        tryParse .empty parser .standard "hellos" =
            some report ∧
          report.result =
            .error (.trailingInput
              ⟨Utf8.encode "hellos", 5⟩) := by
  intro wordings parser
  rcases choice_specified .empty wordings .standard "help"
    with ⟨report, hParse, hNone, _⟩
  rcases choice_specified .empty wordings .standard "hellos"
    with ⟨report', hParse', _, hFirst⟩
  rcases hNone (by decide) with
    ⟨position, hAgreement, hResult⟩
  have hPosition : position = 3 :=
    hAgreement.unique (agreement_furthestMet _ _)
  rw [hPosition] at hResult
  refine ⟨⟨report, hParse, hResult⟩, report', hParse', ?_⟩
  exact hFirst [.text "hex"] _ [.text "heap"] rfl (by decide)
    (by decide)

end Wording

end ByteGrammar
