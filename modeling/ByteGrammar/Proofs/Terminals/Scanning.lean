import ByteGrammar.Proofs.Engine.Equivalence

/-
  What terminals come to.

  A terminal comes to what it finds in the remaining bytes,
  whatever the depth and the context. One that reads a value
  of some length there either takes it, and is then behind
  it, or fails and leaves the state as it is.

  Main declarations:
    * `State.remaining_advance`
    * `Action.scan_of_hit`, `Action.scan_of_broken`,
      `Action.scan_of_miss`
    * `Action.scan_anyByte`, `Action.scan_anyByte_end`
    * `Parser.endsIn_terminal`,
      `Parser.endsIn_terminal_of_scan`
    * `Terminal.ReadsBy`, `Parser.Takes`
    * `Terminal.ReadsBy.endsIn`,
      `Terminal.ReadsBy.endsIn_matched`
-/

------------------------------------------------------------
-- Scans
------------------------------------------------------------

namespace ByteGrammar

/- What is consumed no longer remains. -/
theorem State.remaining_advance
    {state : State}
    {count : Nat}
    (hInside :
      state.cursor.position + count ≤
        state.cursor.data.length) :
    (state.advance count).cursor.remaining =
      state.cursor.remaining.drop count := by
  have hPosition :
      (state.cursor.advance count).position =
        state.cursor.position + count :=
    Cursor.position_advance hInside
  rw [advance, Cursor.remaining, Cursor.remaining, hPosition,
    List.drop_drop]
  rfl

namespace Action

variable {terminal : Terminal}
variable {state : State}

/- What is hit is matched and consumed. -/
theorem scan_of_hit
    {length : Nat}
    {value : Nat → Value}
    (hScan :
      terminal.scan state.cursor.remaining =
        .hit length value) :
    scan terminal state =
      some ⟨.matched ⟨state.cursor.position,
          (state.advance length).cursor.position,
          value state.cursor.position⟩,
        state.advance length, []⟩ := by
  unfold scan
  refine (inspect_bind _ _ state).trans ?_
  refine (inspect_bind _ _ state).trans ?_
  rw [hScan]
  exact (move_bind _ _ state).trans rfl

/- What is met of a terminal that breaks off is reached. -/
theorem scan_of_broken
    {length : Nat}
    (hScan :
      terminal.scan state.cursor.remaining =
        .broken length) :
    scan terminal state =
      some ⟨.failed, state.touch length, []⟩ := by
  unfold scan
  refine (inspect_bind _ _ state).trans ?_
  refine (inspect_bind _ _ state).trans ?_
  rw [hScan]
  exact (move_bind _ _ state).trans rfl

/- What is missed fails, and changes nothing. -/
theorem scan_of_miss
    (hScan : terminal.scan state.cursor.remaining = .miss) :
    scan terminal state = some ⟨.failed, state, []⟩ := by
  unfold scan
  refine (inspect_bind _ _ state).trans ?_
  refine (inspect_bind _ _ state).trans ?_
  rw [hScan]
  rfl

/- Where there is a byte, any byte is that byte. -/
theorem scan_anyByte
    {byte : UInt8}
    {rest : List UInt8}
    (hRemaining : state.cursor.remaining = byte :: rest) :
    scan (.byteWhere fun _ => true) state =
      some ⟨.matched ⟨state.cursor.position,
          (state.advance 1).cursor.position, .byte byte⟩,
        state.advance 1, []⟩ := by
  have hScan :
      Terminal.scan (.byteWhere fun _ => true)
          state.cursor.remaining =
        .hit 1 fun _ => .byte byte := by
    rw [hRemaining]
    rfl
  exact scan_of_hit hScan

theorem scan_anyByte_end
    (hRemaining : state.cursor.remaining = []) :
    scan (.byteWhere fun _ => true) state =
      some ⟨.failed, state, []⟩ := by
  have hScan :
      Terminal.scan (.byteWhere fun _ => true)
        state.cursor.remaining = .miss := by
    rw [hRemaining]
    rfl
  exact scan_of_miss hScan

end Action

end ByteGrammar

------------------------------------------------------------
-- Terminals
------------------------------------------------------------

namespace ByteGrammar

namespace Parser

variable {rules : Rules} {terminal : Terminal}
variable {state last : State}
variable {outcome : Outcome Match}

/- A terminal does what it does to any depth. -/
theorem endsIn_terminal :
    EndsIn rules (.terminal terminal) state outcome last ↔
      ∃ events,
        Action.scan terminal state =
          some ⟨outcome, last, events⟩ := by
  constructor
  · rintro ⟨events, depth, hRun⟩
    cases depth with
    | zero => cases hRun
    | succ depth => exact ⟨events, hRun⟩
  · rintro ⟨events, hScan⟩
    exact ⟨events, 1, hScan⟩

theorem endsIn_terminal_of_scan
    {outcome' : Outcome Match}
    {last' : State}
    {events : List Event}
    (hScan :
      Action.scan terminal state =
        some ⟨outcome', last', events⟩) :
    EndsIn rules (.terminal terminal) state outcome last ↔
      outcome = outcome' ∧ last = last' := by
  rw [endsIn_terminal, hScan]
  constructor
  · rintro ⟨events', hSame⟩
    cases hSame
    exact ⟨rfl, rfl⟩
  · rintro ⟨rfl, rfl⟩
    exact ⟨events, rfl⟩

end Parser

end ByteGrammar

------------------------------------------------------------
-- Terminals That Read Values
------------------------------------------------------------

namespace ByteGrammar

/- A terminal finds what a reader makes of the bytes. What is
  read is never nothing and lies within them. -/
structure Terminal.ReadsBy
    {α : Type}
    (terminal : Terminal)
    (value : α → Value)
    (read : List UInt8 → Option (α × Nat)) :
    Prop where
  scan : ∀ bytes,
    terminal.scan bytes = Scan.ofOption value (read bytes)
  within : ∀ bytes found length,
    read bytes = some (found, length) →
      0 < length ∧ length ≤ bytes.length

/- What becomes of something read, or of nothing read: it is
  taken whole, or nothing changes. -/
inductive Parser.Takes
    {α : Type}
    (value : α → Value)
    (state : State) :
    Option (α × Nat) → Outcome Match → State → Prop where
  | taken (found : α) (length : Nat) :
      Takes value state (some (found, length))
        (.matched ⟨state.cursor.position,
          state.cursor.position + length, value found⟩)
        (state.advance length)
  | missed : Takes value state none .failed state

namespace Terminal.ReadsBy

open ByteGrammar.Parser

variable {α : Type}
variable {rules : Rules} {terminal : Terminal}
variable {value : α → Value}
variable {read : List UInt8 → Option (α × Nat)}
variable {state last : State}
variable {outcome : Outcome Match}

/- To read is to move on by as much, as far as there is
  something to read. -/
theorem position_advance
    (hReads : terminal.ReadsBy value read)
    {found : α}
    {length : Nat}
    (hRead :
      read state.cursor.remaining = some (found, length)) :
    (state.advance length).cursor.position =
      state.cursor.position + length := by
  rcases hReads.within _ _ _ hRead with ⟨hSome, hWithin⟩
  have hRemaining :
      state.cursor.remaining.length =
        state.cursor.data.length - state.cursor.position :=
    List.length_drop
  apply Cursor.position_advance
  omega

/- What is read decides how the terminal ends. -/
theorem endsIn
    (hReads : terminal.ReadsBy value read) :
    EndsIn rules (.terminal terminal) state outcome last ↔
      Takes value state (read state.cursor.remaining) outcome
        last := by
  have hScan := hReads.scan state.cursor.remaining
  cases hRead : read state.cursor.remaining with
  | none =>
      rw [hRead] at hScan
      rw [endsIn_terminal_of_scan (Action.scan_of_miss hScan)]
      constructor
      · rintro ⟨rfl, rfl⟩
        exact .missed
      · rintro ⟨⟩
        exact ⟨rfl, rfl⟩
  | some read =>
      rcases read with ⟨found, length⟩
      have hStop := hReads.position_advance hRead
      rw [hRead] at hScan
      rw [endsIn_terminal_of_scan (Action.scan_of_hit hScan),
        hStop]
      constructor
      · rintro ⟨rfl, rfl⟩
        exact .taken found length
      · rintro ⟨⟩
        exact ⟨rfl, rfl⟩

/- A match is of what is read up to where it stops. -/
theorem endsIn_matched
    (hReads : terminal.ReadsBy value read)
    {start stop : Nat}
    {seen : Value} :
    EndsIn rules (.terminal terminal) state
        (.matched ⟨start, stop, seen⟩) last ↔
      start = state.cursor.position ∧
        state.cursor.position ≤ stop ∧
        last = state.advance (stop - state.cursor.position) ∧
        ∃ found, seen = value found ∧
          read state.cursor.remaining =
            some (found, stop - state.cursor.position) := by
  rw [hReads.endsIn]
  constructor
  · intro hTakes
    cases hRead : read state.cursor.remaining with
    | none =>
        rw [hRead] at hTakes
        cases hTakes
    | some taken =>
        rw [hRead] at hTakes
        cases hTakes with
        | taken found length =>
            rw [Nat.add_sub_cancel_left]
            exact ⟨rfl, Nat.le_add_right _ _, rfl, found, rfl,
              rfl⟩
  · rintro ⟨rfl, hOrder, rfl, found, rfl, hRead⟩
    rw [hRead]
    have hStop :
        state.cursor.position +
            (stop - state.cursor.position) = stop :=
      Nat.add_sub_cancel' hOrder
    have hTaken : Takes value state _ _ _ :=
      .taken found (stop - state.cursor.position)
    rw [hStop] at hTaken
    exact hTaken

end Terminal.ReadsBy

end ByteGrammar
