import ByteGrammar.Proofs.Repetition.Elements
import ByteGrammar.Proofs.Repetition.Search
import ByteGrammar.Proofs.Terminals.ByteSets
import ByteGrammar.Proofs.Terminals.Scanning

/-
  Runs of bytes as repetitions of single bytes.

  At the start of some bytes there is one longest run of
  bytes that pass a test, as far as a bound leaves room. A
  terminal counts it in a window that the bound cuts before
  any byte is tested; a repetition takes it byte by byte, and
  gives back the first byte that does not pass. Either way,
  what matters is whether the run is long enough.

  Main declarations:
    * `Terminal.LongestRun`, `Terminal.longestRun_iff`
    * `Parser.filteredByte`, `Parser.filteredBytes`
    * `Parser.exists_inTurn_filteredByte`,
      `Parser.exists_collects_filteredByte`
    * `Parser.RunEnds`, `Parser.endsAt_takeWhile`,
      `Parser.endsAt_filteredBytes`
    * `Parser.runs_of_members_agree`
-/

------------------------------------------------------------
-- Longest Runs
------------------------------------------------------------

namespace ByteGrammar

namespace Terminal

variable {test : UInt8 → Bool}
variable {max : Option Nat}
variable {bytes run other : List UInt8}

/- A run at the start of some bytes, all of which pass a
  test. It ends where there is no room for more, or else
  with the bytes or before one that does not pass. -/
structure LongestRun
    (test : UInt8 → Bool)
    (max : Option Nat)
    (bytes run : List UInt8) :
    Prop where
  starts : run <+: bytes
  passes : ∀ byte ∈ run, test byte = true
  room : ∀ bound ∈ max, run.length ≤ bound
  ends :
    max = some run.length ∨
      ∀ byte ∈ bytes[run.length]?, test byte = false

/- No run is longer. -/
theorem LongestRun.length_le
    (hLongest : LongestRun test max bytes run)
    (hOther : LongestRun test max bytes other) :
    other.length ≤ run.length := by
  by_contra hLonger
  have hNext : run.length < other.length :=
    Nat.lt_of_not_le hLonger
  cases hLongest.ends with
  | inl hFull => exact hLonger (hOther.room _ hFull)
  | inr hEnds =>
      have hByte :
          bytes[run.length]? = some other[run.length] :=
        List.prefix_iff_getElem?.mp hOther.starts _ hNext
      have hFails := hEnds _ hByte
      have hPasses :=
        hOther.passes _ (List.getElem_mem hNext)
      exact Bool.false_ne_true (hFails.symm.trans hPasses)

/- There is no other longest run. -/
theorem LongestRun.unique
    (hLongest : LongestRun test max bytes run)
    (hOther : LongestRun test max bytes other) :
    run = other := by
  have hLength :=
    Nat.le_antisymm (hOther.length_le hLongest)
      (hLongest.length_le hOther)
  rw [List.prefix_iff_eq_take.mp hLongest.starts, hLength]
  exact (List.prefix_iff_eq_take.mp hOther.starts).symm

/- What a terminal counts: the bytes that pass at the start
  of as many as there is room for. -/
def runAt
    (test : UInt8 → Bool)
    (max : Option Nat)
    (bytes : List UInt8) :
    List UInt8 :=
  match max with
  | some bound => (bytes.take bound).takeWhile test
  | none => bytes.takeWhile test

theorem scan_run
    (test : UInt8 → Bool)
    (min : Nat)
    (max : Option Nat)
    (bytes : List UInt8) :
    scan (.run test min max) bytes =
      if (runAt test max bytes).length < min then .miss
      else Scan.covered (runAt test max bytes).length := by
  cases max <;> rfl

/- The byte behind the bytes that pass does not, if there is
  one. -/
theorem fails_behind_takeWhile
    (test : UInt8 → Bool)
    (bytes : List UInt8) :
    ∀ byte ∈ bytes[(bytes.takeWhile test).length]?,
      test byte = false := by
  induction bytes with
  | nil => simp
  | cons first rest ih =>
      cases hFirst : test first with
      | true => simpa [hFirst] using ih
      | false => simp [hFirst]

/- That is the longest run: a bound that cuts it has left no
  room. -/
theorem longestRun_runAt
    (test : UInt8 → Bool)
    (max : Option Nat)
    (bytes : List UInt8) :
    LongestRun test max bytes (runAt test max bytes) := by
  cases max with
  | none =>
      exact
        { starts := List.takeWhile_prefix _
          passes := List.all_eq_true.mp List.all_takeWhile
          room := nofun
          ends := .inr (fails_behind_takeWhile test bytes) }
  | some bound =>
      -- What is counted ends with its window, which then
      -- leaves no room, or before it, as without a bound.
      let run := (bytes.take bound).takeWhile test
      have hWindow : run <+: bytes.take bound :=
        List.takeWhile_prefix _
      have hLength : run.length ≤ bound :=
        Nat.le_trans hWindow.length_le
          (List.length_take_le _ _)
      have hEnds :
          some bound = some run.length ∨
            ∀ byte ∈ bytes[run.length]?,
              test byte = false := by
        by_cases hFull : run.length = bound
        · exact .inl (congrArg some hFull.symm)
        · right
          have hRoom : run.length < bound :=
            Nat.lt_of_le_of_ne hLength hFull
          rw [← List.getElem?_take_of_lt hRoom]
          exact fails_behind_takeWhile test _
      exact
        { starts := hWindow.trans (List.take_prefix _ _)
          passes := List.all_eq_true.mp List.all_takeWhile
          room := by
            rintro _ ⟨⟩
            exact hLength
          ends := hEnds }

theorem longestRun_iff :
    LongestRun test max bytes run ↔
      run = runAt test max bytes := by
  constructor
  · intro hLongest
    exact hLongest.unique (longestRun_runAt test max bytes)
  · rintro rfl
    exact longestRun_runAt test max bytes

end Terminal

end ByteGrammar

------------------------------------------------------------
-- Single Bytes
------------------------------------------------------------

namespace ByteGrammar

/- Whether a value is a byte that passes a test. -/
def Value.isByteOf
    (test : UInt8 → Bool) :
    Value → Bool
  | .byte found => test found
  | _ => false

namespace Parser

open ByteGrammar.Action

variable {test : UInt8 → Bool}
variable {state : State}
variable {byte : UInt8}
variable {run rest : List UInt8}

/- Any byte, refused unless it passes a test. -/
def filteredByte
    (test : UInt8 → Bool) :
    Parser :=
  .filter (Value.isByteOf test) .anyByte

/- The region of such bytes in a row. -/
def filteredBytes
    (test : UInt8 → Bool)
    (min : Nat)
    (max : Option Nat) :
    Parser :=
  .capture (.repeated min max (filteredByte test))

/- A byte that passes is taken. -/
theorem endsIn_filteredByte
    (rules : Rules)
    (hRemaining : state.cursor.remaining = byte :: rest)
    (hPasses : test byte = true) :
    EndsIn rules (filteredByte test) state
      (.matched ⟨state.cursor.position,
        (state.advance 1).cursor.position, .byte byte⟩)
      (state.advance 1) := by
  have hFilter :=
    filter_of_passed (Value.isByteOf test)
      (scan_anyByte hRemaining) hPasses
  exact ⟨[], 2, hFilter⟩

/- Any other byte is given back, and at the end there is
  none. -/
theorem exists_endsIn_filteredByte_failed
    (rules : Rules)
    (hNext : ∀ byte ∈ state.cursor.remaining.head?,
      test byte = false) :
    ∃ last,
      EndsIn rules (filteredByte test) state .failed
        last := by
  cases hRemaining : state.cursor.remaining with
  | nil =>
      have hFilter :=
        filter_of_failed (Value.isByteOf test)
          (scan_anyByte_end hRemaining)
      exact ⟨_, [], 2, hFilter⟩
  | cons byte rest =>
      rw [hRemaining] at hNext
      have hFilter :=
        filter_of_refused (Value.isByteOf test)
          (scan_anyByte hRemaining) (hNext byte rfl)
      exact ⟨_, [], 2, hFilter⟩

end Parser

end ByteGrammar

------------------------------------------------------------
-- Bytes in Turn
------------------------------------------------------------

namespace ByteGrammar

namespace Parser

open ByteGrammar.Terminal

variable {test : UInt8 → Bool}
variable {max : Option Nat}
variable {state : State}
variable {run rest : List UInt8}

/- Bytes that pass are matched in turn, one element for
  each. -/
theorem exists_inTurn_filteredByte
    (rules : Rules)
    (hRemaining : state.cursor.remaining = run ++ rest)
    (hPasses : ∀ byte ∈ run, test byte = true) :
    ∃ elements here,
      InTurn rules (filteredByte test) state elements here ∧
        Match.Advance state.cursor.position elements ∧
        elements.length = run.length ∧
        here.cursor.position =
          state.cursor.position + run.length ∧
        here.cursor.remaining = rest := by
  -- Each byte that is taken leaves the rest of the run.
  induction run generalizing state with
  | nil =>
      exact ⟨[], state, .none, Match.advance_nil _, rfl, rfl,
        hRemaining⟩
  | cons byte run ih =>
      rw [List.forall_mem_cons] at hPasses
      have hInside :
          state.cursor.position + 1 ≤
            state.cursor.data.length := by
        have hLength := congrArg List.length hRemaining
        rw [Cursor.remaining, List.length_drop,
          List.cons_append, List.length_cons] at hLength
        omega
      have hPosition :
          (state.advance 1).cursor.position =
            state.cursor.position + 1 :=
        Cursor.position_advance hInside
      have hBehind :
          (state.advance 1).cursor.remaining =
            run ++ rest := by
        rw [State.remaining_advance hInside, hRemaining]
        rfl
      rcases ih hBehind hPasses.2 with
        ⟨elements, here, hTurn, hAdvance, hCount, hHere,
          hRest⟩
      have hFirst :=
        endsIn_filteredByte rules hRemaining hPasses.1
      refine ⟨_ :: elements, here, .first hFirst hTurn, ?_,
        ?_, ?_, hRest⟩
      · have hMoved :
            state.cursor.position <
              (state.advance 1).cursor.position := by omega
        exact Match.advance_cons.mpr ⟨hMoved, hAdvance⟩
      · rw [List.length_cons, List.length_cons, hCount]
      · rw [hHere, hPosition, List.length_cons]
        omega

/- A repetition of such bytes collects the longest run. It
  ceases for the reason for which the run ends. -/
theorem exists_collects_filteredByte
    (rules : Rules)
    (hLongest :
      LongestRun test max state.cursor.remaining run) :
    ∃ elements last,
      Collects rules (filteredByte test) max state
          (.matched elements) last ∧
        elements.length = run.length ∧
        last.cursor.position =
          state.cursor.position + run.length := by
  rcases hLongest with
    ⟨⟨rest, hRemaining⟩, hPasses, hRoom, hEnds⟩
  rcases exists_inTurn_filteredByte rules hRemaining.symm
      hPasses with
    ⟨elements, here, hTurn, hAdvance, hCount, hHere, hRest⟩
  rw [← hCount] at hRoom
  have hGathered :
      Gathered rules (filteredByte test) max state elements
        here :=
    ⟨hTurn, hAdvance, hRoom⟩
  by_cases hFull : max = some elements.length
  · exact ⟨elements, here,
      ⟨elements, here, hGathered, .enough hFull⟩, hCount,
      hHere⟩
  · rw [← hCount, ← hRemaining] at hEnds
    have hNext := hEnds.resolve_left hFull
    rw [hCount, List.getElem?_append_right (Nat.le_refl _),
      Nat.sub_self, ← List.head?_eq_getElem?, ← hRest]
      at hNext
    rcases exists_endsIn_filteredByte_failed rules hNext with
      ⟨last, hFailed⟩
    have hBack :
        last.cursor.position = here.cursor.position :=
      congrArg Checkpoint.position hFailed.checkpoint_eq
    exact ⟨elements, last,
      ⟨elements, here, hGathered, .failed hFull hFailed⟩,
      hCount, hBack.trans hHere⟩

end Parser

end ByteGrammar

------------------------------------------------------------
-- What Runs Come To
------------------------------------------------------------

namespace ByteGrammar

namespace Parser

open ByteGrammar.Action ByteGrammar.Terminal

variable {rules : Rules} {parser : Parser}
variable {test : UInt8 → Bool}
variable {min : Nat} {max : Option Nat}
variable {state last : State}
variable {run : List UInt8}
variable {outcome : Outcome Match}
variable {stop : Nat}

/- What becomes of a run, and where: it is covered if it is
  long enough, and is left otherwise. -/
inductive RunEnds
    (min : Nat)
    (state : State)
    (run : List UInt8) :
    Outcome Match → Nat → Prop where
  | enough
      (hEnough : min ≤ run.length) :
      RunEnds min state run
        (.matched (.covering state.cursor.position
          (state.cursor.position + run.length)))
        (state.cursor.position + run.length)
  | tooShort
      (hShort : run.length < min) :
      RunEnds min state run .failed state.cursor.position

theorem exists_runEnds
    (min : Nat)
    (state : State)
    (run : List UInt8) :
    ∃ outcome stop, RunEnds min state run outcome stop := by
  by_cases hEnough : min ≤ run.length
  · exact ⟨_, _, .enough hEnough⟩
  · exact ⟨_, _, .tooShort (Nat.lt_of_not_le hEnough)⟩

/- A parser that ends as a run does ends in no other way. -/
theorem endsAt_iff_runEnds
    (hRuns : ∀ outcome stop,
      RunEnds min state run outcome stop →
        EndsAt rules parser state outcome stop) :
    EndsAt rules parser state outcome stop ↔
      RunEnds min state run outcome stop := by
  refine ⟨?_, hRuns outcome stop⟩
  intro hEnds
  rcases exists_runEnds min state run with
    ⟨outcome', stop', hRun⟩
  rcases hEnds.unique (hRuns _ _ hRun) with ⟨rfl, rfl⟩
  exact hRun

/- A terminal for runs ends as the longest run does. -/
theorem endsAt_takeWhile
    (rules : Rules)
    (hInside : state.cursor.Inside)
    (hLongest :
      LongestRun test max state.cursor.remaining run) :
    EndsAt rules (takeWhile test min max) state outcome
        stop ↔
      RunEnds min state run outcome stop := by
  have hScan := scan_run test min max state.cursor.remaining
  rw [← longestRun_iff.mp hLongest] at hScan
  apply endsAt_iff_runEnds
  intro _ _ hRun
  cases hRun with
  | enough hEnough =>
      rw [if_neg (Nat.not_lt.mpr hEnough)] at hScan
      have hStop :
          (state.advance run.length).cursor.position =
            state.cursor.position + run.length := by
        have hLength := hLongest.starts.length_le
        rw [Cursor.remaining, List.length_drop] at hLength
        have hBefore :
            state.cursor.position ≤
              state.cursor.data.length := hInside
        exact Cursor.position_advance (by omega)
      have hMatch := scan_of_hit hScan
      rw [hStop] at hMatch
      refine ⟨_, endsIn_terminal.mpr ⟨[], ?_⟩, hStop⟩
      rw [Match.covering, Region.between,
        Nat.add_sub_cancel_left]
      exact hMatch
  | tooShort hShort =>
      rw [if_pos hShort] at hScan
      exact ⟨state,
        endsIn_terminal.mpr ⟨[], scan_of_miss hScan⟩, rfl⟩

theorem EndsIn.capture
    {found : Match}
    (hEnds :
      EndsIn rules parser state (.matched found) last) :
    EndsIn rules (.capture parser) state
      (.matched (found.withValue (.region found.region)))
      { last with
        cursor := last.cursor.mark found.start found.stop } := by
  rcases hEnds with ⟨events, depth, hRun⟩
  exact ⟨events, depth + 1, capture_of_matched hRun⟩

theorem EndsIn.capture_failed
    (hEnds : EndsIn rules parser state .failed last) :
    EndsIn rules (.capture parser) state .failed last := by
  rcases hEnds with ⟨events, depth, hRun⟩
  exact ⟨events, depth + 1, capture_of_failed hRun⟩

/- So does a repetition of single bytes. -/
theorem endsAt_filteredBytes
    (rules : Rules)
    (hInside : state.cursor.Inside)
    (hLongest :
      LongestRun test max state.cursor.remaining run) :
    EndsAt rules (filteredBytes test min max) state outcome
        stop ↔
      RunEnds min state run outcome stop := by
  rcases exists_collects_filteredByte rules hLongest with
    ⟨elements, last, hCollects, hCount, hStop⟩
  apply endsAt_iff_runEnds
  intro _ _ hRun
  cases hRun with
  | enough hEnough =>
      rw [← hCount] at hEnough
      have hRepeated :=
        endsIn_repeated hInside |>.mpr
          ⟨_, last, hCollects, .enough hEnough⟩
      rw [hStop] at hRepeated
      exact ⟨_, hRepeated.capture, hStop⟩
  | tooShort hShort =>
      rw [← hCount] at hShort
      have hRepeated :=
        endsIn_repeated hInside |>.mpr
          ⟨_, last, hCollects, .tooFew hShort⟩
      exact ⟨_, hRepeated.capture_failed, rfl⟩

end Parser

end ByteGrammar

------------------------------------------------------------
-- Runs of Members
------------------------------------------------------------

namespace ByteGrammar

namespace Parser

open ByteGrammar.Terminal

/-
  Three ways to match a run of bytes of a list, within
  bounds, from wherever they start inside the buffer. The
  set of the list contains its members, whatever their order
  and however often they are listed. There is a longest run
  of members, as far as there is room; a run over the set, a
  run over the list and a captured repetition of single
  bytes that are filtered by the list all match it if it is
  long enough, with its region and up to its end, and all
  fail where they start if it is not.
-/
theorem runs_of_members_agree
    (rules : Rules)
    (bytes : List UInt8)
    (min : Nat)
    (max : Option Nat)
    {state : State}
    (hInside : state.cursor.Inside) :
    (∀ byte,
      (ByteSet.ofList bytes).contains byte = true ↔
        byte ∈ bytes) ∧
    ∃ run,
      LongestRun bytes.contains max state.cursor.remaining
        run ∧
      ∀ outcome stop,
        (EndsAt rules (charClass bytes min max) state outcome
            stop ↔
          RunEnds min state run outcome stop) ∧
        (EndsAt rules (takeWhile bytes.contains min max)
            state outcome stop ↔
          RunEnds min state run outcome stop) ∧
        (EndsAt rules (filteredBytes bytes.contains min max)
            state outcome stop ↔
          RunEnds min state run outcome stop) := by
  have hMembers := ByteSet.contains_ofList bytes
  have hTest :
      (ByteSet.ofList bytes).contains = bytes.contains := by
    funext byte
    rw [Bool.eq_iff_iff, hMembers, List.contains_iff_mem]
  have hLongest :=
    longestRun_runAt bytes.contains max
      state.cursor.remaining
  refine ⟨hMembers, _, hLongest, ?_⟩
  intro outcome stop
  rw [charClass, hTest]
  exact ⟨endsAt_takeWhile rules hInside hLongest,
    endsAt_takeWhile rules hInside hLongest,
    endsAt_filteredBytes rules hInside hLongest⟩

/- Members in three words of the set, one of them listed
  twice, and a run that is cut where a member follows. -/
theorem runs_of_members_agree_across_words :
    let bytes : List UInt8 := [0x40, 0x3F, 0xFF, 0x40]
    let state : State :=
      ⟨⟨[0x00, 0x3F, 0x40, 0xFF], 1, .origin, 1⟩,
        .fresh .standard⟩
    let covered : Outcome Match := .matched (.covering 1 3)
    state.cursor.Inside ∧
      (ByteSet.ofList bytes).contains 0xFF = true ∧
      LongestRun bytes.contains (some 2)
        state.cursor.remaining [0x3F, 0x40] ∧
      EndsAt .empty (charClass bytes 2 (some 2)) state covered
        3 ∧
      EndsAt .empty (takeWhile bytes.contains 2 (some 2))
        state covered 3 ∧
      EndsAt .empty (filteredBytes bytes.contains 2 (some 2))
        state covered 3 := by
  intro bytes state covered
  have hInside : state.cursor.Inside := (by decide : 1 ≤ 4)
  rcases runs_of_members_agree .empty bytes 2 (some 2)
      hInside with
    ⟨hMembers, run, hLongest, hAgree⟩
  have hRun : run = [0x3F, 0x40] :=
    (longestRun_iff.mp hLongest).trans rfl
  subst hRun
  have hEnds : RunEnds 2 state [0x3F, 0x40] covered 3 :=
    .enough (Nat.le_refl 2)
  rcases hAgree covered 3 with ⟨hSet, hList, hBytes⟩
  exact ⟨hInside, (hMembers 0xFF).mpr (by decide), hLongest,
    hSet.mpr hEnds, hList.mpr hEnds, hBytes.mpr hEnds⟩

end Parser

end ByteGrammar
