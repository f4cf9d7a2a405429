import Mathlib.Data.List.Induction
import Mathlib.Data.Nat.SuccPred
import Mathlib.Data.Prod.Lex
import Mathlib.Order.Interval.Set.Monotone
import ByteGrammar.Input.Cursor
import ByteGrammar.Input.Location

/-
  Lines and columns of offsets.

  A scan from the start of a buffer moves a place on, byte
  by byte. So do the count of line feeds before an offset
  and the distance to the last of them, with the same first
  place; the two agree at every offset.

  Main declarations:
    * `Place.after`, `Place.reached`
    * `Location.place_eq_reached`,
      `Cursor.lineColumn_eq_reached`
    * `StartsLine`, `StartsLine.unique`
    * `Place.Marks`, `Place.marks_reached`
    * `Place.strictMonoOn_reached`
    * `Cursor.places_specified`
-/

------------------------------------------------------------
-- Places Reached
------------------------------------------------------------

namespace ByteGrammar

namespace Place

/- The place where a buffer starts. -/
def first : Place :=
  ⟨1, 0⟩

/- The place behind one more byte. -/
def after
    (place : Place)
    (byte : UInt8) :
    Place :=
  if byte = 0x0A then ⟨place.line + 1, 0⟩
  else ⟨place.line, place.byteOffset + 1⟩

/- The place behind some bytes at the start of a buffer. -/
def reached
    (bytes : List UInt8) :
    Place :=
  bytes.foldl after first

/- Line and byte offset as a pair. -/
def toPair
    (place : Place) :
    Nat × Nat :=
  (place.line, place.byteOffset)

theorem after_break
    (place : Place) :
    place.after 0x0A = ⟨place.line + 1, 0⟩ :=
  if_pos rfl

theorem after_other
    {byte : UInt8}
    (hOther : byte ≠ 0x0A)
    (place : Place) :
    place.after byte =
      ⟨place.line, place.byteOffset + 1⟩ :=
  if_neg hOther

theorem reached_concat
    (bytes : List UInt8)
    (byte : UInt8) :
    reached (bytes ++ [byte]) = (reached bytes).after byte := by
  simp [reached]

/- A place moves on with every byte. -/
theorem toPair_lt_after
    (place : Place)
    (byte : UInt8) :
    toLex place.toPair < toLex (place.after byte).toPair := by
  rw [Prod.Lex.toLex_lt_toLex]
  by_cases hBreak : byte = 0x0A
  · rw [hBreak, after_break]
    exact .inl (Nat.lt_succ_self place.line)
  · rw [after_other hBreak]
    exact .inr ⟨rfl, Nat.lt_succ_self place.byteOffset⟩

end Place

end ByteGrammar

------------------------------------------------------------
-- Two Computations
------------------------------------------------------------

namespace ByteGrammar

namespace Location.LineScan

/- The place of a scan. -/
def place
    (scan : LineScan) :
    Place :=
  ⟨scan.line, scan.index - scan.lineStart⟩

/- A byte moves the place of a scan on, if the line does not
  start ahead of it. -/
theorem place_step
    {scan : LineScan}
    (hOrder : scan.lineStart ≤ scan.index)
    (byte : UInt8) :
    (scan.step byte).place = scan.place.after byte ∧
      (scan.step byte).lineStart ≤ (scan.step byte).index ∧
      (scan.step byte).index = scan.index + 1 := by
  by_cases hBreak : byte = 0x0A
  · rw [hBreak, Place.after_break]
    simp [step, place]
  · rw [Place.after_other hBreak, step, if_neg hBreak]
    have hColumn :
        scan.index + 1 - scan.lineStart =
          scan.index - scan.lineStart + 1 :=
      Nat.sub_add_comm hOrder
    refine ⟨?_, Nat.le_succ_of_le hOrder, rfl⟩
    simp only [place, hColumn]

/- So the scan of some bytes is at the place behind them. -/
theorem place_foldl
    (bytes : List UInt8) :
    let scan := bytes.foldl step start
    scan.place = Place.reached bytes ∧
      scan.lineStart ≤ scan.index ∧
      scan.index = bytes.length := by
  induction bytes using List.reverseRecOn with
  | nil => exact ⟨rfl, Nat.le_refl 0, rfl⟩
  | append_singleton bytes byte ih =>
      rcases ih with ⟨hPlace, hOrder, hIndex⟩
      rcases place_step hOrder byte with
        ⟨hStep, hOrder', hIndex'⟩
      rw [List.foldl_append, Place.reached_concat,
        List.length_append, ← hPlace, ← hIndex]
      exact ⟨hStep, hOrder', hIndex'⟩

end Location.LineScan

theorem Location.place_eq_reached
    {data : List UInt8}
    {offset : Nat}
    (hInside : offset ≤ data.length) :
    (⟨data, offset⟩ : Location).place =
      Place.reached (data.take offset) := by
  rcases LineScan.place_foldl (data.take offset) with
    ⟨hPlace, -, hIndex⟩
  rw [List.length_take_of_le hInside] at hIndex
  rw [← hPlace, LineScan.place, hIndex]
  rfl

/- Line feeds are counted from the start, and the bytes since
  the last one from the end. -/
theorem Place.reached_eq
    (bytes : List UInt8) :
    (reached bytes).toPair =
      (bytes.count 0x0A + 1,
        (bytes.reverse.takeWhile (· != 0x0A)).length) := by
  induction bytes using List.reverseRecOn with
  | nil => rfl
  | append_singleton bytes byte ih =>
      have hLine := congrArg Prod.fst ih
      have hColumn := congrArg Prod.snd ih
      simp only [toPair] at hLine hColumn
      by_cases hBreak : byte = 0x0A
      · simp [reached_concat, hBreak, after_break, toPair,
          hLine]
      · simp [reached_concat, hBreak, after_other hBreak,
          toPair, hLine, hColumn]

theorem Cursor.lineColumn_eq_reached
    (cursor : Cursor)
    (offset : Nat) :
    cursor.lineColumn offset =
      (Place.reached (cursor.data.take offset)).toPair :=
  (Place.reached_eq _).symm

end ByteGrammar

------------------------------------------------------------
-- Starts of Lines
------------------------------------------------------------

namespace ByteGrammar

/- A line of the number starts at the offset: the buffer
  does, or a line feed stands before, and there are as many
  line feeds before as lines. -/
structure StartsLine
    (data : List UInt8)
    (line start : Nat) :
    Prop where
  opens :
    start = 0 ∨
      ∃ before, data[before]? = some 0x0A ∧
        start = before + 1
  number : line = (data.take start).count 0x0A + 1

/- A start ahead of another one has more line feeds before
  it. -/
theorem StartsLine.line_lt
    {data : List UInt8}
    {line line' start start' : Nat}
    (hStarts : StartsLine data line start)
    (hStarts' : StartsLine data line' start')
    (hAhead : start < start') :
    line < line' := by
  rcases hStarts'.opens with hZero | ⟨before, hBreak, hBehind⟩
  · omega
  · have hTake :
        data.take start' =
          data.take before ++ [(0x0A : UInt8)] := by
      rw [hBehind, List.take_add_one, hBreak]
      rfl
    have hFewer :
        (data.take start).count 0x0A ≤
          (data.take before).count 0x0A :=
      (List.take_prefix_take_left (by omega)).sublist.count_le
        0x0A
    rw [hStarts.number, hStarts'.number, hTake,
      List.count_append, List.count_singleton_self]
    omega

/- A line has one start. -/
theorem StartsLine.unique
    {data : List UInt8}
    {line start start' : Nat}
    (hStarts : StartsLine data line start)
    (hStarts' : StartsLine data line start') :
    start = start' := by
  by_contra hOther
  by_cases hAhead : start < start'
  · exact Nat.lt_irrefl line
      (hStarts.line_lt hStarts' hAhead)
  · exact Nat.lt_irrefl line
      (hStarts'.line_lt hStarts (by omega))

namespace Place

/- A place belongs to an offset: the line starts as many
  bytes before it as the byte offset says, and goes on up to
  it. -/
def Marks
    (data : List UInt8)
    (place : Place)
    (offset : Nat) :
    Prop :=
  ∃ start, StartsLine data place.line start ∧
    offset = start + place.byteOffset ∧
    ∀ between, start ≤ between → between < offset →
      data[between]? ≠ some 0x0A

theorem marks_first
    (data : List UInt8) :
    first.Marks data 0 :=
  ⟨0, ⟨.inl rfl, rfl⟩, rfl, nofun⟩

/- The place behind a byte belongs to the next offset. -/
theorem Marks.after
    {data : List UInt8}
    {place : Place}
    {offset : Nat}
    {byte : UInt8}
    (hMarks : place.Marks data offset)
    (hLine : place.line = (data.take offset).count 0x0A + 1)
    (hByte : data[offset]? = some byte) :
    (place.after byte).Marks data (offset + 1) := by
  by_cases hBreak : byte = 0x0A
  · rw [hBreak] at hByte ⊢
    rw [after_break]
    refine ⟨offset + 1, ⟨.inr ⟨offset, hByte, rfl⟩, ?_⟩, rfl,
      ?_⟩
    · rw [List.take_add_one, hByte, hLine]
      simp
    · intro between hStart hBefore
      omega
  · rw [after_other hBreak]
    rcases hMarks with ⟨start, hStarts, rfl, hUnbroken⟩
    refine ⟨start, hStarts, rfl, ?_⟩
    intro between hStart hBefore
    by_cases hHere : between = start + place.byteOffset
    · rw [hHere, hByte]
      simpa using hBreak
    · exact hUnbroken between hStart (by omega)

variable {data : List UInt8}
variable {offset : Nat}

theorem reached_succ
    (hInside : offset < data.length) :
    reached (data.take (offset + 1)) =
      (reached (data.take offset)).after data[offset] := by
  rw [List.take_add_one, List.getElem?_eq_getElem hInside]
  exact reached_concat _ _

/- The place reached at an offset belongs to it. -/
theorem marks_reached
    (hInside : offset ≤ data.length) :
    (reached (data.take offset)).Marks data offset := by
  induction offset with
  | zero => exact marks_first data
  | succ offset ih =>
      have hLine :=
        congrArg Prod.fst (reached_eq (data.take offset))
      rw [reached_succ hInside]
      exact (ih (Nat.le_of_succ_le hInside)).after hLine
        (List.getElem?_eq_getElem hInside)

/- Places are in the order of their offsets. -/
theorem strictMonoOn_reached
    (data : List UInt8) :
    StrictMonoOn
      (fun offset =>
        toLex (reached (data.take offset)).toPair)
      (Set.Iic data.length) := by
  apply strictMonoOn_Iic_of_lt_succ
  intro offset hInside
  rw [Nat.succ_eq_succ, Nat.succ_eq_add_one,
    reached_succ hInside]
  exact toPair_lt_after _ _

end Place

end ByteGrammar

------------------------------------------------------------
-- Lines and Columns
------------------------------------------------------------

namespace ByteGrammar

namespace Cursor

/-
  The line and column that a cursor gives for an offset are
  those of the location there. The line is one more than the
  line feeds before the offset. It has one start, which is as
  many bytes before the offset as the column says, with no
  line feed between. Greater offsets have greater pairs, so
  no two have the same.
-/
theorem places_specified
    (cursor : Cursor) :
    (∀ offset ≤ cursor.data.length,
      let place :=
        (⟨cursor.data, offset⟩ : Location).place
      cursor.lineColumn offset =
          (place.line, place.byteOffset) ∧
        place.line =
          (cursor.data.take offset).count 0x0A + 1 ∧
        ∃ start, StartsLine cursor.data place.line start ∧
          (∀ other,
            StartsLine cursor.data place.line other →
              other = start) ∧
          offset = start + place.byteOffset ∧
          ∀ between, start ≤ between → between < offset →
            cursor.data[between]? ≠ some 0x0A) ∧
    StrictMonoOn
      (fun offset => toLex (cursor.lineColumn offset))
      (Set.Iic cursor.data.length) ∧
    Set.InjOn cursor.lineColumn
      (Set.Iic cursor.data.length) := by
  have hOrder :
      StrictMonoOn
        (fun offset => toLex (cursor.lineColumn offset))
        (Set.Iic cursor.data.length) := by
    simp only [lineColumn_eq_reached]
    exact Place.strictMonoOn_reached cursor.data
  refine ⟨?_, hOrder, ?_⟩
  · intro offset hInside place
    have hPlace : place = _ :=
      Location.place_eq_reached hInside
    rcases Place.marks_reached hInside with
      ⟨start, hStarts, hReaches, hUnbroken⟩
    rw [hPlace, lineColumn_eq_reached]
    refine ⟨rfl, congrArg Prod.fst (Place.reached_eq _),
      start, hStarts, ?_, hReaches, hUnbroken⟩
    intro other hOther
    exact hOther.unique hStarts
  · intro offset hInside offset' hInside' hSame
    exact hOrder.injOn hInside hInside'
      (congrArg toLex hSame)

/- Behind an empty line, a byte that is no text and a last
  line feed. -/
theorem places_specified_trailing_break :
    let cursor : Cursor :=
      .ofBytes [0x61, 0x0A, 0x0A, 0xFF, 0x0A]
    5 ≤ cursor.data.length ∧
      cursor.lineColumn 5 = (4, 0) ∧
      StartsLine cursor.data 4 5 ∧
      toLex (cursor.lineColumn 4) <
        toLex (cursor.lineColumn 5) := by
  intro cursor
  have hInside : 5 ≤ cursor.data.length := Nat.le_refl 5
  rcases cursor.places_specified with ⟨hPlaces, hOrder, _⟩
  rcases hPlaces 5 hInside with
    ⟨hSame, _, start, hStarts, _, hOffset, _⟩
  have hStart : 5 = start := hOffset
  rw [← hStart] at hStarts
  exact ⟨hInside, hSame, hStarts,
    hOrder (Nat.le_succ 4) hInside (Nat.lt_succ_self 4)⟩

end Cursor

end ByteGrammar
