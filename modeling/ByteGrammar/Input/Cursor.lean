import ByteGrammar.Input.Region

/-
  A cursor over a buffer of bytes.

  A cursor has a position, the region of the last raw match
  and the furthest position ever reached. A checkpoint holds
  the first two; restoring one leaves the furthest position
  as it is.

  Main declarations:
    * `Cursor`, `Checkpoint`, `Cursor.SamePlace`
    * `Cursor.advance`, `Cursor.restore`, `Cursor.mark`
    * `Cursor.skipWhile` and the two skips of blanks
    * `Cursor.lineColumn`
-/

------------------------------------------------------------
-- Cursors and Checkpoints
------------------------------------------------------------

namespace ByteGrammar

/- What a cursor can be set back to. -/
structure Checkpoint where
  position : Nat
  raw : Region
deriving DecidableEq

/- A place in a buffer, with the region of the last raw
  match and the furthest position reached so far. -/
structure Cursor where
  data : List UInt8
  position : Nat
  raw : Region
  furthest : Nat
deriving DecidableEq

namespace Cursor

/- A cursor at the start of `data`. -/
def ofBytes
    (data : List UInt8) :
    Cursor :=
  ⟨data, 0, Region.origin, 0⟩

/- The bytes from the position on. -/
def remaining
    (cursor : Cursor) :
    List UInt8 :=
  cursor.data.drop cursor.position

/- Whether nothing remains. -/
def atEnd
    (cursor : Cursor) :
    Bool :=
  decide (cursor.data.length ≤ cursor.position)

/- The byte `ahead` bytes past the position. -/
def peekAt?
    (cursor : Cursor)
    (ahead : Nat) :
    Option UInt8 :=
  cursor.data[cursor.position + ahead]?

/- The byte at the position. -/
def peek?
    (cursor : Cursor) :
    Option UInt8 :=
  cursor.data[cursor.position]?

/- Whether the remaining bytes start with `bytes`. -/
def startsWith
    (cursor : Cursor)
    (bytes : List UInt8) :
    Bool :=
  bytes.isPrefixOf cursor.remaining

/- Cursors at one position of one buffer, whatever was
  recorded and reached before. -/
structure SamePlace
    (cursor cursor' : Cursor) :
    Prop where
  data : cursor.data = cursor'.data
  position : cursor.position = cursor'.position

/- The state that `restore` brings back. -/
def checkpoint
    (cursor : Cursor) :
    Checkpoint :=
  ⟨cursor.position, cursor.raw⟩

/- Sets position and raw region back; the furthest position
  stays. -/
def restore
    (cursor : Cursor)
    (checkpoint : Checkpoint) :
    Cursor :=
  { cursor with
    position := checkpoint.position
    raw := checkpoint.raw }

/- Moves on by `count` bytes, but not past the end. -/
def advance
    (cursor : Cursor)
    (count : Nat) :
    Cursor :=
  let position :=
    min (cursor.position + count) cursor.data.length
  { cursor with
    position := position
    furthest := max cursor.furthest position }

/- Records that `count` bytes ahead were reached, without
  moving there. -/
def touch
    (cursor : Cursor)
    (count : Nat) :
    Cursor :=
  (cursor.advance count).restore cursor.checkpoint

/- Moves to the end, and says whether that was a move. -/
def moveToEnd
    (cursor : Cursor) :
    Bool × Cursor :=
  (!cursor.atEnd,
    cursor.advance (cursor.data.length - cursor.position))

/- Takes the byte at the position, if there is one. -/
def read?
    (cursor : Cursor) :
    Option UInt8 × Cursor :=
  match cursor.peek? with
  | some byte => (some byte, cursor.advance 1)
  | none => (none, cursor)

/- Records the region from `start` to `stop` as the last raw
  match. -/
def mark
    (cursor : Cursor)
    (start stop : Nat) :
    Cursor :=
  { cursor with raw := Region.between start stop }

end Cursor

end ByteGrammar

------------------------------------------------------------
-- Skipping Blanks
------------------------------------------------------------

namespace ByteGrammar

namespace Blank

/- Space, tab, vertical tab and form feed. -/
def isInline
    (byte : UInt8) :
    Bool :=
  byte == 0x20 || byte == 0x09 || byte == 0x0B ||
    byte == 0x0C

/- Line feed and carriage return. -/
def isBreak
    (byte : UInt8) :
    Bool :=
  byte == 0x0A || byte == 0x0D

/- Any of the six blanks and line breaks. -/
def isAny
    (byte : UInt8) :
    Bool :=
  isInline byte || isBreak byte

end Blank

namespace Cursor

/- Skips the longest run of bytes that pass `test`, and says
  how many they are. -/
def skipWhile
    (cursor : Cursor)
    (test : UInt8 → Bool) :
    Nat × Cursor :=
  let count := (cursor.remaining.takeWhile test).length
  (count, cursor.advance count)

/- Skips blanks within a line. -/
def skipInline
    (cursor : Cursor) :
    Nat × Cursor :=
  cursor.skipWhile Blank.isInline

/- Skips blanks and line breaks. -/
def skipBlanks
    (cursor : Cursor) :
    Nat × Cursor :=
  cursor.skipWhile Blank.isAny

end Cursor

end ByteGrammar

------------------------------------------------------------
-- Lines and Columns
------------------------------------------------------------

namespace ByteGrammar

namespace Cursor

/-
  The line of `offset`, counted from one, and its byte
  column, counted from zero. The line is one more than the
  line feeds before the offset; the column is the number of
  bytes since the last of them. An offset past the end
  counts as the end.
-/
def lineColumn
    (cursor : Cursor)
    (offset : Nat) :
    Nat × Nat :=
  let before := cursor.data.take offset
  (before.count 0x0A + 1,
    (before.reverse.takeWhile (· != 0x0A)).length)

end Cursor

end ByteGrammar

------------------------------------------------------------
-- Basic Laws
------------------------------------------------------------

namespace ByteGrammar

namespace Cursor

/- Restoring sets the position. -/
@[simp]
theorem position_restore
    (cursor : Cursor)
    (saved : Checkpoint) :
    (cursor.restore saved).position = saved.position :=
  rfl

/- Restoring sets the raw region. -/
@[simp]
theorem raw_restore
    (cursor : Cursor)
    (saved : Checkpoint) :
    (cursor.restore saved).raw = saved.raw :=
  rfl

/- Restoring keeps the furthest position. -/
@[simp]
theorem furthest_restore
    (cursor : Cursor)
    (saved : Checkpoint) :
    (cursor.restore saved).furthest = cursor.furthest :=
  rfl

/- Restoring keeps the buffer. -/
@[simp]
theorem data_restore
    (cursor : Cursor)
    (saved : Checkpoint) :
    (cursor.restore saved).data = cursor.data :=
  rfl

/- Restoring one's own checkpoint changes nothing. -/
@[simp]
theorem restore_checkpoint
    (cursor : Cursor) :
    cursor.restore cursor.checkpoint = cursor :=
  rfl

/- What is restored is the checkpoint afterwards. -/
@[simp]
theorem checkpoint_restore
    (cursor : Cursor)
    (saved : Checkpoint) :
    (cursor.restore saved).checkpoint = saved :=
  rfl

/- Advancing keeps the buffer. -/
@[simp]
theorem data_advance
    (cursor : Cursor)
    (count : Nat) :
    (cursor.advance count).data = cursor.data :=
  rfl

/- Advancing keeps the raw region. -/
@[simp]
theorem raw_advance
    (cursor : Cursor)
    (count : Nat) :
    (cursor.advance count).raw = cursor.raw :=
  rfl

/- Advancing never leaves the buffer. -/
theorem position_advance_le
    (cursor : Cursor)
    (count : Nat) :
    (cursor.advance count).position ≤ cursor.data.length :=
  Nat.min_le_right _ _

/- Advancing within the buffer moves by the count. -/
theorem position_advance
    {cursor : Cursor}
    {count : Nat}
    (hInside :
      cursor.position + count ≤ cursor.data.length) :
    (cursor.advance count).position =
      cursor.position + count :=
  Nat.min_eq_left hInside

end Cursor

end ByteGrammar
