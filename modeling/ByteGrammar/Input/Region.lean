/-
  Regions of a buffer.

  Main declarations:
    * `Region`, `Region.stop`, `Region.between`
    * `Region.slice?`
    * `Region.slice?_isSome_iff`
-/

------------------------------------------------------------
-- Regions
------------------------------------------------------------

namespace ByteGrammar

/- A stretch of a buffer, by offset and length. -/
structure Region where
  offset : Nat
  length : Nat
deriving DecidableEq

namespace Region

/- The empty region at the start of a buffer. -/
def origin : Region :=
  ⟨0, 0⟩

/- The offset just past the region. -/
def stop
    (region : Region) :
    Nat :=
  region.offset + region.length

/- The region from `start` up to `stop`. -/
def between
    (start stop : Nat) :
    Region :=
  ⟨start, stop - start⟩

/- Whether the region covers nothing. -/
def isEmpty
    (region : Region) :
    Bool :=
  region.length == 0

/- The bytes that the region covers, if all of it lies in
  the buffer. -/
def slice?
    (region : Region)
    (buffer : List UInt8) :
    Option (List UInt8) :=
  if region.stop ≤ buffer.length then
    some ((buffer.drop region.offset).take region.length)
  else none

/- A region has a slice exactly when it lies in the
  buffer. -/
theorem slice?_isSome_iff
    (region : Region)
    (buffer : List UInt8) :
    (region.slice? buffer).isSome ↔
      region.stop ≤ buffer.length := by
  unfold slice?
  split <;> simp_all

/- The region between two offsets in order ends at the
  second. -/
theorem stop_between
    {start stop : Nat}
    (hOrder : start ≤ stop) :
    (between start stop).stop = stop := by
  simp [between, Region.stop, Nat.add_sub_cancel' hOrder]

end Region

end ByteGrammar
