/-
  Sets of bytes as four words of 64 bits.

  Main declarations:
    * `ByteSet.contains`, `ByteSet.insert`
    * `ByteSet.ofList`, `ByteSet.insertRange`
    * `ByteSet.members`
-/

------------------------------------------------------------
-- Sets
------------------------------------------------------------

namespace ByteGrammar

/- A set of bytes: byte `b` is bit `b % 64` of word
  `b / 64`. -/
structure ByteSet where
  words : Vector UInt64 4
deriving DecidableEq

namespace ByteSet

/- The set without members. -/
def empty : ByteSet :=
  ⟨Vector.replicate 4 0⟩

/- The word that holds a byte. -/
def wordIndex
    (byte : UInt8) :
    Fin 4 :=
  ⟨byte.toNat / 64, by
    have hByte := byte.toNat_lt
    omega⟩

/- The word with the bit of a byte alone. -/
def bit
    (byte : UInt8) :
    UInt64 :=
  1 <<< UInt64.ofNat (byte.toNat % 64)

/- Whether a byte is a member. -/
def contains
    (set : ByteSet)
    (byte : UInt8) :
    Bool :=
  set.words[wordIndex byte] &&& bit byte != 0

/- The set with one more member. -/
def insert
    (set : ByteSet)
    (byte : UInt8) :
    ByteSet :=
  ⟨set.words.set (wordIndex byte)
    (set.words[wordIndex byte] ||| bit byte)⟩

/- The set with the members of a list added. -/
def insertAll
    (set : ByteSet)
    (bytes : List UInt8) :
    ByteSet :=
  bytes.foldl insert set

/- The set of the members of a list. -/
def ofList
    (bytes : List UInt8) :
    ByteSet :=
  empty.insertAll bytes

/- The bytes in ascending order. -/
def allBytes : List UInt8 :=
  (List.range 256).map UInt8.ofNat

/- The set with the bytes from `low` to `high` added, both
  included; none if they are out of order. -/
def insertRange
    (set : ByteSet)
    (low high : UInt8) :
    ByteSet :=
  set.insertAll
    (allBytes.filter fun byte => low ≤ byte && byte ≤ high)

/- The members in ascending order. -/
def members
    (set : ByteSet) :
    List UInt8 :=
  allBytes.filter set.contains

end ByteSet

end ByteGrammar
