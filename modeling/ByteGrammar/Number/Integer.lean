import ByteGrammar.Number.Digits

/-
  Decimal integers of bounded size.

  `Integer.parse?` reads bytes that must be an integer as a
  whole. `Integer.unsigned?` and `Integer.signed?` read an
  integer at the start of some bytes and say how long it is.

  Main declarations:
    * `Integer.inU64`, `Integer.inI64`
    * `Integer.signLength`
    * `Integer.parse?`
    * `Integer.accumulate`
    * `Integer.unsigned?`, `Integer.signed?`
-/

------------------------------------------------------------
-- Ranges
------------------------------------------------------------

namespace ByteGrammar

namespace Integer

/- The number of values of 64 bits. -/
def words : Nat :=
  0x10000000000000000

/- The least integer of 64 bits in two's complement. -/
def least : Int :=
  -0x8000000000000000

/- The greatest integer of 64 bits in two's complement. -/
def greatest : Int :=
  0x7FFFFFFFFFFFFFFF

/- The naturals of 64 bits. -/
def inU64
    (value : Nat) :
    Bool :=
  decide (value < words)

/- The integers of 64 bits in two's complement. -/
def inI64
    (value : Int) :
    Bool :=
  decide (least ≤ value ∧ value ≤ greatest)

/- The integer that a sign and a magnitude make. -/
def signed
    (negative : Bool)
    (magnitude : Nat) :
    Int :=
  if negative then -(magnitude : Int) else magnitude

end Integer

end ByteGrammar

------------------------------------------------------------
-- Signs
------------------------------------------------------------

namespace ByteGrammar

namespace Integer

/- The bytes `+` and `-`. -/
def isSign
    (byte : UInt8) :
    Bool :=
  byte == 0x2B || byte == 0x2D

/- The length of an optional sign at the start. -/
def signLength
    (bytes : List UInt8) :
    Nat :=
  match bytes with
  | byte :: _ => if isSign byte then 1 else 0
  | [] => 0

/- Whether the bytes start with a minus sign. -/
def isNegative
    (bytes : List UInt8) :
    Bool :=
  bytes.head? == some 0x2D

end Integer

end ByteGrammar

------------------------------------------------------------
-- Integers as a Whole
------------------------------------------------------------

namespace ByteGrammar

namespace Integer

/-
  Reads all of `bytes` as an integer between `low` and
  `high`. A plus sign is always allowed, a minus sign only
  if some integer of the range is negative.
-/
def parse?
    (low high : Int)
    (bytes : List UInt8) :
    Option Int :=
  let negative := isNegative bytes
  let digits := bytes.drop (signLength bytes)
  if negative && decide (0 ≤ low) then none
  else if digits.isEmpty then none
  else if digits.all Digits.isDecimal then
    let value := signed negative (Digits.decimal digits)
    if low ≤ value ∧ value ≤ high then some value
    else none
  else none

end Integer

end ByteGrammar

------------------------------------------------------------
-- Integers at the Start of Bytes
------------------------------------------------------------

namespace ByteGrammar

namespace Integer

/- A natural, if it fits in 64 bits. -/
def word?
    (value : Nat) :
    Option Nat :=
  if inU64 value then some value else none

/- The total that one more decimal digit makes of another.
  Each step of it must fit in 64 bits. -/
def extend?
    (total : Nat)
    (digit : UInt8) :
    Option Nat :=
  (word? (total * 10)).bind fun shifted =>
    word? (shifted + (digit.toNat - 0x30))

/-
  Reads digits on from a total, and counts them on. It gives
  up at the first digit with which the total does not fit in
  64 bits.
-/
def accumulate
    (total count : Nat) :
    List UInt8 → Option (Nat × Nat)
  | [] => some (total, count)
  | byte :: rest =>
      if Digits.isDecimal byte then
        match extend? total byte with
        | some total => accumulate total (count + 1) rest
        | none => none
      else some (total, count)

/-
  The number of a non-empty run of digits at the start and
  the length of the run. The run is never cut short: one
  that does not fit in 64 bits is refused as a whole.
-/
def unsigned?
    (bytes : List UInt8) :
    Option (Nat × Nat) :=
  (accumulate 0 0 bytes).filter fun (_, length) =>
    length != 0

/-
  The number of an optional sign and a non-empty run of
  digits at the start, and the length of both. A number
  that does not fit in 64 bits is refused.
-/
def signed?
    (bytes : List UInt8) :
    Option (Int × Nat) :=
  let sign := signLength bytes
  let digits := Digits.run (bytes.drop sign)
  if digits.isEmpty then none
  else
    let length := sign + digits.length
    (parse? least greatest (bytes.take length)).map
      fun value => (value, length)

end Integer

end ByteGrammar
