import ByteGrammar.Number.Integer

/-
  Binary floating point of 64 bits, by its bits alone.

  A decimal number is an exact pair of digits and exponent;
  `Binary64.ofDecimal` rounds it to the nearest value of the
  format in exact arithmetic, a half going to the even
  neighbour, and beyond the largest value to infinity.

  Main declarations:
    * `Decimal`, `Decimal.parse?`
    * `Binary64.nearest`, `Binary64.ofDecimal`
    * `Binary64.parse?`
-/

------------------------------------------------------------
-- Values of the Format
------------------------------------------------------------

namespace ByteGrammar

/- A value of the 64-bit binary floating point format. -/
structure Binary64 where
  bits : UInt64
deriving DecidableEq

namespace Binary64

/- The magnitude bits of infinity; magnitudes above it are
  no numbers. -/
def infinityBits : Nat :=
  0x7FF0000000000000

/- The magnitude bits of the NaN that texts stand for. -/
def quietBits : Nat :=
  0x7FF8000000000000

/- The bit of the sign. -/
def signBit : Nat :=
  0x8000000000000000

/- The step from one exponent to the next in the bits. -/
def exponentStep : Nat :=
  0x10000000000000

/- The bits without the sign. -/
def magnitude
    (value : Binary64) :
    Nat :=
  value.bits.toNat % signBit

/- Neither infinite nor a NaN. -/
def isFinite
    (value : Binary64) :
    Bool :=
  decide (value.magnitude < infinityBits)

/- Not a number. -/
def isNaN
    (value : Binary64) :
    Bool :=
  decide (infinityBits < value.magnitude)

/- The value of a sign and magnitude bits. -/
def ofMagnitude
    (negative : Bool)
    (magnitude : Nat) :
    Binary64 :=
  ⟨UInt64.ofNat
    ((if negative then signBit else 0) + magnitude)⟩

end Binary64

end ByteGrammar

------------------------------------------------------------
-- Rounding
------------------------------------------------------------

namespace ByteGrammar

namespace Binary64

/- `numerator / denominator` measured in units of
  `2 ^ scale`, as a new fraction. -/
def scaled
    (numerator denominator : Nat)
    (scale : Int) :
    Nat × Nat :=
  (numerator <<< (-scale).toNat,
    denominator <<< scale.toNat)

/- The integer nearest to a fraction; a half goes to the
  even neighbour. -/
def roundHalfEven
    (numerator denominator : Nat) :
    Nat :=
  let quotient := numerator / denominator
  let remainder := numerator % denominator
  if denominator < 2 * remainder ∨
      (2 * remainder = denominator ∧ quotient % 2 = 1) then
    quotient + 1
  else quotient

/-
  The exponent of the last place of the format near a
  positive fraction: the fraction has 53 binary digits above
  it, or it is the least exponent of the format.
-/
def lastPlace
    (numerator denominator : Nat) :
    Int :=
  let low : Int :=
    max ((numerator.log2 : Int) - denominator.log2 - 53)
      (-1074)
  let (top, bottom) := scaled numerator denominator low
  if 2 * exponentStep ≤ top / bottom then low + 1
  else low

/-
  The magnitude bits nearest to a fraction. The exponent
  field and the mantissa are added, so that a mantissa
  rounded up to the next power of two carries into the
  exponent.
-/
def nearest
    (numerator denominator : Nat) :
    Nat :=
  if numerator = 0 then 0
  else
    let scale := lastPlace numerator denominator
    let (top, bottom) :=
      scaled numerator denominator scale
    min infinityBits
      ((scale + 1074).toNat * exponentStep +
        roundHalfEven top bottom)

end Binary64

end ByteGrammar

------------------------------------------------------------
-- Decimal Numbers
------------------------------------------------------------

namespace ByteGrammar

/- The number `digits * 10 ^ exponent` with a sign, which
  zero has too. -/
structure Decimal where
  negative : Bool
  digits : Nat
  exponent : Int

namespace Decimal

/- The exponent that an exponent part denotes: a marker, an
  optional sign and at least one digit. No bytes denote the
  exponent zero. -/
def exponent?
    (bytes : List UInt8) :
    Option Int :=
  match bytes with
  | [] => some 0
  | marker :: rest =>
      let digits := rest.drop (Integer.signLength rest)
      if marker != 0x65 && marker != 0x45 then none
      else if digits.isEmpty then none
      else if digits.all Digits.isDecimal then
        some (Integer.signed (Integer.isNegative rest)
          (Digits.decimal digits))
      else none

/-
  Reads all of `bytes` as a decimal number: an optional
  sign, digits with at most one point among, before or after
  them, and an optional exponent part.
-/
def parse?
    (bytes : List UInt8) :
    Option Decimal :=
  let unsigned := bytes.drop (Integer.signLength bytes)
  let whole := Digits.run unsigned
  let afterWhole := unsigned.drop whole.length
  let (fraction, afterFraction) :=
    match afterWhole with
    | 0x2E :: rest =>
        let fraction := Digits.run rest
        (fraction, rest.drop fraction.length)
    | rest => ([], rest)
  if whole.isEmpty && fraction.isEmpty then none
  else
    (exponent? afterFraction).map fun exponent =>
      { negative := Integer.isNegative bytes
        digits := Digits.decimal (whole ++ fraction)
        exponent := exponent - fraction.length }

end Decimal

namespace Binary64

/-
  The value nearest to a decimal number. Beyond these
  exponents the result is infinite or zero whatever the
  digits, and the powers of ten need not be formed.
-/
def ofDecimal
    (decimal : Decimal) :
    Binary64 :=
  let digits := decimal.digits
  let exponent := decimal.exponent
  ofMagnitude decimal.negative
    (if digits = 0 then 0
    else if 400 < exponent then infinityBits
    else if exponent < -(digits.log2 + 400 : Int) then 0
    else
      nearest (digits * Nat.pow 10 exponent.toNat)
        (Nat.pow 10 (-exponent).toNat))

/- The upper-case form of an ASCII letter. -/
def upper
    (byte : UInt8) :
    UInt8 :=
  if 0x61 ≤ byte ∧ byte ≤ 0x7A then byte - 0x20 else byte

/- Whether unsigned bytes are a name of infinity, in any
  case. -/
def namesInfinity
    (bytes : List UInt8) :
    Bool :=
  let letters := bytes.map upper
  letters == [0x49, 0x4E, 0x46] ||
    letters ==
      [0x49, 0x4E, 0x46, 0x49, 0x4E, 0x49, 0x54, 0x59]

/- Whether unsigned bytes are the name of no number, in any
  case. -/
def namesNaN
    (bytes : List UInt8) :
    Bool :=
  bytes.map upper == [0x4E, 0x41, 0x4E]

/- Reads all of `bytes` as a decimal number, an infinity or
  a NaN. -/
def parse?
    (bytes : List UInt8) :
    Option Binary64 :=
  let negative := Integer.isNegative bytes
  let unsigned := bytes.drop (Integer.signLength bytes)
  if namesInfinity unsigned then
    some (ofMagnitude negative infinityBits)
  else if namesNaN unsigned then
    some (ofMagnitude negative quietBits)
  else (Decimal.parse? bytes).map ofDecimal

end Binary64

end ByteGrammar
