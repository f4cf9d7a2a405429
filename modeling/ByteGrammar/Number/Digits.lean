/-
  Digits in bytes and the numbers they denote.

  Main declarations:
    * `Digits.isDecimal`, `Digits.isHexadecimal`
    * `Digits.decimal`, `Digits.hexadecimal`
    * `Digits.run`
-/

------------------------------------------------------------
-- Single Digits
------------------------------------------------------------

namespace ByteGrammar

namespace Digits

/- The bytes `0` to `9`. -/
def isDecimal
    (byte : UInt8) :
    Bool :=
  0x30 ≤ byte && byte ≤ 0x39

/- The value of a hexadecimal digit of either case. -/
def hexValue?
    (byte : UInt8) :
    Option Nat :=
  if 0x30 ≤ byte ∧ byte ≤ 0x39 then
    some (byte.toNat - 0x30)
  else if 0x61 ≤ byte ∧ byte ≤ 0x66 then
    some (byte.toNat - 0x61 + 10)
  else if 0x41 ≤ byte ∧ byte ≤ 0x46 then
    some (byte.toNat - 0x41 + 10)
  else none

/- The hexadecimal digits of either case. -/
def isHexadecimal
    (byte : UInt8) :
    Bool :=
  (hexValue? byte).isSome

end Digits

end ByteGrammar

------------------------------------------------------------
-- Runs of Digits
------------------------------------------------------------

namespace ByteGrammar

namespace Digits

/- The number that digits of the given values denote in
  `base`, read on from `start`. -/
def valueFrom
    (base start : Nat)
    (values : List Nat) :
    Nat :=
  values.foldl (fun total value => total * base + value) start

/- The number that a run of decimal digits denotes. -/
def decimal
    (bytes : List UInt8) :
    Nat :=
  valueFrom 10 0 (bytes.map fun byte => byte.toNat - 0x30)

/- The number that a run of hexadecimal digits denotes. -/
def hexadecimal
    (bytes : List UInt8) :
    Nat :=
  valueFrom 16 0
    (bytes.map fun byte => (hexValue? byte).getD 0)

/- The longest run of decimal digits at the start. -/
def run
    (bytes : List UInt8) :
    List UInt8 :=
  bytes.takeWhile isDecimal

end Digits

end ByteGrammar
