import ByteGrammar.Number.Binary64

/-
  Numeric literals at the start of bytes.

  `Literal.scan?` finds the longest literal: an optional
  sign, digits, an optional fraction and an optional
  exponent. A point or an exponent marker that no digit
  follows is left alone.

  Main declarations:
    * `Literal.scan?`
    * `Literal.float?`, `Literal.number?`
-/

------------------------------------------------------------
-- Extent
------------------------------------------------------------

namespace ByteGrammar

namespace Literal

/- How far a literal reaches, and whether it has a fraction
  or an exponent. -/
structure Extent where
  length : Nat
  isFloat : Bool
deriving DecidableEq

/- The length of a fraction at the start: a point and at
  least one digit. -/
def fractionLength
    (bytes : List UInt8) :
    Nat :=
  match bytes with
  | 0x2E :: rest =>
      match (Digits.run rest).length with
      | 0 => 0
      | count + 1 => count + 2
  | _ => 0

/- The length of an exponent at the start: a marker, an
  optional sign and at least one digit. -/
def exponentLength
    (bytes : List UInt8) :
    Nat :=
  match bytes with
  | marker :: rest =>
      if marker == 0x65 || marker == 0x45 then
        let sign := Integer.signLength rest
        match (Digits.run (rest.drop sign)).length with
        | 0 => 0
        | count + 1 => sign + count + 2
      else 0
  | [] => 0

/- The longest numeric literal at the start. -/
def scan?
    (bytes : List UInt8) :
    Option Extent :=
  let sign := Integer.signLength bytes
  let whole := (Digits.run (bytes.drop sign)).length
  if whole = 0 then none
  else
    let fraction :=
      fractionLength (bytes.drop (sign + whole))
    let exponent :=
      exponentLength (bytes.drop (sign + whole + fraction))
    some
      { length := sign + whole + fraction + exponent
        isFloat := decide (0 < fraction + exponent) }

end Literal

end ByteGrammar

------------------------------------------------------------
-- Values
------------------------------------------------------------

namespace ByteGrammar

/- A number of either kind. -/
inductive Number where
  | integer (value : Int)
  | float (value : Binary64)

namespace Literal

/- The finite value that a literal denotes in floating
  point. -/
def finite?
    (literal : List UInt8) :
    Option Binary64 :=
  (Binary64.parse? literal).filter Binary64.isFinite

/- The literal at the start as a floating point value, and
  its length. A literal too large for the format is
  refused. -/
def float?
    (bytes : List UInt8) :
    Option (Binary64 × Nat) :=
  match scan? bytes with
  | none => none
  | some extent =>
      (finite? (bytes.take extent.length)).map
        fun value => (value, extent.length)

/- The literal at the start as a number of its own kind,
  and its length. -/
def number?
    (bytes : List UInt8) :
    Option (Number × Nat) :=
  match scan? bytes with
  | none => none
  | some extent =>
      let literal := bytes.take extent.length
      let value :=
        if extent.isFloat then
          (finite? literal).map Number.float
        else
          (Integer.parse? Integer.least Integer.greatest
            literal).map Number.integer
      value.map fun value => (value, extent.length)

end Literal

end ByteGrammar
