import ByteGrammar.Number.Digits
import ByteGrammar.Text.Utf8

/-
  Quoted string literals with escapes.

  A literal is a quote, then units, then the quote again. A
  unit is a byte that is neither the quote nor a backslash
  and stands for itself, or an escape that stands for one
  byte. The bytes of all units must spell a text.

  Main declarations:
    * `StringLiteral.simpleEscape?`, `StringLiteral.hexByte?`
    * `StringLiteral.units?`
    * `StringLiteral.decode?`
-/

------------------------------------------------------------
-- Escapes
------------------------------------------------------------

namespace ByteGrammar

namespace StringLiteral

/- The byte `\`. -/
def backslash : UInt8 :=
  0x5C

/- The letter `x`, which opens a numeric escape. -/
def hexMark : UInt8 :=
  0x78

/- The byte that a one-letter escape stands for. -/
def simpleEscape?
    (letter : UInt8) :
    Option UInt8 :=
  if letter = 0x6E then some 0x0A
  else if letter = 0x74 then some 0x09
  else if letter = 0x72 then some 0x0D
  else if letter = 0x30 then some 0x00
  else if letter = 0x5C ∨ letter = 0x22 ∨ letter = 0x27 then
    some letter
  else none

/- The byte that two hexadecimal digits stand for. -/
def hexByte?
    (high low : UInt8) :
    Option UInt8 := do
  let high ← Digits.hexValue? high
  let low ← Digits.hexValue? low
  return UInt8.ofNat (high * 16 + low)

end StringLiteral

end ByteGrammar

------------------------------------------------------------
-- Literals
------------------------------------------------------------

namespace ByteGrammar

namespace StringLiteral

/- Puts a unit that takes `width` bytes before others. -/
def prepend
    (unit : UInt8)
    (width : Nat)
    (others : Option (List UInt8 × Nat)) :
    Option (List UInt8 × Nat) :=
  others.map fun (units, length) =>
    (unit :: units, length + width)

/-
  The bytes of the units up to the closing quote, and how
  many bytes the units and the quote take. A quote always
  closes; only after that does a backslash open an escape.
-/
def units?
    (quote : UInt8) :
    List UInt8 → Option (List UInt8 × Nat)
  | [] => none
  | [byte] => if byte = quote then some ([], 1) else none
  | byte :: letter :: rest =>
      if byte = quote then some ([], 1)
      else if byte = backslash then
        if letter = hexMark then
          match rest with
          | high :: low :: more =>
              match hexByte? high low with
              | some unit => prepend unit 4 (units? quote more)
              | none => none
          | _ => none
        else
          match simpleEscape? letter with
          | some unit => prepend unit 2 (units? quote rest)
          | none => none
      else prepend byte 1 (units? quote (letter :: rest))

/- The text of the literal at the start of `bytes`, and the
  length of the literal. -/
def decode?
    (quote : UInt8)
    (bytes : List UInt8) :
    Option (String × Nat) :=
  match bytes with
  | [] => none
  | first :: rest =>
      if first = quote then
        match units? quote rest with
        | none => none
        | some (contents, length) =>
            (Utf8.decode? contents).map fun text =>
              (text, length + 1)
      else none

end StringLiteral

end ByteGrammar
