import ByteGrammar.Input.Cursor
import ByteGrammar.Number.Integer
import ByteGrammar.Text.Utf8

/-
  Regions of a buffer read as text, as a hexadecimal number
  or as one character.

  Main declarations:
    * `ReadError`, `ReadError.message`
    * `Cursor.text`
    * `Cursor.rawHexadecimal`, `Cursor.rawCharacter`
-/

------------------------------------------------------------
-- Errors
------------------------------------------------------------

namespace ByteGrammar

/- Why a region could not be read. -/
inductive ReadError where
  | outOfRange (offset length size : Nat)
  | invalidUtf8 (offset : Nat)
  | notHexadecimal (offset : Nat)
  | tooLarge (offset : Nat)
  | notOneCharacter (offset length : Nat)
deriving DecidableEq

namespace ReadError

/- The text of the error. -/
def message :
    ReadError → String
  | .outOfRange offset length size =>
      s!"region {offset}+{length} is out of range " ++
        s!"for input of {size} bytes"
  | .invalidUtf8 offset =>
      s!"invalid UTF-8 at byte {offset}"
  | .notHexadecimal offset =>
      s!"raw match at byte {offset} is not a " ++
        "hexadecimal number"
  | .tooLarge offset =>
      s!"hexadecimal number at byte {offset} does not " ++
        "fit in 64 bits"
  | .notOneCharacter offset length =>
      s!"raw match {offset}+{length} is not exactly " ++
        "one character"

end ReadError

end ByteGrammar

------------------------------------------------------------
-- Regions as Text
------------------------------------------------------------

namespace ByteGrammar

namespace Cursor

/- The bytes of a region of the buffer. -/
def bytes
    (cursor : Cursor)
    (region : Region) :
    Except ReadError (List UInt8) :=
  match region.slice? cursor.data with
  | some bytes => .ok bytes
  | none =>
      .error (.outOfRange region.offset region.length
        cursor.data.length)

/- The text of a region of the buffer. The error names the
  first byte that is no part of a text. -/
def text
    (cursor : Cursor)
    (region : Region) :
    Except ReadError String :=
  match cursor.bytes region with
  | .error error => .error error
  | .ok bytes =>
      match Utf8.decode? bytes with
      | some text => .ok text
      | none =>
          .error (.invalidUtf8
            (region.offset + Utf8.validLength bytes))

end Cursor

end ByteGrammar

------------------------------------------------------------
-- The Raw Region as a Number or Character
------------------------------------------------------------

namespace ByteGrammar

/- What follows an optional `0x` or `0X`. -/
def hexadecimalDigits
    (bytes : List UInt8) :
    List UInt8 :=
  match bytes with
  | 0x30 :: 0x78 :: digits => digits
  | 0x30 :: 0x58 :: digits => digits
  | digits => digits

namespace Cursor

/- The raw region read as a hexadecimal number of 64 bits,
  with an optional `0x` before it. -/
def rawHexadecimal
    (cursor : Cursor) :
    Except ReadError Nat :=
  match cursor.text cursor.raw with
  | .error error => .error error
  | .ok text =>
      let digits := hexadecimalDigits (Utf8.encode text)
      if digits.isEmpty then
        .error (.notHexadecimal cursor.raw.offset)
      else if digits.all Digits.isHexadecimal then
        if Integer.inU64 (Digits.hexadecimal digits) then
          .ok (Digits.hexadecimal digits)
        else .error (.tooLarge cursor.raw.offset)
      else .error (.notHexadecimal cursor.raw.offset)

/- The raw region read as exactly one character. -/
def rawCharacter
    (cursor : Cursor) :
    Except ReadError Char :=
  match cursor.text cursor.raw with
  | .error error => .error error
  | .ok text =>
      match text.toList with
      | [char] => .ok char
      | _ =>
          .error (.notOneCharacter cursor.raw.offset
            cursor.raw.length)

end Cursor

end ByteGrammar
