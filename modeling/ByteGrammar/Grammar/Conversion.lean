import ByteGrammar.Grammar.Value

/-
  Raw matches turned into values.

  Main declarations:
    * `TextKind`, `TextKind.read?`
    * `Conversion`, `Conversion.read`
-/

------------------------------------------------------------
-- Text of a Known Kind
------------------------------------------------------------

namespace ByteGrammar

/- The kinds of text that stand for a value. -/
inductive TextKind where
  | u8
  | i32
  | u64
  | bool
  | char
  | f64
  | ipv4
deriving DecidableEq

namespace TextKind

/- The kind of a name. -/
def ofName? :
    String → Option TextKind
  | "u8" => some .u8
  | "i32" => some .i32
  | "u64" => some .u64
  | "bool" => some .bool
  | "char" => some .char
  | "f64" => some .f64
  | "ipv4" => some .ipv4
  | _ => none

/- The number of one part of an address: up to three digits
  without a leading zero, below 256. -/
def octet?
    (digits : List UInt8) :
    Option Nat :=
  if digits.isEmpty || 3 < digits.length then none
  else if digits.head? == some 0x30 && 1 < digits.length then
    none
  else if digits.all Digits.isDecimal then
    if Digits.decimal digits < 256 then
      some (Digits.decimal digits)
    else none
  else none

/- The stretches of `bytes` between points. -/
def dotted :
    List UInt8 → List (List UInt8)
  | [] => [[]]
  | byte :: rest =>
      if byte = 0x2E then [] :: dotted rest
      else
        match dotted rest with
        | [] => [[byte]]
        | part :: more => (byte :: part) :: more

/- Four octets with points between. -/
def address?
    (bytes : List UInt8) :
    Option Value :=
  match (dotted bytes).mapM octet? with
  | some [first, second, third, fourth] =>
      some (.ipv4 first second third fourth)
  | _ => none

/- The value that a text of a kind stands for. -/
def read?
    (kind : TextKind)
    (text : String) :
    Option Value :=
  let bytes := Utf8.encode text
  match kind with
  | .u8 => (Integer.parse? 0 255 bytes).map Value.i64
  | .i32 =>
      (Integer.parse? (-0x80000000) 0x7FFFFFFF bytes).map
        Value.i64
  | .u64 =>
      (Integer.parse? 0 0xFFFFFFFFFFFFFFFF bytes).map
        fun value => .u64 value.toNat
  | .bool =>
      if text = "true" then some (.bool true)
      else if text = "false" then some (.bool false)
      else none
  | .char =>
      match text.toList with
      | [value] => some (.char value)
      | _ => none
  | .f64 => (Binary64.parse? bytes).map Value.f64
  | .ipv4 => address? bytes

end TextKind

end ByteGrammar

------------------------------------------------------------
-- Conversions
------------------------------------------------------------

namespace ByteGrammar

/- What a raw match is turned into. -/
inductive Conversion where
  | text
  | hexadecimal
  | character
  | parsed (kind : TextKind)

namespace Conversion

/- Reads the raw region of a cursor. It may be unreadable,
  which is an error, or readable but of the wrong kind, in
  which case there is no value. -/
def read
    (conversion : Conversion)
    (cursor : Cursor) :
    Except ReadError (Option Value) :=
  match conversion with
  | .text =>
      (cursor.text cursor.raw).map fun value =>
        some (.str value)
  | .hexadecimal =>
      cursor.rawHexadecimal.map fun value =>
        some (.u64 value)
  | .character =>
      cursor.rawCharacter.map fun value => some (.char value)
  | .parsed kind => (cursor.text cursor.raw).map kind.read?

end Conversion

end ByteGrammar
