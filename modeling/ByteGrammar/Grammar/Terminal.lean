import ByteGrammar.Grammar.ByteSet
import ByteGrammar.Grammar.Value
import ByteGrammar.Text.StringLiteral

/-
  Parsers without parts: what each matches at the start of
  the remaining bytes.

  A terminal sees nothing but the remaining bytes. Scanning
  them gives a hit, whose value may depend on where it
  starts, or a miss, and says how many bytes were read for
  it, if any were.

  To read no bytes is not the same as to read nothing: what
  is read counts as reached, and a cursor that was set to a
  checkpoint of another one may stand at a position that it
  never reached itself.

  Main declarations:
    * `Terminal`, `Scan`
    * `Terminal.scan`
-/

------------------------------------------------------------
-- Terminals
------------------------------------------------------------

namespace ByteGrammar

/- A parser that has no parts. -/
inductive Terminal where
  | byteWhere (test : UInt8 → Bool)
  | char (expected : Char)
  | text (expected : String)
  | keyword (word : String)
  | run (test : UInt8 → Bool) (min : Nat)
      (max : Option Nat)
  | identifier
  | unsigned
  | signed
  | float
  | number
  | stringLiteral (quote : UInt8)
  | eof
  | succeed (value : Value)
  | fail

/- What a terminal finds at the start of some bytes: a match
  of the bytes it reads, a match for which nothing is read,
  a mismatch after some bytes were read, or a mismatch for
  which nothing is read. -/
inductive Scan where
  | hit (length : Nat) (value : Nat → Value)
  | still (value : Value)
  | broken (length : Nat)
  | miss

namespace Scan

/- A hit whose value is the region it covers. -/
def covered
    (length : Nat) :
    Scan :=
  .hit length fun start => .region ⟨start, length⟩

/- A hit for a value with a length, and a miss if there is
  none. -/
def ofOption
    {α : Type}
    (value : α → Value) :
    Option (α × Nat) → Scan
  | some (found, length) => .hit length fun _ => value found
  | none => .miss

end Scan

end ByteGrammar

------------------------------------------------------------
-- Classes of Bytes
------------------------------------------------------------

namespace ByteGrammar

namespace ByteClass

/- Letters of ASCII. -/
def isAlpha
    (byte : UInt8) :
    Bool :=
  (0x41 ≤ byte && byte ≤ 0x5A) ||
    (0x61 ≤ byte && byte ≤ 0x7A)

/- Upper-case letters of ASCII. -/
def isUpper
    (byte : UInt8) :
    Bool :=
  0x41 ≤ byte && byte ≤ 0x5A

/- Letters and digits of ASCII. -/
def isAlphanumeric
    (byte : UInt8) :
    Bool :=
  isAlpha byte || Digits.isDecimal byte

/- Bytes of characters beyond ASCII. -/
def isNonAscii
    (byte : UInt8) :
    Bool :=
  0x80 ≤ byte

/- Bytes that an identifier starts with. -/
def startsIdentifier
    (byte : UInt8) :
    Bool :=
  isAlpha byte || byte == 0x5F

/- Bytes that an identifier goes on with. -/
def continuesIdentifier
    (byte : UInt8) :
    Bool :=
  isAlphanumeric byte || byte == 0x5F

/- The class of a name. -/
def ofName? :
    String → Option (UInt8 → Bool)
  | "digit" => some Digits.isDecimal
  | "alpha" => some isAlpha
  | "alnum" => some isAlphanumeric
  | "hex" => some Digits.isHexadecimal
  | "upper" => some isUpper
  | "non_ascii" => some isNonAscii
  | "not_newline" => some (· != 0x0A)
  | "any" => some fun _ => true
  | "none" => some fun _ => false
  | _ => none

end ByteClass

end ByteGrammar

------------------------------------------------------------
-- Scanning
------------------------------------------------------------

namespace ByteGrammar

namespace Terminal

/- The length of the longest common start of two lists. -/
def commonLength :
    List UInt8 → List UInt8 → Nat
  | byte :: rest, expected :: more =>
      if byte = expected then commonLength rest more + 1
      else 0
  | _, _ => 0

/- Scans for one byte that passes a test. -/
def scanByte
    (test : UInt8 → Bool) :
    List UInt8 → Scan
  | byte :: _ =>
      if test byte then .hit 1 fun _ => .byte byte
      else .miss
  | [] => .miss

/- Scans for a text. What is met of it is read, also if the
  rest is not there. -/
def scanText
    (text : String)
    (bytes : List UInt8) :
    Scan :=
  let expected := Utf8.encode text
  let matched := commonLength bytes expected
  if matched < expected.length then .broken matched
  else .hit matched fun _ => .str text

/- Scans for a word that no byte of an identifier follows.
  What is met of it is read, also if the rest is not there
  or such a byte follows. -/
def scanKeyword
    (word : String)
    (bytes : List UInt8) :
    Scan :=
  let expected := Utf8.encode word
  let matched := commonLength bytes expected
  let bounded :=
    match bytes.drop matched with
    | next :: _ => !ByteClass.continuesIdentifier next
    | [] => true
  if matched < expected.length ∨ bounded = false then
    .broken matched
  else .hit matched fun _ => .str word

/- Scans for a run of at least `min` and at most `max` bytes
  that pass a test, as long as possible. -/
def scanRun
    (test : UInt8 → Bool)
    (min : Nat)
    (max : Option Nat)
    (bytes : List UInt8) :
    Scan :=
  let window :=
    match max with
    | some max => bytes.take max
    | none => bytes
  let length := (window.takeWhile test).length
  if length < min then .miss else Scan.covered length

/- Scans for an identifier. -/
def scanIdentifier
    (bytes : List UInt8) :
    Scan :=
  match bytes with
  | first :: _ =>
      if ByteClass.startsIdentifier first then
        Scan.covered
          (bytes.takeWhile
            ByteClass.continuesIdentifier).length
      else .miss
  | [] => .miss

/- What a terminal finds at the start of the remaining
  bytes. -/
def scan
    (terminal : Terminal)
    (bytes : List UInt8) :
    Scan :=
  match terminal with
  | .byteWhere test => scanByte test bytes
  | .char expected =>
      let spelling := String.utf8EncodeChar expected
      if spelling.isPrefixOf bytes then
        .hit spelling.length fun _ => .char expected
      else .miss
  | .text expected => scanText expected bytes
  | .keyword word => scanKeyword word bytes
  | .run test min max => scanRun test min max bytes
  | .identifier => scanIdentifier bytes
  | .unsigned =>
      Scan.ofOption Value.u64 (Integer.unsigned? bytes)
  | .signed =>
      Scan.ofOption Value.i64 (Integer.signed? bytes)
  | .float => Scan.ofOption Value.f64 (Literal.float? bytes)
  | .number =>
      Scan.ofOption Value.ofNumber (Literal.number? bytes)
  | .stringLiteral quote =>
      Scan.ofOption Value.str
        (StringLiteral.decode? quote bytes)
  | .eof =>
      if bytes.isEmpty then .still .unit else .miss
  | .succeed value => .still value
  | .fail => .miss

end Terminal

end ByteGrammar
