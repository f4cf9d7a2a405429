import ByteGrammar.Grammar.Rules

/-
  Parsers made of others.

  Main declarations:
    * `Parser.both`, `Parser.andThen`, `Parser.skip`
    * `Parser.choice`, `Parser.eitherSide`
    * `Parser.many`, `Parser.many1`, `Parser.optional`
    * `Parser.charClass`, `Parser.digits` and other
      terminals by name
-/

------------------------------------------------------------
-- Terminals
------------------------------------------------------------

namespace ByteGrammar

namespace Parser

/- Any byte. -/
def anyByte : Parser :=
  .terminal (.byteWhere fun _ => true)

/- One byte. -/
def byte
    (expected : UInt8) :
    Parser :=
  .terminal (.byteWhere (· == expected))

/- A byte from `low` to `high`. -/
def byteBetween
    (low high : UInt8) :
    Parser :=
  .terminal
    (.byteWhere fun byte => low ≤ byte && byte ≤ high)

/- One character. -/
def char
    (expected : Char) :
    Parser :=
  .terminal (.char expected)

/- A text. -/
def text
    (expected : String) :
    Parser :=
  .terminal (.text expected)

/- A word that no byte of an identifier follows. -/
def keyword
    (word : String) :
    Parser :=
  .terminal (.keyword word)

/- A run of bytes that pass a test. -/
def takeWhile
    (test : UInt8 → Bool)
    (min : Nat)
    (max : Option Nat) :
    Parser :=
  .terminal (.run test min max)

/- A run of bytes of a set. -/
def charClass
    (bytes : List UInt8)
    (min : Nat)
    (max : Option Nat) :
    Parser :=
  takeWhile (ByteSet.ofList bytes).contains min max

/- One decimal digit. -/
def digit : Parser :=
  byteBetween 0x30 0x39

/- A run of decimal digits. -/
def digits : Parser :=
  takeWhile Digits.isDecimal 1 none

/- A space, tab, line feed or carriage return. -/
def whitespace : Parser :=
  .terminal (.byteWhere fun byte =>
    byte == 0x20 || byte == 0x09 || byte == 0x0A ||
      byte == 0x0D)

/- A run of blanks and line breaks. -/
def whitespaces : Parser :=
  takeWhile Blank.isAny 1 none

/- A run of blanks within a line. -/
def inlineWhitespace : Parser :=
  takeWhile Blank.isInline 1 none

/- A match of nothing with a value. -/
def succeed
    (value : Value) :
    Parser :=
  .terminal (.succeed value)

/- No match at all. -/
def fail : Parser :=
  .terminal .fail

end Parser

end ByteGrammar

------------------------------------------------------------
-- Sequences
------------------------------------------------------------

namespace ByteGrammar

namespace Parser

/- One after another, for both values. -/
def both
    (first second : Parser) :
    Parser :=
  .sequence .pair first second

/- One after another, for the second value. -/
def andThen
    (first second : Parser) :
    Parser :=
  .sequence (fun _ right => right) first second

/- One after another, for the first value. -/
def skip
    (first second : Parser) :
    Parser :=
  .sequence (fun left _ => left) first second

/- Drops the middle of three values that are paired to the
  left. -/
def dropMiddle :
    Value → Value
  | .pair (.pair left _) right => .pair left right
  | value => value

/- Two with a separator between, for the values of the
  two. -/
def separatedPair
    (left separator right : Parser) :
    Parser :=
  .map dropMiddle (both (both left separator) right)

end Parser

end ByteGrammar

------------------------------------------------------------
-- Choices
------------------------------------------------------------

namespace ByteGrammar

namespace Parser

/- The first of some alternatives that matches. -/
def choice :
    List Parser → Parser
  | [] => fail
  | alternative :: rest => .either alternative (choice rest)

/- The first of some alternatives that matches, each tried
  from where the one before left the cursor. -/
def firstOf :
    List Parser → Parser
  | [] => fail
  | alternative :: rest => .orElse alternative (firstOf rest)

/- The first or the second, with a note of which. -/
def eitherSide
    (left right : Parser) :
    Parser :=
  .either (.map .left left) (.map .right right)

/- A value out of its side. -/
def dropSide :
    Value → Value
  | .left value => value
  | .right value => value
  | value => value

/- The first or the second, without a note of which. -/
def eitherInto
    (left right : Parser) :
    Parser :=
  .map dropSide (eitherSide left right)

/- The code of a byte or character. -/
def codeOf :
    Value → Value
  | .byte value => .u32 value.toNat
  | .char value => .u32 value.toNat
  | value => value

/- One byte or else one character, for its code. -/
def codePoint
    (low : UInt8)
    (high : Char) :
    Parser :=
  eitherInto (.map codeOf (byte low))
    (.map codeOf (char high))

end Parser

end ByteGrammar

------------------------------------------------------------
-- Repetition and Values
------------------------------------------------------------

namespace ByteGrammar

namespace Parser

/- Any number of matches. -/
def many
    (parser : Parser) :
    Parser :=
  .repeated 0 none parser

/- At least one match. -/
def many1
    (parser : Parser) :
    Parser :=
  .repeated 1 none parser

/- A match if there is one. -/
def optional
    (parser : Parser) :
    Parser :=
  .orDefault .none (.map .some parser)

/- Another value for a match. -/
def supply
    (value : Value)
    (parser : Parser) :
    Parser :=
  .map (fun _ => value) parser

/- No value for a match. -/
def discard
    (parser : Parser) :
    Parser :=
  supply .unit parser

/- No whitespace is skipped for the while. -/
def noWhitespace
    (parser : Parser) :
    Parser :=
  .withWhitespace (succeed .unit) parser

/- The parser where a condition holds, and no match
  elsewhere. -/
def onlyIf
    (condition : Condition)
    (parser : Parser) :
    Parser :=
  .select condition parser fail

end Parser

end ByteGrammar
