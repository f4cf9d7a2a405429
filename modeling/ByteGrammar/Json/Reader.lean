import ByteGrammar.Number.Digits

/-
  JSON texts read into trees.

  The tree keeps what a record reader has to tell apart: the
  order and repetition of fields, numbers that are unsigned
  integers from others, and texts that are spelled with
  lone surrogates from texts proper.

  Main declarations:
    * `Json`
    * `Json.value?`
    * `Json.parse?`
-/

------------------------------------------------------------
-- Trees
------------------------------------------------------------

namespace ByteGrammar

/- A JSON value. A number is kept if it is spelled as an
  unsigned integer, and a text unless its escapes spell no
  text. -/
inductive Json where
  | null
  | bool (value : Bool)
  | number (unsigned : Option Nat)
  | text (value : Option String)
  | array (items : List Json)
  | object (fields : List (Option String × Json))

end ByteGrammar

------------------------------------------------------------
-- Texts
------------------------------------------------------------

namespace ByteGrammar

namespace Json

/- The value of a hexadecimal digit. -/
def hexDigit?
    (char : Char) :
    Option Nat :=
  if '0' ≤ char ∧ char ≤ '9' then
    some (char.toNat - '0'.toNat)
  else if 'a' ≤ char ∧ char ≤ 'f' then
    some (char.toNat - 'a'.toNat + 10)
  else if 'A' ≤ char ∧ char ≤ 'F' then
    some (char.toNat - 'A'.toNat + 10)
  else none

/- The number of four hexadecimal digits. -/
def hexUnit?
    (a b c d : Char) :
    Option Nat := do
  let a ← hexDigit? a
  let b ← hexDigit? b
  let c ← hexDigit? c
  let d ← hexDigit? d
  return ((a * 16 + b) * 16 + c) * 16 + d

/- The character of a one-letter escape. -/
def simpleEscape? :
    Char → Option Char
  | '"' => some '"'
  | '\\' => some '\\'
  | '/' => some '/'
  | 'b' => some '\x08'
  | 'f' => some '\x0c'
  | 'n' => some '\n'
  | 'r' => some '\r'
  | 't' => some '\t'
  | _ => none

/- A spelled text in units: characters that stand for
  themselves, and the 16-bit units of numeric escapes. -/
inductive TextUnit where
  | char (value : Char)
  | unit (value : Nat)

/- The units of a text up to its closing quote, and what
  follows. The depth bounds the number of units. -/
def units? :
    (depth : Nat) → List Char →
      Option (List TextUnit × List Char)
  | 0, _ => none
  | _ + 1, [] => none
  | _ + 1, '"' :: rest => some ([], rest)
  | depth + 1, '\\' :: 'u' :: a :: b :: c :: d :: rest =>
      match hexUnit? a b c d with
      | none => none
      | some unit =>
          (units? depth rest).map fun (more, rest) =>
            (.unit unit :: more, rest)
  | depth + 1, '\\' :: letter :: rest =>
      match simpleEscape? letter with
      | none => none
      | some char =>
          (units? depth rest).map fun (more, rest) =>
            (.char char :: more, rest)
  | _ + 1, ['\\'] => none
  | depth + 1, char :: rest =>
      if char.toNat < 0x20 then none
      else
        (units? depth rest).map fun (more, rest) =>
          (.char char :: more, rest)

/- The characters of units, if surrogates come in pairs. -/
def chars? :
    List TextUnit → Option (List Char)
  | [] => some []
  | .char char :: rest => (chars? rest).map (char :: ·)
  | .unit high :: .unit low :: rest =>
      if 0xD800 ≤ high ∧ high < 0xDC00 then
        if 0xDC00 ≤ low ∧ low < 0xE000 then
          let code := 0x10000 +
            (high - 0xD800) * 0x400 + (low - 0xDC00)
          (chars? rest).map (Char.ofNat code :: ·)
        else none
      else if 0xDC00 ≤ high ∧ high < 0xE000 then none
      else
        (chars? (.unit low :: rest)).map
          (Char.ofNat high :: ·)
  | .unit code :: rest =>
      if 0xD800 ≤ code ∧ code < 0xE000 then none
      else (chars? rest).map (Char.ofNat code :: ·)

/- A text after its opening quote, and what follows. -/
def text?
    (chars : List Char) :
    Option (Option String × List Char) :=
  (units? (chars.length + 1) chars).map
    fun (units, rest) =>
      ((chars? units).map String.ofList, rest)

end Json

end ByteGrammar

------------------------------------------------------------
-- Numbers
------------------------------------------------------------

namespace ByteGrammar

namespace Json

/- The longest run of decimal digits, and what follows. -/
def digits
    (chars : List Char) :
    List Char × List Char :=
  (chars.takeWhile Char.isDigit,
    chars.dropWhile Char.isDigit)

/- The number of a run of decimal digits. -/
def decimal
    (digits : List Char) :
    Nat :=
  Digits.valueFrom 10 0
    (digits.map fun digit => digit.toNat - '0'.toNat)

/- What follows an optional fraction, and whether there was
  one. A point needs a digit after it. -/
def fraction?
    (chars : List Char) :
    Option (Bool × List Char) :=
  match chars with
  | '.' :: rest =>
      let (run, rest) := digits rest
      if run.isEmpty then none else some (true, rest)
  | rest => some (false, rest)

/- What follows an optional exponent, and whether there was
  one. A marker needs a digit after it. -/
def exponent?
    (chars : List Char) :
    Option (Bool × List Char) :=
  match chars with
  | marker :: rest =>
      if marker = 'e' ∨ marker = 'E' then
        let unsigned :=
          match rest with
          | '+' :: more => more
          | '-' :: more => more
          | more => more
        let (run, rest) := digits unsigned
        if run.isEmpty then none else some (true, rest)
      else some (false, marker :: rest)
  | [] => some (false, [])

/- A number and what follows. It has no leading zeros. -/
def number?
    (chars : List Char) :
    Option (Json × List Char) :=
  let (negative, unsigned) :=
    match chars with
    | '-' :: rest => (true, rest)
    | rest => (false, rest)
  let (whole, rest) := digits unsigned
  if whole.isEmpty then none
  else if whole.head? == some '0' && 1 < whole.length then
    none
  else
    match fraction? rest with
    | none => none
    | some (hasFraction, rest) =>
        match exponent? rest with
        | none => none
        | some (hasExponent, rest) =>
            let isInteger :=
              !(negative || hasFraction || hasExponent)
            some (.number
              (if isInteger then some (decimal whole)
              else none), rest)

end Json

end ByteGrammar

------------------------------------------------------------
-- Values
------------------------------------------------------------

namespace ByteGrammar

namespace Json

/- What follows the blanks at the start. -/
def dropBlanks
    (chars : List Char) :
    List Char :=
  chars.dropWhile fun char =>
    char == ' ' || char == '\n' || char == '\r' ||
      char == '\t'

mutual

/- A value at the start, and what follows. -/
def value? :
    (depth : Nat) → List Char → Option (Json × List Char)
  | 0, _ => none
  | depth + 1, chars =>
      match dropBlanks chars with
      | 'n' :: 'u' :: 'l' :: 'l' :: rest =>
          some (.null, rest)
      | 't' :: 'r' :: 'u' :: 'e' :: rest =>
          some (.bool true, rest)
      | 'f' :: 'a' :: 'l' :: 's' :: 'e' :: rest =>
          some (.bool false, rest)
      | '"' :: rest =>
          (text? rest).map fun (contents, rest) =>
            (.text contents, rest)
      | '[' :: rest =>
          match dropBlanks rest with
          | ']' :: rest => some (.array [], rest)
          | rest =>
              (items? depth rest).map fun (items, rest) =>
                (.array items, rest)
      | '\x7b' :: rest =>
          match dropBlanks rest with
          | '\x7d' :: rest => some (.object [], rest)
          | rest =>
              (fields? depth rest).map fun (fields, rest) =>
                (.object fields, rest)
      | rest => number? rest

/- The items of an array up to its end, and what follows. -/
def items? :
    (depth : Nat) → List Char →
      Option (List Json × List Char)
  | 0, _ => none
  | depth + 1, chars =>
      match value? depth chars with
      | none => none
      | some (item, rest) =>
          match dropBlanks rest with
          | ']' :: rest => some ([item], rest)
          | ',' :: rest =>
              (items? depth rest).map fun (items, rest) =>
                (item :: items, rest)
          | _ => none

/- The fields of an object up to its end, and what
  follows. -/
def fields? :
    (depth : Nat) → List Char →
      Option (List (Option String × Json) × List Char)
  | 0, _ => none
  | depth + 1, chars =>
      match dropBlanks chars with
      | '"' :: rest =>
          match text? rest with
          | none => none
          | some (name, rest) =>
              match dropBlanks rest with
              | ':' :: rest =>
                  match value? depth rest with
                  | none => none
                  | some (value, rest) =>
                      match dropBlanks rest with
                      | '\x7d' :: rest =>
                          some ([(name, value)], rest)
                      | ',' :: rest =>
                          (fields? depth rest).map
                            fun (fields, rest) =>
                              ((name, value) :: fields, rest)
                      | _ => none
              | _ => none
      | _ => none

end

/- The value that a text spells as a whole. Each step down
  takes at least one character, so twice the length is deep
  enough. -/
def parse?
    (text : String) :
    Option Json :=
  let chars := text.toList
  match value? (2 * chars.length + 2) chars with
  | none => none
  | some (value, rest) =>
      if (dropBlanks rest).isEmpty then some value else none

end Json

end ByteGrammar
