import ByteGrammar.Engine.Options
import ByteGrammar.Input.Region
import ByteGrammar.Json.Reader
import ByteGrammar.Number.Integer

/-
  Options, regions and named numbers as JSON texts.

  Main declarations:
    * `Options.ofJson?`, `Options.toJson`
    * `Region.ofJson?`, `Region.toJson`
    * `Json.quote`, `Json.named`
-/

------------------------------------------------------------
-- Writing
------------------------------------------------------------

namespace ByteGrammar

namespace Json

/- A hexadecimal digit in lower case. -/
def hexDigit
    (value : Nat) :
    Char :=
  if value < 10 then Char.ofNat ('0'.toNat + value)
  else Char.ofNat ('a'.toNat + (value - 10))

/- A character as it is spelled in a text. -/
def escape :
    Char → List Char
  | '"' => ['\\', '"']
  | '\\' => ['\\', '\\']
  | '\x08' => ['\\', 'b']
  | '\x0c' => ['\\', 'f']
  | '\n' => ['\\', 'n']
  | '\r' => ['\\', 'r']
  | '\t' => ['\\', 't']
  | char =>
      if char.toNat < 0x20 then
        ['\\', 'u', '0', '0', hexDigit (char.toNat / 16),
          hexDigit (char.toNat % 16)]
      else [char]

/- A text with its quotes. -/
def quote
    (text : String) :
    String :=
  String.ofList
    ('"' :: text.toList.flatMap escape ++ ['"'])

/- An object of fields whose values are spelled already. -/
def record
    (fields : List (String × String)) :
    String :=
  let spelled := fields.map fun (name, value) =>
    quote name ++ ":" ++ value
  "\x7b" ++ ",".intercalate spelled ++ "\x7d"

/- A name and a number in an object. -/
def named
    (name : String)
    (value : Int) :
    String :=
  record [("name", quote name), ("value", toString value)]

end Json

namespace Options

/- Options as an object of all their fields. -/
def toJson
    (options : Options) :
    String :=
  Json.record (Field.all.map fun field =>
    (field.name, toString (options.get field)))

end Options

namespace Region

/- A region as an object of its fields. -/
def toJson
    (region : Region) :
    String :=
  Json.record [("offset", toString region.offset),
    ("length", toString region.length)]

end Region

end ByteGrammar

------------------------------------------------------------
-- Reading Options
------------------------------------------------------------

namespace ByteGrammar

namespace Options

/- Sets options from the fields of an object, of which none
  may be unknown or repeated. -/
def ofFields? :
    (seen : List Field) → Options →
      List (Option String × Json) → Option Options
  | _, options, [] => some options
  | seen, options, (some name, .bool value) :: rest =>
      match Field.ofName? name with
      | none => none
      | some field =>
          if field ∈ seen then none
          else
            ofFields? (field :: seen)
              (options.set field value) rest
  | _, _, _ => none

/- Sets options from the items of an array, in their
  order. -/
def ofItems? :
    List Field → Options → List Json → Option Options
  | _, options, [] => some options
  | field :: fields, options, .bool value :: rest =>
      ofItems? fields (options.set field value) rest
  | _, _, _ => none

/- The options that a text spells, as an object or as an
  array. What is missing has its standard state. -/
def ofJson?
    (text : String) :
    Option Options :=
  match Json.parse? text with
  | some (.object fields) => ofFields? [] standard fields
  | some (.array items) => ofItems? Field.all standard items
  | _ => none

end Options

end ByteGrammar

------------------------------------------------------------
-- Reading Regions
------------------------------------------------------------

namespace ByteGrammar

namespace Region

/- The number of a JSON value, if it is an unsigned integer
  of 64 bits. -/
def natural? :
    Json → Option Nat
  | .number (some value) =>
      if Integer.inU64 value then some value else none
  | _ => none

/- The values of the fields of a name. -/
def valuesOf
    (name : String)
    (fields : List (Option String × Json)) :
    List Json :=
  (fields.filter fun field => field.1 == some name).map
    Prod.snd

/- The region of the fields of an object: both must be
  there, once. Other fields do not matter. -/
def ofFields?
    (fields : List (Option String × Json)) :
    Option Region :=
  if fields.any fun field => field.1.isNone then none
  else
    match valuesOf "offset" fields,
        valuesOf "length" fields with
    | [offset], [length] => do
        let offset ← natural? offset
        let length ← natural? length
        return ⟨offset, length⟩
    | _, _ => none

/- The region that a text spells, as an object or as an
  array of two numbers. -/
def ofJson?
    (text : String) :
    Option Region :=
  match Json.parse? text with
  | some (.object fields) => ofFields? fields
  | some (.array [offset, length]) => do
      let offset ← natural? offset
      let length ← natural? length
      return ⟨offset, length⟩
  | _ => none

end Region

end ByteGrammar
