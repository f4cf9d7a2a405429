import ByteGrammar.Text.Lines
import ByteGrammar.Text.Utf8

/-
  A position in a code, shown to a reader with the lines
  around it.

  Main declarations:
    * `Location`, `Location.place`
    * `Location.contextLines`
    * `Location.display`
-/

------------------------------------------------------------
-- Line and Byte Offset
------------------------------------------------------------

namespace ByteGrammar

/- A position in a code. -/
structure Location where
  code : List UInt8
  position : Nat

/- A line, counted from one, and a byte offset in it. -/
structure Place where
  line : Nat
  byteOffset : Nat
deriving DecidableEq

namespace Location

/- Where the scan for a location has got to: the index of
  the next byte, the current line and its first index. -/
structure LineScan where
  index : Nat
  line : Nat
  lineStart : Nat

namespace LineScan

/- Takes one byte; a line feed opens a new line. -/
def step
    (scan : LineScan)
    (byte : UInt8) :
    LineScan :=
  if byte = 0x0A then
    ⟨scan.index + 1, scan.line + 1, scan.index + 1⟩
  else { scan with index := scan.index + 1 }

/- The scan at the start of a code. -/
def start : LineScan :=
  ⟨0, 1, 0⟩

end LineScan

/- The line and byte offset of the location. Past the end of
  the code the offset keeps counting on the last line. -/
def place
    (location : Location) :
    Place :=
  let scan :=
    (location.code.take location.position).foldl
      LineScan.step LineScan.start
  ⟨scan.line, location.position - scan.lineStart⟩

end Location

end ByteGrammar

------------------------------------------------------------
-- Context Lines
------------------------------------------------------------

namespace ByteGrammar

namespace Location

/- How many lines are shown on either side. -/
def contextRadius : Nat :=
  2

/- What stands before the text of a numbered line; the line
  of the location is marked. -/
def gutter
    (marked : Bool)
    (number : Nat) :
    String :=
  (if marked then "  > " else "    ") ++
    toString number ++ " | "

/- The line that points at the location. -/
def pointer
    (indent : Nat) :
    String :=
  String.ofList (List.replicate indent ' ') ++ "^--- here"

/- What is shown for one numbered line, given the place of
  the location. -/
def shownLine
    (place : Place)
    (number : Nat)
    (content : List Char) :
    List String :=
  if number + contextRadius < place.line ∨
      place.line + contextRadius < number then []
  else if number = place.line then
    let gutter := gutter true number
    [gutter ++ String.ofList content,
      pointer (gutter.length + place.byteOffset)]
  else [gutter false number ++ String.ofList content]

/- The numbered lines around the location, with a pointer
  below its own line. -/
def contextLines
    (location : Location) :
    List String :=
  let place := location.place
  let lines :=
    Text.lines (Utf8.lossy location.code).toList
  (lines.zipIdx 1).flatMap fun (content, number) =>
    shownLine place number content

/- The location as a text of several lines. -/
def display
    (location : Location) :
    String :=
  let place := location.place
  s!"line {place.line}, " ++
    s!"byte offset {place.byteOffset} " ++
    s!"(absolute position: {location.position})\n\n" ++
    String.join
      (location.contextLines.map fun line => line ++ "\n")

end Location

end ByteGrammar
