import ByteGrammar.Engine.Options
import ByteGrammar.Grammar.Conversion
import ByteGrammar.Grammar.Terminal

/-
  Parsers as trees.

  A parser is a tree of terminals and combinators. Recursion
  goes through rules, which a tree names by their place in a
  table that binds them to their own trees.

  Main declarations:
    * `Condition`, `View`
    * `Parser`
    * `Parser.size`
-/

------------------------------------------------------------
-- Numbers
------------------------------------------------------------

namespace ByteGrammar

/- The identity of a rule or a label. One counter of 32 bits
  gives them out, and starts over when it has run out. -/
abbrev ParserId := UInt32

/- The place of a rule in the table. Whoever holds it has
  that very rule, whatever its identity. -/
abbrev Handle := Nat

end ByteGrammar

------------------------------------------------------------
-- Conditions
------------------------------------------------------------

namespace ByteGrammar

/- What there is to see of the context of a parse. A
  whitespace parser shows only that it is installed. -/
structure Surroundings where
  options : Options
  whitespaceInstalled : Bool
  isActive : ParserId → Nat → Bool
  hasFlag : String → Bool

/- What a parser may ask of the context it runs in: any
  function of what there is to see. -/
structure Condition where
  test : Surroundings → Bool

namespace Condition

/- A flag is set. -/
def flag
    (name : String) :
    Condition where
  test surroundings := surroundings.hasFlag name

/- A whitespace parser is installed. -/
def whitespaceInstalled : Condition where
  test surroundings := surroundings.whitespaceInstalled

/- Without a whitespace parser, line breaks are skipped. -/
def skipsNewlines : Condition where
  test surroundings := surroundings.options.skipNewlines

/- Loops are detected. -/
def detectsLoops : Condition where
  test surroundings := surroundings.options.loopDetection

/- A condition does not hold. -/
def negation
    (condition : Condition) :
    Condition where
  test surroundings := !condition.test surroundings

end Condition

end ByteGrammar

------------------------------------------------------------
-- Views
------------------------------------------------------------

namespace ByteGrammar

/-
  What a match can be seen as besides its value: any
  function of the value, the region and the cursor behind
  the match. It goes by the place of the cursor, and not by
  what the cursor recorded and reached on the way there.
-/
structure View where
  see : Value → Region → Cursor → Value
  placed : ∀ value region {cursor cursor' : Cursor},
    cursor.SamePlace cursor' →
      see value region cursor = see value region cursor'

namespace View

/- The value with its region. -/
def spanned : View where
  see value region _ := .spanned value region
  placed := by
    intro value region cursor cursor' _
    rfl

/- The text of the region. -/
def text : View where
  see _ region cursor :=
    match cursor.text region with
    | .ok text => .str text
    | .error error => .unreadable error
  placed := by
    intro value region cursor cursor' hSame
    simp only [Cursor.text, Cursor.bytes, hSame.data]

/- The line and column where the region starts. -/
def lineColumn : View where
  see _ region cursor :=
    let (line, column) := cursor.lineColumn region.offset
    .place line column
  placed := by
    intro value region cursor cursor' hSame
    simp only [Cursor.lineColumn, hSame.data]

end View

end ByteGrammar

------------------------------------------------------------
-- Parsers
------------------------------------------------------------

namespace ByteGrammar

/-
  A parser. Constructors with several parsers run them in
  the order in which they are listed, as far as they run
  them at all.
-/
inductive Parser where
  /- Matches what a terminal finds. -/
  | terminal (terminal : Terminal)
  /- Matches one parser after another and joins the
    values. -/
  | sequence (join : Value → Value → Value)
      (first second : Parser)
  /- Matches three parsers in a row for the value of the
    middle one. -/
  | between (opening content closing : Parser)
  /- Matches the first parser or else the second, from the
    same place. -/
  | either (first second : Parser)
  /- Matches the first parser or else the second, from where
    the first left the cursor. -/
  | orElse (first second : Parser)
  /- Changes the value of a match. -/
  | map (change : Value → Value) (parser : Parser)
  /- Refuses a match whose value fails a test. -/
  | filter (test : Value → Bool) (parser : Parser)
  /- Matches as often as possible within bounds. -/
  | repeated (min : Nat) (max : Option Nat)
      (parser : Parser)
  /- Matches nothing where the parser fails. -/
  | orDefault (fallback : Value) (parser : Parser)
  /- Matches where the lookahead then matches too. -/
  | followedBy (parser lookahead : Parser)
  /- Matches without consuming. -/
  | peek (parser : Parser)
  /- Matches nothing where the parser fails, and fails where
    it matches. -/
  | absent (parser : Parser)
  /- Yields the region of a match and records it. -/
  | capture (parser : Parser)
  /- Sees a match in another way. -/
  | view (view : View) (parser : Parser)
  /- Reads the region of a match as a value. -/
  | convert (conversion : Conversion) (parser : Parser)
  /- Makes a failure fatal. -/
  | expect (message : String) (parser : Parser)
  /- Makes a match fatal. -/
  | reject (message : String) (parser : Parser)
  /- Covers the bytes up to where the terminator matches, or
    up to the end if that is allowed. -/
  | takeUntil (orEnd : Bool) (terminator : Parser)
  /- Runs what a rule is bound to. -/
  | rule (handle : Handle)
  /- Names the value of a match. -/
  | label (id : ParserId) (name : String) (parser : Parser)
  /- Skips whitespace first. -/
  | token (parser : Parser)
  /- Installs a whitespace parser for the while. -/
  | withWhitespace (whitespace parser : Parser)
  /- Removes the whitespace parser for the while. -/
  | defaultWhitespace (parser : Parser)
  /- Sets or clears a flag for the while. -/
  | withFlag (name : String) (on : Bool) (parser : Parser)
  /- Runs one parser where a condition holds and the other
    where it does not. -/
  | select (condition : Condition)
      (whenTrue whenFalse : Parser)
  /- Matches items with separators between them. -/
  | separatedList (item separator : Parser)
  /- Matches operands with operators between them and
    combines them from the left. The combination sees the
    value of the operator. -/
  | chain (combine : Value → Value → Value → Value)
      (operand operator : Parser)

namespace Parser

/- The number of nodes of a parser. -/
def size :
    Parser → Nat
  | terminal _ => 1
  | sequence _ first second =>
      first.size + second.size + 1
  | between opening content closing =>
      opening.size + content.size + closing.size + 1
  | either first second => first.size + second.size + 1
  | orElse first second => first.size + second.size + 1
  | map _ parser => parser.size + 1
  | filter _ parser => parser.size + 1
  | repeated _ _ parser => parser.size + 1
  | orDefault _ parser => parser.size + 1
  | followedBy parser lookahead =>
      parser.size + lookahead.size + 1
  | peek parser => parser.size + 1
  | absent parser => parser.size + 1
  | capture parser => parser.size + 1
  | view _ parser => parser.size + 1
  | convert _ parser => parser.size + 1
  | expect _ parser => parser.size + 1
  | reject _ parser => parser.size + 1
  | takeUntil _ terminator => terminator.size + 1
  | rule _ => 1
  | label _ _ parser => parser.size + 1
  | token parser => parser.size + 1
  | withWhitespace whitespace parser =>
      whitespace.size + parser.size + 1
  | defaultWhitespace parser => parser.size + 1
  | withFlag _ _ parser => parser.size + 1
  | select _ whenTrue whenFalse =>
      whenTrue.size + whenFalse.size + 1
  | separatedList item separator =>
      item.size + separator.size + 1
  | chain _ operand operator =>
      operand.size + operator.size + 1

end Parser

end ByteGrammar
