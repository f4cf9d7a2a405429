import ByteGrammar.Engine.Evaluation
import ByteGrammar.Input.Location

/-
  Parses of whole inputs.

  A parse gives its parser a depth that suffices: with loop
  detection, no rule runs inside itself at one position, so
  a path meets at most as many rules as there are pairs of a
  rule and a position; without it, a rule may also run
  inside itself with other flags set or another whitespace
  parser installed.

  Main declarations:
    * `Parser.depth`, `Parser.parse`
    * `Failure`, `Failure.message`
    * `Report`, `Parser.tryParse`
-/

------------------------------------------------------------
-- Sufficient Depth
------------------------------------------------------------

namespace ByteGrammar

namespace Context

/- The nodes of the installed whitespace parser. -/
def whitespaceSize
    (context : Context) :
    Nat :=
  (context.whitespace.map Parser.size).getD 0

end Context

namespace Parser

/- The pairs of a rule and a position. -/
def frames
    (rules : Rules)
    (state : State) :
    Nat :=
  rules.slots.length * (state.cursor.data.length + 1)

/- A bound on the ways in which flags and whitespace can
  differ between two runs of one rule at one position: each
  scope in the grammar may or may not be open. -/
def variants
    (nodes : Nat)
    (options : Options) :
    Nat :=
  if options.loopDetection then 1 else 1 <<< (nodes + 2)

/- A depth that no terminating parse exceeds. -/
def depth
    (rules : Rules)
    (parser : Parser)
    (state : State) :
    Nat :=
  let nodes :=
    rules.size + parser.size + state.context.whitespaceSize
  frames rules state *
      variants nodes state.context.options *
      (rules.size + 1) +
    nodes + 1

/- Runs a parser on a state. There is no outcome only where
  a rule runs inside itself forever. -/
def parse
    (rules : Rules)
    (parser : Parser) :
    Action Match :=
  fun state =>
    parser.run rules (depth rules parser state) state

end Parser

namespace Action

/- Skips whitespace as tokens do. -/
def skip
    (rules : Rules) :
    Action Unit :=
  skipWhitespace fun parser => parser.parse rules

end Action

end ByteGrammar

------------------------------------------------------------
-- Failures of a Whole Parse
------------------------------------------------------------

namespace ByteGrammar

/- Why an input is not accepted. -/
inductive Failure where
  | noMatch (location : Location)
  | trailingInput (location : Location)
  | fatal (fault : Fault) (location : Location)

namespace Failure

/- Where the failure is. -/
def location :
    Failure → Location
  | .noMatch location => location
  | .trailingInput location => location
  | .fatal _ location => location

/- Whether the failure was raised as fatal. -/
def isFatal :
    Failure → Bool
  | .fatal _ _ => true
  | _ => false

/- The text of the failure, with the lines around it. -/
def message :
    Failure → String
  | .noMatch location =>
      s!"Syntax error at {location.display}"
  | .trailingInput location =>
      s!"Unexpected trailing input at {location.display}"
  | .fatal fault location =>
      s!"Fatal error: {fault.text}, " ++
        s!"at {location.display}"

end Failure

end ByteGrammar

------------------------------------------------------------
-- Whole Inputs
------------------------------------------------------------

namespace ByteGrammar

/- What a parse of a whole input comes to, and the events it
  reported. -/
structure Report where
  result : Except Failure Value
  events : List Event

namespace Report

/- The report of a parse that has finished on a code. A
  failure is located at the furthest position reached, and
  input that is left over where the match stopped. -/
def ofStep
    (code : List UInt8)
    (requireEof : Bool)
    (step : Step Match) :
    Report :=
  let cursor := step.state.cursor
  let events := .started code.length :: step.events
  match step.outcome with
  | .failed =>
      { result :=
          .error (.noMatch ⟨code, cursor.furthest⟩)
        events := events ++ [.noMatch cursor.furthest] }
  | .fatal fault =>
      { result :=
          .error (.fatal fault ⟨code, fault.position⟩)
        events :=
          events ++ [.fatal fault.position fault.kind] }
  | .matched found =>
      if requireEof && !cursor.atEnd then
        { result :=
            .error (.trailingInput ⟨code, cursor.position⟩)
          events :=
            events ++ [.trailingInput cursor.position] }
      else { result := .ok found.value, events := events }

end Report

namespace Parser

/- Parses the whole of an input. -/
def tryParse
    (rules : Rules)
    (parser : Parser)
    (options : Options)
    (input : String) :
    Option Report :=
  let code := Utf8.encode input
  let start : State :=
    ⟨Cursor.ofBytes code, Context.fresh options⟩
  (parser.parse rules start).map
    (Report.ofStep code options.requireEof)

end Parser

end ByteGrammar
