import ByteGrammar.Engine.Combinators

/-
  Parsers run as actions.

  `Parser.step` says what a parser does in terms of what the
  parsers it runs do; `Parser.run` ties the knot to a given
  depth. More depth never changes an outcome.

  Main declarations:
    * `Parser.step`
    * `Parser.run`
-/

------------------------------------------------------------
-- One Node
------------------------------------------------------------

namespace ByteGrammar

namespace Parser

/- The action of a parser, given the actions of the parsers
  it runs. -/
def step
    (rules : Rules)
    (run : Parser → Action Match) :
    Parser → Action Match
  | .terminal leaf => Action.scan leaf
  | .sequence join first second =>
      Action.sequence join (run first) (run second)
  | .between opening content closing =>
      Action.between (run opening) (run content)
        (run closing)
  | .either first second =>
      Action.either (run first) (run second)
  | .orElse first second =>
      Action.orElse (run first) (run second)
  | .map change parser => Action.map change (run parser)
  | .filter test parser => Action.filter test (run parser)
  | .repeated min max parser =>
      Action.repeated min max (run parser)
  | .orDefault fallback parser =>
      Action.orDefault fallback (run parser)
  | .followedBy parser lookahead =>
      Action.followedBy (run parser) (run lookahead)
  | .peek parser => Action.peek (run parser)
  | .absent parser => Action.absent (run parser)
  | .capture parser => Action.capture (run parser)
  | .view seen parser => Action.view seen (run parser)
  | .convert target parser =>
      Action.convert target (run parser)
  | .expect message parser =>
      Action.expect message (run parser)
  | .reject message parser =>
      Action.reject message (run parser)
  | .takeUntil orEnd terminator =>
      Action.takeUntil orEnd (run terminator)
  | .rule handle => Action.callRule rules run handle
  | .label id name parser =>
      Action.label id name (run parser)
  | .token parser => Action.token run parser
  | .withWhitespace whitespace parser =>
      Action.withWhitespace (some whitespace) (run parser)
  | .defaultWhitespace parser =>
      Action.withWhitespace none (run parser)
  | .withFlag name on parser =>
      Action.withFlag name on (run parser)
  | .select condition whenTrue whenFalse =>
      Action.select condition (run whenTrue) (run whenFalse)
  | .separatedList item separator =>
      Action.separatedList (run item) (run separator)
  | .chain combine operand operator =>
      Action.chain combine (run operand) (run operator)

end Parser

end ByteGrammar

------------------------------------------------------------
-- Whole Parsers
------------------------------------------------------------

namespace ByteGrammar

namespace Parser

/- The action of a parser down to a depth; below it, there
  is no outcome. -/
def run
    (rules : Rules) :
    (depth : Nat) → Parser → Action Match
  | 0, _ => Action.exhausted
  | depth + 1, parser =>
      parser.step rules (run rules depth)

end Parser

end ByteGrammar
