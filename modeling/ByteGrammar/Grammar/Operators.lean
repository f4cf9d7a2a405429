import ByteGrammar.Grammar.Forms

/-
  Operators and tables of precedence.

  Main declarations:
    * `Operator`
    * `Operator.leftAssociative`
    * `Operator.precedence`
-/

------------------------------------------------------------
-- One Level
------------------------------------------------------------

namespace ByteGrammar

/- An operator: what it looks like, and what it makes of two
  operands. -/
structure Operator where
  matcher : Parser
  combine : Value → Value → Value

namespace Operator

/- The matchers of some operators, each of which yields its
  place in the list. -/
def tagged
    (operators : List Operator) :
    List Parser :=
  operators.zipIdx.map fun (operator, index) =>
    Parser.supply (.u64 index) operator.matcher

/- Combines two operands by the operator at a place in the
  list. -/
def combineAt
    (operators : List Operator)
    (left tag right : Value) :
    Value :=
  match tag with
  | .u64 index =>
      match operators[index]? with
      | some operator => operator.combine left right
      | none => left
  | _ => left

/- Operands with operators between, combined from the left.
  Of the operators that match, the first in the list
  counts. -/
def leftAssociative
    (operand : Parser)
    (operators : List Operator) :
    Parser :=
  .chain (combineAt operators) operand
    (Parser.firstOf (tagged operators))

/- How an operator shows itself. -/
def description : String :=
  "Operator \x7b .. \x7d"

/- How a level of operators shows itself. -/
def describeLevel
    (count : Nat) :
    String :=
  s!"LeftAssoc \x7b operators: {count} \x7d"

end Operator

end ByteGrammar

------------------------------------------------------------
-- Tables
------------------------------------------------------------

namespace ByteGrammar

namespace Operator

/- Levels of operators, the tightest first: the operands of
  a level are what the level before matches. A table must
  have a level. -/
def precedence
    (operand : Parser)
    (levels : List (List Operator)) :
    Except GrammarError Parser :=
  match levels with
  | [] => .error .emptyPrecedence
  | levels => .ok (levels.foldl leftAssociative operand)

end Operator

end ByteGrammar
