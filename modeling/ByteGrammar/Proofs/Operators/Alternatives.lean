import ByteGrammar.Grammar.Operators
import ByteGrammar.Proofs.Cursor.Atomicity

/-
  Alternatives that are tried one after another.

  The operators of a level are tried without going back in
  between. As parsers are atomic, each is tried where the
  first one was, so the level runs as a chain over a choice
  among its operators.

  Main declarations:
    * `Parser.run_orElse`
    * `Parser.run_firstOf`
    * `Operator.run_leftAssociative`
-/

namespace ByteGrammar

namespace Parser

theorem run_orElse
    (rules : Rules)
    (depth : Nat)
    (first second : Parser) :
    (Parser.orElse first second).run rules depth =
      (Parser.either first second).run rules depth := by
  cases depth with
  | zero => rfl
  | succ depth =>
      exact Action.orElse_eq_either
        (atomic_run rules depth first) _

theorem run_firstOf
    (rules : Rules)
    (depth : Nat)
    (alternatives : List Parser) :
    (firstOf alternatives).run rules depth =
      (choice alternatives).run rules depth := by
  induction alternatives generalizing depth with
  | nil => rfl
  | cons alternative rest ih =>
      unfold firstOf choice
      rw [run_orElse]
      cases depth with
      | zero => rfl
      | succ depth =>
          simp only [run, step, ih]

end Parser

namespace Operator

theorem run_leftAssociative
    (rules : Rules)
    (depth : Nat)
    (operand : Parser)
    (operators : List Operator) :
    (leftAssociative operand operators).run rules depth =
      (Parser.chain (combineAt operators) operand
        (Parser.choice (tagged operators))).run rules
          depth := by
  cases depth with
  | zero => rfl
  | succ depth =>
      simp only [leftAssociative, Parser.run, Parser.step,
        Parser.run_firstOf]

end Operator

end ByteGrammar
