import ByteGrammar.Grammar.Rules
import ByteGrammar.Input.Reading

/-
  Fatal errors, and the events that a parse reports.

  Main declarations:
    * `Fault`, `Fault.message`, `Fault.position`
    * `Node`, `Event`
-/

------------------------------------------------------------
-- Fatal Errors
------------------------------------------------------------

namespace ByteGrammar

/- Why a fatal error is raised. -/
inductive FaultKind where
  | committed
  | rejected
  | unbound
deriving DecidableEq

/- A fatal error: a parser that had to match did not, one
  that must not match did, or a rule was not bound. -/
inductive Fault where
  | committed (message : String) (position : Nat)
  | rejected (message : String) (position : Nat)
  | unbound (id : ParserId) (position : Nat)
deriving DecidableEq

namespace Fault

/- The kind of a fatal error. -/
def kind :
    Fault → FaultKind
  | .committed _ _ => .committed
  | .rejected _ _ => .rejected
  | .unbound _ _ => .unbound

/- The message of a fatal error; the grammar gives it except
  for rules that are not bound. -/
def message :
    Fault → String
  | .committed message _ => message
  | .rejected message _ => message
  | .unbound id _ =>
      s!"deferred parser {id} was used before being bound"

/- Where a fatal error was raised. -/
def position :
    Fault → Nat
  | .committed _ position => position
  | .rejected _ position => position
  | .unbound _ position => position

/- The text of a fatal error. -/
def text
    (fault : Fault) :
    String :=
  s!"{fault.message} (at byte {fault.position})"

end Fault

end ByteGrammar

------------------------------------------------------------
-- Events
------------------------------------------------------------

namespace ByteGrammar

/- What reports when it is entered and left, by its
  identity: a rule or a label. -/
inductive Node where
  | rule (id : ParserId)
  | label (id : ParserId)
deriving DecidableEq

/- What a parse reports while it runs. -/
inductive Event where
  | started (inputLength : Nat)
  | entered (node : Node) (label : String) (position : Nat)
  | exited (node : Node) (label : String) (position : Nat)
      (matched : Bool)
  | loopDetected (id : ParserId) (position : Nat)
  | commitFailed (position : Nat) (message : String)
  | matchRejected (position : Nat) (message : String)
  | conversionFailed (error : ReadError)
  | noMatch (furthest : Nat)
  | fatal (position : Nat) (kind : FaultKind)
  | trailingInput (position : Nat)
deriving DecidableEq

end ByteGrammar
