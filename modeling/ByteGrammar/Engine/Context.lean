import ByteGrammar.Engine.Flags
import ByteGrammar.Engine.Options
import ByteGrammar.Grammar.Rules

/-
  The context that a parse carries along.

  Main declarations:
    * `Context`, `Context.fresh`
    * `Context.activate`, `Context.deactivate`
    * `Context.assignFlag`, `Context.installWhitespace`
    * `Context.surroundings`, `Condition.holds`
-/

------------------------------------------------------------
-- Contexts
------------------------------------------------------------

namespace ByteGrammar

/- The options, the installed whitespace parser, the
  identities of the rules that are running with the
  positions they run at, and the flags that are set. -/
structure Context where
  options : Options
  whitespace : Option Parser
  active : List (ParserId × Nat)
  flags : FlagSet

namespace Context

/- A context in which nothing has happened yet. -/
def fresh
    (options : Options) :
    Context :=
  ⟨options, none, [], FlagSet.empty⟩

/- Whether a rule of some identity is running at a
  position. -/
def isActive
    (context : Context)
    (id : ParserId)
    (position : Nat) :
    Bool :=
  context.active.contains (id, position)

/- Records that a rule runs at a position. -/
def activate
    (id : ParserId)
    (position : Nat)
    (context : Context) :
    Context :=
  { context with active := (id, position) :: context.active }

/- Records that a rule no longer runs at a position. -/
def deactivate
    (id : ParserId)
    (position : Nat)
    (context : Context) :
    Context :=
  { context with
    active := context.active.erase (id, position) }

/- Whether a flag is set. -/
def hasFlag
    (context : Context)
    (name : String) :
    Bool :=
  context.flags.contains name

/- Sets or clears a flag. -/
def assignFlag
    (name : String)
    (on : Bool)
    (context : Context) :
    Context :=
  { context with flags := context.flags.assign name on }

/- Installs a whitespace parser, or removes it. -/
def installWhitespace
    (whitespace : Option Parser)
    (context : Context) :
    Context :=
  { context with whitespace := whitespace }

end Context

end ByteGrammar

------------------------------------------------------------
-- Conditions
------------------------------------------------------------

namespace ByteGrammar

namespace Context

/- What there is to see of a context. -/
def surroundings
    (context : Context) :
    Surroundings where
  options := context.options
  whitespaceInstalled := context.whitespace.isSome
  isActive := context.isActive
  hasFlag := context.hasFlag

end Context

namespace Condition

/- Whether a condition holds in a context. -/
def holds
    (condition : Condition)
    (context : Context) :
    Bool :=
  condition.test context.surroundings

end Condition

end ByteGrammar

------------------------------------------------------------
-- What Is Undone
------------------------------------------------------------

namespace ByteGrammar

namespace Context

/- A rule that was activated can be deactivated. -/
theorem deactivate_activate
    (id : ParserId)
    (position : Nat)
    (context : Context) :
    (context.activate id position).deactivate id position =
      context := by
  simp [activate, deactivate]

/- A flag that was assigned can be given its former
  state. -/
theorem assignFlag_restored
    (name : String)
    (on : Bool)
    (context : Context) :
    (context.assignFlag name on).assignFlag name
      (context.hasFlag name) = context := by
  simp [assignFlag, hasFlag, FlagSet.assign_restored]

/- A whitespace parser can be installed again. -/
theorem installWhitespace_restored
    (whitespace : Option Parser)
    (context : Context) :
    (context.installWhitespace whitespace).installWhitespace
      context.whitespace = context :=
  rfl

end Context

end ByteGrammar
