import ByteGrammar.Engine.Parse
import ByteGrammar.Text.Quoted

/-
  Sessions: one cursor and one context under a series of
  parses and single operations.

  Each operation says what it yields and what session it
  leaves. A parse leaves cursor and context as they are when
  it ends, on a fatal error too.

  Main declarations:
    * `Session`, `Session.start`
    * `Session.parse`, `Session.skip`
    * `Session.save`, `Session.rollback`
    * `Session.rejoin`
-/

------------------------------------------------------------
-- Sessions
------------------------------------------------------------

namespace ByteGrammar

/- A cursor and a context, the rules made so far, and
  checkpoints under names. -/
structure Session where
  state : State
  rules : Rules
  slots : List (String × Checkpoint)

namespace Session

/- A session at the start of a source. -/
def start
    (source : List UInt8)
    (options : Options)
    (rules : Rules) :
    Session :=
  ⟨⟨Cursor.ofBytes source, Context.fresh options⟩, rules,
    []⟩

/- The cursor of a session. -/
def cursor
    (session : Session) :
    Cursor :=
  session.state.cursor

/- The context of a session. -/
def context
    (session : Session) :
    Context :=
  session.state.context

/- The session with another cursor. -/
def withCursor
    (session : Session)
    (cursor : Cursor) :
    Session :=
  { session with
    state := { session.state with cursor := cursor } }

/- The session with another context. -/
def withContext
    (session : Session)
    (context : Context) :
    Session :=
  { session with
    state := { session.state with context := context } }

/- Runs an action on cursor and context. -/
def run
    {α : Type}
    (session : Session)
    (action : Action α) :
    Option (Outcome α × List Event × Session) :=
  (action session.state).map fun step =>
    (step.outcome, step.events,
      { session with state := step.state })

/- Parses at the cursor. -/
def parse
    (session : Session)
    (parser : Parser) :
    Option (Outcome Match × List Event × Session) :=
  session.run (parser.parse session.rules)

/- Skips whitespace at the cursor. -/
def skip
    (session : Session) :
    Option (Outcome Unit × List Event × Session) :=
  session.run (Action.skip session.rules)

end Session

end ByteGrammar

------------------------------------------------------------
-- Operations of the Cursor
------------------------------------------------------------

namespace ByteGrammar

namespace Session

/- Does something with the cursor. -/
def onCursor
    {α : Type}
    (session : Session)
    (operation : Cursor → α × Cursor) :
    α × Session :=
  let (result, cursor) := operation session.cursor
  (result, session.withCursor cursor)

/- Changes the cursor. -/
def moveCursor
    (session : Session)
    (change : Cursor → Cursor) :
    Session :=
  session.withCursor (change session.cursor)

/- Keeps a checkpoint under a name. -/
def save
    (session : Session)
    (slot : String) :
    Session :=
  { session with
    slots := (slot, session.cursor.checkpoint) ::
      session.slots }

/- Sets the cursor back to the checkpoint last kept under a
  name, if there is one. -/
def rollback
    (session : Session)
    (slot : String) :
    Option Session :=
  (session.slots.lookup slot).map fun saved =>
    session.moveCursor fun cursor => cursor.restore saved

/- Goes back to the cursor of a session from which this one
  was forked; everything else is shared. -/
def rejoin
    (session forked : Session) :
    Session :=
  forked.withCursor session.cursor

end Session

end ByteGrammar

------------------------------------------------------------
-- Operations of the Context
------------------------------------------------------------

namespace ByteGrammar

namespace Session

/- Installs a whitespace parser, or removes it, and yields
  the one that was installed. -/
def replaceWhitespace
    (session : Session)
    (whitespace : Option Parser) :
    Option Parser × Session :=
  (session.context.whitespace,
    session.withContext
      (session.context.installWhitespace whitespace))

/- Sets or clears a flag, and yields its former state. -/
def assignFlag
    (session : Session)
    (name : String)
    (on : Bool) :
    Bool × Session :=
  (session.context.hasFlag name,
    session.withContext
      (session.context.assignFlag name on))

/- Records that a rule runs at a position; yields false if
  it already did. -/
def pushActive
    (session : Session)
    (id : ParserId)
    (position : Nat) :
    Bool × Session :=
  if session.context.isActive id position then
    (false, session)
  else
    (true, session.withContext
      (session.context.activate id position))

/- Records that a rule no longer runs at a position. -/
def popActive
    (session : Session)
    (id : ParserId)
    (position : Nat) :
    Session :=
  session.withContext
    (session.context.deactivate id position)

end Session

namespace Context

/- How a context shows itself. -/
def describe
    (context : Context) :
    String :=
  let whitespace :=
    if context.whitespace.isSome then "Some(\"<parser>\")"
    else "None"
  let flags :=
    ", ".intercalate
      (context.flags.names.map Quoted.quote)
  "ParseContext \x7b options: " ++
    context.options.describe ++
    ", whitespace: " ++ whitespace ++
    s!", active: {context.active.length}" ++
    ", flags: \x7b" ++ flags ++ "\x7d \x7d"

end Context

end ByteGrammar
