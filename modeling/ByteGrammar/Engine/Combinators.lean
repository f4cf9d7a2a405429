import ByteGrammar.Engine.Action

/-
  What each combinator does with the actions of its parts.

  Main declarations:
    * `Match`
    * `Action.sequence`, `Action.between`, `Action.either`
    * `Action.repeated`, `Action.separatedList`,
      `Action.chain`, `Action.takeUntil`
    * `Action.expect`, `Action.reject`
    * `Action.token`, `Action.callRule`
-/

------------------------------------------------------------
-- Matches
------------------------------------------------------------

namespace ByteGrammar

/- A match: where it starts and stops, and what it
  yields. -/
structure Match where
  start : Nat
  stop : Nat
  value : Value

namespace Match

/- A match of nothing at a position. -/
def nothingAt
    (position : Nat)
    (value : Value) :
    Match :=
  ⟨position, position, value⟩

/- The same stretch with another value. -/
def withValue
    (found : Match)
    (value : Value) :
    Match :=
  { found with value := value }

/- The region of a match. -/
def region
    (found : Match) :
    Region :=
  Region.between found.start found.stop

end Match

end ByteGrammar

------------------------------------------------------------
-- Terminals
------------------------------------------------------------

namespace ByteGrammar

namespace Action

/- Matches what a terminal finds in the remaining bytes. A
  mismatch leaves the position and the raw region as they
  are; what was read for it counts as reached. -/
def scan
    (terminal : Terminal) :
    Action Match := do
  let start ← position
  match ← inspect fun cursor =>
      terminal.scan cursor.remaining with
  | .hit length value =>
      move fun cursor => cursor.advance length
      let stop ← position
      return ⟨start, stop, value start⟩
  | .still value => return Match.nothingAt start value
  | .broken length =>
      move fun cursor => cursor.touch length
      fail
  | .miss => fail

end Action

end ByteGrammar

------------------------------------------------------------
-- Sequences and Choices
------------------------------------------------------------

namespace ByteGrammar

namespace Action

/- One match after another. -/
def sequence
    (join : Value → Value → Value)
    (first second : Action Match) :
    Action Match :=
  bindReverting first fun left => do
    let right ← second
    return ⟨left.start, right.stop,
      join left.value right.value⟩

/- Three matches in a row, for the value in the middle. -/
def between
    (opening content closing : Action Match) :
    Action Match :=
  bindReverting opening fun left => do
    let middle ← content
    let right ← closing
    return ⟨left.start, right.stop, middle.value⟩

/- The first match, or else the second from where the first
  left the cursor. -/
def orElse
    (first second : Action Match) :
    Action Match := do
  match ← optionally first with
  | some found => return found
  | none => second

/- The first match, or else the second from the same
  place. -/
def either
    (first second : Action Match) :
    Action Match :=
  orElse (attempt first) second

/- The match, or else a match of nothing. -/
def orDefault
    (fallback : Value)
    (action : Action Match) :
    Action Match := do
  let here ← position
  match ← optionally action with
  | some found => return found
  | none => return Match.nothingAt here fallback

end Action

end ByteGrammar

------------------------------------------------------------
-- Lookahead
------------------------------------------------------------

namespace ByteGrammar

namespace Action

/- The first match, where the second then matches too. -/
def followedBy
    (action lookahead : Action Match) :
    Action Match :=
  bindReverting action fun found => do
    let after ← checkpoint
    let _ ← lookahead
    restore after
    return found

/- The value of a match, as a match of nothing. -/
def peek
    (action : Action Match) :
    Action Match := do
  let before ← checkpoint
  let found ← action
  restore before
  return Match.nothingAt before.position found.value

/- A match of nothing where the action fails. -/
def absent
    (action : Action Match) :
    Action Match := do
  let before ← checkpoint
  match ← optionally action with
  | some _ =>
      restore before
      fail
  | none => return Match.nothingAt before.position .unit

end Action

end ByteGrammar

------------------------------------------------------------
-- Commit Points
------------------------------------------------------------

namespace ByteGrammar

namespace Action

/- The match; a failure becomes fatal where it was tried. -/
def expect
    (message : String)
    (action : Action Match) :
    Action Match := do
  let here ← position
  match ← optionally action with
  | some found => return found
  | none =>
      report (.commitFailed here message)
      raise (.committed message here)

/- A match of nothing where the action fails; a match
  becomes fatal where it was tried, which is before the
  whitespace that a token skips. -/
def reject
    (message : String)
    (action : Action Match) :
    Action Match := do
  let before ← checkpoint
  match ← optionally action with
  | some _ =>
      restore before
      report (.matchRejected before.position message)
      raise (.rejected message before.position)
  | none => return Match.nothingAt before.position .unit

end Action

end ByteGrammar

------------------------------------------------------------
-- Values and Regions
------------------------------------------------------------

namespace ByteGrammar

namespace Action

/- The match with another value. -/
def map
    (change : Value → Value)
    (action : Action Match) :
    Action Match := do
  let found ← action
  return found.withValue (change found.value)

/- The match, if its value passes a test. -/
def filter
    (test : Value → Bool)
    (action : Action Match) :
    Action Match :=
  bindReverting action fun found =>
    if test found.value then return found else fail

/- The region of the match, which is recorded as the raw
  match. -/
def capture
    (action : Action Match) :
    Action Match := do
  let found ← action
  move fun cursor => cursor.mark found.start found.stop
  return found.withValue (.region found.region)

/- The match seen in another way. -/
def view
    (view : View)
    (action : Action Match) :
    Action Match := do
  let found ← action
  let value ←
    inspect (view.see found.value found.region)
  return found.withValue value

/- The region of the match read as a value. What cannot be
  read fails. -/
def convert
    (conversion : Conversion)
    (action : Action Match) :
    Action Match :=
  bindReverting action fun found => do
    move fun cursor => cursor.mark found.start found.stop
    match ← inspect conversion.read with
    | .ok (some value) => return found.withValue value
    | .ok none => fail
    | .error error =>
        report (.conversionFailed error)
        fail

end Action

end ByteGrammar

------------------------------------------------------------
-- Repetition
------------------------------------------------------------

namespace ByteGrammar

namespace Action

/- One pass of a repetition: another value, unless there are
  enough, the action fails or the match was of nothing. -/
def collectPass
    (max : Option Nat)
    (action : Action Match)
    (values : List Value) :
    Action (Pass (List Value) (List Value)) := do
  if max.any fun max => max ≤ values.length then
    return .done values
  else
    let before ← position
    match ← optionally action with
    | none => return .done values
    | some found =>
        if found.stop = before then
          return .done (values ++ [found.value])
        else return .again (values ++ [found.value])

/- As many matches as there are, up to `max`; fewer than
  `min` fail. Without an upper bound, a repetition that has
  no match leaves the cursor to its part. -/
def repeated
    (min : Nat)
    (max : Option Nat)
    (action : Action Match) :
    Action Match := do
  let before ← checkpoint
  let values ← loop (collectPass max action) []
  let stop ← position
  if values.length < min then
    if values.isEmpty && max.isNone then fail
    else backtrack before
  else return ⟨before.position, stop, .list values⟩

/- One pass of the search for a terminator. -/
def takeUntilPass
    (orEnd : Bool)
    (terminator : Action Match)
    (_ : Unit) :
    Action (Pass Unit Unit) := do
  let here ← checkpoint
  match ← optionally terminator with
  | some _ =>
      restore here
      return .done ()
  | none =>
      if ← inspect Cursor.atEnd then
        if orEnd then return .done () else fail
      else
        move fun cursor => cursor.advance 1
        return .again ()

/- The region up to where the terminator matches. -/
def takeUntil
    (orEnd : Bool)
    (terminator : Action Match) :
    Action Match :=
  attempt do
    let start ← position
    loop (takeUntilPass orEnd terminator) ()
    let stop ← position
    return ⟨start, stop, .region (Region.between start stop)⟩

end Action

end ByteGrammar

------------------------------------------------------------
-- Lists and Chains
------------------------------------------------------------

namespace ByteGrammar

namespace Action

/- One pass of a separated list: a separator and an item
  that together consume something. -/
def separatedListPass
    (item separator : Action Match)
    (taken : Nat × List Value) :
    Action (Pass (Nat × List Value) (Nat × List Value)) := do
  let before ← checkpoint
  match ← optionally separator with
  | none => return .done taken
  | some _ =>
      match ← optionally item with
      | none =>
          restore before
          return .done taken
      | some found =>
          if found.stop = before.position then
            restore before
            return .done taken
          else
            return .again
              (found.stop, taken.2 ++ [found.value])

/- Items with separators between; at least one item. -/
def separatedList
    (item separator : Action Match) :
    Action Match := do
  let first ← item
  let (stop, values) ←
    loop (separatedListPass item separator)
      (first.stop, [first.value])
  return ⟨first.start, stop, .list values⟩

/- One pass of a chain: an operator and an operand that
  together move the end of the chain. An operator without
  an operand is given back. -/
def chainPass
    (combine : Value → Value → Value → Value)
    (operand operator : Action Match)
    (taken : Nat × Value) :
    Action (Pass (Nat × Value) (Nat × Value)) := do
  let before ← checkpoint
  match ← optionally operator with
  | none => return .done taken
  | some symbol =>
      match ← optionally operand with
      | none =>
          restore before
          return .done taken
      | some right =>
          if right.stop = taken.1 then
            restore before
            return .done taken
          else
            return .again (right.stop,
              combine taken.2 symbol.value right.value)

/- Operands with operators between, combined from the
  left. -/
def chain
    (combine : Value → Value → Value → Value)
    (operand operator : Action Match) :
    Action Match := do
  let first ← operand
  let (stop, value) ←
    loop (chainPass combine operand operator)
      (first.stop, first.value)
  return ⟨first.start, stop, value⟩

end Action

end ByteGrammar

------------------------------------------------------------
-- Whitespace, Flags and Conditions
------------------------------------------------------------

namespace ByteGrammar

namespace Action

/- Runs an action with another whitespace parser installed,
  and installs the former again. -/
def withWhitespace
    {α : Type}
    (whitespace : Option Parser)
    (action : Action α) :
    Action α :=
  within (Context.installWhitespace whitespace)
    (fun before => Context.installWhitespace
      before.whitespace)
    action

/- Runs an action with a flag set or cleared, and gives the
  flag its former state again. -/
def withFlag
    {α : Type}
    (name : String)
    (on : Bool)
    (action : Action α) :
    Action α :=
  within (Context.assignFlag name on)
    (fun before => Context.assignFlag name
      (before.hasFlag name))
    action

/- Skips whitespace: by the installed parser, which runs
  without one installed and may fail, or by default. -/
def skipWhitespace
    (run : Parser → Action Match) :
    Action Unit := do
  match ← consult Context.whitespace with
  | some whitespace =>
      let _ ← optionally
        (withWhitespace none (run whitespace))
      return ()
  | none =>
      if ← consult fun context =>
          context.options.skipNewlines then
        move fun cursor => cursor.skipBlanks.2
      else
        move fun cursor => cursor.skipInline.2

/- The match after whitespace; a failure gives the
  whitespace back. -/
def token
    (run : Parser → Action Match)
    (parser : Parser) :
    Action Match :=
  attempt do
    skipWhitespace run
    run parser

/- One action or the other, by a condition. -/
def select
    (condition : Condition)
    (whenTrue whenFalse : Action Match) :
    Action Match := do
  if ← consult condition.holds then whenTrue else whenFalse

end Action

end ByteGrammar

------------------------------------------------------------
-- Labels and Rules
------------------------------------------------------------

namespace ByteGrammar

namespace Action

/- The match with its value named. -/
def label
    (id : ParserId)
    (name : String)
    (action : Action Match) :
    Action Match := do
  let here ← position
  let found ←
    bracketed (.label id) name here action
  return found.withValue (.named name found.value)

/- Runs the target of a rule, unless loops are detected and
  a rule of its identity is already running at this
  position. -/
def guarded
    (id : ParserId)
    (here : Nat)
    (action : Action Match) :
    Action Match := do
  if ← consult fun context =>
      context.options.loopDetection then
    if ← consult fun context => context.isActive id here then
      report (.loopDetected id here)
      fail
    else
      within (Context.activate id here)
        (fun _ => Context.deactivate id here)
        action
  else action

/- The match of the target of a rule. -/
def callRule
    (rules : Rules)
    (run : Parser → Action Match)
    (handle : Handle) :
    Action Match := do
  let id := rules.idOf handle
  let here ← position
  match rules.target? handle with
  | none => raise (.unbound id here)
  | some target =>
      bracketed (.rule id) "deferred" here
        (guarded id here (run target))

end Action

end ByteGrammar
