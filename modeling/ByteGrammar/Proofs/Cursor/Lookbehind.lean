import ByteGrammar.Engine.Parse
import ByteGrammar.Grammar.Forms
import ByteGrammar.Proofs.Cursor.Spans
import ByteGrammar.Proofs.Engine.ContextCongruence

/-
  No parser looks behind the position where it starts.

  Two cursors may stand at one position of buffers that
  differ before it, with other records of what was matched
  and reached. A grammar does the same from both, as long as
  no view looks behind its match, as one for lines does: what
  the grammar reads back of the buffer are matches of its
  own, which start no earlier.

  Main declarations:
    * `SameTail`, `Cursor.Ahead`
    * `View.OverlooksBehind`, `Step.visible`
    * `Parser.run_ignores_bytes_behind`
-/

------------------------------------------------------------
-- Buffers That Agree From a Position On
------------------------------------------------------------

namespace ByteGrammar

/- Buffers of one length with the same bytes from a position
  on. -/
structure SameTail
    (base : Nat)
    (data data' : List UInt8) :
    Prop where
  length : data.length = data'.length
  tail : data.drop base = data'.drop base

namespace SameTail

variable {base : Nat}
variable {data data' : List UInt8}

/- They have the same bytes from any later position on. -/
theorem drop
    {start : Nat}
    (hTail : SameTail base data data')
    (hStart : base ≤ start) :
    data.drop start = data'.drop start := by
  have hSplit : ∀ buffer : List UInt8,
      buffer.drop start =
        (buffer.drop base).drop (start - base) := by
    intro buffer
    rw [List.drop_drop, Nat.add_sub_cancel' hStart]
  rw [hSplit, hSplit, hTail.tail]

theorem later
    {start : Nat}
    (hTail : SameTail base data data')
    (hStart : base ≤ start) :
    SameTail start data data' :=
  ⟨hTail.length, hTail.drop hStart⟩

theorem slice?
    {region : Region}
    (hTail : SameTail base data data')
    (hStart : base ≤ region.offset) :
    region.slice? data = region.slice? data' := by
  unfold Region.slice?
  rw [hTail.length, hTail.drop hStart]

end SameTail

namespace Cursor

/- Cursors at one position of buffers of one size, which agree
  from a base on that is no later. -/
structure Ahead
    (base size : Nat)
    (cursor cursor' : Cursor) :
    Prop where
  tail : SameTail base cursor.data cursor'.data
  whole : cursor.data.length = size
  position : cursor.position = cursor'.position
  begins : base ≤ cursor.position
  inside : cursor.position ≤ size

namespace Ahead

variable {base size : Nat}
variable {cursor cursor' : Cursor}

theorem symm
    (hAhead : Ahead base size cursor cursor') :
    Ahead base size cursor' cursor := by
  have hLength := hAhead.tail.length
  have hPosition := hAhead.position
  refine ⟨⟨hLength.symm, hAhead.tail.tail.symm⟩,
    hLength ▸ hAhead.whole, hPosition.symm,
    hPosition ▸ hAhead.begins, hPosition ▸ hAhead.inside⟩

theorem outlook :
    Outlook (Ahead base size) where
  position := Ahead.position
  remaining := by
    intro cursor cursor' hAhead
    unfold Cursor.remaining
    rw [← hAhead.position, hAhead.tail.drop hAhead.begins]
  advance := by
    intro cursor cursor' count hAhead
    rcases hAhead with
      ⟨hTail, hSize, hPosition, hBegins, hInside⟩
    have hLength := hTail.length
    refine ⟨hTail, hSize, ?_, ?_, ?_⟩ <;>
      simp only [Cursor.advance] <;>
      omega
  mark := by
    intro cursor cursor' start stop hAhead
    exact ⟨hAhead.tail, hAhead.whole, hAhead.position,
      hAhead.begins, hAhead.inside⟩
  restore := by
    intro before before' after after' hBefore hAfter
    exact ⟨hAfter.tail, hAfter.whole, hBefore.position,
      hBefore.begins, hBefore.inside⟩

/- A region that starts no earlier than the base reads the
  same in both. -/
theorem text
    {region : Region}
    (hAhead : Ahead base size cursor cursor')
    (hStart : base ≤ region.offset) :
    cursor.text region = cursor'.text region := by
  unfold Cursor.text Cursor.bytes
  rw [hAhead.tail.slice? hStart, hAhead.tail.length]

/- So does what was just marked. -/
theorem read_mark
    {start stop : Nat}
    (hAhead : Ahead base size cursor cursor')
    (hStart : base ≤ start)
    (conversion : Conversion) :
    conversion.read (cursor.mark start stop) =
      conversion.read (cursor'.mark start stop) := by
  have hMark := outlook.mark start stop hAhead
  have hRaw :
      (cursor.mark start stop).raw =
        (cursor'.mark start stop).raw := rfl
  have hText :
      (cursor.mark start stop).text
          (cursor.mark start stop).raw =
        (cursor'.mark start stop).text
          (cursor.mark start stop).raw :=
    hMark.text hStart
  unfold Conversion.read Cursor.rawHexadecimal
    Cursor.rawCharacter
  rw [← hRaw, hText]

end Ahead

end Cursor

end ByteGrammar

------------------------------------------------------------
-- Views
------------------------------------------------------------

namespace ByteGrammar

namespace View

/- What a match is seen as does not depend on the bytes
  before it. -/
def OverlooksBehind
    (view : View) :
    Prop :=
  ∀ value region {cursor cursor' : Cursor},
    SameTail region.offset cursor.data cursor'.data →
    cursor.position = cursor'.position →
      view.see value region cursor =
        view.see value region cursor'

theorem overlooksBehind_spanned :
    spanned.OverlooksBehind := by
  intro value region cursor cursor' _ _
  rfl

theorem overlooksBehind_text :
    text.OverlooksBehind := by
  intro value region cursor cursor' hTail _
  have hText : cursor.text region = cursor'.text region := by
    unfold Cursor.text Cursor.bytes
    rw [hTail.slice? (Nat.le_refl _), hTail.length]
  simp only [text, hText]

end View

namespace Parser

/- A node does not see its match by the bytes before it. -/
def OverlooksBehind :
    Parser → Prop
  | view seen _ => seen.OverlooksBehind
  | _ => True

end Parser

end ByteGrammar

------------------------------------------------------------
-- Contexts
------------------------------------------------------------

namespace ByteGrammar

namespace Context

/- One context, with a whitespace parser that is
  admitted. -/
structure Shared
    (admitted : Parser → Prop)
    (context context' : Context) :
    Prop
    extends SameWhitespace admitted context context' where
  eq : context = context'

namespace Shared

variable {admitted : Parser → Prop}

theorem concord
    (hInstalls : ∀ {whitespace part : Parser},
      admitted (.withWhitespace whitespace part) →
        admitted whitespace) :
    Concord admitted (Shared admitted) where
  holds := by
    rintro condition whenTrue whenFalse context _ _ ⟨_, rfl⟩
    rfl
  assigned := by
    rintro name on part context _ _ ⟨hSame, rfl⟩
    exact ⟨rfl, fun on => ⟨⟨rfl, hSame.admitted⟩, rfl⟩⟩
  installed := by
    rintro whitespace part context _ hAdmitted ⟨_, rfl⟩
    exact ⟨.install (hInstalls hAdmitted), rfl⟩
  removed := by
    rintro context _ ⟨_, rfl⟩
    exact ⟨.remove, rfl⟩
  replaced := by
    rintro before _ context _ ⟨hBefore, rfl⟩ ⟨_, rfl⟩
    exact ⟨hBefore.replace, rfl⟩
  skipped := by
    rintro part context _ _ ⟨hSame, rfl⟩
    exact ⟨rfl, rfl, hSame.admitted⟩

theorem guards :
    Guards (Shared admitted) where
  detects := by
    rintro context _ ⟨_, rfl⟩
    rfl
  active := by
    rintro context _ id here ⟨_, rfl⟩
    rfl
  activate := by
    rintro context _ id here ⟨hSame, rfl⟩
    exact ⟨⟨rfl, hSame.admitted⟩, rfl⟩
  deactivate := by
    rintro context _ id here ⟨hSame, rfl⟩
    exact ⟨⟨rfl, hSame.admitted⟩, rfl⟩

end Shared

end Context

end ByteGrammar

------------------------------------------------------------
-- Reading Back
------------------------------------------------------------

namespace ByteGrammar

namespace Action

open Context Cursor

variable {admitted : Parser → Prop}
variable {base size : Nat}
variable {action : Action Match}

/- A match from cursors ahead of the base starts no earlier
  than the base. -/
theorem Tracks.begins_ahead
    {state state' last : State}
    {found : Match}
    {events : List Event}
    (hTracks : Tracks action action)
    (hAlike :
      state.Alike (Ahead base size) (Shared admitted)
        state')
    (hMatched :
      action state = some ⟨.matched found, last, events⟩) :
    base ≤ found.start := by
  have hInside : state.cursor.Inside := by
    unfold Inside
    rw [hAlike.cursor.whole]
    exact hAlike.cursor.inside
  have hSpans :=
    (hTracks state hInside).matched _ _ _ hMatched
  exact Nat.le_trans hAlike.cursor.begins hSpans.begins

/- A conversion reads the match that it has just marked. -/
theorem Simulated.convert_ahead
    (hTracks : Tracks action action)
    (conversion : Conversion)
    (hAction :
      Simulated (Ahead base size) (Shared admitted)
        action action) :
    Simulated (Ahead base size) (Shared admitted)
      (convert conversion action)
      (convert conversion action) := by
  have hCursor :
      CursorCongruence (Ahead base size)
        (Simulated (Ahead base size) (Shared admitted)) :=
    simulated_cursorCongruence Ahead.outlook
  unfold convert bindReverting
  apply hCursor.checkpoint
  intro before before' hBefore
  apply hAction.bind_of_holds
    (fun hAlike _ _ _ => hTracks.begins_ahead hAlike)
  intro found hStart
  apply hCursor.orBacktrack Ahead.outlook hBefore
  apply hCursor.record found.start found.stop
  · intro cursor cursor' hAhead
    exact hAhead.read_mark hStart conversion
  · intro value
    split
    · exact hCursor.pure _
    · exact hCursor.fail
    · exact hCursor.unread _

/- A view shows the match of its own part. -/
theorem Simulated.view_ahead
    {seen : View}
    (hTracks : Tracks action action)
    (hOverlooks : seen.OverlooksBehind)
    (hAction :
      Simulated (Ahead base size) (Shared admitted)
        action action) :
    Simulated (Ahead base size) (Shared admitted)
      (view seen action) (view seen action) := by
  have hCursor :
      CursorCongruence (Ahead base size)
        (Simulated (Ahead base size) (Shared admitted)) :=
    simulated_cursorCongruence Ahead.outlook
  unfold view
  apply hAction.bind_of_holds
    (fun hAlike _ _ _ => hTracks.begins_ahead hAlike)
  intro found hStart
  refine hCursor.bind (hCursor.inspect ?_) fun _ =>
    hCursor.pure _
  intro cursor cursor' hAhead
  apply hOverlooks found.value found.region
  · exact hAhead.tail.later hStart
  · exact hAhead.position

end Action

end ByteGrammar

------------------------------------------------------------
-- Parsers
------------------------------------------------------------

namespace ByteGrammar

/- What is visible of a step besides the record of the
  cursor: what it came to, the position and the context that
  it left and the events that it reported. -/
def Step.visible
    {α : Type}
    (step : Step α) :
    Outcome α × Nat × Context × List Event :=
  (step.outcome, step.state.cursor.position,
    step.state.context, step.events)

namespace Parser

open ByteGrammar.Action ByteGrammar.Context ByteGrammar.Cursor

variable {rules : Rules}
variable {parser : Parser}
variable {cursor cursor' : Cursor}
variable {context : Context}

/- What a grammar does without a view behind its match, it
  does from all cursors with the same bytes ahead. -/
theorem simulated_ahead
    (hOverlook : ∀ node, parser.MayRun rules context node →
      node.OverlooksBehind)
    (base size depth : Nat) :
    Simulated (Ahead base size)
      (Shared (parser.MayRun rules context))
      (parser.run rules depth) (parser.run rules depth) := by
  have hCongruence :
      ContextCongruence (Ahead base size)
        (Shared (parser.MayRun rules context))
        (Simulated (Ahead base size)
          (Shared (parser.MayRun rules context))) :=
    simulated_contextCongruence Ahead.outlook Shared.guards
  apply hCongruence.run_of_outlook Ahead.outlook
    (Shared.concord MayRun.installs) MayRun.closed _ _ depth
    MayRun.self
  · intro seen part depth hNode hPart
    exact hPart.view_ahead
      (tracks_run_self rules depth part)
      (hOverlook _ hNode)
  · intro conversion part depth hPart
    exact hPart.convert_ahead
      (tracks_run_self rules depth part) conversion

/-
  A grammar whose views overlook what is behind their
  matches does the same from any two cursors at one position
  of buffers of one length that agree from there on: it
  comes to the same outcome, leaves the same position and
  context and reports the same events. It sees neither the
  bytes before nor what the cursors recorded.
-/
theorem run_ignores_bytes_behind
    (hOverlook : ∀ node, parser.MayRun rules context node →
      node.OverlooksBehind)
    (hLength : cursor.data.length = cursor'.data.length)
    (hPosition : cursor.position = cursor'.position)
    (hRemaining : cursor.remaining = cursor'.remaining)
    (hInside : cursor.position ≤ cursor.data.length) :
    (∀ depth,
      (parser.run rules depth ⟨cursor, context⟩).map
          Step.visible =
        (parser.run rules depth ⟨cursor', context⟩).map
          Step.visible) ∧
      (parser.parse rules ⟨cursor, context⟩).map
          Step.visible =
        (parser.parse rules ⟨cursor', context⟩).map
          Step.visible := by
  have hAhead :
      Ahead cursor.position cursor.data.length cursor
        cursor' := by
    refine ⟨⟨hLength, ?_⟩, rfl, hPosition, Nat.le_refl _,
      hInside⟩
    unfold Cursor.remaining at hRemaining
    rw [← hPosition] at hRemaining
    exact hRemaining
  have hShared :
      Shared (parser.MayRun rules context) context context :=
    ⟨.refl fun _ => MayRun.installed, rfl⟩
  have hRun : ∀ depth,
      (parser.run rules depth ⟨cursor, context⟩).map
          Step.visible =
        (parser.run rules depth ⟨cursor', context⟩).map
          Step.visible := by
    intro depth
    have hSimulated :=
      simulated_ahead hOverlook cursor.position
        cursor.data.length depth
    apply hSimulated.map_eq _ ⟨hAhead, hShared⟩
      ⟨hAhead.symm, hShared⟩
    intro outcome events last last' hLast
    simp only [Step.visible, hLast.cursor.position,
      hLast.context.eq]
  refine ⟨hRun, ?_⟩
  -- The depth of a parse depends on the length only.
  have hDepth :
      depth rules parser ⟨cursor, context⟩ =
        depth rules parser ⟨cursor', context⟩ := by
    simp only [depth, frames, hLength]
  unfold parse
  rw [hDepth]
  exact hRun _

/- A hexadecimal number that must be 42 and the text after
  it, by a rule: behind a letter that was just matched, and
  behind a zero with a raw region outside the buffer. -/
theorem run_ignores_bytes_behind_number :
    let number : Parser :=
      .filter (Value.weighs .equal 42)
        (.convert .hexadecimal
          (takeWhile Digits.isHexadecimal 1 none))
    let rules : Rules :=
      ⟨[⟨1, some (both number (.view .text (byte 0x3B)))⟩],
        2⟩
    let context : Context := .fresh .standard
    let cursor : Cursor :=
      ⟨[0x5A, 0x32, 0x61, 0x3B], 1, ⟨0, 1⟩, 1⟩
    let cursor' : Cursor :=
      ⟨[0x00, 0x32, 0x61, 0x3B], 1, ⟨3, 9⟩, 4⟩
    ((∀ node, (Parser.rule 0).MayRun rules context node →
        node.OverlooksBehind) ∧
      cursor.data.length = cursor'.data.length ∧
      cursor.position = cursor'.position ∧
      cursor.remaining = cursor'.remaining ∧
      cursor.position ≤ cursor.data.length) ∧
      ((Parser.rule 0).parse rules ⟨cursor, context⟩).map
          Step.visible =
        ((Parser.rule 0).parse rules ⟨cursor', context⟩).map
          Step.visible ∧
      ((Parser.rule 0).parse rules ⟨cursor, context⟩).map
          (fun step => (step.outcome.isMatched,
            step.state.cursor.position)) =
        some (true, 4) := by
  intro number rules context cursor cursor'
  have hOverlook : ∀ node,
      (Parser.rule 0).MayRun rules context node →
        node.OverlooksBehind := by
    intro node hNode
    apply hNode.meets_of_every
    · simp [Rules.Every, Every, rules, number, both, takeWhile,
        byte, OverlooksBehind, View.overlooksBehind_text]
    · simp [Every, context, fresh, OverlooksBehind]
  have hLength :
      cursor.data.length = cursor'.data.length := rfl
  have hPosition :
      cursor.position = cursor'.position := rfl
  have hRemaining :
      cursor.remaining = cursor'.remaining := rfl
  have hInside : cursor.position ≤ cursor.data.length := by
    decide
  refine ⟨⟨hOverlook, hLength, hPosition, hRemaining,
    hInside⟩, ?_, ?_⟩
  · exact
      (run_ignores_bytes_behind hOverlook hLength hPosition
        hRemaining hInside).2
  · decide +kernel

end Parser

end ByteGrammar
