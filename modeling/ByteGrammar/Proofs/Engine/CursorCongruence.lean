import ByteGrammar.Engine.Evaluation
import ByteGrammar.Proofs.Engine.Alternation

/-
  Relations between actions that hold through everything
  that leaves the context alone.

  Two actions may be run on cursors that are alike without
  being the same. A relation that the operations on cursors
  keep is kept by every combinator that neither looks at the
  context nor changes it, and so by every node of a parser
  that is not scoped.

  Main declarations:
    * `Cursor.Outlook`, `Cursor.Likeness`
    * `Action.CursorCongruence`
    * `Parser.parts`, `Parser.isScoped`
    * `Action.CursorCongruence.step_of_outlook`
    * `Action.CursorCongruence.step`
-/

------------------------------------------------------------
-- Likeness
------------------------------------------------------------

namespace ByteGrammar

namespace Cursor

/- Cursors that are alike stand at one position and see the
  same bytes from there on, and the operations keep them
  alike. -/
structure Outlook
    (alike : Cursor → Cursor → Prop) :
    Prop where
  position : ∀ {cursor cursor' : Cursor},
    alike cursor cursor' →
      cursor.position = cursor'.position
  remaining : ∀ {cursor cursor' : Cursor},
    alike cursor cursor' →
      cursor.remaining = cursor'.remaining
  advance : ∀ {cursor cursor' : Cursor} (count : Nat),
    alike cursor cursor' →
      alike (cursor.advance count) (cursor'.advance count)
  mark : ∀ {cursor cursor' : Cursor} (start stop : Nat),
    alike cursor cursor' →
      alike (cursor.mark start stop)
        (cursor'.mark start stop)
  restore : ∀ {before before' after after' : Cursor},
    alike before before' → alike after after' →
      alike (after.restore before.checkpoint)
        (after'.restore before'.checkpoint)

namespace Outlook

variable {alike : Cursor → Cursor → Prop}
variable {cursor cursor' : Cursor}

theorem touch
    (hLike : Outlook alike)
    (count : Nat)
    (hAlike : alike cursor cursor') :
    alike (cursor.touch count) (cursor'.touch count) :=
  hLike.restore hAlike (hLike.advance count hAlike)

theorem atEnd
    (hLike : Outlook alike)
    (hAlike : alike cursor cursor') :
    cursor.atEnd = cursor'.atEnd := by
  have hEnd : ∀ cursor : Cursor,
      cursor.atEnd = cursor.remaining.isEmpty := by
    intro cursor
    rw [Bool.eq_iff_iff]
    simp [Cursor.atEnd, Cursor.remaining]
  rw [hEnd, hEnd, hLike.remaining hAlike]

theorem skipWhile
    (hLike : Outlook alike)
    (test : UInt8 → Bool)
    (hAlike : alike cursor cursor') :
    alike (cursor.skipWhile test).2
      (cursor'.skipWhile test).2 := by
  unfold Cursor.skipWhile
  rw [hLike.remaining hAlike]
  exact hLike.advance _ hAlike

end Outlook

/- Cursors that are alike stand at one position of one
  buffer, and the operations keep them alike. -/
structure Likeness
    (alike : Cursor → Cursor → Prop) :
    Prop where
  data : ∀ {cursor cursor' : Cursor},
    alike cursor cursor' → cursor.data = cursor'.data
  position : ∀ {cursor cursor' : Cursor},
    alike cursor cursor' →
      cursor.position = cursor'.position
  advance : ∀ {cursor cursor' : Cursor} (count : Nat),
    alike cursor cursor' →
      alike (cursor.advance count) (cursor'.advance count)
  mark : ∀ {cursor cursor' : Cursor} (start stop : Nat),
    alike cursor cursor' →
      alike (cursor.mark start stop)
        (cursor'.mark start stop)
  restore : ∀ {before before' after after' : Cursor},
    alike before before' → alike after after' →
      alike (after.restore before.checkpoint)
        (after'.restore before'.checkpoint)

namespace Likeness

variable {alike : Cursor → Cursor → Prop}
variable {cursor cursor' : Cursor}

/- In one buffer, the position says which bytes follow. -/
theorem outlook
    (hLike : Likeness alike) :
    Outlook alike where
  position := hLike.position
  remaining := by
    intro cursor cursor' hAlike
    unfold Cursor.remaining
    rw [hLike.data hAlike, hLike.position hAlike]
  advance := hLike.advance
  mark := hLike.mark
  restore := hLike.restore

theorem text
    (hLike : Likeness alike)
    (hAlike : alike cursor cursor')
    (region : Region) :
    cursor.text region = cursor'.text region := by
  unfold Cursor.text Cursor.bytes
  rw [hLike.data hAlike]

theorem samePlace
    (hLike : Likeness alike)
    (hAlike : alike cursor cursor') :
    cursor.SamePlace cursor' :=
  ⟨hLike.data hAlike, hLike.position hAlike⟩

/- A conversion sees the region that was recorded last and
  the buffer. -/
theorem read_mark
    (hLike : Likeness alike)
    (conversion : Conversion)
    (start stop : Nat)
    (hAlike : alike cursor cursor') :
    conversion.read (cursor.mark start stop) =
      conversion.read (cursor'.mark start stop) := by
  have hText : ∀ region,
      (cursor.mark start stop).text region =
        (cursor'.mark start stop).text region :=
    hLike.text (hLike.mark start stop hAlike)
  have hRaw :
      (cursor.mark start stop).raw =
        (cursor'.mark start stop).raw := rfl
  unfold Conversion.read Cursor.rawHexadecimal
    Cursor.rawCharacter
  rw [hRaw, hText]

end Likeness

/- No two cursors are alike but those that are the same. -/
theorem likeness_eq :
    Likeness Eq where
  data := congrArg Cursor.data
  position := congrArg Cursor.position
  advance := by
    rintro cursor _ count rfl
    rfl
  mark := by
    rintro cursor _ start stop rfl
    rfl
  restore := by
    rintro before _ after _ rfl rfl
    rfl

end Cursor

end ByteGrammar

------------------------------------------------------------
-- Congruences
------------------------------------------------------------

namespace ByteGrammar

namespace Action

/-
  A relation that the operations on cursors keep. What they
  report and raise comes in pairs: an event with the failure
  or the fatal error that it announces.
-/
structure CursorCongruence
    (alike : Cursor → Cursor → Prop)
    (related : ∀ {α : Type}, Action α → Action α → Prop) :
    Prop where
  exhausted : ∀ {α : Type},
    related (exhausted : Action α) exhausted
  pure : ∀ {α : Type} (value : α),
    related (pure value) (pure value)
  bind : ∀ {α β : Type} {first first' : Action α}
    {next next' : α → Action β},
    related first first' →
    (∀ value, related (next value) (next' value)) →
    related (bind first next) (bind first' next')
  fail : ∀ {α : Type}, related (fail : Action α) fail
  optionally : ∀ {α : Type} {action action' : Action α},
    related action action' →
    related (optionally action) (optionally action')
  attempt : ∀ {α : Type} {action action' : Action α},
    related action action' →
    related (attempt action) (attempt action')
  inspect : ∀ {α : Type} {view view' : Cursor → α},
    (∀ {cursor cursor' : Cursor}, alike cursor cursor' →
      view cursor = view' cursor') →
    related (inspect view) (inspect view')
  move : ∀ {change change' : Cursor → Cursor},
    (∀ {cursor cursor' : Cursor}, alike cursor cursor' →
      alike (change cursor) (change' cursor')) →
    related (move change) (move change')
  checkpoint : ∀ {α : Type}
    {next next' : Checkpoint → Action α},
    (∀ {cursor cursor' : Cursor}, alike cursor cursor' →
      related (next cursor.checkpoint)
        (next' cursor'.checkpoint)) →
    related (Action.bind Action.checkpoint next)
      (Action.bind Action.checkpoint next')
  record : ∀ {α β : Type} {view : Cursor → α}
    {next next' : α → Action β} (start stop : Nat),
    (∀ {cursor cursor' : Cursor}, alike cursor cursor' →
      view (cursor.mark start stop) =
        view (cursor'.mark start stop)) →
    (∀ value, related (next value) (next' value)) →
    related
      (Action.bind
        (Action.move fun cursor => cursor.mark start stop)
        fun _ => Action.bind (Action.inspect view) next)
      (Action.bind
        (Action.move fun cursor => cursor.mark start stop)
        fun _ => Action.bind (Action.inspect view) next')
  unread : ∀ error : ReadError,
    related
      (Action.bind (report (.conversionFailed error))
        fun _ => (Action.fail : Action Match))
      (Action.bind (report (.conversionFailed error))
        fun _ => Action.fail)
  committed : ∀ (message : String) (here : Nat),
    related
      (Action.bind (report (.commitFailed here message))
        fun _ =>
          (raise (.committed message here) : Action Match))
      (Action.bind (report (.commitFailed here message))
        fun _ => raise (.committed message here))
  rejected : ∀ (message : String) (here : Nat),
    related
      (Action.bind (report (.matchRejected here message))
        fun _ =>
          (raise (.rejected message here) : Action Match))
      (Action.bind (report (.matchRejected here message))
        fun _ => raise (.rejected message here))
  labelled : ∀ {action action' : Action Match}
    (id : ParserId) (name : String) (here : Nat),
    related action action' →
    related (bracketed (.label id) name here action)
      (bracketed (.label id) name here action')

end Action

end ByteGrammar

------------------------------------------------------------
-- Loops
------------------------------------------------------------

namespace ByteGrammar

namespace Action

namespace CursorCongruence

variable {alike : Cursor → Cursor → Prop}
variable {related : ∀ {α : Type}, Action α → Action α → Prop}
variable {σ β : Type}

/- Loops of related passes are related. -/
theorem iterate
    (hRelated : CursorCongruence alike related)
    {pass pass' : σ → Action (Pass σ β)}
    (hPass : ∀ taken, related (pass taken) (pass' taken))
    (limit : Nat)
    (taken : σ) :
    related (Action.iterate pass limit taken)
      (Action.iterate pass' limit taken) := by
  induction limit generalizing taken with
  | zero => exact hRelated.exhausted
  | succ limit ih =>
      apply hRelated.bind (hPass taken)
      intro result
      cases result with
      | again next => exact ih next
      | done result => exact hRelated.pure result

/- The bound of a loop depends on the cursor alone. -/
theorem loop
    (hRelated : CursorCongruence alike related)
    (hLike : Cursor.Outlook alike)
    {pass pass' : σ → Action (Pass σ β)}
    (hPass : ∀ taken, related (pass taken) (pass' taken))
    (start : σ) :
    related (Action.loop pass start)
      (Action.loop pass' start) := by
  unfold Action.loop
  have hRemaining :
      related
        (Action.inspect fun cursor =>
          cursor.remaining.length)
        (Action.inspect fun cursor =>
          cursor.remaining.length) := by
    apply hRelated.inspect
    intro cursor cursor' hAlike
    rw [hLike.remaining hAlike]
  apply hRelated.bind hRemaining
  intro remaining
  exact hRelated.iterate hPass (remaining + 1) start

end CursorCongruence

end Action

end ByteGrammar

------------------------------------------------------------
-- Combinators
------------------------------------------------------------

namespace ByteGrammar

namespace Action

namespace CursorCongruence

variable {alike : Cursor → Cursor → Prop}
variable {related : ∀ {α : Type}, Action α → Action α → Prop}
variable {first first' second second' third third' :
  Action Match}

/- Cursors that are alike stand at one position. -/
theorem position
    (hRelated : CursorCongruence alike related)
    (hLike : Cursor.Outlook alike) :
    related Action.position Action.position :=
  hRelated.inspect hLike.position

/- Setting back to where cursors that are alike were keeps
  them alike. -/
theorem restore
    {cursor cursor' : Cursor}
    (hRelated : CursorCongruence alike related)
    (hLike : Cursor.Outlook alike)
    (hAlike : alike cursor cursor') :
    related (Action.restore cursor.checkpoint)
      (Action.restore cursor'.checkpoint) :=
  hRelated.move (hLike.restore hAlike)

theorem scan
    (hRelated : CursorCongruence alike related)
    (hLike : Cursor.Outlook alike)
    (terminal : Terminal) :
    related (Action.scan terminal) (Action.scan terminal) := by
  unfold Action.scan
  apply hRelated.bind (hRelated.position hLike)
  intro start
  have hScan :
      related
        (Action.inspect fun cursor =>
          terminal.scan cursor.remaining)
        (Action.inspect fun cursor =>
          terminal.scan cursor.remaining) := by
    apply hRelated.inspect
    intro cursor cursor' hAlike
    rw [hLike.remaining hAlike]
  apply hRelated.bind hScan
  intro found
  cases found with
  | hit length value =>
      apply hRelated.bind (hRelated.move (hLike.advance _))
      intro _
      exact hRelated.bind (hRelated.position hLike) fun _ =>
        hRelated.pure _
  | still value => exact hRelated.pure _
  | broken length =>
      exact hRelated.bind (hRelated.move (hLike.touch _))
        fun _ => hRelated.fail
  | miss => exact hRelated.fail

theorem backtrack
    {β : Type}
    {cursor cursor' : Cursor}
    (hRelated : CursorCongruence alike related)
    (hLike : Cursor.Outlook alike)
    (hAlike : alike cursor cursor') :
    related (Action.backtrack cursor.checkpoint : Action β)
      (Action.backtrack cursor'.checkpoint) :=
  hRelated.bind (hRelated.restore hLike hAlike)
    fun _ => hRelated.fail

theorem orBacktrack
    {β : Type}
    {action action' : Action β}
    {cursor cursor' : Cursor}
    (hRelated : CursorCongruence alike related)
    (hLike : Cursor.Outlook alike)
    (hAlike : alike cursor cursor')
    (hAction : related action action') :
    related (Action.orBacktrack cursor.checkpoint action)
      (Action.orBacktrack cursor'.checkpoint action') := by
  unfold Action.orBacktrack
  apply hRelated.bind (hRelated.optionally hAction)
  intro result
  cases result with
  | some result => exact hRelated.pure result
  | none => exact hRelated.backtrack hLike hAlike

/- What goes back does so to where cursors that are alike
  were. -/
theorem bindReverting
    {β : Type}
    {next next' : Match → Action β}
    (hRelated : CursorCongruence alike related)
    (hLike : Cursor.Outlook alike)
    (hFirst : related first first')
    (hNext : ∀ found,
      related (next found) (next' found)) :
    related (Action.bindReverting first next)
      (Action.bindReverting first' next') := by
  unfold Action.bindReverting
  apply hRelated.checkpoint
  intro before before' hAlike
  apply hRelated.bind hFirst
  intro found
  exact hRelated.orBacktrack hLike hAlike (hNext found)

theorem sequence
    (hRelated : CursorCongruence alike related)
    (hLike : Cursor.Outlook alike)
    (join : Value → Value → Value)
    (hFirst : related first first')
    (hSecond : related second second') :
    related (Action.sequence join first second)
      (Action.sequence join first' second') := by
  unfold Action.sequence
  exact hRelated.bindReverting hLike hFirst fun _ =>
    hRelated.bind hSecond fun _ => hRelated.pure _

theorem between
    (hRelated : CursorCongruence alike related)
    (hLike : Cursor.Outlook alike)
    (hFirst : related first first')
    (hSecond : related second second')
    (hThird : related third third') :
    related (Action.between first second third)
      (Action.between first' second' third') := by
  unfold Action.between
  exact hRelated.bindReverting hLike hFirst fun _ =>
    hRelated.bind hSecond fun _ =>
      hRelated.bind hThird fun _ => hRelated.pure _

theorem orElse
    (hRelated : CursorCongruence alike related)
    (hFirst : related first first')
    (hSecond : related second second') :
    related (Action.orElse first second)
      (Action.orElse first' second') := by
  unfold Action.orElse
  apply hRelated.bind (hRelated.optionally hFirst)
  intro found
  cases found with
  | some found => exact hRelated.pure found
  | none => exact hSecond

theorem either
    (hRelated : CursorCongruence alike related)
    (hFirst : related first first')
    (hSecond : related second second') :
    related (Action.either first second)
      (Action.either first' second') := by
  unfold Action.either
  exact hRelated.orElse (hRelated.attempt hFirst) hSecond

theorem orDefault
    (hRelated : CursorCongruence alike related)
    (hLike : Cursor.Outlook alike)
    (fallback : Value)
    (hFirst : related first first') :
    related (Action.orDefault fallback first)
      (Action.orDefault fallback first') := by
  unfold Action.orDefault
  apply hRelated.bind (hRelated.position hLike)
  intro here
  apply hRelated.bind (hRelated.optionally hFirst)
  intro found
  cases found with
  | some found => exact hRelated.pure found
  | none => exact hRelated.pure _

theorem followedBy
    (hRelated : CursorCongruence alike related)
    (hLike : Cursor.Outlook alike)
    (hFirst : related first first')
    (hSecond : related second second') :
    related (Action.followedBy first second)
      (Action.followedBy first' second') := by
  unfold Action.followedBy
  apply hRelated.bindReverting hLike hFirst
  intro found
  apply hRelated.checkpoint
  intro after after' hAlike
  apply hRelated.bind hSecond
  intro _
  exact hRelated.bind (hRelated.restore hLike hAlike)
    fun _ => hRelated.pure found

/- A match of nothing where cursors that are alike were. -/
theorem nothingAt
    {cursor cursor' : Cursor}
    (hRelated : CursorCongruence alike related)
    (hLike : Cursor.Outlook alike)
    (hAlike : alike cursor cursor')
    (value : Value) :
    related
      (Action.pure
        (Match.nothingAt cursor.checkpoint.position value))
      (Action.pure
        (Match.nothingAt cursor'.checkpoint.position
          value)) := by
  have hPosition :
      cursor.checkpoint.position =
        cursor'.checkpoint.position :=
    hLike.position hAlike
  rw [hPosition]
  exact hRelated.pure _

theorem peek
    (hRelated : CursorCongruence alike related)
    (hLike : Cursor.Outlook alike)
    (hFirst : related first first') :
    related (Action.peek first) (Action.peek first') := by
  unfold Action.peek
  apply hRelated.checkpoint
  intro before before' hAlike
  apply hRelated.bind hFirst
  intro found
  exact hRelated.bind (hRelated.restore hLike hAlike)
    fun _ => hRelated.nothingAt hLike hAlike _

theorem absent
    (hRelated : CursorCongruence alike related)
    (hLike : Cursor.Outlook alike)
    (hFirst : related first first') :
    related (Action.absent first) (Action.absent first') := by
  unfold Action.absent
  apply hRelated.checkpoint
  intro before before' hAlike
  apply hRelated.bind (hRelated.optionally hFirst)
  intro found
  cases found with
  | some found =>
      exact hRelated.bind (hRelated.restore hLike hAlike)
        fun _ => hRelated.fail
  | none => exact hRelated.nothingAt hLike hAlike _

theorem expect
    (hRelated : CursorCongruence alike related)
    (hLike : Cursor.Outlook alike)
    (message : String)
    (hFirst : related first first') :
    related (Action.expect message first)
      (Action.expect message first') := by
  unfold Action.expect
  apply hRelated.bind (hRelated.position hLike)
  intro here
  apply hRelated.bind (hRelated.optionally hFirst)
  intro found
  cases found with
  | some found => exact hRelated.pure found
  | none => exact hRelated.committed message here

theorem reject
    (hRelated : CursorCongruence alike related)
    (hLike : Cursor.Outlook alike)
    (message : String)
    (hFirst : related first first') :
    related (Action.reject message first)
      (Action.reject message first') := by
  unfold Action.reject
  apply hRelated.checkpoint
  intro before before' hAlike
  apply hRelated.bind (hRelated.optionally hFirst)
  intro found
  have hPosition :
      before.checkpoint.position =
        before'.checkpoint.position :=
    hLike.position hAlike
  cases found with
  | some found =>
      dsimp only
      rw [hPosition]
      exact hRelated.bind (hRelated.restore hLike hAlike)
        fun _ => hRelated.rejected message _
  | none => exact hRelated.nothingAt hLike hAlike _

end CursorCongruence

end Action

end ByteGrammar

------------------------------------------------------------
-- Values and Regions
------------------------------------------------------------

namespace ByteGrammar

namespace Action

namespace CursorCongruence

variable {alike : Cursor → Cursor → Prop}
variable {related : ∀ {α : Type}, Action α → Action α → Prop}
variable {action action' : Action Match}

theorem map
    (hRelated : CursorCongruence alike related)
    (change : Value → Value)
    (hAction : related action action') :
    related (Action.map change action)
      (Action.map change action') := by
  unfold Action.map
  exact hRelated.bind hAction fun _ => hRelated.pure _

theorem filter
    (hRelated : CursorCongruence alike related)
    (hLike : Cursor.Outlook alike)
    (test : Value → Bool)
    (hAction : related action action') :
    related (Action.filter test action)
      (Action.filter test action') := by
  unfold Action.filter
  apply hRelated.bindReverting hLike hAction
  intro found
  split
  · exact hRelated.pure found
  · exact hRelated.fail

theorem capture
    (hRelated : CursorCongruence alike related)
    (hLike : Cursor.Outlook alike)
    (hAction : related action action') :
    related (Action.capture action)
      (Action.capture action') := by
  unfold Action.capture
  apply hRelated.bind hAction
  intro found
  exact hRelated.bind (hRelated.move (hLike.mark _ _))
    fun _ => hRelated.pure _

theorem view
    (hRelated : CursorCongruence alike related)
    (hLike : Cursor.Likeness alike)
    (seen : View)
    (hAction : related action action') :
    related (Action.view seen action)
      (Action.view seen action') := by
  unfold Action.view
  apply hRelated.bind hAction
  intro found
  refine hRelated.bind (hRelated.inspect ?_) fun _ =>
    hRelated.pure _
  intro cursor cursor' hAlike
  exact seen.placed _ _ (hLike.samePlace hAlike)

theorem convert
    (hRelated : CursorCongruence alike related)
    (hLike : Cursor.Likeness alike)
    (conversion : Conversion)
    (hAction : related action action') :
    related (Action.convert conversion action)
      (Action.convert conversion action') := by
  unfold Action.convert
  apply hRelated.bindReverting hLike.outlook hAction
  intro found
  apply hRelated.record found.start found.stop
    (hLike.read_mark conversion _ _)
  intro value
  split
  · exact hRelated.pure _
  · exact hRelated.fail
  · exact hRelated.unread _

end CursorCongruence

end Action

end ByteGrammar

------------------------------------------------------------
-- Repetition, Lists and Chains
------------------------------------------------------------

namespace ByteGrammar

namespace Action

namespace CursorCongruence

variable {alike : Cursor → Cursor → Prop}
variable {related : ∀ {α : Type}, Action α → Action α → Prop}
variable {first first' second second' : Action Match}

theorem collectPass
    (hRelated : CursorCongruence alike related)
    (hLike : Cursor.Outlook alike)
    (max : Option Nat)
    (hFirst : related first first')
    (values : List Value) :
    related (Action.collectPass max first values)
      (Action.collectPass max first' values) := by
  unfold Action.collectPass
  split
  · exact hRelated.pure _
  · apply hRelated.bind (hRelated.position hLike)
    intro before
    apply hRelated.bind (hRelated.optionally hFirst)
    intro found
    cases found with
    | none => exact hRelated.pure _
    | some found =>
        dsimp only
        split
        · exact hRelated.pure _
        · exact hRelated.pure _

theorem repeated
    (hRelated : CursorCongruence alike related)
    (hLike : Cursor.Outlook alike)
    (min : Nat)
    (max : Option Nat)
    (hFirst : related first first') :
    related (Action.repeated min max first)
      (Action.repeated min max first') := by
  unfold Action.repeated
  apply hRelated.checkpoint
  intro before before' hAlike
  apply hRelated.bind
    (hRelated.loop hLike
      (hRelated.collectPass hLike max hFirst) [])
  intro values
  apply hRelated.bind (hRelated.position hLike)
  intro stop
  have hPosition :
      before.checkpoint.position =
        before'.checkpoint.position :=
    hLike.position hAlike
  rw [hPosition]
  split
  · split
    · exact hRelated.fail
    · exact hRelated.backtrack hLike hAlike
  · exact hRelated.pure _

theorem takeUntilPass
    (hRelated : CursorCongruence alike related)
    (hLike : Cursor.Outlook alike)
    (orEnd : Bool)
    (hFirst : related first first')
    (taken : Unit) :
    related (Action.takeUntilPass orEnd first taken)
      (Action.takeUntilPass orEnd first' taken) := by
  unfold Action.takeUntilPass
  apply hRelated.checkpoint
  intro here here' hAlike
  apply hRelated.bind (hRelated.optionally hFirst)
  intro found
  cases found with
  | some found =>
      exact hRelated.bind (hRelated.restore hLike hAlike)
        fun _ => hRelated.pure _
  | none =>
      apply hRelated.bind (hRelated.inspect hLike.atEnd)
      intro atEnd
      split
      · split
        · exact hRelated.pure _
        · exact hRelated.fail
      · exact hRelated.bind
          (hRelated.move (hLike.advance 1)) fun _ =>
            hRelated.pure _

theorem takeUntil
    (hRelated : CursorCongruence alike related)
    (hLike : Cursor.Outlook alike)
    (orEnd : Bool)
    (hFirst : related first first') :
    related (Action.takeUntil orEnd first)
      (Action.takeUntil orEnd first') := by
  unfold Action.takeUntil
  apply hRelated.attempt
  apply hRelated.bind (hRelated.position hLike)
  intro start
  apply hRelated.bind
    (hRelated.loop hLike
      (hRelated.takeUntilPass hLike orEnd hFirst) ())
  intro _
  exact hRelated.bind (hRelated.position hLike) fun _ =>
    hRelated.pure _

/- Lists and chains alternate the actions of their parts.
  What a pass is held against is a position. -/
theorem alternate
    {γ : Type}
    (hRelated : CursorCongruence alike related)
    (hLike : Cursor.Outlook alike)
    (still : Nat × γ → Checkpoint → Nat)
    (hStill : ∀ taken saved saved',
      saved.position = saved'.position →
        still taken saved = still taken saved')
    (single : Match → γ)
    (extend : γ → Match → Match → γ)
    (value : γ → Value)
    (hItem : related first first')
    (hSeparator : related second second') :
    related
      (Action.alternate still single extend value
        first second)
      (Action.alternate still single extend value
        first' second') := by
  have hPass : ∀ taken,
      related (alternatePass still extend first second taken)
        (alternatePass still extend first' second'
          taken) := by
    intro taken
    unfold alternatePass
    apply hRelated.checkpoint
    intro before before' hAlike
    have hSame :
        still taken before.checkpoint =
          still taken before'.checkpoint :=
      hStill _ _ _ (hLike.position hAlike)
    apply hRelated.bind (hRelated.optionally hSeparator)
    intro between
    cases between with
    | none => exact hRelated.pure _
    | some between =>
        apply hRelated.bind (hRelated.optionally hItem)
        intro found
        cases found with
        | none =>
            exact hRelated.bind
              (hRelated.restore hLike hAlike) fun _ =>
                hRelated.pure _
        | some found =>
            dsimp only
            rw [hSame]
            split
            · exact hRelated.bind
                (hRelated.restore hLike hAlike) fun _ =>
                  hRelated.pure _
            · exact hRelated.pure _
  unfold Action.alternate
  apply hRelated.bind hItem
  intro found
  exact hRelated.bind (hRelated.loop hLike hPass _)
    fun _ => hRelated.pure _

theorem separatedList
    (hRelated : CursorCongruence alike related)
    (hLike : Cursor.Outlook alike)
    (hItem : related first first')
    (hSeparator : related second second') :
    related (Action.separatedList first second)
      (Action.separatedList first' second') := by
  rw [separatedList_eq_alternate,
    separatedList_eq_alternate]
  apply hRelated.alternate hLike _ _ _ _ _ hItem hSeparator
  intro taken saved saved' hPosition
  exact hPosition

theorem chain
    (hRelated : CursorCongruence alike related)
    (hLike : Cursor.Outlook alike)
    (combine : Value → Value → Value → Value)
    (hOperand : related first first')
    (hOperator : related second second') :
    related (Action.chain combine first second)
      (Action.chain combine first' second') := by
  rw [chain_eq_alternate, chain_eq_alternate]
  apply hRelated.alternate hLike _ _ _ _ _
    hOperand hOperator
  intro taken saved saved' hPosition
  rfl

end CursorCongruence

end Action

end ByteGrammar

------------------------------------------------------------
-- Labels
------------------------------------------------------------

namespace ByteGrammar

namespace Action

namespace CursorCongruence

variable {alike : Cursor → Cursor → Prop}
variable {related : ∀ {α : Type}, Action α → Action α → Prop}
variable {action action' : Action Match}

theorem label
    (hRelated : CursorCongruence alike related)
    (hLike : Cursor.Outlook alike)
    (id : ParserId)
    (name : String)
    (hAction : related action action') :
    related (Action.label id name action)
      (Action.label id name action') := by
  unfold Action.label
  apply hRelated.bind (hRelated.position hLike)
  intro here
  exact hRelated.bind
    (hRelated.labelled id name here hAction)
    fun _ => hRelated.pure _

end CursorCongruence

end Action

end ByteGrammar

------------------------------------------------------------
-- Nodes
------------------------------------------------------------

namespace ByteGrammar

namespace Parser

/- The parsers that a node runs itself. Whitespace that a
  node installs is run by others. -/
def parts :
    Parser → List Parser
  | terminal _ => []
  | sequence _ first second => [first, second]
  | between opening content closing =>
      [opening, content, closing]
  | either first second => [first, second]
  | orElse first second => [first, second]
  | map _ parser => [parser]
  | filter _ parser => [parser]
  | repeated _ _ parser => [parser]
  | orDefault _ parser => [parser]
  | followedBy parser lookahead => [parser, lookahead]
  | peek parser => [parser]
  | absent parser => [parser]
  | capture parser => [parser]
  | view _ parser => [parser]
  | convert _ parser => [parser]
  | expect _ parser => [parser]
  | reject _ parser => [parser]
  | takeUntil _ terminator => [terminator]
  | rule _ => []
  | label _ _ parser => [parser]
  | token parser => [parser]
  | withWhitespace _ parser => [parser]
  | defaultWhitespace parser => [parser]
  | withFlag _ _ parser => [parser]
  | select _ whenTrue whenFalse => [whenTrue, whenFalse]
  | separatedList item separator => [item, separator]
  | chain _ operand operator => [operand, operator]

/- Whether a node looks at the context or changes it. -/
def isScoped :
    Parser → Bool
  | rule _ => true
  | token _ => true
  | withWhitespace _ _ => true
  | defaultWhitespace _ => true
  | withFlag _ _ _ => true
  | select _ _ _ => true
  | _ => false

end Parser

namespace Action

namespace CursorCongruence

variable {alike : Cursor → Cursor → Prop}
variable {related : ∀ {α : Type}, Action α → Action α → Prop}
variable {run run' : Parser → Action Match}

/- A node that is not scoped is related to itself where its
  parts are. What it reads of the bytes behind the cursor is
  left open. -/
theorem step_of_outlook
    (hRelated : CursorCongruence alike related)
    (hLike : Cursor.Outlook alike)
    (rules : Rules)
    {parser : Parser}
    (hOpen : parser.isScoped = false)
    (hParts : ∀ part ∈ parser.parts,
      related (run part) (run' part))
    (hView : ∀ seen part, parser = .view seen part →
      related (Action.view seen (run part))
        (Action.view seen (run' part)))
    (hConvert : ∀ conversion part,
      parser = .convert conversion part →
        related (Action.convert conversion (run part))
          (Action.convert conversion (run' part))) :
    related (parser.step rules run)
      (parser.step rules run') := by
  cases parser with
  | terminal leaf => exact hRelated.scan hLike leaf
  | sequence join first second =>
      exact hRelated.sequence hLike join
        (hParts first (by simp [Parser.parts]))
        (hParts second (by simp [Parser.parts]))
  | between opening content closing =>
      exact hRelated.between hLike
        (hParts opening (by simp [Parser.parts]))
        (hParts content (by simp [Parser.parts]))
        (hParts closing (by simp [Parser.parts]))
  | either first second =>
      exact hRelated.either
        (hParts first (by simp [Parser.parts]))
        (hParts second (by simp [Parser.parts]))
  | orElse first second =>
      exact hRelated.orElse
        (hParts first (by simp [Parser.parts]))
        (hParts second (by simp [Parser.parts]))
  | map change part =>
      exact hRelated.map change
        (hParts part (by simp [Parser.parts]))
  | filter test part =>
      exact hRelated.filter hLike test
        (hParts part (by simp [Parser.parts]))
  | repeated min max part =>
      exact hRelated.repeated hLike min max
        (hParts part (by simp [Parser.parts]))
  | orDefault fallback part =>
      exact hRelated.orDefault hLike fallback
        (hParts part (by simp [Parser.parts]))
  | followedBy part lookahead =>
      exact hRelated.followedBy hLike
        (hParts part (by simp [Parser.parts]))
        (hParts lookahead (by simp [Parser.parts]))
  | peek part =>
      exact hRelated.peek hLike
        (hParts part (by simp [Parser.parts]))
  | absent part =>
      exact hRelated.absent hLike
        (hParts part (by simp [Parser.parts]))
  | capture part =>
      exact hRelated.capture hLike
        (hParts part (by simp [Parser.parts]))
  | view seen part => exact hView seen part rfl
  | convert conversion part =>
      exact hConvert conversion part rfl
  | expect message part =>
      exact hRelated.expect hLike message
        (hParts part (by simp [Parser.parts]))
  | reject message part =>
      exact hRelated.reject hLike message
        (hParts part (by simp [Parser.parts]))
  | takeUntil orEnd terminator =>
      exact hRelated.takeUntil hLike orEnd
        (hParts terminator (by simp [Parser.parts]))
  | label id name part =>
      exact hRelated.label hLike id name
        (hParts part (by simp [Parser.parts]))
  | separatedList item separator =>
      exact hRelated.separatedList hLike
        (hParts item (by simp [Parser.parts]))
        (hParts separator (by simp [Parser.parts]))
  | chain combine operand operator =>
      exact hRelated.chain hLike combine
        (hParts operand (by simp [Parser.parts]))
        (hParts operator (by simp [Parser.parts]))
  | _ => cases hOpen

/- A node that is not scoped is related to itself where its
  parts are. -/
theorem step
    (hRelated : CursorCongruence alike related)
    (hLike : Cursor.Likeness alike)
    (rules : Rules)
    {parser : Parser}
    (hOpen : parser.isScoped = false)
    (hParts : ∀ part ∈ parser.parts,
      related (run part) (run' part)) :
    related (parser.step rules run)
      (parser.step rules run') := by
  apply hRelated.step_of_outlook hLike.outlook rules hOpen
    hParts
  · rintro seen part rfl
    exact hRelated.view hLike seen
      (hParts part (by simp [Parser.parts]))
  · rintro conversion part rfl
    exact hRelated.convert hLike conversion
      (hParts part (by simp [Parser.parts]))

end CursorCongruence

end Action

end ByteGrammar
