import ByteGrammar.Engine.Parse
import ByteGrammar.Proofs.Engine.Ends

/-
  What actions and parsers come to at a place of a buffer.

  Whatever a cursor recorded and reached before, an action
  comes to one outcome from a position, and stops at a
  position. Parsers do so to any depth that is great
  enough.

  Main declarations:
    * `Action.ComesTo` and its rules
    * `Context.Clear`
    * `Parser.ComesTo` and its rules
-/

------------------------------------------------------------
-- Actions
------------------------------------------------------------

namespace ByteGrammar

namespace Action

variable {α β : Type}

/- From a position of a buffer, in every context that is
  admitted, the action comes to an outcome and stops at a
  position. It leaves the context as it is. -/
def ComesTo
    (data : List UInt8)
    (admitted : Context → Prop)
    (start : Nat)
    (action : Action α)
    (outcome : Outcome α)
    (stop : Nat) :
    Prop :=
  ∀ cursor context, cursor.data = data →
    cursor.position = start → admitted context →
    ∃ last events,
      action ⟨cursor, context⟩ =
          some ⟨outcome, ⟨last, context⟩, events⟩ ∧
        last.data = data ∧ last.position = stop

namespace ComesTo

variable {data : List UInt8}
variable {admitted : Context → Prop}
variable {start middle stop : Nat}
variable {outcome : Outcome β}

theorem mono
    {less : Context → Prop}
    {action : Action β}
    (hAction : ComesTo data admitted start action outcome stop)
    (hLess : ∀ context, less context → admitted context) :
    ComesTo data less start action outcome stop := by
  intro cursor context hData hStart hContext
  exact hAction cursor context hData hStart
    (hLess context hContext)

theorem pure
    (value : α) :
    ComesTo data admitted start (Action.pure value)
      (.matched value) start := by
  intro cursor context hData hStart _
  exact ⟨cursor, [], rfl, hData, hStart⟩

theorem fail :
    ComesTo data admitted start (Action.fail : Action α)
      .failed start := by
  intro cursor context hData hStart _
  exact ⟨cursor, [], rfl, hData, hStart⟩

theorem bind
    {first : Action α}
    {next : α → Action β}
    {value : α}
    (hFirst :
      ComesTo data admitted start first (.matched value)
        middle)
    (hNext :
      ComesTo data admitted middle (next value) outcome
        stop) :
    ComesTo data admitted start (Action.bind first next)
      outcome stop := by
  intro cursor context hData hStart hContext
  rcases hFirst cursor context hData hStart hContext with
    ⟨between, events, hMatched, hData', hMiddle⟩
  rcases hNext between context hData' hMiddle hContext with
    ⟨last, more, hMore, hLast⟩
  refine ⟨last, events ++ more, ?_, hLast⟩
  rw [bind_of_matched hMatched, hMore]
  rfl

theorem bind_failed
    {first : Action α}
    {next : α → Action β}
    (hFirst :
      ComesTo data admitted start first .failed stop) :
    ComesTo data admitted start (Action.bind first next)
      .failed stop := by
  intro cursor context hData hStart hContext
  rcases hFirst cursor context hData hStart hContext with
    ⟨last, events, hFailed, hLast⟩
  exact ⟨last, events, Action.bind_of_failed hFailed, hLast⟩

theorem bind_fatal
    {first : Action α}
    {next : α → Action β}
    {fault : Fault}
    (hFirst :
      ComesTo data admitted start first (.fatal fault)
        stop) :
    ComesTo data admitted start (Action.bind first next)
      (.fatal fault) stop := by
  intro cursor context hData hStart hContext
  rcases hFirst cursor context hData hStart hContext with
    ⟨last, events, hFatal, hLast⟩
  exact ⟨last, events, Action.bind_of_fatal hFatal, hLast⟩

theorem optionally
    {action : Action α}
    {value : α}
    (hAction :
      ComesTo data admitted start action (.matched value)
        stop) :
    ComesTo data admitted start (Action.optionally action)
      (.matched (some value)) stop := by
  intro cursor context hData hStart hContext
  rcases hAction cursor context hData hStart hContext with
    ⟨last, events, hMatched, hLast⟩
  exact ⟨last, events, optionally_of_matched hMatched, hLast⟩

theorem optionally_failed
    {action : Action α}
    (hAction :
      ComesTo data admitted start action .failed stop) :
    ComesTo data admitted start (Action.optionally action)
      (.matched none) stop := by
  intro cursor context hData hStart hContext
  rcases hAction cursor context hData hStart hContext with
    ⟨last, events, hFailed, hLast⟩
  exact ⟨last, events, optionally_of_failed hFailed, hLast⟩

theorem optionally_fatal
    {action : Action α}
    {fault : Fault}
    (hAction :
      ComesTo data admitted start action (.fatal fault)
        stop) :
    ComesTo data admitted start (Action.optionally action)
      (.fatal fault) stop := by
  intro cursor context hData hStart hContext
  rcases hAction cursor context hData hStart hContext with
    ⟨last, events, hFatal, hLast⟩
  exact ⟨last, events, optionally_of_fatal hFatal, hLast⟩

theorem attempt
    {action : Action α}
    {value : α}
    (hAction :
      ComesTo data admitted start action (.matched value)
        stop) :
    ComesTo data admitted start (Action.attempt action)
      (.matched value) stop := by
  intro cursor context hData hStart hContext
  rcases hAction cursor context hData hStart hContext with
    ⟨last, events, hMatched, hLast⟩
  exact ⟨last, events, attempt_of_matched hMatched, hLast⟩

/- An attempt that fails stops where it started. -/
theorem attempt_failed
    {action : Action α}
    (hAction :
      ComesTo data admitted start action .failed stop) :
    ComesTo data admitted start (Action.attempt action)
      .failed start := by
  intro cursor context hData hStart hContext
  rcases hAction cursor context hData hStart hContext with
    ⟨last, events, hFailed, hData', -⟩
  exact ⟨_, events, attempt_of_failed hFailed, hData',
    hStart⟩

theorem attempt_fatal
    {action : Action α}
    {fault : Fault}
    (hAction :
      ComesTo data admitted start action (.fatal fault)
        stop) :
    ComesTo data admitted start (Action.attempt action)
      (.fatal fault) stop := by
  intro cursor context hData hStart hContext
  rcases hAction cursor context hData hStart hContext with
    ⟨last, events, hFatal, hLast⟩
  exact ⟨last, events, attempt_of_fatal hFatal, hLast⟩

theorem bindReverting
    {first : Action α}
    {next : α → Action β}
    {value : α}
    {result : β}
    (hFirst :
      ComesTo data admitted start first (.matched value)
        middle)
    (hNext :
      ComesTo data admitted middle (next value)
        (.matched result) stop) :
    ComesTo data admitted start
      (Action.bindReverting first next) (.matched result)
      stop := by
  intro cursor context hData hStart hContext
  rcases hFirst cursor context hData hStart hContext with
    ⟨between, events, hMatched, hData', hMiddle⟩
  rcases hNext between context hData' hMiddle hContext with
    ⟨last, more, hMore, hLast⟩
  exact ⟨last, events ++ more,
    bindReverting_of_next_matched hMatched hMore, hLast⟩

/- What fails after a match goes back to before it. -/
theorem bindReverting_next_failed
    {first : Action α}
    {next : α → Action β}
    {value : α}
    (hFirst :
      ComesTo data admitted start first (.matched value)
        middle)
    (hNext :
      ComesTo data admitted middle (next value) .failed
        stop) :
    ComesTo data admitted start
      (Action.bindReverting first next) .failed start := by
  intro cursor context hData hStart hContext
  rcases hFirst cursor context hData hStart hContext with
    ⟨between, events, hMatched, hData', hMiddle⟩
  rcases hNext between context hData' hMiddle hContext with
    ⟨last, more, hMore, hData'', -⟩
  exact ⟨_, events ++ more,
    bindReverting_of_next_failed hMatched hMore, hData'',
    hStart⟩

theorem bindReverting_next_fatal
    {first : Action α}
    {next : α → Action β}
    {value : α}
    {fault : Fault}
    (hFirst :
      ComesTo data admitted start first (.matched value)
        middle)
    (hNext :
      ComesTo data admitted middle (next value)
        (.fatal fault) stop) :
    ComesTo data admitted start
      (Action.bindReverting first next) (.fatal fault)
      stop := by
  intro cursor context hData hStart hContext
  rcases hFirst cursor context hData hStart hContext with
    ⟨between, events, hMatched, hData', hMiddle⟩
  rcases hNext between context hData' hMiddle hContext with
    ⟨last, more, hMore, hLast⟩
  exact ⟨last, events ++ more,
    bindReverting_of_next_fatal hMatched hMore, hLast⟩

/- What fails first stays where it failed. -/
theorem bindReverting_failed
    {first : Action α}
    {next : α → Action β}
    (hFirst :
      ComesTo data admitted start first .failed stop) :
    ComesTo data admitted start
      (Action.bindReverting first next) .failed stop := by
  intro cursor context hData hStart hContext
  rcases hFirst cursor context hData hStart hContext with
    ⟨last, events, hFailed, hLast⟩
  exact ⟨last, events, bindReverting_of_failed hFailed,
    hLast⟩

theorem bindReverting_fatal
    {first : Action α}
    {next : α → Action β}
    {fault : Fault}
    (hFirst :
      ComesTo data admitted start first (.fatal fault)
        stop) :
    ComesTo data admitted start
      (Action.bindReverting first next) (.fatal fault)
      stop := by
  intro cursor context hData hStart hContext
  rcases hFirst cursor context hData hStart hContext with
    ⟨last, events, hFatal, hLast⟩
  exact ⟨last, events, bindReverting_of_fatal hFatal, hLast⟩

/- What is reported changes nothing. -/
theorem report
    (event : Event) :
    ComesTo data admitted start (Action.report event)
      (.matched ()) start := by
  intro cursor context hData hStart _
  exact ⟨cursor, [event], rfl, hData, hStart⟩

theorem raise
    (fault : Fault) :
    ComesTo data admitted start
      (Action.raise fault : Action α) (.fatal fault)
      start := by
  intro cursor context hData hStart _
  exact ⟨cursor, [], rfl, hData, hStart⟩

/- What is seen of the cursor depends on its place only. -/
theorem inspect_bind
    {view : Cursor → α}
    {next : α → Action β}
    {value : α}
    (hView : ∀ cursor : Cursor, cursor.data = data →
      cursor.position = start → view cursor = value)
    (hNext :
      ComesTo data admitted start (next value) outcome
        stop) :
    ComesTo data admitted start
      (Action.bind (inspect view) next) outcome stop := by
  intro cursor context hData hStart hContext
  rw [Action.inspect_bind, hView cursor hData hStart]
  exact hNext cursor context hData hStart hContext

theorem position_bind
    {next : Nat → Action β}
    (hNext :
      ComesTo data admitted start (next start) outcome
        stop) :
    ComesTo data admitted start
      (Action.bind position next) outcome stop :=
  inspect_bind (fun _ _ hStart => hStart) hNext

theorem remaining_bind
    {view : List UInt8 → α}
    {next : α → Action β}
    (hNext :
      ComesTo data admitted start
        (next (view (data.drop start))) outcome stop) :
    ComesTo data admitted start
      (Action.bind
        (inspect fun cursor => view cursor.remaining) next)
      outcome stop := by
  apply inspect_bind _ hNext
  intro cursor hData hStart
  unfold Cursor.remaining
  rw [hData, hStart]

theorem move_bind
    {change : Cursor → Cursor}
    {next : Unit → Action β}
    (hChange : ∀ cursor : Cursor, cursor.data = data →
      cursor.position = start →
        (change cursor).data = data ∧
          (change cursor).position = middle)
    (hNext :
      ComesTo data admitted middle (next ()) outcome
        stop) :
    ComesTo data admitted start
      (Action.bind (move change) next) outcome stop := by
  intro cursor context hData hStart hContext
  rcases hChange cursor hData hStart with ⟨hData', hMiddle⟩
  rw [Action.move_bind]
  exact hNext _ context hData' hMiddle hContext

theorem advance_bind
    {count : Nat}
    {next : Unit → Action β}
    (hInside : start + count ≤ data.length)
    (hNext :
      ComesTo data admitted (start + count) (next ())
        outcome stop) :
    ComesTo data admitted start
      (Action.bind
        (move fun cursor => cursor.advance count) next)
      outcome stop := by
  apply move_bind _ hNext
  intro cursor hData hStart
  subst hData hStart
  exact ⟨rfl, Cursor.position_advance hInside⟩

/- What is touched is not moved to. -/
theorem touch_bind
    {count : Nat}
    {next : Unit → Action β}
    (hNext :
      ComesTo data admitted start (next ()) outcome
        stop) :
    ComesTo data admitted start
      (Action.bind
        (move fun cursor => cursor.touch count) next)
      outcome stop := by
  apply move_bind _ hNext
  intro cursor hData hStart
  exact ⟨hData, hStart⟩

theorem restore_bind
    {saved : Checkpoint}
    {next : Unit → Action β}
    (hNext :
      ComesTo data admitted saved.position (next ())
        outcome stop) :
    ComesTo data admitted start
      (Action.bind (restore saved) next) outcome stop := by
  apply move_bind _ hNext
  intro cursor hData _
  exact ⟨hData, rfl⟩

theorem checkpoint_bind
    {next : Checkpoint → Action β}
    (hNext : ∀ saved : Checkpoint, saved.position = start →
      ComesTo data admitted start (next saved) outcome
        stop) :
    ComesTo data admitted start
      (Action.bind checkpoint next) outcome stop := by
  intro cursor context hData hStart hContext
  rw [checkpoint, Action.inspect_bind]
  exact hNext cursor.checkpoint hStart cursor context hData
    hStart hContext

/- What is recorded is seen, whatever was before. -/
theorem record_bind
    {first last : Nat}
    {view : Cursor → α}
    {next : α → Action β}
    {value : α}
    (hView : ∀ cursor : Cursor, cursor.data = data →
      view (cursor.mark first last) = value)
    (hNext :
      ComesTo data admitted start (next value) outcome
        stop) :
    ComesTo data admitted start
      (Action.bind
        (move fun cursor => cursor.mark first last)
        fun _ => Action.bind (inspect view) next)
      outcome stop := by
  intro cursor context hData hStart hContext
  rw [Action.move_bind, Action.inspect_bind]
  dsimp only
  rw [hView cursor hData]
  exact hNext _ context hData hStart hContext

end ComesTo

end Action

end ByteGrammar

------------------------------------------------------------
-- Reading
------------------------------------------------------------

namespace ByteGrammar

namespace Cursor

/- A region that holds the bytes of a text is read as the
  text. -/
theorem text_of_slice
    {cursor : Cursor}
    {region : Region}
    {text : String}
    (hText :
      region.slice? cursor.data =
        some (Utf8.encode text)) :
    cursor.text region = .ok text := by
  simp only [Cursor.text, Cursor.bytes, hText,
    Utf8.decode?_encode]

end Cursor

namespace Conversion

theorem read_text
    {cursor : Cursor}
    {start stop : Nat}
    {text : String}
    (hText :
      (Region.between start stop).slice? cursor.data =
        some (Utf8.encode text)) :
    Conversion.text.read (cursor.mark start stop) =
      .ok (some (.str text)) := by
  have hRead :
      (cursor.mark start stop).text
          (Region.between start stop) =
        .ok text :=
    Cursor.text_of_slice hText
  simp only [Conversion.read, Cursor.mark] at hRead ⊢
  rw [hRead]
  rfl

end Conversion

end ByteGrammar

------------------------------------------------------------
-- Combinators
------------------------------------------------------------

namespace ByteGrammar

namespace Action

namespace ComesTo

variable {data : List UInt8}
variable {admitted : Context → Prop}
variable {start middle later stop : Nat}
variable {first second third : Action Match}
variable {found other last : Match}
variable {outcome : Outcome Match}

theorem scan_hit
    {terminal : Terminal}
    {length : Nat}
    {value : Nat → Value}
    (hScan :
      terminal.scan (data.drop start) = .hit length value)
    (hInside : start + length ≤ data.length) :
    ComesTo data admitted start (scan terminal)
      (.matched ⟨start, start + length, value start⟩)
      (start + length) := by
  unfold scan
  apply position_bind
  apply remaining_bind
  rw [hScan]
  apply advance_bind hInside
  apply position_bind
  exact pure _

theorem scan_miss
    {terminal : Terminal}
    (hScan : terminal.scan (data.drop start) = .miss) :
    ComesTo data admitted start (scan terminal) .failed
      start := by
  unfold scan
  apply position_bind
  apply remaining_bind
  rw [hScan]
  exact fail

/- A mismatch after some bytes touches these. -/
theorem scan_broken
    {terminal : Terminal}
    {length : Nat}
    (hScan :
      terminal.scan (data.drop start) = .broken length) :
    ComesTo data admitted start (scan terminal) .failed
      start := by
  unfold scan
  apply position_bind
  apply remaining_bind
  rw [hScan]
  exact touch_bind fail

theorem sequence
    (join : Value → Value → Value)
    (hFirst :
      ComesTo data admitted start first (.matched found)
        middle)
    (hSecond :
      ComesTo data admitted middle second (.matched other)
        stop) :
    ComesTo data admitted start
      (Action.sequence join first second)
      (.matched ⟨found.start, other.stop,
        join found.value other.value⟩)
      stop := by
  unfold Action.sequence
  exact bindReverting hFirst (bind hSecond (pure _))

theorem sequence_failed
    (join : Value → Value → Value)
    (hFirst :
      ComesTo data admitted start first .failed stop) :
    ComesTo data admitted start
      (Action.sequence join first second) .failed
      stop := by
  unfold Action.sequence
  exact bindReverting_failed hFirst

theorem sequence_fatal
    {fault : Fault}
    (join : Value → Value → Value)
    (hFirst :
      ComesTo data admitted start first (.matched found)
        middle)
    (hSecond :
      ComesTo data admitted middle second (.fatal fault)
        stop) :
    ComesTo data admitted start
      (Action.sequence join first second) (.fatal fault)
      stop := by
  unfold Action.sequence
  exact bindReverting_next_fatal hFirst
    (bind_fatal hSecond)

/- What was looked ahead at is given back. -/
theorem followedBy
    (hFirst :
      ComesTo data admitted start first (.matched found)
        middle)
    (hSecond :
      ComesTo data admitted middle second (.matched other)
        stop) :
    ComesTo data admitted start
      (Action.followedBy first second) (.matched found)
      middle := by
  unfold Action.followedBy
  apply bindReverting hFirst
  apply checkpoint_bind
  rintro saved rfl
  exact bind hSecond (restore_bind (pure _))

theorem followedBy_failed
    (hFirst :
      ComesTo data admitted start first (.matched found)
        middle)
    (hSecond :
      ComesTo data admitted middle second .failed stop) :
    ComesTo data admitted start
      (Action.followedBy first second) .failed start := by
  unfold Action.followedBy
  apply bindReverting_next_failed hFirst
  apply checkpoint_bind
  intro saved _
  exact bind_failed hSecond

theorem followedBy_fatal
    {fault : Fault}
    (hFirst :
      ComesTo data admitted start first (.fatal fault)
        stop) :
    ComesTo data admitted start
      (Action.followedBy first second) (.fatal fault)
      stop := by
  unfold Action.followedBy
  exact bindReverting_fatal hFirst

theorem between
    (hFirst :
      ComesTo data admitted start first (.matched found)
        middle)
    (hSecond :
      ComesTo data admitted middle second (.matched other)
        later)
    (hThird :
      ComesTo data admitted later third (.matched last)
        stop) :
    ComesTo data admitted start
      (Action.between first second third)
      (.matched ⟨found.start, last.stop, other.value⟩)
      stop := by
  unfold Action.between
  exact bindReverting hFirst
    (bind hSecond (bind hThird (pure _)))

theorem either_first
    (hFirst :
      ComesTo data admitted start first (.matched found)
        stop) :
    ComesTo data admitted start (either first second)
      (.matched found) stop := by
  unfold either
  exact bind (optionally (attempt hFirst)) (pure found)

theorem either_fatal
    {fault : Fault}
    (hFirst :
      ComesTo data admitted start first (.fatal fault)
        stop) :
    ComesTo data admitted start (either first second)
      (.fatal fault) stop := by
  unfold either
  exact bind_fatal (optionally_fatal (attempt_fatal hFirst))

theorem either_second
    (hFirst :
      ComesTo data admitted start first .failed middle)
    (hSecond :
      ComesTo data admitted start second outcome stop) :
    ComesTo data admitted start (either first second)
      outcome stop := by
  unfold either
  exact bind (optionally_failed (attempt_failed hFirst))
    hSecond

theorem map
    (change : Value → Value)
    (hFirst :
      ComesTo data admitted start first (.matched found)
        stop) :
    ComesTo data admitted start (Action.map change first)
      (.matched (found.withValue (change found.value)))
      stop := by
  unfold Action.map
  exact bind hFirst (pure _)

theorem map_failed
    (change : Value → Value)
    (hFirst :
      ComesTo data admitted start first .failed stop) :
    ComesTo data admitted start (Action.map change first)
      .failed stop := by
  unfold Action.map
  exact bind_failed hFirst

theorem map_fatal
    {fault : Fault}
    (change : Value → Value)
    (hFirst :
      ComesTo data admitted start first (.fatal fault)
        stop) :
    ComesTo data admitted start (Action.map change first)
      (.fatal fault) stop := by
  unfold Action.map
  exact bind_fatal hFirst

theorem expect
    (message : String)
    (hFirst :
      ComesTo data admitted start first (.matched found)
        stop) :
    ComesTo data admitted start
      (Action.expect message first) (.matched found)
      stop := by
  unfold Action.expect
  apply position_bind
  exact bind (optionally hFirst) (pure found)

/- A failure becomes fatal where it was tried. -/
theorem expect_failed
    (message : String)
    (hFirst :
      ComesTo data admitted start first .failed stop) :
    ComesTo data admitted start
      (Action.expect message first)
      (.fatal (.committed message start)) stop := by
  unfold Action.expect
  apply position_bind
  apply bind (optionally_failed hFirst)
  exact bind (report _) (raise _)

/- A match is read as the text that it covers. -/
theorem convert_text
    {text : String}
    (hFirst :
      ComesTo data admitted start first (.matched found)
        stop)
    (hText :
      found.region.slice? data = some (Utf8.encode text)) :
    ComesTo data admitted start (convert .text first)
      (.matched (found.withValue (.str text))) stop := by
  unfold convert
  apply bindReverting hFirst
  apply record_bind
  · intro cursor hData
    rw [← hData] at hText
    exact Conversion.read_text hText
  · exact pure _

theorem convert_failed
    (conversion : Conversion)
    (hFirst :
      ComesTo data admitted start first .failed stop) :
    ComesTo data admitted start (convert conversion first)
      .failed stop := by
  unfold convert
  exact bindReverting_failed hFirst

end ComesTo

end Action

end ByteGrammar

------------------------------------------------------------
-- Loops and Chains
------------------------------------------------------------

namespace ByteGrammar

namespace Action

namespace ComesTo

variable {σ β : Type}
variable {data : List UInt8}
variable {admitted : Context → Prop}
variable {start middle stop : Nat}

theorem iterate_again
    {pass : σ → Action (Pass σ β)}
    {limit : Nat}
    {taken next : σ}
    {outcome : Outcome β}
    (hPass :
      ComesTo data admitted start (pass taken)
        (.matched (.again next)) middle)
    (hRest :
      ComesTo data admitted middle (iterate pass limit next)
        outcome stop) :
    ComesTo data admitted start
      (iterate pass (limit + 1) taken) outcome stop :=
  bind hPass hRest

theorem iterate_done
    {pass : σ → Action (Pass σ β)}
    {taken : σ}
    {result : β}
    (limit : Nat)
    (hPass :
      ComesTo data admitted start (pass taken)
        (.matched (.done result)) stop) :
    ComesTo data admitted start
      (iterate pass (limit + 1) taken) (.matched result)
      stop :=
  bind hPass (pure result)

theorem iterate_failed
    {pass : σ → Action (Pass σ β)}
    {taken : σ}
    (limit : Nat)
    (hPass :
      ComesTo data admitted start (pass taken) .failed
        stop) :
    ComesTo data admitted start
      (iterate pass (limit + 1) taken) .failed stop :=
  bind_failed hPass

theorem iterate_fatal
    {pass : σ → Action (Pass σ β)}
    {taken : σ}
    {fault : Fault}
    (limit : Nat)
    (hPass :
      ComesTo data admitted start (pass taken)
        (.fatal fault) stop) :
    ComesTo data admitted start
      (iterate pass (limit + 1) taken) (.fatal fault)
      stop :=
  bind_fatal hPass

/- There is one pass for each byte that remains, and one
  more. -/
theorem loop
    {pass : σ → Action (Pass σ β)}
    {taken : σ}
    {outcome : Outcome β}
    (hIterate :
      ComesTo data admitted start
        (iterate pass (data.length - start + 1) taken)
        outcome stop) :
    ComesTo data admitted start (Action.loop pass taken)
      outcome stop := by
  unfold Action.loop
  apply remaining_bind
  rw [List.length_drop]
  exact hIterate

variable {combine : Value → Value → Value → Value}
variable {operand operator : Action Match}
variable {symbol left right : Match}
variable {taken : Nat × Value}

/- An operator and an operand that move the end of the chain
  go on with it. -/
theorem chainPass_again
    (hOperator :
      ComesTo data admitted start operator (.matched symbol)
        middle)
    (hOperand :
      ComesTo data admitted middle operand (.matched right)
        stop)
    (hMoved : right.stop ≠ taken.1) :
    ComesTo data admitted start
      (chainPass combine operand operator taken)
      (.matched (.again (right.stop,
        combine taken.2 symbol.value right.value)))
      stop := by
  unfold chainPass
  apply checkpoint_bind
  intro saved _
  apply bind (optionally hOperator)
  apply bind (optionally hOperand)
  dsimp only
  rw [if_neg hMoved]
  exact pure _

/- Without an operator, the chain is done. -/
theorem chainPass_done
    (hOperator :
      ComesTo data admitted start operator .failed stop) :
    ComesTo data admitted start
      (chainPass combine operand operator taken)
      (.matched (.done taken)) stop := by
  unfold chainPass
  apply checkpoint_bind
  intro saved _
  exact bind (optionally_failed hOperator) (pure _)

theorem chain
    {last : Nat}
    {value : Value}
    (hOperand :
      ComesTo data admitted start operand (.matched left)
        middle)
    (hRest : ∀ limit, data.length - middle < limit →
      ComesTo data admitted middle
        (iterate (chainPass combine operand operator) limit
          (left.stop, left.value))
        (.matched (last, value)) stop) :
    ComesTo data admitted start
      (Action.chain combine operand operator)
      (.matched ⟨left.start, last, value⟩) stop := by
  unfold Action.chain
  have hLoop := loop (hRest _ (Nat.lt_succ_self _))
  exact bind hOperand (bind hLoop (pure _))

end ComesTo

end Action

end ByteGrammar

------------------------------------------------------------
-- Calls of Rules
------------------------------------------------------------

namespace ByteGrammar

namespace Context

/- Loops are detected, and a rule is running at positions
  before a limit only. -/
def Clear
    (id : ParserId)
    (limit : Nat)
    (context : Context) :
    Prop :=
  context.options.loopDetection = true ∧
    ∀ place, (id, place) ∈ context.active → place < limit

theorem clear_fresh
    {options : Options}
    (hDetects : options.loopDetection = true)
    (id : ParserId)
    (limit : Nat) :
    (fresh options).Clear id limit := by
  refine ⟨hDetects, ?_⟩
  intro place hMem
  cases hMem

theorem Clear.mono
    {id : ParserId}
    {limit more : Nat}
    {context : Context}
    (hClear : context.Clear id limit)
    (hMore : limit ≤ more) :
    context.Clear id more := by
  refine ⟨hClear.1, ?_⟩
  intro place hMem
  exact Nat.lt_of_lt_of_le (hClear.2 place hMem) hMore

/- The rule is not running at the limit. -/
theorem Clear.idle
    {id : ParserId}
    {limit : Nat}
    {context : Context}
    (hClear : context.Clear id limit) :
    context.isActive id limit = false := by
  have hIdle : (id, limit) ∉ context.active := by
    intro hMem
    exact Nat.lt_irrefl limit (hClear.2 limit hMem)
  simpa [isActive] using hIdle

theorem Clear.activate
    {id : ParserId}
    {limit : Nat}
    {context : Context}
    (hClear : context.Clear id limit) :
    (context.activate id limit).Clear id (limit + 1) := by
  refine ⟨hClear.1, ?_⟩
  intro place hMem
  cases List.mem_cons.mp hMem with
  | inl hSame =>
      cases hSame
      exact Nat.lt_succ_self limit
  | inr hMem =>
      exact Nat.lt_succ_of_lt (hClear.2 place hMem)

end Context

namespace Action

namespace ComesTo

/- A rule that has not run from here on does what its target
  does while it is running here. -/
theorem callRule
    {data : List UInt8}
    {rules : Rules}
    {run : Parser → Action Match}
    {handle : Handle}
    {target : Parser}
    {start stop : Nat}
    {outcome : Outcome Match}
    (hTarget : rules.target? handle = some target)
    (hRun :
      ComesTo data
        (Context.Clear (rules.idOf handle) (start + 1))
        start (run target) outcome stop) :
    ComesTo data (Context.Clear (rules.idOf handle) start)
      start (Action.callRule rules run handle) outcome
      stop := by
  intro cursor context hData hStart hClear
  let id := rules.idOf handle
  rcases hRun cursor (context.activate id start) hData hStart
      hClear.activate with
    ⟨last, events, hEnds, hLast⟩
  have hGuarded :
      guarded id start (run target) ⟨cursor, context⟩ =
        some ⟨outcome, ⟨last, context⟩, events⟩ := by
    rw [guarded_of_idle hClear.1 hClear.idle,
      within_of_inner hEnds]
    dsimp only
    rw [context.deactivate_activate]
  rw [callRule_of_bound hTarget, hStart]
  exact ⟨last, _, bracketed_of_inner hGuarded, hLast⟩

end ComesTo

end Action

end ByteGrammar

------------------------------------------------------------
-- Parsers
------------------------------------------------------------

namespace ByteGrammar

namespace Parser

/- What a parser comes to down to any depth from some depth
  on. -/
def ComesTo
    (rules : Rules)
    (data : List UInt8)
    (admitted : Context → Prop)
    (start : Nat)
    (parser : Parser)
    (outcome : Outcome Match)
    (stop : Nat) :
    Prop :=
  ∃ least, ∀ depth, least ≤ depth →
    Action.ComesTo data admitted start
      (parser.run rules depth) outcome stop

namespace ComesTo

variable {rules : Rules}
variable {data : List UInt8}
variable {admitted : Context → Prop}
variable {start middle later stop : Nat}
variable {first second third : Parser}
variable {found other last : Match}
variable {outcome : Outcome Match}

theorem mono
    {less : Context → Prop}
    (hFirst :
      ComesTo rules data admitted start first outcome stop)
    (hLess : ∀ context, less context → admitted context) :
    ComesTo rules data less start first outcome stop := by
  rcases hFirst with ⟨least, hFirst⟩
  exact ⟨least, fun depth hDepth =>
    (hFirst depth hDepth).mono hLess⟩

/- A parser needs one level of depth for its own node. -/
theorem of_step
    (least : Nat)
    (hStep : ∀ depth, least ≤ depth →
      Action.ComesTo data admitted start
        (first.step rules (run rules depth)) outcome stop) :
    ComesTo rules data admitted start first outcome stop := by
  refine ⟨least + 1, ?_⟩
  intro depth hDepth
  cases depth with
  | zero => exact absurd hDepth (Nat.not_succ_le_zero least)
  | succ depth =>
      exact hStep depth (Nat.le_of_succ_le_succ hDepth)

/- What a parser does in view of what a part of it does. -/
theorem of_part
    {inner : Context → Prop}
    {part : Parser}
    {ends : Outcome Match}
    (hPart :
      ComesTo rules data inner middle part ends later)
    (hStep : ∀ run : Parser → Action Match,
      Action.ComesTo data inner middle (run part) ends
          later →
        Action.ComesTo data admitted start
          (first.step rules run) outcome stop) :
    ComesTo rules data admitted start first outcome stop := by
  rcases hPart with ⟨least, hPart⟩
  exact of_step least fun depth hDepth =>
    hStep _ (hPart depth hDepth)

/- What a parser does in view of what two of its parts
  do. -/
theorem of_parts
    {before after : Nat}
    {part other : Parser}
    {ends results : Outcome Match}
    (hPart :
      ComesTo rules data admitted start part ends middle)
    (hOther :
      ComesTo rules data admitted before other results
        after)
    (hStep : ∀ run : Parser → Action Match,
      Action.ComesTo data admitted start (run part) ends
          middle →
      Action.ComesTo data admitted before (run other)
          results after →
        Action.ComesTo data admitted start
          (first.step rules run) outcome stop) :
    ComesTo rules data admitted start first outcome stop := by
  rcases hPart with ⟨one, hPart⟩
  rcases hOther with ⟨two, hOther⟩
  apply of_step (max one two)
  intro depth hDepth
  exact hStep _ (hPart depth (by omega))
    (hOther depth (by omega))

theorem terminal_hit
    {leaf : Terminal}
    {length : Nat}
    {value : Nat → Value}
    (hScan :
      leaf.scan (data.drop start) = .hit length value)
    (hInside : start + length ≤ data.length) :
    ComesTo rules data admitted start (.terminal leaf)
      (.matched ⟨start, start + length, value start⟩)
      (start + length) :=
  of_step 0 fun _ _ => .scan_hit hScan hInside

theorem terminal_miss
    {leaf : Terminal}
    (hScan : leaf.scan (data.drop start) = .miss) :
    ComesTo rules data admitted start (.terminal leaf)
      .failed start :=
  of_step 0 fun _ _ => .scan_miss hScan

theorem sequence
    (join : Value → Value → Value)
    (hFirst :
      ComesTo rules data admitted start first
        (.matched found) middle)
    (hSecond :
      ComesTo rules data admitted middle second
        (.matched other) stop) :
    ComesTo rules data admitted start
      (.sequence join first second)
      (.matched ⟨found.start, other.stop,
        join found.value other.value⟩)
      stop :=
  of_parts hFirst hSecond fun _ => .sequence join

theorem sequence_failed
    (join : Value → Value → Value)
    (hFirst :
      ComesTo rules data admitted start first .failed
        stop) :
    ComesTo rules data admitted start
      (.sequence join first second) .failed stop :=
  of_part hFirst fun _ => .sequence_failed join

theorem sequence_fatal
    {fault : Fault}
    (join : Value → Value → Value)
    (hFirst :
      ComesTo rules data admitted start first
        (.matched found) middle)
    (hSecond :
      ComesTo rules data admitted middle second
        (.fatal fault) stop) :
    ComesTo rules data admitted start
      (.sequence join first second) (.fatal fault) stop :=
  of_parts hFirst hSecond fun _ => .sequence_fatal join

theorem followedBy
    (hFirst :
      ComesTo rules data admitted start first
        (.matched found) middle)
    (hSecond :
      ComesTo rules data admitted middle second
        (.matched other) stop) :
    ComesTo rules data admitted start
      (.followedBy first second) (.matched found) middle :=
  of_parts hFirst hSecond fun _ => .followedBy

theorem followedBy_failed
    (hFirst :
      ComesTo rules data admitted start first
        (.matched found) middle)
    (hSecond :
      ComesTo rules data admitted middle second .failed
        stop) :
    ComesTo rules data admitted start
      (.followedBy first second) .failed start :=
  of_parts hFirst hSecond fun _ => .followedBy_failed

theorem followedBy_fatal
    {fault : Fault}
    (hFirst :
      ComesTo rules data admitted start first (.fatal fault)
        stop) :
    ComesTo rules data admitted start
      (.followedBy first second) (.fatal fault) stop :=
  of_part hFirst fun _ => .followedBy_fatal

theorem between
    (hFirst :
      ComesTo rules data admitted start first
        (.matched found) middle)
    (hSecond :
      ComesTo rules data admitted middle second
        (.matched other) later)
    (hThird :
      ComesTo rules data admitted later third
        (.matched last) stop) :
    ComesTo rules data admitted start
      (.between first second third)
      (.matched ⟨found.start, last.stop, other.value⟩)
      stop := by
  rcases hFirst with ⟨one, hFirst⟩
  rcases hSecond with ⟨two, hSecond⟩
  rcases hThird with ⟨three, hThird⟩
  apply of_step (max one (max two three))
  intro depth hDepth
  exact .between (hFirst depth (by omega))
    (hSecond depth (by omega)) (hThird depth (by omega))

theorem either_first
    (hFirst :
      ComesTo rules data admitted start first
        (.matched found) stop) :
    ComesTo rules data admitted start
      (.either first second) (.matched found) stop :=
  of_part hFirst fun _ => .either_first

theorem either_fatal
    {fault : Fault}
    (hFirst :
      ComesTo rules data admitted start first
        (.fatal fault) stop) :
    ComesTo rules data admitted start
      (.either first second) (.fatal fault) stop :=
  of_part hFirst fun _ => .either_fatal

theorem either_second
    (hFirst :
      ComesTo rules data admitted start first .failed middle)
    (hSecond :
      ComesTo rules data admitted start second outcome
        stop) :
    ComesTo rules data admitted start
      (.either first second) outcome stop :=
  of_parts hFirst hSecond fun _ => .either_second

theorem map
    (change : Value → Value)
    (hFirst :
      ComesTo rules data admitted start first
        (.matched found) stop) :
    ComesTo rules data admitted start (.map change first)
      (.matched (found.withValue (change found.value)))
      stop :=
  of_part hFirst fun _ => .map change

theorem map_failed
    (change : Value → Value)
    (hFirst :
      ComesTo rules data admitted start first .failed
        stop) :
    ComesTo rules data admitted start (.map change first)
      .failed stop :=
  of_part hFirst fun _ => .map_failed change

theorem map_fatal
    {fault : Fault}
    (change : Value → Value)
    (hFirst :
      ComesTo rules data admitted start first
        (.fatal fault) stop) :
    ComesTo rules data admitted start (.map change first)
      (.fatal fault) stop :=
  of_part hFirst fun _ => .map_fatal change

theorem expect
    (message : String)
    (hFirst :
      ComesTo rules data admitted start first
        (.matched found) stop) :
    ComesTo rules data admitted start
      (.expect message first) (.matched found) stop :=
  of_part hFirst fun _ => .expect message

theorem expect_failed
    (message : String)
    (hFirst :
      ComesTo rules data admitted start first .failed
        stop) :
    ComesTo rules data admitted start
      (.expect message first)
      (.fatal (.committed message start)) stop :=
  of_part hFirst fun _ => .expect_failed message

theorem convert_text
    {text : String}
    (hFirst :
      ComesTo rules data admitted start first
        (.matched found) stop)
    (hText :
      found.region.slice? data = some (Utf8.encode text)) :
    ComesTo rules data admitted start (.convert .text first)
      (.matched (found.withValue (.str text))) stop :=
  of_part hFirst fun _ hRun => .convert_text hRun hText

theorem convert_failed
    (conversion : Conversion)
    (hFirst :
      ComesTo rules data admitted start first .failed
        stop) :
    ComesTo rules data admitted start
      (.convert conversion first) .failed stop :=
  of_part hFirst fun _ => .convert_failed conversion

theorem rule
    {handle : Handle}
    {target : Parser}
    (hTarget : rules.target? handle = some target)
    (hRun :
      ComesTo rules data
        (Context.Clear (rules.idOf handle) (start + 1))
        start target outcome stop) :
    ComesTo rules data
      (Context.Clear (rules.idOf handle) start) start
      (.rule handle) outcome stop :=
  of_part hRun fun _ => .callRule hTarget

end ComesTo

end Parser

end ByteGrammar
