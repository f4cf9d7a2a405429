import ByteGrammar.Proofs.Engine.ComesTo

/-
  What loops come to at a place of a buffer.

  Main declarations:
    * `Action.ComesTo.iterate_takeUntilPass`
    * `Action.ComesTo.takeUntil`, `takeUntil_end`,
      `takeUntil_failed`
    * `Action.ComesTo.collectPass_again`
    * `Action.ComesTo.many`
-/

------------------------------------------------------------
-- Searches for a Terminator
------------------------------------------------------------

namespace ByteGrammar

namespace Action

namespace ComesTo

variable {data : List UInt8}
variable {admitted : Context → Prop}
variable {start middle stop : Nat}
variable {orEnd : Bool}
variable {terminator : Action Match}
variable {found : Match}

/- A search goes on by one byte where there is one and the
  terminator does not match. -/
theorem takeUntilPass_again
    (hMiss :
      ComesTo data admitted start terminator .failed start)
    (hInside : start + 1 ≤ data.length) :
    ComesTo data admitted start
      (takeUntilPass orEnd terminator ())
      (.matched (.again ())) (start + 1) := by
  unfold takeUntilPass
  apply checkpoint_bind
  intro saved _
  apply bind (optionally_failed hMiss)
  have hBefore : ∀ cursor : Cursor, cursor.data = data →
      cursor.position = start → cursor.atEnd = false := by
    intro cursor hData hStart
    simp only [Cursor.atEnd, hData, hStart]
    exact decide_eq_false (Nat.not_le.mpr hInside)
  apply inspect_bind hBefore
  rw [if_neg Bool.false_ne_true]
  exact advance_bind hInside (pure _)

/- It is done before a match. -/
theorem takeUntilPass_done
    (hMatch :
      ComesTo data admitted start terminator
        (.matched found) stop) :
    ComesTo data admitted start
      (takeUntilPass orEnd terminator ())
      (.matched (.done ())) start := by
  unfold takeUntilPass
  apply checkpoint_bind
  rintro saved rfl
  apply bind (optionally hMatch)
  exact restore_bind (pure _)

/- At the end, it is done or fails. -/
theorem takeUntilPass_end
    (hMiss :
      ComesTo data admitted data.length terminator .failed
        data.length) :
    ComesTo data admitted data.length
      (takeUntilPass orEnd terminator ())
      (if orEnd then .matched (.done ()) else .failed)
      data.length := by
  unfold takeUntilPass
  apply checkpoint_bind
  intro saved _
  apply bind (optionally_failed hMiss)
  have hEnd : ∀ cursor : Cursor, cursor.data = data →
      cursor.position = data.length →
        cursor.atEnd = true := by
    intro cursor hData hStart
    simp [Cursor.atEnd, hData, hStart]
  apply inspect_bind hEnd
  cases orEnd with
  | true => exact pure _
  | false => exact fail

/- Where the terminator fails at each position up to a
  later one, the search comes to what it comes to there. -/
theorem iterate_takeUntilPass
    {outcome : Outcome Unit}
    (hOrder : start ≤ middle)
    (hMisses : ∀ place, start ≤ place → place < middle →
      ComesTo data admitted place terminator .failed place)
    (hInside : middle ≤ data.length)
    (hRest : ∀ limit, data.length - middle < limit →
      ComesTo data admitted middle
        (iterate (takeUntilPass orEnd terminator) limit ())
        outcome stop)
    (limit : Nat)
    (hLimit : data.length - start < limit) :
    ComesTo data admitted start
      (iterate (takeUntilPass orEnd terminator) limit ())
      outcome stop := by
  induction hCount : middle - start
    generalizing start limit with
  | zero =>
      have hSame : start = middle := by omega
      subst hSame
      exact hRest limit hLimit
  | succ count ih =>
      cases limit with
      | zero => cases hLimit
      | succ limit =>
          have hMiss :=
            hMisses start (Nat.le_refl start) (by omega)
          apply iterate_again
            (takeUntilPass_again hMiss (by omega))
          apply ih (by omega) _ limit (by omega) (by omega)
          intro place hStart hMiddle
          exact hMisses place (by omega) hMiddle

theorem takeUntil_of_loop
    (hLoop :
      ComesTo data admitted start
        (Action.loop (takeUntilPass orEnd terminator) ())
        (.matched ()) middle) :
    ComesTo data admitted start
      (Action.takeUntil orEnd terminator)
      (.matched ⟨start, middle,
        .region (Region.between start middle)⟩)
      middle := by
  unfold Action.takeUntil
  apply attempt
  apply position_bind
  exact bind hLoop (position_bind (pure _))

/- The region goes up to the first match. -/
theorem takeUntil
    (hOrder : start ≤ middle)
    (hMisses : ∀ place, start ≤ place → place < middle →
      ComesTo data admitted place terminator .failed place)
    (hInside : middle ≤ data.length)
    (hMatch :
      ComesTo data admitted middle terminator
        (.matched found) stop) :
    ComesTo data admitted start
      (Action.takeUntil orEnd terminator)
      (.matched ⟨start, middle,
        .region (Region.between start middle)⟩)
      middle := by
  apply takeUntil_of_loop
  apply loop
  apply iterate_takeUntilPass hOrder hMisses hInside _ _
    (Nat.lt_succ_self _)
  intro limit hLimit
  cases limit with
  | zero => cases hLimit
  | succ limit =>
      exact iterate_done limit (takeUntilPass_done hMatch)

/- Without a match, the search goes up to the end. -/
theorem loop_takeUntilPass_end
    (hInside : start ≤ data.length)
    (hMisses : ∀ place, start ≤ place →
      place ≤ data.length →
        ComesTo data admitted place terminator .failed
          place) :
    ComesTo data admitted start
      (Action.loop (takeUntilPass orEnd terminator) ())
      (if orEnd then .matched () else .failed)
      data.length := by
  have hBefore : ∀ place, start ≤ place →
      place < data.length →
        ComesTo data admitted place terminator .failed
          place := by
    intro place hStart hPlace
    exact hMisses place hStart (Nat.le_of_lt hPlace)
  have hMiss := hMisses data.length hInside (Nat.le_refl _)
  apply loop
  apply iterate_takeUntilPass hInside hBefore (Nat.le_refl _)
    _ _ (Nat.lt_succ_self _)
  intro limit hLimit
  cases limit with
  | zero => cases hLimit
  | succ limit =>
      cases orEnd with
      | true =>
          exact iterate_done limit (takeUntilPass_end hMiss)
      | false =>
          exact iterate_failed limit (takeUntilPass_end hMiss)

/- If that is allowed, so does the region. -/
theorem takeUntil_end
    (hInside : start ≤ data.length)
    (hMisses : ∀ place, start ≤ place →
      place ≤ data.length →
        ComesTo data admitted place terminator .failed
          place) :
    ComesTo data admitted start
      (Action.takeUntil true terminator)
      (.matched ⟨start, data.length,
        .region (Region.between start data.length)⟩)
      data.length :=
  takeUntil_of_loop (loop_takeUntilPass_end hInside hMisses)

/- Otherwise there is no region. -/
theorem takeUntil_failed
    (hInside : start ≤ data.length)
    (hMisses : ∀ place, start ≤ place →
      place ≤ data.length →
        ComesTo data admitted place terminator .failed
          place) :
    ComesTo data admitted start
      (Action.takeUntil false terminator) .failed start := by
  unfold Action.takeUntil
  apply attempt_failed
  apply position_bind
  exact bind_failed (loop_takeUntilPass_end hInside hMisses)

end ComesTo

end Action

end ByteGrammar

------------------------------------------------------------
-- Repetition Without Bounds
------------------------------------------------------------

namespace ByteGrammar

namespace Action

namespace ComesTo

variable {data : List UInt8}
variable {admitted : Context → Prop}
variable {start stop : Nat}
variable {action : Action Match}
variable {found : Match}
variable {fault : Fault}
variable {values : List Value}

/- A match of something is one more value. -/
theorem collectPass_again
    (hAction :
      ComesTo data admitted start action (.matched found)
        stop)
    (hMoved : found.stop ≠ start) :
    ComesTo data admitted start
      (collectPass none action values)
      (.matched (.again (values ++ [found.value])))
      stop := by
  unfold collectPass
  rw [Option.any_none, if_neg Bool.false_ne_true]
  apply position_bind
  apply bind (optionally hAction)
  dsimp only
  rw [if_neg hMoved]
  exact pure _

/- A match of nothing is the last one. -/
theorem collectPass_last
    (hAction :
      ComesTo data admitted start action (.matched found)
        stop)
    (hStill : found.stop = start) :
    ComesTo data admitted start
      (collectPass none action values)
      (.matched (.done (values ++ [found.value])))
      stop := by
  unfold collectPass
  rw [Option.any_none, if_neg Bool.false_ne_true]
  apply position_bind
  apply bind (optionally hAction)
  dsimp only
  rw [if_pos hStill]
  exact pure _

theorem collectPass_failed
    (hAction :
      ComesTo data admitted start action .failed stop) :
    ComesTo data admitted start
      (collectPass none action values)
      (.matched (.done values)) stop := by
  unfold collectPass
  rw [Option.any_none, if_neg Bool.false_ne_true]
  apply position_bind
  exact bind (optionally_failed hAction) (pure _)

theorem collectPass_fatal
    (hAction :
      ComesTo data admitted start action (.fatal fault)
        stop) :
    ComesTo data admitted start
      (collectPass none action values) (.fatal fault)
      stop := by
  unfold collectPass
  rw [Option.any_none, if_neg Bool.false_ne_true]
  apply position_bind
  exact bind_fatal (optionally_fatal hAction)

theorem many
    (hLoop :
      ComesTo data admitted start
        (Action.loop (collectPass none action) [])
        (.matched values) stop) :
    ComesTo data admitted start (repeated 0 none action)
      (.matched ⟨start, stop, .list values⟩) stop := by
  unfold repeated
  apply checkpoint_bind
  rintro saved rfl
  exact bind hLoop (position_bind (pure _))

theorem many_fatal
    (hLoop :
      ComesTo data admitted start
        (Action.loop (collectPass none action) [])
        (.fatal fault) stop) :
    ComesTo data admitted start (repeated 0 none action)
      (.fatal fault) stop := by
  unfold repeated
  apply checkpoint_bind
  intro saved _
  exact bind_fatal hLoop

end ComesTo

end Action

end ByteGrammar
