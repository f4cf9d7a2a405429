import ByteGrammar.Input.Cursor

/-
  Cursors that lie within their buffers, and where such a
  cursor can get to without going back behind its position.

  Main declarations:
    * `Cursor.Inside`, `Cursor.Sound`
    * `Cursor.Leads`
    * `Cursor.Leads.trans`, `Cursor.Leads.back`
    * `Cursor.Leads.sound`
-/

------------------------------------------------------------
-- Inside and Sound Cursors
------------------------------------------------------------

namespace ByteGrammar

namespace Cursor

/- The position is in the buffer or at its end. -/
def Inside
    (cursor : Cursor) :
    Prop :=
  cursor.position ≤ cursor.data.length

/- The position counts as reached, and nothing past the end
  does. -/
def Sound
    (cursor : Cursor) :
    Prop :=
  cursor.position ≤ cursor.furthest ∧
    cursor.furthest ≤ cursor.data.length

instance
    (cursor : Cursor) :
    Decidable cursor.Sound :=
  inferInstanceAs (Decidable (_ ∧ _))

theorem Sound.inside
    {cursor : Cursor}
    (hSound : cursor.Sound) :
    cursor.Inside := by
  rcases hSound with ⟨hReached, hBounded⟩
  exact Nat.le_trans hReached hBounded

/- A cursor at the start of its buffer is sound. -/
theorem sound_ofBytes
    (data : List UInt8) :
    (ofBytes data).Sound := by
  refine ⟨Nat.le_refl 0, ?_⟩
  exact Nat.zero_le data.length

end Cursor

end ByteGrammar

------------------------------------------------------------
-- Where a Cursor Leads
------------------------------------------------------------

namespace ByteGrammar

namespace Cursor

/-
  What moving on from `before` can come to. The position
  may have been left and come back to, but the cursor does
  not stand behind it. A position that does not count as
  reached is the one that was started from.
-/
structure Leads
    (before after : Cursor) :
    Prop where
  data : after.data = before.data
  forth : before.position ≤ after.position
  inside : after.position ≤ before.data.length
  kept : before.furthest ≤ after.furthest
  bounded :
    after.furthest ≤ max before.furthest before.data.length
  reached :
    after.position ≤ max before.position after.furthest

namespace Leads

variable {before middle after : Cursor}

theorem refl
    (hInside : before.Inside) :
    before.Leads before where
  data := rfl
  forth := Nat.le_refl _
  inside := hInside
  kept := Nat.le_refl _
  bounded := Nat.le_max_left _ _
  reached := Nat.le_max_left _ _

theorem trans
    (hFirst : before.Leads middle)
    (hMore : middle.Leads after) :
    before.Leads after := by
  have hLength :
      middle.data.length = before.data.length := by
    rw [hFirst.data]
  have hForth := hFirst.forth
  have hForth' := hMore.forth
  have hInside := hMore.inside
  have hKept := hFirst.kept
  have hKept' := hMore.kept
  have hBounded := hFirst.bounded
  have hBounded' := hMore.bounded
  have hReached := hFirst.reached
  have hReached' := hMore.reached
  constructor
  · exact hMore.data.trans hFirst.data
  all_goals omega

/- Where a cursor leads, it is inside its buffer. -/
theorem last_inside
    (hLeads : before.Leads after) :
    after.Inside := by
  unfold Inside
  rw [hLeads.data]
  exact hLeads.inside

/- A cursor that has moved on has less before it. -/
theorem remaining_lt
    (hLeads : before.Leads after)
    (hMoved : before.position < after.position) :
    after.remaining.length < before.remaining.length := by
  have hInside := hLeads.inside
  unfold remaining
  rw [hLeads.data, List.length_drop, List.length_drop]
  omega

/- A sound cursor leads to sound ones. -/
theorem sound
    (hLeads : before.Leads after)
    (hSound : before.Sound) :
    after.Sound := by
  rcases hSound with ⟨hPosition, hFurthest⟩
  have hKept := hLeads.kept
  have hBounded := hLeads.bounded
  have hReached := hLeads.reached
  unfold Sound
  rw [hLeads.data]
  omega

end Leads

end Cursor

end ByteGrammar

------------------------------------------------------------
-- Operations of a Cursor
------------------------------------------------------------

namespace ByteGrammar

namespace Cursor

variable {before after : Cursor}

/- Advancing stops at the end. -/
theorem leads_advance
    (hInside : before.Inside)
    (count : Nat) :
    before.Leads (before.advance count) := by
  unfold Inside at hInside
  constructor
  · rfl
  all_goals
    simp only [advance]
    omega

/- Advancing from before the end is a move. -/
theorem position_lt_advance
    {count : Nat}
    (hMore : before.atEnd = false)
    (hCount : 0 < count) :
    before.position < (before.advance count).position := by
  simp only [atEnd, decide_eq_false_iff_not] at hMore
  simp only [advance]
  omega

/- The position does not change by looking ahead. -/
theorem leads_touch
    (hInside : before.Inside)
    (count : Nat) :
    before.Leads (before.touch count) := by
  have hAdvance := leads_advance hInside count
  unfold Inside at hInside
  constructor
  · rfl
  · exact Nat.le_refl _
  · exact hInside
  · exact hAdvance.kept
  · exact hAdvance.bounded
  · exact Nat.le_max_left _ _

/- Recording a region moves nothing. -/
theorem Leads.mark
    (hLeads : before.Leads after)
    (start stop : Nat) :
    before.Leads (after.mark start stop) := by
  rcases hLeads with
    ⟨hData, hForth, hInside, hKept, hBounded, hReached⟩
  exact
    ⟨hData, hForth, hInside, hKept, hBounded, hReached⟩

/- A cursor may come back to where it was. -/
theorem Leads.back
    (hInside : before.Inside)
    (hLeads : before.Leads after) :
    before.Leads (after.restore before.checkpoint) where
  data := hLeads.data
  forth := Nat.le_refl _
  inside := hInside
  kept := hLeads.kept
  bounded := hLeads.bounded
  reached := Nat.le_max_left _ _

end Cursor

end ByteGrammar
