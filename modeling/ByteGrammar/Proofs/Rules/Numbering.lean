import ByteGrammar.Grammar.Rules
import Mathlib.Data.List.Nodup

/-
  Identities that tell rules apart.

  The counter gives out one identity after the other and
  starts over when it has given out all there are. What is
  drawn in turn differs as long as no more is drawn, and
  where the identities of the rules differ, they tell which
  rule is meant.

  Main declarations:
    * `drawnFrom`, `drawnFrom_add`
    * `nodup_drawnFrom_iff`
    * `Rules.IdsApart`, `Rules.IdsApart.handle_eq`
-/

------------------------------------------------------------
-- Drawing in Turn
------------------------------------------------------------

namespace ByteGrammar

/- So many identities, drawn in turn from some one on. -/
def drawnFrom
    (first : ParserId)
    (count : Nat) :
    List ParserId :=
  (List.range count).map fun turn =>
    first + UInt32.ofNat turn

theorem drawnFrom_add
    (first : ParserId)
    (count more : Nat) :
    drawnFrom first (count + more) =
      drawnFrom first count ++
        drawnFrom (first + UInt32.ofNat count) more := by
  simp [drawnFrom, List.range_add, UInt32.add_assoc]

/- Two turns draw one identity where they are a whole round
  of the counter apart. -/
theorem turn_eq_iff
    (first : ParserId)
    (turn other : Nat) :
    first + UInt32.ofNat turn = first + UInt32.ofNat other ↔
      turn % UInt32.size = other % UInt32.size := by
  rw [UInt32.add_right_inj, ← UInt32.toNat_inj]
  simp [UInt32.size]

/- What is drawn in turn differs for one round of the
  counter, and no longer. -/
theorem nodup_drawnFrom_iff
    (first : ParserId)
    (count : Nat) :
    (drawnFrom first count).Nodup ↔
      count ≤ UInt32.size := by
  unfold drawnFrom
  constructor
  · intro hNodup
    by_contra hMore
    have hMore : UInt32.size < count :=
      Nat.lt_of_not_le hMore
    have hSame :=
      (turn_eq_iff first 0 UInt32.size).mpr (by simp)
    have hTurn :=
      List.inj_on_of_nodup_map hNodup
        (List.mem_range.mpr (Nat.zero_lt_of_lt hMore))
        (List.mem_range.mpr hMore) hSame
    cases hTurn
  · intro hFew
    apply List.Nodup.map_on _ List.nodup_range
    intro turn hTurn other hOther hSame
    have hTurn := List.mem_range.mp hTurn
    have hOther := List.mem_range.mp hOther
    have hMod := (turn_eq_iff first turn other).mp hSame
    rwa [Nat.mod_eq_of_lt (Nat.lt_of_lt_of_le hTurn hFew),
      Nat.mod_eq_of_lt (Nat.lt_of_lt_of_le hOther hFew)]
      at hMod

end ByteGrammar

------------------------------------------------------------
-- Rules Apart
------------------------------------------------------------

namespace ByteGrammar

namespace Rules

/- No two rules have one identity. It is so while the
  counter has not started over. -/
def IdsApart
    (rules : Rules) :
    Prop :=
  rules.ids.Nodup

/- The identity then tells which rule it is. -/
theorem IdsApart.handle_eq
    {rules : Rules}
    {handle other : Handle}
    (hApart : rules.IdsApart)
    (hKnown : handle < rules.slots.length)
    (hOther : other < rules.slots.length)
    (hSame : rules.idOf handle = rules.idOf other) :
    handle = other := by
  have hLess : handle < rules.ids.length := by
    simpa [ids] using hKnown
  have hLess' : other < rules.ids.length := by
    simpa [ids] using hOther
  have hEntries :
      rules.ids[handle] = rules.ids[other] := by
    simpa [ids, idOf_eq_getElem hKnown,
      idOf_eq_getElem hOther] using hSame
  exact (List.Nodup.getElem_inj_iff hApart).mp hEntries

end Rules

end ByteGrammar
