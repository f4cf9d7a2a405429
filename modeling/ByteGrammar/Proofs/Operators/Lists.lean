import ByteGrammar.Grammar.Operators
import ByteGrammar.Proofs.Engine.Equivalence
import ByteGrammar.Proofs.Engine.Lockstep
import ByteGrammar.Proofs.Forms.Laws
import ByteGrammar.Proofs.Operators.Alternatives

/-
  Separated lists and levels of one operator.

  A level whose one operator looks like the separator of a
  list reads what the list reads. It holds a pass against
  the end of the last operand, where the list looks at the
  cursor; both are one place, as an item lands there. What
  the list collects, the level combines from the left.

  Main declarations:
    * `Operator.FoldsTo`
    * `Action.lockstep_separatedListPass`
    * `Action.lockstep_separatedList`
    * `Operator.lists_and_levels_agree`
-/

------------------------------------------------------------
-- What Is Collected and What Is Combined
------------------------------------------------------------

namespace ByteGrammar

namespace Operator

/- What a list and a level come to on one state: matches of
  one span, where the level yields the items of the list
  combined from the left; two failures; or one fault. -/
inductive FoldsTo
    (combine : Value → Value → Value) :
    Outcome Match → Outcome Match → Prop where
  | matched (start stop : Nat) (first : Value)
      (rest : List Value) :
      FoldsTo combine
        (.matched ⟨start, stop, .list (first :: rest)⟩)
        (.matched ⟨start, stop, rest.foldl combine first⟩)
  | failed : FoldsTo combine .failed .failed
  | fatal (fault : Fault) :
      FoldsTo combine (.fatal fault) (.fatal fault)

/- What the loop of a list has taken and what that of a
  level has: one end, and the items combined from the
  left. -/
structure Folded
    (combine : Value → Value → Value)
    (taken : Nat × List Value)
    (taken' : Nat × Value) :
    Prop where
  stop : taken'.1 = taken.1
  value : ∃ first rest, taken.2 = first :: rest ∧
    taken'.2 = rest.foldl combine first

variable {combine : Value → Value → Value}

theorem folded_single
    (stop : Nat)
    (value : Value) :
    Folded combine (stop, [value]) (stop, value) :=
  ⟨rfl, value, [], rfl, rfl⟩

/- One more item is one more operand. -/
theorem Folded.extend
    {taken : Nat × List Value}
    {taken' : Nat × Value}
    (hFolded : Folded combine taken taken')
    (stop : Nat)
    (value : Value) :
    Folded combine (stop, taken.2 ++ [value])
      (stop, combine taken'.2 value) := by
  rcases hFolded.value with ⟨first, rest, hTaken, hTaken'⟩
  refine ⟨rfl, first, rest ++ [value], ?_, ?_⟩
  · rw [hTaken, List.cons_append]
  · rw [hTaken', List.foldl_append]
    rfl

end Operator

end ByteGrammar

------------------------------------------------------------
-- One Loop
------------------------------------------------------------

namespace ByteGrammar

namespace Action

open ByteGrammar.Operator

variable {combine : Value → Value → Value}
variable {combineBy : Value → Value → Value → Value}
variable {item separator operator : Action Match}

/- The operator stands for the separator: they do the same,
  and what the operator yields says how to combine. -/
def Stands
    (combine : Value → Value → Value)
    (combineBy : Value → Value → Value → Value)
    (separator operator : Action Match) :
    Prop :=
  ∀ state,
    Lockstep
      (fun _ symbol _ => ∀ left right,
        combineBy left symbol.value right =
          combine left right)
      (separator state) (operator state)

/- Where the cursor stands at the end of what is taken, a
  pass of the list and one of the level do the same. -/
theorem lockstep_separatedListPass
    (hItem : Lands item)
    (hStands :
      Stands combine combineBy separator operator)
    {taken : Nat × List Value}
    {taken' : Nat × Value}
    {state : State}
    (hFolded : Folded combine taken taken')
    (hHere : taken.1 = state.cursor.position) :
    Lockstep
      (Pass.Agree
        (fun taken taken' last =>
          Folded combine taken taken' ∧
            taken.1 = last.cursor.position)
        (fun taken taken' _ => Folded combine taken taken'))
      (separatedListPass item separator taken state)
      (chainPass combineBy item operator taken' state) := by
  have hEnd : taken'.1 = state.cursor.position :=
    hFolded.stop.trans hHere
  unfold separatedListPass chainPass
  apply Lockstep.after rfl
  apply Lockstep.bind (hStands state).optionally
  intro between symbol middle hSymbol
  cases hSymbol with
  | none => exact .pure hFolded
  | @some between symbol hCombine =>
      apply Lockstep.bind
        (Lockstep.of_ensures (hItem middle)).optionally
      intro found found' last hFound
      cases hFound with
      | none =>
          apply Lockstep.after rfl
          exact .pure hFolded
      | @some found found' hLanded =>
          rcases hLanded with ⟨rfl, hStop⟩
          have hSame :
              taken'.1 = state.cursor.checkpoint.position :=
            hEnd
          dsimp only
          rw [hSame]
          split
          · apply Lockstep.after rfl
            exact .pure hFolded
          · rw [hCombine]
            exact .pure ⟨hFolded.extend _ _, hStop⟩

/- The list and the level do the same, and the level
  combines what the list collects. -/
theorem lockstep_separatedList
    (hItem : Lands item)
    (hStands :
      Stands combine combineBy separator operator)
    (state : State) :
    Lockstep
      (fun list level _ =>
        FoldsTo combine (.matched list) (.matched level))
      (separatedList item separator state)
      (chain combineBy item operator state) := by
  unfold separatedList chain
  apply Lockstep.bind (.of_ensures (hItem state))
  rintro first _ middle ⟨rfl, hStop⟩
  apply Lockstep.bind
  · apply Lockstep.loop
    · intro taken taken' here hTaken
      exact lockstep_separatedListPass hItem hStands
        hTaken.1 hTaken.2
    · exact ⟨folded_single _ _, hStop⟩
  · rintro ⟨stop, values⟩ ⟨stop', value⟩ last hFolded
    rcases hFolded with ⟨hStop, head, rest, hValues, hValue⟩
    dsimp only at hStop hValues hValue
    subst hStop hValues hValue
    exact .pure (.matched first.start stop' head rest)

/- The choice of a level with one operator stands for what
  the operator looks like. -/
theorem stands_tagged
    (matcher : Parser)
    (combine : Value → Value → Value)
    (hAtomic : Atomic separator) :
    Stands combine (combineAt [⟨matcher, combine⟩]) separator
      (either (map (fun _ => .u64 0) separator)
        (scan .fail)) := by
  intro state
  cases hSeparator : separator state with
  | none =>
      rw [either_of_none (map_of_none _ hSeparator)]
      exact .none
  | some step =>
      rcases step with ⟨found | _ | fault, last, events⟩
      · rw [either_of_matched (map_of_matched _ hSeparator)]
        exact .matched events fun _ _ => rfl
      · -- What failed has not moved, so nothing is given
        -- back before the choice fails.
        have hBack := hAtomic _ _ _ hSeparator
        have hFail :
            scan .fail last = some ⟨.failed, last, []⟩ := rfl
        rw [either_of_failed (map_of_failed _ hSeparator),
          ← hBack, Cursor.restore_checkpoint, hFail,
          Option.map_some, List.append_nil]
        exact .failed last events
      · rw [either_of_fatal (map_of_fatal _ hSeparator)]
        exact .fatal fault last events

end Action

end ByteGrammar

------------------------------------------------------------
-- Lists and Levels
------------------------------------------------------------

namespace ByteGrammar

namespace Operator

open ByteGrammar.Parser

variable {rules : Rules}
variable {item separator : Parser}
variable {combine : Value → Value → Value}
variable {state last : State}
variable {outcome outcome' : Outcome Match}
variable {events : List Event}

/- A level of one operator runs that operator some levels
  below its operand. -/
theorem lockstep_level
    (rules : Rules)
    (item separator : Parser)
    (combine : Value → Value → Value)
    (depth : Nat)
    (state : State) :
    Action.Lockstep
      (fun list level _ =>
        FoldsTo combine (.matched list) (.matched level))
      (Action.separatedList (item.run rules (depth + 2))
        (separator.run rules depth) state)
      ((leftAssociative item [⟨separator, combine⟩]).run
        rules (depth + 3) state) := by
  rw [run_leftAssociative]
  exact Action.lockstep_separatedList
    (lands_run rules (depth + 2) item)
    (Action.stands_tagged separator combine
      (atomic_run rules depth separator))
    state

/- Where one of the two ends, the other ends as well. -/
theorem foldsTo_of_lockstep
    {list level : Option (Step Match)}
    (hLockstep :
      Action.Lockstep
        (fun list level _ =>
          FoldsTo combine (.matched list) (.matched level))
        list level) :
    (∀ outcome last events,
      list = some ⟨outcome, last, events⟩ →
        ∃ outcome', FoldsTo combine outcome outcome' ∧
          level = some ⟨outcome', last, events⟩) ∧
    (∀ outcome' last events,
      level = some ⟨outcome', last, events⟩ →
        ∃ outcome, FoldsTo combine outcome outcome' ∧
          list = some ⟨outcome, last, events⟩) := by
  cases hLockstep with
  | none => exact ⟨nofun, nofun⟩
  | matched events hFolds =>
      constructor
      · rintro _ _ _ ⟨⟩
        exact ⟨_, hFolds, rfl⟩
      · rintro _ _ _ ⟨⟩
        exact ⟨_, hFolds, rfl⟩
  | failed last events =>
      constructor
      · rintro _ _ _ ⟨⟩
        exact ⟨_, .failed, rfl⟩
      · rintro _ _ _ ⟨⟩
        exact ⟨_, .failed, rfl⟩
  | fatal fault last events =>
      constructor
      · rintro _ _ _ ⟨⟩
        exact ⟨_, .fatal fault, rfl⟩
      · rintro _ _ _ ⟨⟩
        exact ⟨_, .fatal fault, rfl⟩

/- Whatever the list comes to, the level comes to, with the
  items combined. -/
theorem exists_yields_level
    (combine : Value → Value → Value)
    (hList :
      Yields rules (.separatedList item separator) state
        ⟨outcome, last, events⟩) :
    ∃ outcome', FoldsTo combine outcome outcome' ∧
      Yields rules
        (leftAssociative item [⟨separator, combine⟩]) state
        ⟨outcome', last, events⟩ := by
  rcases hList with ⟨depth, hRun⟩
  cases depth with
  | zero => cases hRun
  | succ depth =>
      have hItem :
          Action.Refines (item.run rules depth)
            (item.run rules (depth + 2)) :=
        run_refines (Nat.le_add_right depth 2) item
      have hRefines :=
        Action.refines_congruence.cursorCongruence.separatedList
          Cursor.likeness_eq.outlook hItem
          (.refl (separator.run rules depth))
      have hDeep := hRefines state _ hRun
      rcases (foldsTo_of_lockstep
          (lockstep_level rules item separator combine depth
            state)).1 _ _ _ hDeep with
        ⟨outcome', hFolds, hLevel⟩
      exact ⟨outcome', hFolds, depth + 3, hLevel⟩

/- Whatever the level comes to, the list comes to, with the
  items themselves. -/
theorem exists_yields_list
    (hLevel :
      Yields rules
        (leftAssociative item [⟨separator, combine⟩]) state
        ⟨outcome', last, events⟩) :
    ∃ outcome, FoldsTo combine outcome outcome' ∧
      Yields rules (.separatedList item separator) state
        ⟨outcome, last, events⟩ := by
  rcases hLevel with ⟨depth, hRun⟩
  have hDeep :=
    run_refines (Nat.le_add_right depth 3) _ _ _ hRun
  rcases (foldsTo_of_lockstep
      (lockstep_level rules item separator combine depth
        state)).2 _ _ _ hDeep with
    ⟨outcome, hFolds, hList⟩
  have hSeparator :
      Action.Refines (separator.run rules depth)
        (separator.run rules (depth + 2)) :=
    run_refines (Nat.le_add_right depth 2) separator
  have hRefines :=
    Action.refines_congruence.cursorCongruence.separatedList
      Cursor.likeness_eq.outlook
      (.refl (item.run rules (depth + 2))) hSeparator
  exact ⟨outcome, hFolds, depth + 3, hRefines state _ hList⟩

/-
  A separated list and a level whose one operator looks like
  the separator are one loop: from every state, whatever one
  of them comes to, the other comes to as well, with one
  span, one cursor, one context and the same events. They
  fail together and raise the same fault. Where the list
  yields its items, the level yields them combined from the
  left. With loop detection, the parses of both have ended
  so.
-/
theorem lists_and_levels_agree
    (rules : Rules)
    (item separator : Parser)
    (combine : Value → Value → Value)
    (state : State) :
    let list := Parser.separatedList item separator
    let level :=
      leftAssociative item [⟨separator, combine⟩]
    (∀ outcome last events,
      Yields rules list state ⟨outcome, last, events⟩ →
        ∃ outcome', FoldsTo combine outcome outcome' ∧
          Yields rules level state
            ⟨outcome', last, events⟩) ∧
    (∀ outcome' last events,
      Yields rules level state ⟨outcome', last, events⟩ →
        ∃ outcome, FoldsTo combine outcome outcome' ∧
          Yields rules list state
            ⟨outcome, last, events⟩) ∧
    (state.context.options.loopDetection = true →
      state.cursor.Inside →
        ∃ outcome outcome' last events,
          FoldsTo combine outcome outcome' ∧
            list.parse rules state =
              some ⟨outcome, last, events⟩ ∧
            level.parse rules state =
              some ⟨outcome', last, events⟩) := by
  intro list level
  refine ⟨?_, ?_, ?_⟩
  · intro outcome last events hList
    exact exists_yields_level combine hList
  · intro outcome' last events hLevel
    exact exists_yields_list hLevel
  · intro hDetects hInside
    rcases exists_yields rules list hDetects hInside with
      ⟨⟨outcome, last, events⟩, hList⟩
    rcases exists_yields_level combine hList with
      ⟨outcome', hFolds, hLevel⟩
    exact ⟨outcome, outcome', last, events, hFolds,
      hList.parse_eq hDetects hInside,
      hLevel.parse_eq hDetects hInside⟩

/- A list that gives back a separator left over, as the
  level does. -/
theorem lists_and_levels_agree_trailing :
    let comma : Parser := .byte 0x2C
    let list := Parser.separatedList .digit comma
    let level := leftAssociative .digit [⟨comma, .bin ","⟩]
    let state : State :=
      ⟨.ofBytes [0x31, 0x2C, 0x32, 0x2C], .fresh .standard⟩
    let last : State :=
      ⟨⟨[0x31, 0x2C, 0x32, 0x2C], 3, .origin, 4⟩,
        .fresh .standard⟩
    Yields .empty list state
        ⟨.matched ⟨0, 3, .list [.byte 0x31, .byte 0x32]⟩,
          last, []⟩ ∧
      Yields .empty level state
        ⟨.matched
            ⟨0, 3, .bin "," (.byte 0x31) (.byte 0x32)⟩,
          last, []⟩ ∧
      state.context.options.loopDetection = true ∧
      state.cursor.Inside ∧
      ∃ outcome outcome' last events,
        FoldsTo (.bin ",") outcome outcome' ∧
          list.parse .empty state =
            some ⟨outcome, last, events⟩ ∧
          level.parse .empty state =
            some ⟨outcome', last, events⟩ := by
  intro comma list level state last
  have hAgree :=
    lists_and_levels_agree .empty .digit comma (.bin ",")
      state
  have hDetects :
      state.context.options.loopDetection = true := rfl
  have hInside : state.cursor.Inside := Nat.zero_le _
  have hList :
      Yields .empty list state
        ⟨.matched ⟨0, 3, .list [.byte 0x31, .byte 0x32]⟩,
          last, []⟩ :=
    ⟨5, rfl⟩
  rcases hAgree.1 _ _ _ hList with ⟨_, hFolds, hLevel⟩
  cases hFolds
  exact ⟨hList, hLevel, hDetects, hInside,
    hAgree.2.2 hDetects hInside⟩

end Operator

end ByteGrammar
