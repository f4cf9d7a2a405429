import ByteGrammar.Proofs.Cursor.Landing

/-
  Laws of actions: when two ways of putting the same actions
  together come to the same, events included.

  To go back within what goes back makes no difference: both
  set the cursor back, and the outer one has the last word.
  Where only one side sets the cursor back itself, the laws
  ask that a part is atomic; where only one side looks at
  the position after a part, that it lands.

  Main declarations:
    * `Action.orBacktrack_bind`
    * `Action.bindReverting_bindReverting`
    * `Action.sequence_of_matched`
    * `Action.row`, `Action.map_row`
    * `Action.followedBy_eq_sequence`
    * `Action.either_assoc`, `Action.orDefault_eq_either`
    * `Action.filter_of_refused`,
      `Action.capture_of_matched`
    * `Action.absent_absent`
-/

------------------------------------------------------------
-- Sequencing
------------------------------------------------------------

namespace ByteGrammar

namespace Action

variable {α β γ : Type}

theorem bind_assoc
    (first : Action α)
    (next : α → Action β)
    (last : β → Action γ) :
    bind (bind first next) last =
      bind first fun value => bind (next value) last := by
  funext state
  simp only [bind]
  cases first state with
  | none => rfl
  | some step =>
      rcases step with ⟨value | _ | fault, middle, events⟩
      · dsimp only
        cases next value middle with
        | none => rfl
        | some step =>
            rcases step with ⟨value | _ | fault, after, more⟩
            · dsimp only
              cases last value after with
              | none => rfl
              | some step => simp only [List.append_assoc]
            · rfl
            · rfl
      · rfl
      · rfl

theorem bind_pure
    (action : Action α) :
    bind action pure = action := by
  funext state
  simp only [bind]
  cases action state with
  | none => rfl
  | some step =>
      rcases step with ⟨value | _ | fault, middle, events⟩
      · simp only [pure, List.append_nil]
      · rfl
      · rfl

theorem pure_bind
    (value : α)
    (next : α → Action β) :
    bind (pure value) next = next value := by
  funext state
  rw [bind_of_matched rfl]
  cases next value state <;> rfl

instance : LawfulMonad Action :=
  LawfulMonad.mk' Action bind_pure pure_bind bind_assoc

end Action

end ByteGrammar

------------------------------------------------------------
-- Going Back Twice
------------------------------------------------------------

namespace ByteGrammar

namespace Action

variable {α β γ : Type}

theorem orBacktrack_pure
    (saved : Checkpoint)
    (value : α) :
    orBacktrack saved (pure value) = pure value := by
  funext state
  exact orBacktrack_of_matched rfl

/- To go back from two actions is to go back from each. -/
theorem orBacktrack_bind
    (saved : Checkpoint)
    (first : Action α)
    (next : α → Action β) :
    orBacktrack saved (bind first next) =
      bind (orBacktrack saved first) fun value =>
        orBacktrack saved (next value) := by
  funext state
  cases hFirst : first state with
  | none =>
      rw [orBacktrack_of_none (bind_of_none hFirst),
        bind_of_none (orBacktrack_of_none hFirst)]
  | some step =>
      rcases step with ⟨value | _ | fault, middle, events⟩
      · rw [bind_of_matched (orBacktrack_of_matched hFirst)]
        cases hNext : next value middle with
        | none =>
            rw [orBacktrack_of_none hNext]
            apply orBacktrack_of_none
            rw [bind_of_matched hFirst, hNext]
            rfl
        | some after =>
            have hBoth := bind_of_next hFirst hNext
            rcases after with ⟨result | _ | fault, last, more⟩
            · rw [orBacktrack_of_matched hNext]
              exact orBacktrack_of_matched hBoth
            · rw [orBacktrack_of_failed hNext]
              exact orBacktrack_of_failed hBoth
            · rw [orBacktrack_of_fatal hNext]
              exact orBacktrack_of_fatal hBoth
      · rw [orBacktrack_of_failed (bind_of_failed hFirst),
          bind_of_failed (orBacktrack_of_failed hFirst)]
      · rw [orBacktrack_of_fatal (bind_of_fatal hFirst),
          bind_of_fatal (orBacktrack_of_fatal hFirst)]

/- It makes no difference that the second action went back
  already. -/
theorem orBacktrack_bindReverting
    (saved : Checkpoint)
    (first : Action α)
    (next : α → Action β) :
    orBacktrack saved (bindReverting first next) =
      orBacktrack saved (bind first next) := by
  funext state
  cases hFirst : first state with
  | none =>
      rw [orBacktrack_of_none (bindReverting_of_none hFirst),
        orBacktrack_of_none (bind_of_none hFirst)]
  | some step =>
      rcases step with ⟨value | _ | fault, middle, events⟩
      · cases hNext : next value middle with
        | none =>
            rw [orBacktrack_of_none
              (bindReverting_of_next_none hFirst hNext)]
            apply Eq.symm
            apply orBacktrack_of_none
            rw [bind_of_matched hFirst, hNext]
            rfl
        | some after =>
            have hBoth := bind_of_next hFirst hNext
            rcases after with ⟨result | _ | fault, last, more⟩
            · rw [orBacktrack_of_matched hBoth]
              exact orBacktrack_of_matched
                (bindReverting_of_next_matched hFirst hNext)
            · rw [orBacktrack_of_failed hBoth]
              refine (orBacktrack_of_failed
                (bindReverting_of_next_failed hFirst
                  hNext)).trans ?_
              rfl
            · rw [orBacktrack_of_fatal hBoth]
              exact orBacktrack_of_fatal
                (bindReverting_of_next_fatal hFirst hNext)
      · rw [orBacktrack_of_failed (bind_of_failed hFirst)]
        exact orBacktrack_of_failed
          (bindReverting_of_failed hFirst)
      · rw [orBacktrack_of_fatal (bind_of_fatal hFirst)]
        exact orBacktrack_of_fatal
          (bindReverting_of_fatal hFirst)

/- What one action does on a state is all that counts of
  it. -/
theorem bind_congr_first
    {first first' : Action α}
    {next : α → Action β}
    {state : State}
    (hFirst : first state = first' state) :
    bind first next state = bind first' next state := by
  simp only [bind, hFirst]

/- What follows an action that goes back follows its second
  part. -/
theorem bindReverting_bind
    (first : Action α)
    (next : α → Action β)
    (last : β → Action γ)
    (state : State) :
    bind (bindReverting first next) last state =
      bind first
        (fun value =>
          bind
            (orBacktrack state.cursor.checkpoint
              (next value))
            last)
        state := by
  have hAssoc := bind_assoc first
    (fun value =>
      orBacktrack state.cursor.checkpoint (next value)) last
  exact (bind_congr_first bindReverting_eq).trans
    (congrFun hAssoc state)

/- A first action need not go back on its own. -/
theorem bindReverting_bindReverting
    (first : Action α)
    (next : α → Action β)
    (last : β → Action γ) :
    bindReverting (bindReverting first next) last =
      bindReverting first fun value =>
        bind (next value) last := by
  funext state
  rw [bindReverting_eq, bindReverting_eq,
    bindReverting_bind]
  simp only [orBacktrack_bind]

/- Nor need what comes next. -/
theorem bindReverting_next
    (first : Action α)
    (next : α → Action β)
    (last : α → β → Action γ) :
    (bindReverting first fun value =>
        bindReverting (next value) (last value)) =
      bindReverting first fun value =>
        bind (next value) (last value) := by
  funext state
  rw [bindReverting_eq, bindReverting_eq]
  simp only [orBacktrack_bindReverting]

/- To change the value of what went back is to change the
  value before. -/
theorem bindReverting_bind_pure
    (first : Action α)
    (next : α → Action β)
    (change : β → γ) :
    (bind (bindReverting first next) fun value =>
        pure (change value)) =
      bindReverting first fun value =>
        bind (next value) fun value =>
          pure (change value) := by
  funext state
  rw [bindReverting_eq, bindReverting_bind]
  simp only [orBacktrack_bind, orBacktrack_pure]

/- Where actions agree after the matches that there can be,
  they agree in sequence. -/
theorem bind_congr_of_ensures
    {first : Action α}
    {next next' : α → Action β}
    {meets : α → State → Prop}
    (hFirst : ∀ state, Ensures first state meets)
    (hNext : ∀ value middle, meets value middle →
      next value middle = next' value middle) :
    first >>= next = first >>= next' := by
  funext state
  simp only [Bind.bind, bind]
  cases hStep : first state with
  | none => rfl
  | some step =>
      rcases step with ⟨value | _ | fault, middle, events⟩
      · have hMeets := (hFirst state).matched _ _ _ hStep
        simp only [hNext value middle hMeets]
      · rfl
      · rfl

theorem bindReverting_congr_of_ensures
    {first : Action α}
    {next next' : α → Action β}
    {meets : α → State → Prop}
    (hFirst : ∀ state, Ensures first state meets)
    (hNext : ∀ value middle, meets value middle →
      next value middle = next' value middle) :
    bindReverting first next = bindReverting first next' := by
  unfold bindReverting
  apply congrArg (Action.bind checkpoint)
  funext before
  apply bind_congr_of_ensures hFirst
  intro value middle hMeets
  simp only [orBacktrack, optionally, Bind.bind, bind,
    hNext value middle hMeets]

theorem map_of_matched
    (change : Value → Value)
    {action : Action Match}
    {state last : State}
    {found : Match}
    {events : List Event}
    (hAction :
      action state = some ⟨.matched found, last, events⟩) :
    map change action state =
      some ⟨.matched (found.withValue (change found.value)),
        last, events⟩ := by
  unfold map
  refine (bind_of_matched hAction).trans ?_
  simp only [Pure.pure, pure, Option.map_some,
    List.append_nil]

theorem map_of_failed
    (change : Value → Value)
    {action : Action Match}
    {state last : State}
    {events : List Event}
    (hAction : action state = some ⟨.failed, last, events⟩) :
    map change action state =
      some ⟨.failed, last, events⟩ := by
  unfold map
  exact bind_of_failed hAction

theorem map_of_fatal
    (change : Value → Value)
    {action : Action Match}
    {state last : State}
    {fault : Fault}
    {events : List Event}
    (hAction :
      action state = some ⟨.fatal fault, last, events⟩) :
    map change action state =
      some ⟨.fatal fault, last, events⟩ := by
  unfold map
  exact bind_of_fatal hAction

theorem map_of_none
    (change : Value → Value)
    {action : Action Match}
    {state : State}
    (hAction : action state = none) :
    map change action state = none := by
  unfold map
  exact bind_of_none hAction

end Action

end ByteGrammar

------------------------------------------------------------
-- Two in a Row
------------------------------------------------------------

namespace ByteGrammar

namespace Action

variable {join : Value → Value → Value}
variable {first second : Action Match}
variable {state middle last : State}
variable {left : Match}
variable {events more : List Event}

theorem sequence_of_none
    (hFirst : first state = none) :
    sequence join first second state = none :=
  bindReverting_of_none hFirst

theorem sequence_of_failed
    (hFirst : first state = some ⟨.failed, last, events⟩) :
    sequence join first second state =
      some ⟨.failed, last, events⟩ :=
  bindReverting_of_failed hFirst

/- Where the second fails after the first, the cursor is set
  back. -/
theorem sequence_of_second_failed
    (hFirst :
      first state = some ⟨.matched left, middle, events⟩)
    (hSecond : second middle = some ⟨.failed, last, more⟩) :
    sequence join first second state =
      some ⟨.failed, last.backTo state, events ++ more⟩ :=
  bindReverting_of_next_failed hFirst
    (bind_of_failed hSecond)

theorem sequence_of_fatal
    {fault : Fault}
    (hFirst :
      first state = some ⟨.fatal fault, last, events⟩) :
    sequence join first second state =
      some ⟨.fatal fault, last, events⟩ :=
  bindReverting_of_fatal hFirst

theorem sequence_of_matched
    {right : Match}
    (hFirst :
      first state = some ⟨.matched left, middle, events⟩)
    (hSecond :
      second middle = some ⟨.matched right, last, more⟩) :
    sequence join first second state =
      some ⟨.matched ⟨left.start, right.stop,
          join left.value right.value⟩,
        last, events ++ more⟩ := by
  refine (bindReverting_of_next_matched hFirst
    (bind_of_next hSecond rfl)).trans ?_
  rw [List.append_nil]

end Action

end ByteGrammar

------------------------------------------------------------
-- Three in a Row
------------------------------------------------------------

namespace ByteGrammar

namespace Action

/- Three matches in a row, with the values joined. -/
def row
    (join : Value → Value → Value → Value)
    (first second third : Action Match) :
    Action Match :=
  bindReverting first fun left => do
    let middle ← second
    let right ← third
    return ⟨left.start, right.stop,
      join left.value middle.value right.value⟩

variable (join inner : Value → Value → Value)
variable (first second third : Action Match)

theorem sequence_sequence_left :
    sequence join (sequence inner first second) third =
      row (fun left middle right =>
        join (inner left middle) right)
        first second third := by
  unfold sequence row
  refine (bindReverting_bindReverting _ _ _).trans ?_
  apply congrArg (bindReverting first)
  funext left
  refine (bind_assoc _ _ _).trans ?_
  simp only [Pure.pure, pure_bind]
  rfl

theorem sequence_sequence_right :
    sequence join first (sequence inner second third) =
      row (fun left middle right =>
        join left (inner middle right))
        first second third := by
  unfold row
  refine Eq.trans ?_ (bindReverting_next first
    (fun _ => second) _)
  apply congrArg (bindReverting first)
  funext left
  -- The value of the inner sequence is joined within it.
  refine (bindReverting_bind_pure second _
    (fun right : Match =>
      (⟨left.start, right.stop,
        join left.value right.value⟩ : Match))).trans ?_
  apply congrArg (bindReverting second)
  funext middle
  refine (bind_assoc _ _ _).trans ?_
  simp only [Pure.pure, pure_bind]
  rfl

theorem map_row
    (change : Value → Value)
    (join : Value → Value → Value → Value) :
    map change (row join first second third) =
      row (fun left middle right =>
        change (join left middle right))
        first second third := by
  unfold map row
  refine (bindReverting_bind_pure _ _ _).trans ?_
  apply congrArg (bindReverting first)
  funext left
  refine (bind_assoc _ _ _).trans ?_
  apply congrArg (Action.bind second)
  funext middle
  refine (bind_assoc _ _ _).trans ?_
  simp only [Pure.pure, pure_bind]
  rfl

end Action

end ByteGrammar

------------------------------------------------------------
-- Choices
------------------------------------------------------------

namespace ByteGrammar

namespace Action

variable {first second : Action Match}
variable {state last : State}
variable {events : List Event}

theorem either_of_none
    (hFirst : first state = none) :
    either first second state = none := by
  apply bind_of_none
  simp only [optionally, attempt, hFirst]

theorem either_of_matched
    {found : Match}
    (hFirst :
      first state = some ⟨.matched found, last, events⟩) :
    either first second state =
      some ⟨.matched found, last, events⟩ := by
  have hOptional :=
    optionally_of_matched (attempt_of_matched hFirst)
  refine (bind_of_matched hOptional).trans ?_
  simp only [Pure.pure, pure, Option.map_some,
    List.append_nil]

/- After a failure, the second action starts from the same
  place. -/
theorem either_of_failed
    (hFirst : first state = some ⟨.failed, last, events⟩) :
    either first second state =
      (second
        { last with
          cursor :=
            last.cursor.restore
              state.cursor.checkpoint }).map
        fun step =>
          { step with events := events ++ step.events } :=
  bind_of_matched
    (optionally_of_failed (attempt_of_failed hFirst))

theorem either_of_fatal
    {fault : Fault}
    (hFirst :
      first state = some ⟨.fatal fault, last, events⟩) :
    either first second state =
      some ⟨.fatal fault, last, events⟩ :=
  bind_of_fatal
    (optionally_of_fatal (attempt_of_fatal hFirst))

/- Nothing comes of what always fails. -/
theorem either_fail
    (second : Action Match) :
    either (scan .fail) second = second := by
  funext state
  have hFail : scan .fail state =
      some ⟨.failed, state, []⟩ := rfl
  rw [either_of_failed hFail, Cursor.restore_checkpoint]
  cases second state <;> rfl

/- A first alternative that goes on from a failure at this
  place may as well be tried after it. -/
theorem either_of_prefixed
    {other : Action Match}
    {middle : State}
    (hFirst :
      first state =
        (other middle).map fun step =>
          { step with events := events ++ step.events })
    (hBack :
      middle.cursor.checkpoint = state.cursor.checkpoint) :
    either first second state =
      (either other second middle).map fun step =>
        { step with events := events ++ step.events } := by
  cases hOther : other middle with
  | none =>
      rw [hOther] at hFirst
      rw [either_of_none hOther]
      exact either_of_none hFirst
  | some step =>
      rw [hOther] at hFirst
      rcases step with ⟨found | _ | fault, after, more⟩
      · rw [either_of_matched hOther]
        exact either_of_matched hFirst
      · rw [either_of_failed hOther, hBack]
        refine (either_of_failed hFirst).trans ?_
        simp only [Option.map_map, Function.comp_def,
          List.append_assoc]
      · rw [either_of_fatal hOther]
        exact either_of_fatal hFirst

/- Choices may be nested either way. -/
theorem either_assoc
    (first second third : Action Match) :
    either (either first second) third =
      either first (either second third) := by
  funext state
  cases hFirst : first state with
  | none =>
      rw [either_of_none (either_of_none hFirst),
        either_of_none hFirst]
  | some step =>
      rcases step with ⟨found | _ | fault, last, events⟩
      · rw [either_of_matched (either_of_matched hFirst),
          either_of_matched hFirst]
      · rw [either_of_failed hFirst]
        exact either_of_prefixed (either_of_failed hFirst)
          rfl
      · rw [either_of_fatal (either_of_fatal hFirst),
          either_of_fatal hFirst]

/- A fallback is a last alternative that matches
  nothing. -/
theorem orDefault_eq_either
    (fallback : Value)
    {action : Action Match}
    (hAtomic : Atomic action) :
    orDefault fallback action =
      either action (scan (.succeed fallback)) := by
  funext state
  unfold orDefault
  refine (inspect_bind _ _ state).trans ?_
  cases hAction : action state with
  | none =>
      rw [either_of_none hAction]
      apply bind_of_none
      simp only [optionally, hAction]
  | some step =>
      rcases step with ⟨found | _ | fault, last, events⟩
      · have hOptional := optionally_of_matched hAction
        rw [either_of_matched hAction]
        refine (bind_of_matched hOptional).trans ?_
        simp only [Pure.pure, pure, Option.map_some,
          List.append_nil]
      · have hOptional := optionally_of_failed hAction
        have hBack := hAtomic _ _ _ hAction
        have hHere :
            last.cursor.position = state.cursor.position :=
          congrArg Checkpoint.position hBack
        rw [either_of_failed hAction, ← hBack,
          Cursor.restore_checkpoint, ← hHere]
        exact bind_of_matched hOptional
      · rw [either_of_fatal hAction]
        exact bind_of_fatal (optionally_of_fatal hAction)

end Action

end ByteGrammar

------------------------------------------------------------
-- Filters and Captures
------------------------------------------------------------

namespace ByteGrammar

namespace Action

variable {action : Action Match}
variable {state last : State}
variable {found : Match}
variable {events : List Event}

theorem filter_of_passed
    (test : Value → Bool)
    (hAction :
      action state = some ⟨.matched found, last, events⟩)
    (hTest : test found.value = true) :
    filter test action state =
      some ⟨.matched found, last, events⟩ := by
  have hNext :
      (if test found.value then Pure.pure found else fail :
        Action Match) last =
        some ⟨.matched found, last, []⟩ := by
    rw [if_pos hTest]
    rfl
  refine (bindReverting_of_next_matched hAction hNext).trans
    ?_
  rw [List.append_nil]

/- What is refused is given back. -/
theorem filter_of_refused
    (test : Value → Bool)
    (hAction :
      action state = some ⟨.matched found, last, events⟩)
    (hTest : test found.value = false) :
    filter test action state =
      some ⟨.failed, last.backTo state, events⟩ := by
  have hNext :
      (if test found.value then Pure.pure found else fail :
        Action Match) last =
        some ⟨.failed, last, []⟩ := by
    rw [hTest, if_neg Bool.false_ne_true]
    rfl
  refine (bindReverting_of_next_failed hAction hNext).trans
    ?_
  rw [List.append_nil]

theorem filter_of_failed
    (test : Value → Bool)
    (hAction : action state = some ⟨.failed, last, events⟩) :
    filter test action state =
      some ⟨.failed, last, events⟩ :=
  bindReverting_of_failed hAction

theorem capture_of_matched
    (hAction :
      action state = some ⟨.matched found, last, events⟩) :
    capture action state =
      some
        ⟨.matched (found.withValue (.region found.region)),
          { last with
            cursor :=
              last.cursor.mark found.start found.stop },
          events⟩ := by
  unfold capture
  refine (bind_of_matched hAction).trans ?_
  refine (congrArg _ (move_bind _ _ last)).trans ?_
  simp only [Pure.pure, pure, Option.map_some,
    List.append_nil]

theorem capture_of_failed
    (hAction : action state = some ⟨.failed, last, events⟩) :
    capture action state =
      some ⟨.failed, last, events⟩ := by
  unfold capture
  exact bind_of_failed hAction

end Action

end ByteGrammar

------------------------------------------------------------
-- Lookahead
------------------------------------------------------------

namespace ByteGrammar

namespace Action

variable {action : Action Match}
variable {state last : State}
variable {events : List Event}

/- To look ahead is to skip what is peeked at. -/
theorem followedBy_eq_sequence
    (lookahead : Action Match)
    (hLands : Lands action) :
    followedBy action lookahead =
      sequence (fun left _ => left) action
        (peek lookahead) := by
  unfold followedBy sequence peek
  apply bindReverting_congr_of_ensures hLands
  intro found middle hStop
  simp only [LawfulMonad.bind_assoc, LawfulMonad.pure_bind]
  have hWhole :
      (⟨found.start, middle.cursor.position, found.value⟩ :
        Match) = found := by
    rw [← hStop]
  refine (inspect_bind _ _ middle).trans ?_
  refine Eq.trans ?_ (inspect_bind _ _ middle).symm
  simp only [Match.nothingAt, Cursor.checkpoint, hWhole]

theorem peek_of_matched
    {found : Match}
    (hAction :
      action state = some ⟨.matched found, last, events⟩) :
    peek action state =
      some ⟨.matched
          (.nothingAt state.cursor.position found.value),
        { last with
          cursor :=
            last.cursor.restore state.cursor.checkpoint },
        events⟩ := by
  unfold peek
  refine (inspect_bind _ _ state).trans ?_
  refine (bind_of_matched hAction).trans ?_
  refine (congrArg _ (move_bind _ _ last)).trans ?_
  simp only [Pure.pure, pure, Option.map_some,
    List.append_nil]
  rfl

theorem peek_of_failed
    (hAction : action state = some ⟨.failed, last, events⟩) :
    peek action state = some ⟨.failed, last, events⟩ := by
  unfold peek
  refine (inspect_bind _ _ state).trans ?_
  exact bind_of_failed hAction

theorem peek_of_fatal
    {fault : Fault}
    (hAction :
      action state = some ⟨.fatal fault, last, events⟩) :
    peek action state =
      some ⟨.fatal fault, last, events⟩ := by
  unfold peek
  refine (inspect_bind _ _ state).trans ?_
  exact bind_of_fatal hAction

theorem absent_of_none
    (hAction : action state = none) :
    absent action state = none := by
  unfold absent
  refine (inspect_bind _ _ state).trans ?_
  apply bind_of_none
  simp only [optionally, hAction]

theorem absent_of_matched
    {found : Match}
    (hAction :
      action state = some ⟨.matched found, last, events⟩) :
    absent action state =
      some ⟨.failed,
        { last with
          cursor :=
            last.cursor.restore state.cursor.checkpoint },
        events⟩ := by
  unfold absent
  refine (inspect_bind _ _ state).trans ?_
  have hOptional := optionally_of_matched hAction
  refine (bind_of_matched hOptional).trans ?_
  refine (congrArg _ (move_bind _ _ last)).trans ?_
  simp only [fail, Option.map_some, List.append_nil]

theorem absent_of_failed
    (hAction : action state = some ⟨.failed, last, events⟩) :
    absent action state =
      some ⟨.matched (.nothingAt state.cursor.position .unit),
        last, events⟩ := by
  unfold absent
  refine (inspect_bind _ _ state).trans ?_
  have hOptional := optionally_of_failed hAction
  refine (bind_of_matched hOptional).trans ?_
  simp only [Pure.pure, pure, Option.map_some,
    List.append_nil]
  rfl

theorem absent_of_fatal
    {fault : Fault}
    (hAction :
      action state = some ⟨.fatal fault, last, events⟩) :
    absent action state =
      some ⟨.fatal fault, last, events⟩ := by
  unfold absent
  refine (inspect_bind _ _ state).trans ?_
  exact bind_of_fatal (optionally_of_fatal hAction)

/- What is not absent is there, and is matched as
  nothing. -/
theorem absent_absent
    (hAtomic : Atomic action) :
    absent (absent action) =
      map (fun _ => .unit) (peek action) := by
  funext state
  cases hAction : action state with
  | none =>
      rw [absent_of_none (absent_of_none hAction)]
      refine (map_of_none _ ?_).symm
      unfold peek
      refine (inspect_bind _ _ state).trans ?_
      exact bind_of_none hAction
  | some step =>
      rcases step with ⟨found | _ | fault, last, events⟩
      · rw [absent_of_failed (absent_of_matched hAction)]
        exact (map_of_matched (fun _ => .unit)
          (peek_of_matched hAction)).symm
      · -- The outer one sets the cursor back to where the
        -- failure left it.
        rw [absent_of_matched (absent_of_failed hAction),
          ← hAtomic _ _ _ hAction,
          Cursor.restore_checkpoint]
        exact (map_of_failed _ (peek_of_failed hAction)).symm
      · rw [absent_of_fatal (absent_of_fatal hAction)]
        exact (map_of_fatal _ (peek_of_fatal hAction)).symm

end Action

end ByteGrammar
