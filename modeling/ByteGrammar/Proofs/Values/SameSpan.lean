import ByteGrammar.Proofs.Engine.Alternation
import ByteGrammar.Proofs.Values.Parallel

/-
  What combinators match does not depend on the values of
  what they run.

  Parts that match the same stretches make combinators that
  match the same stretches, whatever they make of the
  values. A filter alone looks at a value, and so it does
  not stand here.

  Main declarations:
    * `Match.SameSpan`
    * `Action.Parallel.sequence` and the like
    * `Action.Parallel.alternate`
-/

------------------------------------------------------------
-- Spans
------------------------------------------------------------

namespace ByteGrammar

namespace Match

/- Matches of one stretch, whatever their values. -/
structure SameSpan
    (found found' : Match) :
    Prop where
  start : found.start = found'.start
  stop : found.stop = found'.stop

namespace SameSpan

variable {found found' : Match}

theorem refl
    (found : Match) :
    found.SameSpan found :=
  ⟨rfl, rfl⟩

theorem nothingAt
    (position : Nat)
    (value value' : Value) :
    (Match.nothingAt position value).SameSpan
      (Match.nothingAt position value') :=
  ⟨rfl, rfl⟩

theorem withValue
    (hSpan : found.SameSpan found')
    (value value' : Value) :
    (found.withValue value).SameSpan
      (found'.withValue value') :=
  ⟨hSpan.start, hSpan.stop⟩

end SameSpan

end Match

end ByteGrammar

------------------------------------------------------------
-- Sequences and Choices
------------------------------------------------------------

namespace ByteGrammar

namespace Action

namespace Parallel

open Match

variable {paired : Parser → Parser → Prop}
variable {first first' second second' third third' :
  Action Match}

theorem position :
    Parallel paired Eq position position :=
  inspect fun _ => rfl

theorem checkpoint :
    Parallel paired Eq checkpoint checkpoint :=
  inspect fun _ => rfl

theorem backtrack
    {α β : Type}
    {agree : α → β → Prop}
    (saved : Checkpoint) :
    Parallel paired agree (backtrack saved)
      (backtrack saved) := by
  unfold Action.backtrack
  exact (move _).bind fun _ _ _ => fail

/- To go back from a failure is to go back on both
  sides. -/
theorem orBacktrack
    {α β : Type}
    {agree : α → β → Prop}
    {action : Action α}
    {action' : Action β}
    (saved : Checkpoint)
    (hAction : Parallel paired agree action action') :
    Parallel paired agree (orBacktrack saved action)
      (orBacktrack saved action') := by
  unfold Action.orBacktrack
  apply hAction.optionally.bind
  intro result result' hResult
  cases hResult with
  | some hAgree => exact pure hAgree
  | none => exact backtrack saved

theorem bindReverting
    {α β γ δ : Type}
    {agree : α → β → Prop}
    {agree' : γ → δ → Prop}
    {action : Action α}
    {action' : Action β}
    {next : α → Action γ}
    {next' : β → Action δ}
    (hAction : Parallel paired agree action action')
    (hNext : ∀ value value', agree value value' →
      Parallel paired agree' (next value) (next' value')) :
    Parallel paired agree' (bindReverting action next)
      (bindReverting action' next') := by
  unfold Action.bindReverting
  apply checkpoint.bind
  rintro before _ rfl
  apply hAction.bind
  intro value value' hAgree
  exact (hNext value value' hAgree).orBacktrack before

/- Equal matches are of one stretch. -/
theorem sameSpan
    (hFirst : Parallel paired Eq first first') :
    Parallel paired SameSpan first first' := by
  apply hFirst.weaken
  rintro found _ rfl
  exact .refl found

/- What the cursor is seen as is left open. -/
theorem inspect_any
    {α β : Type}
    (view : Cursor → α)
    (view' : Cursor → β) :
    Parallel paired (fun _ _ => True) (Action.inspect view)
      (Action.inspect view') :=
  inspect fun _ => trivial

/- A constant may be exchanged for another. -/
theorem scan_succeed
    (value value' : Value) :
    Parallel paired SameSpan (scan (.succeed value))
      (scan (.succeed value')) := by
  intro state state' hAlike
  refine .matched ⟨?_, ?_⟩ hAlike
  · exact congrArg Cursor.position hAlike.cursor
  · exact congrArg Cursor.position hAlike.cursor

theorem sequence
    (join join' : Value → Value → Value)
    (hFirst : Parallel paired SameSpan first first')
    (hSecond : Parallel paired SameSpan second second') :
    Parallel paired SameSpan (sequence join first second)
      (sequence join' first' second') := by
  unfold Action.sequence
  apply hFirst.bindReverting
  intro left left' hLeft
  apply hSecond.bind
  intro right right' hRight
  exact pure ⟨hLeft.start, hRight.stop⟩

theorem between
    (hFirst : Parallel paired SameSpan first first')
    (hSecond : Parallel paired SameSpan second second')
    (hThird : Parallel paired SameSpan third third') :
    Parallel paired SameSpan (between first second third)
      (between first' second' third') := by
  unfold Action.between
  apply hFirst.bindReverting
  intro left left' hLeft
  apply hSecond.bind
  intro middle middle' _
  apply hThird.bind
  intro right right' hRight
  exact pure ⟨hLeft.start, hRight.stop⟩

theorem orElse
    (hFirst : Parallel paired SameSpan first first')
    (hSecond : Parallel paired SameSpan second second') :
    Parallel paired SameSpan (orElse first second)
      (orElse first' second') := by
  unfold Action.orElse
  apply hFirst.optionally.bind
  intro found found' hFound
  cases hFound with
  | some hSpan => exact pure hSpan
  | none => exact hSecond

theorem either
    (hFirst : Parallel paired SameSpan first first')
    (hSecond : Parallel paired SameSpan second second') :
    Parallel paired SameSpan (either first second)
      (either first' second') :=
  hFirst.attempt.orElse hSecond

theorem orDefault
    (fallback fallback' : Value)
    (hFirst : Parallel paired SameSpan first first') :
    Parallel paired SameSpan (orDefault fallback first)
      (orDefault fallback' first') := by
  unfold Action.orDefault
  apply position.bind
  rintro here _ rfl
  apply hFirst.optionally.bind
  intro found found' hFound
  cases hFound with
  | some hSpan => exact pure hSpan
  | none => exact pure (.nothingAt here _ _)

end Parallel

end Action

end ByteGrammar

------------------------------------------------------------
-- Lookahead and Commit Points
------------------------------------------------------------

namespace ByteGrammar

namespace Action

namespace Parallel

open Match

variable {paired : Parser → Parser → Prop}
variable {action action' lookahead lookahead' :
  Action Match}

theorem followedBy
    (hAction : Parallel paired SameSpan action action')
    (hLookahead :
      Parallel paired SameSpan lookahead lookahead') :
    Parallel paired SameSpan (followedBy action lookahead)
      (followedBy action' lookahead') := by
  unfold Action.followedBy
  apply hAction.bindReverting
  intro found found' hSpan
  apply checkpoint.bind
  rintro after _ rfl
  apply hLookahead.bind
  intro seen seen' _
  apply (move _).bind
  intro _ _ _
  exact pure hSpan

theorem peek
    (hAction : Parallel paired SameSpan action action') :
    Parallel paired SameSpan (peek action)
      (peek action') := by
  unfold Action.peek
  apply checkpoint.bind
  rintro before _ rfl
  apply hAction.bind
  intro found found' _
  apply (move _).bind
  intro _ _ _
  exact pure (.nothingAt _ _ _)

theorem absent
    (hAction : Parallel paired SameSpan action action') :
    Parallel paired SameSpan (absent action)
      (absent action') := by
  unfold Action.absent
  apply checkpoint.bind
  rintro before _ rfl
  apply hAction.optionally.bind
  intro found found' hFound
  cases hFound with
  | some _ => exact (move _).bind fun _ _ _ => fail
  | none => exact pure (.nothingAt _ _ _)

theorem expect
    (message : String)
    (hAction : Parallel paired SameSpan action action') :
    Parallel paired SameSpan (expect message action)
      (expect message action') := by
  unfold Action.expect
  apply position.bind
  rintro here _ rfl
  apply hAction.optionally.bind
  intro found found' hFound
  cases hFound with
  | some hSpan => exact pure hSpan
  | none => exact (report _ _).bind fun _ _ _ => raise _

theorem reject
    (message : String)
    (hAction : Parallel paired SameSpan action action') :
    Parallel paired SameSpan (reject message action)
      (reject message action') := by
  unfold Action.reject
  apply checkpoint.bind
  rintro before _ rfl
  apply hAction.optionally.bind
  intro found found' hFound
  cases hFound with
  | some _ =>
      apply (move _).bind
      intro _ _ _
      exact (report _ _).bind fun _ _ _ => raise _
  | none => exact pure (.nothingAt _ _ _)

end Parallel

end Action

end ByteGrammar

------------------------------------------------------------
-- Values and Regions
------------------------------------------------------------

namespace ByteGrammar

namespace Action

namespace Parallel

open Match

variable {paired : Parser → Parser → Prop}
variable {action action' : Action Match}

theorem map
    (change change' : Value → Value)
    (hAction : Parallel paired SameSpan action action') :
    Parallel paired SameSpan (map change action)
      (map change' action') := by
  unfold Action.map
  apply hAction.bind
  intro found found' hSpan
  exact pure (hSpan.withValue _ _)

/- The region is that of the match, so it is recorded
  alike. -/
theorem mark
    {found found' : Match}
    (hSpan : found.SameSpan found') :
    Parallel paired Eq
      (Action.move fun cursor =>
        cursor.mark found.start found.stop)
      (Action.move fun cursor =>
        cursor.mark found'.start found'.stop) := by
  rw [hSpan.start, hSpan.stop]
  exact move _

theorem capture
    (hAction : Parallel paired SameSpan action action') :
    Parallel paired SameSpan (capture action)
      (capture action') := by
  unfold Action.capture
  apply hAction.bind
  intro found found' hSpan
  apply (mark hSpan).bind
  intro _ _ _
  exact pure (hSpan.withValue _ _)

theorem view
    (seen seen' : View)
    (hAction : Parallel paired SameSpan action action') :
    Parallel paired SameSpan (view seen action)
      (view seen' action') := by
  unfold Action.view
  apply hAction.bind
  intro found found' hSpan
  apply (inspect_any _ _).bind
  intro value value' _
  exact pure (hSpan.withValue _ _)

/- What is read is the region and not the value of the
  match, so it can be read in both or in neither. -/
theorem convert
    (conversion : Conversion)
    (hAction : Parallel paired SameSpan action action') :
    Parallel paired SameSpan (convert conversion action)
      (convert conversion action') := by
  unfold Action.convert
  apply hAction.bindReverting
  intro found found' hSpan
  apply (mark hSpan).bind
  intro _ _ _
  apply Parallel.bind (inspect fun _ => rfl)
  rintro reading _ rfl
  split
  · exact pure (hSpan.withValue _ _)
  · exact fail
  · exact (report _ _).bind fun _ _ _ => fail

theorem label
    (id id' : ParserId)
    (name name' : String)
    (hAction : Parallel paired SameSpan action action') :
    Parallel paired SameSpan (label id name action)
      (label id' name' action') := by
  unfold Action.label
  apply position.bind
  rintro here _ rfl
  apply (hAction.bracketed _ _ _ _ _ _).bind
  intro found found' hSpan
  exact pure (hSpan.withValue _ _)

end Parallel

end Action

end ByteGrammar

------------------------------------------------------------
-- Repetition
------------------------------------------------------------

namespace ByteGrammar

namespace Action

namespace Parallel

open Match

variable {paired : Parser → Parser → Prop}
variable {action action' : Action Match}

/- How many values there are decides when to stop, and not
  which they are. -/
theorem collectPass
    (max : Option Nat)
    {values values' : List Value}
    (hAction : Parallel paired SameSpan action action')
    (hLength : values.length = values'.length) :
    Parallel paired
      (Pass.Rel
        (fun values values' : List Value =>
          values.length = values'.length)
        fun values values' : List Value =>
          values.length = values'.length)
      (collectPass max action values)
      (collectPass max action' values') := by
  unfold Action.collectPass
  rw [hLength]
  split
  · exact pure (.done hLength)
  · apply position.bind
    rintro before _ rfl
    apply hAction.optionally.bind
    intro found found' hFound
    cases hFound with
    | none => exact pure (.done hLength)
    | @some found found' hSpan =>
        have hLonger :
            (values ++ [found.value]).length =
              (values' ++ [found'.value]).length := by
          simp only [List.length_append, hLength,
            List.length_singleton]
        dsimp only
        rw [hSpan.stop]
        split
        · exact pure (.done hLonger)
        · exact pure (.again hLonger)

theorem repeated
    (min : Nat)
    (max : Option Nat)
    (hAction : Parallel paired SameSpan action action') :
    Parallel paired SameSpan (repeated min max action)
      (repeated min max action') := by
  unfold Action.repeated
  apply checkpoint.bind
  rintro before _ rfl
  apply (loop (fun _ _ => hAction.collectPass max) rfl).bind
  intro values values' hLength
  apply position.bind
  rintro stop _ rfl
  have hEmpty : values.isEmpty = values'.isEmpty := by
    rw [Bool.eq_iff_iff, List.isEmpty_iff_length_eq_zero,
      List.isEmpty_iff_length_eq_zero, hLength]
  rw [hLength, hEmpty]
  split
  · split
    · exact fail
    · exact backtrack before
  · exact pure ⟨rfl, rfl⟩

theorem takeUntil
    (orEnd : Bool)
    {terminator terminator' : Action Match}
    (hTerminator :
      Parallel paired SameSpan terminator terminator') :
    Parallel paired SameSpan (takeUntil orEnd terminator)
      (takeUntil orEnd terminator') := by
  have hPass : ∀ taken taken' : Unit, taken = taken' →
      Parallel paired (Pass.Rel Eq Eq)
        (takeUntilPass orEnd terminator taken)
        (takeUntilPass orEnd terminator' taken') := by
    intro _ _ _
    unfold takeUntilPass
    apply checkpoint.bind
    rintro here _ rfl
    apply hTerminator.optionally.bind
    intro found found' hFound
    cases hFound with
    | some _ =>
        exact (move _).bind fun _ _ _ => pure (.done rfl)
    | none =>
        apply Parallel.bind (inspect fun _ => rfl)
        rintro atEnd _ rfl
        split
        · split
          · exact pure (.done rfl)
          · exact fail
        · exact (move _).bind fun _ _ _ => pure (.again rfl)
  unfold Action.takeUntil
  apply attempt
  apply position.bind
  rintro start _ rfl
  apply (loop hPass rfl).bind
  intro _ _ _
  apply position.bind
  rintro stop _ rfl
  exact pure ⟨rfl, rfl⟩

end Parallel

end Action

end ByteGrammar

------------------------------------------------------------
-- Lists and Chains
------------------------------------------------------------

namespace ByteGrammar

namespace Action

namespace Parallel

open Match

variable {γ δ : Type}
variable {paired : Parser → Parser → Prop}
variable {item item' separator separator' : Action Match}

/- A pass is held against positions, so what was made of the
  values before does not matter. -/
theorem alternate
    {still : Nat × γ → Checkpoint → Nat}
    {still' : Nat × δ → Checkpoint → Nat}
    {single : Match → γ}
    {single' : Match → δ}
    {extend : γ → Match → Match → γ}
    {extend' : δ → Match → Match → δ}
    {value : γ → Value}
    {value' : δ → Value}
    (hStill : ∀ taken taken' before, taken.1 = taken'.1 →
      still taken before = still' taken' before)
    (hItem : Parallel paired SameSpan item item')
    (hSeparator :
      Parallel paired SameSpan separator separator') :
    Parallel paired SameSpan
      (alternate still single extend value item separator)
      (alternate still' single' extend' value' item'
        separator') := by
  have hPass : ∀ (taken : Nat × γ) (taken' : Nat × δ),
      taken.1 = taken'.1 →
        Parallel paired
          (Pass.Rel
            (fun (taken : Nat × γ) (taken' : Nat × δ) =>
              taken.1 = taken'.1)
            fun (taken : Nat × γ) (taken' : Nat × δ) =>
              taken.1 = taken'.1)
          (alternatePass still extend item separator taken)
          (alternatePass still' extend' item' separator'
            taken') := by
    intro taken taken' hTaken
    unfold alternatePass
    apply checkpoint.bind
    rintro before _ rfl
    apply hSeparator.optionally.bind
    intro between between' hBetween
    cases hBetween with
    | none => exact pure (.done hTaken)
    | some _ =>
        apply hItem.optionally.bind
        intro found found' hFound
        cases hFound with
        | none =>
            exact (move _).bind fun _ _ _ =>
              pure (.done hTaken)
        | some hSpan =>
            dsimp only
            rw [hSpan.stop, hStill taken taken' before hTaken]
            split
            · exact (move _).bind fun _ _ _ =>
                pure (.done hTaken)
            · exact pure (.again rfl)
  unfold Action.alternate
  apply hItem.bind
  intro first first' hFirst
  apply (loop hPass hFirst.stop).bind
  intro taken taken' hTaken
  exact pure ⟨hFirst.start, hTaken⟩

theorem separatedList
    (hItem : Parallel paired SameSpan item item')
    (hSeparator :
      Parallel paired SameSpan separator separator') :
    Parallel paired SameSpan (separatedList item separator)
      (separatedList item' separator') := by
  rw [separatedList_eq_alternate, separatedList_eq_alternate]
  exact alternate (fun _ _ _ _ => rfl) hItem hSeparator

theorem chain
    (combine combine' : Value → Value → Value → Value)
    (hItem : Parallel paired SameSpan item item')
    (hSeparator :
      Parallel paired SameSpan separator separator') :
    Parallel paired SameSpan (chain combine item separator)
      (chain combine' item' separator') := by
  rw [chain_eq_alternate, chain_eq_alternate]
  exact alternate (fun _ _ _ hTaken => hTaken) hItem
    hSeparator

end Parallel

end Action

end ByteGrammar
