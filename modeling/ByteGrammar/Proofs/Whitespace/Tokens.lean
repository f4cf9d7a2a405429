import ByteGrammar.Proofs.Comments.Skipping
import ByteGrammar.Proofs.Operators.Chosen
import ByteGrammar.Proofs.Repetition.Elements
import ByteGrammar.Proofs.Termination.Detection

/-
  Tokens within tokens.

  What does not move on does the same again and leaves the
  state as it is. A repetition without a bound ends with such
  a part, whether that fails or matches nothing, so it ends
  where it stands when it is run again. So does a skip of
  whitespace, and a token within a token skips for nothing.

  Main declarations:
    * `Cursor.Repeats`, `Cursor.likeness_repeats`
    * `Parser.EndsIn.again`, `Parser.Collects.again`
    * `Parser.Exhaustive`, `Parser.exhaustive_many`
    * `Parser.SkipsIn`, `Parser.SkipsIn.again`
    * `Parser.TokenEnds`, `Parser.endsIn_token`
    * `Context.SkipsByRules`
    * `Parser.endsIn_token_token`
    * `Parser.nested_tokens_specified`
-/

------------------------------------------------------------
-- Doing the Same Again
------------------------------------------------------------

namespace ByteGrammar

namespace Cursor

/-
  Cursors at one place in two runs of which the second starts
  where the first ended, from `before` to `after`. The second
  has reached what the first reached by then. Its raw region
  is that of the first, or no run has recorded one yet.
-/
structure Repeats
    (before after cursor cursor' : Cursor) :
    Prop where
  place : cursor.SamePlace cursor'
  furthest :
    cursor'.furthest = max cursor.furthest after.furthest
  raw :
    cursor'.raw = cursor.raw ∨
      cursor.raw = before.raw ∧ cursor'.raw = after.raw

theorem likeness_repeats
    (before after : Cursor) :
    Likeness (Repeats before after) where
  data := fun hRepeats => hRepeats.place.data
  position := fun hRepeats => hRepeats.place.position
  advance := by
    intro cursor cursor' count hRepeats
    have hPlace :=
      likeness_samePlace.advance count hRepeats.place
    refine ⟨hPlace, ?_, hRepeats.raw⟩
    have hPosition := hPlace.position
    have hFurthest := hRepeats.furthest
    simp only [advance] at hPosition ⊢
    omega
  mark := by
    intro cursor cursor' start stop hRepeats
    exact ⟨likeness_samePlace.mark start stop hRepeats.place,
      hRepeats.furthest, .inl rfl⟩
  restore := by
    intro start start' last last' hStart hLast
    exact ⟨likeness_samePlace.restore hStart.place
      hLast.place, hLast.furthest, hStart.raw⟩

variable {before after last : Cursor}

/- A run that ends where it started can be repeated. -/
theorem Leads.repeats
    (hLeads : before.Leads after)
    (hStill : after.position = before.position) :
    Repeats before after before after where
  place := ⟨hLeads.data.symm, hStill.symm⟩
  furthest := (Nat.max_eq_right hLeads.kept).symm
  raw := .inr ⟨rfl, rfl⟩

/- The second run ends as the first. -/
theorem Repeats.last_eq
    (hRepeats : Repeats before after after last) :
    last = after := by
  have hFurthest : last.furthest = after.furthest :=
    hRepeats.furthest.trans (Nat.max_self _)
  have hRaw : last.raw = after.raw := by
    rcases hRepeats.raw with hSame | ⟨_, hSame⟩
    · exact hSame
    · exact hSame
  rcases hRepeats.place with ⟨hData, hPosition⟩
  cases last
  cases after
  simp_all only

end Cursor

namespace Parser

variable {rules : Rules} {parser : Parser}
variable {state last : State}
variable {outcome : Outcome Match}

/- What ends where it started ends so again, and changes
  nothing. -/
theorem EndsIn.again
    (hInside : state.cursor.Inside)
    (hEnds : EndsIn rules parser state outcome last)
    (hStill :
      last.cursor.position = state.cursor.position) :
    EndsIn rules parser last outcome last := by
  have hContext := hEnds.context_eq
  have hRepeats := (hEnds.leads hInside).repeats hStill
  rcases hEnds with ⟨events, depth, hRun⟩
  rcases run_of_alike (Cursor.likeness_repeats _ _) hRepeats
      hRun with
    ⟨⟨cursor, context⟩, hAgain, hCursor, hSame⟩
  cases hCursor.last_eq
  cases hSame
  rw [← hContext] at hAgain
  exact .of_run hAgain

/- A failure ends where it started. -/
theorem EndsIn.position_eq
    (hFailed : EndsIn rules parser state .failed last) :
    last.cursor.position = state.cursor.position :=
  congrArg Checkpoint.position hFailed.checkpoint_eq

end Parser

end ByteGrammar

------------------------------------------------------------
-- Repetitions That Have Ended
------------------------------------------------------------

namespace ByteGrammar

namespace Parser

variable {rules : Rules} {parser : Parser}
variable {state last : State}

/- What has been collected is followed by nothing more: the
  call that ended the repetition ends the next one. -/
theorem Collects.again
    {elements : List Match}
    (hInside : state.cursor.Inside)
    (hCollects :
      Collects rules parser none state (.matched elements)
        last) :
    ∃ more,
      Collects rules parser none last (.matched more)
        last := by
  rcases hCollects with ⟨taken, here, hGathered, hCeases⟩
  have hHere := (hGathered.turn.leads hInside).last_inside
  have hNil := gathered_nil rules parser none last
  have hOpen : none ≠ some ([] : List Match).length := nofun
  cases hCeases with
  | enough hEnough => cases hEnough
  | failed _ hElement =>
      have hAgain :=
        hElement.again hHere hElement.position_eq
      exact ⟨_, [], last, hNil, .failed hOpen hAgain⟩
  | nothing _ hElement hStill =>
      have hAgain := hElement.again hHere hStill
      exact ⟨_, [], last, hNil, .nothing hOpen hAgain rfl⟩

/- Where the parser has matched, it matches once more and
  changes nothing. -/
def Exhaustive
    (rules : Rules)
    (parser : Parser) :
    Prop :=
  ∀ state found last, state.cursor.Inside →
    EndsIn rules parser state (.matched found) last →
      ∃ more, EndsIn rules parser last (.matched more) last

theorem exhaustive_many
    (rules : Rules)
    (parser : Parser) :
    Exhaustive rules (many parser) := by
  intro state found last hInside hEnds
  have hLast := (hEnds.leads hInside).last_inside
  rcases (endsIn_repeated hInside).mp hEnds with
    ⟨collected, here, hCollects, hCounts⟩
  cases hCounts with
  | enough =>
      rcases hCollects.again hInside with ⟨more, hAgain⟩
      exact ⟨_, (endsIn_repeated hLast).mpr
        ⟨_, _, hAgain, .enough (Nat.zero_le _)⟩⟩

theorem Exhaustive.map
    (change : Value → Value)
    (hExhaustive : Exhaustive rules parser) :
    Exhaustive rules (.map change parser) := by
  intro state found last hInside hEnds
  rcases (endsIn_map_matched change).mp hEnds with
    ⟨inner, hInner, _⟩
  rcases hExhaustive _ _ _ hInside hInner with ⟨more, hMore⟩
  exact ⟨_, (endsIn_map_matched change).mpr ⟨more, hMore, rfl⟩⟩

end Parser

end ByteGrammar

------------------------------------------------------------
-- Skips of Whitespace
------------------------------------------------------------

namespace ByteGrammar

/- What a skip makes of what the whitespace parser comes to:
  a failure is no less than a match. -/
def Outcome.skipped :
    Outcome Match → Outcome Unit
  | .matched _ => .matched ()
  | .failed => .matched ()
  | .fatal fault => .fatal fault

/- The state after the blanks that are skipped by default. -/
def State.skipBlanks
    (state : State) :
    State :=
  { state with
    cursor :=
      if state.context.options.skipNewlines then
        state.cursor.skipBlanks.2
      else state.cursor.skipInline.2 }

/- The state on which an installed whitespace parser runs. -/
def State.withoutWhitespace
    (state : State) :
    State :=
  { state with
    context := state.context.installWhitespace none }

namespace Action

variable {run : Parser → Action Match}
variable {whitespace : Parser}
variable {state : State}

theorem skipDefault_eq
    (state : State) :
    skipDefault state =
      some ⟨.matched (), state.skipBlanks, []⟩ := by
  unfold skipDefault
  refine (consult_bind _ _ state).trans ?_
  unfold State.skipBlanks
  split
  · rfl
  · rfl

theorem skipWhitespace_of_installed
    (hInstalled :
      state.context.whitespace = some whitespace) :
    skipWhitespace run state =
      (run whitespace state.withoutWhitespace).map
        fun step =>
          ⟨step.outcome.skipped,
            { step.state with
              context :=
                step.state.context.installWhitespace
                  (some whitespace) },
            step.events⟩ := by
  unfold skipWhitespace
  refine (consult_bind _ _ state).trans ?_
  rw [hInstalled]
  simp only [withWhitespace, Bind.bind, bind, optionally,
    within, hInstalled]
  cases hRun : run whitespace state.withoutWhitespace with
  | none =>
      simp only [State.withoutWhitespace] at hRun
      simp only [hRun, Option.map_none]
  | some step =>
      simp only [State.withoutWhitespace] at hRun
      rcases step with ⟨found | _ | fault, last, events⟩
      · simp [hRun, Pure.pure, pure, Outcome.skipped]
      · simp [hRun, Pure.pure, pure, Outcome.skipped]
      · simp [hRun, Outcome.skipped]

/- A skip never fails. -/
theorem skipWhitespace_ne_failed
    {last : State}
    {events : List Event} :
    skipWhitespace run state ≠
      some ⟨.failed, last, events⟩ := by
  intro hSkip
  cases hInstalled : state.context.whitespace with
  | none =>
      rw [skipWhitespace_of_none hInstalled,
        skipDefault_eq] at hSkip
      cases hSkip
  | some whitespace =>
      rw [skipWhitespace_of_installed hInstalled,
        Option.map_eq_some_iff] at hSkip
      rcases hSkip with ⟨⟨outcome, inner, more⟩, _, hStep⟩
      cases outcome <;> cases hStep

end Action

namespace Parser

open ByteGrammar.Action

variable {rules : Rules} {whitespace : Parser}
variable {state last : State}
variable {outcome : Outcome Unit}

/- What a skip of whitespace comes to, given enough
  depth. -/
def SkipsIn
    (rules : Rules)
    (state : State)
    (outcome : Outcome Unit)
    (last : State) :
    Prop :=
  ∃ events depth,
    skipWhitespace (run rules depth) state =
      some ⟨outcome, last, events⟩

/- From some depth on, a skip ends the same way. -/
theorem SkipsIn.exists_least
    (hSkips : SkipsIn rules state outcome last) :
    ∃ least events, ∀ depth, least ≤ depth →
      skipWhitespace (run rules depth) state =
        some ⟨outcome, last, events⟩ := by
  rcases hSkips with ⟨events, least, hSkip⟩
  refine ⟨least, events, ?_⟩
  intro depth hDepth
  have hRefines :
      Refines (skipWhitespace (run rules least))
        (skipWhitespace (run rules depth)) :=
    refines_congruence.scopeCongruence.skipWhitespace
      Cursor.likeness_eq.outlook (run_refines hDepth)
  exact hRefines _ _ hSkip

/- A skip ends in one way only. -/
theorem SkipsIn.unique
    {outcome' : Outcome Unit}
    {last' : State}
    (hSkips : SkipsIn rules state outcome last)
    (hOther : SkipsIn rules state outcome' last') :
    outcome = outcome' ∧ last = last' := by
  rcases hSkips.exists_least with ⟨least, events, hSkip⟩
  rcases hOther.exists_least with ⟨least', events', hSkip'⟩
  have hSame := hSkip _ (Nat.le_max_left least least')
  rw [hSkip' _ (Nat.le_max_right least least')] at hSame
  cases hSame
  exact ⟨rfl, rfl⟩

/- An installed whitespace parser runs without itself
  installed, and the context is as before. -/
theorem skipsIn_installed
    (hInstalled :
      state.context.whitespace = some whitespace) :
    SkipsIn rules state outcome last ↔
      ∃ result inner,
        EndsIn rules whitespace state.withoutWhitespace
            result inner ∧
          outcome = result.skipped ∧
          last = { state with cursor := inner.cursor } := by
  have hBack : ∀ result inner,
      EndsIn rules whitespace state.withoutWhitespace result
          inner →
        { inner with
          context :=
            inner.context.installWhitespace
              (some whitespace) } =
          { state with cursor := inner.cursor } := by
    intro result inner hEnds
    rw [hEnds.context_eq, ← hInstalled]
    rfl
  constructor
  · rintro ⟨events, depth, hSkip⟩
    rw [skipWhitespace_of_installed hInstalled,
      Option.map_eq_some_iff] at hSkip
    rcases hSkip with ⟨⟨result, inner, more⟩, hRun, hStep⟩
    cases hStep
    have hEnds := EndsIn.of_run hRun
    exact ⟨result, inner, hEnds, rfl, hBack _ _ hEnds⟩
  · rintro ⟨result, inner, hEnds, rfl, rfl⟩
    rw [← hBack _ _ hEnds]
    rcases hEnds with ⟨events, depth, hRun⟩
    refine ⟨events, depth, ?_⟩
    rw [skipWhitespace_of_installed hInstalled, hRun]
    rfl

/- Without one, blanks are skipped. -/
theorem skipsIn_default
    (hNone : state.context.whitespace = none) :
    SkipsIn rules state outcome last ↔
      outcome = .matched () ∧ last = state.skipBlanks := by
  constructor
  · rintro ⟨events, depth, hSkip⟩
    rw [skipWhitespace_of_none hNone, skipDefault_eq]
      at hSkip
    cases hSkip
    exact ⟨rfl, rfl⟩
  · rintro ⟨rfl, rfl⟩
    refine ⟨[], 0, ?_⟩
    rw [skipWhitespace_of_none hNone, skipDefault_eq]

/- A skip leaves the context as it is. -/
theorem SkipsIn.context_eq
    (hSkips : SkipsIn rules state outcome last) :
    last.context = state.context := by
  cases hInstalled : state.context.whitespace with
  | none =>
      rcases (skipsIn_default hInstalled).mp hSkips with
        ⟨_, rfl⟩
      rfl
  | some whitespace =>
      rcases (skipsIn_installed hInstalled).mp hSkips with
        ⟨_, _, _, _, rfl⟩
      rfl

end Parser

end ByteGrammar

------------------------------------------------------------
-- Skipping Twice
------------------------------------------------------------

namespace ByteGrammar

namespace Cursor

/- Behind a run of bytes that pass a test, none does. -/
theorem takeWhile_behind_run
    (test : UInt8 → Bool)
    (bytes : List UInt8) :
    (bytes.drop (bytes.takeWhile test).length).takeWhile
        test = [] := by
  induction bytes with
  | nil => rfl
  | cons byte rest ih =>
      cases hTest : test byte with
      | true => simp [hTest, ih]
      | false => simp [hTest]

/- To move on by nothing changes nothing, where the
  position was reached. -/
theorem advance_zero
    {cursor : Cursor}
    (hInside : cursor.Inside)
    (hReached : cursor.position ≤ cursor.furthest) :
    cursor.advance 0 = cursor := by
  have hStill :
      min (cursor.position + 0) cursor.data.length =
        cursor.position :=
    Nat.min_eq_left hInside
  simp only [advance, hStill, Nat.max_eq_left hReached]

theorem skipWhile_skipWhile
    {cursor : Cursor}
    (hInside : cursor.Inside)
    (test : UInt8 → Bool) :
    ((cursor.skipWhile test).2.skipWhile test).2 =
      (cursor.skipWhile test).2 := by
  have hLength :=
    (List.takeWhile_sublist test
      (l := cursor.remaining)).length_le
  have hRemaining :
      cursor.remaining.length =
        cursor.data.length - cursor.position :=
    List.length_drop
  have hInside' : cursor.position ≤ cursor.data.length :=
    hInside
  have hPosition :
      (cursor.skipWhile test).2.position =
        cursor.position +
          (cursor.remaining.takeWhile test).length :=
    position_advance (by omega)
  have hBehind :
      (cursor.skipWhile test).2.remaining =
        cursor.remaining.drop
          (cursor.remaining.takeWhile test).length := by
    rw [remaining, hPosition, remaining, List.drop_drop]
    rfl
  have hEnd : (cursor.skipWhile test).2.Inside :=
    position_advance_le _ _
  have hReached :
      (cursor.skipWhile test).2.position ≤
        (cursor.skipWhile test).2.furthest :=
    Nat.le_max_right _ _
  rw [skipWhile, hBehind, takeWhile_behind_run]
  exact advance_zero hEnd hReached

end Cursor

theorem State.skipBlanks_skipBlanks
    {state : State}
    (hInside : state.cursor.Inside) :
    state.skipBlanks.skipBlanks = state.skipBlanks := by
  unfold skipBlanks
  dsimp only
  split
  · rw [Cursor.skipBlanks, Cursor.skipBlanks,
      Cursor.skipWhile_skipWhile hInside]
  · rw [Cursor.skipInline, Cursor.skipInline,
      Cursor.skipWhile_skipWhile hInside]

namespace Context

/- Whitespace is blanks by default, or what some rules of
  comments say. -/
def SkipsByRules
    (context : Context) :
    Prop :=
  context.whitespace = none ∨
    ∃ comments : Comments,
      context.whitespace = some comments.skipper

end Context

namespace Parser

variable {rules : Rules}
variable {state last : State}

theorem exhaustive_skipper
    (rules : Rules)
    (comments : Comments) :
    Exhaustive rules comments.skipper :=
  (exhaustive_many rules _).map _

/- A skip by a parser that leaves nothing to match leaves
  nothing to skip. -/
theorem SkipsIn.again_installed
    {whitespace : Parser}
    (hInside : state.cursor.Inside)
    (hInstalled :
      state.context.whitespace = some whitespace)
    (hExhaustive : Exhaustive rules whitespace)
    (hSkips : SkipsIn rules state (.matched ()) last) :
    SkipsIn rules last (.matched ()) last := by
  rcases (skipsIn_installed hInstalled).mp hSkips with
    ⟨result, inner, hEnds, hResult, hLast⟩
  have hInstalled' :
      last.context.whitespace = some whitespace := by
    rw [hLast]
    exact hInstalled
  have hInner : last.withoutWhitespace = inner := by
    rw [hLast, State.withoutWhitespace]
    exact congrArg (State.mk inner.cursor)
      hEnds.context_eq.symm
  have hStill :
      last = { last with cursor := inner.cursor } := by
    rw [hLast]
  have hBare : state.withoutWhitespace.cursor.Inside :=
    hInside
  rw [skipsIn_installed hInstalled', hInner]
  cases result with
  | matched found =>
      rcases hExhaustive _ _ _ hBare hEnds with
        ⟨more, hMore⟩
      exact ⟨_, inner, hMore, rfl, hStill⟩
  | failed =>
      have hFailed := hEnds.again hBare hEnds.position_eq
      exact ⟨.failed, inner, hFailed, rfl, hStill⟩
  | fatal fault => cases hResult

/- After a skip, another one changes nothing. -/
theorem SkipsIn.again
    (hInside : state.cursor.Inside)
    (hRules : state.context.SkipsByRules)
    (hSkips : SkipsIn rules state (.matched ()) last) :
    SkipsIn rules last (.matched ()) last := by
  rcases hRules with hNone | ⟨comments, hInstalled⟩
  · rcases (skipsIn_default hNone).mp hSkips with ⟨_, hLast⟩
    have hNone' : last.context.whitespace = none := by
      rw [hLast]
      exact hNone
    rw [skipsIn_default hNone', hLast]
    exact ⟨rfl, (State.skipBlanks_skipBlanks hInside).symm⟩
  · exact hSkips.again_installed hInside hInstalled
      (exhaustive_skipper rules comments)

end Parser

end ByteGrammar

------------------------------------------------------------
-- Tokens
------------------------------------------------------------

namespace ByteGrammar

/- The last way back is the one that counts. -/
theorem State.backTo_backTo
    (state middle before : State) :
    (state.backTo middle).backTo before =
      state.backTo before :=
  rfl

namespace Parser

open ByteGrammar.Action

variable {rules : Rules} {parser : Parser}
variable {state last : State}
variable {outcome : Outcome Match}

/- The ways in which a token can end: as its parser does
  after the skip, with a failure that gives the skip back;
  or with a fatal error of the skip itself. -/
inductive TokenEnds
    (rules : Rules)
    (parser : Parser)
    (state : State) :
    Outcome Match → State → Prop where
  | matched {middle last : State} {found : Match}
      (hSkip : SkipsIn rules state (.matched ()) middle)
      (hParser :
        EndsIn rules parser middle (.matched found) last) :
      TokenEnds rules parser state (.matched found) last
  | failed {middle last : State}
      (hSkip : SkipsIn rules state (.matched ()) middle)
      (hParser : EndsIn rules parser middle .failed last) :
      TokenEnds rules parser state .failed
        (last.backTo state)
  | fatal {middle last : State} {fault : Fault}
      (hSkip : SkipsIn rules state (.matched ()) middle)
      (hParser :
        EndsIn rules parser middle (.fatal fault) last) :
      TokenEnds rules parser state (.fatal fault) last
  | unskipped {last : State} {fault : Fault}
      (hSkip : SkipsIn rules state (.fatal fault) last) :
      TokenEnds rules parser state (.fatal fault) last

/- A token ends in no other way. -/
theorem EndsIn.tokenEnds
    (hEnds :
      EndsIn rules (.token parser) state outcome last) :
    TokenEnds rules parser state outcome last := by
  rcases hEnds with ⟨events, depth, hRun⟩
  cases depth with
  | zero => cases hRun
  | succ depth =>
      have hToken :
          Action.token (run rules depth) parser state =
            some ⟨outcome, last, events⟩ := hRun
      unfold Action.token at hToken
      cases attempt_ends hToken with
      | matched hInner =>
          cases bind_ends hInner with
          | matched hSkip hParser =>
              exact .matched ⟨_, _, hSkip⟩ (.of_run hParser)
      | failed hInner =>
          cases bind_ends hInner with
          | matched hSkip hParser =>
              exact .failed ⟨_, _, hSkip⟩ (.of_run hParser)
          | failed hSkip =>
              exact absurd hSkip skipWhitespace_ne_failed
      | fatal hInner =>
          cases bind_ends hInner with
          | matched hSkip hParser =>
              exact .fatal ⟨_, _, hSkip⟩ (.of_run hParser)
          | fatal hSkip => exact .unskipped ⟨_, _, hSkip⟩

theorem endsIn_token :
    EndsIn rules (.token parser) state outcome last ↔
      TokenEnds rules parser state outcome last := by
  refine ⟨EndsIn.tokenEnds, ?_⟩
  -- One depth does for the skip and for the parser.
  have hRow : ∀ {middle : State} {result : Outcome Match}
      {after : State},
      SkipsIn rules state (.matched ()) middle →
      EndsIn rules parser middle result after →
        ∃ depth events,
          Action.bind (skipWhitespace (run rules depth))
              (fun _ => parser.run rules depth) state =
            some ⟨result, after, events⟩ := by
    intro middle result after hSkip hParser
    rcases hSkip.exists_least with ⟨least, events, hSkip⟩
    rcases hParser.exists_least with ⟨least', more, hParser⟩
    have hFirst := hSkip _ (Nat.le_max_left least least')
    have hThen := hParser _ (Nat.le_max_right least least')
    exact ⟨_, _, bind_of_next hFirst hThen⟩
  intro hEnds
  cases hEnds with
  | matched hSkip hParser =>
      rcases hRow hSkip hParser with ⟨depth, events, hBoth⟩
      exact ⟨events, depth + 1, attempt_of_matched hBoth⟩
  | failed hSkip hParser =>
      rcases hRow hSkip hParser with ⟨depth, events, hBoth⟩
      exact ⟨events, depth + 1, attempt_of_failed hBoth⟩
  | fatal hSkip hParser =>
      rcases hRow hSkip hParser with ⟨depth, events, hBoth⟩
      exact ⟨events, depth + 1, attempt_of_fatal hBoth⟩
  | unskipped hSkip =>
      rcases hSkip with ⟨events, depth, hSkip⟩
      exact ⟨events, depth + 1,
        attempt_of_fatal (bind_of_fatal hSkip)⟩

/- Where a skip leaves nothing to skip, a token within a
  token is that token. -/
theorem endsIn_token_token
    (hAgain : ∀ middle,
      SkipsIn rules state (.matched ()) middle →
        SkipsIn rules middle (.matched ()) middle) :
    EndsIn rules (.token (.token parser)) state outcome
        last ↔
      EndsIn rules (.token parser) state outcome last := by
  rw [endsIn_token, endsIn_token]
  constructor
  · intro hOuter
    cases hOuter with
    | matched hSkip hInner =>
        cases hInner.tokenEnds with
        | matched hMore hParser =>
            rcases hMore.unique (hAgain _ hSkip) with ⟨_, rfl⟩
            exact .matched hSkip hParser
    | failed hSkip hInner =>
        cases hInner.tokenEnds with
        | failed hMore hParser =>
            rcases hMore.unique (hAgain _ hSkip) with ⟨_, rfl⟩
            rw [State.backTo_backTo]
            exact .failed hSkip hParser
    | fatal hSkip hInner =>
        cases hInner.tokenEnds with
        | fatal hMore hParser =>
            rcases hMore.unique (hAgain _ hSkip) with ⟨_, rfl⟩
            exact .fatal hSkip hParser
        | unskipped hMore =>
            cases (hMore.unique (hAgain _ hSkip)).1
    | unskipped hSkip => exact .unskipped hSkip
  · intro hToken
    cases hToken with
    | matched hSkip hParser =>
        exact .matched hSkip (endsIn_token.mpr
          (.matched (hAgain _ hSkip) hParser))
    | @failed middle last hSkip hParser =>
        rw [← State.backTo_backTo last middle state]
        exact .failed hSkip (endsIn_token.mpr
          (.failed (hAgain _ hSkip) hParser))
    | fatal hSkip hParser =>
        exact .fatal hSkip (endsIn_token.mpr
          (.fatal (hAgain _ hSkip) hParser))
    | unskipped hSkip => exact .unskipped hSkip

end Parser

end ByteGrammar

------------------------------------------------------------
-- Whole Skips and Parses
------------------------------------------------------------

namespace ByteGrammar

namespace Parser

open ByteGrammar.Action

variable {rules : Rules}
variable {state last : State}
variable {outcome : Outcome Unit}

/- The depth of a parse is enough for a skip by rules. -/
theorem SkipsIn.exists_skip
    (hRules : state.context.SkipsByRules)
    (hSkips : SkipsIn rules state outcome last) :
    ∃ events,
      Action.skip rules state =
        some ⟨outcome, last, events⟩ := by
  rcases hSkips with ⟨events, depth, hSkip⟩
  refine ⟨events, ?_⟩
  rcases hRules with hNone | ⟨comments, hInstalled⟩
  · rw [skipWhitespace_of_none hNone] at hSkip
    rw [Action.skip, skipWhitespace_of_none hNone, hSkip]
  · rw [skipWhitespace_of_installed hInstalled,
      Option.map_eq_some_iff] at hSkip
    rcases hSkip with ⟨step, hRun, hStep⟩
    have hParse :
        comments.skipper.parse rules
            state.withoutWhitespace = some step :=
      run_refines_of_unscoped depth comments.unscoped_skipper
        (size_le_depth rules _ _) _ _ hRun
    rw [Action.skip, skipWhitespace_of_installed hInstalled,
      hParse, Option.map_some, hStep]

/- A skip by rules comes to something. -/
theorem exists_skipsIn
    (rules : Rules)
    (hInside : state.cursor.Inside)
    (hRules : state.context.SkipsByRules) :
    ∃ outcome last, SkipsIn rules state outcome last := by
  rcases hRules with hNone | ⟨comments, hInstalled⟩
  · exact ⟨_, _, (skipsIn_default hNone).mpr ⟨rfl, rfl⟩⟩
  · have hComes :
        ComesTo rules state.cursor.data (fun _ => True)
          state.cursor.position comments.skipper _ _ :=
      comments.comesTo_skipper hInside
    rcases hComes with ⟨least, hComes⟩
    rcases hComes least (Nat.le_refl _) _
        (state.context.installWhitespace none) rfl rfl
        trivial with
      ⟨last, events, hRun, _⟩
    exact ⟨_, _, (skipsIn_installed hInstalled).mpr
      ⟨_, _, .of_run hRun, rfl, rfl⟩⟩

/-
  Where whitespace is blanks or what some rules of comments
  say, whatever their openers, a skip comes to an end and
  does not fail. After a skip that matched, another one
  matches and changes nothing. So a token within a token is
  that token: it matches, fails or raises a fatal error as
  that does, also where the skip itself does, and leaves the
  same state.
-/
theorem nested_tokens_specified
    (rules : Rules)
    {state : State}
    (hInside : state.cursor.Inside)
    (hRules : state.context.SkipsByRules) :
    (∃ outcome last events,
      Action.skip rules state = some ⟨outcome, last, events⟩ ∧
        outcome ≠ .failed) ∧
    (∀ last events,
      Action.skip rules state =
          some ⟨.matched (), last, events⟩ →
        ∃ more,
          Action.skip rules last =
            some ⟨.matched (), last, more⟩) ∧
    (∀ parser outcome last,
      EndsIn rules (.token (.token parser)) state outcome
          last ↔
        EndsIn rules (.token parser) state outcome last) ∧
    (∀ parser,
      state.context.options.loopDetection = true →
        ∃ outcome last events more,
          (token (token parser)).parse rules state =
              some ⟨outcome, last, events⟩ ∧
            (token parser).parse rules state =
              some ⟨outcome, last, more⟩) := by
  have hAgain : ∀ middle,
      SkipsIn rules state (.matched ()) middle →
        SkipsIn rules middle (.matched ()) middle :=
    fun middle hSkips => hSkips.again hInside hRules
  rcases exists_skipsIn rules hInside hRules with
    ⟨outcome, last, hSkips⟩
  rcases hSkips.exists_skip hRules with ⟨events, hSkip⟩
  refine ⟨⟨outcome, last, events, hSkip, ?_⟩, ?_, ?_, ?_⟩
  · rintro rfl
    exact skipWhitespace_ne_failed hSkip
  · intro last' events' hSkip'
    rw [hSkip] at hSkip'
    cases hSkip'
    have hLast : last.context.SkipsByRules := by
      rw [hSkips.context_eq]
      exact hRules
    exact (hAgain _ hSkips).exists_skip hLast
  · intro parser outcome' last'
    exact endsIn_token_token hAgain
  · intro parser hDetects
    rcases exists_yields rules (token parser) hDetects
        hInside with
      ⟨⟨outcome', last', more⟩, hYields⟩
    rcases (endsIn_token_token hAgain).mpr ⟨more, hYields⟩
      with ⟨events', hNested⟩
    exact ⟨outcome', last', events', more,
      hNested.parse_eq hDetects hInside,
      hYields.parse_eq hDetects hInside⟩

/- A comment without an opener, which takes the rest of its
  line and then nothing before the line feed. -/
theorem nested_tokens_specified_empty_opener :
    let comments : Comments := ⟨false, [""], []⟩
    let state : State :=
      ⟨.ofBytes [0x61, 0x62, 0x0A],
        (Context.fresh .standard).installWhitespace
          (some comments.skipper)⟩
    let feed : Parser := .byte 0x0A
    (state.cursor.Inside ∧ state.context.SkipsByRules) ∧
      ∃ last,
        (∃ events more,
          Action.skip .empty state =
              some ⟨.matched (), last, events⟩ ∧
            Action.skip .empty last =
              some ⟨.matched (), last, more⟩) ∧
          last.cursor.position = 2 ∧
          ∃ after,
            EndsIn .empty (.token (.token feed)) state
              (.matched ⟨2, 3, .byte 0x0A⟩) after := by
  intro comments state feed
  have hInside : state.cursor.Inside := Nat.zero_le _
  have hRules : state.context.SkipsByRules :=
    .inr ⟨comments, rfl⟩
  have hSpecified :=
    nested_tokens_specified .empty hInside hRules
  have hRun :
      (Action.skipWhitespace (Parser.run .empty 10)
          state).map
        (fun step =>
          (step.outcome.isMatched, step.state.cursor)) =
        some
          (true, ⟨[0x61, 0x62, 0x0A], 2, .origin, 3⟩) := by
    decide +kernel
  rcases Option.map_eq_some_iff.mp hRun with
    ⟨⟨_ | _ | _, ⟨cursor, context⟩, events⟩, hSkip, hStep⟩
  · cases hStep
    have hSkips : SkipsIn .empty state (.matched ()) _ :=
      ⟨events, 10, hSkip⟩
    rcases hSkips.exists_skip hRules with ⟨first, hFirst⟩
    rcases hSpecified.2.1 _ _ hFirst with ⟨more, hMore⟩
    have hFeed :
        EndsIn .empty feed
          ⟨⟨[0x61, 0x62, 0x0A], 2, .origin, 3⟩, context⟩
          (.matched ⟨2, 3, .byte 0x0A⟩)
          ⟨⟨[0x61, 0x62, 0x0A], 3, .origin, 3⟩, context⟩ :=
      ⟨[], 1, rfl⟩
    have hToken :
        EndsIn .empty (.token feed) state
          (.matched ⟨2, 3, .byte 0x0A⟩) _ :=
      endsIn_token.mpr (.matched hSkips hFeed)
    exact ⟨⟨hInside, hRules⟩, _, ⟨first, more, hFirst, hMore⟩,
      rfl, _, (hSpecified.2.2.1 _ _ _).mpr hToken⟩
  · cases hStep
  · cases hStep

end Parser

end ByteGrammar
