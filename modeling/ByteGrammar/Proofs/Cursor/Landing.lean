import ByteGrammar.Proofs.Cursor.Atomicity

/-
  A match stops where it leaves the cursor.

  What an action ensures of its matches is found from what
  its parts ensure of theirs. Parts that are optional must
  be atomic for this: after a failure, the match is one of
  nothing where the part was tried.

  Main declarations:
    * `Action.Ensures`, `Action.Ensures.bind`
    * `Action.Ensures.optionally_bind`
    * `Action.Lands`
    * `Parser.lands_run`
-/

------------------------------------------------------------
-- What a Match Comes With
------------------------------------------------------------

namespace ByteGrammar

namespace Action

variable {α β σ : Type}

/- If the action matches on a state, the value and the state
  it leaves are as asked. -/
structure Ensures
    (action : Action α)
    (state : State)
    (meets : α → State → Prop) :
    Prop where
  matched : ∀ value last events,
    action state = some ⟨.matched value, last, events⟩ →
      meets value last

namespace Ensures

variable {state : State}
variable {meets : α → State → Prop}

theorem pure
    {value : α}
    (hMeets : meets value state) :
    Ensures (pure value) state meets := by
  constructor
  intro result last events hStep
  cases hStep
  exact hMeets

theorem fail :
    Ensures fail state meets := by
  constructor
  intro value last events hStep
  cases hStep

theorem raise
    (fault : Fault) :
    Ensures (raise fault) state meets := by
  constructor
  intro value last events hStep
  cases hStep

/- What the first action ensures is what the next one starts
  from. -/
theorem bind
    {first : Action β}
    {next : β → Action α}
    {between : β → State → Prop}
    (hFirst : Ensures first state between)
    (hNext : ∀ value middle, between value middle →
      Ensures (next value) middle meets) :
    Ensures (bind first next) state meets := by
  constructor
  intro value last events hStep
  cases bind_ends hStep with
  | matched hMatched hMore =>
      have hBetween := hFirst.matched _ _ _ hMatched
      exact (hNext _ _ hBetween).matched _ _ _ hMore

/- An operation that matches is followed by what comes
  next. -/
theorem after
    {first : Action β}
    {next : β → Action α}
    {value : β}
    {middle : State}
    {events : List Event}
    (hFirst :
      first state = some ⟨.matched value, middle, events⟩)
    (hNext : Ensures (next value) middle meets) :
    Ensures (Action.bind first next) state meets := by
  have hOnly :
      Ensures first state fun found last =>
        found = value ∧ last = middle := by
    constructor
    intro found last reported hStep
    cases hFirst.symm.trans hStep
    exact ⟨rfl, rfl⟩
  apply hOnly.bind
  rintro found last ⟨rfl, rfl⟩
  exact hNext

/- Nothing is asked. -/
theorem nothing
    (action : Action α)
    (state : State) :
    Ensures action state fun _ _ => True := by
  constructor
  intro value last events hStep
  trivial

/- An action of which nothing is known may come first. -/
theorem bind_any
    {first : Action β}
    {next : β → Action α}
    (hNext : ∀ value middle,
      Ensures (next value) middle meets) :
    Ensures (Action.bind first next) state meets := by
  apply bind (nothing first state)
  intro value middle _
  exact hNext value middle

/- After an atomic action that failed, the cursor stands
  where the action was tried. -/
theorem optionally_bind
    {first : Action β}
    {next : Option β → Action α}
    {between : β → State → Prop}
    (hAtomic : Atomic first)
    (hFirst : Ensures first state between)
    (hMatched : ∀ value middle, between value middle →
      Ensures (next (some value)) middle meets)
    (hFailed : ∀ middle,
      middle.cursor.checkpoint = state.cursor.checkpoint →
        Ensures (next none) middle meets) :
    Ensures (Action.bind (optionally first) next) state
      meets := by
  constructor
  intro value last events hStep
  cases bind_ends hStep with
  | matched hOptional hMore =>
      cases optionally_ends hOptional with
      | matched hAction =>
          have hBetween := hFirst.matched _ _ _ hAction
          exact (hMatched _ _ hBetween).matched _ _ _ hMore
      | failed hAction =>
          have hBack := hAtomic _ _ _ hAction
          exact (hFailed _ hBack).matched _ _ _ hMore

theorem attempt
    {action : Action α}
    (hAction : Ensures action state meets) :
    Ensures (attempt action) state meets := by
  constructor
  intro value last events hStep
  cases attempt_ends hStep with
  | matched hMatched => exact hAction.matched _ _ _ hMatched

/- What follows the first action decides, as far as there is
  a match at all. -/
theorem bindReverting
    {first : Action β}
    {next : β → Action α}
    {between : β → State → Prop}
    (hFirst : Ensures first state between)
    (hNext : ∀ value middle, between value middle →
      Ensures (next value) middle meets) :
    Ensures (bindReverting first next) state meets := by
  constructor
  intro value last events hStep
  cases bindReverting_ends hStep with
  | matched hMatched hMore =>
      have hBetween := hFirst.matched _ _ _ hMatched
      exact (hNext _ _ hBetween).matched _ _ _ hMore

theorem backtrack
    (saved : Checkpoint) :
    Ensures (backtrack saved) state meets := by
  unfold Action.backtrack
  exact after rfl .fail

theorem bracketed
    {action : Action α}
    (node : Node)
    (label : String)
    (position : Nat)
    (hAction : Ensures action state meets) :
    Ensures (bracketed node label position action) state
      meets := by
  constructor
  intro value last events hStep
  cases bracketed_ends hStep with
  | inner hInner => exact hAction.matched _ _ _ hInner

/- What each pass keeps, the loop ends with. -/
theorem loop
    {pass : σ → Action (Pass σ α)}
    (holds : σ → State → Prop)
    (hPass : ∀ taken state, holds taken state →
      Ensures (pass taken) state fun result last =>
        match result with
        | .again next => holds next last
        | .done result => meets result last)
    {start : σ}
    (hStart : holds start state) :
    Ensures (loop pass start) state meets := by
  have hIterate : ∀ limit taken state, holds taken state →
      Ensures (iterate pass limit taken) state meets := by
    intro limit
    induction limit with
    | zero =>
        intro taken state _
        constructor
        intro value last events hStep
        cases hStep
    | succ limit ih =>
        intro taken state hHolds
        apply bind (hPass taken state hHolds)
        intro result middle hResult
        cases result with
        | again next => exact ih next middle hResult
        | done result => exact pure hResult
  unfold Action.loop
  apply after rfl
  exact hIterate _ _ _ hStart

end Ensures

end Action

end ByteGrammar

------------------------------------------------------------
-- Landing
------------------------------------------------------------

namespace ByteGrammar

namespace Action

/- A match stops where the cursor then stands. -/
def Lands
    (action : Action Match) :
    Prop :=
  ∀ state, Ensures action state fun found last =>
    found.stop = last.cursor.position

namespace Lands

variable {action second : Action Match}

theorem scan
    (terminal : Terminal) :
    Lands (scan terminal) := by
  intro state
  unfold Action.scan
  apply Ensures.after rfl
  apply Ensures.after rfl
  dsimp only
  cases terminal.scan state.cursor.remaining with
  | hit length value =>
      apply Ensures.after rfl
      apply Ensures.after rfl
      exact .pure rfl
  | still value => exact .pure rfl
  | broken length =>
      apply Ensures.after rfl
      exact .fail
  | miss => exact .fail

theorem sequence
    (join : Value → Value → Value)
    (first : Action Match)
    (hSecond : Lands second) :
    Lands (sequence join first second) := by
  intro state
  apply Ensures.bindReverting (.nothing first state)
  intro left middle _
  apply (hSecond middle).bind
  intro right last hStop
  exact .pure hStop

theorem between
    (opening content : Action Match)
    {closing : Action Match}
    (hClosing : Lands closing) :
    Lands (between opening content closing) := by
  intro state
  apply Ensures.bindReverting (.nothing opening state)
  intro left middle _
  apply Ensures.bind_any
  intro inner after
  apply (hClosing after).bind
  intro right last hStop
  exact .pure hStop

theorem orElse
    {first : Action Match}
    (hAtomic : Atomic first)
    (hFirst : Lands first)
    (hSecond : Lands second) :
    Lands (orElse first second) := by
  intro state
  apply Ensures.optionally_bind hAtomic (hFirst state)
  · intro found middle hStop
    exact .pure hStop
  · intro middle _
    exact hSecond middle

theorem either
    {first : Action Match}
    (hFirst : Lands first)
    (hSecond : Lands second) :
    Lands (either first second) :=
  orElse (atomic_attempt first)
    (fun state => (hFirst state).attempt) hSecond

theorem orDefault
    (fallback : Value)
    (hAtomic : Atomic action)
    (hAction : Lands action) :
    Lands (orDefault fallback action) := by
  intro state
  unfold Action.orDefault
  apply Ensures.after rfl
  apply Ensures.optionally_bind hAtomic (hAction state)
  · intro found middle hStop
    exact .pure hStop
  · intro middle hBack
    have hPosition := congrArg Checkpoint.position hBack
    exact .pure hPosition.symm

theorem followedBy
    (lookahead : Action Match)
    (hAction : Lands action) :
    Lands (followedBy action lookahead) := by
  intro state
  apply (hAction state).bindReverting
  intro found middle hStop
  apply Ensures.after rfl
  apply Ensures.bind_any
  intro seen after
  apply Ensures.after rfl
  exact .pure hStop

theorem peek
    (action : Action Match) :
    Lands (peek action) := by
  intro state
  unfold Action.peek
  apply Ensures.after rfl
  apply Ensures.bind_any
  intro found middle
  apply Ensures.after rfl
  exact .pure rfl

theorem absent
    (hAtomic : Atomic action) :
    Lands (absent action) := by
  intro state
  unfold Action.absent
  apply Ensures.after rfl
  apply Ensures.optionally_bind hAtomic (.nothing _ _)
  · intro found middle _
    apply Ensures.after rfl
    exact .fail
  · intro middle hBack
    have hPosition := congrArg Checkpoint.position hBack
    exact .pure hPosition.symm

theorem expect
    (message : String)
    (hAtomic : Atomic action)
    (hAction : Lands action) :
    Lands (expect message action) := by
  intro state
  unfold Action.expect
  apply Ensures.after rfl
  apply Ensures.optionally_bind hAtomic (hAction state)
  · intro found middle hStop
    exact .pure hStop
  · intro middle _
    apply Ensures.after rfl
    exact .raise _

theorem reject
    (message : String)
    (hAtomic : Atomic action) :
    Lands (reject message action) := by
  intro state
  unfold Action.reject
  apply Ensures.after rfl
  apply Ensures.optionally_bind hAtomic (.nothing _ _)
  · intro found middle _
    apply Ensures.after rfl
    apply Ensures.after rfl
    exact .raise _
  · intro middle hBack
    have hPosition := congrArg Checkpoint.position hBack
    exact .pure hPosition.symm

theorem map
    (change : Value → Value)
    (hAction : Lands action) :
    Lands (map change action) := by
  intro state
  unfold Action.map
  apply (hAction state).bind
  intro found last hStop
  exact .pure hStop

theorem filter
    (test : Value → Bool)
    (hAction : Lands action) :
    Lands (filter test action) := by
  intro state
  apply (hAction state).bindReverting
  intro found last hStop
  split
  · exact .pure hStop
  · exact .fail

theorem capture
    (hAction : Lands action) :
    Lands (capture action) := by
  intro state
  unfold Action.capture
  apply (hAction state).bind
  intro found last hStop
  apply Ensures.after rfl
  exact .pure hStop

theorem view
    (seen : View)
    (hAction : Lands action) :
    Lands (view seen action) := by
  intro state
  unfold Action.view
  apply (hAction state).bind
  intro found last hStop
  apply Ensures.after rfl
  exact .pure hStop

theorem convert
    (conversion : Conversion)
    (hAction : Lands action) :
    Lands (convert conversion action) := by
  intro state
  apply (hAction state).bindReverting
  intro found last hStop
  apply Ensures.after rfl
  apply Ensures.after rfl
  dsimp only
  split
  · exact .pure hStop
  · exact .fail
  · apply Ensures.after rfl
    exact .fail

end Lands

end Action

end ByteGrammar

------------------------------------------------------------
-- Loops, Scopes and Rules
------------------------------------------------------------

namespace ByteGrammar

namespace Action

namespace Lands

variable {action item : Action Match}
variable {run : Parser → Action Match}

theorem repeated
    (min : Nat)
    (max : Option Nat)
    (action : Action Match) :
    Lands (repeated min max action) := by
  intro state
  unfold Action.repeated
  apply Ensures.after rfl
  apply Ensures.bind_any
  intro values last
  apply Ensures.after rfl
  split
  · split
    · exact .fail
    · exact .backtrack _
  · exact .pure rfl

theorem takeUntil
    (orEnd : Bool)
    (terminator : Action Match) :
    Lands (takeUntil orEnd terminator) := by
  intro state
  apply Ensures.attempt
  apply Ensures.after rfl
  apply Ensures.bind_any
  intro _ last
  apply Ensures.after rfl
  exact .pure rfl

/- Between two passes, the cursor stands where the last item
  stops: what is tried after it goes back there. -/
theorem alternate
    {γ : Type}
    (still : Nat × γ → Checkpoint → Nat)
    (single : Match → γ)
    (extend : γ → Match → Match → γ)
    (value : γ → Value)
    {separator : Action Match}
    (hSeparator : Atomic separator)
    (hAtomic : Atomic item)
    (hItem : Lands item) :
    Lands
      (alternate still single extend value
        item separator) := by
  intro state
  apply (hItem state).bind
  intro first middle hFirst
  have hLoop :
      Ensures
        (loop (alternatePass still extend item separator)
          (first.stop, single first))
        middle fun taken last =>
          taken.1 = last.cursor.position := by
    apply Ensures.loop (fun taken last =>
      taken.1 = last.cursor.position) _ hFirst
    intro taken state hTaken
    unfold alternatePass
    apply Ensures.after rfl
    apply Ensures.optionally_bind hSeparator (.nothing _ _)
    · intro symbol middle _
      apply Ensures.optionally_bind hAtomic (hItem middle)
      · intro found last hStop
        dsimp only
        split
        · apply Ensures.after rfl
          exact .pure hTaken
        · exact .pure hStop
      · intro last _
        apply Ensures.after rfl
        exact .pure hTaken
    · intro last hBack
      have hPosition := congrArg Checkpoint.position hBack
      exact .pure (hTaken.trans hPosition.symm)
  apply hLoop.bind
  intro taken last hStop
  exact .pure hStop

theorem separatedList
    {separator : Action Match}
    (hSeparator : Atomic separator)
    (hAtomic : Atomic item)
    (hItem : Lands item) :
    Lands (separatedList item separator) := by
  rw [separatedList_eq_alternate]
  exact alternate _ _ _ _ hSeparator hAtomic hItem

theorem chain
    (combine : Value → Value → Value → Value)
    {operand operator : Action Match}
    (hOperator : Atomic operator)
    (hAtomic : Atomic operand)
    (hOperand : Lands operand) :
    Lands (chain combine operand operator) := by
  rw [chain_eq_alternate]
  exact alternate _ _ _ _ hOperator hAtomic hOperand

/- A scope changes nothing about the cursor. -/
theorem within
    {enter : Context → Context}
    {leave : Context → Context → Context}
    (hAction : Lands action) :
    Lands (within enter leave action) := by
  intro state
  constructor
  intro found last events hStep
  cases within_ends hStep with
  | inner hInner =>
      have hStop := (hAction _).matched _ _ _ hInner
      exact hStop

theorem withWhitespace
    (whitespace : Option Parser)
    (hAction : Lands action) :
    Lands (withWhitespace whitespace action) := by
  unfold Action.withWhitespace
  exact within hAction

theorem withFlag
    (name : String)
    (on : Bool)
    (hAction : Lands action) :
    Lands (withFlag name on action) := by
  unfold Action.withFlag
  exact within hAction

theorem token
    (hRun : ∀ parser, Lands (run parser))
    (parser : Parser) :
    Lands (token run parser) := by
  intro state
  apply Ensures.attempt
  apply Ensures.bind_any
  intro _ middle
  exact hRun parser middle

theorem select
    (condition : Condition)
    {other : Action Match}
    (hAction : Lands action)
    (hOther : Lands other) :
    Lands (select condition action other) := by
  intro state
  unfold Action.select
  apply Ensures.after rfl
  split
  · exact hAction state
  · exact hOther state

theorem label
    (id : ParserId)
    (name : String)
    (hAction : Lands action) :
    Lands (label id name action) := by
  intro state
  unfold Action.label
  apply Ensures.after rfl
  apply ((hAction state).bracketed (.label id) name _).bind
  intro found last hStop
  exact .pure hStop

theorem guarded
    (id : ParserId)
    (here : Nat)
    (hAction : Lands action) :
    Lands (guarded id here action) := by
  intro state
  constructor
  intro found last events hStep
  cases guarded_ends hStep with
  | undetected _ hAlone => exact (hAction _).matched _ _ _ hAlone
  | idle _ _ hInner =>
      have hStop := (hAction _).matched _ _ _ hInner
      exact hStop

theorem callRule
    (rules : Rules)
    (hRun : ∀ parser, Lands (run parser))
    (handle : Handle) :
    Lands (callRule rules run handle) := by
  intro state
  unfold Action.callRule
  apply Ensures.after rfl
  split
  · exact .raise _
  · apply Ensures.bracketed
    exact guarded _ _ (hRun _) state

end Lands

end Action

end ByteGrammar

------------------------------------------------------------
-- Parsers
------------------------------------------------------------

namespace ByteGrammar

namespace Parser

open ByteGrammar.Action

/- A node lands where what it runs is atomic and lands. -/
theorem lands_step
    (rules : Rules)
    {run : Parser → Action Match}
    (hAtomic : ∀ parser, Atomic (run parser))
    (hRun : ∀ parser, Lands (run parser))
    (parser : Parser) :
    Lands (parser.step rules run) := by
  cases parser with
  | terminal leaf => exact .scan leaf
  | sequence join first second =>
      exact .sequence join _ (hRun second)
  | between opening content closing =>
      exact .between _ _ (hRun closing)
  | either first second =>
      exact .either (hRun first) (hRun second)
  | orElse first second =>
      exact .orElse (hAtomic first) (hRun first)
        (hRun second)
  | map change parser => exact .map change (hRun parser)
  | filter test parser => exact .filter test (hRun parser)
  | repeated min max parser => exact .repeated min max _
  | orDefault fallback parser =>
      exact .orDefault fallback (hAtomic parser)
        (hRun parser)
  | followedBy parser lookahead =>
      exact .followedBy _ (hRun parser)
  | peek parser => exact .peek _
  | absent parser => exact .absent (hAtomic parser)
  | capture parser => exact .capture (hRun parser)
  | view seen parser => exact .view seen (hRun parser)
  | convert conversion parser =>
      exact .convert conversion (hRun parser)
  | expect message parser =>
      exact .expect message (hAtomic parser) (hRun parser)
  | reject message parser =>
      exact .reject message (hAtomic parser)
  | takeUntil orEnd terminator => exact .takeUntil orEnd _
  | rule handle => exact .callRule rules hRun handle
  | label id name parser =>
      exact .label id name (hRun parser)
  | token parser => exact .token hRun parser
  | withWhitespace whitespace parser =>
      exact .withWhitespace (some whitespace) (hRun parser)
  | defaultWhitespace parser =>
      exact .withWhitespace none (hRun parser)
  | withFlag name on parser =>
      exact .withFlag name on (hRun parser)
  | select condition whenTrue whenFalse =>
      exact .select condition (hRun whenTrue)
        (hRun whenFalse)
  | separatedList item separator =>
      exact .separatedList (hAtomic separator)
        (hAtomic item) (hRun item)
  | chain combine operand operator =>
      exact .chain combine (hAtomic operator)
        (hAtomic operand) (hRun operand)

/- A match stops where it leaves the cursor. -/
theorem lands_run
    (rules : Rules)
    (depth : Nat)
    (parser : Parser) :
    Lands (parser.run rules depth) := by
  induction depth generalizing parser with
  | zero =>
      intro state
      constructor
      intro found last events hStep
      cases hStep
  | succ depth ih =>
      exact lands_step rules (atomic_run rules depth) ih
        parser

end Parser

end ByteGrammar
