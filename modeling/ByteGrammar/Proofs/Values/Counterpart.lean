import ByteGrammar.Engine.Parse
import ByteGrammar.Grammar.Forms
import ByteGrammar.Proofs.Context.Frame
import ByteGrammar.Proofs.Engine.Reach
import ByteGrammar.Proofs.Values.SameSpan

/-
  Values do not steer matching.

  Grammars of one shape that differ in what they make of
  values match the same stretches of the same inputs. Where
  a filter looks at a value, the grammars have to be the
  same, down to the rules that are reached from there.

  Main declarations:
    * `Rules.AgreeFrom`
    * `Parser.Counterpart`, `Rules.Counterpart`
    * `Parser.counterpart_self`
    * `Parser.parallel_run`
    * `Step.extent`, `Parser.run_ignores_values`
    * `Parser.verdict_tryParse_eq`
-/

------------------------------------------------------------
-- Rules That Are Bound Alike
------------------------------------------------------------

namespace ByteGrammar

namespace Rules

/- The rules that a parser comes to have the same targets in
  both tables. -/
def AgreeFrom
    (rules rules' : Rules)
    (parser : Parser) :
    Prop :=
  ∀ handle,
    rules.Reaches Parser.children [parser] (.rule handle) →
      rules.target? handle = rules'.target? handle

namespace AgreeFrom

variable {rules rules' : Rules}
variable {parser part : Parser}
variable {handle : Handle}

/- What is reached from a parser that is reached. -/
theorem mono
    (hAgree : AgreeFrom rules rules' parser)
    (hPart : rules.Reaches Parser.children [parser] part) :
    AgreeFrom rules rules' part := by
  have hFrom : ∀ node,
      rules.Reaches Parser.children [part] node →
        rules.Reaches Parser.children [parser] node := by
    intro node hNode
    induction hNode with
    | root hRoot =>
        cases List.mem_singleton.mp hRoot
        exact hPart
    | node _ hChild ih => exact ih.node hChild
    | target _ hTarget ih => exact ih.target hTarget
  intro handle hRule
  exact hAgree handle (hFrom _ hRule)

theorem child
    (hAgree : AgreeFrom rules rules' parser)
    (hPart : part ∈ parser.children) :
    AgreeFrom rules rules' part := by
  apply hAgree.mono
  exact Reaches.node (.root List.mem_cons_self) hPart

theorem target_eq
    (hAgree : AgreeFrom rules rules' (.rule handle)) :
    rules.target? handle = rules'.target? handle :=
  hAgree handle (.root List.mem_cons_self)

theorem target
    {target : Parser}
    (hAgree : AgreeFrom rules rules' (.rule handle))
    (hTarget : rules.target? handle = some target) :
    AgreeFrom rules rules' target := by
  apply hAgree.mono
  exact Reaches.target (.root List.mem_cons_self) hTarget

end AgreeFrom

end Rules

end ByteGrammar

------------------------------------------------------------
-- Counterparts
------------------------------------------------------------

namespace ByteGrammar

/-
  Parsers of one shape that differ at most in what they make
  of values: in the functions that change, join, combine or
  view them, in constants, and in what labels are called.
  Parts that do not differ at all may look at values.
-/
inductive Parser.Counterpart
    (rules rules' : Rules) :
    Parser → Parser → Prop where
  | same {parser : Parser}
      (hAgree : Rules.AgreeFrom rules rules' parser) :
      Counterpart rules rules' parser parser
  | terminal (leaf : Terminal) :
      Counterpart rules rules' (.terminal leaf)
        (.terminal leaf)
  | succeed (value value' : Value) :
      Counterpart rules rules' (.terminal (.succeed value))
        (.terminal (.succeed value'))
  | sequence (join join' : Value → Value → Value)
      {first first' second second' : Parser}
      (hFirst : Counterpart rules rules' first first')
      (hSecond : Counterpart rules rules' second second') :
      Counterpart rules rules'
        (.sequence join first second)
        (.sequence join' first' second')
  | between
      {opening opening' content content' closing closing' :
        Parser}
      (hOpening :
        Counterpart rules rules' opening opening')
      (hContent :
        Counterpart rules rules' content content')
      (hClosing :
        Counterpart rules rules' closing closing') :
      Counterpart rules rules'
        (.between opening content closing)
        (.between opening' content' closing')
  | either {first first' second second' : Parser}
      (hFirst : Counterpart rules rules' first first')
      (hSecond : Counterpart rules rules' second second') :
      Counterpart rules rules' (.either first second)
        (.either first' second')
  | orElse {first first' second second' : Parser}
      (hFirst : Counterpart rules rules' first first')
      (hSecond : Counterpart rules rules' second second') :
      Counterpart rules rules' (.orElse first second)
        (.orElse first' second')
  | map (change change' : Value → Value)
      {part part' : Parser}
      (hPart : Counterpart rules rules' part part') :
      Counterpart rules rules' (.map change part)
        (.map change' part')
  | repeated (min : Nat) (max : Option Nat)
      {part part' : Parser}
      (hPart : Counterpart rules rules' part part') :
      Counterpart rules rules' (.repeated min max part)
        (.repeated min max part')
  | orDefault (fallback fallback' : Value)
      {part part' : Parser}
      (hPart : Counterpart rules rules' part part') :
      Counterpart rules rules' (.orDefault fallback part)
        (.orDefault fallback' part')
  | followedBy {part part' lookahead lookahead' : Parser}
      (hPart : Counterpart rules rules' part part')
      (hLookahead :
        Counterpart rules rules' lookahead lookahead') :
      Counterpart rules rules' (.followedBy part lookahead)
        (.followedBy part' lookahead')
  | peek {part part' : Parser}
      (hPart : Counterpart rules rules' part part') :
      Counterpart rules rules' (.peek part) (.peek part')
  | absent {part part' : Parser}
      (hPart : Counterpart rules rules' part part') :
      Counterpart rules rules' (.absent part)
        (.absent part')
  | capture {part part' : Parser}
      (hPart : Counterpart rules rules' part part') :
      Counterpart rules rules' (.capture part)
        (.capture part')
  | view (seen seen' : View) {part part' : Parser}
      (hPart : Counterpart rules rules' part part') :
      Counterpart rules rules' (.view seen part)
        (.view seen' part')
  | convert (conversion : Conversion) {part part' : Parser}
      (hPart : Counterpart rules rules' part part') :
      Counterpart rules rules' (.convert conversion part)
        (.convert conversion part')
  | expect (message : String) {part part' : Parser}
      (hPart : Counterpart rules rules' part part') :
      Counterpart rules rules' (.expect message part)
        (.expect message part')
  | reject (message : String) {part part' : Parser}
      (hPart : Counterpart rules rules' part part') :
      Counterpart rules rules' (.reject message part)
        (.reject message part')
  | takeUntil (orEnd : Bool) {part part' : Parser}
      (hPart : Counterpart rules rules' part part') :
      Counterpart rules rules' (.takeUntil orEnd part)
        (.takeUntil orEnd part')
  | rule (handle : Handle) :
      Counterpart rules rules' (.rule handle)
        (.rule handle)
  | label (id id' : ParserId) (name name' : String)
      {part part' : Parser}
      (hPart : Counterpart rules rules' part part') :
      Counterpart rules rules' (.label id name part)
        (.label id' name' part')
  | token {part part' : Parser}
      (hPart : Counterpart rules rules' part part') :
      Counterpart rules rules' (.token part) (.token part')
  | withWhitespace
      {whitespace whitespace' part part' : Parser}
      (hWhitespace :
        Counterpart rules rules' whitespace whitespace')
      (hPart : Counterpart rules rules' part part') :
      Counterpart rules rules'
        (.withWhitespace whitespace part)
        (.withWhitespace whitespace' part')
  | defaultWhitespace {part part' : Parser}
      (hPart : Counterpart rules rules' part part') :
      Counterpart rules rules' (.defaultWhitespace part)
        (.defaultWhitespace part')
  | withFlag (name : String) (on : Bool)
      {part part' : Parser}
      (hPart : Counterpart rules rules' part part') :
      Counterpart rules rules' (.withFlag name on part)
        (.withFlag name on part')
  | select (condition : Condition)
      {whenTrue whenTrue' whenFalse whenFalse' : Parser}
      (hTrue : Counterpart rules rules' whenTrue whenTrue')
      (hFalse :
        Counterpart rules rules' whenFalse whenFalse') :
      Counterpart rules rules'
        (.select condition whenTrue whenFalse)
        (.select condition whenTrue' whenFalse')
  | separatedList {item item' separator separator' : Parser}
      (hItem : Counterpart rules rules' item item')
      (hSeparator :
        Counterpart rules rules' separator separator') :
      Counterpart rules rules'
        (.separatedList item separator)
        (.separatedList item' separator')
  | chain (combine combine' : Value → Value → Value → Value)
      {operand operand' operator operator' : Parser}
      (hOperand :
        Counterpart rules rules' operand operand')
      (hOperator :
        Counterpart rules rules' operator operator') :
      Counterpart rules rules'
        (.chain combine operand operator)
        (.chain combine' operand' operator')

/- Tables of rules that have the same identities, by which
  errors and contexts name them, and targets that are
  counterparts of each other. -/
structure Rules.Counterpart
    (rules rules' : Rules) :
    Prop where
  ids : rules.ids = rules'.ids
  target : ∀ handle,
    Option.Rel (Parser.Counterpart rules rules')
      (rules.target? handle) (rules'.target? handle)

namespace Rules.Counterpart

variable {rules rules' : Rules}

theorem idOf_eq
    (hRules : Rules.Counterpart rules rules')
    (handle : Handle) :
    rules.idOf handle = rules'.idOf handle := by
  unfold Rules.idOf
  rw [hRules.ids]

theorem length_eq
    (hRules : Rules.Counterpart rules rules') :
    rules.slots.length = rules'.slots.length := by
  simpa [Rules.ids] using congrArg List.length hRules.ids

end Rules.Counterpart

namespace Parser

variable {rules rules' : Rules}
variable {parser parser' : Parser}

/- Whether a node looks at a value to decide. -/
def isFilter :
    Parser → Bool
  | filter _ _ => true
  | _ => false

/- A parser that looks at no value is its own
  counterpart. -/
theorem counterpart_self
    (hBlind : parser.Every (·.isFilter = false)) :
    Counterpart rules rules' parser parser := by
  induction parser with
  | terminal leaf => exact .terminal leaf
  | sequence join first second ihFirst ihSecond =>
      unfold Every at hBlind
      exact .sequence join join (ihFirst hBlind.2.1)
        (ihSecond hBlind.2.2)
  | between opening content closing ihOpening ihContent
      ihClosing =>
      unfold Every at hBlind
      exact .between (ihOpening hBlind.2.1)
        (ihContent hBlind.2.2.1) (ihClosing hBlind.2.2.2)
  | either first second ihFirst ihSecond =>
      unfold Every at hBlind
      exact .either (ihFirst hBlind.2.1) (ihSecond hBlind.2.2)
  | orElse first second ihFirst ihSecond =>
      unfold Every at hBlind
      exact .orElse (ihFirst hBlind.2.1) (ihSecond hBlind.2.2)
  | map change part ih =>
      unfold Every at hBlind
      exact .map change change (ih hBlind.2)
  | filter test part =>
      cases hBlind.node
  | repeated min max part ih =>
      unfold Every at hBlind
      exact .repeated min max (ih hBlind.2)
  | orDefault fallback part ih =>
      unfold Every at hBlind
      exact .orDefault fallback fallback (ih hBlind.2)
  | followedBy part lookahead ihPart ihLookahead =>
      unfold Every at hBlind
      exact .followedBy (ihPart hBlind.2.1)
        (ihLookahead hBlind.2.2)
  | peek part ih =>
      unfold Every at hBlind
      exact .peek (ih hBlind.2)
  | absent part ih =>
      unfold Every at hBlind
      exact .absent (ih hBlind.2)
  | capture part ih =>
      unfold Every at hBlind
      exact .capture (ih hBlind.2)
  | view seen part ih =>
      unfold Every at hBlind
      exact .view seen seen (ih hBlind.2)
  | convert conversion part ih =>
      unfold Every at hBlind
      exact .convert conversion (ih hBlind.2)
  | expect message part ih =>
      unfold Every at hBlind
      exact .expect message (ih hBlind.2)
  | reject message part ih =>
      unfold Every at hBlind
      exact .reject message (ih hBlind.2)
  | takeUntil orEnd part ih =>
      unfold Every at hBlind
      exact .takeUntil orEnd (ih hBlind.2)
  | rule handle => exact .rule handle
  | label id name part ih =>
      unfold Every at hBlind
      exact .label id id name name (ih hBlind.2)
  | token part ih =>
      unfold Every at hBlind
      exact .token (ih hBlind.2)
  | withWhitespace whitespace part ihWhitespace ihPart =>
      unfold Every at hBlind
      exact .withWhitespace (ihWhitespace hBlind.2.1)
        (ihPart hBlind.2.2)
  | defaultWhitespace part ih =>
      unfold Every at hBlind
      exact .defaultWhitespace (ih hBlind.2)
  | withFlag name on part ih =>
      unfold Every at hBlind
      exact .withFlag name on (ih hBlind.2)
  | select condition whenTrue whenFalse ihTrue ihFalse =>
      unfold Every at hBlind
      exact .select condition (ihTrue hBlind.2.1)
        (ihFalse hBlind.2.2)
  | separatedList item separator ihItem ihSeparator =>
      unfold Every at hBlind
      exact .separatedList (ihItem hBlind.2.1)
        (ihSeparator hBlind.2.2)
  | chain combine operand operator ihOperand ihOperator =>
      unfold Every at hBlind
      exact .chain combine combine (ihOperand hBlind.2.1)
        (ihOperator hBlind.2.2)

/- Counterparts have as many nodes. -/
theorem Counterpart.size_eq
    (hParser : Counterpart rules rules' parser parser') :
    parser.size = parser'.size := by
  induction hParser <;> simp only [size, *]

end Parser

end ByteGrammar

------------------------------------------------------------
-- Runs Side by Side
------------------------------------------------------------

namespace ByteGrammar

namespace Parser

open ByteGrammar.Action

variable {rules rules' : Rules}
variable {run run' : Parser → Action Match}

/- A node that does not differ yields the same values.
  What its tokens skip may differ, but yields nothing. -/
theorem parallel_step_same
    (hRules : Rules.Counterpart rules rules')
    (hSame : ∀ parser, Rules.AgreeFrom rules rules' parser →
      Parallel (Counterpart rules rules') Eq (run parser)
        (run' parser))
    (hRun : ∀ parser parser',
      Counterpart rules rules' parser parser' →
        Parallel (Counterpart rules rules') Match.SameSpan
          (run parser) (run' parser'))
    {parser : Parser}
    (hAgree : Rules.AgreeFrom rules rules' parser) :
    Parallel (Counterpart rules rules') Eq
      (parser.step rules run) (parser.step rules' run') := by
  have hParts : ∀ part ∈ parser.parts,
      Parallel (Counterpart rules rules') Eq (run part)
        (run' part) := by
    intro part hPart
    apply hSame part
    exact hAgree.child (mem_children_of_mem_parts hPart)
  cases parser with
  | rule handle =>
      apply Parallel.callRule (hRules.idOf_eq handle)
      rw [← hAgree.target_eq]
      cases hTarget : rules.target? handle with
      | none => exact .none
      | some target =>
          exact .some (hSame target (hAgree.target hTarget))
  | token part =>
      refine Parallel.token ?_ (hParts part (by simp [parts]))
      intro whitespace whitespace' hPaired
      exact (hRun _ _ hPaired).forget
  | withWhitespace whitespace part =>
      have hWhitespace :
          Rules.AgreeFrom rules rules' whitespace :=
        hAgree.child (by simp [children])
      exact Parallel.withWhitespace
        (.some (.same hWhitespace))
        (hParts part (by simp [parts]))
  | defaultWhitespace part =>
      exact Parallel.withWhitespace .none
        (hParts part (by simp [parts]))
  | withFlag name on part =>
      exact Parallel.withFlag name on
        (hParts part (by simp [parts]))
  | select condition whenTrue whenFalse =>
      exact Parallel.select condition
        (hParts whenTrue (by simp [parts]))
        (hParts whenFalse (by simp [parts]))
  | _ =>
      exact (parallel_cursorCongruence _).step
        Cursor.likeness_eq rules rfl hParts

/- A node and its counterpart match the same stretches where
  the counterparts that they run do. -/
theorem parallel_step
    (hRules : Rules.Counterpart rules rules')
    (hSame : ∀ parser, Rules.AgreeFrom rules rules' parser →
      Parallel (Counterpart rules rules') Eq (run parser)
        (run' parser))
    (hRun : ∀ parser parser',
      Counterpart rules rules' parser parser' →
        Parallel (Counterpart rules rules') Match.SameSpan
          (run parser) (run' parser'))
    {parser parser' : Parser}
    (hParser : Counterpart rules rules' parser parser') :
    Parallel (Counterpart rules rules') Match.SameSpan
      (parser.step rules run) (parser'.step rules' run') := by
  cases hParser with
  | same hAgree =>
      have hEnds :=
        parallel_step_same hRules hSame hRun hAgree
      exact hEnds.sameSpan
  | terminal leaf =>
      have hScan :=
        (parallel_cursorCongruence
          (Counterpart rules rules')).scan
          Cursor.likeness_eq.outlook leaf
      exact hScan.sameSpan
  | succeed value value' =>
      exact Parallel.scan_succeed value value'
  | sequence join join' hFirst hSecond =>
      exact Parallel.sequence join join' (hRun _ _ hFirst)
        (hRun _ _ hSecond)
  | between hOpening hContent hClosing =>
      exact Parallel.between (hRun _ _ hOpening)
        (hRun _ _ hContent) (hRun _ _ hClosing)
  | either hFirst hSecond =>
      exact Parallel.either (hRun _ _ hFirst)
        (hRun _ _ hSecond)
  | orElse hFirst hSecond =>
      exact Parallel.orElse (hRun _ _ hFirst)
        (hRun _ _ hSecond)
  | map change change' hPart =>
      exact Parallel.map change change' (hRun _ _ hPart)
  | repeated min max hPart =>
      exact Parallel.repeated min max (hRun _ _ hPart)
  | orDefault fallback fallback' hPart =>
      exact Parallel.orDefault fallback fallback'
        (hRun _ _ hPart)
  | followedBy hPart hLookahead =>
      exact Parallel.followedBy (hRun _ _ hPart)
        (hRun _ _ hLookahead)
  | peek hPart =>
      exact Parallel.peek (hRun _ _ hPart)
  | absent hPart =>
      exact Parallel.absent (hRun _ _ hPart)
  | capture hPart =>
      exact Parallel.capture (hRun _ _ hPart)
  | view seen seen' hPart =>
      exact Parallel.view seen seen' (hRun _ _ hPart)
  | convert conversion hPart =>
      exact Parallel.convert conversion (hRun _ _ hPart)
  | expect message hPart =>
      exact Parallel.expect message (hRun _ _ hPart)
  | reject message hPart =>
      exact Parallel.reject message (hRun _ _ hPart)
  | takeUntil orEnd hPart =>
      exact Parallel.takeUntil orEnd (hRun _ _ hPart)
  | rule handle =>
      apply Parallel.callRule (hRules.idOf_eq handle)
      have hTarget := hRules.target handle
      generalize rules.target? handle = bound at hTarget
      generalize rules'.target? handle = bound' at hTarget
      cases hTarget with
      | none => exact .none
      | some hPaired => exact .some (hRun _ _ hPaired)
  | label id id' name name' hPart =>
      exact Parallel.label id id' name name' (hRun _ _ hPart)
  | token hPart =>
      refine Parallel.token ?_ (hRun _ _ hPart)
      intro whitespace whitespace' hPaired
      exact (hRun _ _ hPaired).forget
  | withWhitespace hWhitespace hPart =>
      exact Parallel.withWhitespace (.some hWhitespace)
        (hRun _ _ hPart)
  | defaultWhitespace hPart =>
      exact Parallel.withWhitespace .none (hRun _ _ hPart)
  | withFlag name on hPart =>
      exact Parallel.withFlag name on (hRun _ _ hPart)
  | select condition hTrue hFalse =>
      exact Parallel.select condition (hRun _ _ hTrue)
        (hRun _ _ hFalse)
  | separatedList hItem hSeparator =>
      exact Parallel.separatedList (hRun _ _ hItem)
        (hRun _ _ hSeparator)
  | chain combine combine' hOperand hOperator =>
      exact Parallel.chain combine combine'
        (hRun _ _ hOperand) (hRun _ _ hOperator)

/- Down to any depth, a parser that does not differ yields
  the same, and a counterpart matches the same stretch. -/
theorem parallel_run
    (hRules : Rules.Counterpart rules rules')
    (depth : Nat) :
    (∀ parser, Rules.AgreeFrom rules rules' parser →
      Parallel (Counterpart rules rules') Eq
        (parser.run rules depth)
        (parser.run rules' depth)) ∧
      ∀ parser parser',
        Counterpart rules rules' parser parser' →
          Parallel (Counterpart rules rules') Match.SameSpan
            (parser.run rules depth)
            (parser'.run rules' depth) := by
  -- Both at once: a part that does not differ may skip
  -- whitespace that does.
  induction depth with
  | zero =>
      constructor
      · intro _ _
        exact Parallel.exhausted
      · intro _ _ _
        exact Parallel.exhausted
  | succ depth ih =>
      constructor
      · intro parser hAgree
        exact parallel_step_same hRules ih.1 ih.2 hAgree
      · intro parser parser' hParser
        exact parallel_step hRules ih.1 ih.2 hParser

end Parser

end ByteGrammar

------------------------------------------------------------
-- Sufficient Depth
------------------------------------------------------------

namespace ByteGrammar

variable {rules rules' : Rules}
variable {parser parser' : Parser}

/- Tables of counterparts have as many nodes. -/
theorem Rules.Counterpart.size_eq
    (hRules : rules.Counterpart rules') :
    rules.size = rules'.size := by
  let nodes : Slot → Nat :=
    fun slot => (slot.target.map Parser.size).getD 0
  have hNodes :
      rules.slots.map nodes = rules'.slots.map nodes := by
    apply List.ext_getElem
    · simp [hRules.length_eq]
    · intro handle hKnown hKnown'
      rw [List.length_map] at hKnown hKnown'
      have hTarget := hRules.target handle
      rw [target?_eq_getElem hKnown,
        target?_eq_getElem hKnown'] at hTarget
      rw [List.getElem_map, List.getElem_map]
      simp only [nodes]
      generalize rules.slots[handle].target = target
        at hTarget
      generalize rules'.slots[handle].target = target'
        at hTarget
      cases hTarget with
      | none => rfl
      | some hPaired => exact hPaired.size_eq
  have hSize : ∀ rules : Rules,
      rules.size = (rules.slots.map nodes).sum := by
    intro rules
    rw [List.sum, List.foldr_map]
    rfl
  rw [hSize, hSize, hNodes]

/- Counterparts are given the same depth. -/
theorem Parser.Counterpart.depth_eq
    {context context' : Context}
    (hRules : rules.Counterpart rules')
    (hParser : Counterpart rules rules' parser parser')
    (hTwin : context.Twin (Counterpart rules rules') context')
    (cursor : Cursor) :
    parser.depth rules ⟨cursor, context⟩ =
      parser'.depth rules' ⟨cursor, context'⟩ := by
  have hWhitespace :
      context.whitespaceSize = context'.whitespaceSize := by
    have hInstalled := hTwin.whitespace
    unfold Context.whitespaceSize
    generalize context.whitespace = installed at hInstalled
    generalize context'.whitespace = installed' at hInstalled
    cases hInstalled with
    | none => rfl
    | some hPaired => exact hPaired.size_eq
  simp only [depth, frames, hRules.length_eq,
    hRules.size_eq, hParser.size_eq, hWhitespace, hTwin.options]

end ByteGrammar

------------------------------------------------------------
-- What Is Seen Without Values
------------------------------------------------------------

namespace ByteGrammar

/- What an end shows besides values: whether there was a
  match and of which stretch, a failure or which fatal
  error, and where that left the cursor. -/
def Step.extent
    (step : Step Match) :
    Outcome (Nat × Nat) × Cursor :=
  match step.outcome with
  | .matched found =>
      (.matched (found.start, found.stop), step.state.cursor)
  | .failed => (.failed, step.state.cursor)
  | .fatal fault => (.fatal fault, step.state.cursor)

/- Those who match the same stretch show the same. -/
theorem Action.EndTogether.extent_eq
    {paired : Parser → Parser → Prop}
    {ended ended' : Option (Step Match)}
    (hEnded :
      EndTogether paired Match.SameSpan ended ended') :
    ended.map Step.extent = ended'.map Step.extent := by
  cases hEnded with
  | none => rfl
  | matched hSpan hLast =>
      simp only [Option.map_some, Step.extent, hSpan.start,
        hSpan.stop, hLast.cursor]
  | failed hLast =>
      simp only [Option.map_some, Step.extent, hLast.cursor]
  | fatal fault hLast =>
      simp only [Option.map_some, Step.extent, hLast.cursor]

namespace Parser

variable {rules rules' : Rules}
variable {parser parser' : Parser}
variable {context context' : Context}

theorem extent_run_eq
    (hRules : rules.Counterpart rules')
    (hParser : Counterpart rules rules' parser parser')
    (hTwin : context.Twin (Counterpart rules rules') context')
    (cursor : Cursor)
    (depth : Nat) :
    (parser.run rules depth ⟨cursor, context⟩).map
        Step.extent =
      (parser'.run rules' depth ⟨cursor, context'⟩).map
        Step.extent := by
  have hParallel :=
    (parallel_run hRules depth).2 parser parser' hParser
  have hEnded :=
    hParallel ⟨cursor, context⟩ ⟨cursor, context'⟩
      ⟨rfl, hTwin⟩
  exact hEnded.extent_eq

theorem extent_parse_eq
    (hRules : rules.Counterpart rules')
    (hParser : Counterpart rules rules' parser parser')
    (hTwin : context.Twin (Counterpart rules rules') context')
    (cursor : Cursor) :
    (parser.parse rules ⟨cursor, context⟩).map
        Step.extent =
      (parser'.parse rules' ⟨cursor, context'⟩).map
        Step.extent := by
  unfold parse
  rw [hParser.depth_eq hRules hTwin cursor]
  exact extent_run_eq hRules hParser hTwin cursor _

/-
  Values never steer matching. Two grammars of one shape
  that differ only in what they make of values both match,
  both fail or both raise one fatal error, on every cursor:
  with the same stretch, position, recorded region and
  furthest position. Both give their contexts back.
-/
theorem run_ignores_values
    (hRules : rules.Counterpart rules')
    (hParser : Counterpart rules rules' parser parser')
    (hTwin : context.Twin (Counterpart rules rules') context')
    (cursor : Cursor) :
    (∀ depth,
      (parser.run rules depth ⟨cursor, context⟩).map
          Step.extent =
        (parser'.run rules' depth ⟨cursor, context'⟩).map
          Step.extent) ∧
      (parser.parse rules ⟨cursor, context⟩).map
          Step.extent =
        (parser'.parse rules' ⟨cursor, context'⟩).map
          Step.extent ∧
      (∀ depth step,
        parser.run rules depth ⟨cursor, context⟩ =
            some step →
          step.state.context = context) ∧
      ∀ depth step,
        parser'.run rules' depth ⟨cursor, context'⟩ =
            some step →
          step.state.context = context' := by
  refine ⟨?_, ?_, ?_, ?_⟩
  · exact extent_run_eq hRules hParser hTwin cursor
  · exact extent_parse_eq hRules hParser hTwin cursor
  · intro depth step hRun
    exact keepsContext_run rules depth parser _ step hRun
  · intro depth step hRun
    exact keepsContext_run rules' depth parser' _ step hRun

/- Sums of digits with other combinations, labels, constants
  and whitespace of another value. -/
theorem run_ignores_values_sum :
    let sum (combine : Value → Value → Value → Value)
        (name : String) (change : Value → Value) : Parser :=
      .chain combine
        (.label 2 name (.map change (.token .digit)))
        (.byte 0x2B)
    let rules : Rules :=
      ⟨[⟨1, some (sum (fun left _ => .pair left) "a" id)⟩],
        3⟩
    let rules' : Rules :=
      ⟨[⟨1, some (sum (fun _ _ => .succ) "b" .wrap)⟩], 3⟩
    let blank (value : Value) : Parser :=
      .map (fun _ => value) (.byte 0x20)
    let context (value : Value) : Context :=
      (Context.fresh .standard).installWhitespace
        (some (blank value))
    let cursor := Cursor.ofBytes [0x31, 0x2B, 0x20, 0x32]
    rules.Counterpart rules' ∧
      Counterpart rules rules' (.orDefault .unit (.rule 0))
        (.orDefault .none (.rule 0)) ∧
      (context .unit).Twin (Counterpart rules rules')
        (context .none) ∧
      ((Parser.orDefault .none (.rule 0)).run rules' 9
            ⟨cursor, context .none⟩).map Step.extent =
        some (.matched (0, 4),
          ⟨[0x31, 0x2B, 0x20, 0x32], 4, .origin, 4⟩) := by
  intro sum rules rules' blank context cursor
  have hSum : Counterpart rules rules'
      (sum (fun left _ => .pair left) "a" id)
      (sum (fun _ _ => .succ) "b" .wrap) := by
    refine .chain _ _ (.label _ _ _ _ ?_) (.terminal _)
    exact .map _ _ (.token (.terminal _))
  have hRules : rules.Counterpart rules' := by
    refine ⟨rfl, ?_⟩
    intro handle
    cases handle with
    | zero => exact .some hSum
    | succ handle => exact .none
  have hParser : Counterpart rules rules'
      (.orDefault .unit (.rule 0))
      (.orDefault .none (.rule 0)) :=
    .orDefault _ _ (.rule 0)
  have hTwin :
      (context .unit).Twin (Counterpart rules rules')
        (context .none) :=
    ⟨rfl, rfl, rfl, .some (.map _ _ (.terminal _))⟩
  have hRun :
      ((Parser.orDefault .unit (.rule 0)).run rules 9
            ⟨cursor, context .unit⟩).map Step.extent =
        some (.matched (0, 4),
          ⟨[0x31, 0x2B, 0x20, 0x32], 4, .origin, 4⟩) := rfl
  have hIgnored :=
    run_ignores_values hRules hParser hTwin cursor
  refine ⟨hRules, hParser, hTwin, ?_⟩
  exact (hIgnored.1 9).symm.trans hRun

end Parser

end ByteGrammar

------------------------------------------------------------
-- Whole Inputs
------------------------------------------------------------

namespace ByteGrammar

namespace Report

/- Why an input is refused, if it is. -/
def verdict
    (report : Report) :
    Except Failure Unit :=
  report.result.map fun _ => ()

theorem verdict_ofStep
    {step step' : Step Match}
    (hExtent : step.extent = step'.extent)
    (code : List UInt8)
    (requireEof : Bool) :
    (ofStep code requireEof step).verdict =
      (ofStep code requireEof step').verdict := by
  rcases step with ⟨outcome, last, events⟩
  rcases step' with ⟨outcome', last', events'⟩
  -- Only outcomes of one kind show the same.
  cases outcome <;> cases outcome' <;>
    simp only [Step.extent, Prod.mk.injEq, reduceCtorEq,
      Outcome.fatal.injEq, false_and, true_and] at hExtent
  · simp only [verdict, ofStep, hExtent.2]
    split <;> rfl
  · simp only [verdict, ofStep, hExtent]
  · simp only [verdict, ofStep, hExtent.1]

end Report

namespace Parser

variable {rules rules' : Rules}
variable {parser parser' : Parser}

/- Grammars that differ only in what they make of values
  accept the same inputs, and refuse the others for the same
  reasons. -/
theorem verdict_tryParse_eq
    (hRules : rules.Counterpart rules')
    (hParser : Counterpart rules rules' parser parser')
    (options : Options)
    (input : String) :
    (parser.tryParse rules options input).map
        Report.verdict =
      (parser'.tryParse rules' options input).map
        Report.verdict := by
  have hTwin :
      (Context.fresh options).Twin
        (Counterpart rules rules') (.fresh options) :=
    ⟨rfl, rfl, rfl, .none⟩
  have hExtent :=
    extent_parse_eq hRules hParser hTwin
      (.ofBytes (Utf8.encode input))
  simp only [tryParse, Option.map_map]
  generalize parser.parse rules _ = ended at hExtent ⊢
  generalize parser'.parse rules' _ = ended' at hExtent ⊢
  cases ended with
  | none =>
      cases ended' with
      | none => rfl
      | some step' => cases hExtent
  | some step =>
      cases ended' with
      | none => cases hExtent
      | some step' =>
          have hSame := Option.some.inj hExtent
          exact congrArg some
            (Report.verdict_ofStep hSame _ _)

end Parser

end ByteGrammar
