import ByteGrammar.Proofs.Engine.Simulation
import ByteGrammar.Proofs.Rules.Numbering
import ByteGrammar.Proofs.Termination.Parses
import ByteGrammar.Proofs.Trace.Nesting

/-
  Detection of loops changes only parses that do not end.

  In a grammar that leaves the context alone and does not
  ask whether loops are detected, what a rule does depends
  only on where it runs. If a parse ends without detection,
  then a rule that it runs ends at some least depth, and it
  does not run again at that place before: a run inside
  itself would end at a smaller depth. So where identities
  tell rules apart, no call is refused with detection on.

  Main declarations:
    * `Condition.OverlooksDetection`, `Parser.Plain`
    * `Rules.Unending`
    * `Parser.parse_of_run_undetected`
-/

------------------------------------------------------------
-- Plain Grammars
------------------------------------------------------------

namespace ByteGrammar

namespace Condition

/- It makes no difference to a condition whether loops are
  detected, nor what is recorded for that: which rules are
  running. -/
def OverlooksDetection
    (condition : Condition) :
    Prop :=
  ∀ surroundings detects running,
    condition.test
        { surroundings with
          options :=
            { surroundings.options with
              loopDetection := detects }
          isActive := running } =
      condition.test surroundings

theorem overlooksDetection_flag
    (name : String) :
    (flag name).OverlooksDetection :=
  fun _ _ _ => rfl

theorem overlooksDetection_whitespaceInstalled :
    whitespaceInstalled.OverlooksDetection :=
  fun _ _ _ => rfl

theorem overlooksDetection_skipsNewlines :
    skipsNewlines.OverlooksDetection :=
  fun _ _ _ => rfl

theorem OverlooksDetection.negation
    {condition : Condition}
    (hOverlooks : condition.OverlooksDetection) :
    (negation condition).OverlooksDetection := by
  intro surroundings detects running
  exact congrArg (!·)
    (hOverlooks surroundings detects running)

end Condition

namespace Parser

/- A node does not change the context, and detection of
  loops makes no difference to what it asks of it. -/
def Plain :
    Parser → Prop
  | withWhitespace _ _ => False
  | defaultWhitespace _ => False
  | withFlag _ _ _ => False
  | select condition _ _ => condition.OverlooksDetection
  | _ => True

end Parser

end ByteGrammar

------------------------------------------------------------
-- With and Without Detection
------------------------------------------------------------

namespace ByteGrammar

namespace Context

/- The context with detection of loops on or off. -/
def detecting
    (on : Bool)
    (context : Context) :
    Context :=
  { context with
    options :=
      { context.options with loopDetection := on } }

/- The context with detection on, while some rules are
  running. -/
def watching
    (running : List (ParserId × Nat))
    (context : Context) :
    Context :=
  { context.detecting true with active := running }

/- Nothing is running yet in a context that says so. -/
theorem watching_nil
    {context : Context}
    (hActive : context.active = []) :
    context.watching [] = context.detecting true := by
  unfold watching
  rw [← hActive]
  rfl

/- A condition that overlooks detection does not tell
  whether loops are detected. -/
theorem holds_watching
    {condition : Condition}
    (hOverlooks : condition.OverlooksDetection)
    (context : Context)
    (running : List (ParserId × Nat)) :
    condition.holds (context.watching running) =
      condition.holds (context.detecting false) := by
  have hOn :
      condition.holds (context.watching running) =
        condition.holds context :=
    hOverlooks context.surroundings true _
  have hOff :
      condition.holds (context.detecting false) =
        condition.holds context :=
    hOverlooks context.surroundings false _
  exact hOn.trans hOff.symm

/- The context without detection, and that with detection
  while some rules are running. -/
def Differ
    (base : Context)
    (running : List (ParserId × Nat))
    (context context' : Context) :
    Prop :=
  context = base.detecting false ∧
    context' = base.watching running

end Context

namespace Cursor

/- One cursor over a buffer. -/
def SameIn
    (data : List UInt8)
    (cursor cursor' : Cursor) :
    Prop :=
  cursor = cursor' ∧ cursor.data = data

theorem likeness_sameIn
    (data : List UInt8) :
    Likeness (SameIn data) where
  data := fun hSame => congrArg Cursor.data hSame.1
  position := fun hSame => congrArg Cursor.position hSame.1
  advance := by
    rintro cursor _ count ⟨rfl, hData⟩
    exact ⟨rfl, hData⟩
  mark := by
    rintro cursor _ start stop ⟨rfl, hData⟩
    exact ⟨rfl, hData⟩
  restore := by
    rintro before _ after _ ⟨rfl, _⟩ ⟨rfl, hData⟩
    exact ⟨rfl, hData⟩

end Cursor

end ByteGrammar

------------------------------------------------------------
-- Rules That Are Running
------------------------------------------------------------

namespace ByteGrammar

namespace Rules

/- No rule that is running ends at its position in less
  than some depth, without detection. -/
def Unending
    (rules : Rules)
    (base : Context)
    (data : List UInt8)
    (depth : Nat)
    (running : List (ParserId × Nat)) :
    Prop :=
  ∀ handle target cursor,
    rules.target? handle = some target →
    cursor.data = data →
    (rules.idOf handle, cursor.position) ∈ running →
    ∀ less < depth,
      target.run rules less
        ⟨cursor, base.detecting false⟩ = none

namespace Unending

variable {rules : Rules}
variable {base : Context}
variable {data : List UInt8}
variable {depth : Nat}
variable {running : List (ParserId × Nat)}

theorem mono
    {fewer : Nat}
    (hRunning : Unending rules base data depth running)
    (hFewer : fewer ≤ depth) :
    Unending rules base data fewer running := by
  intro handle target cursor hTarget hData hMem less hLess
  exact hRunning handle target cursor hTarget hData hMem
    less (Nat.lt_of_lt_of_le hLess hFewer)

/- A rule that ends here in less is not running here. -/
theorem not_mem
    {handle : Handle}
    {target : Parser}
    {cursor : Cursor}
    {less : Nat}
    {step : Step Match}
    (hRunning : Unending rules base data depth running)
    (hTarget : rules.target? handle = some target)
    (hData : cursor.data = data)
    (hLess : less < depth)
    (hEnds :
      target.run rules less
        ⟨cursor, base.detecting false⟩ = some step) :
    (rules.idOf handle, cursor.position) ∉ running := by
  intro hMem
  rw [hRunning handle target cursor hTarget hData hMem less
    hLess] at hEnds
  cases hEnds

/- A rule runs with its least depth. It ends no sooner
  wherever else it runs at the same place, and no other rule
  is taken for it. -/
theorem call
    {handle : Handle}
    {target : Parser}
    {cursor : Cursor}
    (hApart : rules.IdsApart)
    (hRunning : Unending rules base data depth running)
    (hTarget : rules.target? handle = some target)
    (hData : cursor.data = data)
    (hLeast : ∀ less < depth,
      target.run rules less
        ⟨cursor, base.detecting false⟩ = none) :
    Unending rules base data depth
      ((rules.idOf handle, cursor.position) ::
        running) := by
  intro handle' target' cursor' hTarget' hData' hMem less
    hLess
  cases List.mem_cons.mp hMem with
  | inr hMem =>
      exact hRunning handle' target' cursor' hTarget' hData'
        hMem less hLess
  | inl hSame =>
      rcases Prod.mk.inj hSame with ⟨hId, hPosition⟩
      cases hApart.handle_eq (lt_of_target? hTarget')
        (lt_of_target? hTarget) hId
      rw [hTarget] at hTarget'
      cases hTarget'
      cases hEnds :
          target.run rules less
            ⟨cursor', base.detecting false⟩ with
      | none => rfl
      | some step =>
          have hPlace : cursor'.SamePlace cursor :=
            ⟨hData'.trans hData.symm, hPosition⟩
          rcases Parser.run_of_samePlace hPlace hEnds with
            ⟨last, hEnds', -⟩
          rw [hLeast less hLess] at hEnds'
          cases hEnds'

end Unending

end Rules

end ByteGrammar

------------------------------------------------------------
-- Nodes
------------------------------------------------------------

namespace ByteGrammar

namespace Action

variable {rules : Rules}
variable {base : Context}
variable {data : List UInt8}
variable {running : List (ParserId × Nat)}

/- What a parse does without detection, it does with
  detection while some rules are running. -/
def Withstands
    {α : Type}
    (base : Context)
    (data : List UInt8)
    (running : List (ParserId × Nat))
    (action : Action α) :
    Prop :=
  Simulated (Cursor.SameIn data)
    (Context.Differ base running) action action

theorem withstands_cursorCongruence
    (base : Context)
    (data : List UInt8)
    (running : List (ParserId × Nat)) :
    CursorCongruence (Cursor.SameIn data)
      (Simulated (Cursor.SameIn data)
        (Context.Differ base running)) :=
  simulated_cursorCongruence
    (Cursor.likeness_sameIn data).outlook

/- What both see in the two contexts. -/
theorem withstands_consult
    {α : Type}
    {view : Context → α}
    (hView :
      view (base.detecting false) =
        view (base.watching running)) :
    Withstands base data running (consult view) := by
  apply simulated_consult
  rintro _ _ ⟨rfl, rfl⟩
  exact hView

/- Skips blanks as an option says. -/
def skipDefault : Action Unit := do
  if ← consult fun context =>
      context.options.skipNewlines then
    move fun cursor => cursor.skipBlanks.2
  else
    move fun cursor => cursor.skipInline.2

/- Without a whitespace parser, blanks are skipped. -/
theorem skipWhitespace_of_none
    {run : Parser → Action Match}
    {state : State}
    (hNone : state.context.whitespace = none) :
    skipWhitespace run state = skipDefault state := by
  unfold skipWhitespace
  refine (consult_bind _ _ state).trans ?_
  rw [hNone]
  rfl

theorem withstands_skipWhitespace
    {run : Parser → Action Match}
    (hNone : base.whitespace = none) :
    Withstands base data running (skipWhitespace run) := by
  have hLike := (Cursor.likeness_sameIn data).outlook
  have hCursor :=
    withstands_cursorCongruence base data running
  have hDefault :
      Withstands base data running skipDefault := by
    unfold skipDefault
    apply Simulated.bind (withstands_consult rfl)
    intro newlines
    split
    · exact hCursor.move (hLike.skipWhile _)
    · exact hCursor.move (hLike.skipWhile _)
  intro state state' hAlike outcome last events hStep
  rcases hAlike.context with ⟨hContext, hContext'⟩
  rw [skipWhitespace_of_none] at hStep ⊢
  · exact hDefault _ _ hAlike _ _ _ hStep
  · rw [hContext']
    exact hNone
  · rw [hContext]
    exact hNone

theorem withstands_token
    {run : Parser → Action Match}
    {part : Parser}
    (hNone : base.whitespace = none)
    (hPart : Withstands base data running (run part)) :
    Withstands base data running (token run part) := by
  unfold token
  apply Simulated.attempt
    (Cursor.likeness_sameIn data).outlook
  apply Simulated.bind (withstands_skipWhitespace hNone)
  intro _
  exact hPart

theorem withstands_select
    {condition : Condition}
    {whenTrue whenFalse : Action Match}
    (hOverlooks : condition.OverlooksDetection)
    (hTrue : Withstands base data running whenTrue)
    (hFalse : Withstands base data running whenFalse) :
    Withstands base data running
      (select condition whenTrue whenFalse) := by
  unfold select
  refine Simulated.bind (withstands_consult ?_) ?_
  · exact (base.holds_watching hOverlooks running).symm
  · intro holds
    split
    · exact hTrue
    · exact hFalse

/- What a target does, it does while its rule is running as
  well: with its least depth, it meets no rule again that is
  running. -/
theorem withstands_target
    {depth : Nat}
    {handle : Handle}
    {target : Parser}
    {cursor : Cursor}
    {outcome : Outcome Match}
    {last : State}
    {events : List Event}
    (hApart : rules.IdsApart)
    (hRunning : rules.Unending base data depth running)
    (hBound : rules.target? handle = some target)
    (hTarget : ∀ least ≤ depth, ∀ running,
      rules.Unending base data least running →
      Withstands base data running
        (target.run rules least))
    (hData : cursor.data = data)
    (hEnds :
      target.run rules depth
          ⟨cursor, base.detecting false⟩ =
        some ⟨outcome, last, events⟩) :
    let called := (rules.idOf handle, cursor.position)
    ∃ last',
      target.run rules depth
          ⟨cursor, base.watching (called :: running)⟩ =
        some ⟨outcome, last', events⟩ ∧
      last.Alike (Cursor.SameIn data)
        (Context.Differ base (called :: running))
        last' := by
  intro called
  rcases Parser.exists_least_depth hEnds with
    ⟨least, hLeast, hEnds, hNone⟩
  have hUnending :=
    (hRunning.mono hLeast).call hApart hBound hData hNone
  rcases hTarget least hLeast _ hUnending
      ⟨cursor, base.detecting false⟩
      ⟨cursor, base.watching (called :: running)⟩
      ⟨⟨rfl, hData⟩, rfl, rfl⟩ _ _ _ hEnds with
    ⟨last', hEnds', hLast⟩
  exact ⟨last',
    Parser.run_refines hLeast target _ _ hEnds', hLast⟩

/- The guard lets a target run that ends: its rule is not
  running at this place. -/
theorem withstands_guarded
    {depth : Nat}
    {handle : Handle}
    {target : Parser}
    {cursor : Cursor}
    {outcome : Outcome Match}
    {last : State}
    {events : List Event}
    (hApart : rules.IdsApart)
    (hRunning :
      rules.Unending base data (depth + 1) running)
    (hBound : rules.target? handle = some target)
    (hTarget : ∀ least ≤ depth, ∀ running,
      rules.Unending base data least running →
      Withstands base data running
        (target.run rules least))
    (hData : cursor.data = data)
    (hEnds :
      target.run rules depth
          ⟨cursor, base.detecting false⟩ =
        some ⟨outcome, last, events⟩) :
    ∃ last',
      guarded (rules.idOf handle) cursor.position
          (target.run rules depth)
          ⟨cursor, base.watching running⟩ =
        some ⟨outcome, last', events⟩ ∧
      last.Alike (Cursor.SameIn data)
        (Context.Differ base running) last' := by
  let id := rules.idOf handle
  let here := cursor.position
  have hIdle : (id, here) ∉ running :=
    hRunning.not_mem hBound hData (Nat.lt_succ_self depth)
      hEnds
  have hInactive :
      (base.watching running).isActive id here = false := by
    simpa [Context.isActive, Context.watching] using hIdle
  rcases withstands_target hApart
      (hRunning.mono (Nat.le_succ depth)) hBound hTarget
      hData hEnds with
    ⟨last', hEnds', hLast⟩
  have hGuarded :
      guarded id here (target.run rules depth)
          ⟨cursor, base.watching running⟩ =
        some ⟨outcome,
          ⟨last'.cursor, last'.context.deactivate id here⟩,
          events⟩ := by
    rw [guarded_of_idle rfl hInactive]
    exact within_of_inner hEnds'
  refine ⟨_, hGuarded, hLast.cursor, hLast.context.1, ?_⟩
  dsimp only
  rw [hLast.context.2]
  exact (base.watching running).deactivate_activate id here

/- A call of a rule withstands detection where its target
  does. -/
theorem withstands_callRule
    {depth : Nat}
    {handle : Handle}
    (hApart : rules.IdsApart)
    (hRunning :
      rules.Unending base data (depth + 1) running)
    (hTarget : ∀ target,
      rules.target? handle = some target →
      ∀ least ≤ depth, ∀ running,
      rules.Unending base data least running →
      Withstands base data running
        (target.run rules least)) :
    Withstands base data running
      (callRule rules (Parser.run rules depth)
        handle) := by
  cases hBound : rules.target? handle with
  | none =>
      have hLike := (Cursor.likeness_sameIn data).outlook
      have hCursor :=
        withstands_cursorCongruence base data running
      unfold callRule
      rw [hBound]
      apply Simulated.bind (hCursor.position hLike)
      intro here
      exact .of_const _ _ (fun _ => rfl) fun _ => rfl
  | some target =>
      intro state state' hAlike outcome last events hStep
      rcases state with ⟨cursor, context⟩
      rcases state' with ⟨cursor', context'⟩
      rcases hAlike with ⟨⟨hSame, hData⟩, hOff, hOn⟩
      dsimp only at hSame hData hOff hOn
      subst hSame hOff hOn
      rw [callRule_of_bound hBound] at hStep ⊢
      cases bracketed_ends hStep with
      | @inner outcome last inner hInner =>
          rw [guarded_of_undetected rfl] at hInner
          rcases withstands_guarded hApart hRunning hBound
              (hTarget target hBound) hData hInner with
            ⟨last', hGuarded, hLast⟩
          exact ⟨_, bracketed_of_inner hGuarded, hLast⟩

end Action

end ByteGrammar

------------------------------------------------------------
-- Parsers
------------------------------------------------------------

namespace ByteGrammar

namespace Parser

open ByteGrammar.Action

variable {rules : Rules}
variable {base : Context}
variable {data : List UInt8}

/- A plain parser withstands detection to any depth, as long
  as no rule that is running ends sooner. -/
theorem withstands_run
    (hApart : rules.IdsApart)
    (hRules : rules.Every Plain)
    (hNone : base.whitespace = none)
    (depth : Nat)
    {parser : Parser}
    {running : List (ParserId × Nat)}
    (hPlain : parser.Every Plain)
    (hRunning : rules.Unending base data depth running) :
    Withstands base data running
      (parser.run rules depth) := by
  have hCursor := withstands_cursorCongruence base data
  -- A rule runs to its least depth, which can be any
  -- smaller one.
  induction depth using Nat.strong_induction_on
    generalizing parser running with
  | _ depth ih =>
      cases depth with
      | zero => exact (hCursor running).exhausted
      | succ depth =>
          have hPart : ∀ part ∈ parser.parts,
              Withstands base data running
                (part.run rules depth) := by
            intro part hMem
            exact ih depth (Nat.lt_succ_self depth)
              (hPlain.child (mem_children_of_mem_parts hMem))
              (hRunning.mono (Nat.le_succ depth))
          cases parser with
          | rule handle =>
              apply withstands_callRule hApart hRunning
              intro target hTarget least hLeast running
                hUnending
              exact ih least (Nat.lt_succ_of_le hLeast)
                (hRules.target hTarget)
                hUnending
          | token part =>
              exact withstands_token hNone
                (hPart part (by simp [parts]))
          | select condition whenTrue whenFalse =>
              exact withstands_select hPlain.node
                (hPart whenTrue (by simp [parts]))
                (hPart whenFalse (by simp [parts]))
          | withWhitespace => exact hPlain.node.elim
          | defaultWhitespace => exact hPlain.node.elim
          | withFlag => exact hPlain.node.elim
          | _ =>
              exact (hCursor running).step
                (Cursor.likeness_sameIn data) rules rfl hPart

/-
  Where a parse with a plain grammar, no two rules of which
  have one identity, ends without detection of loops, from a
  context in which no rule is running and no whitespace
  parser is installed, it detects no loop, and with
  detection it ends alike: with the same outcome, the same
  cursor and the same events.
-/
theorem parse_of_run_undetected
    {rules : Rules}
    {parser : Parser}
    {context : Context}
    {cursor : Cursor}
    {depth : Nat}
    {outcome : Outcome Match}
    {last : State}
    {events : List Event}
    (hApart : rules.IdsApart)
    (hRules : rules.Every Plain)
    (hPlain : parser.Every Plain)
    (hActive : context.active = [])
    (hNone : context.whitespace = none)
    (hPosition : cursor.position ≤ cursor.data.length)
    (hRun :
      parser.run rules depth
          ⟨cursor, context.detecting false⟩ =
        some ⟨outcome, last, events⟩) :
    parser.parse rules ⟨cursor, context.detecting true⟩ =
        some ⟨outcome,
          ⟨last.cursor, context.detecting true⟩, events⟩ ∧
      ∀ id position,
        .loopDetected id position ∉ events := by
  constructor
  · have hNothing :
        rules.Unending context cursor.data depth [] := by
      intro handle target other _ _ hMem
      cases hMem
    have hWithstands :=
      withstands_run hApart hRules hNone depth hPlain
        hNothing
    rcases hWithstands ⟨cursor, context.detecting false⟩
        ⟨cursor, context.watching []⟩
        ⟨⟨rfl, rfl⟩, rfl, rfl⟩ _ _ _ hRun with
      ⟨last', hRun', ⟨hCursor, -⟩, -, hContext⟩
    rw [Context.watching_nil hActive] at hRun' hContext
    rcases last' with ⟨cursor', context'⟩
    dsimp only at hCursor hContext
    subst hCursor hContext
    exact parse_eq_of_run rfl hPosition hRun'
  · intro id position
    exact (account_run hRun).loopDetected_not_mem rfl id
      position

/- Parentheses around a letter, which a rule calls itself
  for, one byte further on. -/
theorem parse_of_run_undetected_nested :
    let letter (byte : UInt8) : Parser :=
      .terminal (.byteWhere (· == byte))
    let body : Parser :=
      .either
        (.between (letter 0x28) (.rule 0) (letter 0x29))
        (letter 0x61)
    let rules : Rules := ⟨[⟨1, some body⟩], 2⟩
    let context : Context := .fresh .standard
    let data : List UInt8 := [0x28, 0x61, 0x29]
    let cursor : Cursor := .ofBytes data
    let last : Cursor := ⟨data, 3, .origin, 3⟩
    let outcome : Outcome Match :=
      .matched ⟨0, 3, .byte 0x61⟩
    let events : List Event :=
      [.entered (.rule 1) "deferred" 0,
        .entered (.rule 1) "deferred" 1,
        .exited (.rule 1) "deferred" 1 true,
        .exited (.rule 1) "deferred" 0 true]
    rules.IdsApart ∧
      rules.Every Plain ∧
      (Parser.rule 0).Every Plain ∧
      context.active = [] ∧ context.whitespace = none ∧
      cursor.position ≤ cursor.data.length ∧
      (Parser.rule 0).run rules 7
          ⟨cursor, context.detecting false⟩ =
        some ⟨outcome, ⟨last, context.detecting false⟩,
          events⟩ ∧
      (Parser.rule 0).parse rules
          ⟨cursor, context.detecting true⟩ =
        some ⟨outcome, ⟨last, context.detecting true⟩,
          events⟩ ∧
      ∀ id position,
        .loopDetected id position ∉ events := by
  intro letter body rules context data cursor last outcome
    events
  have hRun :
      (Parser.rule 0).run rules 7
          ⟨cursor, context.detecting false⟩ =
        some ⟨outcome, ⟨last, context.detecting false⟩,
          events⟩ := rfl
  have hPosition :
      cursor.position ≤ cursor.data.length := Nat.zero_le _
  have hRules : rules.Every Plain := by
    simp [Rules.Every, Every, rules, body, letter, Plain]
  have hPlain : (Parser.rule 0).Every Plain := by
    simp [Every, Plain]
  have hApart : rules.IdsApart := List.nodup_singleton 1
  exact ⟨hApart, hRules, hPlain, rfl, rfl, hPosition, hRun,
    parse_of_run_undetected hApart hRules hPlain rfl rfl
      hPosition hRun⟩

end Parser

end ByteGrammar
