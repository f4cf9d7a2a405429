import ByteGrammar.Engine.Parse
import ByteGrammar.Proofs.Engine.ContextCongruence
import ByteGrammar.Proofs.Engine.Depth

/-
  What a parse depends on in its context.

  A grammar in which no token can be reached, and no
  condition on whitespace, does the same whatever whitespace
  is. A grammar that mentions a flag nowhere does the same
  whether or not the flag is set.

  Main declarations:
    * `Parser.OverlooksWhitespace`, `Parser.OverlooksFlag`
    * `Context.skipping`
    * `Step.seen`, `Parser.SeenAlike`
    * `Parser.run_ignores_unasked_context`
-/

------------------------------------------------------------
-- What Nodes Ask For
------------------------------------------------------------

namespace ByteGrammar

namespace Condition

/- It makes no difference to a condition whether a
  whitespace parser is installed, nor what is skipped
  without one. -/
def OverlooksWhitespace
    (condition : Condition) :
    Prop :=
  ∀ surroundings newlines installed,
    condition.test
        { surroundings with
          options :=
            { surroundings.options with
              skipNewlines := newlines }
          whitespaceInstalled := installed } =
      condition.test surroundings

/- It makes no difference to a condition whether a flag is
  set. -/
def OverlooksFlag
    (name : String)
    (condition : Condition) :
    Prop :=
  ∀ surroundings hasFlag,
    (∀ other, other ≠ name →
      hasFlag other = surroundings.hasFlag other) →
    condition.test { surroundings with hasFlag := hasFlag } =
      condition.test surroundings

theorem overlooksWhitespace_flag
    (name : String) :
    (flag name).OverlooksWhitespace :=
  fun _ _ _ => rfl

theorem overlooksWhitespace_detectsLoops :
    detectsLoops.OverlooksWhitespace :=
  fun _ _ _ => rfl

theorem OverlooksWhitespace.negation
    {condition : Condition}
    (hOverlooks : condition.OverlooksWhitespace) :
    (negation condition).OverlooksWhitespace := by
  intro surroundings newlines installed
  exact congrArg (!·)
    (hOverlooks surroundings newlines installed)

theorem overlooksFlag_flag
    {name other : String}
    (hOther : other ≠ name) :
    (flag other).OverlooksFlag name :=
  fun _ _ hOthers => hOthers other hOther

theorem overlooksFlag_whitespaceInstalled
    (name : String) :
    whitespaceInstalled.OverlooksFlag name :=
  fun _ _ _ => rfl

theorem overlooksFlag_skipsNewlines
    (name : String) :
    skipsNewlines.OverlooksFlag name :=
  fun _ _ _ => rfl

theorem overlooksFlag_detectsLoops
    (name : String) :
    detectsLoops.OverlooksFlag name :=
  fun _ _ _ => rfl

theorem OverlooksFlag.negation
    {name : String}
    {condition : Condition}
    (hOverlooks : condition.OverlooksFlag name) :
    (negation condition).OverlooksFlag name := by
  intro surroundings hasFlag hOthers
  exact congrArg (!·)
    (hOverlooks surroundings hasFlag hOthers)

end Condition

namespace Parser

/- A node does not skip whitespace, and whitespace makes no
  difference to what it asks of the context. -/
def OverlooksWhitespace :
    Parser → Prop
  | token _ => False
  | select condition _ _ => condition.OverlooksWhitespace
  | _ => True

/- A node does not set or clear a flag, and the flag makes
  no difference to what it asks of the context. -/
def OverlooksFlag
    (name : String) :
    Parser → Prop
  | withFlag other _ _ => other ≠ name
  | select condition _ _ => condition.OverlooksFlag name
  | _ => True

end Parser

/- What is seen of a step besides the context: what it came
  to, the cursor that it left and the events that it
  reported. -/
def Step.seen
    {α : Type}
    (step : Step α) :
    Outcome α × Cursor × List Event :=
  (step.outcome, step.state.cursor, step.events)

end ByteGrammar

------------------------------------------------------------
-- Whitespace
------------------------------------------------------------

namespace ByteGrammar

namespace Context

/- The context with another whitespace parser, or none, and
  with line breaks skipped or not where there is none. -/
def skipping
    (whitespace : Option Parser)
    (newlines : Bool)
    (context : Context) :
    Context :=
  { context with
    whitespace := whitespace
    options :=
      { context.options with skipNewlines := newlines } }

/- Contexts that differ at most in their whitespace. -/
structure SameButWhitespace
    (context context' : Context) :
    Prop where
  detects :
    context.options.loopDetection =
      context'.options.loopDetection
  requires :
    context.options.requireEof = context'.options.requireEof
  active : context.active = context'.active
  flags : context.flags = context'.flags

namespace SameButWhitespace

variable {context context' : Context}

theorem surroundings_eq
    (hSame : SameButWhitespace context context') :
    context'.surroundings =
      { context.surroundings with
        options :=
          { context.surroundings.options with
            skipNewlines := context'.options.skipNewlines }
        whitespaceInstalled := context'.whitespace.isSome } := by
  unfold surroundings isActive hasFlag
  simp only [hSame.active, hSame.flags, hSame.detects,
    hSame.requires]

theorem holds
    {condition : Condition}
    (hOverlooks : condition.OverlooksWhitespace)
    (hSame : SameButWhitespace context context') :
    condition.holds context = condition.holds context' := by
  unfold Condition.holds
  rw [hSame.surroundings_eq]
  exact (hOverlooks context.surroundings _ _).symm

theorem concord
    {admitted : Parser → Prop}
    (hOverlook : ∀ node, admitted node →
      node.OverlooksWhitespace) :
    Concord admitted SameButWhitespace where
  holds := by
    intro condition whenTrue whenFalse context context'
      hAdmitted hSame
    exact hSame.holds (hOverlook _ hAdmitted)
  assigned := by
    intro name on part context context' _ hSame
    refine ⟨?_, ?_⟩
    · rw [hasFlag, hasFlag, hSame.flags]
    · intro on
      refine ⟨hSame.detects, hSame.requires, hSame.active,
        ?_⟩
      simp only [assignFlag, hSame.flags]
  installed := by
    intro whitespace part context context' _ hSame
    exact ⟨hSame.detects, hSame.requires, hSame.active,
      hSame.flags⟩
  removed := by
    intro context context' hSame
    exact ⟨hSame.detects, hSame.requires, hSame.active,
      hSame.flags⟩
  replaced := by
    intro before before' context context' _ hSame
    exact ⟨hSame.detects, hSame.requires, hSame.active,
      hSame.flags⟩
  skipped := by
    intro part context context' hAdmitted _
    cases hOverlook _ hAdmitted

theorem guards :
    Guards SameButWhitespace where
  detects := SameButWhitespace.detects
  active := by
    intro context context' id here hSame
    rw [isActive, isActive, hSame.active]
  activate := by
    intro context context' id here hSame
    refine ⟨hSame.detects, hSame.requires, ?_,
      hSame.flags⟩
    simp only [Context.activate, hSame.active]
  deactivate := by
    intro context context' id here hSame
    refine ⟨hSame.detects, hSame.requires, ?_,
      hSame.flags⟩
    simp only [Context.deactivate, hSame.active]

end SameButWhitespace

end Context

end ByteGrammar

------------------------------------------------------------
-- Flags
------------------------------------------------------------

namespace ByteGrammar

namespace Context

/- Contexts that differ at most in one flag, with a
  whitespace parser that is admitted. -/
structure SameButFlag
    (admitted : Parser → Prop)
    (flag : String)
    (context context' : Context) :
    Prop
    extends SameWhitespace admitted context context' where
  options : context.options = context'.options
  active : context.active = context'.active
  others : ∀ other, other ≠ flag →
    context.hasFlag other = context'.hasFlag other

namespace SameButFlag

variable {admitted : Parser → Prop}
variable {flag : String}
variable {context context' : Context}

theorem symm
    (hSame : SameButFlag admitted flag context context') :
    SameButFlag admitted flag context' context where
  toSameWhitespace := hSame.toSameWhitespace.symm
  options := hSame.options.symm
  active := hSame.active.symm
  others := by
    intro other hOther
    exact (hSame.others other hOther).symm

/- A flag that is assigned in one of them makes them differ
  in this flag only. -/
theorem of_assign
    (flag : String)
    (hInstalled : ∀ whitespace,
      context.whitespace = some whitespace →
        admitted whitespace)
    (on : Bool) :
    SameButFlag admitted flag
      (context.assignFlag flag on) context where
  toSameWhitespace := ⟨rfl, hInstalled⟩
  options := rfl
  active := rfl
  others := by
    intro other hOther
    rw [hasFlag, assignFlag, FlagSet.contains_assign,
      if_neg hOther]
    rfl

/- Another flag may be assigned in both. -/
theorem assign
    {name : String}
    (hSame : SameButFlag admitted flag context context')
    (on : Bool) :
    SameButFlag admitted flag
      (context.assignFlag name on)
      (context'.assignFlag name on) where
  toSameWhitespace := ⟨hSame.same, hSame.admitted⟩
  options := hSame.options
  active := hSame.active
  others := by
    intro other hOther
    have hBefore := hSame.others other hOther
    unfold hasFlag at hBefore ⊢
    simp only [assignFlag, FlagSet.contains_assign, hBefore]

theorem surroundings_eq
    (hSame : SameButFlag admitted flag context context') :
    context'.surroundings =
      { context.surroundings with
        hasFlag := context'.hasFlag } := by
  unfold surroundings isActive
  rw [hSame.same, hSame.options, hSame.active]

theorem holds
    {condition : Condition}
    (hOverlooks : condition.OverlooksFlag flag)
    (hSame : SameButFlag admitted flag context context') :
    condition.holds context = condition.holds context' := by
  unfold Condition.holds
  rw [hSame.surroundings_eq]
  apply Eq.symm
  apply hOverlooks context.surroundings
  intro other hOther
  exact (hSame.others other hOther).symm

theorem concord
    (hOverlook : ∀ node, admitted node →
      node.OverlooksFlag flag)
    (hInstalls : ∀ {whitespace part : Parser},
      admitted (.withWhitespace whitespace part) →
        admitted whitespace) :
    Concord admitted (SameButFlag admitted flag) where
  holds := by
    intro condition whenTrue whenFalse context context'
      hAdmitted hSame
    exact hSame.holds (hOverlook _ hAdmitted)
  assigned := by
    intro name on part context context' hAdmitted hSame
    have hOther : name ≠ flag := hOverlook _ hAdmitted
    exact ⟨hSame.others name hOther, hSame.assign⟩
  installed := by
    intro whitespace part context context' hAdmitted hSame
    exact ⟨.install (hInstalls hAdmitted), hSame.options,
      hSame.active, hSame.others⟩
  removed := by
    intro context context' hSame
    exact ⟨.remove, hSame.options, hSame.active,
      hSame.others⟩
  replaced := by
    intro before before' context context' hBefore hSame
    exact ⟨hBefore.toSameWhitespace.replace, hSame.options,
      hSame.active, hSame.others⟩
  skipped := by
    intro part context context' _ hSame
    refine ⟨hSame.same, ?_, hSame.admitted⟩
    rw [hSame.options]

theorem guards :
    Guards (SameButFlag admitted flag) where
  detects := by
    intro context context' hSame
    rw [hSame.options]
  active := by
    intro context context' id here hSame
    rw [isActive, isActive, hSame.active]
  activate := by
    intro context context' id here hSame
    refine ⟨⟨hSame.same, hSame.admitted⟩, hSame.options, ?_,
      hSame.others⟩
    simp only [Context.activate, hSame.active]
  deactivate := by
    intro context context' id here hSame
    refine ⟨⟨hSame.same, hSame.admitted⟩, hSame.options, ?_,
      hSame.others⟩
    simp only [Context.deactivate, hSame.active]

end SameButFlag

end Context

end ByteGrammar

------------------------------------------------------------
-- Parsers
------------------------------------------------------------

namespace ByteGrammar

namespace Parser

open ByteGrammar.Action ByteGrammar.Context

/-
  What is seen of two runs of a parser is the same: down to
  any depth, where either both runs end or neither does, and
  so in two parses that end.
-/
structure SeenAlike
    (rules : Rules)
    (parser : Parser)
    (state state' : State) :
    Prop where
  run : ∀ depth,
    (parser.run rules depth state).map Step.seen =
      (parser.run rules depth state').map Step.seen
  parse : ∀ step step',
    parser.parse rules state = some step →
      parser.parse rules state' = some step' →
        step.seen = step'.seen

/- The depths of two parses may differ, as they count the
  nodes of the installed whitespace parser. The greater one
  suffices for both. -/
theorem SeenAlike.of_run
    {rules : Rules}
    {parser : Parser}
    {state state' : State}
    (hRun : ∀ depth,
      (parser.run rules depth state).map Step.seen =
        (parser.run rules depth state').map Step.seen) :
    parser.SeenAlike rules state state' := by
  refine ⟨hRun, ?_⟩
  intro step step' hStep hStep'
  have hMore :=
    run_refines (Nat.le_max_left (depth rules parser state)
      (depth rules parser state')) parser state step hStep
  have hMore' :=
    run_refines (Nat.le_max_right (depth rules parser state)
      (depth rules parser state')) parser state' step' hStep'
  have hSeen := hRun
    (max (depth rules parser state)
      (depth rules parser state'))
  rw [hMore, hMore'] at hSeen
  exact Option.some.inj hSeen

/- From one cursor, a parser does the same in contexts that
  agree in all that it asks for. -/
theorem seenAlike_of_concord
    {rules : Rules}
    {admitted : Parser → Prop}
    {together : Context → Context → Prop}
    (hConcord : Concord admitted together)
    (hGuards : Guards together)
    (hClosed : rules.Closed admitted)
    {parser : Parser}
    (hAdmitted : admitted parser)
    (cursor : Cursor)
    {context context' : Context}
    (hForth : together context context')
    (hBack : together context' context) :
    parser.SeenAlike rules ⟨cursor, context⟩
      ⟨cursor, context'⟩ := by
  apply SeenAlike.of_run
  intro depth
  have hCongruence :=
    simulated_contextCongruence Cursor.likeness_eq.outlook
      hGuards
  have hRun :=
    hCongruence.parser_run Cursor.likeness_eq hConcord
      hClosed depth hAdmitted
  have hAlike :
      State.Alike Eq together ⟨cursor, context⟩
        ⟨cursor, context'⟩ :=
    ⟨rfl, hForth⟩
  apply hRun.map_eq _ hAlike ⟨rfl, hBack⟩
  intro outcome events last last' hLast
  simp only [Step.seen, hLast.cursor]

/-
  A parse comes to the same, leaves the same cursor and
  reports the same events

  * whatever whitespace parser is installed, and whether or
    not line breaks are skipped without one, if neither a
    token nor a condition on these can be reached, and

  * whether or not a flag is set, if neither the grammar nor
    the whitespace parsers that it may run mention it.
-/
theorem run_ignores_unasked_context
    (rules : Rules)
    (parser : Parser)
    (cursor : Cursor)
    (context : Context) :
    ((∀ node, rules.Reaches parts [parser] node →
        node.OverlooksWhitespace) →
      ∀ whitespace newlines,
        parser.SeenAlike rules
          ⟨cursor, context.skipping whitespace newlines⟩
          ⟨cursor, context⟩) ∧
      ∀ flag,
        (∀ node, parser.MayRun rules context node →
          node.OverlooksFlag flag) →
        ∀ on,
          parser.SeenAlike rules
            ⟨cursor, context.assignFlag flag on⟩
            ⟨cursor, context⟩ := by
  constructor
  · intro hOverlook whitespace newlines
    apply seenAlike_of_concord
      (SameButWhitespace.concord hOverlook)
      SameButWhitespace.guards
      (rules.closed_reaches_parts [parser])
      (.root (List.mem_singleton_self parser)) cursor
    · exact ⟨rfl, rfl, rfl, rfl⟩
    · exact ⟨rfl, rfl, rfl, rfl⟩
  · intro flag hOverlook on
    have hSame :
        SameButFlag (parser.MayRun rules context) flag
          (context.assignFlag flag on) context :=
      .of_assign flag (fun _ => MayRun.installed) on
    exact seenAlike_of_concord
      (SameButFlag.concord hOverlook MayRun.installs)
      SameButFlag.guards MayRun.closed MayRun.self cursor
      hSame hSame.symm

/- Letters in parentheses: first without tokens, where a
  condition on one flag decides which letter it is, then
  with a token, after the blank that is installed. -/
theorem run_ignores_unasked_context_nested :
    let letter (byte : UInt8) : Parser :=
      .terminal (.byteWhere (· == byte))
    let group : Parser :=
      .between (letter 0x28) (.rule 0) (letter 0x29)
    let flagged : Parser :=
      .select (.flag "strict") (letter 0x61) (letter 0x62)
    let rules : Rules :=
      ⟨[⟨1, some (.either group flagged)⟩], 2⟩
    let spaced : Rules :=
      ⟨[⟨1, some <| .either group <| .token (letter 0x61)⟩],
        2⟩
    let context : Context := .fresh .standard
    let blank : Context :=
      context.installWhitespace (some (letter 0x5F))
    let plain : Cursor := .ofBytes [0x28, 0x62, 0x29]
    let blanks : Cursor := .ofBytes [0x28, 0x5F, 0x61, 0x29]
    (∀ node, rules.Reaches parts [.rule 0] node →
        node.OverlooksWhitespace) ∧
      (Parser.rule 0).SeenAlike rules
        ⟨plain, context.skipping (some (.rule 0)) false⟩
        ⟨plain, context⟩ ∧
      ((Parser.rule 0).run rules 7 ⟨plain, context⟩).map
          Step.outcome =
        some (.matched ⟨0, 3, .byte 0x62⟩) ∧
      (∀ node, (Parser.rule 0).MayRun spaced blank node →
        node.OverlooksFlag "strict") ∧
      (Parser.rule 0).SeenAlike spaced
        ⟨blanks, blank.assignFlag "strict" true⟩
        ⟨blanks, blank⟩ ∧
      ((Parser.rule 0).run spaced 7 ⟨blanks, blank⟩).map
          Step.outcome =
        some (.matched ⟨0, 4, .byte 0x61⟩) := by
  intro letter group flagged rules spaced context blank plain
    blanks
  have hWhitespace : ∀ node,
      rules.Reaches parts [.rule 0] node →
        node.OverlooksWhitespace := by
    intro node hNode
    apply hNode.children.meets_of_every
    · simp [Rules.Every, Every, rules, group, flagged, letter,
        OverlooksWhitespace,
        Condition.overlooksWhitespace_flag]
    · simp [Every, OverlooksWhitespace]
  have hFlag : ∀ node,
      (Parser.rule 0).MayRun spaced blank node →
        node.OverlooksFlag "strict" := by
    intro node hNode
    apply hNode.meets_of_every
    · simp [Rules.Every, Every, spaced, group, letter,
        OverlooksFlag]
    · simp [Every, blank, context, letter, OverlooksFlag,
        installWhitespace]
  refine ⟨hWhitespace, ?_, rfl, hFlag, ?_, rfl⟩
  · exact
      (run_ignores_unasked_context rules (.rule 0) plain
        context).1 hWhitespace (some (.rule 0)) false
  · exact
      (run_ignores_unasked_context spaced (.rule 0) blanks
        blank).2 "strict" hFlag true

end Parser

end ByteGrammar
