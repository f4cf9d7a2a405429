import ByteGrammar.Proofs.Engine.CursorCongruence

/-
  The parsers that a grammar consists of.

  From some roots, a grammar goes down the trees of parsers
  and follows the rules that they name to their targets.

  Main declarations:
    * `Parser.children`, `Parser.Every`
    * `Rules.Reaches`, `Rules.Closed`
    * `Rules.Reaches.meets_of_every`
    * `Parser.MayRun`
-/

------------------------------------------------------------
-- Grammars
------------------------------------------------------------

namespace ByteGrammar

namespace Parser

/- The parsers that stand in a node: those that it runs, and
  the whitespace that it installs. -/
def children :
    Parser → List Parser
  | withWhitespace whitespace parser => [whitespace, parser]
  | parser => parser.parts

theorem mem_children_of_mem_parts
    {parser part : Parser}
    (hPart : part ∈ parser.parts) :
    part ∈ parser.children := by
  cases parser with
  | withWhitespace whitespace parser =>
      exact List.mem_cons_of_mem whitespace hPart
  | _ => exact hPart

/- All nodes of a tree meet a condition. -/
def Every
    (meets : Parser → Prop)
    (parser : Parser) :
    Prop :=
  meets parser ∧
    match parser with
    | terminal _ => True
    | sequence _ first second =>
        first.Every meets ∧ second.Every meets
    | between opening content closing =>
        opening.Every meets ∧ content.Every meets ∧
          closing.Every meets
    | either first second =>
        first.Every meets ∧ second.Every meets
    | orElse first second =>
        first.Every meets ∧ second.Every meets
    | map _ part => part.Every meets
    | filter _ part => part.Every meets
    | repeated _ _ part => part.Every meets
    | orDefault _ part => part.Every meets
    | followedBy part lookahead =>
        part.Every meets ∧ lookahead.Every meets
    | peek part => part.Every meets
    | absent part => part.Every meets
    | capture part => part.Every meets
    | view _ part => part.Every meets
    | convert _ part => part.Every meets
    | expect _ part => part.Every meets
    | reject _ part => part.Every meets
    | takeUntil _ terminator => terminator.Every meets
    | rule _ => True
    | label _ _ part => part.Every meets
    | token part => part.Every meets
    | withWhitespace whitespace part =>
        whitespace.Every meets ∧ part.Every meets
    | defaultWhitespace part => part.Every meets
    | withFlag _ _ part => part.Every meets
    | select _ whenTrue whenFalse =>
        whenTrue.Every meets ∧ whenFalse.Every meets
    | separatedList item separator =>
        item.Every meets ∧ separator.Every meets
    | chain _ operand operator =>
        operand.Every meets ∧ operator.Every meets

theorem Every.node
    {meets : Parser → Prop}
    {parser : Parser}
    (hEvery : parser.Every meets) :
    meets parser := by
  unfold Every at hEvery
  exact hEvery.1

theorem Every.child
    {meets : Parser → Prop}
    {parser part : Parser}
    (hEvery : parser.Every meets)
    (hPart : part ∈ parser.children) :
    part.Every meets := by
  unfold Every at hEvery
  have hBelow := hEvery.2
  cases parser <;>
    simp only [children, parts, List.mem_cons,
      List.not_mem_nil, or_false] at hBelow hPart <;>
    grind

end Parser

namespace Rules

/- The parsers that some roots come to: down their trees, as
  far as `below` follows them, and by the targets of the
  rules that they name. -/
inductive Reaches
    (rules : Rules)
    (below : Parser → List Parser)
    (roots : List Parser) :
    Parser → Prop where
  | root {parser : Parser}
      (hRoot : parser ∈ roots) :
      Reaches rules below roots parser
  | node {parser part : Parser}
      (hParser : Reaches rules below roots parser)
      (hPart : part ∈ below parser) :
      Reaches rules below roots part
  | target {handle : Handle} {target : Parser}
      (hRule : Reaches rules below roots (.rule handle))
      (hTarget : rules.target? handle = some target) :
      Reaches rules below roots target

/- What is reached by the parts of parsers is reached by
  their children. -/
theorem Reaches.children
    {rules : Rules}
    {roots : List Parser}
    {parser : Parser}
    (hParser : rules.Reaches Parser.parts roots parser) :
    rules.Reaches Parser.children roots parser := by
  induction hParser with
  | root hRoot => exact .root hRoot
  | node _ hPart ih =>
      exact ih.node (Parser.mem_children_of_mem_parts hPart)
  | target _ hTarget ih => exact ih.target hTarget

/- All nodes of all targets meet a condition. -/
def Every
    (meets : Parser → Prop)
    (rules : Rules) :
    Prop :=
  ∀ slot ∈ rules.slots, ∀ target ∈ slot.target,
    target.Every meets

theorem Every.target
    {rules : Rules}
    {meets : Parser → Prop}
    {handle : Handle}
    {target : Parser}
    (hEvery : rules.Every meets)
    (hTarget : rules.target? handle = some target) :
    target.Every meets := by
  rcases mem_slots_of_target? hTarget with
    ⟨slot, hSlot, hBound⟩
  exact hEvery slot hSlot target hBound

/- What is reached meets a condition that all nodes of the
  roots and of the targets meet. -/
theorem Reaches.meets_of_every
    {rules : Rules}
    {roots : List Parser}
    {meets : Parser → Prop}
    {parser : Parser}
    (hParser : rules.Reaches Parser.children roots parser)
    (hRules : rules.Every meets)
    (hRoots : ∀ root ∈ roots, root.Every meets) :
    meets parser := by
  have hEvery : parser.Every meets := by
    induction hParser with
    | root hRoot => exact hRoots _ hRoot
    | node _ hPart ih => exact ih.child hPart
    | target _ hTarget _ => exact hRules.target hTarget
  exact hEvery.node

/- A set of parsers that has the parts of its parsers and
  the targets of its rules. -/
structure Closed
    (rules : Rules)
    (admitted : Parser → Prop) :
    Prop where
  part : ∀ {parser part : Parser}, admitted parser →
    part ∈ parser.parts → admitted part
  target : ∀ {handle : Handle} {target : Parser},
    admitted (.rule handle) →
    rules.target? handle = some target → admitted target

/- What some roots come to by the parts of parsers. -/
theorem closed_reaches_parts
    (rules : Rules)
    (roots : List Parser) :
    rules.Closed (rules.Reaches Parser.parts roots) where
  part := Reaches.node
  target := Reaches.target

end Rules

end ByteGrammar

------------------------------------------------------------
-- What a Parse May Run
------------------------------------------------------------

namespace ByteGrammar

namespace Parser

/- The parsers of the grammar that a parser and the installed
  whitespace parser make up. -/
def MayRun
    (rules : Rules)
    (context : Context)
    (parser node : Parser) :
    Prop :=
  rules.Reaches children
    (parser :: context.whitespace.toList) node

namespace MayRun

variable {rules : Rules}
variable {context : Context}
variable {parser node : Parser}

theorem self :
    parser.MayRun rules context parser :=
  .root List.mem_cons_self

theorem installed
    {whitespace : Parser}
    (hWhitespace : context.whitespace = some whitespace) :
    parser.MayRun rules context whitespace := by
  apply Rules.Reaches.root
  simp [hWhitespace]

/- What is installed on the way may be run by a token. -/
theorem installs
    {whitespace part : Parser}
    (hScope :
      parser.MayRun rules context
        (.withWhitespace whitespace part)) :
    parser.MayRun rules context whitespace :=
  hScope.node (by simp [children])

theorem closed :
    rules.Closed (parser.MayRun rules context) where
  part := by
    intro node part hNode hPart
    exact hNode.node (mem_children_of_mem_parts hPart)
  target := Rules.Reaches.target

end MayRun

end Parser

end ByteGrammar
