import ByteGrammar.Engine.Parse
import Mathlib.Data.Finset.Prod

/-
  How deep a parse can go while loops are detected.

  A rule that runs at a position does not run there again,
  nor does another rule of its identity, so on every path
  down a parse, pairs of an identity and a position are used
  up. Between two calls of rules, a path goes down one tree,
  and at most once into the whitespace parser that was
  installed.

  Main declarations:
    * `Context.idle`, `Context.card_idle_activate_lt`
    * `Parser.budget`
    * `Parser.budget_skip_lt`, `Parser.budget_target_lt`
    * `Parser.budget_lt_depth`
-/

------------------------------------------------------------
-- Idle Rules
------------------------------------------------------------

namespace ByteGrammar

namespace Context

/- The pairs of an identity, of some, and a position in a
  buffer, at which no rule of the identity is running. -/
def idle
    (context : Context)
    (ids : List ParserId)
    (length : Nat) :
    Finset (ParserId × Nat) :=
  (ids.toFinset ×ˢ Finset.range (length + 1)).filter
    fun pair => pair ∉ context.active

@[simp]
theorem idle_installWhitespace
    (context : Context)
    (whitespace : Option Parser)
    (ids : List ParserId)
    (length : Nat) :
    (context.installWhitespace whitespace).idle ids length =
      context.idle ids length :=
  rfl

@[simp]
theorem whitespaceSize_installWhitespace
    (context : Context)
    (whitespace : Option Parser) :
    (context.installWhitespace whitespace).whitespaceSize =
      (whitespace.map Parser.size).getD 0 :=
  rfl

@[simp]
theorem whitespaceSize_activate
    (context : Context)
    (id : ParserId)
    (position : Nat) :
    (context.activate id position).whitespaceSize =
      context.whitespaceSize :=
  rfl

/- There are no more of them than pairs. -/
theorem card_idle_le
    (context : Context)
    (ids : List ParserId)
    (length : Nat) :
    (context.idle ids length).card ≤
      ids.length * (length + 1) := by
  unfold idle
  apply (Finset.card_filter_le _ _).trans
  rw [Finset.card_product, Finset.card_range]
  exact Nat.mul_le_mul_right _ (List.toFinset_card_le ids)

/- A rule that starts running is idle no longer. -/
theorem card_idle_activate_lt
    {context : Context}
    {ids : List ParserId}
    {length : Nat}
    {id : ParserId}
    {position : Nat}
    (hId : id ∈ ids)
    (hPosition : position ≤ length)
    (hIdle : context.isActive id position = false) :
    ((context.activate id position).idle ids length).card <
      (context.idle ids length).card := by
  have hNotActive : (id, position) ∉ context.active := by
    intro hActive
    simp [isActive, hActive] at hIdle
  apply Finset.card_lt_card
  rw [Finset.ssubset_iff_subset_ne]
  constructor
  · intro pair hPair
    simp only [idle, activate, Finset.mem_filter,
      List.mem_cons, not_or] at hPair ⊢
    exact ⟨hPair.1, hPair.2.2⟩
  · intro hEq
    have hBefore :
        (id, position) ∈ context.idle ids length := by
      simp only [idle, Finset.mem_filter,
        Finset.mem_product, Finset.mem_range,
        List.mem_toFinset]
      exact ⟨⟨hId, by omega⟩, hNotActive⟩
    have hAfter :
        (id, position) ∉
          (context.activate id position).idle ids
            length := by
      simp [idle, activate]
    rw [hEq] at hAfter
    exact hAfter hBefore

end Context

end ByteGrammar

------------------------------------------------------------
-- Targets of Rules
------------------------------------------------------------

namespace ByteGrammar

namespace Rules

variable {rules : Rules}
variable {handle : Handle}
variable {target : Parser}

/- The identity of a rule with a target is one of the
  table. -/
theorem idOf_mem_of_target?
    (hTarget : rules.target? handle = some target) :
    rules.idOf handle ∈ rules.ids := by
  have hKnown := lt_of_target? hTarget
  rw [idOf_eq_getElem hKnown]
  exact List.mem_map_of_mem (List.getElem_mem hKnown)

/- No target has more nodes than all together. -/
theorem size_target_le
    (hTarget : rules.target? handle = some target) :
    target.size ≤ rules.size := by
  rcases mem_slots_of_target? hTarget with
    ⟨slot, hSlot, hBound⟩
  unfold size
  generalize rules.slots = slots at hSlot ⊢
  induction slots with
  | nil => cases hSlot
  | cons first rest ih =>
      simp only [List.foldr_cons]
      rcases List.mem_cons.mp hSlot with hFirst | hRest
      · subst hFirst
        simp [hBound]
      · have hLe := ih hRest
        omega

end Rules

end ByteGrammar

------------------------------------------------------------
-- Budgets
------------------------------------------------------------

namespace ByteGrammar

namespace Parser

variable {rules : Rules} {base : State}
variable {parser part target whitespace : Parser}

/- How many nodes a path down the parse can still meet:
  those of the tree and of the whitespace parser, and once
  for each idle pair those of the target of a rule. -/
def budget
    (rules : Rules)
    (parser : Parser)
    (base : State) :
    Nat :=
  let idle :=
    base.context.idle rules.ids base.cursor.data.length
  idle.card * (rules.size + 1) + parser.size +
    base.context.whitespaceSize

/- A part has less to go, also with a flag changed. -/
theorem budget_part_lt
    (hSize : part.size < parser.size) :
    budget rules part base < budget rules parser base := by
  simp only [budget]
  omega

theorem budget_flagged_lt
    {name : String}
    {on : Bool}
    (hSize : part.size < parser.size) :
    budget rules part
        { base with
          context := base.context.assignFlag name on } <
      budget rules parser base := by
  have hPart :
      budget rules part base < budget rules parser base :=
    budget_part_lt hSize
  exact hPart

/- A parser with another whitespace parser has less to go
  if the two together have fewer nodes. -/
theorem budget_installed_lt
    {installed : Option Parser}
    (hSize :
      part.size + (installed.map size).getD 0 <
        parser.size + base.context.whitespaceSize) :
    budget rules part
        { base with
          context :=
            base.context.installWhitespace installed } <
      budget rules parser base := by
  simp only [budget, Context.idle_installWhitespace,
    Context.whitespaceSize_installWhitespace]
  omega

/- What is skipped for a token leaves the rest of the tree
  for the whitespace parser, which runs without one. -/
theorem budget_skip_lt
    (hInstalled : base.context.whitespace = some whitespace) :
    budget rules whitespace
        { base with
          context := base.context.installWhitespace none } <
      budget rules (.token part) base := by
  have hSize :
      base.context.whitespaceSize = whitespace.size := by
    simp [Context.whitespaceSize, hInstalled]
  apply budget_installed_lt
  simp only [size, hSize, Option.map_none, Option.getD_none]
  omega

/- A whitespace parser that is installed for the while is a
  part of the tree. -/
theorem budget_scoped_lt :
    budget rules part
        { base with
          context :=
            base.context.installWhitespace whitespace } <
      budget rules (.withWhitespace whitespace part)
        base := by
  apply budget_installed_lt
  simp only [size, Option.map_some, Option.getD_some]
  omega

theorem budget_unscoped_lt :
    budget rules part
        { base with
          context := base.context.installWhitespace none } <
      budget rules (.defaultWhitespace part) base := by
  apply budget_installed_lt
  simp only [size, Option.map_none, Option.getD_none]
  omega

/- The pair that a call of a rule uses up pays for the
  target. -/
theorem budget_target_lt
    {handle : Handle}
    {position : Nat}
    (hTarget : rules.target? handle = some target)
    (hPosition : position ≤ base.cursor.data.length)
    (hIdle :
      base.context.isActive (rules.idOf handle) position =
        false) :
    budget rules target
        { base with
          context :=
            base.context.activate (rules.idOf handle)
              position } <
      budget rules (.rule handle) base := by
  have hId := Rules.idOf_mem_of_target? hTarget
  have hSize := Rules.size_target_le hTarget
  have hCard :=
    Context.card_idle_activate_lt hId hPosition hIdle
  have hSpent :=
    Nat.mul_le_mul_right (rules.size + 1) hCard
  rw [Nat.succ_mul] at hSpent
  simp only [budget, size, Context.whitespaceSize_activate]
  omega

/- The depth of a parse exceeds its budget. -/
theorem budget_lt_depth
    (hDetects : base.context.options.loopDetection = true) :
    budget rules parser base < depth rules parser base := by
  have hCard :=
    base.context.card_idle_le rules.ids
      base.cursor.data.length
  have hSpent :=
    Nat.mul_le_mul_right (rules.size + 1) hCard
  have hVariants : ∀ nodes,
      variants nodes base.context.options = 1 := by
    intro nodes
    simp [variants, hDetects]
  have hIds : rules.ids.length = rules.slots.length := by
    simp [Rules.ids]
  rw [hIds] at hSpent
  simp only [budget, depth, frames, hVariants, Nat.mul_one]
  omega

end Parser

end ByteGrammar
