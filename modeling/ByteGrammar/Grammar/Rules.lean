import ByteGrammar.Grammar.Parser

/-
  Tables of rules.

  A rule is created without a target and bound to one at
  most once; whoever holds its handle sees the binding. It
  has an identity, by which a parse tells which rules are
  running. Rules and labels draw their identities from one
  counter, so that they differ until it starts over.

  Main declarations:
    * `GrammarError`, `GrammarError.message`
    * `Rules.draw`, `Rules.create`
    * `Rules.bind`, `Rules.recursive`
    * `Rules.target?_create`, `Rules.target?_bind`
    * `Rules.exists_bind_create`
-/

------------------------------------------------------------
-- Errors
------------------------------------------------------------

namespace ByteGrammar

/- Why a grammar could not be built. -/
inductive GrammarError where
  | alreadyBound (id : ParserId)
  | emptyPrecedence
deriving DecidableEq

namespace GrammarError

/- The text of the error. -/
def message :
    GrammarError → String
  | .alreadyBound id =>
      s!"deferred parser {id} already has a target"
  | .emptyPrecedence =>
      "precedence table has no operator levels"

end GrammarError

end ByteGrammar

------------------------------------------------------------
-- Tables
------------------------------------------------------------

namespace ByteGrammar

/- A rule: its identity, and its target if it is bound. -/
structure Slot where
  id : ParserId
  target : Option Parser

/- The rules in the order in which they were made, and what
  the counter of identities gives out next. -/
structure Rules where
  slots : List Slot
  nextId : ParserId

namespace Rules

/- The table without rules. -/
def empty : Rules :=
  ⟨[], 1⟩

/- The identities of the rules. -/
def ids
    (rules : Rules) :
    List ParserId :=
  rules.slots.map Slot.id

/- The identity of a rule. -/
def idOf
    (rules : Rules)
    (handle : Handle) :
    ParserId :=
  rules.ids.getD handle 0

/- What a rule is bound to, if it is. -/
def target?
    (rules : Rules)
    (handle : Handle) :
    Option Parser :=
  rules.slots[handle]?.bind Slot.target

/- Whether a rule is bound. -/
def isBound
    (rules : Rules)
    (handle : Handle) :
    Bool :=
  (rules.target? handle).isSome

/- Draws an identity. The last one is followed by the
  first. -/
def draw
    (rules : Rules) :
    ParserId × Rules :=
  (rules.nextId, { rules with nextId := rules.nextId + 1 })

/- Makes an unbound rule. -/
def create
    (rules : Rules) :
    Handle × Rules :=
  let (id, rules) := rules.draw
  (rules.slots.length,
    { rules with slots := rules.slots ++ [⟨id, none⟩] })

/- Binds a rule that is not bound yet. -/
def bind
    (rules : Rules)
    (handle : Handle)
    (target : Parser) :
    Except GrammarError Rules :=
  if rules.isBound handle then
    .error (.alreadyBound (rules.idOf handle))
  else
    .ok { rules with
      slots := rules.slots.modify handle fun slot =>
        { slot with target := some target } }

/-
  Makes a rule and binds it to what `build` makes of its
  handle. The building may itself add and bind rules, this
  one included.
-/
def recursive
    {ε : Type}
    (ofError : GrammarError → ε)
    (rules : Rules)
    (build : Handle → Rules → Except ε (Parser × Rules)) :
    Except ε (Handle × Rules) :=
  let (handle, rules) := rules.create
  match build handle rules with
  | .error error => .error error
  | .ok (body, rules) =>
      match rules.bind handle body with
      | .error error => .error (ofError error)
      | .ok rules => .ok (handle, rules)

/- The nodes of all targets together. -/
def size
    (rules : Rules) :
    Nat :=
  rules.slots.foldr
    (fun slot nodes =>
      (slot.target.map Parser.size).getD 0 + nodes)
    0

/- How a rule shows itself, given the spelling of its
  identity. -/
def describe
    (rules : Rules)
    (handle : Handle)
    (number : String) :
    String :=
  s!"Deferred \x7b id: ParserId({number}), " ++
    s!"bound: {rules.isBound handle} \x7d"

end Rules

end ByteGrammar

------------------------------------------------------------
-- Laws
------------------------------------------------------------

namespace ByteGrammar

namespace Rules

/- A new rule is unbound and the others stay as they
  are. -/
theorem target?_create
    (rules : Rules)
    (handle : Handle) :
    rules.create.2.target? handle =
      rules.target? handle := by
  simp only [create, draw, target?, List.getElem?_append]
  split
  · rfl
  · rename_i hOutside
    rw [List.getElem?_eq_none (Nat.le_of_not_lt hOutside)]
    cases hIndex : handle - rules.slots.length with
    | zero => rfl
    | succ index => rfl

/- What a rule of the table is. -/
theorem idOf_eq_getElem
    {rules : Rules}
    {handle : Handle}
    (hKnown : handle < rules.slots.length) :
    rules.idOf handle = rules.slots[handle].id := by
  simp [idOf, ids, List.getD_eq_getElem?_getD, hKnown]

theorem target?_eq_getElem
    {rules : Rules}
    {handle : Handle}
    (hKnown : handle < rules.slots.length) :
    rules.target? handle = rules.slots[handle].target := by
  simp [target?, hKnown]

/- A rule with a target is one of the table. -/
theorem lt_of_target?
    {rules : Rules}
    {handle : Handle}
    {target : Parser}
    (hTarget : rules.target? handle = some target) :
    handle < rules.slots.length := by
  rcases Option.bind_eq_some_iff.mp hTarget with
    ⟨slot, hSlot, -⟩
  exact (List.getElem?_eq_some_iff.mp hSlot).1

theorem mem_slots_of_target?
    {rules : Rules}
    {handle : Handle}
    {target : Parser}
    (hTarget : rules.target? handle = some target) :
    ∃ slot ∈ rules.slots, slot.target = some target := by
  rcases Option.bind_eq_some_iff.mp hTarget with
    ⟨slot, hSlot, hBound⟩
  exact ⟨slot, List.mem_of_getElem? hSlot, hBound⟩

/- Binding changes what one rule is bound to, -/
theorem target?_bind
    {rules result : Rules}
    {handle : Handle}
    {target : Parser}
    (hKnown : handle < rules.slots.length)
    (hBind : rules.bind handle target = .ok result)
    (other : Handle) :
    result.target? other =
      if other = handle then some target
      else rules.target? other := by
  simp only [bind] at hBind
  split at hBind
  · cases hBind
  · cases hBind
    simp only [target?, List.getElem?_modify]
    by_cases hSame : handle = other
    · subst hSame
      simp [hKnown]
    · simp [hSame, Ne.symm hSame]

/- and neither its identity nor the counter. -/
theorem ids_bind
    {rules result : Rules}
    {handle : Handle}
    {target : Parser}
    (hBind : rules.bind handle target = .ok result) :
    result.ids = rules.ids ∧
      result.nextId = rules.nextId := by
  simp only [bind] at hBind
  split at hBind
  · cases hBind
  · cases hBind
    refine ⟨?_, rfl⟩
    apply List.ext_getElem?
    intro other
    simp only [ids, List.getElem?_map, List.getElem?_modify]
    cases rules.slots[other]? with
    | none => rfl
    | some slot =>
        by_cases hSame : handle = other
        · simp [hSame]
        · simp [hSame]

/- A new rule can be bound. -/
theorem exists_bind_create
    (rules : Rules)
    (target : Parser) :
    ∃ built,
      rules.create.2.bind rules.create.1 target =
          .ok built ∧
        built.target? rules.create.1 = some target := by
  have hFree :
      rules.create.2.isBound rules.create.1 = false := by
    unfold isBound
    rw [target?_create]
    simp [create, draw, target?]
  have hKnown :
      rules.create.1 < rules.create.2.slots.length := by
    simp [create, draw]
  have hBind :
      rules.create.2.bind rules.create.1 target = .ok _ :=
    if_neg (by rw [hFree]; exact Bool.false_ne_true)
  refine ⟨_, hBind, ?_⟩
  rw [target?_bind hKnown hBind, if_pos rfl]

end Rules

end ByteGrammar
