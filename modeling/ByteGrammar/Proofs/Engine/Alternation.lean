import ByteGrammar.Engine.Combinators

/-
  Separated lists and chains as one loop.

  Both take an item and then, as long as that moves the
  cursor, a separator with another item. They differ in what
  they make of the matches, and in whether a pass is held
  against the cursor or against the end of the last item.

  Main declarations:
    * `Action.alternatePass`, `Action.alternate`
    * `Action.separatedList_eq_alternate`
    * `Action.chain_eq_alternate`
-/

------------------------------------------------------------
-- Items with Separators
------------------------------------------------------------

namespace ByteGrammar

namespace Action

variable {γ : Type}

/- Takes a separator and an item that do not end at
  `still`. -/
def alternatePass
    (still : Nat × γ → Checkpoint → Nat)
    (extend : γ → Match → Match → γ)
    (item separator : Action Match)
    (taken : Nat × γ) :
    Action (Pass (Nat × γ) (Nat × γ)) := do
  let before ← checkpoint
  match ← optionally separator with
  | none => return .done taken
  | some between =>
      match ← optionally item with
      | none =>
          restore before
          return .done taken
      | some found =>
          if found.stop = still taken before then
            restore before
            return .done taken
          else
            return .again
              (found.stop, extend taken.2 between found)

/- Takes an item, and separators with items as long as there
  are any. -/
def alternate
    (still : Nat × γ → Checkpoint → Nat)
    (single : Match → γ)
    (extend : γ → Match → Match → γ)
    (value : γ → Value)
    (item separator : Action Match) :
    Action Match := do
  let first ← item
  let (stop, taken) ←
    loop (alternatePass still extend item separator)
      (first.stop, single first)
  return ⟨first.start, stop, value taken⟩

/- A list holds a pass against the cursor. -/
theorem separatedList_eq_alternate
    (item separator : Action Match) :
    separatedList item separator =
      alternate (fun _ before => before.position)
        (fun first => [first.value])
        (fun values _ found => values ++ [found.value])
        Value.list item separator :=
  rfl

/- A chain holds a pass against the end of the last
  operand. -/
theorem chain_eq_alternate
    (combine : Value → Value → Value → Value)
    (operand operator : Action Match) :
    chain combine operand operator =
      alternate (fun taken _ => taken.1) Match.value
        (fun value symbol right =>
          combine value symbol.value right.value)
        id operand operator :=
  rfl

end Action

end ByteGrammar
