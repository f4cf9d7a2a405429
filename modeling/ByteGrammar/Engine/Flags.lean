/-
  Sets of named flags, kept in order.

  The names are strictly ascending, so two sets with the
  same members are the same set.

  Main declarations:
    * `FlagSet.contains`, `FlagSet.assign`
    * `FlagSet.contains_assign`
    * `FlagSet.ext_of_contains`
    * `FlagSet.assign_restored`
-/

------------------------------------------------------------
-- Strictly Ascending Lists
------------------------------------------------------------

namespace ByteGrammar

namespace FlagSet

/- Inserts a name where it belongs. -/
def insertName
    (name : String) :
    List String → List String
  | [] => [name]
  | other :: rest =>
      if name < other then name :: other :: rest
      else if name = other then other :: rest
      else other :: insertName name rest

/- Insertion adds the name and nothing else. -/
theorem mem_insertName
    {name other : String}
    {names : List String} :
    other ∈ insertName name names ↔
      other = name ∨ other ∈ names := by
  induction names with
  | nil => simp [insertName]
  | cons first rest ih =>
      simp only [insertName]
      split
      · simp
      · split
        · rename_i hEq
          subst hEq
          simp
        · simp only [List.mem_cons, ih]
          grind

/- Insertion keeps the order. -/
theorem pairwise_insertName
    {name : String}
    {names : List String}
    (hOrder : names.Pairwise (· < ·)) :
    (insertName name names).Pairwise (· < ·) := by
  induction names with
  | nil => simp [insertName]
  | cons first rest ih =>
      rw [List.pairwise_cons] at hOrder
      simp only [insertName]
      split
      · rename_i hLess
        rw [List.pairwise_cons]
        refine ⟨?_, List.pairwise_cons.2 hOrder⟩
        intro other hOther
        rcases List.mem_cons.1 hOther with hEq | hRest
        · exact hEq ▸ hLess
        · exact String.lt_trans hLess
            (hOrder.1 other hRest)
      · split
        · exact List.pairwise_cons.2 hOrder
        · rename_i hNotLess hNotEq
          rw [List.pairwise_cons]
          refine ⟨?_, ih hOrder.2⟩
          intro other hOther
          rcases mem_insertName.1 hOther with hEq | hRest
          · subst hEq
            exact Std.lt_of_le_of_ne
              (String.not_lt.1 hNotLess)
              fun hSame => hNotEq hSame.symm
          · exact hOrder.1 other hRest

/- Strictly ascending lists with the same members are
  equal. -/
theorem eq_of_mem_iff
    {left right : List String}
    (hLeft : left.Pairwise (· < ·))
    (hRight : right.Pairwise (· < ·))
    (hMem : ∀ name, name ∈ left ↔ name ∈ right) :
    left = right := by
  induction left generalizing right with
  | nil =>
      cases right with
      | nil => rfl
      | cons name rest =>
          exact absurd ((hMem name).2 List.mem_cons_self)
            List.not_mem_nil
  | cons first rest ih =>
      cases right with
      | nil =>
          exact absurd ((hMem first).1 List.mem_cons_self)
            List.not_mem_nil
      | cons other more =>
          rw [List.pairwise_cons] at hLeft hRight
          have hSame : first = other := by
            rcases List.mem_cons.1
                ((hMem first).1 List.mem_cons_self) with
              hEq | hMore
            · exact hEq
            · rcases List.mem_cons.1
                  ((hMem other).2 List.mem_cons_self) with
                hEq | hRest
              · exact hEq.symm
              · exact absurd (hLeft.1 other hRest)
                  (String.lt_asymm
                    (hRight.1 first hMore))
          subst hSame
          have hTail : ∀ name, name ∈ rest ↔ name ∈ more := by
            intro name
            have hName := hMem name
            simp only [List.mem_cons] at hName
            constructor
            · intro hRest
              rcases hName.1 (Or.inr hRest) with hEq | hMore
              · subst hEq
                exact absurd (hLeft.1 name hRest)
                  (String.lt_irrefl name)
              · exact hMore
            · intro hMore
              rcases hName.2 (Or.inr hMore) with hEq | hRest
              · subst hEq
                exact absurd (hRight.1 name hMore)
                  (String.lt_irrefl name)
              · exact hRest
          rw [ih hLeft.2 hRight.2 hTail]

end FlagSet

end ByteGrammar

------------------------------------------------------------
-- Sets of Flags
------------------------------------------------------------

namespace ByteGrammar

/- A set of flags: names in strictly ascending order. -/
structure FlagSet where
  names : List String
  ascending : names.Pairwise (· < ·)

namespace FlagSet

/- No flag is set. -/
def empty : FlagSet :=
  ⟨[], List.Pairwise.nil⟩

/- Whether a flag is set. -/
def contains
    (flags : FlagSet)
    (name : String) :
    Bool :=
  flags.names.contains name

/- Sets or clears a flag. -/
def assign
    (flags : FlagSet)
    (name : String)
    (on : Bool) :
    FlagSet :=
  if on then
    ⟨insertName name flags.names,
      pairwise_insertName flags.ascending⟩
  else
    ⟨flags.names.filter (· != name),
      flags.ascending.filter _⟩

/- What is set after an assignment. -/
theorem contains_assign
    (flags : FlagSet)
    (name other : String)
    (on : Bool) :
    (flags.assign name on).contains other =
      if other = name then on else flags.contains other := by
  cases on with
  | true =>
      rw [Bool.eq_iff_iff]
      simp only [contains, assign, if_true,
        List.contains_iff_mem, mem_insertName]
      split <;> simp_all
  | false =>
      rw [Bool.eq_iff_iff]
      simp only [contains, assign, Bool.false_eq_true,
        if_false, List.contains_iff_mem, List.mem_filter,
        bne_iff_ne]
      split <;> simp_all

/- Sets with the same flags are equal. -/
theorem ext_of_contains
    {left right : FlagSet}
    (hSame :
      ∀ name, left.contains name = right.contains name) :
    left = right := by
  cases left with
  | mk leftNames leftOrder =>
      cases right with
      | mk rightNames rightOrder =>
          have hNames : leftNames = rightNames := by
            apply eq_of_mem_iff leftOrder rightOrder
            intro name
            have hName := hSame name
            simp only [contains] at hName
            rw [← List.contains_iff_mem, hName,
              List.contains_iff_mem]
          subst hNames
          rfl

/- Giving a flag its former state undoes an assignment. -/
theorem assign_restored
    (flags : FlagSet)
    (name : String)
    (on : Bool) :
    (flags.assign name on).assign name
      (flags.contains name) = flags := by
  apply ext_of_contains
  intro other
  simp only [contains_assign]
  split
  · rename_i hEq
    rw [hEq]
  · rfl

end FlagSet

end ByteGrammar
