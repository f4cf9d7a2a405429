import ByteGrammar.Proofs.Engine.Congruence
import ByteGrammar.Proofs.Engine.Ends
import ByteGrammar.Proofs.Engine.Reach

/-
  More depth never changes an outcome.

  Main declarations:
    * `Action.Refines`, `Action.refines_congruence`
    * `Parser.run_refines`
    * `Parser.run_refines_of_unscoped`
    * `Parser.exists_least_depth`
-/

------------------------------------------------------------
-- Refinement
------------------------------------------------------------

namespace ByteGrammar

namespace Action

/- Whatever the first action comes to, the second comes to
  as well. -/
def Refines
    {α : Type}
    (small large : Action α) :
    Prop :=
  ∀ state step, small state = some step →
    large state = some step

/- All operations are monotone. -/
theorem refines_congruence :
    Congruence Refines where
  exhausted := fun _ _ hStep => hStep
  pure := fun _ _ _ hStep => hStep
  fail := fun _ _ hStep => hStep
  raise := fun _ _ _ hStep => hStep
  report := fun _ _ _ hStep => hStep
  inspect := fun _ _ _ hStep => hStep
  move := fun _ _ _ hStep => hStep
  consult := fun _ _ _ hStep => hStep
  bind := by
    intro α β first first' next next' hFirst hNext
      state step hStep
    cases bind_ends hStep with
    | matched hMatched hMore =>
        rw [bind_of_matched (hFirst _ _ hMatched),
          hNext _ _ _ hMore]
        rfl
    | failed hFailed =>
        exact bind_of_failed (hFirst _ _ hFailed)
    | fatal hFatal =>
        exact bind_of_fatal (hFirst _ _ hFatal)
  optionally := by
    intro α action action' hAction state step hStep
    cases optionally_ends hStep with
    | matched hMatched =>
        exact optionally_of_matched (hAction _ _ hMatched)
    | failed hFailed =>
        exact optionally_of_failed (hAction _ _ hFailed)
    | fatal hFatal =>
        exact optionally_of_fatal (hAction _ _ hFatal)
  attempt := by
    intro α action action' hAction state step hStep
    cases attempt_ends hStep with
    | matched hMatched =>
        exact attempt_of_matched (hAction _ _ hMatched)
    | failed hFailed =>
        exact attempt_of_failed (hAction _ _ hFailed)
    | fatal hFatal =>
        exact attempt_of_fatal (hAction _ _ hFatal)
  within := by
    intro α action action' enter leave _ hAction
      state step hStep
    cases within_ends hStep with
    | inner hInner =>
        exact within_of_inner (hAction _ _ hInner)
  bracketed := by
    intro α action action' node label position hAction
      state step hStep
    cases bracketed_ends hStep with
    | inner hInner =>
        exact bracketed_of_inner (hAction _ _ hInner)

end Action

end ByteGrammar

------------------------------------------------------------
-- Depth
------------------------------------------------------------

namespace ByteGrammar

namespace Parser

open ByteGrammar.Action

/- One more level of depth keeps every outcome. -/
theorem run_refines_succ
    (rules : Rules)
    (depth : Nat)
    (parser : Parser) :
    Refines (parser.run rules depth)
      (parser.run rules (depth + 1)) := by
  induction depth generalizing parser with
  | zero =>
      intro state step hStep
      cases hStep
  | succ depth ih =>
      exact refines_congruence.step rules ih parser

/- More depth keeps every outcome. -/
theorem run_refines
    {rules : Rules}
    {depth more : Nat}
    (hDepth : depth ≤ more)
    (parser : Parser) :
    Refines (parser.run rules depth)
      (parser.run rules more) := by
  induction hDepth with
  | refl => exact fun _ _ hStep => hStep
  | step _ ih =>
      intro state step hStep
      exact run_refines_succ rules _ parser state step
        (ih state step hStep)

/- A part has fewer nodes. -/
theorem size_lt_of_mem_parts
    {parser part : Parser}
    (hPart : part ∈ parser.parts) :
    part.size < parser.size := by
  cases parser <;>
    simp only [parts, List.mem_cons, List.not_mem_nil,
      or_false] at hPart <;>
    simp only [size] <;>
    grind

/- Without scopes, a level of depth for each node is all
  that is needed. -/
theorem run_refines_of_unscoped
    {rules : Rules}
    {depth : Nat}
    (more : Nat)
    {parser : Parser}
    (hUnscoped : parser.Every (·.isScoped = false))
    (hSize : parser.size ≤ depth) :
    Refines (parser.run rules more)
      (parser.run rules depth) := by
  induction depth generalizing more parser with
  | zero => cases parser <;> cases hSize
  | succ depth ih =>
      cases more with
      | zero =>
          intro state step hStep
          cases hStep
      | succ more =>
          apply refines_congruence.cursorCongruence.step
            Cursor.likeness_eq rules hUnscoped.node
          intro part hPart
          have hLess := size_lt_of_mem_parts hPart
          exact ih more
            (hUnscoped.child
              (mem_children_of_mem_parts hPart))
            (by omega)

/- Where there is an outcome, there is a least depth that
  suffices for it. -/
theorem exists_least_depth
    {rules : Rules}
    {depth : Nat}
    {parser : Parser}
    {state : State}
    {step : Step Match}
    (hRun : parser.run rules depth state = some step) :
    ∃ least ≤ depth,
      parser.run rules least state = some step ∧
      ∀ less < least, parser.run rules less state = none := by
  induction depth with
  | zero => cases hRun
  | succ depth ih =>
      cases hBefore : parser.run rules depth state with
      | some before =>
          have hSame :=
            run_refines_succ rules depth parser state before
              hBefore
          rw [hRun] at hSame
          cases hSame
          rcases ih hBefore with ⟨least, hLeast, hEnds, hNone⟩
          exact ⟨least, Nat.le_succ_of_le hLeast, hEnds, hNone⟩
      | none =>
          refine ⟨depth + 1, Nat.le_refl _, hRun, ?_⟩
          intro less hLess
          cases hEarly : parser.run rules less state with
          | none => rfl
          | some early =>
              have hLate :=
                run_refines (Nat.le_of_lt_succ hLess) parser
                  state early hEarly
              rw [hBefore] at hLate
              cases hLate

end Parser

end ByteGrammar
