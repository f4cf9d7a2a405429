import ByteGrammar.Proofs.Engine.Congruence
import ByteGrammar.Proofs.Engine.Ends

/-
  A parse gives the context back as it found it, however it
  ends.

  Main declarations:
    * `Action.KeepsContext`, `Action.keepsContext_congruence`
    * `Parser.keepsContext_run`
    * `Parser.run_restores_context`
-/

------------------------------------------------------------
-- Actions
------------------------------------------------------------

namespace ByteGrammar

namespace Action

/- However the action ends, the context is what it was. -/
def KeepsContext
    {α : Type}
    (action : Action α) :
    Prop :=
  ∀ state step, action state = some step →
    step.state.context = state.context

/- All operations keep the context, scopes because leaving
  undoes entering. -/
theorem keepsContext_congruence :
    Congruence fun action _ => KeepsContext action where
  exhausted := by
    intro α state step hStep
    cases hStep
  pure := by
    intro α value state step hStep
    cases hStep
    rfl
  fail := by
    intro α state step hStep
    cases hStep
    rfl
  raise := by
    intro α fault state step hStep
    cases hStep
    rfl
  report := by
    intro event state step hStep
    cases hStep
    rfl
  inspect := by
    intro α view state step hStep
    cases hStep
    rfl
  move := by
    intro change state step hStep
    cases hStep
    rfl
  consult := by
    intro α view state step hStep
    cases hStep
    rfl
  bind := by
    intro α β first _ next _ hFirst hNext state step hStep
    cases bind_ends hStep with
    | matched hMatched hMore =>
        exact (hNext _ _ _ hMore).trans
          (hFirst _ _ hMatched)
    | failed hFailed => exact hFirst _ _ hFailed
    | fatal hFatal => exact hFirst _ _ hFatal
  optionally := by
    intro α action _ hAction state step hStep
    cases optionally_ends hStep with
    | matched hMatched => exact hAction _ _ hMatched
    | failed hFailed => exact hAction _ _ hFailed
    | fatal hFatal => exact hAction _ _ hFatal
  attempt := by
    intro α action _ hAction state step hStep
    cases attempt_ends hStep with
    | matched hMatched => exact hAction _ _ hMatched
    | failed hFailed =>
        have hContext := hAction _ _ hFailed
        exact hContext
    | fatal hFatal => exact hAction _ _ hFatal
  within := by
    intro α action _ enter leave hUndone hAction
      state step hStep
    cases within_ends hStep with
    | inner hInner =>
        have hContext := hAction _ _ hInner
        dsimp only at hContext ⊢
        rw [hContext, hUndone]
  bracketed := by
    intro α action _ node label position hAction
      state step hStep
    cases bracketed_ends hStep with
    | inner hInner =>
        have hContext := hAction _ _ hInner
        exact hContext

end Action

end ByteGrammar

------------------------------------------------------------
-- Parsers
------------------------------------------------------------

namespace ByteGrammar

namespace Parser

open ByteGrammar.Action

/- Parsers keep the context. -/
theorem keepsContext_run
    (rules : Rules)
    (depth : Nat)
    (parser : Parser) :
    KeepsContext (parser.run rules depth) := by
  induction depth generalizing parser with
  | zero => exact keepsContext_congruence.exhausted
  | succ depth ih =>
      exact keepsContext_congruence.step_self rules ih parser

/-
  After a match, a failure or a fatal error, the options,
  the installed whitespace parser, the running rules and the
  flags are what they were.
-/
theorem run_restores_context
    {rules : Rules}
    {depth : Nat}
    {parser : Parser}
    {state : State}
    {step : Step Match}
    (hRun : parser.run rules depth state = some step) :
    step.state.context.options = state.context.options ∧
      step.state.context.whitespace =
        state.context.whitespace ∧
      step.state.context.active = state.context.active ∧
      step.state.context.flags = state.context.flags := by
  have hContext :=
    keepsContext_run rules depth parser state step hRun
  rw [hContext]
  exact ⟨rfl, rfl, rfl, rfl⟩

/- A commit point that fails in a rule below two scopes,
  after a blank. -/
theorem run_restores_context_of_commit :
    let rules : Rules :=
      ⟨[⟨1, some (.expect "never" (.terminal .fail))⟩], 2⟩
    let parser : Parser :=
      .withFlag "strict" true
        (.defaultWhitespace (.token (.rule 0)))
    let context : Context :=
      ⟨.standard, some (.terminal .fail), [(1, 0)], .empty⟩
    let step : Step Match :=
      ⟨.fatal (.committed "never" 1),
        ⟨⟨[0x20], 1, .origin, 1⟩, context⟩,
        [.entered (.rule 1) "deferred" 1,
          .commitFailed 1 "never",
          .exited (.rule 1) "deferred" 1 false]⟩
    parser.run rules 6
          ⟨Cursor.ofBytes [0x20], context⟩ = some step ∧
      step.state.context.options = context.options ∧
      step.state.context.whitespace = context.whitespace ∧
      step.state.context.active = context.active ∧
      step.state.context.flags = context.flags := by
  intro rules parser context step
  have hRun :
      parser.run rules 6
        ⟨Cursor.ofBytes [0x20], context⟩ = some step := rfl
  exact ⟨hRun, run_restores_context hRun⟩

end Parser

end ByteGrammar
