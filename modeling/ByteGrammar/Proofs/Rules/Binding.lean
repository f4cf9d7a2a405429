import ByteGrammar.Grammar.Forms
import ByteGrammar.Proofs.Cursor.Reachable
import ByteGrammar.Proofs.Rules.Numbering
import ByteGrammar.Proofs.Trace.Nesting
import Mathlib.Data.List.GetD

/-
  Rules are bound once, through whichever handle.

  Who builds a grammar holds handles of rules. Each
  construction makes a rule and a handle of it, and a clone
  is the same handle once more. However handles are made,
  cloned and bound, with labels and parses in between, a
  rule has the target that it was first bound to. As long as
  the counter of identities does not start over, only the
  rule itself stands in the way of its calls.

  Main declarations:
    * `Workshop`, `Workshop.Course`
    * `Workshop.Follows`, `Workshop.Course.follows`
    * `Workshop.recursive_eq_set`
    * `Workshop.FewDraws`
    * `Workshop.WriteOnce`, `Workshop.writeOnce`
-/

------------------------------------------------------------
-- Handles
------------------------------------------------------------

namespace ByteGrammar

/- The rules made so far, and the handles that there are of
  them in the order in which they were given out, clones
  among them. -/
structure Workshop where
  rules : Rules
  handles : List Handle

namespace Workshop

/- Nothing has been made yet. -/
def empty : Workshop :=
  ⟨.empty, []⟩

/- The handle of the rule that is made next. -/
def next
    (workshop : Workshop) :
    Handle :=
  workshop.rules.create.1

/- The identity that is drawn next. -/
def nextId
    (workshop : Workshop) :
    ParserId :=
  workshop.rules.nextId

/- Makes an unbound rule and a handle of it. -/
def create
    (workshop : Workshop) :
    Workshop :=
  ⟨workshop.rules.create.2,
    workshop.handles ++ [workshop.next]⟩

/- Makes one more handle of a rule. -/
def clone
    (workshop : Workshop)
    (handle : Handle) :
    Workshop :=
  { workshop with
    handles := workshop.handles ++ [handle] }

/- Draws an identity for a label. -/
def label
    (workshop : Workshop) :
    Workshop :=
  { workshop with rules := workshop.rules.draw.2 }

/- Tries to bind a rule, and says whether it was bound. -/
def set
    (workshop : Workshop)
    (handle : Handle)
    (target : Parser) :
    Except GrammarError Unit × Workshop :=
  match workshop.rules.bind handle target with
  | .error error => (.error error, workshop)
  | .ok rules => (.ok (), { workshop with rules := rules })

end Workshop

end ByteGrammar

------------------------------------------------------------
-- Courses
------------------------------------------------------------

namespace ByteGrammar

namespace Workshop

/- What is noted of the work: that a rule or a label was
  made, with the identity that was drawn, and that it was
  tried to bind a rule, with the answer. -/
inductive Entry where
  | made (handle : Handle) (id : ParserId)
  | labelled (id : ParserId)
  | tried (handle : Handle) (target : Parser)
      (answer : Except GrammarError Unit)

/-
  The work that leads from one workshop to another, with
  what is noted of it. Handles are found by their place. A
  recursive construction binds its rule last, to what was
  made of its handle; what happens meanwhile is any work
  that knows the handle.
-/
inductive Course :
    Workshop → List Entry → Workshop → Prop where
  | none {workshop : Workshop} :
      Course workshop [] workshop
  | append {start middle last : Workshop}
      {log more : List Entry}
      (hFirst : Course start log middle)
      (hMore : Course middle more last) :
      Course start (log ++ more) last
  | create {workshop : Workshop} :
      Course workshop [.made workshop.next workshop.nextId]
        workshop.create
  | clone {workshop : Workshop} {place : Nat}
      {handle : Handle}
      (hHandle : workshop.handles[place]? = some handle) :
      Course workshop [] (workshop.clone handle)
  | set {workshop : Workshop} {place : Nat}
      {handle : Handle}
      (target : Parser)
      (hHandle : workshop.handles[place]? = some handle) :
      Course workshop
        [.tried handle target
          (workshop.set handle target).1]
        (workshop.set handle target).2
  | recursive {start built : Workshop} {log : List Entry}
      (body : Parser)
      (hBuild : Course start.create log built) :
      Course start
        (.made start.next start.nextId :: log ++
          [.tried start.next body
            (built.set start.next body).1])
        (built.set start.next body).2
  | label {workshop : Workshop} :
      Course workshop [.labelled workshop.nextId]
        workshop.label
  | parse {workshop : Workshop} {session after : Session}
      {parser : Parser} {outcome : Outcome Match}
      {events : List Event}
      (hRules : session.rules = workshop.rules)
      (hParse :
        session.parse parser =
          some (outcome, events, after)) :
      Course workshop [] { workshop with rules := after.rules }

end Workshop

end ByteGrammar

------------------------------------------------------------
-- What a Log Tells
------------------------------------------------------------

namespace ByteGrammar

namespace Workshop

namespace Entry

/- The handle that is noted as made, if one is. -/
def made? :
    Entry → Option Handle
  | made handle _ => some handle
  | labelled _ => none
  | tried _ _ _ => none

/- The identity of the rule that is noted as made. -/
def madeId? :
    Entry → Option ParserId
  | made _ id => some id
  | labelled _ => none
  | tried _ _ _ => none

/- The identity that is noted as drawn, if one is. -/
def drawn? :
    Entry → Option ParserId
  | made _ id => some id
  | labelled id => some id
  | tried _ _ _ => none

/- What it was tried to bind a rule to, if it was. -/
def target?
    (handle : Handle) :
    Entry → Option Parser
  | made _ _ => none
  | labelled _ => none
  | tried other target _ =>
      if other = handle then some target else none

end Entry

/- The handles of the rules that were made, in order. -/
def made
    (log : List Entry) :
    List Handle :=
  log.filterMap Entry.made?

/- The identities of the rules that were made. -/
def madeIds
    (log : List Entry) :
    List ParserId :=
  log.filterMap Entry.madeId?

/- The identities that were drawn, also for labels. -/
def drawn
    (log : List Entry) :
    List ParserId :=
  log.filterMap Entry.drawn?

/- No more identities were drawn than there are. -/
def FewDraws
    (log : List Entry) :
    Prop :=
  (drawn log).length ≤ UInt32.size

/- What it was first tried to bind a rule to. -/
def first?
    (log : List Entry)
    (handle : Handle) :
    Option Parser :=
  log.findSome? (Entry.target? handle)

/- What is answered to who tries to bind a rule of some
  identity, given its target so far. -/
def answer
    (id : ParserId) :
    Option Parser → Except GrammarError Unit
  | none => .ok ()
  | some _ => .error (.alreadyBound id)

theorem made_append
    (log more : List Entry) :
    made (log ++ more) = made log ++ made more :=
  List.filterMap_append

theorem madeIds_append
    (log more : List Entry) :
    madeIds (log ++ more) = madeIds log ++ madeIds more :=
  List.filterMap_append

theorem drawn_append
    (log more : List Entry) :
    drawn (log ++ more) = drawn log ++ drawn more :=
  List.filterMap_append

theorem first?_append
    (log more : List Entry)
    (handle : Handle) :
    first? (log ++ more) handle =
      (first? log handle).or (first? more handle) :=
  List.findSome?_append

/- A try that is all that is noted has nothing before it. -/
theorem eq_tried_of_singleton
    {entry : Entry}
    {before after : List Entry}
    {handle : Handle}
    {target : Parser}
    {result : Except GrammarError Unit}
    (hLog :
      [entry] =
        before ++ .tried handle target result :: after) :
    before = [] ∧ entry = .tried handle target result := by
  rcases List.append_eq_singleton_iff.mp hLog.symm with
    ⟨hBefore, hEntry⟩ | ⟨-, hEntry⟩
  · exact ⟨hBefore, (List.cons.inj hEntry).1.symm⟩
  · cases hEntry

/- The identities of rules are among those drawn. -/
theorem madeIds_sublist_drawn
    (log : List Entry) :
    (madeIds log).Sublist (drawn log) := by
  induction log with
  | nil => exact List.Sublist.slnil
  | cons entry log ih =>
      cases entry with
      | made handle id => exact ih.cons_cons id
      | labelled id => exact ih.cons id
      | tried handle target result => exact ih

end Workshop

end ByteGrammar

------------------------------------------------------------
-- Single Steps
------------------------------------------------------------

namespace ByteGrammar

namespace Workshop

variable {workshop : Workshop}
variable {handle : Handle}

/- Handles are given out in turn. -/
theorem next_eq_length
    (workshop : Workshop) :
    workshop.next = workshop.rules.ids.length := by
  simp [next, Rules.create, Rules.draw, Rules.ids]

/- An unbound rule is bound, and nothing else changes. -/
theorem set_of_unbound
    (target : Parser)
    (hKnown : handle < workshop.next)
    (hUnbound : workshop.rules.target? handle = none) :
    ∃ rules,
      workshop.set handle target =
          (.ok (), ⟨rules, workshop.handles⟩) ∧
        rules.ids = workshop.rules.ids ∧
        rules.nextId = workshop.nextId ∧
        ∀ other, rules.target? other =
          if other = handle then some target
          else workshop.rules.target? other := by
  have hFree : ¬ workshop.rules.isBound handle = true := by
    unfold Rules.isBound
    rw [hUnbound]
    exact Bool.false_ne_true
  have hBind :
      workshop.rules.bind handle target = .ok _ :=
    if_neg hFree
  rcases Rules.ids_bind hBind with ⟨hIds, hNextId⟩
  refine ⟨_, ?_, hIds, hNextId,
    Rules.target?_bind hKnown hBind⟩
  unfold set
  rw [hBind]

/- A bound rule cannot be bound again, and nothing changes
  at all. -/
theorem set_of_bound
    {first : Parser}
    (target : Parser)
    (hBound : workshop.rules.target? handle = some first) :
    workshop.set handle target =
      (.error (.alreadyBound (workshop.rules.idOf handle)),
        workshop) := by
  have hTaken : workshop.rules.isBound handle = true := by
    unfold Rules.isBound
    rw [hBound]
    rfl
  have hBind :
      workshop.rules.bind handle target = .error _ :=
    if_pos hTaken
  unfold set
  rw [hBind]

/-
  A recursive construction binds its rule as anyone else
  would who held the handle: where the rule was bound
  meanwhile, there is the same error, and else the same
  rules are left.
-/
theorem recursive_eq_set
    {ε : Type}
    {start built : Workshop}
    {body : Parser}
    {build : Handle → Rules → Except ε (Parser × Rules)}
    (ofError : GrammarError → ε)
    (hBuild :
      build start.next start.create.rules =
        .ok (body, built.rules)) :
    start.rules.recursive ofError build =
      match (built.set start.next body).1 with
      | .ok () =>
          .ok (start.next,
            (built.set start.next body).2.rules)
      | .error error => .error (ofError error) := by
  have hBody :
      build start.rules.create.1 start.rules.create.2 =
        .ok (body, built.rules) := hBuild
  unfold Rules.recursive set
  dsimp only
  rw [hBody]
  cases hBind : built.rules.bind start.next body with
  | error error =>
      have hFails :
          built.rules.bind start.rules.create.1 body =
            .error error := hBind
      simp only [hFails]
  | ok rules =>
      have hBinds :
          built.rules.bind start.rules.create.1 body =
            .ok rules := hBind
      simp only [hBinds]
      rfl

end Workshop

end ByteGrammar

------------------------------------------------------------
-- What a Course Keeps
------------------------------------------------------------

namespace ByteGrammar

namespace Workshop

/- Handles are of rules that have been made. -/
def Known
    (workshop : Workshop) :
    Prop :=
  ∀ handle ∈ workshop.handles, handle < workshop.next

/-
  How a workshop and its log follow from another: rules are
  made and identities drawn in turn, handles are of known
  rules and stay what they are, rules that had no target
  have the first one that was tried, and tries were answered
  by what was tried before.
-/
structure Follows
    (start : Workshop)
    (log : List Entry)
    (last : Workshop) :
    Prop where
  made : made log = List.range' start.next (made log).length
  next : last.next = start.next + (Workshop.made log).length
  ids : last.rules.ids = start.rules.ids ++ madeIds log
  drawn : drawn log =
    drawnFrom start.nextId (drawn log).length
  nextId : last.nextId =
    start.nextId + UInt32.ofNat (Workshop.drawn log).length
  known : last.Known
  handles : start.handles <+: last.handles
  constructed : ∀ handle ∈ last.handles,
    handle ∈ start.handles ∨ handle ∈ Workshop.made log
  target : ∀ handle, last.rules.target? handle =
    (start.rules.target? handle).or (first? log handle)
  answered : ∀ before handle target result after,
    log = before ++ .tried handle target result :: after →
      handle < last.next ∧
        result = answer (last.rules.idOf handle)
          ((start.rules.target? handle).or
            (first? before handle))

namespace Follows

variable {start middle last : Workshop}
variable {log more : List Entry}
variable {handle : Handle}

/- The rules that were there keep their identities. -/
theorem idOf_eq
    (hFollows : Follows start log last)
    (hKnown : handle < start.next) :
    last.rules.idOf handle = start.rules.idOf handle := by
  rw [next_eq_length] at hKnown
  unfold Rules.idOf
  rw [hFollows.ids, List.getD_append _ _ _ _ hKnown]

/- What notes nothing keeps the rules, and makes handles
  only of rules that have some. -/
theorem unnoted
    (hRules : last.rules = start.rules)
    (hHandles : start.handles <+: last.handles)
    (hShared : ∀ handle ∈ last.handles,
      handle ∈ start.handles)
    (hKnown : start.Known) :
    Follows start [] last where
  made := rfl
  next := congrArg (fun rules => rules.create.1) hRules
  ids := by
    rw [hRules]
    exact (List.append_nil _).symm
  drawn := rfl
  nextId := by
    have hNextId := congrArg Rules.nextId hRules
    exact hNextId.trans (UInt32.add_zero _).symm
  known := by
    intro handle hHandle
    have hLess := hKnown handle (hShared handle hHandle)
    unfold Workshop.next at hLess ⊢
    rwa [hRules]
  handles := hHandles
  constructed := fun handle hHandle =>
    .inl (hShared handle hHandle)
  target := by
    intro handle
    rw [hRules]
    exact Option.or_none.symm
  answered := by
    intro before handle target result after hLog
    cases List.append_eq_nil_iff.mp hLog.symm with
    | intro _ hCons => cases hCons

/- A try of the first part keeps its answer, -/
theorem answered_first
    {before after : List Entry}
    {target : Parser}
    {result : Except GrammarError Unit}
    (hFirst : Follows start log middle)
    (hMore : Follows middle more last)
    (hLog :
      log = before ++ .tried handle target result :: after) :
    handle < last.next ∧
      result = answer (last.rules.idOf handle)
        ((start.rules.target? handle).or
          (first? before handle)) := by
  rcases hFirst.answered _ _ _ _ _ hLog with
    ⟨hKnown, hResult⟩
  rw [hMore.idOf_eq hKnown, hMore.next]
  exact ⟨Nat.lt_add_right _ hKnown, hResult⟩

/- and one of the second has all of the first before it. -/
theorem answered_second
    {before after : List Entry}
    {target : Parser}
    {result : Except GrammarError Unit}
    (hFirst : Follows start log middle)
    (hMore : Follows middle more last)
    (hLog :
      more = before ++ .tried handle target result :: after) :
    handle < last.next ∧
      result = answer (last.rules.idOf handle)
        ((start.rules.target? handle).or
          (first? (log ++ before) handle)) := by
  rw [first?_append, ← Option.or_assoc, ← hFirst.target]
  exact hMore.answered _ _ _ _ _ hLog

theorem append
    (hFirst : Follows start log middle)
    (hMore : Follows middle more last) :
    Follows start (log ++ more) last where
  made := by
    rw [made_append, List.length_append,
      ← List.range'_append_1, ← hFirst.made,
      ← hFirst.next, ← hMore.made]
  next := by
    rw [made_append, List.length_append, hMore.next,
      hFirst.next, Nat.add_assoc]
  ids := by
    rw [madeIds_append, hMore.ids, hFirst.ids,
      List.append_assoc]
  drawn := by
    rw [drawn_append, List.length_append, drawnFrom_add,
      ← hFirst.drawn, ← hFirst.nextId, ← hMore.drawn]
  nextId := by
    rw [drawn_append, List.length_append, hMore.nextId,
      hFirst.nextId, UInt32.ofNat_add, UInt32.add_assoc]
  known := hMore.known
  handles := hFirst.handles.trans hMore.handles
  constructed := by
    intro handle hHandle
    rw [made_append, List.mem_append]
    rcases hMore.constructed handle hHandle with
      hMiddle | hMade
    · rcases hFirst.constructed handle hMiddle with
        hStart | hMade
      · exact .inl hStart
      · exact .inr (.inl hMade)
    · exact .inr (.inr hMade)
  target := by
    intro handle
    rw [hMore.target, hFirst.target, first?_append,
      Option.or_assoc]
  answered := by
    intro before handle target result after hLog
    rcases List.append_eq_append_iff.mp hLog with
      ⟨between, rfl, hAfter⟩ | ⟨between, rfl, hBefore⟩
    · exact answered_second hFirst hMore hAfter
    · cases between with
      | nil =>
          have hTried :
              more =
                [] ++ .tried handle target result :: after :=
            hBefore.symm
          have hEmpty := answered_second hFirst hMore hTried
          simpa using hEmpty
      | cons entry between =>
          cases (List.cons.inj hBefore).1
          exact answered_first hFirst hMore rfl

theorem create
    (hKnown : start.Known) :
    Follows start [.made start.next start.nextId]
      start.create where
  made := rfl
  next := by
    simp [Workshop.next, Workshop.create, Rules.create,
      Rules.draw, Workshop.made, Entry.made?]
  ids := by
    simp [Workshop.create, Rules.create, Rules.draw,
      Rules.ids, madeIds, Entry.madeId?, Workshop.nextId]
  drawn := by
    simp [Workshop.drawn, Entry.drawn?, drawnFrom]
  nextId := rfl
  known := by
    intro handle hHandle
    have hLess : start.next < start.create.next := by
      simp [Workshop.next, Workshop.create, Rules.create,
        Rules.draw]
    rcases List.mem_append.mp hHandle with hOld | hNew
    · exact Nat.lt_trans (hKnown handle hOld) hLess
    · cases List.mem_singleton.mp hNew
      exact hLess
  handles := List.prefix_append _ _
  constructed := fun handle hHandle =>
    List.mem_append.mp hHandle
  target := by
    intro handle
    have hTarget := start.rules.target?_create handle
    exact hTarget.trans Option.or_none.symm
  answered := by
    intro before handle target result after hLog
    cases (eq_tried_of_singleton hLog).2

theorem label
    (hKnown : start.Known) :
    Follows start [.labelled start.nextId] start.label where
  made := rfl
  next := rfl
  ids := (List.append_nil _).symm
  drawn := by
    simp [Workshop.drawn, Entry.drawn?, drawnFrom]
  nextId := rfl
  known := hKnown
  handles := List.prefix_rfl
  constructed := fun handle hHandle => .inl hHandle
  target := fun handle => Option.or_none.symm
  answered := by
    intro before handle target result after hLog
    cases (eq_tried_of_singleton hLog).2

/- A try to bind one rule leaves the others alone. -/
theorem tried
    {rules : Rules}
    {target : Parser}
    {result : Except GrammarError Unit}
    (hKnown : start.Known)
    (hHandle : handle ∈ start.handles)
    (hIds : rules.ids = start.rules.ids)
    (hNextId : rules.nextId = start.nextId)
    (hAnswer :
      result = answer (start.rules.idOf handle)
        (start.rules.target? handle))
    (hSame : rules.target? handle =
      (start.rules.target? handle).or (some target))
    (hOthers : ∀ other, other ≠ handle →
      rules.target? other = start.rules.target? other) :
    Follows start [.tried handle target result]
      ⟨rules, start.handles⟩ := by
  have hNext :
      Workshop.next ⟨rules, start.handles⟩ =
        start.next := by
    rw [next_eq_length, next_eq_length]
    exact congrArg List.length hIds
  refine ⟨rfl, hNext, ?_, rfl, ?_, ?_, List.prefix_rfl,
    fun other hOther => .inl hOther, ?_, ?_⟩
  · exact hIds.trans (List.append_nil _).symm
  · exact hNextId.trans (UInt32.add_zero _).symm
  · intro other hOther
    rw [hNext]
    exact hKnown other hOther
  · intro other
    by_cases hOther : other = handle
    · cases hOther
      simp [hSame, first?, Entry.target?]
    · simp [hOthers other hOther, first?, Entry.target?,
        Ne.symm hOther]
  · intro before other target' result' after hLog
    rcases eq_tried_of_singleton hLog with ⟨rfl, hEntry⟩
    cases hEntry
    refine ⟨?_, ?_⟩
    · rw [hNext]
      exact hKnown handle hHandle
    · unfold Rules.idOf at hAnswer ⊢
      rw [hIds, hAnswer]
      exact congrArg (answer _) Option.or_none.symm

theorem set
    (target : Parser)
    (hKnown : start.Known)
    (hHandle : handle ∈ start.handles) :
    Follows start
      [.tried handle target (start.set handle target).1]
      (start.set handle target).2 := by
  cases hBound : start.rules.target? handle with
  | some first =>
      rw [set_of_bound target hBound]
      apply tried hKnown hHandle rfl rfl
      · rw [hBound]
        rfl
      · rw [hBound]
        rfl
      · exact fun _ _ => rfl
  | none =>
      rcases set_of_unbound target (hKnown handle hHandle)
          hBound with
        ⟨rules, hSet, hIds, hNextId, hTarget⟩
      rw [hSet]
      apply tried hKnown hHandle hIds hNextId
      · rw [hBound]
        rfl
      · rw [hTarget, if_pos rfl, hBound]
        rfl
      · intro other hOther
        rw [hTarget, if_neg hOther]

end Follows

/- A parse leaves the rules of its session. -/
theorem rules_parse
    {session after : Session}
    {parser : Parser}
    {outcome : Outcome Match}
    {events : List Event}
    (hParse :
      session.parse parser = some (outcome, events, after)) :
    after.rules = session.rules := by
  rcases Session.run_ends hParse with ⟨state, -, hAfter⟩
  rw [hAfter]

/- By induction on the course: a recursive construction is a
  construction, the work meanwhile and a try to bind. -/
theorem Course.follows
    {start last : Workshop}
    {log : List Entry}
    (hCourse : Course start log last)
    (hKnown : start.Known) :
    Follows start log last := by
  induction hCourse with
  | none =>
      exact .unnoted rfl List.prefix_rfl
        (fun _ hHandle => hHandle) hKnown
  | append _ _ ihFirst ihMore =>
      have hFirst := ihFirst hKnown
      exact hFirst.append (ihMore hFirst.known)
  | create => exact .create hKnown
  | @clone workshop place handle hHandle =>
      refine .unnoted rfl (List.prefix_append _ _) ?_ hKnown
      intro other hOther
      rcases List.mem_append.mp hOther with hOld | hNew
      · exact hOld
      · cases List.mem_singleton.mp hNew
        exact List.mem_of_getElem? hHandle
  | set target hHandle =>
      exact .set target hKnown (List.mem_of_getElem? hHandle)
  | @recursive start built log body _ ih =>
      -- The handle is still there when its rule is bound.
      have hMade := Follows.create hKnown
      have hBuilt := hMade.append (ih hMade.known)
      have hHandle : start.next ∈ built.handles := by
        apply (ih hMade.known).handles.subset
        exact List.mem_append_right _ List.mem_cons_self
      exact hBuilt.append (.set body hBuilt.known hHandle)
  | label => exact .label hKnown
  | @parse workshop session after parser outcome events
      hRules hParse =>
      have hSame : after.rules = workshop.rules :=
        (rules_parse hParse).trans hRules
      exact .unnoted hSame List.prefix_rfl
        (fun _ hHandle => hHandle) hKnown

end Workshop

end ByteGrammar

------------------------------------------------------------
-- Calls
------------------------------------------------------------

namespace ByteGrammar

namespace Parser

open ByteGrammar.Action
open ByteGrammar.Event

variable {rules : Rules}
variable {depth : Nat}
variable {state : State}
variable {parser : Parser} {step : Step Match}

/- A rule without a target raises a fatal error where it is
  called, and a rule with one runs it. -/
theorem run_rule
    (rules : Rules)
    (handle : Handle)
    (depth : Nat)
    (state : State) :
    let id := rules.idOf handle
    let here := state.cursor.position
    (Parser.rule handle).run rules (depth + 1) state =
      match rules.target? handle with
      | none => some ⟨.fatal (.unbound id here), state, []⟩
      | some target =>
          bracketed (.rule id) "deferred" here
            (guarded id here (target.run rules depth))
            state := by
  intro id here
  cases hTarget : rules.target? handle with
  | some target => exact callRule_of_bound hTarget
  | none =>
      have hCall :
          callRule rules (fun part => part.run rules depth)
              handle state =
            some
              ⟨.fatal (.unbound id here), state, []⟩ := by
        unfold callRule
        refine (inspect_bind _ _ state).trans ?_
        rw [hTarget]
        rfl
      exact hCall

/- A rule of another identity that is running is no reason
  to refuse a rule. -/
theorem run_rule_activate
    {one other : Handle}
    {target : Parser}
    (hTarget : rules.target? one = some target)
    (hOther : rules.idOf one ≠ rules.idOf other)
    (hDetects :
      state.context.options.loopDetection = true)
    (hIdle :
      state.context.isActive (rules.idOf one)
        state.cursor.position = false)
    (position : Nat)
    (depth : Nat) :
    let id := rules.idOf one
    let here := state.cursor.position
    let inside : State :=
      ⟨state.cursor,
        state.context.activate (rules.idOf other) position⟩
    (Parser.rule one).run rules (depth + 1) inside =
      bracketed (.rule id) "deferred" here
        (within (Context.activate id here)
          (fun _ => Context.deactivate id here)
          (target.run rules depth))
        inside := by
  intro id here inside
  have hStillIdle :
      inside.context.isActive id here = false := by
    have hNew :
        (id, here) ≠ (rules.idOf other, position) :=
      fun hSame => hOther (Prod.mk.inj hSame).1
    unfold Context.isActive at hIdle ⊢
    simp only [inside, Context.activate, List.contains_cons,
      id, here, hIdle, beq_eq_false_iff_ne.mpr hNew,
      Bool.or_false]
  have hStillDetects :
      inside.context.options.loopDetection = true := hDetects
  have hGuarded :
      guarded id here (target.run rules depth) inside =
        within (Context.activate id here)
          (fun _ => Context.deactivate id here)
          (target.run rules depth) inside :=
    guarded_of_idle hStillDetects hStillIdle
  have hCall :
      (Parser.rule one).run rules (depth + 1) inside =
        bracketed (.rule id) "deferred" here
          (guarded id here (target.run rules depth))
          inside :=
    callRule_of_bound hTarget
  rw [hCall]
  unfold bracketed
  rw [hGuarded]

/- A rule of the same identity that is running here is a
  reason, whatever it runs. -/
theorem run_rule_of_shared
    {one other : Handle}
    {target : Parser}
    (hTarget : rules.target? one = some target)
    (hShared : rules.idOf one = rules.idOf other)
    (hDetects :
      state.context.options.loopDetection = true)
    (depth : Nat) :
    let id := rules.idOf other
    let here := state.cursor.position
    let inside : State :=
      ⟨state.cursor, state.context.activate id here⟩
    (Parser.rule one).run rules (depth + 1) inside =
      some ⟨.failed, inside,
        [.entered (.rule id) "deferred" here,
          .loopDetected id here,
          .exited (.rule id) "deferred" here false]⟩ := by
  intro id here inside
  have hActive :
      inside.context.isActive id here = true := by
    simp [inside, Context.isActive, Context.activate]
  have hStillDetects :
      inside.context.options.loopDetection = true := hDetects
  have hGuarded :
      guarded id here (target.run rules depth) inside =
        some ⟨.failed, inside, [.loopDetected id here]⟩ :=
    guarded_of_active hStillDetects hActive
  rw [run_rule, hTarget, hShared]
  exact bracketed_of_inner hGuarded

/- A call is refused only where the rule is open itself, or
  was running before. -/
theorem running_of_refused
    {before after : List Event}
    {id : ParserId}
    {label : String}
    {position : Nat}
    (hRun : parser.run rules depth state = some step)
    (hSplit :
      step.events =
        before ++ .entered (.rule id) label position :: after)
    (hRefused : Refused id label position after) :
    ∃ opened, openAfter [] before = some opened ∧
      (Running opened id position ∨
        (id, position) ∈ state.context.active) := by
  have hEvents := account_run hRun
  rw [hSplit] at hEvents
  cases hDetects : state.context.options.loopDetection with
  | false =>
      rw [hDetects] at hEvents
      rcases hRefused with ⟨rest, rfl⟩
      have hNone :=
        hEvents.loopDetected_not_mem rfl id position
      simp at hNone
  | true =>
      rw [hDetects] at hEvents
      have hRunning : ∀ id position,
          (id, position) ∈ state.context.active ↔
            Running [] id position ∨
              (id, position) ∈ state.context.active := by
        intro id position
        simp [Running]
      have hNone :
          RefusesExactly state.context.active [] [] := by
        simp [RefusesExactly]
      have hExact := hEvents.refusesExactly hRunning hNone
      rw [List.append_nil] at hExact
      rcases hExact.of_split with ⟨opened, hOpened, hIff⟩
      exact ⟨opened, hOpened, hIff.mp hRefused⟩

end Parser

end ByteGrammar

------------------------------------------------------------
-- Binding Once
------------------------------------------------------------

namespace ByteGrammar

namespace Workshop

open ByteGrammar.Action
open ByteGrammar.Event

/- What holds of a workshop after any course of work, as far
  as the log of it tells. -/
structure WriteOnce
    (log : List Entry)
    (last : Workshop) :
    Prop where
  /- Constructions make different rules, and each handle is
    of a rule that was constructed. -/
  distinct : (made log).Nodup
  constructed : ∀ handle ∈ last.handles, handle ∈ made log
  /- The identities that are drawn, for rules and labels,
    differ as long as the counter does not start over, and
    no longer. Then the rules have different ones. -/
  drawn : (drawn log).Nodup ↔ FewDraws log
  ids : last.rules.ids = madeIds log
  apart : FewDraws log → last.rules.IdsApart
  /- Who was first to try to bind a rule has bound it, and
    the others were told that it is bound. -/
  answered : ∀ before handle target result after,
    log = before ++ .tried handle target result :: after →
      result = answer (last.rules.idOf handle)
        (first? before handle)
  target : ∀ handle,
    last.rules.target? handle = first? log handle
  /- From then on, a try to bind the rule changes nothing. -/
  rebound : ∀ handle first target,
    first? log handle = some first →
      last.set handle target =
        (.error (.alreadyBound (last.rules.idOf handle)),
          last)
  /- A parse binds nothing. -/
  parsed : ∀ (session after : Session) parser outcome events,
    session.rules = last.rules →
      session.parse parser =
          some (outcome, events, after) →
        after.rules = last.rules
  /- A call of a rule runs the target that was tried first,
    and raises a fatal error where there is none. -/
  called : ∀ handle depth (state : State),
    let id := last.rules.idOf handle
    let here := state.cursor.position
    (Parser.rule handle).run last.rules (depth + 1) state =
      match first? log handle with
      | none => some ⟨.fatal (.unbound id here), state, []⟩
      | some target =>
          bracketed (.rule id) "deferred" here
            (guarded id here (target.run last.rules depth))
            state
  /- A rule that is called inside another one is not refused
    for that, whatever the targets are. -/
  unblocked : FewDraws log →
    ∀ one other target,
    one ≠ other →
    other ∈ made log →
    first? log one = some target →
    ∀ depth position (state : State),
      let id := last.rules.idOf one
      let here := state.cursor.position
      let inside : State :=
        ⟨state.cursor,
          state.context.activate (last.rules.idOf other)
            position⟩
      state.context.options.loopDetection = true →
      state.context.isActive id here = false →
        (Parser.rule one).run last.rules (depth + 1) inside =
          bracketed (.rule id) "deferred" here
            (within (Context.activate id here)
              (fun _ => Context.deactivate id here)
              (target.run last.rules depth))
            inside
  /- In any parse, a call is refused only where the rule is
    open itself, or was running before. -/
  refused : ∀ (parser : Parser) depth (state : State) step,
    parser.run last.rules depth state = some step →
    ∀ before id label position after,
      step.events =
          before ++
            .entered (.rule id) label position :: after →
        Refused id label position after →
          ∃ opened, openAfter [] before = some opened ∧
            (Running opened id position ∨
              (id, position) ∈ state.context.active)

/- Rules that were made have different identities as long as
  few were drawn. -/
theorem Follows.idsApart
    {log : List Entry}
    {last : Workshop}
    (hFollows : Follows .empty log last)
    (hFew : FewDraws log) :
    last.rules.IdsApart := by
  have hDrawn : (Workshop.drawn log).Nodup := by
    rw [hFollows.drawn]
    exact (nodup_drawnFrom_iff _ _).mpr hFew
  have hIds : last.rules.ids = madeIds log := hFollows.ids
  unfold Rules.IdsApart
  rw [hIds]
  exact hDrawn.sublist (madeIds_sublist_drawn log)

/- What was made is in the table. -/
theorem Follows.lt_of_made
    {log : List Entry}
    {last : Workshop}
    {handle : Handle}
    (hFollows : Follows .empty log last)
    (hMade : handle ∈ Workshop.made log) :
    handle < last.rules.slots.length := by
  rw [hFollows.made, List.mem_range'_1] at hMade
  have hNext := hFollows.next
  rw [next_eq_length, Rules.ids, List.length_map] at hNext
  rw [hNext]
  exact hMade.2

/-
  Deferred binding is write-once and shared. Whatever
  handles are made, cloned and bound in whatever order, also
  by recursive constructions that bind their own handle, and
  whatever is parsed in between: the first to try through
  any handle of a rule binds it for all of them, for good.
  As long as the counter of identities does not start over,
  rules do not block each other.
-/
theorem writeOnce
    {log : List Entry}
    {last : Workshop}
    (hCourse : Course .empty log last) :
    WriteOnce log last := by
  have hKnown : Workshop.empty.Known :=
    fun _ hHandle => absurd hHandle List.not_mem_nil
  have hFollows := hCourse.follows hKnown
  have hTarget : ∀ handle,
      last.rules.target? handle = first? log handle := by
    intro handle
    rw [hFollows.target]
    exact Option.none_or
  refine ⟨?_, ?_, ?_, hFollows.ids, hFollows.idsApart, ?_,
    hTarget, ?_, ?_, ?_, ?_, ?_⟩
  · rw [hFollows.made]
    exact List.nodup_range'
  · intro handle hHandle
    rcases hFollows.constructed handle hHandle with
      hStart | hMade
    · exact absurd hStart List.not_mem_nil
    · exact hMade
  · have hDrawn :=
      nodup_drawnFrom_iff Workshop.empty.nextId
        (Workshop.drawn log).length
    rw [← hFollows.drawn] at hDrawn
    exact hDrawn
  · intro before handle target result after hLog
    rcases hFollows.answered before handle target result
        after hLog with
      ⟨-, hAnswered⟩
    exact hAnswered.trans (congrArg _ Option.none_or)
  · intro handle first target hFirst
    exact set_of_bound target
      ((hTarget handle).trans hFirst)
  · intro session after parser outcome events hRules hParse
    exact (rules_parse hParse).trans hRules
  · intro handle depth state
    rw [Parser.run_rule, hTarget]
  · intro hFew one other target hOther hMade hFirst depth
      position state id here inside hDetects hIdle
    have hOne := (hTarget one).trans hFirst
    have hIds :
        last.rules.idOf one ≠ last.rules.idOf other :=
      fun hSame => hOther <|
        (hFollows.idsApart hFew).handle_eq
          (Rules.lt_of_target? hOne)
          (hFollows.lt_of_made hMade) hSame
    exact Parser.run_rule_activate hOne hIds hDetects hIdle
      position depth
  · intro parser depth state step hRun before id label
      position after hSplit hRefused
    exact Parser.running_of_refused hRun hSplit hRefused

/- A handle and its clone, of which the clone comes first,
  a label, and a recursive construction that binds its own
  handle to the same target. -/
theorem writeOnce_recursive :
    let letter (byte : UInt8) : Parser := .byte byte
    let first : Slot := ⟨1, some (letter 0x61)⟩
    let rules : Rules :=
      ⟨[first, ⟨3, some (letter 0x61)⟩], 4⟩
    let log : List Entry :=
      [.made 0 1, .tried 0 (letter 0x61) (.ok ()),
        .tried 0 (letter 0x62) (.error (.alreadyBound 1)),
        .labelled 2, .made 1 3,
        .tried 1 (letter 0x61) (.ok ()),
        .tried 1 (letter 0x63) (.error (.alreadyBound 3))]
    let context : Context :=
      (Context.fresh .standard).activate 1 0
    Course .empty log ⟨rules, [0, 0, 1]⟩ ∧
      FewDraws log ∧
      rules.target? 0 = rules.target? 1 ∧
      (Parser.rule 1).run rules 2
          ⟨.ofBytes [0x61], context⟩ =
        some ⟨.matched ⟨0, 1, .byte 0x61⟩,
          ⟨⟨[0x61], 1, .origin, 1⟩, context⟩,
          [.entered (.rule 3) "deferred" 0,
            .exited (.rule 3) "deferred" 0 true]⟩ := by
  intro letter first rules log context
  have hMade :
      Course .empty [.made 0 1] ⟨⟨[⟨1, none⟩], 2⟩, [0]⟩ :=
    .create
  have hCloned :
      Course ⟨⟨[⟨1, none⟩], 2⟩, [0]⟩ []
        ⟨⟨[⟨1, none⟩], 2⟩, [0, 0]⟩ :=
    .clone (rfl : [0][0]? = some 0)
  have hSet :
      Course ⟨⟨[⟨1, none⟩], 2⟩, [0, 0]⟩
        [.tried 0 (letter 0x61) (.ok ())]
        ⟨⟨[first], 2⟩, [0, 0]⟩ :=
    .set (letter 0x61) (rfl : [0, 0][1]? = some 0)
  have hTaken :
      Course ⟨⟨[first], 2⟩, [0, 0]⟩
        [.tried 0 (letter 0x62) (.error (.alreadyBound 1))]
        ⟨⟨[first], 2⟩, [0, 0]⟩ :=
    .set (letter 0x62) (rfl : [0, 0][0]? = some 0)
  let started : Workshop := ⟨⟨[first], 3⟩, [0, 0]⟩
  have hLabelled :
      Course ⟨⟨[first], 2⟩, [0, 0]⟩ [.labelled 2] started :=
    .label
  have hBuild :
      Course started.create
        [.tried 1 (letter 0x61) (.ok ())]
        ⟨rules, [0, 0, 1]⟩ :=
    .set (letter 0x61) (rfl : [0, 0, 1][2]? = some 1)
  have hRecursive :
      Course started
        [.made 1 3, .tried 1 (letter 0x61) (.ok ()),
          .tried 1 (letter 0x63) (.error (.alreadyBound 3))]
        ⟨rules, [0, 0, 1]⟩ :=
    .recursive (letter 0x63) hBuild
  have hParse :
      (Session.start [0x61] .standard rules).parse (.rule 0) =
        some (.matched ⟨0, 1, .byte 0x61⟩,
          [.entered (.rule 1) "deferred" 0,
            .exited (.rule 1) "deferred" 0 true],
          ⟨⟨⟨[0x61], 1, .origin, 1⟩, .fresh .standard⟩,
            rules, []⟩) := rfl
  have hParsed :
      Course ⟨rules, [0, 0, 1]⟩ [] ⟨rules, [0, 0, 1]⟩ :=
    .parse rfl hParse
  have hCourse : Course .empty log ⟨rules, [0, 0, 1]⟩ :=
    hMade.append (hCloned.append (hSet.append
      (hTaken.append (hLabelled.append
        (hRecursive.append hParsed)))))
  have hFew : FewDraws log := by
    unfold FewDraws
    decide
  have hOnce := writeOnce hCourse
  have hSame : rules.target? 0 = rules.target? 1 :=
    (hOnce.target 0).trans (hOnce.target 1).symm
  have hRun :=
    hOnce.unblocked hFew 1 0 (letter 0x61) Nat.one_ne_zero
      List.mem_cons_self rfl 1 0
      ⟨.ofBytes [0x61], .fresh .standard⟩ rfl rfl
  exact ⟨hCourse, hFew, hSame, hRun⟩

end Workshop

end ByteGrammar
