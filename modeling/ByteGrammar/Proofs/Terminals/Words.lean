import ByteGrammar.Proofs.Failures.Agreement
import ByteGrammar.Proofs.Forms.Laws

/-
  Keywords and identifiers cut the input alike.

  Both go by the longest run of bytes that an identifier goes
  on with. An identifier is that run, and a keyword that is
  spelled as an identifier is found where it is that run. So
  one keyword at most is found at a position, and several may
  be tried in any order.

  Main declarations:
    * `ByteClass.isIdentifier`, `Terminal.wordAt`
    * `Terminal.scanKeyword_eq`, `Terminal.scanIdentifier_eq`
    * `Parser.Identifies`, `Parser.endsIn_keyword_matched`
    * `Action.either_keywords_comm`
    * `Parser.included_keywords_of_perm`
    * `Parser.keywords_cut_like_identifiers`
-/

------------------------------------------------------------
-- Words in Bytes
------------------------------------------------------------

namespace ByteGrammar

namespace ByteClass

/- Whether some bytes spell an identifier. -/
def isIdentifier :
    List UInt8 → Bool
  | first :: rest =>
      startsIdentifier first && rest.all continuesIdentifier
  | [] => false

theorem continues_of_starts
    {byte : UInt8}
    (hStarts : startsIdentifier byte = true) :
    continuesIdentifier byte = true := by
  simp only [startsIdentifier, continuesIdentifier,
    isAlphanumeric, Bool.or_eq_true] at hStarts ⊢
  rcases hStarts with hAlpha | hLine
  · exact .inl (.inl hAlpha)
  · exact .inr hLine

theorem all_continues
    {word : List UInt8}
    (hWord : isIdentifier word = true) :
    ∀ byte ∈ word, continuesIdentifier byte = true := by
  cases word with
  | nil => cases hWord
  | cons first rest =>
      have hParts := Bool.and_eq_true_iff.mp hWord
      rw [List.forall_mem_cons]
      exact ⟨continues_of_starts hParts.1,
        List.all_eq_true.mp hParts.2⟩

end ByteClass

namespace Terminal

open ByteGrammar.ByteClass

variable {bytes : List UInt8}
variable {word : String}

/- The longest run of bytes that an identifier goes on
  with. -/
def wordAt
    (bytes : List UInt8) :
    List UInt8 :=
  bytes.takeWhile continuesIdentifier

/- What is met of such bytes is met of their longest
  run. -/
theorem commonLength_le_wordAt
    {expected : List UInt8}
    (hExpected : ∀ byte ∈ expected,
      continuesIdentifier byte = true) :
    commonLength bytes expected ≤ (wordAt bytes).length := by
  rcases exists_shared bytes expected with
    ⟨shared, ⟨rest, rfl⟩, hShared, hLength⟩
  have hContinues : ∀ byte ∈ shared,
      continuesIdentifier byte = true :=
    fun byte hByte => hExpected byte (hShared.subset hByte)
  rw [← hLength, wordAt,
    List.takeWhile_append_of_pos hContinues,
    List.length_append]
  exact Nat.le_add_right _ _

/- An identifier is the longest run, if that starts as
  one. -/
theorem scanIdentifier_eq
    (bytes : List UInt8) :
    scanIdentifier bytes =
      if isIdentifier (wordAt bytes) then
        Scan.covered (wordAt bytes).length
      else .miss := by
  cases bytes with
  | nil => rfl
  | cons first rest =>
      cases hStarts : startsIdentifier first with
      | true =>
          have hWord :
              wordAt (first :: rest) =
                first :: wordAt rest :=
            List.takeWhile_cons_of_pos
              (continues_of_starts hStarts)
          have hRest :
              (wordAt rest).all continuesIdentifier = true :=
            List.all_takeWhile
          rw [scanIdentifier, if_pos hStarts, ← wordAt,
            hWord, isIdentifier, hStarts, hRest]
          rfl
      | false =>
          have hWord :
              isIdentifier (wordAt (first :: rest)) =
                false := by
            cases hFirst : continuesIdentifier first with
            | true =>
                rw [wordAt, List.takeWhile_cons_of_pos hFirst,
                  isIdentifier, hStarts]
                rfl
            | false =>
                rw [wordAt, List.takeWhile_cons_of_neg
                  (Bool.eq_false_iff.mp hFirst)]
                rfl
          rw [hWord]
          simp [scanIdentifier, hStarts]

/- A keyword is found where it is the longest run. -/
theorem scanKeyword_eq
    (hWord : isIdentifier (Utf8.encode word) = true)
    (bytes : List UInt8) :
    scanKeyword word bytes =
      if wordAt bytes = Utf8.encode word then
        .hit (Utf8.encode word).length fun _ => .str word
      else
        .broken (commonLength bytes (Utf8.encode word)) := by
  by_cases hPrefix : Utf8.encode word <+: bytes
  · have hMatched := commonLength_eq_iff.mpr hPrefix
    rcases hPrefix with ⟨rest, rfl⟩
    have hRun :
        wordAt (Utf8.encode word ++ rest) =
          Utf8.encode word ++ wordAt rest :=
      List.takeWhile_append_of_pos (all_continues hWord)
    simp only [scanKeyword, hMatched, Nat.lt_irrefl,
      false_or, List.drop_left, hRun,
      List.append_right_eq_self]
    -- The byte behind the word decides.
    cases rest with
    | nil => rfl
    | cons next rest =>
        cases hNext : continuesIdentifier next <;>
          simp [wordAt, hNext]
  · have hOther : wordAt bytes ≠ Utf8.encode word := by
      intro hSame
      rw [← hSame] at hPrefix
      exact hPrefix (List.takeWhile_prefix _)
    have hMet :
        commonLength bytes (Utf8.encode word) <
          (Utf8.encode word).length :=
      Nat.lt_of_le_of_ne (commonLength_le _ _)
        (mt commonLength_eq_iff.mp hPrefix)
    simp only [scanKeyword, hMet, true_or, if_true,
      if_neg hOther]

end Terminal

end ByteGrammar

------------------------------------------------------------
-- Finding Words
------------------------------------------------------------

namespace ByteGrammar

namespace Action

open ByteGrammar.ByteClass ByteGrammar.Terminal

variable {state : State}
variable {word : String}

theorem scan_identifier
    (hSpelled :
      isIdentifier (wordAt state.cursor.remaining) = true) :
    scan .identifier state =
      some
        ⟨.matched ⟨state.cursor.position,
            (state.advance
              (wordAt
                state.cursor.remaining).length).cursor.position,
            .region ⟨state.cursor.position,
              (wordAt state.cursor.remaining).length⟩⟩,
          state.advance
            (wordAt state.cursor.remaining).length, []⟩ := by
  have hScan :
      Terminal.identifier.scan state.cursor.remaining =
        Scan.covered
          (wordAt state.cursor.remaining).length := by
    refine (scanIdentifier_eq _).trans ?_
    rw [if_pos hSpelled]
  exact scan_of_hit hScan

theorem scan_identifier_miss
    (hNone :
      isIdentifier (wordAt state.cursor.remaining) =
        false) :
    scan .identifier state = some ⟨.failed, state, []⟩ := by
  apply scan_of_miss
  refine (scanIdentifier_eq _).trans ?_
  rw [hNone]
  rfl

theorem scan_keyword
    (hWord : isIdentifier (Utf8.encode word) = true)
    (hHere :
      wordAt state.cursor.remaining = Utf8.encode word) :
    scan (.keyword word) state =
      some
        ⟨.matched ⟨state.cursor.position,
            (state.advance
              (Utf8.encode word).length).cursor.position,
            .str word⟩,
          state.advance (Utf8.encode word).length, []⟩ := by
  have hScan :
      (Terminal.keyword word).scan state.cursor.remaining =
        .hit (Utf8.encode word).length
          fun _ => .str word := by
    refine (scanKeyword_eq hWord _).trans ?_
    rw [if_pos hHere]
  exact scan_of_hit hScan

/- What is met of a word that is not there is reached. -/
theorem scan_keyword_broken
    (hWord : isIdentifier (Utf8.encode word) = true)
    (hOther :
      wordAt state.cursor.remaining ≠ Utf8.encode word) :
    scan (.keyword word) state =
      some
        ⟨.failed,
          state.touch
            (commonLength state.cursor.remaining
              (Utf8.encode word)),
          []⟩ := by
  apply scan_of_broken
  refine (scanKeyword_eq hWord _).trans ?_
  rw [if_neg hOther]

end Action

end ByteGrammar

------------------------------------------------------------
-- Keywords and Identifiers
------------------------------------------------------------

namespace ByteGrammar

open ByteGrammar.ByteClass ByteGrammar.Terminal

/- An identifier at the position is what its region
  covers. -/
theorem Cursor.slice_wordAt
    {cursor : Cursor}
    (hSpelled :
      isIdentifier (wordAt cursor.remaining) = true) :
    (⟨cursor.position, (wordAt cursor.remaining).length⟩ :
        Region).slice? cursor.data =
      some (wordAt cursor.remaining) := by
  have hPrefix :
      wordAt cursor.remaining <+: cursor.remaining :=
    List.takeWhile_prefix _
  have hSome : 0 < (wordAt cursor.remaining).length := by
    apply List.length_pos_iff.mpr
    intro hNone
    rw [hNone] at hSpelled
    cases hSpelled
  have hLength := hPrefix.length_le
  have hStop :
      cursor.position + (wordAt cursor.remaining).length ≤
        cursor.data.length := by
    rw [Cursor.remaining, List.length_drop] at hLength
    rw [Cursor.remaining] at hSome ⊢
    omega
  refine (if_pos hStop).trans ?_
  exact congrArg some (List.prefix_iff_eq_take.mp hPrefix).symm

namespace Parser

variable {rules : Rules}
variable {state last : State}
variable {start stop : Nat}
variable {value : Value}
variable {word : String}

/- An identifier matches from `start` to `stop` with a region
  that covers a word. -/
def Identifies
    (rules : Rules)
    (word : String)
    (state : State)
    (start stop : Nat)
    (last : State) :
    Prop :=
  ∃ region,
    EndsIn rules (.terminal .identifier) state
        (.matched ⟨start, stop, .region region⟩) last ∧
      region.slice? state.cursor.data =
        some (Utf8.encode word)

/- It does so where the longest run is the word. -/
theorem identifies_iff
    (hWord : isIdentifier (Utf8.encode word) = true) :
    Identifies rules word state start stop last ↔
      wordAt state.cursor.remaining = Utf8.encode word ∧
        start = state.cursor.position ∧
        stop =
          (state.advance
            (Utf8.encode word).length).cursor.position ∧
        last = state.advance (Utf8.encode word).length := by
  constructor
  · rintro ⟨region, hEnds, hSlice⟩
    cases hSpelled :
        isIdentifier (wordAt state.cursor.remaining) with
    | true =>
        rw [endsIn_terminal_of_scan
          (Action.scan_identifier hSpelled)] at hEnds
        rcases hEnds with ⟨hMatch, rfl⟩
        cases hMatch
        rw [Cursor.slice_wordAt hSpelled] at hSlice
        have hHere := Option.some.inj hSlice
        rw [hHere]
        exact ⟨rfl, rfl, rfl, rfl⟩
    | false =>
        rw [endsIn_terminal_of_scan
          (Action.scan_identifier_miss hSpelled)] at hEnds
        cases hEnds.1
  · rintro ⟨hHere, rfl, rfl, rfl⟩
    rw [← hHere] at hWord
    have hSlice := Cursor.slice_wordAt hWord
    have hEnds :
        EndsIn rules (.terminal .identifier) state _ _ :=
      (endsIn_terminal_of_scan
        (Action.scan_identifier hWord)).mpr ⟨rfl, rfl⟩
    rw [hHere] at hEnds hSlice
    exact ⟨_, hEnds, hSlice⟩

/- A keyword is found where an identifier is that word, over
  the same span and with the same state behind it. -/
theorem endsIn_keyword_matched
    (hWord : isIdentifier (Utf8.encode word) = true) :
    EndsIn rules (keyword word) state
        (.matched ⟨start, stop, value⟩) last ↔
      value = .str word ∧
        Identifies rules word state start stop last := by
  rw [identifies_iff hWord]
  by_cases hHere :
      wordAt state.cursor.remaining = Utf8.encode word
  · refine (endsIn_terminal_of_scan
      (Action.scan_keyword hWord hHere)).trans ?_
    simp only [hHere, true_and, Outcome.matched.injEq,
      Match.mk.injEq]
    grind
  · refine (endsIn_terminal_of_scan
      (Action.scan_keyword_broken hWord hHere)).trans ?_
    simp [hHere]

/- Where no identifier is that word, the keyword fails with
  the cursor in its place. -/
theorem exists_keyword_failed
    (hWord : isIdentifier (Utf8.encode word) = true)
    (hOther : ∀ start stop last,
      ¬ Identifies rules word state start stop last) :
    ∃ last,
      EndsIn rules (keyword word) state .failed last ∧
        last.cursor.checkpoint = state.cursor.checkpoint ∧
        last.context = state.context := by
  have hElsewhere :
      wordAt state.cursor.remaining ≠ Utf8.encode word := by
    intro hHere
    exact hOther _ _ _
      ((identifies_iff hWord).mpr ⟨hHere, rfl, rfl, rfl⟩)
  have hFailed :
      EndsIn rules (keyword word) state .failed _ :=
    (endsIn_terminal_of_scan
      (Action.scan_keyword_broken hWord hElsewhere)).mpr
        ⟨rfl, rfl⟩
  exact ⟨_, hFailed, hFailed.checkpoint_eq,
    hFailed.context_eq⟩

end Parser

end ByteGrammar

------------------------------------------------------------
-- Choices of Keywords
------------------------------------------------------------

namespace ByteGrammar

open ByteGrammar.ByteClass ByteGrammar.Terminal

/- What is reached ahead is of no matter where as much is
  passed anyway. -/
theorem State.advance_touch
    {reached count : Nat}
    (state : State)
    (hReached : reached ≤ count) :
    (state.touch reached).advance count =
      state.advance count := by
  have hFurthest :
      max
          (max state.cursor.furthest
            (min (state.cursor.position + reached)
              state.cursor.data.length))
          (min (state.cursor.position + count)
            state.cursor.data.length) =
        max state.cursor.furthest
          (min (state.cursor.position + count)
            state.cursor.data.length) := by
    omega
  simp only [touch_eq, advance, Cursor.advance, hFurthest]

namespace Action

variable {rest : Action Match}
variable {state : State}
variable {word other : String}

/- A keyword that is there settles a choice. -/
theorem either_keyword
    (hWord : isIdentifier (Utf8.encode word) = true)
    (hHere :
      wordAt state.cursor.remaining = Utf8.encode word) :
    either (scan (.keyword word)) rest state =
      scan (.keyword word) state := by
  rw [scan_keyword hWord hHere]
  exact either_of_matched (scan_keyword hWord hHere)

/- Past one that is not, the choice goes on. -/
theorem either_keyword_broken
    (hWord : isIdentifier (Utf8.encode word) = true)
    (hOther :
      wordAt state.cursor.remaining ≠ Utf8.encode word) :
    either (scan (.keyword word)) rest state =
      rest
        (state.touch
          (commonLength state.cursor.remaining
            (Utf8.encode word))) := by
  refine (either_of_failed
    (scan_keyword_broken hWord hOther)).trans ?_
  exact congrFun Option.map_id _

/- A keyword that is there may come after another. -/
theorem either_keywords_of_word
    (hWord : isIdentifier (Utf8.encode word) = true)
    (hOther : isIdentifier (Utf8.encode other) = true)
    (hHere :
      wordAt state.cursor.remaining = Utf8.encode word)
    (hApart : Utf8.encode word ≠ Utf8.encode other) :
    either (scan (.keyword other))
        (either (scan (.keyword word)) rest) state =
      scan (.keyword word) state := by
  have hReached :
      commonLength state.cursor.remaining
          (Utf8.encode other) ≤
        (Utf8.encode word).length := by
    rw [← hHere]
    exact commonLength_le_wordAt (all_continues hOther)
  -- To reach ahead leaves the bytes that remain.
  have hStill :
      wordAt
          (state.touch
            (commonLength state.cursor.remaining
              (Utf8.encode other))).cursor.remaining =
        Utf8.encode word :=
    hHere
  rw [← hHere] at hApart
  rw [either_keyword_broken hOther hApart,
    either_keyword hWord hStill, scan_keyword hWord hStill,
    scan_keyword hWord hHere, State.advance_touch _ hReached]
  rfl

/- Two keywords may be tried in either order. -/
theorem either_keywords_comm
    (hWord : isIdentifier (Utf8.encode word) = true)
    (hOther : isIdentifier (Utf8.encode other) = true)
    (rest : Action Match) :
    either (scan (.keyword word))
        (either (scan (.keyword other)) rest) =
      either (scan (.keyword other))
        (either (scan (.keyword word)) rest) := by
  by_cases hSame : Utf8.encode word = Utf8.encode other
  · rw [Utf8.encode_inj.mp hSame]
  funext state
  by_cases hHere :
      wordAt state.cursor.remaining = Utf8.encode word
  · rw [either_keyword hWord hHere,
      either_keywords_of_word hWord hOther hHere hSame]
  by_cases hThere :
      wordAt state.cursor.remaining = Utf8.encode other
  · rw [either_keyword hOther hThere,
      either_keywords_of_word hOther hWord hThere
        (Ne.symm hSame)]
  · -- Neither is there, and both are reached as far.
    have hTouched : ∀ reached,
        (state.touch reached).cursor.remaining =
          state.cursor.remaining :=
      fun _ => rfl
    rw [either_keyword_broken hWord hHere,
      either_keyword_broken hOther hThere,
      either_keyword_broken hOther (by rwa [hTouched]),
      either_keyword_broken hWord (by rwa [hTouched]),
      hTouched, hTouched, State.touch_touch,
      State.touch_touch, Nat.max_comm]

end Action

end ByteGrammar

namespace ByteGrammar

namespace Parser

open ByteGrammar.ByteClass ByteGrammar.Terminal

variable {rules : Rules}
variable {rest : Parser}
variable {word other : String}
variable {words permuted : List String}

theorem included_keywords_swap
    (hWord : isIdentifier (Utf8.encode word) = true)
    (hOther : isIdentifier (Utf8.encode other) = true) :
    Included rules
      (.either (keyword word) (.either (keyword other) rest))
      (.either (keyword other)
        (.either (keyword word) rest)) := by
  intro depth
  refine ⟨depth + 3, ?_⟩
  have hRun :
      run rules (depth + 3)
          (.either (keyword word)
            (.either (keyword other) rest)) =
        run rules (depth + 3)
          (.either (keyword other)
            (.either (keyword word) rest)) :=
    Action.either_keywords_comm hWord hOther
      (rest.run rules (depth + 1))
  rw [← hRun]
  exact run_refines (Nat.le_add_right depth 3) _

theorem included_keywords_of_perm
    (hPermuted : words.Perm permuted)
    (hWords : ∀ word ∈ words,
      isIdentifier (Utf8.encode word) = true) :
    Included rules (choice (words.map keyword))
      (choice (permuted.map keyword)) := by
  induction hPermuted with
  | nil => exact fun depth => ⟨depth, .refl _⟩
  | cons word hRest ih =>
      exact (ih (List.forall_mem_cons.mp hWords).2).either
        (keyword word)
  | swap word other words =>
      rw [List.forall_mem_cons, List.forall_mem_cons]
        at hWords
      exact included_keywords_swap hWords.1 hWords.2.1
  | trans hFirst hMore ihFirst ihMore =>
      apply (ihFirst hWords).trans
      apply ihMore
      intro word hMem
      exact hWords word (hFirst.mem_iff.mpr hMem)

/-
  A keyword that is spelled as an identifier matches exactly
  where an identifier is that word, with the same span and
  the same state behind it. Elsewhere it fails with the
  cursor in its place. So one of several such keywords
  matches at most, and a choice of them comes to the same in
  every order.
-/
theorem keywords_cut_like_identifiers
    (rules : Rules)
    (hWords : ∀ word ∈ words,
      isIdentifier (Utf8.encode word) = true)
    (hPermuted : words.Perm permuted) :
    (∀ word ∈ words, ∀ state,
      (∀ start stop value last,
        EndsIn rules (keyword word) state
            (.matched ⟨start, stop, value⟩) last ↔
          value = .str word ∧
            Identifies rules word state start stop last) ∧
      ((∀ start stop last,
          ¬ Identifies rules word state start stop last) →
        ∃ last,
          EndsIn rules (keyword word) state .failed last ∧
            last.cursor.checkpoint =
              state.cursor.checkpoint ∧
            last.context = state.context)) ∧
    (∀ state, ∀ word ∈ words, ∀ other ∈ words,
      ∀ found found' last last',
        EndsIn rules (keyword word) state
            (.matched found) last →
          EndsIn rules (keyword other) state
              (.matched found') last' →
            word = other) ∧
    Equivalent rules (choice (words.map keyword))
      (choice (permuted.map keyword)) := by
  refine ⟨?_, ?_, ?_⟩
  · intro word hMem state
    have hWord := hWords word hMem
    exact ⟨fun _ _ _ _ => endsIn_keyword_matched hWord,
      exists_keyword_failed hWord⟩
  · intro state word hMem other hMem' found found' last last'
      hEnds hEnds'
    have hWord := hWords word hMem
    have hOther := hWords other hMem'
    have hHere := (identifies_iff hWord).mp
      ((endsIn_keyword_matched hWord).mp hEnds).2
    have hThere := (identifies_iff hOther).mp
      ((endsIn_keyword_matched hOther).mp hEnds').2
    exact Utf8.encode_inj.mp
      (hHere.1.symm.trans hThere.1)
  · have hWords' : ∀ word ∈ permuted,
        isIdentifier (Utf8.encode word) = true := by
      intro word hMem
      exact hWords word (hPermuted.mem_iff.mpr hMem)
    exact (included_keywords_of_perm hPermuted
      hWords).equivalent
        (included_keywords_of_perm hPermuted.symm hWords')

/- Of two words of which one is the start of the other, the
  longer is found where a byte beyond ASCII follows. -/
theorem keywords_cut_like_identifiers_beyond_ascii :
    let rules : Rules := .empty
    let words := ["if", "ifx", "_9"]
    let cursor : Cursor :=
      ⟨Utf8.encode "(ifxé", 1, .origin, 1⟩
    let state : State := ⟨cursor, .fresh .standard⟩
    (∀ word ∈ words,
        isIdentifier (Utf8.encode word) = true) ∧
      words.Perm words.reverse ∧
      EndsIn rules (keyword "ifx") state
        (.matched ⟨1, 4, .str "ifx"⟩) (state.advance 3) ∧
      (∃ last,
        EndsIn rules (keyword "if") state .failed last ∧
          last.cursor.checkpoint = ⟨1, .origin⟩) ∧
      Equivalent rules (choice (words.map keyword))
        (choice (words.reverse.map keyword)) := by
  intro rules words cursor state
  have hWords : ∀ word ∈ words,
      isIdentifier (Utf8.encode word) = true := by
    decide +kernel
  have hPermuted : words.Perm words.reverse :=
    (List.reverse_perm words).symm
  have hHere :
      wordAt state.cursor.remaining =
        Utf8.encode "ifx" := by
    decide +kernel
  have hElsewhere :
      wordAt state.cursor.remaining ≠
        Utf8.encode "if" := by
    decide +kernel
  have hIf : "if" ∈ words := by decide
  have hIfx : "ifx" ∈ words := by decide
  rcases keywords_cut_like_identifiers rules hWords
      hPermuted with
    ⟨hEach, hOne, hEquivalent⟩
  refine ⟨hWords, hPermuted, ?_, ?_, hEquivalent⟩
  · rw [(hEach "ifx" hIfx state).1]
    refine ⟨rfl, (identifies_iff (hWords _ hIfx)).mpr ?_⟩
    have hLength : (Utf8.encode "ifx").length = 3 := by
      decide +kernel
    rw [hLength]
    exact ⟨hHere, rfl, by decide +kernel, rfl⟩
  · have hNone : ∀ start stop last,
        ¬ Identifies rules "if" state start stop last := by
      intro start stop last hIdentifies
      exact hElsewhere
        ((identifies_iff (hWords _ hIf)).mp hIdentifies).1
    rcases (hEach "if" hIf state).2 hNone with
      ⟨last, hFailed, hBack, -⟩
    exact ⟨last, hFailed, hBack⟩

end Parser

end ByteGrammar
