import ByteGrammar.Grammar.Forms
import ByteGrammar.Proofs.Engine.Depth
import ByteGrammar.Proofs.Engine.Repetition

/-
  What texts, choices and searches for a text come to at a
  place of a buffer.

  Main declarations:
    * `Terminal.commonLength_eq_iff`
    * `Parser.ComesTo.text_hit`, `Parser.ComesTo.text_miss`
    * `Parser.ComesTo.takeUntil_text`
    * `Parser.ComesTo.choice_map`
    * `Parser.ComesTo.parse_of_unscoped`
-/

------------------------------------------------------------
-- Texts
------------------------------------------------------------

namespace ByteGrammar

namespace Terminal

theorem commonLength_le
    (bytes expected : List UInt8) :
    commonLength bytes expected ≤ expected.length := by
  fun_induction commonLength bytes expected with
  | case1 byte rest more ih =>
      exact Nat.succ_le_succ ih
  | case2 => exact Nat.zero_le _
  | case3 => exact Nat.zero_le _

/- All of a text is met where it is a start. -/
theorem commonLength_eq_iff
    {bytes expected : List UInt8} :
    commonLength bytes expected = expected.length ↔
      expected <+: bytes := by
  fun_induction commonLength bytes expected with
  | case1 byte rest more ih => simp [ih]
  | case2 byte rest expected more hByte =>
      simp [Ne.symm hByte]
  | case3 bytes expected hNone =>
      cases expected with
      | nil => simp
      | cons expected more =>
          cases bytes with
          | nil => simp
          | cons byte rest =>
              exact absurd rfl
                (hNone byte rest expected more rfl)

theorem scanText_hit
    {text : String}
    {bytes : List UInt8}
    (hPrefix : Utf8.encode text <+: bytes) :
    scanText text bytes =
      .hit (Utf8.encode text).length fun _ => .str text := by
  have hMatched := commonLength_eq_iff.mpr hPrefix
  simp only [scanText, hMatched, Nat.lt_irrefl, if_false]

theorem scanText_miss
    {text : String}
    {bytes : List UInt8}
    (hPrefix : ¬ Utf8.encode text <+: bytes) :
    scanText text bytes =
      .broken
        (commonLength bytes (Utf8.encode text)) := by
  have hLe := commonLength_le bytes (Utf8.encode text)
  have hNe := mt commonLength_eq_iff.mp hPrefix
  have hLess := Nat.lt_of_le_of_ne hLe hNe
  simp only [scanText, hLess, if_true]

end Terminal

end ByteGrammar

namespace ByteGrammar

namespace Action

namespace ComesTo

variable {data : List UInt8}
variable {admitted : Context → Prop}
variable {start : Nat}
variable {text : String}

theorem scan_text
    (hInside : start ≤ data.length)
    (hPrefix : Utf8.encode text <+: data.drop start) :
    ComesTo data admitted start (scan (.text text))
      (.matched
        ⟨start, start + (Utf8.encode text).length,
          .str text⟩)
      (start + (Utf8.encode text).length) := by
  have hLength := hPrefix.length_le
  rw [List.length_drop] at hLength
  have hScan :
      (Terminal.text text).scan (data.drop start) =
        .hit (Utf8.encode text).length fun _ => .str text :=
    Terminal.scanText_hit hPrefix
  exact scan_hit hScan (by omega)

theorem scan_text_failed
    (hPrefix : ¬ Utf8.encode text <+: data.drop start) :
    ComesTo data admitted start (scan (.text text)) .failed
      start :=
  scan_broken (Terminal.scanText_miss hPrefix)

end ComesTo

end Action

namespace Parser

namespace ComesTo

variable {rules : Rules}
variable {data : List UInt8}
variable {admitted : Context → Prop}
variable {start : Nat}
variable {text : String}

theorem text_hit
    (hInside : start ≤ data.length)
    (hPrefix : Utf8.encode text <+: data.drop start) :
    ComesTo rules data admitted start (.text text)
      (.matched
        ⟨start, start + (Utf8.encode text).length,
          .str text⟩)
      (start + (Utf8.encode text).length) :=
  of_step 0 fun _ _ => .scan_text hInside hPrefix

theorem text_miss
    (hPrefix : ¬ Utf8.encode text <+: data.drop start) :
    ComesTo rules data admitted start (.text text) .failed
      start :=
  of_step 0 fun _ _ => .scan_text_failed hPrefix

end ComesTo

end Parser

end ByteGrammar

------------------------------------------------------------
-- Searches for a Text
------------------------------------------------------------

namespace ByteGrammar

namespace Parser

namespace ComesTo

variable {rules : Rules}
variable {data : List UInt8}
variable {admitted : Context → Prop}
variable {start middle stop : Nat}
variable {text : String}
variable {orEnd : Bool}
variable {outcome : Outcome Match}

/- A search runs its text at many positions, for all of
  which one level of depth is enough. -/
theorem takeUntil_of_scan
    (hSearch :
      Action.ComesTo data admitted start
        (Action.takeUntil orEnd (Action.scan (.text text)))
        outcome stop) :
    ComesTo rules data admitted start
      (.takeUntil orEnd (.text text)) outcome stop := by
  apply of_step 1
  intro depth hDepth
  cases depth with
  | zero => cases hDepth
  | succ depth => exact hSearch

/- A search stops where the text is found first. -/
theorem takeUntil_text
    (hOrder : start ≤ middle)
    (hBefore : ∀ place, start ≤ place → place < middle →
      ¬ Utf8.encode text <+: data.drop place)
    (hInside : middle ≤ data.length)
    (hHere : Utf8.encode text <+: data.drop middle) :
    ComesTo rules data admitted start
      (.takeUntil orEnd (.text text))
      (.matched ⟨start, middle,
        .region (Region.between start middle)⟩)
      middle := by
  have hMisses : ∀ place, start ≤ place → place < middle →
      Action.ComesTo data admitted place
        (Action.scan (.text text)) .failed place := by
    intro place hStart hPlace
    exact .scan_text_failed (hBefore place hStart hPlace)
  exact takeUntil_of_scan
    (.takeUntil hOrder hMisses hInside
      (.scan_text hInside hHere))

/- Without the text, it goes up to the end. -/
theorem takeUntil_text_end
    (hInside : start ≤ data.length)
    (hNever : ∀ place, start ≤ place →
      place ≤ data.length →
        ¬ Utf8.encode text <+: data.drop place) :
    ComesTo rules data admitted start
      (.takeUntil true (.text text))
      (.matched ⟨start, data.length,
        .region (Region.between start data.length)⟩)
      data.length := by
  apply takeUntil_of_scan
  apply Action.ComesTo.takeUntil_end hInside
  intro place hStart hEnd
  exact .scan_text_failed (hNever place hStart hEnd)

/- It fails if it may not do so. -/
theorem takeUntil_text_failed
    (hInside : start ≤ data.length)
    (hNever : ∀ place, start ≤ place →
      place ≤ data.length →
        ¬ Utf8.encode text <+: data.drop place) :
    ComesTo rules data admitted start
      (.takeUntil false (.text text)) .failed start := by
  apply takeUntil_of_scan
  apply Action.ComesTo.takeUntil_failed hInside
  intro place hStart hEnd
  exact .scan_text_failed (hNever place hStart hEnd)

end ComesTo

end Parser

end ByteGrammar

------------------------------------------------------------
-- Choices
------------------------------------------------------------

namespace ByteGrammar

namespace Parser

namespace ComesTo

variable {rules : Rules}
variable {data : List UInt8}
variable {admitted : Context → Prop}
variable {start stop : Nat}
variable {outcome : Outcome Match}

theorem choice_nil :
    ComesTo rules data admitted start (.choice []) .failed
      start :=
  terminal_miss rfl

/- An alternative that does not fail is chosen. -/
theorem choice_head
    {part : Parser}
    {rest : List Parser}
    (hPart :
      ComesTo rules data admitted start part outcome stop)
    (hSettled : outcome ≠ .failed) :
    ComesTo rules data admitted start
      (.choice (part :: rest)) outcome stop := by
  cases outcome with
  | matched found => exact either_first hPart
  | failed => exact absurd rfl hSettled
  | fatal fault => exact either_fatal hPart

/- Among alternatives that stand for items, the first item
  decides that passes a test without which they fail. -/
theorem choice_map
    {ι : Type}
    {form : ι → Parser}
    {items : List ι}
    {rest : List Parser}
    (test : ι → Bool)
    (hMiss : ∀ item, test item = false →
      ComesTo rules data admitted start (form item) .failed
        start)
    (hHit : ∀ item, items.find? test = some item →
      ComesTo rules data admitted start (form item) outcome
          stop ∧
        outcome ≠ .failed)
    (hRest : items.find? test = none →
      ComesTo rules data admitted start (.choice rest)
        outcome stop) :
    ComesTo rules data admitted start
      (.choice (items.map form ++ rest)) outcome stop := by
  induction items with
  | nil => exact hRest rfl
  | cons item items ih =>
      cases hTest : test item with
      | true =>
          rcases hHit item (List.find?_cons_of_pos hTest)
            with ⟨hItem, hSettled⟩
          exact choice_head hItem hSettled
      | false =>
          have hFound :
              (item :: items).find? test =
                items.find? test := by
            simp [hTest]
          rw [hFound] at hHit hRest
          exact either_second (hMiss item hTest)
            (ih hHit hRest)

end ComesTo

end Parser

end ByteGrammar

------------------------------------------------------------
-- Whole Parses Without Scopes
------------------------------------------------------------

namespace ByteGrammar

namespace Parser

/- Alternatives without scopes make a choice without
  scopes. -/
theorem unscoped_choice
    {parts : List Parser}
    (hParts : ∀ part ∈ parts,
      part.Every (·.isScoped = false)) :
    (choice parts).Every (·.isScoped = false) := by
  induction parts with
  | nil => exact ⟨rfl, trivial⟩
  | cons part parts ih =>
      rw [List.forall_mem_cons] at hParts
      exact ⟨rfl, hParts.1, ih hParts.2⟩

/- A parse has a level of depth for each node. -/
theorem size_le_depth
    (rules : Rules)
    (parser : Parser)
    (state : State) :
    parser.size ≤ parser.depth rules state := by
  simp only [depth]
  omega

namespace ComesTo

variable {rules : Rules}
variable {data : List UInt8}
variable {admitted : Context → Prop}
variable {start stop : Nat}
variable {parser : Parser}
variable {outcome : Outcome Match}

/- Without scopes, a level of depth for each node is
  enough. -/
theorem run_of_unscoped
    {depth : Nat}
    (hComes :
      ComesTo rules data admitted start parser outcome stop)
    (hUnscoped : parser.Every (·.isScoped = false))
    (hSize : parser.size ≤ depth) :
    Action.ComesTo data admitted start
      (parser.run rules depth) outcome stop := by
  rcases hComes with ⟨least, hRun⟩
  intro cursor context hData hStart hContext
  rcases hRun least (Nat.le_refl least) cursor context hData
      hStart hContext with
    ⟨last, events, hEnds, hLast⟩
  refine ⟨last, events, ?_, hLast⟩
  exact run_refines_of_unscoped least hUnscoped hSize _ _
    hEnds

/- So is the depth of a parse. -/
theorem parse_of_unscoped
    (hComes :
      ComesTo rules data admitted start parser outcome stop)
    (hUnscoped : parser.Every (·.isScoped = false)) :
    Action.ComesTo data admitted start (parser.parse rules)
      outcome stop := by
  intro cursor context hData hStart hContext
  have hSize := size_le_depth rules parser ⟨cursor, context⟩
  exact hComes.run_of_unscoped hUnscoped hSize cursor context
    hData hStart hContext

end ComesTo

end Parser

end ByteGrammar
