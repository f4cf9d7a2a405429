import ByteGrammar.Proofs.Terminals.Strings

/-
  Matches read as hexadecimal numbers.

  A conversion marks the match of its parser as the raw
  region and reads it there. The bytes of a region are read
  as a number exactly if they are digits, perhaps behind a
  mark, and the number fits in 64 bits.

  Main declarations:
    * `Digits.HexNumber`, `Digits.hexNumber_iff`
    * `Digits.HexLiteral`, `Digits.hexLiteral_iff`
    * `Utf8.exists_decode?_of_ascii`
    * `Cursor.rawHexadecimal_eq_ok_iff`
    * `State.marked`, `Action.convert_of_matched`
    * `Parser.endsIn_convert_of_read`,
      `Parser.endsIn_convert_of_unread`
    * `Digits.hexLiteral_of_toDigits`
    * `Parser.hexadecimal_specified`
-/

------------------------------------------------------------
-- Hexadecimal Numbers
------------------------------------------------------------

namespace ByteGrammar

namespace Digits

/- Digits and their number, which counts sixteen times the
  number of all but the last. -/
inductive HexNumber : List UInt8 → Nat → Prop where
  | digit {byte : UInt8} {value : Nat}
      (hDigit : Hexadecimal byte value) :
      HexNumber [byte] value
  | more {digits : List UInt8} {byte : UInt8}
      {value last : Nat}
      (hDigits : HexNumber digits value)
      (hDigit : Hexadecimal byte last) :
      HexNumber (digits ++ [byte]) (value * 16 + last)

theorem isHexadecimal_iff
    {byte : UInt8} :
    isHexadecimal byte = true ↔
      ∃ value, Hexadecimal byte value := by
  rw [isHexadecimal, Option.isSome_iff_exists]
  constructor
  · rintro ⟨value, hValue⟩
    exact ⟨value, hexadecimal_of_hexValue? hValue⟩
  · rintro ⟨value, hDigit⟩
    exact ⟨value, hDigit.hexValue?_eq⟩

theorem hexadecimal_concat
    {byte : UInt8}
    {last : Nat}
    (hDigit : Hexadecimal byte last)
    (digits : List UInt8) :
    hexadecimal (digits ++ [byte]) =
      hexadecimal digits * 16 + last := by
  simp [hexadecimal, valueFrom, hDigit.hexValue?_eq]

/- Digits are read as their number. -/
theorem hexNumber_iff
    {digits : List UInt8}
    {value : Nat} :
    HexNumber digits value ↔
      digits ≠ [] ∧ digits.all isHexadecimal = true ∧
        hexadecimal digits = value := by
  constructor
  · intro hNumber
    induction hNumber with
    | digit hDigit =>
        have hByte := isHexadecimal_iff.mpr ⟨_, hDigit⟩
        refine ⟨List.cons_ne_nil _ _, by simp [hByte], ?_⟩
        rw [← List.nil_append [_], hexadecimal_concat hDigit]
        exact Nat.zero_add _
    | more hDigits hDigit ih =>
        have hByte := isHexadecimal_iff.mpr ⟨_, hDigit⟩
        refine ⟨by simp, by simp [ih.2.1, hByte], ?_⟩
        rw [hexadecimal_concat hDigit, ih.2.2]
  · rintro ⟨hSome, hAll, rfl⟩
    induction digits using List.reverseRecOn with
    | nil => exact absurd rfl hSome
    | append_singleton digits byte ih =>
        rw [List.all_append, Bool.and_eq_true,
          List.all_cons, Bool.and_eq_true] at hAll
        rcases isHexadecimal_iff.mp hAll.2.1 with
          ⟨last, hDigit⟩
        rw [hexadecimal_concat hDigit]
        by_cases hOne : digits = []
        · rw [hOne]
          have hLast : hexadecimal [] * 16 + last = last :=
            Nat.zero_add last
          rw [hLast]
          exact .digit hDigit
        · exact .more (ih hOne hAll.1) hDigit

/- A zero in front changes nothing. -/
theorem HexNumber.zero_cons
    {digits : List UInt8}
    {value : Nat}
    (hNumber : HexNumber digits value) :
    HexNumber (0x30 :: digits) value := by
  have hDigit : Hexadecimal (UInt8.ofNat (0x30 + 0)) 0 :=
    .decimal (by decide)
  have hZero : HexNumber [0x30] 0 := .digit hDigit
  induction hNumber with
  | digit hDigit =>
      have hMore := hZero.more hDigit
      rwa [Nat.zero_mul, Nat.zero_add] at hMore
  | more hDigits hDigit ih => exact ih.more hDigit

theorem HexNumber.zeros_append
    {digits : List UInt8}
    {value : Nat}
    (hNumber : HexNumber digits value)
    (zeros : Nat) :
    HexNumber (List.replicate zeros 0x30 ++ digits)
      value := by
  induction zeros with
  | zero => exact hNumber
  | succ zeros ih =>
      rw [List.replicate_succ]
      exact ih.zero_cons

end Digits

end ByteGrammar

------------------------------------------------------------
-- Literals
------------------------------------------------------------

namespace ByteGrammar

namespace Digits

/- Digits and their number, perhaps behind `0x` or `0X`. -/
inductive HexLiteral : List UInt8 → Nat → Prop where
  | bare {digits : List UInt8} {value : Nat}
      (hDigits : HexNumber digits value) :
      HexLiteral digits value
  | marked {mark : UInt8} {digits : List UInt8}
      {value : Nat}
      (hMark : mark = 0x78 ∨ mark = 0x58)
      (hDigits : HexNumber digits value) :
      HexLiteral (0x30 :: mark :: digits) value

/- No digit is a mark, so a literal is in no doubt. -/
theorem hexLiteral_iff
    {bytes : List UInt8}
    {value : Nat} :
    HexLiteral bytes value ↔
      HexNumber (hexadecimalDigits bytes) value := by
  constructor
  · intro hLiteral
    cases hLiteral with
    | marked hMark hDigits =>
        rcases hMark with rfl | rfl <;> exact hDigits
    | bare hDigits =>
        have hAll := (hexNumber_iff.mp hDigits).2.1
        unfold hexadecimalDigits
        -- A mark in second place would be a digit.
        split
        · simp at hAll
          cases hAll.2.1
        · simp at hAll
          cases hAll.2.1
        · exact hDigits
  · intro hDigits
    unfold hexadecimalDigits at hDigits
    split at hDigits
    · exact .marked (.inl rfl) hDigits
    · exact .marked (.inr rfl) hDigits
    · exact .bare hDigits

theorem Hexadecimal.lt
    {byte : UInt8}
    {value : Nat}
    (hDigit : Hexadecimal byte value) :
    byte < 0x80 := by
  have hDecimal : ∀ value < 10,
      UInt8.ofNat (0x30 + value) < 0x80 := by
    decide
  have hLower : ∀ value < 6,
      UInt8.ofNat (0x61 + value) < 0x80 := by
    decide
  have hUpper : ∀ value < 6,
      UInt8.ofNat (0x41 + value) < 0x80 := by
    decide
  cases hDigit with
  | decimal hValue => exact hDecimal _ hValue
  | lower hValue => exact hLower _ hValue
  | upper hValue => exact hUpper _ hValue

theorem HexLiteral.lt_of_mem
    {bytes : List UInt8}
    {value : Nat}
    (hLiteral : HexLiteral bytes value) :
    ∀ byte ∈ bytes, byte < 0x80 := by
  have hDigits {digits : List UInt8}
      (hNumber : HexNumber digits value) :
      ∀ byte ∈ digits, byte < 0x80 := by
    have hAll := (hexNumber_iff.mp hNumber).2.1
    intro byte hByte
    rcases isHexadecimal_iff.mp
        (List.all_eq_true.mp hAll byte hByte) with
      ⟨_, hDigit⟩
    exact hDigit.lt
  cases hLiteral with
  | bare hNumber => exact hDigits hNumber
  | marked hMark hNumber =>
      rw [List.forall_mem_cons, List.forall_mem_cons]
      refine ⟨by decide, ?_, hDigits hNumber⟩
      rcases hMark with rfl | rfl <;> decide

end Digits

/- Bytes of ASCII spell a text. -/
theorem Utf8.exists_decode?_of_ascii
    {bytes : List UInt8}
    (hAscii : ∀ byte ∈ bytes, byte < 0x80) :
    ∃ text, decode? bytes = some text := by
  have hAll : ∀ code < 128,
      String.utf8EncodeChar (Char.ofNat code) =
        [UInt8.ofNat code] := by
    decide
  let chars :=
    bytes.map fun byte => Char.ofNat byte.toNat
  have hEncode : encode (String.ofList chars) = bytes := by
    rw [encode_ofList, List.flatMap_map]
    induction bytes with
    | nil => rfl
    | cons byte bytes ih =>
        rw [List.forall_mem_cons] at hAscii
        rw [List.flatMap_cons, ih hAscii.2,
          hAll _ (UInt8.lt_iff_toNat_lt.mp hAscii.1),
          UInt8.ofNat_toNat]
        rfl
  refine ⟨String.ofList chars, ?_⟩
  rw [← hEncode, decode?_encode]

end ByteGrammar

------------------------------------------------------------
-- The Raw Region
------------------------------------------------------------

namespace ByteGrammar

namespace Cursor

open ByteGrammar.Digits

/- The raw region reads as what its bytes spell. -/
theorem rawHexadecimal_eq_ok_iff
    {cursor : Cursor}
    {bytes : List UInt8}
    {value : Nat}
    (hSlice : cursor.raw.slice? cursor.data = some bytes) :
    cursor.rawHexadecimal = .ok value ↔
      HexLiteral bytes value ∧ value < 2 ^ 64 := by
  have hBytes : cursor.bytes cursor.raw = .ok bytes := by
    rw [Cursor.bytes, hSlice]
  cases hDecode : Utf8.decode? bytes with
  | none =>
      rw [rawHexadecimal, text, hBytes]
      simp only [hDecode]
      constructor
      · intro hRead
        cases hRead
      · rintro ⟨hLiteral, _⟩
        rcases Utf8.exists_decode?_of_ascii
            hLiteral.lt_of_mem with
          ⟨text, hText⟩
        rw [hText] at hDecode
        cases hDecode
  | some text =>
      rw [rawHexadecimal, Cursor.text, hBytes]
      simp only [hDecode, Utf8.encode_of_decode? hDecode]
      rw [hexLiteral_iff, hexNumber_iff]
      generalize hexadecimalDigits bytes = digits
      have hWord :
          Integer.inU64 (hexadecimal digits) = true ↔
            hexadecimal digits < 2 ^ 64 :=
        decide_eq_true_iff
      by_cases hSome : digits = []
      · simp [hSome]
      by_cases hAll : digits.all isHexadecimal = true
      · simp only [List.isEmpty_iff, if_neg hSome,
          if_pos hAll, hWord]
        by_cases hFits : hexadecimal digits < 2 ^ 64
        · rw [if_pos hFits]
          constructor
          · intro hRead
            cases hRead
            exact ⟨⟨hSome, hAll, rfl⟩, hFits⟩
          · rintro ⟨⟨-, -, hValue⟩, -⟩
            rw [hValue]
        · rw [if_neg hFits]
          constructor
          · intro hRead
            cases hRead
          · rintro ⟨⟨-, -, rfl⟩, hFits'⟩
            exact absurd hFits' hFits
      · simp [hSome, hAll]

end Cursor

end ByteGrammar

------------------------------------------------------------
-- Conversions
------------------------------------------------------------

namespace ByteGrammar

/- The state with a match as the raw region. -/
def State.marked
    (state : State)
    (found : Match) :
    State :=
  { state with
    cursor := { state.cursor with raw := found.region } }

namespace Action

/- What a match comes to once it is marked: the value that
  is read there, or a failure. -/
def converted
    (conversion : Conversion)
    (state last : State)
    (found : Match)
    (events : List Event) :
    Step Match :=
  match conversion.read (last.marked found).cursor with
  | .ok (some value) =>
      ⟨.matched (found.withValue value), last.marked found,
        events⟩
  | .ok none => ⟨.failed, last.backTo state, events⟩
  | .error error =>
      ⟨.failed, last.backTo state,
        events ++ [.conversionFailed error]⟩

theorem convert_of_matched
    {action : Action Match}
    {state last : State}
    {found : Match}
    {events : List Event}
    (conversion : Conversion)
    (hAction :
      action state = some ⟨.matched found, last, events⟩) :
    convert conversion action state =
      some (converted conversion state last found
        events) := by
  unfold converted
  cases hRead :
      conversion.read (last.marked found).cursor with
  | error error =>
      refine @bindReverting_of_next_failed Match Match _ _
        state last (last.marked found) found events _ hAction
        ?_
      refine (move_bind _ _ _).trans ?_
      refine (inspect_bind _ _ _).trans ?_
      exact hRead ▸ rfl
  | ok value? =>
      rw [← List.append_nil events]
      cases value? with
      | none =>
          refine @bindReverting_of_next_failed Match Match _ _
            state last (last.marked found) found events _
            hAction ?_
          refine (move_bind _ _ _).trans ?_
          refine (inspect_bind _ _ _).trans ?_
          exact hRead ▸ rfl
      | some value =>
          refine bindReverting_of_next_matched hAction ?_
          refine (move_bind _ _ _).trans ?_
          refine (inspect_bind _ _ _).trans ?_
          exact hRead ▸ rfl

end Action

namespace Parser

variable {rules : Rules}
variable {conversion : Conversion}
variable {parser : Parser}
variable {state last : State}
variable {found : Match}

theorem endsIn_convert_of_read
    {value : Value}
    (hMatched :
      EndsIn rules parser state (.matched found) last)
    (hRead :
      conversion.read (last.marked found).cursor =
        .ok (some value)) :
    EndsIn rules (.convert conversion parser) state
      (.matched (found.withValue value))
      (last.marked found) := by
  rcases hMatched with ⟨events, depth, hRun⟩
  have hConvert := Action.convert_of_matched conversion hRun
  rw [Action.converted, hRead] at hConvert
  exact ⟨_, depth + 1, hConvert⟩

theorem endsIn_convert_of_unread
    (hMatched :
      EndsIn rules parser state (.matched found) last)
    (hUnread : ∀ value,
      conversion.read (last.marked found).cursor ≠
        .ok (some value)) :
    EndsIn rules (.convert conversion parser) state .failed
      (last.backTo state) := by
  rcases hMatched with ⟨events, depth, hRun⟩
  have hConvert := Action.convert_of_matched conversion hRun
  rw [Action.converted] at hConvert
  split at hConvert
  · rename_i value hRead
    exact absurd hRead (hUnread value)
  · exact ⟨_, depth + 1, hConvert⟩
  · exact ⟨_, depth + 1, hConvert⟩

end Parser

end ByteGrammar

------------------------------------------------------------
-- Renderings
------------------------------------------------------------

namespace ByteGrammar

namespace Digits

/- The byte of a digit in either case. -/
theorem hexadecimal_of_toLower
    {letter : Char}
    {digit : Nat}
    (hDigit : digit < 16)
    (hLetter : letter.toLower = digit.digitChar) :
    ∃ byte, String.utf8EncodeChar letter = [byte] ∧
      Hexadecimal byte digit := by
  have hAll : ∀ code < 128, ∀ digit < 16,
      (Char.ofNat code).toLower = digit.digitChar →
        String.utf8EncodeChar (Char.ofNat code) =
            [UInt8.ofNat code] ∧
          hexValue? (UInt8.ofNat code) = some digit := by
    decide
  have hAscii : letter.toNat < 128 := by
    have hLower : ∀ digit < 16,
        digit.digitChar.toNat < 128 := by
      decide
    by_cases hUpper :
        letter.val ≥ 'A'.val ∧ letter.val ≤ 'Z'.val
    · exact Nat.lt_of_le_of_lt
        (UInt32.le_iff_toNat_le.mp hUpper.2) (by decide)
    · have hSame : letter.toLower = letter := dif_neg hUpper
      rw [← hSame, hLetter]
      exact hLower digit hDigit
  have hCode : Char.ofNat letter.toNat = letter :=
    Char.ofNat_toNat letter
  rw [← hCode] at hLetter ⊢
  rcases hAll _ hAscii _ hDigit hLetter with ⟨hByte, hValue⟩
  exact ⟨_, hByte, hexadecimal_of_hexValue? hValue⟩

/- The digits of a number, in either case. -/
theorem hexNumber_of_toDigits
    {letters : List Char}
    {value : Nat}
    (hLetters :
      letters.map Char.toLower = Nat.toDigits 16 value) :
    HexNumber (letters.flatMap String.utf8EncodeChar)
      value := by
  induction value using Nat.strongRecOn generalizing letters with
  | ind value ih =>
      rw [Nat.toDigits_eq_if (by decide)] at hLetters
      by_cases hOne : value < 16
      · rw [if_pos hOne, List.map_eq_singleton_iff] at hLetters
        rcases hLetters with ⟨letter, rfl, hLetter⟩
        rcases hexadecimal_of_toLower hOne hLetter with
          ⟨byte, hByte, hDigit⟩
        rw [List.flatMap_singleton, hByte]
        exact .digit hDigit
      · rw [if_neg hOne, List.map_eq_append_iff] at hLetters
        rcases hLetters with ⟨more, own, rfl, hMore, hOwn⟩
        rw [List.map_eq_singleton_iff] at hOwn
        rcases hOwn with ⟨letter, rfl, hLetter⟩
        rcases hexadecimal_of_toLower
            (Nat.mod_lt value (by decide)) hLetter with
          ⟨byte, hByte, hDigit⟩
        have hNumber := ih (value / 16) (by omega) hMore
        rw [List.flatMap_append, List.flatMap_singleton, hByte,
          ← Nat.div_add_mod' value 16]
        exact hNumber.more hDigit

/- Padded with zeros and behind a mark or none, they are
  still the number. -/
theorem hexLiteral_of_toDigits
    {opening : String}
    {letters : List Char}
    {value : Nat}
    (hOpening : opening ∈ ["", "0x", "0X"])
    (zeros : Nat)
    (hLetters :
      letters.map Char.toLower = Nat.toDigits 16 value) :
    HexLiteral
      (Utf8.encode
        (opening ++ String.ofList
          (List.replicate zeros '0' ++ letters)))
      value := by
  have hZeros :
      (List.replicate zeros '0').flatMap
          String.utf8EncodeChar =
        List.replicate zeros 0x30 := by
    rw [List.flatMap_replicate]
    exact List.flatten_replicate_singleton
  have hNumber :=
    (hexNumber_of_toDigits hLetters).zeros_append zeros
  rw [← hZeros, ← List.flatMap_append, ← Utf8.encode_ofList]
    at hNumber
  rw [Utf8.encode_append]
  simp only [List.mem_cons, List.not_mem_nil, or_false]
    at hOpening
  rcases hOpening with rfl | rfl | rfl
  · exact .bare hNumber
  · exact .marked (.inl rfl) hNumber
  · exact .marked (.inr rfl) hNumber

end Digits

end ByteGrammar

------------------------------------------------------------
-- Hexadecimal Conversions
------------------------------------------------------------

namespace ByteGrammar

namespace Parser

open ByteGrammar.Digits

variable {rules : Rules}
variable {parser : Parser}
variable {state last : State}
variable {found : Match}

/- A match that is marked has its bytes in the buffer. -/
theorem EndsIn.slice_marked
    (hInside : state.cursor.Inside)
    (hMatched :
      EndsIn rules parser state (.matched found) last) :
    (last.marked found).cursor.raw.slice?
        (last.marked found).cursor.data =
      some ((state.cursor.data.drop found.start).take
        (found.stop - found.start)) := by
  have hSpans := hMatched.spans hInside
  have hLeads := hMatched.leads hInside
  have hStop :
      found.region.stop ≤ state.cursor.data.length := by
    rw [Match.region, Region.stop_between hSpans.ordered,
      hSpans.ends]
    exact hLeads.inside
  have hData :
      (last.marked found).cursor.data = state.cursor.data :=
    hLeads.data
  rw [hData]
  exact if_pos hStop

/- What is read of the raw region is the number of a literal
  there. -/
theorem read_hexadecimal_eq_iff
    {cursor : Cursor}
    {bytes : List UInt8}
    {value : Value}
    (hSlice : cursor.raw.slice? cursor.data = some bytes) :
    Conversion.read .hexadecimal cursor = .ok (some value) ↔
      ∃ number, HexLiteral bytes number ∧ number < 2 ^ 64 ∧
        value = .u64 number := by
  constructor
  · intro hRead
    rw [Conversion.read] at hRead
    cases hNumber : cursor.rawHexadecimal with
    | error error =>
        rw [hNumber] at hRead
        cases hRead
    | ok number =>
        rw [hNumber] at hRead
        cases hRead
        have hSpelled :=
          (Cursor.rawHexadecimal_eq_ok_iff hSlice).mp hNumber
        exact ⟨number, hSpelled.1, hSpelled.2, rfl⟩
  · rintro ⟨number, hLiteral, hFits, rfl⟩
    have hNumber :=
      (Cursor.rawHexadecimal_eq_ok_iff hSlice).mpr
        ⟨hLiteral, hFits⟩
    rw [Conversion.read, hNumber]
    rfl

/-
  What a parser comes to if its match is read as a
  hexadecimal number. The match stays, with its span as the
  raw region, if its bytes are a literal of a number that
  fits in 64 bits, and the number is its value. Otherwise it
  is given up, and position and raw region are as before. So
  any number that fits, written in either case, behind any
  zeros and a mark or none, is read back.
-/
theorem hexadecimal_specified
    (rules : Rules)
    {parser : Parser}
    {state last : State}
    {found : Match}
    (hInside : state.cursor.Inside)
    (hMatched :
      EndsIn rules parser state (.matched found) last) :
    let bytes :=
      (state.cursor.data.drop found.start).take
        (found.stop - found.start)
    (∀ outcome after,
      EndsIn rules (.convert .hexadecimal parser) state
          outcome after ↔
        (∃ value, HexLiteral bytes value ∧ value < 2 ^ 64 ∧
          outcome =
            .matched ⟨found.start, found.stop, .u64 value⟩ ∧
          after = last.marked found) ∨
        (¬ ∃ value, HexLiteral bytes value ∧
            value < 2 ^ 64) ∧
          outcome = .failed ∧ after = last.backTo state) ∧
    (∀ opening ∈ ["", "0x", "0X"], ∀ zeros letters value,
      letters.map Char.toLower = Nat.toDigits 16 value →
        bytes =
            Utf8.encode
              (opening ++ String.ofList
                (List.replicate zeros '0' ++ letters)) →
          value < 2 ^ 64 →
            EndsIn rules (.convert .hexadecimal parser) state
              (.matched
                ⟨found.start, found.stop, .u64 value⟩)
              (last.marked found)) := by
  intro bytes
  have hSlice := hMatched.slice_marked hInside
  have hTaken {value : Nat}
      (hLiteral : HexLiteral bytes value)
      (hFits : value < 2 ^ 64) :
      EndsIn rules (.convert .hexadecimal parser) state
        (.matched ⟨found.start, found.stop, .u64 value⟩)
        (last.marked found) :=
    endsIn_convert_of_read hMatched
      ((read_hexadecimal_eq_iff hSlice).mpr
        ⟨value, hLiteral, hFits, rfl⟩)
  have hRefused
      (hNone : ¬ ∃ value, HexLiteral bytes value ∧
        value < 2 ^ 64) :
      EndsIn rules (.convert .hexadecimal parser) state
        .failed (last.backTo state) := by
    apply endsIn_convert_of_unread hMatched
    intro value hRead
    rcases (read_hexadecimal_eq_iff hSlice).mp hRead with
      ⟨number, hLiteral, hFits, -⟩
    exact hNone ⟨number, hLiteral, hFits⟩
  refine ⟨?_, ?_⟩
  · intro outcome after
    constructor
    · intro hEnds
      by_cases hSome : ∃ value, HexLiteral bytes value ∧
          value < 2 ^ 64
      · rcases hSome with ⟨value, hLiteral, hFits⟩
        have hSame := hEnds.unique (hTaken hLiteral hFits)
        exact .inl ⟨value, hLiteral, hFits, hSame⟩
      · exact .inr ⟨hSome, hEnds.unique (hRefused hSome)⟩
    · rintro (⟨value, hLiteral, hFits, rfl, rfl⟩ |
        ⟨hNone, rfl, rfl⟩)
      · exact hTaken hLiteral hFits
      · exact hRefused hNone
  · intro opening hOpening zeros letters value hLetters hBytes
      hFits
    apply hTaken _ hFits
    rw [hBytes]
    exact hexLiteral_of_toDigits hOpening zeros hLetters

/- Behind a mark and two zeros, with a capture of the last
  three digits. -/
theorem hexadecimal_specified_captured :
    let parser : Parser :=
      .sequence (fun _ right => right)
        (.terminal (.text "0X0"))
        (.capture (.terminal (.text "0fF")))
    let data := Utf8.encode "0X00fF;"
    let state : State := ⟨.ofBytes data, .fresh .standard⟩
    let last : State :=
      { state with cursor := ⟨data, 6, ⟨3, 3⟩, 6⟩ }
    let found : Match := ⟨0, 6, .region ⟨3, 3⟩⟩
    state.cursor.Inside ∧
      EndsIn .empty parser state (.matched found) last ∧
      EndsIn .empty (.convert .hexadecimal parser) state
        (.matched ⟨0, 6, .u64 255⟩)
        { last with cursor := ⟨data, 6, ⟨0, 6⟩, 6⟩ } := by
  intro parser data state last found
  have hInside : state.cursor.Inside := Nat.zero_le _
  have hMatched :
      EndsIn .empty parser state (.matched found) last :=
    ⟨[], 3, rfl⟩
  have hLetters :
      ['f', 'F'].map Char.toLower = Nat.toDigits 16 255 := by
    decide
  exact ⟨hInside, hMatched,
    (hexadecimal_specified .empty hInside hMatched).2 "0X"
      (by decide) 2 ['f', 'F'] 255 hLetters (by decide)
      (by decide)⟩

end Parser

end ByteGrammar
