import ByteGrammar.Proofs.Terminals.Scanning

/-
  Integers at the start of bytes.

  Where there are digits and the number is in range, an
  integer is read with all of its digits and its sign. An
  unsigned one is read digit by digit, and given up as soon
  as the digits so far do not fit; more digits only make the
  number greater, so then the whole does not fit either.

  Main declarations:
    * `Digits.run_append`, `Digits.le_decimalFrom`
    * `Integer.accumulate_eq`
    * `Integer.unsigned?_eq`, `Integer.signed?_eq`
    * `Digits.decimal_spelling`
    * `Parser.integers_specified`
-/

------------------------------------------------------------
-- Runs of Digits
------------------------------------------------------------

namespace ByteGrammar

namespace Digits

/- The number that digits make, read on from another one. -/
def decimalFrom
    (start : Nat)
    (digits : List UInt8) :
    Nat :=
  valueFrom 10 start
    (digits.map fun byte => byte.toNat - 0x30)

theorem decimalFrom_zero
    (digits : List UInt8) :
    decimalFrom 0 digits = decimal digits := rfl

theorem decimalFrom_cons
    (start : Nat)
    (byte : UInt8)
    (digits : List UInt8) :
    decimalFrom start (byte :: digits) =
      decimalFrom (start * 10 + (byte.toNat - 0x30))
        digits := by
  simp only [decimalFrom, valueFrom, List.map_cons,
    List.foldl_cons]

/- More digits make a number no less. -/
theorem le_decimalFrom
    (start : Nat)
    (digits : List UInt8) :
    start ≤ decimalFrom start digits := by
  induction digits generalizing start with
  | nil => exact Nat.le_refl start
  | cons byte digits ih =>
      rw [decimalFrom_cons]
      have hMore := ih (start * 10 + (byte.toNat - 0x30))
      omega

theorem run_cons_of_digit
    {byte : UInt8}
    (hDigit : isDecimal byte = true)
    (rest : List UInt8) :
    run (byte :: rest) = byte :: run rest :=
  List.takeWhile_cons_of_pos hDigit

theorem run_cons_of_other
    {byte : UInt8}
    (hOther : isDecimal byte = false)
    (rest : List UInt8) :
    run (byte :: rest) = [] :=
  List.takeWhile_cons_of_neg
    (Bool.eq_false_iff.mp hOther)

theorem all_run
    (bytes : List UInt8) :
    (run bytes).all isDecimal = true :=
  List.all_takeWhile

theorem length_run_le
    (bytes : List UInt8) :
    (run bytes).length ≤ bytes.length := by
  have hStarts : run bytes <+: bytes :=
    List.takeWhile_prefix isDecimal
  exact hStarts.length_le

/- A run is what its length takes. -/
theorem take_run
    (bytes : List UInt8) :
    bytes.take (run bytes).length = run bytes := by
  have hStarts : run bytes <+: bytes :=
    List.takeWhile_prefix isDecimal
  exact (List.prefix_iff_eq_take.mp hStarts).symm

/- Some bytes do not start with a digit. -/
def Ends
    (bytes : List UInt8) :
    Prop :=
  ∀ byte ∈ bytes.head?, isDecimal byte = false

theorem run_of_ends
    {bytes : List UInt8}
    (hEnds : Ends bytes) :
    run bytes = [] := by
  cases bytes with
  | nil => rfl
  | cons byte rest =>
      exact run_cons_of_other (hEnds byte rfl) rest

/- A run of digits goes on behind digits. -/
theorem run_append
    {digits : List UInt8}
    (hDigits : ∀ byte ∈ digits, isDecimal byte = true)
    (rest : List UInt8) :
    run (digits ++ rest) = digits ++ run rest :=
  List.takeWhile_append_of_pos hDigits

/- Digits are a run if no other one comes after them. -/
theorem run_append_of_ends
    {digits rest : List UInt8}
    (hDigits : ∀ byte ∈ digits, isDecimal byte = true)
    (hEnds : Ends rest) :
    run (digits ++ rest) = digits := by
  rw [run_append hDigits, run_of_ends hEnds,
    List.append_nil]

end Digits

end ByteGrammar

------------------------------------------------------------
-- Unsigned Integers
------------------------------------------------------------

namespace ByteGrammar

namespace Integer

open ByteGrammar.Digits

/- One more digit fits if the number that it makes does. -/
theorem extend?_eq
    (total : Nat)
    (digit : UInt8) :
    extend? total digit =
      word? (total * 10 + (digit.toNat - 0x30)) := by
  unfold extend?
  by_cases hShifted : inU64 (total * 10) = true
  · rw [word?, if_pos hShifted]
    rfl
  · have hSum :
        ¬ inU64 (total * 10 + (digit.toNat - 0x30)) = true := by
      simp only [inU64, decide_eq_true_eq] at hShifted ⊢
      omega
    rw [word?, if_neg hShifted, word?, if_neg hSum]
    rfl

/- What is read of some bytes is the number of the run at
  their start, unless that does not fit. -/
theorem accumulate_eq
    {total : Nat}
    (hTotal : total < words)
    (count : Nat)
    (bytes : List UInt8) :
    accumulate total count bytes =
      if decimalFrom total (run bytes) < words then
        some (decimalFrom total (run bytes),
          count + (run bytes).length)
      else none := by
  induction bytes generalizing total count with
  | nil =>
      exact (if_pos hTotal).symm
  | cons byte rest ih =>
      unfold accumulate
      cases hDigit : isDecimal byte with
      | false =>
          rw [run_cons_of_other hDigit]
          exact (if_pos hTotal).symm
      | true =>
          rw [run_cons_of_digit hDigit, decimalFrom_cons,
            if_pos rfl, extend?_eq, List.length_cons]
          by_cases hNext :
              total * 10 + (byte.toNat - 0x30) < words
          · rw [word?, if_pos (by simpa [inU64] using hNext)]
            refine (ih hNext (count + 1)).trans ?_
            rw [Nat.add_right_comm, Nat.add_assoc]
          · have hMore :=
              le_decimalFrom
                (total * 10 + (byte.toNat - 0x30))
                (run rest)
            rw [word?, if_neg (by simpa [inU64] using hNext),
              if_neg (by omega)]

theorem unsigned?_eq
    (bytes : List UInt8) :
    unsigned? bytes =
      if run bytes ≠ [] ∧ decimal (run bytes) < words then
        some (decimal (run bytes), (run bytes).length)
      else none := by
  have hZero : 0 < words := by decide
  unfold unsigned?
  rw [accumulate_eq hZero, decimalFrom_zero, Nat.zero_add]
  by_cases hFits : decimal (run bytes) < words
  · by_cases hNone : run bytes = []
    · rw [if_pos hFits, hNone]
      rfl
    · have hLength : (run bytes).length ≠ 0 := by
        simpa using hNone
      rw [if_pos hFits, if_pos ⟨hNone, hFits⟩]
      simpa using hLength
  · rw [if_neg hFits, if_neg fun hBoth => hFits hBoth.2]
    rfl

theorem readsBy_unsigned :
    Terminal.unsigned.ReadsBy Value.u64 unsigned? where
  scan := fun _ => rfl
  within := by
    intro bytes value length hRead
    rw [unsigned?_eq] at hRead
    split at hRead
    · rename_i hDigits
      cases hRead
      exact ⟨List.length_pos_iff.mpr hDigits.1,
        length_run_le bytes⟩
    · cases hRead

end Integer

end ByteGrammar

------------------------------------------------------------
-- Signed Integers
------------------------------------------------------------

namespace ByteGrammar

namespace Integer

open ByteGrammar.Digits

/- A digit is no sign. -/
theorem signLength_of_digit
    {byte : UInt8}
    (hDigit : isDecimal byte = true)
    (rest : List UInt8) :
    signLength (byte :: rest) = 0 := by
  have hOther : isSign byte = false := by
    cases hSign : isSign byte with
    | false => rfl
    | true =>
        have hCases : byte = 0x2B ∨ byte = 0x2D := by
          simpa [isSign] using hSign
        rcases hCases with rfl | rfl <;> cases hDigit
  simp [signLength, hOther]

theorem isNegative_of_digit
    {byte : UInt8}
    (hDigit : isDecimal byte = true)
    (rest : List UInt8) :
    isNegative (byte :: rest) = false := by
  have hOther : byte ≠ 0x2D := by
    rintro rfl
    cases hDigit
  simpa [isNegative] using hOther

theorem signLength_take
    {length : Nat}
    (hSome : 0 < length)
    (bytes : List UInt8) :
    signLength (bytes.take length) = signLength bytes := by
  cases bytes with
  | nil => rw [List.take_nil]
  | cons byte rest =>
      cases length with
      | zero => cases hSome
      | succ length => rfl

theorem isNegative_take
    {length : Nat}
    (hSome : 0 < length)
    (bytes : List UInt8) :
    isNegative (bytes.take length) = isNegative bytes := by
  cases bytes with
  | nil => rw [List.take_nil]
  | cons byte rest =>
      cases length with
      | zero => cases hSome
      | succ length => rfl

theorem signLength_le
    (bytes : List UInt8) :
    signLength bytes ≤ bytes.length := by
  cases bytes with
  | nil => exact Nat.le_refl 0
  | cons byte rest =>
      have hOne : (byte :: rest).length = rest.length + 1 :=
        List.length_cons
      simp only [signLength]
      split <;> omega

/- The digits behind an optional sign. -/
def magnitudeOf
    (bytes : List UInt8) :
    List UInt8 :=
  run (bytes.drop (signLength bytes))

/- The integer that an optional sign and the digits behind it
  make. -/
def valueOf
    (bytes : List UInt8) :
    Int :=
  signed (isNegative bytes) (decimal (magnitudeOf bytes))

/- The length of an optional sign and the digits behind
  it. -/
def lengthOf
    (bytes : List UInt8) :
    Nat :=
  signLength bytes + (magnitudeOf bytes).length

theorem lengthOf_le
    (bytes : List UInt8) :
    lengthOf bytes ≤ bytes.length := by
  have hSign := signLength_le bytes
  have hRun :=
    length_run_le (bytes.drop (signLength bytes))
  rw [List.length_drop] at hRun
  unfold lengthOf magnitudeOf
  omega

/- A sign and digits are an integer as a whole if the integer
  is in range. -/
theorem parse?_take
    {bytes : List UInt8}
    (hDigits : magnitudeOf bytes ≠ []) :
    parse? least greatest (bytes.take (lengthOf bytes)) =
      if least ≤ valueOf bytes ∧
          valueOf bytes ≤ greatest then
        some (valueOf bytes)
      else none := by
  have hSome : 0 < lengthOf bytes := by
    have hLength := List.length_pos_iff.mpr hDigits
    unfold lengthOf
    omega
  have hDrop :
      (bytes.take (lengthOf bytes)).drop (signLength bytes) =
        magnitudeOf bytes := by
    rw [lengthOf, List.drop_take, Nat.add_sub_cancel_left]
    exact take_run _
  have hAll : (magnitudeOf bytes).all isDecimal = true :=
    all_run _
  have hLow : decide (0 ≤ least) = false := by decide
  have hSpelled : (magnitudeOf bytes).isEmpty = false := by
    simpa using hDigits
  unfold parse?
  rw [isNegative_take hSome, signLength_take hSome]
  simp only [hDrop, hAll, hLow, hSpelled, Bool.and_false,
    Bool.false_eq_true, if_false, if_true]
  rfl

/- A sign and digits are read as an integer as a whole. -/
theorem signed?_of_digits
    {bytes : List UInt8}
    (hDigits : magnitudeOf bytes ≠ []) :
    signed? bytes =
      (parse? least greatest
        (bytes.take (lengthOf bytes))).map
          fun value => (value, lengthOf bytes) := by
  have hSome : ¬ (magnitudeOf bytes).isEmpty = true := by
    simpa using hDigits
  exact if_neg hSome

theorem signed?_eq
    (bytes : List UInt8) :
    signed? bytes =
      if magnitudeOf bytes ≠ [] ∧ least ≤ valueOf bytes ∧
          valueOf bytes ≤ greatest then
        some (valueOf bytes, lengthOf bytes)
      else none := by
  by_cases hDigits : magnitudeOf bytes = []
  · have hNone : (magnitudeOf bytes).isEmpty = true := by
      rw [hDigits]
      rfl
    rw [if_neg fun hBoth => hBoth.1 hDigits]
    exact if_pos hNone
  · rw [signed?_of_digits hDigits, parse?_take hDigits]
    by_cases hRange :
        least ≤ valueOf bytes ∧ valueOf bytes ≤ greatest
    · rw [if_pos hRange, if_pos ⟨hDigits, hRange⟩]
      rfl
    · rw [if_neg hRange, if_neg fun hBoth => hRange hBoth.2]
      rfl

theorem readsBy_signed :
    Terminal.signed.ReadsBy Value.i64 signed? where
  scan := fun _ => rfl
  within := by
    intro bytes value length hRead
    rw [signed?_eq] at hRead
    split at hRead
    · rename_i hDigits
      cases hRead
      have hSome := List.length_pos_iff.mpr hDigits.1
      refine ⟨?_, lengthOf_le bytes⟩
      exact Nat.lt_of_lt_of_le hSome (Nat.le_add_left _ _)
    · cases hRead

end Integer

end ByteGrammar

------------------------------------------------------------
-- Renderings
------------------------------------------------------------

namespace ByteGrammar

namespace Digits

/- The byte of a decimal digit. -/
theorem utf8EncodeChar_of_digit
    {digit : Char}
    (hDigit : digit.isDigit = true) :
    String.utf8EncodeChar digit = [digit.val.toUInt8] ∧
      isDecimal digit.val.toUInt8 = true ∧
      digit.val.toUInt8.toNat = digit.toNat := by
  have hRange : 48 ≤ digit.toNat ∧ digit.toNat ≤ 57 := by
    simpa [Char.isDigit, UInt32.le_iff_toNat_le] using hDigit
  have hByte : digit.val.toUInt8.toNat = digit.toNat := by
    rw [UInt32.toNat_toUInt8]
    exact Nat.mod_eq_of_lt
      (Nat.lt_of_le_of_lt hRange.2 (by decide))
  refine ⟨?_, ?_, hByte⟩
  · apply String.utf8EncodeChar_eq_singleton
    rw [Char.utf8Size_eq_one_iff, UInt32.le_iff_toNat_le]
    exact Nat.le_trans hRange.2 (by decide)
  · simp only [isDecimal, UInt8.le_iff_toNat_le, hByte,
      Bool.and_eq_true, decide_eq_true_eq]
    exact hRange

/- The bytes of digits read as the number of the digits. -/
theorem decimalFrom_map
    {digits : List Char}
    (hDigits : ∀ digit ∈ digits, digit.isDigit = true)
    (start : Nat) :
    decimalFrom start
        (digits.map fun digit => digit.val.toUInt8) =
      Nat.ofDigitChars 10 digits start := by
  induction digits generalizing start with
  | nil => rfl
  | cons digit digits ih =>
      have hByte :=
        (utf8EncodeChar_of_digit
          (hDigits digit List.mem_cons_self)).2.2
      rw [List.map_cons, decimalFrom_cons, hByte,
        ih fun other hOther =>
          hDigits other (List.mem_cons_of_mem _ hOther),
        Nat.ofDigitChars_cons, Nat.mul_comm]
      rfl

theorem isDigit_of_mem
    {value : Nat}
    {digit : Char}
    (hDigit : digit ∈ Nat.toDigits 10 value) :
    digit.isDigit = true :=
  Nat.isDigit_of_mem_toDigits (by decide) (by decide) hDigit

/- A natural is spelled by the bytes of its digits. -/
theorem encode_toString
    (value : Nat) :
    Utf8.encode (toString value) =
      (Nat.toDigits 10 value).map
        fun digit => digit.val.toUInt8 := by
  have hDigits : ∀ digit ∈ Nat.toDigits 10 value,
      digit.isDigit = true := fun _ => isDigit_of_mem
  rw [Nat.toString_eq_ofList_toDigits, Utf8.encode_ofList]
  generalize Nat.toDigits 10 value = digits at hDigits
  induction digits with
  | nil => rfl
  | cons digit digits ih =>
      have hByte :=
        (utf8EncodeChar_of_digit
          (hDigits digit List.mem_cons_self)).1
      rw [List.flatMap_cons, hByte, List.map_cons,
        ih fun other hOther =>
          hDigits other (List.mem_cons_of_mem _ hOther)]
      rfl

theorem isDecimal_of_mem_spelling
    {value : Nat}
    {byte : UInt8}
    (hByte : byte ∈ Utf8.encode (toString value)) :
    isDecimal byte = true := by
  rw [encode_toString] at hByte
  rcases List.mem_map.mp hByte with ⟨digit, hDigit, rfl⟩
  exact (utf8EncodeChar_of_digit (isDigit_of_mem hDigit)).2.1

theorem spelling_ne_nil
    (value : Nat) :
    Utf8.encode (toString value) ≠ [] := by
  rw [encode_toString]
  simp

/- What spells a natural is read as it. -/
theorem decimal_spelling
    (value : Nat) :
    decimal (Utf8.encode (toString value)) = value := by
  rw [encode_toString, ← decimalFrom_zero,
    decimalFrom_map fun _ => isDigit_of_mem]
  exact Nat.ofDigitChars_ten_toDigits

theorem run_spelling
    (value : Nat)
    {rest : List UInt8}
    (hEnds : Ends rest) :
    run (Utf8.encode (toString value) ++ rest) =
      Utf8.encode (toString value) :=
  run_append_of_ends (fun _ => isDecimal_of_mem_spelling)
    hEnds

end Digits

namespace Integer

open ByteGrammar.Digits

/- The rendering of a natural is read back. -/
theorem unsigned?_spelling
    {value : Nat}
    (hFits : value < words)
    {rest : List UInt8}
    (hEnds : Ends rest) :
    unsigned? (Utf8.encode (toString value) ++ rest) =
      some (value,
        (Utf8.encode (toString value)).length) := by
  rw [unsigned?_eq, run_spelling value hEnds,
    decimal_spelling]
  exact if_pos ⟨spelling_ne_nil value, hFits⟩

theorem encode_toString
    (value : Int) :
    Utf8.encode (toString value) =
      if 0 ≤ value then Utf8.encode (toString value.toNat)
      else 0x2D :: Utf8.encode (toString (-value).toNat) := by
  rw [Int.toString_eq_repr, Int.repr_eq_if]
  split
  · rfl
  · exact Utf8.encode_append "-" _

/- The rendering of a natural has no sign. -/
theorem signLength_spelling
    (value : Nat)
    (rest : List UInt8) :
    signLength (Utf8.encode (toString value) ++ rest) = 0 ∧
      isNegative (Utf8.encode (toString value) ++ rest) =
        false := by
  rcases List.exists_cons_of_ne_nil (spelling_ne_nil value)
    with ⟨byte, more, hBytes⟩
  have hMem : byte ∈ Utf8.encode (toString value) := by
    rw [hBytes]
    exact List.mem_cons_self
  have hDigit := isDecimal_of_mem_spelling hMem
  rw [hBytes]
  exact ⟨signLength_of_digit hDigit _,
    isNegative_of_digit hDigit _⟩

/- The digits of a natural are read whole. -/
theorem reads_natural
    (value : Nat)
    {rest : List UInt8}
    (hEnds : Ends rest) :
    let digits := Utf8.encode (toString value)
    magnitudeOf (digits ++ rest) = digits ∧
      valueOf (digits ++ rest) = value ∧
      lengthOf (digits ++ rest) = digits.length := by
  intro digits
  have hRun := run_spelling value hEnds
  rcases signLength_spelling value rest with
    ⟨hSign, hNegative⟩
  have hMagnitude : magnitudeOf (digits ++ rest) = digits := by
    rw [magnitudeOf, hSign, List.drop_zero]
    exact hRun
  refine ⟨hMagnitude, ?_, ?_⟩
  · rw [valueOf, hMagnitude, hNegative, decimal_spelling]
    rfl
  · rw [lengthOf, hMagnitude, hSign, Nat.zero_add]

/- So they are behind a minus sign. -/
theorem reads_negative
    (value : Nat)
    {rest : List UInt8}
    (hEnds : Ends rest) :
    let digits := Utf8.encode (toString value)
    magnitudeOf (0x2D :: digits ++ rest) = digits ∧
      valueOf (0x2D :: digits ++ rest) = -value ∧
      lengthOf (0x2D :: digits ++ rest) =
        digits.length + 1 := by
  intro digits
  have hMagnitude :
      magnitudeOf (0x2D :: digits ++ rest) = digits :=
    run_spelling value hEnds
  refine ⟨hMagnitude, ?_, ?_⟩
  · rw [valueOf, hMagnitude, decimal_spelling]
    rfl
  · rw [lengthOf, hMagnitude, Nat.add_comm]
    rfl

/- The rendering of an integer is read back. -/
theorem signed?_spelling
    {value : Int}
    (hLow : least ≤ value)
    (hHigh : value ≤ greatest)
    {rest : List UInt8}
    (hEnds : Ends rest) :
    signed? (Utf8.encode (toString value) ++ rest) =
      some (value,
        (Utf8.encode (toString value)).length) := by
  rw [signed?_eq, encode_toString]
  split
  · rename_i hSign
    rcases reads_natural value.toNat hEnds with
      ⟨hMagnitude, hValue, hLength⟩
    rw [Int.toNat_of_nonneg hSign] at hValue
    rw [hMagnitude, hValue, hLength]
    exact if_pos ⟨spelling_ne_nil _, hLow, hHigh⟩
  · rename_i hSign
    rcases reads_negative (-value).toNat hEnds with
      ⟨hMagnitude, hValue, hLength⟩
    rw [Int.toNat_of_nonneg (by omega), Int.neg_neg] at hValue
    rw [hMagnitude, hValue, hLength]
    exact if_pos ⟨spelling_ne_nil _, hLow, hHigh⟩

end Integer

end ByteGrammar

------------------------------------------------------------
-- Integer Terminals
------------------------------------------------------------

namespace ByteGrammar

namespace Parser

open ByteGrammar.Integer

/-
  What the integer terminals come to. Both take the longest
  run of digits, if it is not empty and the number is in
  range: an unsigned one at the position, a signed one
  behind an optional sign, which they then take as well.
  Elsewhere they fail and leave the state as it is. So what
  renders an integer in range is read as that integer, if
  no digit comes after it.
-/
theorem integers_specified
    (rules : Rules)
    (state : State) :
    (∀ outcome last,
      let digits := Digits.run state.cursor.remaining
      EndsIn rules (.terminal .unsigned) state outcome last ↔
        Takes Value.u64 state
          (if digits ≠ [] ∧
              Digits.decimal digits < 2 ^ 64 then
            some (Digits.decimal digits, digits.length)
          else none)
          outcome last) ∧
    (∀ outcome last,
      let bytes := state.cursor.remaining
      let sign := signLength bytes
      let digits := Digits.run (bytes.drop sign)
      let value :=
        signed (isNegative bytes) (Digits.decimal digits)
      EndsIn rules (.terminal .signed) state outcome last ↔
        Takes Value.i64 state
          (if digits ≠ [] ∧ -2 ^ 63 ≤ value ∧
              value ≤ 2 ^ 63 - 1 then
            some (value, sign + digits.length)
          else none)
          outcome last) ∧
    (∀ (value : Nat) (rest : List UInt8),
      value < 2 ^ 64 →
        let spelling := Utf8.encode (toString value)
        Digits.Ends rest →
        state.cursor.remaining = spelling ++ rest →
          EndsIn rules (.terminal .unsigned) state
            (.matched ⟨state.cursor.position,
              state.cursor.position + spelling.length,
              .u64 value⟩)
            (state.advance spelling.length)) ∧
    (∀ (value : Int) (rest : List UInt8),
      -2 ^ 63 ≤ value →
      value ≤ 2 ^ 63 - 1 →
        let spelling := Utf8.encode (toString value)
        Digits.Ends rest →
        state.cursor.remaining = spelling ++ rest →
            EndsIn rules (.terminal .signed) state
              (.matched ⟨state.cursor.position,
                state.cursor.position + spelling.length,
                .i64 value⟩)
              (state.advance spelling.length)) := by
  refine ⟨?_, ?_, ?_, ?_⟩
  · intro outcome last digits
    rw [readsBy_unsigned.endsIn, unsigned?_eq]
    exact Iff.rfl
  · intro outcome last bytes sign digits value
    rw [readsBy_signed.endsIn, signed?_eq]
    exact Iff.rfl
  · intro value rest hFits spelling hEnds hBytes
    rw [readsBy_unsigned.endsIn, hBytes,
      unsigned?_spelling hFits hEnds]
    exact .taken value _
  · intro value rest hLow hHigh spelling hEnds hBytes
    rw [readsBy_signed.endsIn, hBytes,
      signed?_spelling hLow hHigh hEnds]
    exact .taken value _

/- The greatest unsigned integer before a comma, and the
  least signed one at the end of the buffer. -/
theorem integers_specified_extremes :
    let unsigned : State :=
      ⟨.ofBytes (Utf8.encode "18446744073709551615,"),
        .fresh .standard⟩
    let signed : State :=
      ⟨.ofBytes (Utf8.encode "-9223372036854775808"),
        .fresh .standard⟩
    18446744073709551615 < 2 ^ 64 ∧
      Digits.Ends [0x2C] ∧ Digits.Ends [] ∧
      EndsIn .empty (.terminal .unsigned) unsigned
        (.matched ⟨0, 20, .u64 18446744073709551615⟩)
        (unsigned.advance 20) ∧
      EndsIn .empty (.terminal .signed) signed
        (.matched ⟨0, 20, .i64 (-9223372036854775808)⟩)
        (signed.advance 20) := by
  intro unsigned signed
  have hComma : Digits.Ends [0x2C] := by
    rintro byte ⟨⟩
    decide
  have hEnd : Digits.Ends [] := nofun
  have hUnsigned :=
    (integers_specified .empty unsigned).2.2.1
      18446744073709551615 [0x2C] (by decide) hComma
      (by decide)
  have hSigned :=
    (integers_specified .empty signed).2.2.2
      (-9223372036854775808) [] (by decide) (by decide) hEnd
      (by decide)
  exact ⟨by decide, hComma, hEnd, hUnsigned, hSigned⟩

end Parser

end ByteGrammar
