import ByteGrammar.Proofs.Terminals.Integers

/-
  Numeric literals at the start of bytes.

  A literal is an optional sign and digits, an optional
  fraction and an optional exponent. The scanner takes each
  part as far as it goes. So nothing that starts the bytes
  and is a literal is longer: a part that is cut short is
  followed by a digit, or by the point of a fraction, and no
  further part starts with one. What the scanner takes is
  read as an integer or in floating point, by the kind of
  the literal.

  Main declarations:
    * `Literal.Spelled`
    * `Literal.spelled_take_length`, `Literal.length_le`
    * `Literal.scan?_eq_some_iff`, `Literal.scan?_eq_none_iff`
    * `Literal.number?_integer_iff`,
      `Literal.number?_float_iff`
    * `Parser.numbers_specified`
-/

------------------------------------------------------------
-- The Grammar of Literals
------------------------------------------------------------

namespace ByteGrammar

/- Some digits. -/
structure Digits.Spelled
    (digits : List UInt8) :
    Prop where
  some : digits ≠ []
  all : ∀ byte ∈ digits, Digits.isDecimal byte = true

namespace Integer

/- An optional sign. -/
inductive Sign : List UInt8 → Prop where
  | absent : Sign []
  | plus : Sign [0x2B]
  | minus : Sign [0x2D]

/- An optional sign and digits. -/
inductive Spelled : List UInt8 → Prop where
  | intro {sign digits : List UInt8}
      (hSign : Sign sign)
      (hDigits : Digits.Spelled digits) :
      Spelled (sign ++ digits)

end Integer

namespace Literal

/- An optional point with digits. -/
inductive Fraction : List UInt8 → Prop where
  | absent : Fraction []
  | point {digits : List UInt8}
      (hDigits : Digits.Spelled digits) :
      Fraction (0x2E :: digits)

/- The letter `e` in either case. -/
def isMarker
    (byte : UInt8) :
    Bool :=
  byte == 0x65 || byte == 0x45

/- An optional marker with an optional sign and digits. -/
inductive Exponent : List UInt8 → Prop where
  | absent : Exponent []
  | marked {marker : UInt8} {power : List UInt8}
      (hMarker : isMarker marker = true)
      (hPower : Integer.Spelled power) :
      Exponent (marker :: power)

/- A literal, and whether it has a fraction or an
  exponent. -/
inductive Spelled : List UInt8 → Bool → Prop where
  | intro {whole fraction exponent : List UInt8}
      (hWhole : Integer.Spelled whole)
      (hFraction : Fraction fraction)
      (hExponent : Exponent exponent) :
      Spelled (whole ++ fraction ++ exponent)
        (decide (fraction ≠ [] ∨ exponent ≠ []))

end Literal

end ByteGrammar

------------------------------------------------------------
-- Signs and Digits
------------------------------------------------------------

namespace ByteGrammar

namespace Integer

open ByteGrammar.Digits

theorem sign_take
    (bytes : List UInt8) :
    Sign (bytes.take (signLength bytes)) := by
  cases bytes with
  | nil => exact .absent
  | cons byte rest =>
      simp only [signLength]
      split
      · rename_i hSign
        have hCases : byte = 0x2B ∨ byte = 0x2D := by
          simpa [isSign] using hSign
        cases hCases with
        | inl hPlus =>
            subst hPlus
            exact .plus
        | inr hMinus =>
            subst hMinus
            exact .minus
      · exact .absent

/- A sign before digits is the sign that is found. -/
theorem signLength_of_sign
    {sign digits : List UInt8}
    (hSign : Sign sign)
    (hDigits : Digits.Spelled digits)
    (rest : List UInt8) :
    signLength (sign ++ digits ++ rest) = sign.length := by
  cases hSign with
  | absent =>
      rcases List.exists_cons_of_ne_nil hDigits.some with
        ⟨byte, more, rfl⟩
      have hDigit := hDigits.all byte List.mem_cons_self
      exact signLength_of_digit hDigit _
  | plus => rfl
  | minus => rfl

/- What spells an integer is found, as far as it goes. -/
theorem magnitudeOf_of_spelled
    {sign digits : List UInt8}
    (hSign : Sign sign)
    (hDigits : Digits.Spelled digits)
    (rest : List UInt8) :
    magnitudeOf (sign ++ digits ++ rest) =
      digits ++ run rest := by
  rw [magnitudeOf, signLength_of_sign hSign hDigits,
    List.append_assoc, List.drop_left]
  exact run_append hDigits.all rest

namespace Spelled

variable {word rest : List UInt8}

theorem magnitudeOf_ne_nil
    (hWord : Spelled word)
    (rest : List UInt8) :
    magnitudeOf (word ++ rest) ≠ [] := by
  cases hWord with
  | intro hSign hDigits =>
      rw [magnitudeOf_of_spelled hSign hDigits]
      intro hNone
      exact hDigits.some (List.append_eq_nil_iff.mp hNone).1

theorem length_eq
    (hWord : Spelled word)
    (rest : List UInt8) :
    lengthOf (word ++ rest) =
      word.length + (run rest).length := by
  cases hWord with
  | intro hSign hDigits =>
      rw [lengthOf, magnitudeOf_of_spelled hSign hDigits,
        signLength_of_sign hSign hDigits, List.length_append,
        List.length_append, Nat.add_assoc]

/- It goes no less far than any that is spelled there. -/
theorem length_le
    (hWord : Spelled word)
    (rest : List UInt8) :
    word.length ≤ lengthOf (word ++ rest) := by
  rw [hWord.length_eq]
  exact Nat.le_add_right _ _

/- It ends where no digit comes next. -/
theorem length_eq_of_ends
    (hWord : Spelled word)
    (hEnds : Ends rest) :
    lengthOf (word ++ rest) = word.length := by
  rw [hWord.length_eq, run_of_ends hEnds]
  rfl

end Spelled

/- What is found is an integer. -/
theorem spelled_take
    {bytes : List UInt8}
    (hDigits : magnitudeOf bytes ≠ []) :
    Spelled (bytes.take (lengthOf bytes)) := by
  have hAll : ∀ byte ∈ magnitudeOf bytes,
      isDecimal byte = true :=
    List.all_eq_true.mp (all_run _)
  rw [lengthOf, List.take_add]
  have hRun :
      (bytes.drop (signLength bytes)).take
          (magnitudeOf bytes).length =
        magnitudeOf bytes :=
    take_run _
  rw [hRun]
  exact .intro (sign_take bytes) ⟨hDigits, hAll⟩

end Integer

end ByteGrammar

------------------------------------------------------------
-- Fractions and Exponents
------------------------------------------------------------

namespace ByteGrammar

namespace Literal

open ByteGrammar.Digits

theorem fractionLength_point
    (rest : List UInt8) :
    fractionLength (0x2E :: rest) =
      if run rest = [] then 0
      else (run rest).length + 1 := by
  unfold fractionLength
  cases hRun : run rest with
  | nil => simp [hRun]
  | cons byte more => simp [hRun]

theorem fractionLength_of_other
    {bytes : List UInt8}
    (hOther : bytes.head? ≠ some 0x2E) :
    fractionLength bytes = 0 := by
  unfold fractionLength
  split
  · exact absurd rfl hOther
  · rfl

theorem exponentLength_marked
    {marker : UInt8}
    (hMarker : isMarker marker = true)
    (rest : List UInt8) :
    exponentLength (marker :: rest) =
      if Integer.magnitudeOf rest = [] then 0
      else Integer.lengthOf rest + 1 := by
  have hFound : (marker == 0x65 || marker == 0x45) = true :=
    hMarker
  simp only [exponentLength, hFound, if_true]
  cases hRun : Integer.magnitudeOf rest with
  | nil =>
      rw [Integer.magnitudeOf] at hRun
      simp [hRun]
  | cons byte more =>
      have hLength :
          Integer.lengthOf rest =
            Integer.signLength rest + (more.length + 1) := by
        rw [Integer.lengthOf, hRun, List.length_cons]
      rw [Integer.magnitudeOf] at hRun
      simp only [hRun, hLength, List.length_cons]
      rfl

namespace Fraction

variable {fraction rest : List UInt8}

theorem length_le
    (hFraction : Fraction fraction)
    (rest : List UInt8) :
    fraction.length ≤ fractionLength (fraction ++ rest) := by
  cases hFraction with
  | absent => exact Nat.zero_le _
  | @point digits hDigits =>
      have hSome : digits ++ run rest ≠ [] := fun hNone =>
        hDigits.some (List.append_eq_nil_iff.mp hNone).1
      rw [List.cons_append, fractionLength_point,
        run_append hDigits.all, if_neg hSome,
        List.length_cons, List.length_append]
      omega

theorem length_eq
    (hFraction : Fraction fraction)
    (hEnds : Ends rest)
    (hOther : rest.head? ≠ some 0x2E) :
    fractionLength (fraction ++ rest) =
      fraction.length := by
  cases hFraction with
  | absent => exact fractionLength_of_other hOther
  | point hDigits =>
      rw [List.cons_append, fractionLength_point,
        run_append_of_ends hDigits.all hEnds,
        if_neg hDigits.some, List.length_cons]

theorem ends
    (hFraction : Fraction fraction)
    (hEnds : fraction ≠ [] ∨ Ends rest) :
    Ends (fraction ++ rest) := by
  cases hFraction with
  | absent => exact hEnds.resolve_left (absurd rfl)
  | point hDigits =>
      rintro byte ⟨⟩
      rfl

end Fraction

theorem fraction_take
    (bytes : List UInt8) :
    Fraction (bytes.take (fractionLength bytes)) := by
  by_cases hPoint : bytes.head? = some 0x2E
  · rcases List.head?_eq_some_iff.mp hPoint with ⟨rest, rfl⟩
    rw [fractionLength_point]
    by_cases hNone : run rest = []
    · rw [if_pos hNone]
      exact .absent
    · have hAll : ∀ byte ∈ run rest,
          isDecimal byte = true :=
        List.all_eq_true.mp (all_run _)
      rw [if_neg hNone, List.take_succ_cons, take_run]
      exact .point ⟨hNone, hAll⟩
  · rw [fractionLength_of_other hPoint]
    exact .absent

theorem fractionLength_le
    (bytes : List UInt8) :
    fractionLength bytes ≤ bytes.length := by
  by_cases hPoint : bytes.head? = some 0x2E
  · rcases List.head?_eq_some_iff.mp hPoint with ⟨rest, rfl⟩
    have hRun := length_run_le rest
    rw [fractionLength_point, List.length_cons]
    split <;> omega
  · rw [fractionLength_of_other hPoint]
    exact Nat.zero_le _

theorem exponentLength_unmarked
    {byte : UInt8}
    (hOther : isMarker byte = false)
    (rest : List UInt8) :
    exponentLength (byte :: rest) = 0 := by
  have hMiss : (byte == 0x65 || byte == 0x45) = false :=
    hOther
  simp only [exponentLength, hMiss, Bool.false_eq_true,
    if_false]

namespace Exponent

variable {exponent rest : List UInt8}

theorem length_le
    (hExponent : Exponent exponent)
    (rest : List UInt8) :
    exponent.length ≤ exponentLength (exponent ++ rest) := by
  cases hExponent with
  | absent => exact Nat.zero_le _
  | marked hMarker hPower =>
      have hLength := hPower.length_le rest
      rw [List.cons_append, exponentLength_marked hMarker,
        if_neg (hPower.magnitudeOf_ne_nil rest),
        List.length_cons]
      omega

/- It is taken for nothing that comes before it. -/
theorem ends
    (hExponent : Exponent exponent)
    (hSome : exponent ≠ [])
    (rest : List UInt8) :
    Ends (exponent ++ rest) ∧
      (exponent ++ rest).head? ≠ some 0x2E := by
  cases hExponent with
  | absent => exact absurd rfl hSome
  | @marked marker power hMarker hPower =>
      have hCases : marker = 0x65 ∨ marker = 0x45 := by
        simpa [isMarker] using hMarker
      constructor
      · rintro byte ⟨⟩
        rcases hCases with rfl | rfl <;> rfl
      · rintro ⟨⟩
        cases hMarker

end Exponent

theorem exponent_take
    (bytes : List UInt8) :
    Exponent (bytes.take (exponentLength bytes)) := by
  cases bytes with
  | nil => exact .absent
  | cons marker rest =>
      cases hMarker : isMarker marker with
      | false =>
          rw [exponentLength_unmarked hMarker]
          exact .absent
      | true =>
          rw [exponentLength_marked hMarker]
          by_cases hNone : Integer.magnitudeOf rest = []
          · rw [if_pos hNone]
            exact .absent
          · rw [if_neg hNone, List.take_succ_cons]
            exact .marked hMarker
              (Integer.spelled_take hNone)

theorem exponentLength_le
    (bytes : List UInt8) :
    exponentLength bytes ≤ bytes.length := by
  cases bytes with
  | nil => exact Nat.le_refl 0
  | cons marker rest =>
      cases hMarker : isMarker marker with
      | false =>
          rw [exponentLength_unmarked hMarker]
          exact Nat.zero_le _
      | true =>
          have hLength := Integer.lengthOf_le rest
          rw [exponentLength_marked hMarker,
            List.length_cons]
          split <;> omega

end Literal

end ByteGrammar

------------------------------------------------------------
-- The Longest Literal
------------------------------------------------------------

namespace ByteGrammar

namespace Literal

open ByteGrammar.Integer

/- How far the parts of a literal at the start go. -/
def extentOf
    (bytes : List UInt8) :
    Extent :=
  let whole := lengthOf bytes
  let fraction := fractionLength (bytes.drop whole)
  let exponent :=
    exponentLength (bytes.drop (whole + fraction))
  { length := whole + fraction + exponent
    isFloat := decide (0 < fraction + exponent) }

theorem scan?_eq
    (bytes : List UInt8) :
    scan? bytes =
      if magnitudeOf bytes = [] then none
      else some (extentOf bytes) := by
  unfold scan?
  by_cases hNone : magnitudeOf bytes = []
  · have hLength :
        (Digits.run
          (bytes.drop (signLength bytes))).length = 0 :=
      List.length_eq_zero_iff.mpr hNone
    rw [if_pos hNone]
    exact if_pos hLength
  · have hLength :
        ¬ (Digits.run
          (bytes.drop (signLength bytes))).length = 0 :=
      fun hZero => hNone (List.length_eq_zero_iff.mp hZero)
    rw [if_neg hNone]
    exact if_neg hLength

/- What is found is a literal. -/
theorem spelled_take
    {bytes : List UInt8}
    (hDigits : magnitudeOf bytes ≠ []) :
    Spelled (bytes.take (extentOf bytes).length)
      (extentOf bytes).isFloat := by
  let whole := lengthOf bytes
  let fraction := fractionLength (bytes.drop whole)
  let exponent :=
    exponentLength (bytes.drop (whole + fraction))
  have hTake :
      bytes.take (extentOf bytes).length =
        bytes.take whole ++
            (bytes.drop whole).take fraction ++
          (bytes.drop (whole + fraction)).take exponent := by
    rw [← List.take_add, ← List.take_add]
    rfl
  have hFraction :
      ((bytes.drop whole).take fraction).length = fraction :=
    List.length_take_of_le (fractionLength_le _)
  have hExponent :
      ((bytes.drop (whole + fraction)).take exponent).length =
        exponent :=
    List.length_take_of_le (exponentLength_le _)
  have hFloat :
      (extentOf bytes).isFloat =
        decide ((bytes.drop whole).take fraction ≠ [] ∨
          (bytes.drop (whole + fraction)).take exponent ≠
            []) := by
    apply decide_eq_decide.mpr
    rw [← List.length_pos_iff, ← List.length_pos_iff,
      hFraction, hExponent]
    exact Nat.add_pos_iff_pos_or_pos
  rw [hTake, hFloat]
  exact .intro (Integer.spelled_take hDigits)
    (fraction_take _) (exponent_take _)

/- It lies within the bytes. -/
theorem length_extentOf_le
    (bytes : List UInt8) :
    (extentOf bytes).length ≤ bytes.length := by
  have hWhole := lengthOf_le bytes
  have hFraction :=
    fractionLength_le (bytes.drop (lengthOf bytes))
  have hExponent :=
    exponentLength_le
      (bytes.drop (lengthOf bytes +
        fractionLength (bytes.drop (lengthOf bytes))))
  rw [List.length_drop] at hFraction hExponent
  unfold extentOf
  dsimp only
  omega

/- Nothing that is a literal goes further. A part that is
  followed by another one is taken whole, as the other does
  not start with a digit. -/
theorem Spelled.length_le
    {word : List UInt8}
    {isFloat : Bool}
    (hWord : Spelled word isFloat)
    (rest : List UInt8) :
    magnitudeOf (word ++ rest) ≠ [] ∧
      word.length ≤ (extentOf (word ++ rest)).length := by
  cases hWord with
  | @intro whole fraction exponent hWhole hFraction
      hExponent =>
      simp only [List.append_assoc, List.length_append,
        extentOf]
      refine ⟨hWhole.magnitudeOf_ne_nil _, ?_⟩
      have hLeast :=
        hWhole.length_le (fraction ++ (exponent ++ rest))
      by_cases hExact :
          Digits.Ends (fraction ++ (exponent ++ rest))
      · rw [hWhole.length_eq_of_ends hExact, List.drop_left]
        by_cases hSome : exponent = []
        · have hGoes := hFraction.length_le (exponent ++ rest)
          rw [hSome] at hGoes ⊢
          rw [List.length_nil]
          omega
        · rcases hExponent.ends hSome rest with
            ⟨hEnds, hOther⟩
          have hGoes := hExponent.length_le rest
          rw [hFraction.length_eq hEnds hOther,
            ← List.drop_drop, List.drop_left,
            List.drop_left]
          omega
      · -- The whole is cut short, so nothing else follows.
        have hNoExponent : exponent = [] := by
          by_contra hSome
          have hEnds := (hExponent.ends hSome rest).1
          exact hExact (hFraction.ends (.inr hEnds))
        have hNoFraction : fraction = [] := by
          by_contra hSome
          exact hExact (hFraction.ends (.inl hSome))
        rw [hNoExponent, hNoFraction] at hLeast ⊢
        rw [List.length_nil]
        omega

/- The bytes that only fractions and exponents have. -/
def marksFloat
    (byte : UInt8) :
    Bool :=
  byte == 0x2E || isMarker byte

theorem any_marksFloat_of_spelled
    {whole : List UInt8}
    (hWhole : Integer.Spelled whole) :
    whole.any marksFloat = false := by
  cases hWhole with
  | @intro sign digits hSign hDigits =>
      have hPlain : digits.any marksFloat = false := by
        rw [List.any_eq_false]
        intro byte hByte hMarks
        have hDigit := hDigits.all byte hByte
        have hCases :
            byte = 0x2E ∨ byte = 0x65 ∨ byte = 0x45 := by
          simpa [marksFloat, isMarker] using hMarks
        rcases hCases with rfl | rfl | rfl <;> cases hDigit
      rw [List.any_append, hPlain, Bool.or_false]
      cases hSign <;> rfl

/- So the kind of a literal shows. -/
theorem Spelled.isFloat_eq
    {word : List UInt8}
    {isFloat : Bool}
    (hWord : Spelled word isFloat) :
    isFloat = word.any marksFloat := by
  cases hWord with
  | intro hWhole hFraction hExponent =>
      have hPlain := any_marksFloat_of_spelled hWhole
      rw [List.any_append, List.any_append, hPlain]
      cases hFraction with
      | absent =>
          cases hExponent with
          | absent => rfl
          | marked hMarker _ =>
              simp [marksFloat, hMarker]
      | point _ => simp [marksFloat]

/- What starts some bytes and is a literal of a kind, where
  none that is longer does. -/
structure Longest
    (bytes literal : List UInt8)
    (isFloat : Bool) :
    Prop where
  starts : literal <+: bytes
  spelled : Spelled literal isFloat
  longest : ∀ other isFloat, other <+: bytes →
    Spelled other isFloat → other.length ≤ literal.length

theorem longest_take
    {bytes : List UInt8}
    (hDigits : magnitudeOf bytes ≠ []) :
    Longest bytes (bytes.take (extentOf bytes).length)
      (extentOf bytes).isFloat where
  starts := List.take_prefix _ _
  spelled := spelled_take hDigits
  longest := by
    rintro other isFloat ⟨rest, rfl⟩ hOther
    rw [List.length_take_of_le (length_extentOf_le _)]
    exact (hOther.length_le rest).2

theorem Longest.unique
    {bytes literal literal' : List UInt8}
    {isFloat isFloat' : Bool}
    (hLongest : Longest bytes literal isFloat)
    (hOther : Longest bytes literal' isFloat') :
    literal = literal' ∧ isFloat = isFloat' := by
  have hLess :=
    hLongest.longest _ _ hOther.starts hOther.spelled
  have hMore :=
    hOther.longest _ _ hLongest.starts hLongest.spelled
  have hStarts :=
    List.prefix_of_prefix_length_le hLongest.starts
      hOther.starts hMore
  have hSame : literal = literal' :=
    hStarts.eq_of_length_le hLess
  refine ⟨hSame, ?_⟩
  rw [hLongest.spelled.isFloat_eq,
    hOther.spelled.isFloat_eq, hSame]

/- The scanner finds the longest literal, if there is
  one. -/
theorem scan?_eq_some_iff
    {bytes : List UInt8}
    {extent : Extent} :
    scan? bytes = some extent ↔
      ∃ literal, Longest bytes literal extent.isFloat ∧
        literal.length = extent.length := by
  rw [scan?_eq]
  constructor
  · intro hScan
    split at hScan
    · cases hScan
    · rename_i hDigits
      cases hScan
      exact ⟨_, longest_take hDigits,
        List.length_take_of_le (length_extentOf_le bytes)⟩
  · rintro ⟨literal, hLongest, hLength⟩
    rcases hLongest.starts with ⟨rest, hBytes⟩
    have hDigits : magnitudeOf bytes ≠ [] := by
      rw [← hBytes]
      exact (hLongest.spelled.length_le rest).1
    rcases hLongest.unique (longest_take hDigits) with
      ⟨rfl, hFloat⟩
    rw [List.length_take_of_le (length_extentOf_le bytes)]
      at hLength
    rw [if_neg hDigits]
    rcases extent with ⟨length, isFloat⟩
    cases hFloat
    cases hLength
    rfl

/- What no digit follows is left alone. -/
example :
    scan? (Utf8.encode "1.e5") = some ⟨1, false⟩ := by
  decide

example :
    scan? (Utf8.encode "-2.5e+") = some ⟨4, true⟩ := by
  decide

theorem scan?_eq_none_iff
    {bytes : List UInt8} :
    scan? bytes = none ↔
      ∀ literal isFloat, literal <+: bytes →
        ¬ Spelled literal isFloat := by
  rw [scan?_eq]
  constructor
  · rintro hScan literal isFloat ⟨rest, rfl⟩ hSpelled
    rw [if_neg (hSpelled.length_le rest).1] at hScan
    cases hScan
  · intro hNone
    by_cases hDigits : magnitudeOf bytes = []
    · exact if_pos hDigits
    · exact absurd (spelled_take hDigits)
        (hNone _ _ (List.take_prefix _ _))

end Literal

end ByteGrammar

------------------------------------------------------------
-- Numbers of Either Kind
------------------------------------------------------------

namespace ByteGrammar

namespace Literal

open ByteGrammar.Integer

variable {bytes : List UInt8}
variable {length : Nat}

theorem scan?_within
    {extent : Extent}
    (hScan : scan? bytes = some extent) :
    0 < extent.length ∧ extent.length ≤ bytes.length := by
  rw [scan?_eq] at hScan
  split at hScan
  · cases hScan
  · rename_i hDigits
    cases hScan
    have hSome := List.length_pos_iff.mpr hDigits
    refine ⟨?_, length_extentOf_le bytes⟩
    simp only [extentOf, lengthOf]
    omega

/- Without a fraction and an exponent, a literal is a sign
  and digits. -/
theorem signed?_of_scan
    (hScan : scan? bytes = some ⟨length, false⟩) :
    signed? bytes =
      (parse? least greatest (bytes.take length)).map
        fun value => (value, length) := by
  rw [scan?_eq] at hScan
  split at hScan
  · cases hScan
  · rename_i hDigits
    have hExtent := Option.some.inj hScan
    have hLength := congrArg Extent.length hExtent
    have hFloat := congrArg Extent.isFloat hExtent
    simp only [extentOf, decide_eq_false_iff_not]
      at hLength hFloat
    have hWhole : lengthOf bytes = length := by omega
    rw [signed?_of_digits hDigits, hWhole]

theorem number?_integer_iff
    {value : Int} :
    number? bytes = some (.integer value, length) ↔
      scan? bytes = some ⟨length, false⟩ ∧
        signed? bytes = some (value, length) := by
  unfold number?
  cases hScan : scan? bytes with
  | none => simp
  | some extent =>
      rcases extent with ⟨reach, _ | _⟩
      · rw [signed?_of_scan hScan]
        simp
      · simp

theorem number?_float_iff
    {value : Binary64} :
    number? bytes = some (.float value, length) ↔
      (scan? bytes).map Extent.isFloat = some true ∧
        float? bytes = some (value, length) := by
  unfold number? float?
  cases hScan : scan? bytes with
  | none => simp
  | some extent =>
      rcases extent with ⟨reach, _ | _⟩
      · simp
      · simp

/- What is read of the literal at the start lies within the
  bytes. -/
theorem within_of_scan
    {α : Type}
    {value? : Extent → Option α}
    {found : α}
    (hRead :
      (scan? bytes).bind (fun extent =>
        (value? extent).map fun value =>
          (value, extent.length)) =
        some (found, length)) :
    0 < length ∧ length ≤ bytes.length := by
  rcases Option.bind_eq_some_iff.mp hRead with
    ⟨extent, hScan, hValue⟩
  rcases Option.map_eq_some_iff.mp hValue with ⟨_, _, ⟨⟩⟩
  exact scan?_within hScan

theorem readsBy_float :
    Terminal.float.ReadsBy Value.f64 float? where
  scan := fun _ => rfl
  within := by
    intro bytes value length hRead
    apply within_of_scan
    rw [← hRead, float?]
    cases scan? bytes <;> rfl

theorem readsBy_number :
    Terminal.number.ReadsBy Value.ofNumber number? where
  scan := fun _ => rfl
  within := by
    intro bytes value length hRead
    apply within_of_scan
    rw [← hRead, number?]
    cases scan? bytes <;> rfl

end Literal

end ByteGrammar

------------------------------------------------------------
-- Number Terminals
------------------------------------------------------------

namespace ByteGrammar

namespace Parser

open ByteGrammar.Literal

/-
  The scanner and the number terminals. The scanner finds
  the longest start of the bytes that is a literal, with its
  kind, if there is one. At every position, a number is read
  as an integer where the literal there is no float and an
  integer is read up to the end of the literal, and in
  floating point where the literal is a float and a float is
  read.
-/
theorem numbers_specified
    (rules : Rules)
    (state : State) :
    (∀ bytes,
      scan? bytes = none ↔
        ∀ literal isFloat, literal <+: bytes →
          ¬ Spelled literal isFloat) ∧
    (∀ bytes extent,
      scan? bytes = some extent ↔
        ∃ literal, Longest bytes literal extent.isFloat ∧
          literal.length = extent.length) ∧
    (∀ start stop value last,
      EndsIn rules (.terminal .number) state
          (.matched ⟨start, stop, .i64 value⟩) last ↔
        scan? state.cursor.remaining =
            some ⟨stop - state.cursor.position, false⟩ ∧
          EndsIn rules (.terminal .signed) state
            (.matched ⟨start, stop, .i64 value⟩) last) ∧
    (∀ start stop value last,
      EndsIn rules (.terminal .number) state
          (.matched ⟨start, stop, .f64 value⟩) last ↔
        (scan? state.cursor.remaining).map Extent.isFloat =
            some true ∧
          EndsIn rules (.terminal .float) state
            (.matched ⟨start, stop, .f64 value⟩) last) := by
  refine ⟨?_, ?_, ?_, ?_⟩
  · intro bytes
    exact scan?_eq_none_iff
  · intro bytes extent
    exact scan?_eq_some_iff
  · intro start stop value last
    rw [readsBy_number.endsIn_matched,
      Integer.readsBy_signed.endsIn_matched]
    constructor
    · rintro ⟨hStart, hOrder, hLast, found, hSeen, hRead⟩
      cases found with
      | float _ => cases hSeen
      | integer _ =>
          cases hSeen
          rcases number?_integer_iff.mp hRead with
            ⟨hScan, hSigned⟩
          exact ⟨hScan, hStart, hOrder, hLast, value, rfl,
            hSigned⟩
    · rintro
        ⟨hScan, hStart, hOrder, hLast, _, ⟨⟩, hSigned⟩
      exact ⟨hStart, hOrder, hLast, .integer value, rfl,
        number?_integer_iff.mpr ⟨hScan, hSigned⟩⟩
  · intro start stop value last
    rw [readsBy_number.endsIn_matched,
      readsBy_float.endsIn_matched]
    constructor
    · rintro ⟨hStart, hOrder, hLast, found, hSeen, hRead⟩
      cases found with
      | integer _ => cases hSeen
      | float _ =>
          cases hSeen
          rcases number?_float_iff.mp hRead with
            ⟨hKind, hFloat⟩
          exact ⟨hKind, hStart, hOrder, hLast, value, rfl,
            hFloat⟩
    · rintro
        ⟨hKind, hStart, hOrder, hLast, _, ⟨⟩, hFloat⟩
      exact ⟨hStart, hOrder, hLast, .float value, rfl,
        number?_float_iff.mpr ⟨hKind, hFloat⟩⟩

end Parser

end ByteGrammar
