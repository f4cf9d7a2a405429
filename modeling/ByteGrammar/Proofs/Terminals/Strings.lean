import ByteGrammar.Proofs.Terminals.Scanning

/-
  String literals at the start of bytes.

  A literal is a quote, units and the quote again. A unit is
  a byte that is neither the quote nor a backslash, or an
  escape; a quote within an escape is part of it. So where
  the units end is decided from the left, and a decoder that
  takes one unit after the other finds the only literal that
  there can be. Any text can be written as a literal: the
  bytes that have no unit of their own are escaped by their
  digits.

  Main declarations:
    * `Digits.Hexadecimal`
    * `StringLiteral.Unit`, `StringLiteral.Units`
    * `StringLiteral.units?_of_closes`,
      `StringLiteral.closes_of_units?`
    * `StringLiteral.Spells`
    * `StringLiteral.decode?_eq_some_iff`
    * `StringLiteral.written`, `StringLiteral.spells_write`
    * `Parser.strings_specified`
-/

------------------------------------------------------------
-- Hexadecimal Digits
------------------------------------------------------------

namespace ByteGrammar

namespace Digits

/- A hexadecimal digit of either case, and its value. -/
inductive Hexadecimal : UInt8 → Nat → Prop where
  | decimal {value : Nat}
      (hValue : value < 10) :
      Hexadecimal (UInt8.ofNat (0x30 + value)) value
  | lower {value : Nat}
      (hValue : value < 6) :
      Hexadecimal (UInt8.ofNat (0x61 + value)) (10 + value)
  | upper {value : Nat}
      (hValue : value < 6) :
      Hexadecimal (UInt8.ofNat (0x41 + value)) (10 + value)

theorem Hexadecimal.hexValue?_eq
    {byte : UInt8}
    {value : Nat}
    (hDigit : Hexadecimal byte value) :
    hexValue? byte = some value := by
  have hDecimal : ∀ value < 10,
      hexValue? (UInt8.ofNat (0x30 + value)) =
        some value := by
    decide
  have hLower : ∀ value < 6,
      hexValue? (UInt8.ofNat (0x61 + value)) =
        some (10 + value) := by
    decide
  have hUpper : ∀ value < 6,
      hexValue? (UInt8.ofNat (0x41 + value)) =
        some (10 + value) := by
    decide
  cases hDigit with
  | decimal hValue => exact hDecimal _ hValue
  | lower hValue => exact hLower _ hValue
  | upper hValue => exact hUpper _ hValue

theorem hexadecimal_of_hexValue?
    {byte : UInt8}
    {value : Nat}
    (hValue : hexValue? byte = some value) :
    Hexadecimal byte value := by
  have hByte : ∀ low, low ≤ byte.toNat →
      UInt8.ofNat (low + (byte.toNat - low)) = byte := by
    intro low hLow
    rw [Nat.add_sub_cancel' hLow, UInt8.ofNat_toNat]
  simp only [hexValue?, UInt8.le_iff_toNat_le,
    UInt8.reduceToNat] at hValue
  split at hValue
  · rename_i hRange
    have hDigit :
        Hexadecimal
          (UInt8.ofNat (0x30 + (byte.toNat - 0x30)))
          (byte.toNat - 0x30) :=
      .decimal (by omega)
    rw [hByte 0x30 hRange.1] at hDigit
    cases hValue
    exact hDigit
  split at hValue
  · rename_i hRange
    have hDigit :
        Hexadecimal
          (UInt8.ofNat (0x61 + (byte.toNat - 0x61)))
          (10 + (byte.toNat - 0x61)) :=
      .lower (by omega)
    rw [hByte 0x61 hRange.1, Nat.add_comm] at hDigit
    cases hValue
    exact hDigit
  split at hValue
  · rename_i hRange
    have hDigit :
        Hexadecimal
          (UInt8.ofNat (0x41 + (byte.toNat - 0x41)))
          (10 + (byte.toNat - 0x41)) :=
      .upper (by omega)
    rw [hByte 0x41 hRange.1, Nat.add_comm] at hDigit
    cases hValue
    exact hDigit
  · cases hValue

/- A hexadecimal digit of a value, in upper or lower case. -/
def hexDigit
    (upper : Bool)
    (value : Nat) :
    UInt8 :=
  if value < 10 then UInt8.ofNat (0x30 + value)
  else if upper then UInt8.ofNat (0x41 + (value - 10))
  else UInt8.ofNat (0x61 + (value - 10))

theorem hexadecimal_hexDigit
    (upper : Bool)
    {value : Nat}
    (hValue : value < 16) :
    Hexadecimal (hexDigit upper value) value := by
  unfold hexDigit
  by_cases hDecimal : value < 10
  · rw [if_pos hDecimal]
    exact .decimal hDecimal
  · have hSum : 10 + (value - 10) = value := by omega
    rw [if_neg hDecimal, ← hSum]
    rw [Nat.add_sub_cancel_left]
    cases upper with
    | true => exact .upper (by omega)
    | false => exact .lower (by omega)

end Digits

end ByteGrammar

------------------------------------------------------------
-- Units
------------------------------------------------------------

namespace ByteGrammar

namespace StringLiteral

open ByteGrammar.Digits

/- The letter of an escape, and the byte that it stands
  for. -/
inductive Escape : UInt8 → UInt8 → Prop where
  | lineFeed : Escape 0x6E 0x0A
  | tab : Escape 0x74 0x09
  | carriageReturn : Escape 0x72 0x0D
  | null : Escape 0x30 0x00
  | backslash : Escape 0x5C 0x5C
  | doubleQuote : Escape 0x22 0x22
  | singleQuote : Escape 0x27 0x27

theorem Escape.simpleEscape?_eq
    {letter byte : UInt8}
    (hEscape : Escape letter byte) :
    simpleEscape? letter = some byte := by
  cases hEscape <;> rfl

theorem escape_of_simpleEscape?
    {letter byte : UInt8}
    (hEscape : simpleEscape? letter = some byte) :
    Escape letter byte := by
  unfold simpleEscape? at hEscape
  split at hEscape
  · rename_i hLetter
    cases hLetter
    cases hEscape
    exact .lineFeed
  split at hEscape
  · rename_i hLetter
    cases hLetter
    cases hEscape
    exact .tab
  split at hEscape
  · rename_i hLetter
    cases hLetter
    cases hEscape
    exact .carriageReturn
  split at hEscape
  · rename_i hLetter
    cases hLetter
    cases hEscape
    exact .null
  split at hEscape
  · rename_i hLetter
    cases hEscape
    rcases hLetter with rfl | rfl | rfl
    · exact .backslash
    · exact .doubleQuote
    · exact .singleQuote
  · cases hEscape

/- A unit between quotes, and the byte that it stands for. -/
inductive Unit
    (quote : UInt8) :
    List UInt8 → UInt8 → Prop where
  | plain {byte : UInt8}
      (hQuote : byte ≠ quote)
      (hBackslash : byte ≠ backslash) :
      Unit quote [byte] byte
  | letter {letter byte : UInt8}
      (hEscape : Escape letter byte) :
      Unit quote [backslash, letter] byte
  | digits {high low : UInt8} {left right : Nat}
      (hHigh : Hexadecimal high left)
      (hLow : Hexadecimal low right) :
      Unit quote [backslash, hexMark, high, low]
        (UInt8.ofNat (left * 16 + right))

/- Units in a row, and the bytes that they stand for. -/
inductive Units
    (quote : UInt8) :
    List UInt8 → List UInt8 → Prop where
  | none : Units quote [] []
  | next {unit spelling contents : List UInt8}
      {byte : UInt8}
      (hUnit : Unit quote unit byte)
      (hUnits : Units quote spelling contents) :
      Units quote (unit ++ spelling) (byte :: contents)

variable {quote : UInt8}

/- The first quote that is no part of an escape closes. -/
theorem units?_quote
    (quote : UInt8)
    (rest : List UInt8) :
    units? quote (quote :: rest) = some ([], 1) := by
  cases rest with
  | nil => simp [units?]
  | cons next rest =>
      rw [units?.eq_def]
      exact if_pos rfl

/- A unit is taken whole. -/
theorem units?_unit
    {unit : List UInt8}
    {byte : UInt8}
    (hQuote : quote ≠ backslash)
    (hUnit : Unit quote unit byte)
    (rest : List UInt8) :
    units? quote (unit ++ rest) =
      prepend byte unit.length (units? quote rest) := by
  cases hUnit with
  | plain hOther hBackslash =>
      cases rest with
      | nil => simp [units?, prepend, hOther]
      | cons next rest =>
          rw [List.singleton_append,
            units?.eq_def quote (byte :: next :: rest)]
          dsimp only
          rw [if_neg hOther, if_neg hBackslash]
          rfl
  | @letter letter _ hEscape =>
      have hLetter := hEscape.simpleEscape?_eq
      have hMark : letter ≠ hexMark := by
        cases hEscape <;> decide
      refine (units?.eq_def quote _).trans ?_
      dsimp only [List.cons_append, List.nil_append]
      rw [if_neg hQuote.symm, if_pos rfl, if_neg hMark,
        hLetter]
      rfl
  | digits hHigh hLow =>
      refine (units?.eq_def quote _).trans ?_
      dsimp only [List.cons_append, List.nil_append]
      rw [if_neg hQuote.symm, if_pos rfl, if_pos rfl,
        hexByte?, hHigh.hexValue?_eq, hLow.hexValue?_eq]
      rfl

/- Some bytes start with units that a quote closes. -/
def Closes
    (quote : UInt8)
    (bytes contents : List UInt8)
    (length : Nat) :
    Prop :=
  ∃ spelling rest, bytes = spelling ++ quote :: rest ∧
    length = spelling.length + 1 ∧
    Units quote spelling contents

theorem closes_quote
    (quote : UInt8)
    (rest : List UInt8) :
    Closes quote (quote :: rest) [] 1 :=
  ⟨[], rest, rfl, rfl, .none⟩

theorem Unit.closes
    {unit bytes contents : List UInt8}
    {byte : UInt8}
    {length : Nat}
    (hUnit : Unit quote unit byte)
    (hCloses : Closes quote bytes contents length) :
    Closes quote (unit ++ bytes) (byte :: contents)
      (length + unit.length) := by
  rcases hCloses with ⟨spelling, rest, rfl, rfl, hUnits⟩
  refine ⟨unit ++ spelling, rest, ?_, ?_, .next hUnit hUnits⟩
  · rw [List.append_assoc]
  · rw [List.length_append]
    omega

theorem exists_of_prepend
    {taken : Option (List UInt8 × Nat)}
    {contents : List UInt8}
    {byte : UInt8}
    {width length : Nat}
    (hTaken :
      prepend byte width taken = some (contents, length)) :
    ∃ others reach, taken = some (others, reach) ∧
      contents = byte :: others ∧
      length = reach + width := by
  rcases Option.map_eq_some_iff.mp hTaken with
    ⟨⟨others, reach⟩, hOthers, hSame⟩
  cases hSame
  exact ⟨others, reach, hOthers, rfl, rfl⟩

/- So units that a quote closes are taken. -/
theorem units?_of_closes
    {bytes contents : List UInt8}
    {length : Nat}
    (hQuote : quote ≠ backslash)
    (hCloses : Closes quote bytes contents length) :
    units? quote bytes = some (contents, length) := by
  rcases hCloses with ⟨spelling, rest, rfl, rfl, hUnits⟩
  induction hUnits with
  | none => exact units?_quote quote rest
  | @next unit spelling _ _ hUnit _ ih =>
      have hLength :
          (unit ++ spelling).length + 1 =
            spelling.length + 1 + unit.length := by
        rw [List.length_append]
        omega
      rw [List.append_assoc, units?_unit hQuote hUnit, ih,
        hLength]
      rfl

/- What is taken is units that a quote closes. -/
theorem closes_of_units?
    {bytes contents : List UInt8}
    {length : Nat}
    (hTaken :
      units? quote bytes = some (contents, length)) :
    Closes quote bytes contents length := by
  fun_induction units? quote bytes
    generalizing contents length with
  | case1 => cases hTaken
  | case2 =>
      cases hTaken
      exact closes_quote quote []
  | case3 => cases hTaken
  | case4 letter rest =>
      cases hTaken
      exact closes_quote quote (letter :: rest)
  | case5 high low more unit hByte _ ih =>
      rcases exists_of_prepend hTaken with
        ⟨others, reach, hOthers, rfl, rfl⟩
      rcases Option.bind_eq_some_iff.mp hByte with
        ⟨left, hHigh, hRest⟩
      rcases Option.bind_eq_some_iff.mp hRest with
        ⟨right, hLow, ⟨⟩⟩
      have hUnit : Unit quote [backslash, hexMark, high, low]
          (UInt8.ofNat (left * 16 + right)) :=
        .digits (hexadecimal_of_hexValue? hHigh)
          (hexadecimal_of_hexValue? hLow)
      exact hUnit.closes (ih hOthers)
  | case6 => cases hTaken
  | case7 => cases hTaken
  | case8 letter rest _ unit hEscape _ ih =>
      rcases exists_of_prepend hTaken with
        ⟨others, reach, hOthers, rfl, rfl⟩
      have hUnit : Unit quote [backslash, letter] unit :=
        .letter (escape_of_simpleEscape? hEscape)
      exact hUnit.closes (ih hOthers)
  | case9 => cases hTaken
  | case10 byte letter rest hOther hBackslash ih =>
      rcases exists_of_prepend hTaken with
        ⟨others, reach, hOthers, rfl, rfl⟩
      have hUnit : Unit quote [byte] byte :=
        .plain hOther hBackslash
      exact hUnit.closes (ih hOthers)

end StringLiteral

end ByteGrammar

------------------------------------------------------------
-- Literals
------------------------------------------------------------

namespace ByteGrammar

namespace StringLiteral

variable {quote : UInt8}
variable {text text' : String}
variable {length : Nat}

/- A literal of a text: units between quotes, for the bytes
  of the text. -/
inductive Spells
    (quote : UInt8)
    (text : String) :
    List UInt8 → Prop where
  | intro {spelling : List UInt8}
      (hUnits : Units quote spelling (Utf8.encode text)) :
      Spells quote text (quote :: spelling ++ [quote])

/- A literal is taken, whatever comes after it. -/
theorem decode?_of_spells
    {literal : List UInt8}
    (hQuote : quote ≠ backslash)
    (hSpells : Spells quote text literal)
    (rest : List UInt8) :
    decode? quote (literal ++ rest) =
      some (text, literal.length) := by
  cases hSpells with
  | @intro spelling hUnits =>
      have hBytes :
          quote :: spelling ++ [quote] ++ rest =
            quote :: (spelling ++ quote :: rest) := by
        simp
      have hTaken :
          units? quote (spelling ++ quote :: rest) =
            some (Utf8.encode text, spelling.length + 1) :=
        units?_of_closes hQuote
          ⟨spelling, rest, rfl, rfl, hUnits⟩
      rw [hBytes, decode?, if_pos rfl, hTaken]
      simp [Utf8.decode?_encode]

/- What is decoded is a literal. -/
theorem spells_of_decode?
    {bytes : List UInt8}
    (hDecode : decode? quote bytes = some (text, length)) :
    ∃ literal, literal <+: bytes ∧
      literal.length = length ∧
      Spells quote text literal := by
  cases bytes with
  | nil => cases hDecode
  | cons first rest =>
      simp only [decode?] at hDecode
      by_cases hFirst : first = quote
      · rw [if_pos hFirst] at hDecode
        cases hTaken : units? quote rest with
        | none =>
            rw [hTaken] at hDecode
            cases hDecode
        | some taken =>
            rcases taken with ⟨contents, reach⟩
            rw [hTaken] at hDecode
            rcases Option.map_eq_some_iff.mp hDecode with
              ⟨found, hText, hSame⟩
            cases hSame
            rcases closes_of_units? hTaken with
              ⟨spelling, more, rfl, rfl, hUnits⟩
            rw [← Utf8.encode_of_decode? hText] at hUnits
            refine ⟨_, ⟨more, ?_⟩, ?_, .intro hUnits⟩
            · simp [hFirst]
            · simp
      · rw [if_neg hFirst] at hDecode
        cases hDecode

theorem decode?_eq_some_iff
    {bytes : List UInt8}
    (hQuote : quote ≠ backslash) :
    decode? quote bytes = some (text, length) ↔
      ∃ literal, literal <+: bytes ∧
        literal.length = length ∧
        Spells quote text literal := by
  constructor
  · exact spells_of_decode?
  · rintro ⟨literal, ⟨rest, rfl⟩, rfl, hSpells⟩
    exact decode?_of_spells hQuote hSpells rest

/- One text only is spelled at the start of some bytes. -/
theorem Spells.unique
    {bytes literal literal' : List UInt8}
    (hQuote : quote ≠ backslash)
    (hSpells : Spells quote text literal)
    (hOther : Spells quote text' literal')
    (hStarts : literal <+: bytes)
    (hStarts' : literal' <+: bytes) :
    text = text' ∧ literal = literal' := by
  have hDecode :=
    (decode?_eq_some_iff hQuote).mpr
      ⟨literal, hStarts, rfl, hSpells⟩
  have hDecode' :=
    (decode?_eq_some_iff hQuote).mpr
      ⟨literal', hStarts', rfl, hOther⟩
  have hSame := Option.some.inj (hDecode.symm.trans hDecode')
  have hLength : literal.length = literal'.length :=
    congrArg Prod.snd hSame
  refine ⟨congrArg Prod.fst hSame, ?_⟩
  exact (List.prefix_of_prefix_length_le hStarts hStarts'
    hLength.le).eq_of_length hLength

theorem readsBy_decode
    (quote : UInt8) :
    (Terminal.stringLiteral quote).ReadsBy Value.str
      (decode? quote) where
  scan := fun _ => rfl
  within := by
    intro bytes text length hDecode
    rcases spells_of_decode? hDecode with
      ⟨literal, hStarts, rfl, hSpells⟩
    refine ⟨?_, hStarts.length_le⟩
    cases hSpells with
    | intro hUnits => simp

end StringLiteral

end ByteGrammar

------------------------------------------------------------
-- Writing Literals
------------------------------------------------------------

namespace ByteGrammar

namespace StringLiteral

open ByteGrammar.Digits

variable {quote : UInt8}

/-
  Some bytes written between quotes: the quote and the
  backslash by their digits, all others as they are. Which
  digits are in upper case is free, one by one.
-/
def written
    (quote : UInt8) :
    (upper : Nat → Bool) → List UInt8 → List UInt8
  | _, [] => []
  | upper, byte :: rest =>
      (if byte = quote ∨ byte = backslash then
        [backslash, hexMark,
          hexDigit (upper 0) (byte.toNat / 16),
          hexDigit (upper 1) (byte.toNat % 16)]
      else [byte]) ++
        written quote (fun place => upper (place + 2)) rest

theorem unit_of_byte
    (high low : Bool)
    (byte : UInt8) :
    Unit quote
      (if byte = quote ∨ byte = backslash then
        [backslash, hexMark, hexDigit high (byte.toNat / 16),
          hexDigit low (byte.toNat % 16)]
      else [byte])
      byte := by
  have hByte := byte.toNat_lt
  have hHigh : byte.toNat / 16 < 16 := by omega
  have hLow : byte.toNat % 16 < 16 := by omega
  split
  · have hUnit : Unit quote _ _ :=
      .digits (hexadecimal_hexDigit high hHigh)
        (hexadecimal_hexDigit low hLow)
    rw [Nat.div_add_mod', UInt8.ofNat_toNat] at hUnit
    exact hUnit
  · rename_i hOther
    exact .plain (fun hSame => hOther (.inl hSame))
      (fun hSame => hOther (.inr hSame))

theorem units_written
    (upper : Nat → Bool)
    (bytes : List UInt8) :
    Units quote (written quote upper bytes) bytes := by
  induction bytes generalizing upper with
  | nil => exact .none
  | cons byte rest ih =>
      exact .next (unit_of_byte _ _ byte) (ih _)

/- A text as a literal. -/
def write
    (quote : UInt8)
    (upper : Nat → Bool)
    (text : String) :
    List UInt8 :=
  quote :: written quote upper (Utf8.encode text) ++ [quote]

theorem spells_write
    (quote : UInt8)
    (upper : Nat → Bool)
    (text : String) :
    Spells quote text (write quote upper text) :=
  .intro (units_written upper (Utf8.encode text))

end StringLiteral

end ByteGrammar

------------------------------------------------------------
-- String Terminals
------------------------------------------------------------

namespace ByteGrammar

namespace Parser

open ByteGrammar.StringLiteral

/-
  What string literals come to, with any quote but the
  backslash. What is decoded is the text of a literal that
  starts the bytes, and its length, where there is one;
  there is no other one. The terminal takes what is decoded.
  So any text that is written as a literal is read back, and
  nothing more is taken.
-/
theorem strings_specified
    (rules : Rules)
    {quote : UInt8}
    (hQuote : quote ≠ 0x5C) :
    (∀ bytes text length,
      decode? quote bytes = some (text, length) ↔
        ∃ literal, literal <+: bytes ∧
          literal.length = length ∧
          Spells quote text literal) ∧
    (∀ bytes literal literal' text text',
      literal <+: bytes → Spells quote text literal →
        literal' <+: bytes → Spells quote text' literal' →
          text = text' ∧ literal = literal') ∧
    (∀ state outcome last,
      EndsIn rules (.terminal (.stringLiteral quote)) state
          outcome last ↔
        Takes Value.str state
          (decode? quote state.cursor.remaining) outcome
          last) ∧
    (∀ state upper text rest,
      state.cursor.remaining =
          write quote upper text ++ rest →
        EndsIn rules (.terminal (.stringLiteral quote)) state
          (.matched ⟨state.cursor.position,
            state.cursor.position +
              (write quote upper text).length,
            .str text⟩)
          (state.advance
            (write quote upper text).length)) := by
  refine ⟨?_, ?_, ?_, ?_⟩
  · intro bytes text length
    exact decode?_eq_some_iff hQuote
  · intro bytes literal literal' text text' hStarts hSpells
      hStarts' hOther
    exact hSpells.unique hQuote hOther hStarts hStarts'
  · intro state outcome last
    exact (readsBy_decode quote).endsIn
  · intro state upper text rest hBytes
    rw [(readsBy_decode quote).endsIn, hBytes,
      decode?_of_spells hQuote (spells_write quote upper text)]
    exact .taken text _

/- A text of a quote and a backslash, where the quote is the
  letter that opens the escapes of both. -/
theorem strings_specified_mark :
    let state : State :=
      ⟨.ofBytes [0x78, 0x5C, 0x78, 0x37, 0x38, 0x5C, 0x78,
        0x35, 0x63, 0x78, 0x78], .fresh .standard⟩
    (0x78 : UInt8) ≠ 0x5C ∧
      state.cursor.remaining =
        write 0x78 (fun _ => false) "x\\" ++ [0x78] ∧
      EndsIn .empty (.terminal (.stringLiteral 0x78)) state
        (.matched ⟨0, 10, .str "x\\"⟩)
        (state.advance 10) := by
  intro state
  have hQuote : (0x78 : UInt8) ≠ 0x5C := by decide
  have hBytes :
      state.cursor.remaining =
        write 0x78 (fun _ => false) "x\\" ++ [0x78] := by
    decide
  exact ⟨hQuote, hBytes,
    (strings_specified .empty hQuote).2.2.2 state
      (fun _ => false) "x\\" [0x78] hBytes⟩

end Parser

end ByteGrammar
