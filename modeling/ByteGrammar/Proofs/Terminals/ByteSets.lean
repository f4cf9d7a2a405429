import ByteGrammar.Grammar.ByteSet

/-
  Sets of bytes contain what was put into them.

  A set is known by its bits, which are numbered by word and
  by place within the word. A byte has one bit, which no
  other byte has; inserting the byte sets that bit and leaves
  the others, and a byte is contained where its bit is set.

  Main declarations:
    * `ByteSet.wordIndex_eq_shift`,
      `ByteSet.bitIndex_eq_mask`
    * `ByteSet.isSet`, `ByteSet.contains_eq_isSet`
    * `ByteSet.isSet_insert`, `ByteSet.contains_insert`
    * `ByteSet.contains_insertAll`, `ByteSet.contains_ofList`
    * `ByteSet.contains_insertRange`, `ByteSet.mem_members`
    * `ByteSet.eq_of_contains`, `ByteSet.ofList_eq_iff`
-/

------------------------------------------------------------
-- Bits
------------------------------------------------------------

namespace ByteGrammar

namespace ByteSet

/- The place of the bit of a byte within its word. -/
def bitIndex
    (byte : UInt8) :
    Fin 64 :=
  ⟨byte.toNat % 64, Nat.mod_lt _ (by decide)⟩

/- Whether a bit of a word is set. -/
def isSet
    (set : ByteSet)
    (word : Fin 4)
    (index : Fin 64) :
    Bool :=
  set.words[word].toBitVec.getLsbD index

/- The two highest bits of a byte name its word. -/
theorem wordIndex_eq_shift
    (byte : UInt8) :
    (wordIndex byte).val = (byte >>> 6).toNat := by
  rw [UInt8.toNat_shiftRight]
  exact (Nat.shiftRight_eq_div_pow byte.toNat 6).symm

/- The six lowest bits of a byte name its place there. -/
theorem bitIndex_eq_mask
    (byte : UInt8) :
    (bitIndex byte).val = (byte &&& 63).toNat := by
  rw [UInt8.toNat_and]
  exact (Nat.and_two_pow_sub_one_eq_mod byte.toNat 6).symm

/- No other byte has the same bit of the same word. -/
theorem index_eq_iff
    {byte other : UInt8} :
    (wordIndex byte = wordIndex other ∧
      bitIndex byte = bitIndex other) ↔
        byte = other := by
  constructor
  · rintro ⟨hWord, hBit⟩
    have hQuotient := congrArg Fin.val hWord
    have hRemainder := congrArg Fin.val hBit
    simp only [wordIndex, bitIndex] at hQuotient hRemainder
    apply UInt8.toNat_inj.mp
    omega
  · rintro rfl
    exact ⟨rfl, rfl⟩

/- Each bit is that of some byte. -/
theorem exists_index_eq
    (word : Fin 4)
    (index : Fin 64) :
    ∃ byte, wordIndex byte = word ∧ bitIndex byte = index := by
  have hByte : word.val * 64 + index.val < 256 := by omega
  refine ⟨UInt8.ofNat (word.val * 64 + index.val), ?_, ?_⟩
  · apply Fin.ext
    simp only [wordIndex, UInt8.toNat_ofNat']
    omega
  · apply Fin.ext
    simp only [bitIndex, UInt8.toNat_ofNat']
    omega

theorem toBitVec_bit
    (byte : UInt8) :
    (bit byte).toBitVec =
      BitVec.twoPow 64 (bitIndex byte) := by
  have hShift :
      (UInt64.ofNat (byte.toNat % 64)).toNat % 64 =
        bitIndex byte := by
    rw [UInt64.toNat_ofNat']
    simp only [bitIndex]
    omega
  rw [BitVec.twoPow_eq, bit, UInt64.toBitVec_shiftLeft,
    BitVec.shiftLeft_eq', BitVec.toNat_umod]
  exact congrArg _ hShift

/- The word of a byte alone has no other bit set. -/
theorem getLsbD_bit
    (byte : UInt8)
    (index : Fin 64) :
    (bit byte).toBitVec.getLsbD index =
      decide (bitIndex byte = index) := by
  rw [toBitVec_bit, BitVec.getLsbD_twoPow,
    decide_eq_true (bitIndex byte).isLt, Bool.true_and]
  exact decide_eq_decide.mpr Fin.val_inj

theorem bit_ne_zero
    (byte : UInt8) :
    bit byte ≠ 0 := by
  intro hZero
  have hSet := getLsbD_bit byte (bitIndex byte)
  rw [hZero, decide_eq_true rfl] at hSet
  simp at hSet

end ByteSet

end ByteGrammar

------------------------------------------------------------
-- Members
------------------------------------------------------------

namespace ByteGrammar

namespace ByteSet

/- A byte is a member where its bit is set. -/
theorem contains_eq_isSet
    (set : ByteSet)
    (byte : UInt8) :
    set.contains byte =
      set.isSet (wordIndex byte) (bitIndex byte) := by
  have hMask :
      (set.words[wordIndex byte] &&& bit byte).toBitVec =
        if set.isSet (wordIndex byte) (bitIndex byte) then
          (bit byte).toBitVec
        else (0 : UInt64).toBitVec := by
    rw [UInt64.toBitVec_and, toBitVec_bit,
      BitVec.and_twoPow]
    rfl
  cases hSet : set.isSet (wordIndex byte) (bitIndex byte) with
  | true =>
      rw [hSet, if_pos rfl, UInt64.toBitVec_inj] at hMask
      rw [contains, hMask]
      exact bne_iff_ne.mpr (bit_ne_zero byte)
  | false =>
      rw [hSet, if_neg Bool.false_ne_true,
        UInt64.toBitVec_inj] at hMask
      rw [contains, hMask]
      exact bne_self_eq_false _

theorem contains_empty
    (byte : UInt8) :
    empty.contains byte = false := by
  rw [contains_eq_isSet, isSet, empty, Fin.getElem_fin,
    Vector.getElem_replicate]
  exact BitVec.getLsbD_zero

/- Inserting a byte sets its bit and no other. -/
theorem isSet_insert
    (set : ByteSet)
    (byte : UInt8)
    (word : Fin 4)
    (index : Fin 64) :
    (set.insert byte).isSet word index =
      (set.isSet word index ||
        decide (wordIndex byte = word ∧
          bitIndex byte = index)) := by
  by_cases hWord : wordIndex byte = word
  · subst hWord
    simp only [isSet, insert, Fin.getElem_fin,
      Vector.getElem_set_self, UInt64.toBitVec_or,
      BitVec.getLsbD_or, getLsbD_bit, true_and]
  · have hOther := Fin.val_ne_of_ne hWord
    simp only [isSet, insert, Fin.getElem_fin,
      Vector.getElem_set_ne _ _ hOther, hWord, false_and,
      decide_false, Bool.or_false]

/- So it adds that byte and no other. -/
theorem contains_insert
    (set : ByteSet)
    (byte other : UInt8) :
    (set.insert byte).contains other =
      (set.contains other || decide (byte = other)) := by
  rw [contains_eq_isSet, contains_eq_isSet, isSet_insert]
  simp only [index_eq_iff]

theorem contains_insertAll
    (set : ByteSet)
    (bytes : List UInt8)
    (byte : UInt8) :
    (set.insertAll bytes).contains byte = true ↔
      set.contains byte = true ∨ byte ∈ bytes := by
  induction bytes generalizing set with
  | nil => simp [insertAll]
  | cons first rest ih =>
      have hCons :
          set.insertAll (first :: rest) =
            (set.insert first).insertAll rest := rfl
      rw [hCons, ih, contains_insert, Bool.or_eq_true,
        decide_eq_true_iff, List.mem_cons, or_assoc,
        @eq_comm _ first]

/- The set of a list contains its members. -/
theorem contains_ofList
    (bytes : List UInt8)
    (byte : UInt8) :
    (ofList bytes).contains byte = true ↔ byte ∈ bytes := by
  rw [ofList, contains_insertAll, contains_empty]
  exact or_iff_right Bool.false_ne_true

theorem mem_allBytes
    (byte : UInt8) :
    byte ∈ allBytes := by
  rw [allBytes, List.mem_map]
  exact ⟨byte.toNat, List.mem_range.mpr byte.toNat_lt,
    UInt8.ofNat_toNat⟩

theorem contains_insertRange
    (set : ByteSet)
    (low high byte : UInt8) :
    (set.insertRange low high).contains byte = true ↔
      set.contains byte = true ∨
        low ≤ byte ∧ byte ≤ high := by
  rw [insertRange, contains_insertAll, List.mem_filter,
    Bool.and_eq_true, decide_eq_true_iff,
    decide_eq_true_iff]
  simp only [mem_allBytes, true_and]

theorem mem_members
    (set : ByteSet)
    (byte : UInt8) :
    byte ∈ set.members ↔ set.contains byte = true := by
  rw [members, List.mem_filter]
  exact and_iff_right (mem_allBytes byte)

end ByteSet

end ByteGrammar

------------------------------------------------------------
-- Sets with the Same Members
------------------------------------------------------------

namespace ByteGrammar

namespace ByteSet

/- A set has no more to it than its members. -/
theorem eq_of_contains
    {set other : ByteSet}
    (hSame : ∀ byte,
      set.contains byte = other.contains byte) :
    set = other := by
  have hWords : set.words = other.words := by
    apply Vector.ext
    intro word hWord
    apply UInt64.toBitVec_inj.mp
    apply BitVec.eq_of_getLsbD_eq
    intro index hIndex
    rcases exists_index_eq ⟨word, hWord⟩ ⟨index, hIndex⟩ with
      ⟨byte, hByteWord, hByteIndex⟩
    have hByte := hSame byte
    rw [contains_eq_isSet, contains_eq_isSet, hByteWord,
      hByteIndex] at hByte
    exact hByte
  cases set
  cases other
  exact congrArg mk hWords

/- Order and repetition in a list do not matter. -/
theorem ofList_eq_iff
    {bytes others : List UInt8} :
    ofList bytes = ofList others ↔
      ∀ byte, byte ∈ bytes ↔ byte ∈ others := by
  constructor
  · intro hSame byte
    rw [← contains_ofList, hSame, contains_ofList]
  · intro hSame
    apply eq_of_contains
    intro byte
    rw [Bool.eq_iff_iff, contains_ofList, contains_ofList]
    exact hSame byte

end ByteSet

end ByteGrammar
