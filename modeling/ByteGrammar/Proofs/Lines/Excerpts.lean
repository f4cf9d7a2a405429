import Mathlib.Data.List.Basic
import ByteGrammar.Proofs.Lines.Places

/-
  The lines shown around a location.

  A location is counted in bytes, and the lines shown are
  cut from characters. No character but the line feed has
  the byte of a line feed in its spelling, so both number
  the lines alike, and a location lies in the line of its
  number or at its end.

  Main declarations:
    * `Utf8.eq_singleton_of_ascii`, `Utf8.spell`
    * `Text.byLines`, `Text.lines_eq_splitOn`
    * `Place.reached_behind_break`
    * `LiesIn`, `exists_liesIn`, `LiesIn.cut_of_ascii`
    * `Location.lineAt`, `Location.numbered`,
      `Location.flatMap_shownLine`
    * `Location.isMarked`, `Location.isPointer`
    * `Location.contextLines_specified`
-/

------------------------------------------------------------
-- Spellings of Characters
------------------------------------------------------------

namespace ByteGrammar

namespace Utf8

/- What is marked as a byte beyond ASCII is one. -/
theorem le_marked
    {mark size : Nat}
    (hMark : 0x80 ≤ mark)
    (hSize : 0 < size)
    (hFits : size + mark ≤ 0x100)
    (value : Nat) :
    0x80 ≤ UInt8.ofNat (value % size + mark) := by
  have hLess := Nat.mod_lt value hSize
  rw [UInt8.le_iff_toNat_le, UInt8.toNat_ofNat']
  simp only [UInt8.reduceToNat]
  omega

theorem le_of_mem
    {char : Char}
    {byte : UInt8}
    (hWide : 0x7F < char.toNat)
    (hByte : byte ∈ String.utf8EncodeChar char) :
    0x80 ≤ byte := by
  have hNarrow : ¬ char.val.toNat ≤ 0x7F :=
    Nat.not_le.mpr hWide
  simp only [String.utf8EncodeChar, if_neg hNarrow] at hByte
  split at hByte
  · simp only [List.mem_cons, List.not_mem_nil, or_false]
      at hByte
    rcases hByte with rfl | rfl <;>
      exact le_marked (by decide) (by decide) (by decide) _
  split at hByte
  · simp only [List.mem_cons, List.not_mem_nil, or_false]
      at hByte
    rcases hByte with rfl | rfl | rfl <;>
      exact le_marked (by decide) (by decide) (by decide) _
  · simp only [List.mem_cons, List.not_mem_nil, or_false]
      at hByte
    rcases hByte with rfl | rfl | rfl | rfl <;>
      exact le_marked (by decide) (by decide) (by decide) _

theorem eq_singleton_of_ascii
    {char : Char}
    {byte : UInt8}
    (hByte : byte ∈ String.utf8EncodeChar char)
    (hAscii : byte < 0x80) :
    String.utf8EncodeChar char = [byte] ∧
      byte.toNat = char.toNat := by
  by_cases hWide : 0x7F < char.toNat
  · exact absurd (le_of_mem hWide hByte)
      (UInt8.not_le.mpr hAscii)
  · have hNarrow : char.val.toNat ≤ 0x7F :=
      Nat.le_of_not_lt hWide
    simp only [String.utf8EncodeChar, if_pos hNarrow,
      List.mem_singleton] at hByte ⊢
    refine ⟨by rw [hByte], ?_⟩
    rw [hByte, UInt8.toNat_ofNat']
    exact Nat.mod_eq_of_lt
      (Nat.lt_of_le_of_lt hNarrow (by decide))

/- The bytes that spell some characters. -/
def spell
    (chars : List Char) :
    List UInt8 :=
  encode (String.ofList chars)

theorem encode_eq_spell
    (text : String) :
    encode text = spell text.toList := by
  rw [spell, String.ofList_toList]

@[simp]
theorem spell_nil : spell [] = [] := rfl

@[simp]
theorem spell_append
    (left right : List Char) :
    spell (left ++ right) = spell left ++ spell right := by
  simp only [spell, encode_ofList, List.flatMap_append]

theorem spell_cons
    (char : Char)
    (chars : List Char) :
    spell (char :: chars) =
      String.utf8EncodeChar char ++ spell chars := by
  simp only [spell, encode_ofList, List.flatMap_cons]

theorem spell_break_cons
    (chars : List Char) :
    spell ('\n' :: chars) = 0x0A :: spell chars :=
  spell_cons '\n' chars

theorem break_not_mem_spell
    {chars : List Char}
    (hUnbroken : '\n' ∉ chars) :
    0x0A ∉ spell chars := by
  intro hBreak
  rw [spell, encode_ofList, List.mem_flatMap] at hBreak
  rcases hBreak with ⟨char, hChar, hByte⟩
  have hSame := (eq_singleton_of_ascii hByte (by decide)).2
  have hChar' : char = '\n' := Char.toNat_inj.mp hSame.symm
  rw [hChar'] at hChar
  exact hUnbroken hChar

/- As many characters as there are bytes of ASCII at the start
  are spelled by these bytes. -/
theorem spell_take_of_ascii
    {chars : List Char}
    {count : Nat}
    (hCount : count ≤ (spell chars).length)
    (hAscii : ∀ byte ∈ (spell chars).take count,
      byte < 0x80) :
    spell (chars.take count) = (spell chars).take count ∧
      count ≤ chars.length := by
  induction chars generalizing count with
  | nil => exact ⟨by simp, hCount⟩
  | cons char chars ih =>
      cases count with
      | zero => exact ⟨rfl, Nat.zero_le _⟩
      | succ count =>
          rcases List.exists_cons_of_ne_nil
              (String.utf8EncodeChar_ne_nil (c := char)) with
            ⟨byte, more, hBytes⟩
          have hOne : String.utf8EncodeChar char = [byte] := by
            refine (eq_singleton_of_ascii ?_ ?_).1
            · rw [hBytes]
              exact List.mem_cons_self
            · apply hAscii
              rw [spell_cons, hBytes]
              exact List.mem_cons_self
          rw [spell_cons, hOne, List.singleton_append]
            at hCount hAscii ⊢
          rw [List.take_succ_cons, List.forall_mem_cons]
            at hAscii
          rcases ih (Nat.le_of_succ_le_succ hCount) hAscii.2
            with ⟨hSpell, hLength⟩
          refine ⟨?_, Nat.succ_le_succ hLength⟩
          rw [List.take_succ_cons, List.take_succ_cons,
            spell_cons, hOne, hSpell]
          rfl

end Utf8

end ByteGrammar

------------------------------------------------------------
-- Texts by Lines
------------------------------------------------------------

namespace ByteGrammar

namespace Text

/- A text is a line, or a line with a line feed and a text
  behind it. -/
theorem byLines
    {motive : List Char → Prop}
    (last : ∀ line, '\n' ∉ line → motive line)
    (more : ∀ line rest, '\n' ∉ line → motive rest →
      motive (line ++ '\n' :: rest))
    (text : List Char) :
    motive text := by
  by_cases hBreak : '\n' ∈ text
  · rcases List.eq_append_cons_of_mem hBreak with
      ⟨line, rest, hText, hUnbroken⟩
    rw [hText]
    exact more line rest hUnbroken (byLines last more rest)
  · exact last text hBreak
termination_by text.length
decreasing_by simp [hText]; omega

theorem lines_eq_splitOn
    (text : List Char) :
    lines text = text.splitOn '\n' := by
  induction text with
  | nil => rfl
  | cons char rest ih =>
      rw [List.splitOn_cons_eq_if_modifyHead, lines, ih]
      by_cases hBreak : char = '\n'
      · simp [hBreak]
      · rcases List.exists_cons_of_ne_nil
            (List.splitOn_ne_nil '\n' rest) with
          ⟨line, more, hLines⟩
        simp [hBreak, hLines]

end Text

end ByteGrammar

------------------------------------------------------------
-- Places behind Line Feeds
------------------------------------------------------------

namespace ByteGrammar

namespace Place

/- Without a line feed, only the byte offset moves on. -/
theorem foldl_after_of_unbroken
    {bytes : List UInt8}
    (hUnbroken : 0x0A ∉ bytes)
    (place : Place) :
    bytes.foldl after place =
      ⟨place.line, place.byteOffset + bytes.length⟩ := by
  induction bytes generalizing place with
  | nil => rfl
  | cons byte bytes ih =>
      rw [List.mem_cons, not_or] at hUnbroken
      rw [List.foldl_cons, after_other (Ne.symm hUnbroken.1),
        ih hUnbroken.2, List.length_cons, Nat.add_right_comm,
        Nat.add_assoc]

theorem reached_of_unbroken
    {bytes : List UInt8}
    (hUnbroken : 0x0A ∉ bytes) :
    reached bytes = ⟨1, bytes.length⟩ := by
  rw [reached, foldl_after_of_unbroken hUnbroken, first,
    Nat.zero_add]

/- The lines are numbered on. -/
theorem foldl_after
    (bytes : List UInt8)
    (place : Place)
    (lines : Nat) :
    bytes.foldl after ⟨place.line + lines, place.byteOffset⟩ =
      ⟨(bytes.foldl after place).line + lines,
        (bytes.foldl after place).byteOffset⟩ := by
  induction bytes generalizing place with
  | nil => rfl
  | cons byte bytes ih =>
      by_cases hBreak : byte = 0x0A
      · rw [List.foldl_cons, List.foldl_cons, hBreak,
          after_break, after_break, ← ih]
        simp only [Nat.add_right_comm]
      · rw [List.foldl_cons, List.foldl_cons,
          after_other hBreak, after_other hBreak, ← ih]

theorem reached_behind_break
    {line : List UInt8}
    (hUnbroken : 0x0A ∉ line)
    (bytes : List UInt8) :
    reached (line ++ 0x0A :: bytes) =
      ⟨(reached bytes).line + 1,
        (reached bytes).byteOffset⟩ := by
  have hLine := reached_of_unbroken hUnbroken
  unfold reached at hLine ⊢
  rw [List.foldl_append, hLine, List.foldl_cons, after_break]
  exact foldl_after bytes first 1

end Place

end ByteGrammar

------------------------------------------------------------
-- Offsets in Lines
------------------------------------------------------------

namespace ByteGrammar

open ByteGrammar.Utf8

/-
  Where an offset lies in a text: in the line of its place,
  as many bytes behind the start of the line as the place
  says, or at the end of the line.
-/
structure LiesIn
    (text : List Char)
    (offset : Nat)
    (place : Place)
    (earlier line later : List Char) :
    Prop where
  parts : text = earlier ++ line ++ later
  counted : 0 < place.line
  numbered :
    (text.splitOn '\n')[place.line - 1]? = some line
  reaches :
    offset = (spell earlier).length + place.byteOffset
  within : place.byteOffset ≤ (spell line).length
  unbroken : '\n' ∉ line
  ends : ∀ char ∈ later.head?, char = '\n'

/- An offset within the first line. -/
theorem liesIn_first
    {line later : List Char}
    {offset : Nat}
    (hUnbroken : '\n' ∉ line)
    (hEnds : ∀ char ∈ later.head?, char = '\n')
    (hWithin : offset ≤ (spell line).length) :
    LiesIn (line ++ later) offset
      (Place.reached ((spell (line ++ later)).take offset))
      [] line later := by
  have hBefore : 0x0A ∉ (spell line).take offset := by
    intro hBreak
    exact break_not_mem_spell hUnbroken
      (List.mem_of_mem_take hBreak)
  have hPlace :
      Place.reached ((spell (line ++ later)).take offset) =
        ⟨1, offset⟩ := by
    rw [spell_append, List.take_append_of_le_length hWithin,
      Place.reached_of_unbroken hBefore,
      List.length_take_of_le hWithin]
  rw [hPlace]
  constructor
  · rfl
  · exact Nat.zero_lt_one
  · cases later with
    | nil =>
        rw [List.append_nil, List.splitOn_eq_singleton hUnbroken]
        rfl
    | cons char rest =>
        rw [hEnds char rfl,
          List.splitOn_append_cons_self_of_not_mem hUnbroken]
        rfl
  · exact (Nat.zero_add offset).symm
  · exact hWithin
  · exact hUnbroken
  · exact hEnds

/- An offset behind the first line feed. -/
theorem LiesIn.behind_break
    {text first : List Char}
    {earlier line later : List Char}
    {offset : Nat}
    (hUnbroken : '\n' ∉ first)
    (hLies :
      LiesIn text offset
        (Place.reached ((spell text).take offset)) earlier
        line later) :
    LiesIn (first ++ '\n' :: text)
      ((spell first).length + 1 + offset)
      (Place.reached
        ((spell (first ++ '\n' :: text)).take
          ((spell first).length + 1 + offset)))
      (first ++ '\n' :: earlier) line later := by
  have hTake :
      (spell (first ++ '\n' :: text)).take
          ((spell first).length + 1 + offset) =
        spell first ++ 0x0A :: (spell text).take offset := by
    rw [spell_append, spell_break_cons, Nat.add_assoc,
      List.take_length_add_append, Nat.add_comm 1 offset,
      List.take_succ_cons]
  rw [hTake, Place.reached_behind_break
    (break_not_mem_spell hUnbroken)]
  constructor
  · simp [hLies.parts]
  · exact Nat.succ_pos _
  · rw [List.splitOn_append_cons_self_of_not_mem hUnbroken,
      Nat.add_sub_cancel, List.getElem?_cons,
      if_neg (Nat.ne_of_gt hLies.counted)]
    exact hLies.numbered
  · have hOffset := hLies.reaches
    simp only [spell_append, spell_break_cons,
      List.length_append, List.length_cons]
    omega
  · exact hLies.within
  · exact hLies.unbroken
  · exact hLies.ends

theorem exists_liesIn
    (text : List Char)
    {offset : Nat}
    (hInside : offset ≤ (spell text).length) :
    ∃ earlier line later,
      LiesIn text offset
        (Place.reached ((spell text).take offset)) earlier
        line later := by
  induction text using Text.byLines generalizing offset with
  | last line hUnbroken =>
      refine ⟨[], line, [], ?_⟩
      have hFirst :
          LiesIn (line ++ []) offset _ [] line [] :=
        liesIn_first hUnbroken nofun hInside
      rwa [List.append_nil] at hFirst
  | more line rest hUnbroken ih =>
      by_cases hWithin : offset ≤ (spell line).length
      · refine ⟨[], line, '\n' :: rest, ?_⟩
        apply liesIn_first hUnbroken _ hWithin
        intro char hChar
        exact (Option.some.inj hChar).symm
      · rw [spell_append, spell_break_cons,
          List.length_append, List.length_cons] at hInside
        rcases Nat.exists_eq_add_of_lt
            (Nat.lt_of_not_le hWithin) with
          ⟨behind, hOffset⟩
        have hBehind : behind ≤ (spell rest).length := by
          omega
        rcases ih hBehind with ⟨earlier, found, later, hLies⟩
        refine ⟨line ++ '\n' :: earlier, found, later, ?_⟩
        rw [hOffset, Nat.add_right_comm]
        exact hLies.behind_break hUnbroken

/- If the bytes of the line before the offset are ASCII, as
  many characters of the line stand before it. -/
theorem LiesIn.cut_of_ascii
    {text earlier line later : List Char}
    {offset : Nat}
    {place : Place}
    (hLies : LiesIn text offset place earlier line later)
    (hAscii : ∀ index, (spell earlier).length ≤ index →
      index < offset → ∀ byte ∈ (spell text)[index]?,
        byte < 0x80) :
    ∃ lead rest, line = lead ++ rest ∧
      lead.length = place.byteOffset ∧
      (spell (earlier ++ lead)).length = offset := by
  have hBefore : ∀ byte ∈
      (spell line).take place.byteOffset, byte < 0x80 := by
    intro byte hByte
    rcases List.mem_take_iff_getElem.mp hByte with
      ⟨index, hIndex, hFound⟩
    have hReaches := hLies.reaches
    apply hAscii ((spell earlier).length + index)
      (Nat.le_add_right _ _) (by omega)
    rw [hLies.parts, spell_append, spell_append,
      List.append_assoc, List.getElem?_append_right
        (Nat.le_add_right _ _), Nat.add_sub_cancel_left,
      List.getElem?_append_left (by omega)]
    exact List.getElem?_eq_some_iff.mpr ⟨_, hFound⟩
  rcases spell_take_of_ascii hLies.within hBefore with
    ⟨hSpell, hLength⟩
  refine ⟨line.take place.byteOffset,
    line.drop place.byteOffset, ?_, ?_, ?_⟩
  · exact (List.take_append_drop _ _).symm
  · exact List.length_take_of_le hLength
  · rw [spell_append, List.length_append, hSpell,
      List.length_take_of_le hLies.within, hLies.reaches]

end ByteGrammar

------------------------------------------------------------
-- Lines as They Are Shown
------------------------------------------------------------

namespace ByteGrammar

namespace Location

/- The line of a number, counted from one. -/
def lineAt
    (lines : List (List Char))
    (number : Nat) :
    List Char :=
  lines.getD (number - 1) []

/- A line as it is shown, with its number. -/
def numbered
    (lines : List (List Char))
    (marked : Bool)
    (number : Nat) :
    String :=
  gutter marked number ++
    String.ofList (lineAt lines number)

theorem zipIdx_eq_map_lineAt
    (lines : List (List Char)) :
    lines.zipIdx 1 =
      (List.range' 1 lines.length).map fun number =>
        (lineAt lines number, number) := by
  apply List.ext_getElem
  · simp
  · intro index hIndex _
    have hInside : index < lines.length := by
      simpa using hIndex
    simp [lineAt, Nat.add_comm 1 index, hInside]

variable {place : Place}
variable {number : Nat}

theorem shownLine_of_far
    (hFar :
      number + contextRadius < place.line ∨
        place.line + contextRadius < number)
    (content : List Char) :
    shownLine place number content = [] :=
  if_pos hFar

theorem shownLine_of_near
    (hNear :
      ¬ (number + contextRadius < place.line ∨
        place.line + contextRadius < number))
    (hOther : number ≠ place.line)
    (content : List Char) :
    shownLine place number content =
      [gutter false number ++ String.ofList content] := by
  rw [shownLine, if_neg hNear, if_neg hOther]

theorem shownLine_of_own
    (place : Place)
    (content : List Char) :
    shownLine place place.line content =
      [gutter true place.line ++ String.ofList content,
        pointer
          ((gutter true place.line).length +
            place.byteOffset)] := by
  rw [shownLine, if_neg (by omega), if_pos rfl]

/- Of the lines of a range that are far, none is shown. -/
theorem flatMap_shownLine_of_far
    {lines : List (List Char)}
    {start count : Nat}
    (hFar : ∀ number, start ≤ number →
      number < start + count →
        number + contextRadius < place.line ∨
          place.line + contextRadius < number) :
    ((List.range' start count).flatMap fun number =>
      shownLine place number (lineAt lines number)) = [] := by
  rw [List.flatMap_eq_nil_iff]
  intro number hNumber
  rw [List.mem_range'_1] at hNumber
  exact shownLine_of_far
    (hFar number hNumber.1 hNumber.2) _

/- Of those that are near, all are. -/
theorem flatMap_shownLine_of_near
    {lines : List (List Char)}
    {start count : Nat}
    (hNear : ∀ number, start ≤ number →
      number < start + count →
        place.line ≤ number + contextRadius ∧
          number ≤ place.line + contextRadius ∧
          number ≠ place.line) :
    ((List.range' start count).flatMap fun number =>
      shownLine place number (lineAt lines number)) =
        (List.range' start count).map
          (numbered lines false) := by
  rw [List.map_eq_flatMap]
  apply List.flatMap_congr
  intro number hNumber
  rw [List.mem_range'_1] at hNumber
  rcases hNear number hNumber.1 hNumber.2 with
    ⟨hLow, hHigh, hOther⟩
  exact shownLine_of_near (by omega) hOther _

/- Two ranges, the second from where the first stops. -/
theorem range'_append_between
    {start middle stop : Nat}
    (hBefore : start ≤ middle)
    (hBehind : middle ≤ stop) :
    List.range' start (middle - start) ++
        List.range' middle (stop - middle) =
      List.range' start (stop - start) := by
  have hMiddle : start + (middle - start) = middle :=
    Nat.add_sub_cancel' hBefore
  have hCount :
      middle - start + (stop - middle) = stop - start := by
    omega
  have hAppend :=
    List.range'_append_1 (s := start)
      (m := middle - start) (n := stop - middle)
  rwa [hMiddle, hCount] at hAppend

/- The lines that are shown: those before the line of the
  place, this line with the pointer below, and those behind
  it. -/
theorem flatMap_shownLine
    {lines : List (List Char)}
    (hCounted : 0 < place.line)
    (hInside : place.line ≤ lines.length) :
    let first := max 1 (place.line - contextRadius)
    let last := min lines.length (place.line + contextRadius)
    ((List.range' 1 lines.length).flatMap fun number =>
        shownLine place number (lineAt lines number)) =
      (List.range' first (place.line - first)).map
          (numbered lines false) ++
        [numbered lines true place.line,
          pointer
            ((gutter true place.line).length +
              place.byteOffset)] ++
        (List.range' (place.line + 1)
          (last - place.line)).map (numbered lines false) := by
  intro first last
  have hFirst : 1 ≤ first := Nat.le_max_left _ _
  have hFirst' : first ≤ place.line := by omega
  have hLast : place.line + 1 ≤ last + 1 := by omega
  have hLast' : last + 1 ≤ lines.length + 1 := by omega
  have hOwn :
      List.range' place.line (place.line + 1 - place.line) =
        [place.line] := by
    rw [Nat.add_sub_cancel_left]
    rfl
  -- Lines far before, near before, the line itself, near
  -- behind and far behind.
  have hCut :
      List.range' 1 lines.length =
        List.range' 1 (first - 1) ++
          (List.range' first (place.line - first) ++
            ([place.line] ++
              (List.range' (place.line + 1)
                  (last + 1 - (place.line + 1)) ++
                List.range' (last + 1)
                  (lines.length + 1 - (last + 1))))) := by
    rw [range'_append_between hLast hLast', ← hOwn,
      range'_append_between (Nat.le_succ _)
        (Nat.le_trans hLast hLast'),
      range'_append_between hFirst' (by omega),
      range'_append_between hFirst (by omega),
      Nat.add_sub_cancel]
  rw [hCut]
  simp only [List.flatMap_append, List.flatMap_singleton]
  rw [flatMap_shownLine_of_far, flatMap_shownLine_of_near,
    shownLine_of_own, flatMap_shownLine_of_near,
    flatMap_shownLine_of_far, Nat.add_sub_add_right]
  · simp only [List.nil_append, List.append_nil,
      List.append_assoc]
    rfl
  all_goals
    intro number hStart hStop
    omega

end Location

end ByteGrammar

------------------------------------------------------------
-- Marks
------------------------------------------------------------

namespace ByteGrammar

namespace Location

/- Whether a line that is shown is marked. -/
def isMarked
    (line : String) :
    Bool :=
  "  > ".toList.isPrefixOf line.toList

/- Whether a line that is shown points, behind blanks. -/
def isPointer
    (line : String) :
    Bool :=
  line.toList.dropWhile (· == ' ') == "^--- here".toList

variable {lines : List (List Char)}

theorem toList_numbered
    (marked : Bool)
    (number : Nat) :
    (numbered lines marked number).toList =
      (gutter marked number).toList ++ lineAt lines number := by
  rw [numbered, String.toList_append, String.toList_ofList]

theorem toList_pointer
    (indent : Nat) :
    (pointer indent).toList =
      List.replicate indent ' ' ++ "^--- here".toList := by
  rw [pointer, String.toList_append, String.toList_ofList]

/- A gutter has a digit in front of its number. -/
theorem exists_toList_gutter
    (marked : Bool)
    (number : Nat) :
    ∃ digit rest, digit.isDigit = true ∧
      (gutter marked number).toList =
        (if marked then "  > " else "    ").toList ++
          digit :: rest := by
  rcases List.exists_cons_of_ne_nil
      (Nat.toDigits_ne_nil (n := number) (b := 10)) with
    ⟨digit, more, hDigits⟩
  refine ⟨digit, more ++ " | ".toList, ?_, ?_⟩
  · refine Nat.isDigit_of_mem_toDigits (b := 10)
      (n := number) (by decide) (by decide) ?_
    rw [hDigits]
    exact List.mem_cons_self
  · rw [gutter, String.toList_append, String.toList_append,
      Nat.toString_eq_ofList_toDigits, String.toList_ofList,
      hDigits, List.append_assoc]
    rfl

theorem isMarked_numbered
    (marked : Bool)
    (number : Nat) :
    isMarked (numbered lines marked number) = marked := by
  rcases exists_toList_gutter marked number with
    ⟨digit, rest, _, hGutter⟩
  rw [isMarked, toList_numbered, hGutter]
  cases marked <;> rfl

theorem isPointer_numbered
    (marked : Bool)
    (number : Nat) :
    isPointer (numbered lines marked number) = false := by
  rcases exists_toList_gutter marked number with
    ⟨digit, rest, hDigit, hGutter⟩
  rw [isPointer, toList_numbered, hGutter]
  cases marked with
  | true => rfl
  | false =>
      have hBlank : (digit == ' ') = false := by
        rw [beq_eq_false_iff_ne]
        intro hSame
        rw [hSame] at hDigit
        cases hDigit
      have hCaret : (digit == '^') = false := by
        rw [beq_eq_false_iff_ne]
        intro hSame
        rw [hSame] at hDigit
        cases hDigit
      simp [hBlank, hCaret]

theorem isPointer_pointer
    (indent : Nat) :
    isPointer (pointer indent) = true := by
  rw [isPointer, toList_pointer, List.dropWhile_append_of_pos]
  · rfl
  · intro char hChar
    rw [List.eq_of_mem_replicate hChar]
    rfl

theorem isMarked_pointer
    (indent : Nat) :
    isMarked (pointer indent) = false := by
  rw [isMarked, toList_pointer]
  match indent with
  | 0 => rfl
  | 1 => rfl
  | 2 => rfl
  | indent + 3 => rfl

theorem idxOf_pointer
    (indent : Nat) :
    (pointer indent).toList.idxOf '^' = indent := by
  have hBlanks : '^' ∉ List.replicate indent ' ' := by
    intro hCaret
    cases List.eq_of_mem_replicate hCaret
  rw [toList_pointer, List.idxOf_append_of_notMem hBlanks,
    List.length_replicate]
  rfl

end Location

end ByteGrammar

------------------------------------------------------------
-- Context Lines
------------------------------------------------------------

namespace ByteGrammar

namespace Location

open ByteGrammar.Utf8

variable {input : String}
variable {position : Nat}

/- A location of a text lies in a line of it. -/
theorem exists_liesIn_place
    (hInside : position ≤ (Utf8.encode input).length) :
    ∃ earlier line later,
      LiesIn input.toList position
        (⟨Utf8.encode input, position⟩ : Location).place
        earlier line later := by
  rw [place_eq_reached hInside]
  rw [encode_eq_spell] at hInside ⊢
  exact exists_liesIn input.toList hInside

/- That line is the one of its number. -/
theorem lineAt_of_liesIn
    {text earlier line later : List Char}
    {place : Place}
    (hLies : LiesIn text position place earlier line later) :
    lineAt (text.splitOn '\n') place.line = line ∧
      place.line ≤ (text.splitOn '\n').length := by
  rcases List.getElem?_eq_some_iff.mp hLies.numbered with
    ⟨hIndex, -⟩
  refine ⟨?_, by omega⟩
  rw [lineAt, List.getD_eq_getElem?_getD, hLies.numbered]
  rfl

/- It starts where the text before it stops. -/
theorem startsLine_of_liesIn
    {earlier line later : List Char}
    (hInside : position ≤ (Utf8.encode input).length)
    (hLies :
      LiesIn input.toList position
        (⟨Utf8.encode input, position⟩ : Location).place
        earlier line later) :
    StartsLine (Utf8.encode input)
      (⟨Utf8.encode input, position⟩ : Location).place.line
      (spell earlier).length := by
  rcases Place.marks_reached hInside with
    ⟨start, hStarts, hReaches, -⟩
  rw [← place_eq_reached hInside] at hStarts hReaches
  have hStart : (spell earlier).length = start :=
    Nat.add_right_cancel (hLies.reaches.symm.trans hReaches)
  rw [hStart]
  exact hStarts

theorem contextLines_eq
    {earlier line later : List Char}
    (hLies :
      LiesIn input.toList position
        (⟨Utf8.encode input, position⟩ : Location).place
        earlier line later) :
    let location : Location :=
      ⟨Utf8.encode input, position⟩
    let lines := input.toList.splitOn '\n'
    let number := location.place.line
    let first := max 1 (number - contextRadius)
    let last := min lines.length (number + contextRadius)
    location.contextLines =
      (List.range' first (number - first)).map
          (numbered lines false) ++
        [numbered lines true number,
          pointer
            ((gutter true number).length +
              location.place.byteOffset)] ++
        (List.range' (number + 1) (last - number)).map
          (numbered lines false) := by
  intro location lines number first last
  have hText : Utf8.lossy location.code = input := by
    rw [Utf8.lossy, Utf8.decode?_encode]
  rw [contextLines, hText, Text.lines_eq_splitOn,
    zipIdx_eq_map_lineAt, List.flatMap_map]
  exact flatMap_shownLine hLies.counted
    (lineAt_of_liesIn hLies).2

/- A test that no line without a mark passes leaves of the
  lines shown what it leaves of those in the middle. -/
theorem filter_shown
    {lines : List (List Char)}
    {test : String → Bool}
    (hTest : ∀ number,
      test (numbered lines false number) = false)
    (before behind : List Nat)
    (own : List String) :
    (before.map (numbered lines false) ++ own ++
        behind.map (numbered lines false)).filter test =
      own.filter test := by
  have hOthers (numbers : List Nat) :
      (numbers.map (numbered lines false)).filter test =
        [] := by
    rw [List.filter_eq_nil_iff, List.forall_mem_map]
    intro number _
    rw [hTest]
    exact Bool.false_ne_true
  rw [List.filter_append, List.filter_append, hOthers,
    hOthers, List.nil_append, List.append_nil]

/- With ASCII before the location, the line shows from above
  the caret on what the text has from the location on. -/
theorem exists_above_of_ascii
    {earlier line later : List Char}
    (hLies :
      LiesIn input.toList position
        (⟨Utf8.encode input, position⟩ : Location).place
        earlier line later)
    (hAscii : ∀ index, (spell earlier).length ≤ index →
      index < position →
        ∀ byte ∈ (Utf8.encode input)[index]?, byte < 0x80) :
    let place :=
      (⟨Utf8.encode input, position⟩ : Location).place
    let lines := input.toList.splitOn '\n'
    ∃ before above rest later,
      input.toList = before ++ rest ++ later ∧
        (Utf8.encode (String.ofList before)).length =
          position ∧
        '\n' ∉ rest ∧
        (∀ char ∈ later.head?, char = '\n') ∧
        (numbered lines true place.line).toList =
          above ++ rest ∧
        above.length =
          (gutter true place.line).length +
            place.byteOffset := by
  intro place lines
  rw [encode_eq_spell] at hAscii
  rcases hLies.cut_of_ascii hAscii with
    ⟨lead, rest, hCut, hLead, hBefore⟩
  have hOwn : lineAt lines place.line = line :=
    (lineAt_of_liesIn hLies).1
  refine ⟨earlier ++ lead,
    (gutter true place.line).toList ++ lead, rest, later, ?_,
    hBefore, ?_, hLies.ends, ?_, ?_⟩
  · rw [hLies.parts, hCut, List.append_assoc earlier lead]
  · intro hBreak
    apply hLies.unbroken
    rw [hCut]
    exact List.mem_append_right lead hBreak
  · rw [toList_numbered, hOwn, hCut, List.append_assoc]
  · rw [List.length_append, hLead, String.length_toList]

/-
  The lines shown around a location of a text. They are the
  numbered lines of the text from two before to two behind
  the line of the location, as far as there are any. That
  line alone is marked, and the only pointer is right below
  it. The caret is as many characters behind the gutter as
  the location is bytes behind the start of the line, which
  is no more bytes than the line has. If these bytes are
  ASCII, then what the line shows from above the caret on is
  what the text has from the location to the end of the
  line.
-/
theorem contextLines_specified
    (input : String)
    {position : Nat}
    (hInside : position ≤ (Utf8.encode input).length) :
    let location : Location :=
      ⟨Utf8.encode input, position⟩
    let lines := input.toList.splitOn '\n'
    let number := location.place.line
    let column := location.place.byteOffset
    let first := max 1 (number - 2)
    let last := min lines.length (number + 2)
    let caret := (gutter true number).length + column
    (1 ≤ number ∧ number ≤ lines.length) ∧
    location.contextLines =
      (List.range' first (number - first)).map
          (numbered lines false) ++
        [numbered lines true number, pointer caret] ++
        (List.range' (number + 1) (last - number)).map
          (numbered lines false) ∧
    location.contextLines.filter isMarked =
      [numbered lines true number] ∧
    location.contextLines.filter isPointer =
      [pointer caret] ∧
    (pointer caret).toList.idxOf '^' = caret ∧
    column ≤
      (Utf8.encode
        (String.ofList (lineAt lines number))).length ∧
    ∃ start, StartsLine location.code number start ∧
      position = start + column ∧
      ((∀ index, start ≤ index → index < position →
          ∀ byte ∈ location.code[index]?, byte < 0x80) →
        ∃ before above rest later,
          input.toList = before ++ rest ++ later ∧
            (Utf8.encode (String.ofList before)).length =
              position ∧
            '\n' ∉ rest ∧
            (∀ char ∈ later.head?, char = '\n') ∧
            (numbered lines true number).toList =
              above ++ rest ∧
            above.length = caret) := by
  intro location lines number column first last caret
  rcases exists_liesIn_place hInside with
    ⟨earlier, line, later, hLies⟩
  rcases lineAt_of_liesIn hLies with ⟨hLine, hLast⟩
  have hOwn : lineAt lines number = line := hLine
  have hShown : location.contextLines = _ :=
    contextLines_eq hLies
  have hMarked :
      isMarked (numbered lines true number) = true :=
    isMarked_numbered true number
  have hNumbered :
      isPointer (numbered lines true number) = false :=
    isPointer_numbered true number
  refine ⟨⟨hLies.counted, hLast⟩, hShown, ?_, ?_,
    idxOf_pointer caret, ?_, ?_⟩
  · rw [hShown, filter_shown (isMarked_numbered false),
      List.filter_cons_of_pos hMarked, List.filter_cons_of_neg]
    · rfl
    · rw [isMarked_pointer]
      exact Bool.false_ne_true
  · rw [hShown, filter_shown (isPointer_numbered false),
      List.filter_cons_of_neg, List.filter_cons_of_pos]
    · rfl
    · exact isPointer_pointer _
    · rw [hNumbered]
      exact Bool.false_ne_true
  · rw [hOwn]
    exact hLies.within
  · exact ⟨(spell earlier).length,
      startsLine_of_liesIn hInside hLies, hLies.reaches,
      exists_above_of_ascii hLies⟩

/- In the third line, before a character of two bytes. -/
theorem contextLines_specified_third_line :
    let input := "a\n\nb=é\nc"
    let location : Location := ⟨Utf8.encode input, 5⟩
    5 ≤ location.code.length ∧
      location.contextLines =
        ["    1 | a", "    2 | ", "  > 3 | b=é",
          "          ^--- here", "    4 | c"] ∧
      location.contextLines.filter isMarked =
        ["  > 3 | b=é"] ∧
      StartsLine location.code 3 3 ∧
      ∃ above rest, "  > 3 | b=é".toList = above ++ rest ∧
        above.length = 10 := by
  intro input location
  have hInside : 5 ≤ (Utf8.encode input).length := by decide
  have hLines :
      input.toList.splitOn '\n' =
        ["a".toList, [], "b=é".toList, "c".toList] := by
    rw [← Text.lines_eq_splitOn]
    decide
  rcases contextLines_specified input hInside with
    ⟨_, hShown, hMarked, _, _, _, start, hStarts, hReaches,
      hAbove⟩
  rw [hLines] at hShown hMarked hAbove
  have hStart : start = 3 :=
    Nat.add_right_cancel (m := 2) hReaches.symm
  rw [hStart] at hStarts hAbove
  have hAscii : ∀ index, 3 ≤ index → index < 5 →
      ∀ byte ∈ location.code[index]?, byte < 0x80 := by
    have hAll :
        (location.code.take 5).all (decide <| · < 0x80) =
          true := by
      decide
    intro index hFirst hLast byte hByte
    rw [← List.getElem?_take_of_lt hLast] at hByte
    exact of_decide_eq_true (List.all_eq_true.mp hAll byte
      (List.mem_of_getElem? hByte))
  rcases hAbove hAscii with
    ⟨_, above, rest, _, _, _, _, _, hLine, hLength⟩
  refine ⟨hInside, hShown.trans (by decide),
    hMarked.trans (by decide), hStarts, above, rest, ?_, ?_⟩
  · exact Eq.trans (by decide) hLine
  · exact hLength.trans (by decide)

end Location

end ByteGrammar
