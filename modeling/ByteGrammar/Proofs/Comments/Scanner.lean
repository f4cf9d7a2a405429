import ByteGrammar.Engine.Combinators
import ByteGrammar.Grammar.Comments

/-
  A scanner for whitespace and comments that knows of no
  parsers.

  The scanner is a loop over the bytes that remain. It looks
  for openers, newlines and closers as stretches of bytes,
  and takes one piece at a time.

  Main declarations:
    * `firstAt?`, `firstAt?_eq_some_iff`
    * `Comments.Piece`, `Comments.piece`
    * `Comments.Finish`, `Comments.scan`
    * `Comments.piece_of_scan_stopped`
-/

------------------------------------------------------------
-- First Occurrences
------------------------------------------------------------

namespace ByteGrammar

/- How many bytes come before the first occurrence of a
  pattern, if there is one. -/
def firstAt?
    (pattern : List UInt8) :
    List UInt8 → Option Nat
  | [] => if pattern.isEmpty then some 0 else none
  | byte :: rest =>
      if pattern.isPrefixOf (byte :: rest) then some 0
      else (firstAt? pattern rest).map (· + 1)

variable {pattern bytes : List UInt8}

/- The first occurrence is one, and there is none
  before. -/
theorem firstAt?_eq_some_iff
    {count : Nat} :
    firstAt? pattern bytes = some count ↔
      count ≤ bytes.length ∧
        pattern <+: bytes.drop count ∧
        ∀ ahead < count, ¬ pattern <+: bytes.drop ahead := by
  induction bytes generalizing count with
  | nil =>
      simp only [firstAt?, List.isEmpty_iff, List.length_nil,
        Nat.le_zero_eq, List.drop_nil, List.prefix_nil]
      grind
  | cons byte rest ih =>
      unfold firstAt?
      split
      next hHere =>
        rw [List.isPrefixOf_iff_prefix] at hHere
        constructor
        · rintro ⟨⟩
          exact ⟨Nat.zero_le _, hHere, by simp⟩
        · rintro ⟨-, -, hBefore⟩
          cases count with
          | zero => rfl
          | succ count =>
              exact absurd hHere
                (hBefore 0 (Nat.zero_lt_succ count))
      next hHere =>
        rw [List.isPrefixOf_iff_prefix] at hHere
        cases count with
        | zero => simp [hHere]
        | succ count =>
            have hCount :
                (firstAt? pattern rest).map (· + 1) =
                    some (count + 1) ↔
                  firstAt? pattern rest = some count := by
              simp only [Option.map_eq_some_iff,
                Nat.add_right_cancel_iff, exists_eq_right]
            rw [hCount, ih, Nat.forall_lt_succ_left]
            simp only [List.length_cons,
              Nat.add_le_add_iff_right, List.drop_zero,
              List.drop_succ_cons, hHere, not_false_eq_true,
              true_and]

theorem firstAt?_eq_none_iff :
    firstAt? pattern bytes = none ↔
      ∀ ahead ≤ bytes.length,
        ¬ pattern <+: bytes.drop ahead := by
  induction bytes with
  | nil => simp [firstAt?]
  | cons byte rest ih =>
      unfold firstAt?
      split
      next hHere =>
        rw [List.isPrefixOf_iff_prefix] at hHere
        constructor
        · rintro ⟨⟩
        · intro hNone
          exact absurd hHere (hNone 0 (Nat.zero_le _))
      next hHere =>
        rw [List.isPrefixOf_iff_prefix] at hHere
        rw [Option.map_eq_none_iff, ih]
        constructor
        · intro hRest ahead hAhead
          cases ahead with
          | zero => exact hHere
          | succ ahead =>
              exact hRest ahead
                (Nat.le_of_succ_le_succ hAhead)
        · intro hAll ahead hAhead
          exact hAll (ahead + 1) (Nat.succ_le_succ hAhead)

variable {data : List UInt8}
variable {start count : Nat}

/- The same, by positions of a buffer. -/
theorem le_of_firstAt?_eq_some
    (hInside : start ≤ data.length)
    (hFirst :
      firstAt? pattern (data.drop start) = some count) :
    start + count ≤ data.length := by
  have hCount := (firstAt?_eq_some_iff.mp hFirst).1
  rw [List.length_drop] at hCount
  omega

theorem prefix_of_firstAt?_eq_some
    (hFirst :
      firstAt? pattern (data.drop start) = some count) :
    pattern <+: data.drop (start + count) := by
  rw [← List.drop_drop]
  exact (firstAt?_eq_some_iff.mp hFirst).2.1

theorem not_prefix_of_firstAt?_eq_some
    (hFirst :
      firstAt? pattern (data.drop start) = some count)
    (place : Nat)
    (hStart : start ≤ place)
    (hPlace : place < start + count) :
    ¬ pattern <+: data.drop place := by
  rcases Nat.exists_eq_add_of_le hStart with ⟨ahead, rfl⟩
  rw [← List.drop_drop]
  exact (firstAt?_eq_some_iff.mp hFirst).2.2 ahead
    (by omega)

theorem not_prefix_of_firstAt?_eq_none
    (hFirst : firstAt? pattern (data.drop start) = none)
    (place : Nat)
    (hStart : start ≤ place)
    (hPlace : place ≤ data.length) :
    ¬ pattern <+: data.drop place := by
  rcases Nat.exists_eq_add_of_le hStart with ⟨ahead, rfl⟩
  rw [← List.drop_drop]
  apply firstAt?_eq_none_iff.mp hFirst ahead
  rw [List.length_drop]
  omega

end ByteGrammar

------------------------------------------------------------
-- Pieces
------------------------------------------------------------

namespace ByteGrammar

namespace Comments

/- What stands at the start of some bytes: nothing to skip,
  a piece of some length, or the opener of a comment whose
  closer does not come. -/
inductive Piece where
  | nothing
  | taken (length : Nat)
  | unterminated (closer : String) (length : Nat)
deriving DecidableEq

/- Whether a comment starts with an opener. -/
def opens
    (opener : String)
    (bytes : List UInt8) :
    Bool :=
  (Utf8.encode opener).isPrefixOf bytes

/- A comment up to the first newline after its opener, or
  else up to the end. -/
def linePiece
    (opener : String)
    (bytes : List UInt8) :
    Piece :=
  let opening := (Utf8.encode opener).length
  match firstAt? [0x0A] (bytes.drop opening) with
  | some body => .taken (opening + body)
  | none => .taken bytes.length

/- A comment past the first closer after its opener. -/
def blockPiece
    (opener closer : String)
    (bytes : List UInt8) :
    Piece :=
  let opening := (Utf8.encode opener).length
  match firstAt? (Utf8.encode closer)
      (bytes.drop opening) with
  | some body =>
      .taken (opening + body + (Utf8.encode closer).length)
  | none => .unterminated closer opening

/- The comment of the first opener of a line, or else of the
  first opener of a block. -/
def comment
    (comments : Comments)
    (bytes : List UInt8) :
    Piece :=
  match comments.lines.find? (opens · bytes) with
  | some opener => linePiece opener bytes
  | none =>
      match comments.blocks.find? (opens ·.1 bytes) with
      | some (opener, closer) =>
          blockPiece opener closer bytes
      | none => .nothing

/- Whether a blank is skipped. -/
def startsBlank
    (comments : Comments)
    (bytes : List UInt8) :
    Bool :=
  comments.blanks && bytes.head?.any Blank.isAny

/- A single blank, or else a comment. -/
def piece
    (comments : Comments)
    (bytes : List UInt8) :
    Piece :=
  if comments.startsBlank bytes then .taken 1
  else comments.comment bytes

end Comments

end ByteGrammar

------------------------------------------------------------
-- The Loop
------------------------------------------------------------

namespace ByteGrammar

namespace Comments

/- Where a scan stops: where there is nothing to skip, or
  after the opener of a comment that is not closed. -/
inductive Finish where
  | stopped (position : Nat)
  | unterminated (closer : String) (position : Nat)
deriving DecidableEq

namespace Finish

def position :
    Finish → Nat
  | stopped position => position
  | unterminated _ position => position

/- What a parser comes to that scans: a match with a value,
  or a fatal error right after the opener. -/
def outcome
    {α : Type}
    (value : α) :
    Finish → Outcome α
  | stopped _ => .matched value
  | unterminated closer position =>
      .fatal (.committed (Comments.unterminated closer)
        position)

end Finish

/- Takes piece after piece from a position, where `bytes`
  remain. A piece without bytes is the last one. -/
def scan
    (comments : Comments)
    (here : Nat)
    (bytes : List UInt8) :
    Finish :=
  match comments.piece bytes with
  | .nothing => .stopped here
  | .unterminated closer length =>
      .unterminated closer (here + length)
  | .taken length =>
      if _ : (bytes.drop length).length < bytes.length then
        scan comments (here + length) (bytes.drop length)
      else .stopped here
termination_by bytes.length
decreasing_by assumption

end Comments

end ByteGrammar

------------------------------------------------------------
-- Where a Scan Stops
------------------------------------------------------------

namespace ByteGrammar

namespace Comments

variable {comments : Comments}
variable {bytes : List UInt8}

/- A comment of a line has its opener. -/
theorem linePiece_taken
    {opener : String}
    {length : Nat}
    (hOpens : opens opener bytes = true)
    (hTaken : linePiece opener bytes = .taken length) :
    (Utf8.encode opener).length ≤ length ∧
      length ≤ bytes.length := by
  have hLe :=
    (List.isPrefixOf_iff_prefix.mp hOpens).length_le
  simp only [linePiece] at hTaken
  split at hTaken
  next body hBody =>
    have hInside := le_of_firstAt?_eq_some hLe hBody
    cases hTaken
    omega
  next =>
    cases hTaken
    exact ⟨hLe, Nat.le_refl _⟩

/- A comment of a block has its opener and its closer. -/
theorem blockPiece_taken
    {opener closer : String}
    {length : Nat}
    (hOpens : opens opener bytes = true)
    (hTaken : blockPiece opener closer bytes = .taken length) :
    (Utf8.encode opener).length ≤ length ∧
      length ≤ bytes.length := by
  have hLe :=
    (List.isPrefixOf_iff_prefix.mp hOpens).length_le
  simp only [blockPiece] at hTaken
  split at hTaken
  next body hBody =>
    have hInside := le_of_firstAt?_eq_some hLe hBody
    have hCloser :=
      (prefix_of_firstAt?_eq_some hBody).length_le
    rw [List.length_drop] at hCloser
    cases hTaken
    omega
  next => cases hTaken

/- What is taken as a comment has an opener. -/
theorem comment_taken
    {length : Nat}
    (hTaken : comments.comment bytes = .taken length) :
    ∃ opener,
      (opener ∈ comments.lines ∨
        ∃ closer, (opener, closer) ∈ comments.blocks) ∧
      (Utf8.encode opener).length ≤ length ∧
        length ≤ bytes.length := by
  unfold comment at hTaken
  split at hTaken
  next opener hFound =>
    have hMem := List.mem_of_find?_eq_some hFound
    have hOpens := List.find?_some hFound
    exact ⟨opener, .inl hMem,
      linePiece_taken hOpens hTaken⟩
  next =>
    split at hTaken
    next opener closer hFound =>
      have hMem := List.mem_of_find?_eq_some hFound
      have hOpens := List.find?_some hFound
      exact ⟨opener, .inr ⟨closer, hMem⟩,
        blockPiece_taken hOpens hTaken⟩
    next => cases hTaken

theorem piece_taken_le
    {length : Nat}
    (hTaken : comments.piece bytes = .taken length) :
    length ≤ bytes.length := by
  unfold piece at hTaken
  split at hTaken
  next hBlank =>
    cases hTaken
    cases bytes with
    | nil => simp [startsBlank] at hBlank
    | cons byte rest => exact Nat.succ_le_succ (Nat.zero_le _)
  next =>
    rcases comment_taken hTaken with ⟨opener, -, -, hLe⟩
    exact hLe

/- Every comment has an opener. -/
structure Opened
    (comments : Comments) :
    Prop where
  lines : ∀ opener ∈ comments.lines, opener ≠ ""
  blocks : ∀ block ∈ comments.blocks, block.1 ≠ ""

/- Then what is taken is not nothing. -/
theorem Opened.piece_taken_pos
    {length : Nat}
    (hOpened : comments.Opened)
    (hTaken : comments.piece bytes = .taken length) :
    0 < length := by
  unfold piece at hTaken
  split at hTaken
  next =>
    cases hTaken
    exact Nat.one_pos
  next =>
    rcases comment_taken hTaken with
      ⟨opener, hMem, hOpening, -⟩
    have hOpener : opener ≠ "" := by
      rcases hMem with hLine | ⟨closer, hBlock⟩
      · exact hOpened.lines opener hLine
      · exact hOpened.blocks (opener, closer) hBlock
    have hPos :=
      List.length_pos_iff.mpr (Utf8.encode_ne_nil hOpener)
    exact Nat.lt_of_lt_of_le hPos hOpening

/- A scan stops only where nothing is to be skipped. -/
theorem Opened.piece_of_scan_stopped
    {data : List UInt8}
    {here stop : Nat}
    (hOpened : comments.Opened)
    (hBytes : bytes = data.drop here)
    (hStopped : comments.scan here bytes = .stopped stop) :
    comments.piece (data.drop stop) = .nothing := by
  fun_induction scan comments here bytes with
  | case1 here bytes hPiece =>
      cases hStopped
      rw [← hBytes]
      exact hPiece
  | case2 => cases hStopped
  | case3 here bytes length hPiece hFewer ih =>
      apply ih _ hStopped
      rw [hBytes, List.drop_drop]
  | case4 here bytes length hPiece hNotFewer =>
      have hPos := hOpened.piece_taken_pos hPiece
      have hLe := piece_taken_le hPiece
      rw [List.length_drop] at hNotFewer
      omega

end Comments

end ByteGrammar

------------------------------------------------------------
-- Runs of Blanks
------------------------------------------------------------

namespace ByteGrammar

namespace Comments

variable {comments : Comments}

/- A whole run of blanks, or else a comment. -/
def stretch
    (comments : Comments)
    (bytes : List UInt8) :
    Piece :=
  if comments.startsBlank bytes then
    .taken (bytes.takeWhile Blank.isAny).length
  else comments.comment bytes

theorem stretch_taken_le
    {bytes : List UInt8}
    {length : Nat}
    (hTaken : comments.stretch bytes = .taken length) :
    length ≤ bytes.length := by
  unfold stretch at hTaken
  split at hTaken
  next =>
    cases hTaken
    exact (List.takeWhile_sublist _).length_le
  next =>
    rcases comment_taken hTaken with ⟨opener, -, -, hLe⟩
    exact hLe

/- Blanks are skipped one by one. -/
theorem scan_blanks
    (hBlanks : comments.blanks = true)
    (here : Nat)
    (bytes : List UInt8) :
    comments.scan here bytes =
      comments.scan
        (here + (bytes.takeWhile Blank.isAny).length)
        (bytes.drop
          (bytes.takeWhile Blank.isAny).length) := by
  induction bytes generalizing here with
  | nil => rfl
  | cons byte rest ih =>
      cases hBlank : Blank.isAny byte with
      | false => simp [hBlank]
      | true =>
          have hPiece :
              comments.piece (byte :: rest) = .taken 1 := by
            simp [piece, startsBlank, hBlanks, hBlank]
          have hNext :
              comments.scan here (byte :: rest) =
                comments.scan (here + 1) rest := by
            rw [scan, hPiece]
            simp
          rw [hNext, ih, List.takeWhile_cons_of_pos hBlank,
            List.length_cons, List.drop_succ_cons,
            Nat.add_assoc, Nat.add_comm 1]

/- A scan may take the blanks of a run at once. -/
theorem scan_eq_stretch
    (here : Nat)
    (bytes : List UInt8) :
    comments.scan here bytes =
      match comments.stretch bytes with
      | .nothing => .stopped here
      | .unterminated closer length =>
          .unterminated closer (here + length)
      | .taken length =>
          if (bytes.drop length).length < bytes.length then
            comments.scan (here + length)
              (bytes.drop length)
          else .stopped here := by
  cases hStarts : comments.startsBlank bytes with
  | false =>
      have hSame :
          comments.stretch bytes = comments.piece bytes := by
        simp [stretch, piece, hStarts]
      rw [scan, hSame]
      split <;> rfl
  | true =>
      have hBlanks := (Bool.and_eq_true_iff.mp hStarts).1
      have hFewer :
          (bytes.drop
            (bytes.takeWhile Blank.isAny).length).length <
              bytes.length := by
        cases bytes with
        | nil => simp [startsBlank] at hStarts
        | cons byte rest =>
            have hBlank : Blank.isAny byte = true := by
              simpa [startsBlank, hBlanks] using hStarts
            rw [List.takeWhile_cons_of_pos hBlank]
            simp only [List.length_cons, List.length_drop]
            omega
      simp only [stretch, hStarts, if_true, if_pos hFewer]
      exact scan_blanks hBlanks here bytes

end Comments

end ByteGrammar
