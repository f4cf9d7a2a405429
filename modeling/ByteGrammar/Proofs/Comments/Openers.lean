import ByteGrammar.Proofs.Comments.Skipping

/-
  Comments whose openers do not get in each other's way.

  Where a block opens, it is skipped whole, unless a comment
  of a line opens there too: those are tried first. Among the
  comments of a kind the first that opens is taken, so the
  order of rules does not matter where at most one opens.

  Main declarations:
    * `Comments.SkipsTo`, `Comments.SkipsTo.unique`
    * `Comments.PassesOver`, `Comments.passesOver_of_taken`
    * `Comments.Separate`, `Comments.separate_block_skipped`
    * `Comments.PrefixFree`, `Comments.Apart`,
      `Comments.Apart.comment_eq`
    * `Comments.skipper_order_irrelevant`
-/

------------------------------------------------------------
-- Pieces and Scans
------------------------------------------------------------

namespace ByteGrammar

namespace Comments

variable {comments others : Comments}
variable {bytes : List UInt8}

theorem le_position_scan
    (here : Nat)
    (bytes : List UInt8) :
    here ≤ (comments.scan here bytes).position := by
  fun_induction scan comments here bytes with
  | case1 => exact Nat.le_refl _
  | case2 => exact Nat.le_add_right _ _
  | case3 here bytes length hPiece hFewer ih =>
      exact Nat.le_of_add_right_le ih
  | case4 => exact Nat.le_refl _

/- A scan goes on behind what it takes. -/
theorem scan_of_taken
    {length : Nat}
    (here : Nat)
    (hTaken : comments.piece bytes = .taken length) :
    comments.scan here bytes =
      comments.scan (here + length) (bytes.drop length) := by
  by_cases hFewer :
      (bytes.drop length).length < bytes.length
  · rw [scan, hTaken]
    exact dif_pos hFewer
  · -- A piece without bytes leaves the scan where it is.
    have hLe := piece_taken_le hTaken
    have hZero : length = 0 := by
      rw [List.length_drop] at hFewer
      omega
    rw [hZero, List.drop_zero, Nat.add_zero]

/- Rules that take the same pieces scan alike. -/
theorem scan_congr
    (hPiece : ∀ bytes,
      comments.piece bytes = others.piece bytes)
    (here : Nat)
    (bytes : List UInt8) :
    comments.scan here bytes = others.scan here bytes := by
  fun_induction scan comments here bytes with
  | case1 here bytes hNothing =>
      rw [hPiece] at hNothing
      rw [scan, hNothing]
  | case2 here bytes closer length hUnterminated =>
      rw [hPiece] at hUnterminated
      rw [scan, hUnterminated]
  | case3 here bytes length hTaken hFewer ih =>
      rw [hPiece] at hTaken
      rw [ih, ← scan_of_taken here hTaken]
  | case4 here bytes length hTaken hNotFewer =>
      rw [hPiece] at hTaken
      rw [scan, hTaken]
      simp only [hNotFewer, dif_neg, not_false_eq_true]

end Comments

end ByteGrammar

------------------------------------------------------------
-- Skips
------------------------------------------------------------

namespace ByteGrammar

namespace Comments

variable {comments : Comments}
variable {rules : Rules}
variable {data : List UInt8}
variable {start past : Nat}
variable {finish other : Finish}

/- From a position of a buffer, in every context, the
  whitespace parser skips up to a finish: it matches up to
  there, or raises the error of a block that is not
  closed. -/
def SkipsTo
    (rules : Rules)
    (comments : Comments)
    (data : List UInt8)
    (start : Nat)
    (finish : Finish) :
    Prop :=
  Action.ComesTo data (fun _ => True) start
    (comments.skipper.parse rules)
    (finish.outcome ⟨start, finish.position, .unit⟩)
    finish.position

theorem skipsTo_scan
    (rules : Rules)
    (comments : Comments)
    (hInside : start ≤ data.length) :
    SkipsTo rules comments data start
      (comments.scan start (data.drop start)) :=
  (comesTo_skipper hInside).parse_of_unscoped
    (unscoped_skipper comments)

theorem unterminated_inj
    {closer closer' : String} :
    unterminated closer = unterminated closer' ↔
      closer = closer' := by
  unfold unterminated
  rw [String.append_left_inj, String.append_right_inj]

/- The outcome tells the finish. -/
theorem Finish.eq_of_outcome
    (hOutcome :
      finish.outcome
          (⟨start, finish.position, .unit⟩ : Match) =
        other.outcome ⟨start, other.position, .unit⟩) :
    finish = other := by
  cases finish with
  | stopped stop =>
      cases other with
      | stopped stop' =>
          simpa [outcome, position] using hOutcome
      | unterminated closer stop' => cases hOutcome
  | unterminated closer stop =>
      cases other with
      | stopped stop' => cases hOutcome
      | unterminated closer' stop' =>
          simpa [outcome, unterminated_inj] using hOutcome

/- A parser skips to one finish only. -/
theorem SkipsTo.unique
    (hSkips : SkipsTo rules comments data start finish)
    (hOther : SkipsTo rules comments data start other) :
    finish = other := by
  let cursor : Cursor :=
    ⟨data, start, Region.between start start, start⟩
  rcases hSkips cursor (.fresh .standard) rfl rfl trivial with
    ⟨last, events, hRun, -⟩
  rcases hOther cursor (.fresh .standard) rfl rfl trivial with
    ⟨last', events', hRun', -⟩
  have hSame := Option.some.inj (hRun.symm.trans hRun')
  exact Finish.eq_of_outcome (congrArg Step.outcome hSame)

/- The parser moves past all that comes before a position,
  and then does what it does from there. -/
def PassesOver
    (rules : Rules)
    (comments : Comments)
    (data : List UInt8)
    (start past : Nat) :
    Prop :=
  ∃ finish, past ≤ finish.position ∧
    SkipsTo rules comments data start finish ∧
    SkipsTo rules comments data past finish

theorem passesOver_of_taken
    {length : Nat}
    (hInside : start ≤ data.length)
    (hTaken :
      comments.piece (data.drop start) = .taken length) :
    PassesOver rules comments data start
      (start + length) := by
  have hLe := piece_taken_le hTaken
  rw [List.length_drop] at hLe
  have hPast : start + length ≤ data.length := by omega
  have hScan := scan_of_taken start hTaken
  rw [List.drop_drop] at hScan
  refine ⟨_, le_position_scan _ _, ?_,
    skipsTo_scan rules comments hPast⟩
  rw [← hScan]
  exact skipsTo_scan rules comments hInside

end Comments

end ByteGrammar

------------------------------------------------------------
-- Blocks
------------------------------------------------------------

namespace ByteGrammar

/- What comes behind a first occurrence is of no
  matter. -/
theorem firstAt?_append
    {pattern bytes : List UInt8}
    {count : Nat}
    (rest : List UInt8)
    (hFirst : firstAt? pattern bytes = some count) :
    firstAt? pattern (bytes ++ rest) = some count := by
  rw [firstAt?_eq_some_iff] at hFirst ⊢
  rcases hFirst with ⟨hCount, hHere, hBefore⟩
  rw [List.drop_append_of_le_length hCount,
    List.length_append]
  refine ⟨Nat.le_add_right_of_le hCount,
    hHere.trans (List.prefix_append _ _), ?_⟩
  intro ahead hAhead hEarlier
  rw [List.drop_append_of_le_length (by omega)] at hEarlier
  apply hBefore ahead hAhead
  apply List.prefix_of_prefix_length_le hEarlier
    (List.prefix_append _ _)
  have hLength := hHere.length_le
  simp only [List.length_drop] at hLength ⊢
  omega

namespace Comments

section Found

variable {α : Type}
variable {items : List α}
variable {holds : α → Bool}

/- What holds of one item alone is found there. -/
theorem find?_eq_some_of_only
    {item : α}
    (hMem : item ∈ items)
    (hHolds : holds item = true)
    (hOnly : ∀ other ∈ items, holds other = true →
      other = item) :
    items.find? holds = some item := by
  cases hFound : items.find? holds with
  | none =>
      exact absurd hHolds
        (List.find?_eq_none.mp hFound item hMem)
  | some other =>
      rw [hOnly other (List.mem_of_find?_eq_some hFound)
        (List.find?_some hFound)]

end Found

variable {comments : Comments}
variable {bytes body rest data : List UInt8}
variable {opener closer : String}
variable {start : Nat}

/- A block whose opener stands for itself: it is neither
  blank nor empty, and with no opener of another block is
  one a start of the other. -/
structure Separate
    (comments : Comments)
    (opener closer : String) :
    Prop where
  rule : (opener, closer) ∈ comments.blocks
  opening : opener ≠ ""
  solid : comments.startsBlank (Utf8.encode opener) = false
  alone : ∀ block ∈ comments.blocks,
    block ≠ (opener, closer) →
      ¬ Utf8.encode block.1 <+: Utf8.encode opener ∧
        ¬ Utf8.encode opener <+: Utf8.encode block.1

theorem startsBlank_append
    (hBytes : bytes ≠ [])
    (rest : List UInt8) :
    comments.startsBlank (bytes ++ rest) =
      comments.startsBlank bytes := by
  cases bytes with
  | nil => exact absurd rfl hBytes
  | cons byte more => rfl

/- Of two openers of the same bytes, one starts with the
  other. -/
theorem prefix_or_of_opens
    {opener' : String}
    (hOpens : opens opener bytes = true)
    (hOpens' : opens opener' bytes = true) :
    Utf8.encode opener <+: Utf8.encode opener' ∨
      Utf8.encode opener' <+: Utf8.encode opener :=
  List.prefix_or_prefix_of_prefix
    (List.isPrefixOf_iff_prefix.mp hOpens)
    (List.isPrefixOf_iff_prefix.mp hOpens')

/- Where it opens, the comment is of it or of a line. -/
theorem Separate.piece_eq
    (hSeparate : comments.Separate opener closer)
    (hOpens : opens opener bytes = true) :
    comments.piece bytes =
      match comments.lines.find? (opens · bytes) with
      | some line => linePiece line bytes
      | none => blockPiece opener closer bytes := by
  have hSolid : comments.startsBlank bytes = false := by
    rcases List.isPrefixOf_iff_prefix.mp hOpens with
      ⟨rest, rfl⟩
    rw [startsBlank_append
      (Utf8.encode_ne_nil hSeparate.opening)]
    exact hSeparate.solid
  have hOnly : ∀ block ∈ comments.blocks,
      opens block.1 bytes = true →
        block = (opener, closer) := by
    intro block hMem hBlock
    by_cases hSame : block = (opener, closer)
    · exact hSame
    · have hAlone := hSeparate.alone block hMem hSame
      rcases prefix_or_of_opens hBlock hOpens with
        hStart | hStart
      · exact absurd hStart hAlone.1
      · exact absurd hStart hAlone.2
  have hBlock :
      comments.blocks.find? (opens ·.1 bytes) =
        some (opener, closer) :=
    find?_eq_some_of_only hSeparate.rule hOpens hOnly
  rw [piece, hSolid, comment, hBlock]
  rfl

/- A block reaches past its first closer. -/
theorem blockPiece_whole
    (hFirst :
      firstAt? (Utf8.encode closer)
        (body ++ Utf8.encode closer) = some body.length) :
    blockPiece opener closer
        (Utf8.encode opener ++ body ++ Utf8.encode closer ++
          rest) =
      .taken (Utf8.encode opener ++ body ++
        Utf8.encode closer).length := by
  have hBody := firstAt?_append rest hFirst
  simp only [blockPiece, List.append_assoc,
    List.drop_left, List.length_append] at hBody ⊢
  rw [hBody]
  dsimp only
  rw [Nat.add_assoc]

theorem exists_linePiece
    (line : String)
    (bytes : List UInt8) :
    ∃ length, linePiece line bytes = .taken length := by
  simp only [linePiece]
  split
  · exact ⟨_, rfl⟩
  · exact ⟨_, rfl⟩

/-
  Where a separate block stands with its first closer, the
  whitespace parser moves past the whole block before it
  considers what comes behind, whatever the block holds, if
  no comment of a line opens there. If one does, that of the
  first such opener is taken instead.
-/
theorem separate_block_skipped
    (rules : Rules)
    (hSeparate : comments.Separate opener closer)
    (hText :
      data.drop start =
        Utf8.encode opener ++ body ++ Utf8.encode closer ++
          rest)
    (hFirst :
      firstAt? (Utf8.encode closer)
        (body ++ Utf8.encode closer) = some body.length) :
    ((∀ line ∈ comments.lines,
        opens line (data.drop start) = false) →
      PassesOver rules comments data start
        (start +
          (Utf8.encode opener ++ body ++
            Utf8.encode closer).length)) ∧
      ∀ line,
        comments.lines.find? (opens · (data.drop start)) =
          some line →
        ∃ length,
          linePiece line (data.drop start) =
              .taken length ∧
            PassesOver rules comments data start
              (start + length) := by
  have hOpens : opens opener (data.drop start) = true := by
    rw [hText, List.append_assoc, List.append_assoc]
    exact List.isPrefixOf_iff_prefix.mpr
      (List.prefix_append _ _)
  have hInside : start ≤ data.length := by
    have hPos := List.length_pos_iff.mpr
      (Utf8.encode_ne_nil hSeparate.opening)
    have hLength :=
      (List.isPrefixOf_iff_prefix.mp hOpens).length_le
    rw [List.length_drop] at hLength
    omega
  have hPiece := hSeparate.piece_eq hOpens
  constructor
  · intro hLines
    have hNone :
        comments.lines.find? (opens · (data.drop start)) =
          none := by
      simpa using hLines
    apply passesOver_of_taken hInside
    rw [hPiece, hNone]
    dsimp only
    rw [hText]
    exact blockPiece_whole hFirst
  · intro line hLine
    rcases exists_linePiece line (data.drop start) with
      ⟨length, hLength⟩
    refine ⟨length, hLength, ?_⟩
    apply passesOver_of_taken hInside
    rw [hPiece, hLine]
    exact hLength

/- A block with a newline, the openers of a line and of
  another block and a star before its closer, and one that
  opens where a comment of a line does. -/
theorem separate_block_skipped_overlapping :
    let rules : Rules := .empty
    let comments : Comments :=
      ⟨true, ["//", "/*!"], [("(*", "*)"), ("/*", "*/")]⟩
    let body := Utf8.encode "\n// (* *"
    let whole := Utf8.encode " /*\n// (* **/x"
    let cut := Utf8.encode "/*! */x\n*/"
    comments.Separate "/*" "*/" ∧
      whole.drop 1 =
        Utf8.encode "/*" ++ body ++ Utf8.encode "*/" ++
          Utf8.encode "x" ∧
      cut.drop 0 =
        Utf8.encode "/*" ++ Utf8.encode "! " ++
          Utf8.encode "*/" ++ Utf8.encode "x\n*/" ∧
      firstAt? (Utf8.encode "*/")
          (body ++ Utf8.encode "*/") = some body.length ∧
      firstAt? (Utf8.encode "*/")
          (Utf8.encode "! " ++ Utf8.encode "*/") =
        some (Utf8.encode "! ").length ∧
      PassesOver rules comments whole 1 13 ∧
      PassesOver rules comments cut 0 7 := by
  intro rules comments body whole cut
  have hSeparate : comments.Separate "/*" "*/" :=
    ⟨by decide, by decide, by decide +kernel,
      by decide +kernel⟩
  have hWhole :
      whole.drop 1 =
        Utf8.encode "/*" ++ body ++ Utf8.encode "*/" ++
          Utf8.encode "x" := by
    decide +kernel
  have hCut :
      cut.drop 0 =
        Utf8.encode "/*" ++ Utf8.encode "! " ++
          Utf8.encode "*/" ++ Utf8.encode "x\n*/" := by
    decide +kernel
  have hFirst :
      firstAt? (Utf8.encode "*/")
          (body ++ Utf8.encode "*/") =
        some body.length := by
    decide +kernel
  have hFirstCut :
      firstAt? (Utf8.encode "*/")
          (Utf8.encode "! " ++ Utf8.encode "*/") =
        some (Utf8.encode "! ").length := by
    decide +kernel
  have hLines : ∀ line ∈ comments.lines,
      opens line (whole.drop 1) = false := by
    decide +kernel
  have hLine :
      comments.lines.find? (opens · (cut.drop 0)) =
        some "/*!" := by
    decide +kernel
  have hPiece :
      linePiece "/*!" (cut.drop 0) = .taken 7 := by
    decide +kernel
  refine ⟨hSeparate, hWhole, hCut, hFirst, hFirstCut, ?_, ?_⟩
  · exact (separate_block_skipped rules hSeparate hWhole
      hFirst).1 hLines
  · rcases (separate_block_skipped rules hSeparate hCut
        hFirstCut).2 "/*!" hLine with
      ⟨length, hLength, hPasses⟩
    rw [hPiece] at hLength
    cases hLength
    exact hPasses

/- A comment of a line that opens with the start of the
  opener of a block cuts the block at its first newline. -/
theorem block_cut_by_line :
    let rules : Rules := .empty
    let comments : Comments :=
      ⟨true, ["--"], [("--[[", "]]")]⟩
    let data := Utf8.encode "--[[\n]]"
    comments.Separate "--[[" "]]" ∧
      data.drop 0 =
        Utf8.encode "--[[" ++ Utf8.encode "\n" ++
          Utf8.encode "]]" ++ [] ∧
      firstAt? (Utf8.encode "]]")
          (Utf8.encode "\n" ++ Utf8.encode "]]") =
        some (Utf8.encode "\n").length ∧
      SkipsTo rules comments data 0 (.stopped 5) ∧
      ¬ PassesOver rules comments data 0
        (0 +
          (Utf8.encode "--[[" ++ Utf8.encode "\n" ++
            Utf8.encode "]]").length) := by
  intro rules comments data
  have hScan :
      comments.scan 0 (data.drop 0) = .stopped 5 := by
    decide +kernel
  have hSkips :
      SkipsTo rules comments data 0 (.stopped 5) := by
    rw [← hScan]
    exact skipsTo_scan rules comments (Nat.zero_le _)
  refine ⟨⟨by decide, by decide, by decide +kernel,
      by decide +kernel⟩, by decide +kernel,
    by decide +kernel, hSkips, ?_⟩
  rintro ⟨finish, hPast, hFrom, -⟩
  cases hSkips.unique hFrom
  exact absurd hPast (by decide +kernel)

end Comments

end ByteGrammar

------------------------------------------------------------
-- The Order of Rules
------------------------------------------------------------

namespace ByteGrammar

namespace Comments

variable {comments others : Comments}
variable {rules : Rules}
variable {data : List UInt8}
variable {start : Nat}

theorem mem_lines_foldl
    (changes : List Rule)
    {opener : String} :
    opener ∈ (changes.foldl apply comments).lines ↔
      opener ∈ comments.lines ∨
        .line opener ∈ changes := by
  induction changes generalizing comments with
  | nil => simp
  | cons change changes ih =>
      rw [List.foldl_cons, ih]
      cases change with
      | blanks count => simp [apply]
      | line first => simp [apply, or_assoc]
      | block first last => simp [apply]

theorem mem_blocks_foldl
    (changes : List Rule)
    {block : String × String} :
    block ∈ (changes.foldl apply comments).blocks ↔
      block ∈ comments.blocks ∨
        .block block.1 block.2 ∈ changes := by
  induction changes generalizing comments with
  | nil => simp
  | cons change changes ih =>
      rw [List.foldl_cons, ih]
      cases change with
      | blanks count => simp [apply]
      | line first => simp [apply]
      | block first last =>
          simp [apply, or_assoc, Prod.ext_iff]

section Found

variable {α : Type}
variable {opener : α → String}
variable {items permuted : List α}

/- Among some items, no opener is a start of another's. -/
def PrefixFree
    (opener : α → String)
    (items : List α) :
    Prop :=
  ∀ item ∈ items, ∀ longer ∈ items,
    Utf8.encode (opener item) <+:
        Utf8.encode (opener longer) →
      item = longer

instance
    [DecidableEq α]
    (opener : α → String)
    (items : List α) :
    Decidable (PrefixFree opener items) :=
  inferInstanceAs
    (Decidable (∀ item ∈ items, ∀ longer ∈ items,
      Utf8.encode (opener item) <+:
          Utf8.encode (opener longer) →
        item = longer))

/- At most one of them opens, so the same is found in every
  order. -/
theorem PrefixFree.find?_eq
    (hFree : PrefixFree opener items)
    (hSame : ∀ item, item ∈ items ↔ item ∈ permuted)
    (bytes : List UInt8) :
    items.find? (fun item => opens (opener item) bytes) =
      permuted.find?
        fun item => opens (opener item) bytes := by
  symm
  cases hFound :
      items.find? fun item => opens (opener item) bytes with
  | none =>
      rw [List.find?_eq_none] at hFound ⊢
      intro item hMem
      exact hFound item ((hSame item).mpr hMem)
  | some item =>
      have hMem := List.mem_of_find?_eq_some hFound
      have hOpens := List.find?_some hFound
      apply find?_eq_some_of_only ((hSame item).mp hMem)
        hOpens
      intro other hOther hOpens'
      have hMem' := (hSame other).mpr hOther
      rcases prefix_or_of_opens hOpens hOpens' with
        hStart | hStart
      · exact (hFree item hMem other hMem' hStart).symm
      · exact hFree other hMem' item hMem hStart

end Found

/- An opener of a line and one of a block may well share
  their start, as lines come first in every order. -/
structure Apart
    (comments : Comments) :
    Prop where
  lines : PrefixFree id comments.lines
  blocks : PrefixFree Prod.fst comments.blocks

theorem Apart.comment_eq
    (hApart : comments.Apart)
    (hLines : ∀ line,
      line ∈ comments.lines ↔ line ∈ others.lines)
    (hBlocks : ∀ block,
      block ∈ comments.blocks ↔ block ∈ others.blocks)
    (bytes : List UInt8) :
    comments.comment bytes = others.comment bytes := by
  have hLine :
      comments.lines.find? (opens · bytes) =
        others.lines.find? (opens · bytes) :=
    hApart.lines.find?_eq hLines bytes
  have hBlock :
      comments.blocks.find? (opens ·.1 bytes) =
        others.blocks.find? (opens ·.1 bytes) :=
    hApart.blocks.find?_eq hBlocks bytes
  rw [comment, comment, hLine, hBlock]

/-
  Where no opener of a kind is a start of another, rules in
  any order skip alike from every position: to the same
  position with a match, or to the same error at the same
  place.
-/
theorem skipper_order_irrelevant
    {changes permuted : List Rule}
    (rules : Rules)
    (hPermuted : changes.Perm permuted)
    (hBlanks :
      (ofRules changes).blanks = (ofRules permuted).blanks)
    (hApart : (ofRules changes).Apart)
    (hInside : start ≤ data.length) :
    ∃ finish,
      SkipsTo rules (ofRules changes) data start finish ∧
        SkipsTo rules (ofRules permuted) data start
          finish := by
  have hLines : ∀ line,
      line ∈ (ofRules changes).lines ↔
        line ∈ (ofRules permuted).lines := by
    intro line
    unfold ofRules
    rw [mem_lines_foldl, mem_lines_foldl,
      hPermuted.mem_iff]
  have hBlocks : ∀ block,
      block ∈ (ofRules changes).blocks ↔
        block ∈ (ofRules permuted).blocks := by
    intro block
    unfold ofRules
    rw [mem_blocks_foldl, mem_blocks_foldl,
      hPermuted.mem_iff]
  have hPiece : ∀ bytes,
      (ofRules changes).piece bytes =
        (ofRules permuted).piece bytes := by
    intro bytes
    unfold piece startsBlank
    rw [hBlanks, hApart.comment_eq hLines hBlocks]
  refine ⟨_, skipsTo_scan rules _ hInside, ?_⟩
  rw [scan_congr hPiece]
  exact skipsTo_scan rules _ hInside

/- Two kinds of blocks and of lines, in one order and in the
  reverse one, up to a block that is not closed. -/
theorem skipper_order_irrelevant_unterminated :
    let rules : Rules := .empty
    let changes : List Rule :=
      [.line "//", .block "/*" "*/", .blanks true,
        .block "(*" "*)", .line "#"]
    let permuted := changes.reverse
    let data := Utf8.encode " (*/**) // \n/* x"
    changes.Perm permuted ∧
      (ofRules changes).blanks =
        (ofRules permuted).blanks ∧
      (ofRules changes).Apart ∧
      SkipsTo rules (ofRules changes) data 0
        (.unterminated "*/" 14) ∧
      SkipsTo rules (ofRules permuted) data 0
        (.unterminated "*/" 14) := by
  intro rules changes permuted data
  have hPermuted : changes.Perm permuted :=
    (List.reverse_perm changes).symm
  have hApart : (ofRules changes).Apart :=
    ⟨by decide +kernel, by decide +kernel⟩
  have hScan :
      (ofRules changes).scan 0 (data.drop 0) =
        .unterminated "*/" 14 := by
    decide +kernel
  rcases skipper_order_irrelevant rules hPermuted rfl hApart
      (Nat.zero_le data.length) with
    ⟨finish, hSkips, hPermutedSkips⟩
  have hFinish : finish = .unterminated "*/" 14 := by
    rw [← hScan]
    exact hSkips.unique
      (skipsTo_scan rules _ (Nat.zero_le _))
  subst hFinish
  exact ⟨hPermuted, rfl, hApart, hSkips, hPermutedSkips⟩

end Comments

end ByteGrammar
