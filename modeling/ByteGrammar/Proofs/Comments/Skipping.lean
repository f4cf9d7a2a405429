import ByteGrammar.Proofs.Comments.Scanner
import ByteGrammar.Proofs.Engine.Forms

/-
  The whitespace parser of some rules does what the scanner
  does.

  The scanner takes blanks one by one and the parser takes a
  run of them at once, so the two are compared by stretches:
  a run of blanks or a comment.

  Main declarations:
    * `Comments.Takes`, `Comments.takes_stretch`
    * `Comments.TakesStretches`
    * `Comments.comesTo_skipper`
    * `Comments.parse_skipper_eq_scan`
-/

------------------------------------------------------------
-- Comments
------------------------------------------------------------

namespace ByteGrammar

namespace Comments

namespace Piece

/- What a parser comes to that takes the piece at a
  position. -/
def outcome
    (start : Nat) :
    Piece → Outcome Match
  | nothing => .failed
  | taken length => .matched ⟨start, start + length, .unit⟩
  | unterminated closer length =>
      .fatal (.committed (Comments.unterminated closer)
        (start + length))

/- Where it stops. -/
def stop
    (start : Nat) :
    Piece → Nat
  | nothing => start
  | taken length => start + length
  | unterminated _ length => start + length

end Piece

/- From a position on, the parser takes the piece. -/
def Takes
    (rules : Rules)
    (data : List UInt8)
    (start : Nat)
    (parser : Parser)
    (piece : Piece) :
    Prop :=
  Parser.ComesTo rules data (fun _ => True) start parser
    (piece.outcome start) (piece.stop start)

variable {rules : Rules}
variable {data : List UInt8}
variable {start : Nat}
variable {opener closer : String}

/- An opener leaves the position inside the buffer. -/
theorem opener_inside
    (hInside : start ≤ data.length)
    (hOpens : opens opener (data.drop start) = true) :
    start + (Utf8.encode opener).length ≤ data.length := by
  have hLe :=
    (List.isPrefixOf_iff_prefix.mp hOpens).length_le
  rw [List.length_drop] at hLe
  omega

/- A text is found where it occurs first. -/
theorem takeUntil_of_firstAt?
    {text : String}
    {count : Nat}
    {orEnd : Bool}
    (hInside : start ≤ data.length)
    (hFirst :
      firstAt? (Utf8.encode text) (data.drop start) =
        some count) :
    Parser.ComesTo rules data (fun _ => True) start
      (.takeUntil orEnd (.text text))
      (.matched ⟨start, start + count,
        .region (Region.between start (start + count))⟩)
      (start + count) :=
  .takeUntil_text (Nat.le_add_right start count)
    (not_prefix_of_firstAt?_eq_some hFirst)
    (le_of_firstAt?_eq_some hInside hFirst)
    (prefix_of_firstAt?_eq_some hFirst)

theorem takes_lineComment
    (hInside : start ≤ data.length)
    (hOpens : opens opener (data.drop start) = true) :
    Takes rules data start
      (.discard (lineComment opener))
      (linePiece opener (data.drop start)) := by
  have hPrefix := List.isPrefixOf_iff_prefix.mp hOpens
  have hBody := opener_inside hInside hOpens
  unfold linePiece Takes
  dsimp only
  rw [List.drop_drop]
  split
  next body hFirst =>
    have hSearch :
        Parser.ComesTo rules data (fun _ => True)
          (start + (Utf8.encode opener).length)
          (.takeUntil true (.text "\n")) _ _ :=
      takeUntil_of_firstAt? hBody hFirst
    rw [Nat.add_assoc] at hSearch
    exact .map _ (.sequence _ (.text_hit hInside hPrefix)
      hSearch)
  next hFirst =>
    have hSearch :
        Parser.ComesTo rules data (fun _ => True)
          (start + (Utf8.encode opener).length)
          (.takeUntil true (.text "\n")) _ _ :=
      .takeUntil_text_end hBody
        (not_prefix_of_firstAt?_eq_none hFirst)
    have hEnd :
        start + (data.drop start).length = data.length := by
      rw [List.length_drop]
      omega
    simp only [Piece.outcome, Piece.stop, hEnd]
    exact .map _ (.sequence _ (.text_hit hInside hPrefix)
      hSearch)

theorem takes_blockComment
    (hInside : start ≤ data.length)
    (hOpens : opens opener (data.drop start) = true) :
    Takes rules data start
      (.discard (blockComment opener closer))
      (blockPiece opener closer (data.drop start)) := by
  have hPrefix := List.isPrefixOf_iff_prefix.mp hOpens
  have hBody := opener_inside hInside hOpens
  unfold blockPiece Takes
  dsimp only
  rw [List.drop_drop]
  split
  next body hFirst =>
    have hSearch :
        Parser.ComesTo rules data (fun _ => True)
          (start + (Utf8.encode opener).length)
          (.takeUntil false (.text closer)) _ _ :=
      takeUntil_of_firstAt? hBody hFirst
    have hCloser :
        Parser.ComesTo rules data (fun _ => True)
          (start + (Utf8.encode opener).length + body)
          (.text closer) _ _ :=
      .text_hit (le_of_firstAt?_eq_some hBody hFirst)
        (prefix_of_firstAt?_eq_some hFirst)
    simp only [Piece.outcome, Piece.stop, ← Nat.add_assoc]
    exact .map _ (.sequence _ (.text_hit hInside hPrefix)
      (.expect _ (.sequence _ hSearch hCloser)))
  next hFirst =>
    have hSearch :
        Parser.ComesTo rules data (fun _ => True)
          (start + (Utf8.encode opener).length)
          (.takeUntil false (.text closer)) .failed _ :=
      .takeUntil_text_failed hBody
        (not_prefix_of_firstAt?_eq_none hFirst)
    exact .map_fatal _ (.sequence_fatal _
      (.text_hit hInside hPrefix)
      (.expect_failed _ (.sequence_failed _ hSearch)))

/- A comment does not start without its opener. -/
theorem takes_nothing
    {body : Parser}
    (hOpens : opens opener (data.drop start) = false) :
    Takes rules data start
      (.discard (.both (.text opener) body)) .nothing := by
  have hPrefix :
      ¬ Utf8.encode opener <+: data.drop start := by
    rw [← List.isPrefixOf_iff_prefix]
    exact Bool.eq_false_iff.mp hOpens
  exact .map_failed _
    (.sequence_failed _ (.text_miss hPrefix))

end Comments

end ByteGrammar

------------------------------------------------------------
-- Pieces
------------------------------------------------------------

namespace ByteGrammar

namespace Comments

variable {comments : Comments}
variable {rules : Rules}
variable {data : List UInt8}
variable {start : Nat}

/- What counts as one comment: the comments of a line first,
  then the others. -/
def commentPieces
    (comments : Comments) :
    List Parser :=
  comments.lines.map (fun opener =>
      Parser.discard (lineComment opener)) ++
    comments.blocks.map fun (opener, closer) =>
      Parser.discard (blockComment opener closer)

theorem pieces_eq
    (comments : Comments) :
    comments.pieces =
      (if comments.blanks then
        [Parser.discard .whitespaces]
      else []) ++ comments.commentPieces :=
  List.append_assoc ..

theorem linePiece_settled
    (opener : String)
    (bytes : List UInt8) :
    (linePiece opener bytes).outcome start ≠ .failed := by
  simp only [linePiece]
  split <;> simp [Piece.outcome]

theorem blockPiece_settled
    (opener closer : String)
    (bytes : List UInt8) :
    (blockPiece opener closer bytes).outcome start ≠
      .failed := by
  simp only [blockPiece]
  split <;> simp [Piece.outcome]

theorem takes_comment
    (hInside : start ≤ data.length) :
    Takes rules data start (.choice comments.commentPieces)
      (comments.comment (data.drop start)) := by
  unfold commentPieces comment Takes
  rw [← List.append_nil (comments.blocks.map _)]
  apply Parser.ComesTo.choice_map (opens · (data.drop start))
  · intro opener hOpens
    exact takes_nothing hOpens
  · intro opener hFound
    have hOpens := List.find?_some hFound
    rw [hFound]
    exact ⟨takes_lineComment hInside hOpens,
      linePiece_settled _ _⟩
  · intro hNone
    rw [hNone]
    apply Parser.ComesTo.choice_map
      (opens ·.1 (data.drop start))
    · intro block hOpens
      exact takes_nothing hOpens
    · intro block hFound
      have hOpens := List.find?_some hFound
      rw [hFound]
      exact ⟨takes_blockComment hInside hOpens,
        blockPiece_settled _ _ _⟩
    · intro hNone
      rw [hNone]
      exact .choice_nil

/- The run of blanks that a position starts. -/
theorem scan_whitespaces
    (bytes : List UInt8) :
    (Terminal.run Blank.isAny 1 none).scan bytes =
      if bytes.head?.any Blank.isAny then
        Scan.covered (bytes.takeWhile Blank.isAny).length
      else .miss := by
  cases bytes with
  | nil => rfl
  | cons byte rest =>
      cases hBlank : Blank.isAny byte <;>
        simp [Terminal.scan, Terminal.scanRun, hBlank]

/- The choice takes a run of blanks or a comment. -/
theorem takes_stretch
    (hInside : start ≤ data.length) :
    Takes rules data start (.choice comments.pieces)
      (comments.stretch (data.drop start)) := by
  have hComment :
      Takes rules data start (.choice comments.commentPieces)
        (comments.comment (data.drop start)) :=
    takes_comment hInside
  have hRun := scan_whitespaces (data.drop start)
  rw [pieces_eq]
  unfold stretch startsBlank
  cases hBlanks : comments.blanks with
  | false => exact hComment
  | true =>
      cases hBlank :
          (data.drop start).head?.any Blank.isAny with
      | true =>
          rw [hBlank] at hRun
          have hLe :=
            (List.takeWhile_sublist
              Blank.isAny (l := data.drop start)).length_le
          rw [List.length_drop] at hLe
          exact .either_first
            (.map _ (.terminal_hit hRun (by omega)))
      | false =>
          rw [hBlank] at hRun
          exact .either_second
            (.map_failed _ (.terminal_miss hRun)) hComment

end Comments

end ByteGrammar

------------------------------------------------------------
-- The Loop
------------------------------------------------------------

namespace ByteGrammar

namespace Comments

variable {comments : Comments}
variable {rules : Rules}
variable {data : List UInt8}
variable {start : Nat}

/- From every position, the action takes a run of blanks or
  a comment. -/
def TakesStretches
    (comments : Comments)
    (data : List UInt8)
    (action : Action Match) :
    Prop :=
  ∀ start, start ≤ data.length →
    Action.ComesTo data (fun _ => True) start action
      ((comments.stretch (data.drop start)).outcome start)
      ((comments.stretch (data.drop start)).stop start)

/- Its repetition comes to where the scan stops. -/
theorem TakesStretches.iterate
    {action : Action Match}
    (hAction : comments.TakesStretches data action)
    (limit : Nat)
    (values : List Value)
    (hInside : start ≤ data.length)
    (hLimit : data.length - start < limit) :
    ∃ collected : List Value,
      Action.ComesTo data (fun _ => True) start
        (Action.iterate (Action.collectPass none action)
          limit values)
        ((comments.scan start (data.drop start)).outcome
          collected)
        (comments.scan start (data.drop start)).position := by
  induction limit generalizing start values with
  | zero => cases hLimit
  | succ limit ih =>
      have hPass := hAction start hInside
      rw [scan_eq_stretch]
      cases hPiece : comments.stretch (data.drop start) with
      | nothing =>
          rw [hPiece] at hPass
          exact ⟨values,
            .iterate_done limit (.collectPass_failed hPass)⟩
      | unterminated closer length =>
          rw [hPiece] at hPass
          exact ⟨[],
            .iterate_fatal limit (.collectPass_fatal hPass)⟩
      | taken length =>
          rw [hPiece] at hPass
          have hLe := stretch_taken_le hPiece
          rw [List.length_drop] at hLe
          dsimp only
          split
          next hFewer =>
            simp only [List.length_drop] at hFewer
            have hNext : start + length ≤ data.length := by
              omega
            rcases ih (values ++ [.unit]) hNext (by omega)
              with ⟨collected, hRest⟩
            rw [List.drop_drop]
            refine ⟨collected,
              .iterate_again (.collectPass_again hPass ?_)
                hRest⟩
            dsimp only
            omega
          next hNotFewer =>
            simp only [List.length_drop] at hNotFewer
            have hZero : length = 0 := by omega
            subst hZero
            exact ⟨values ++ [.unit],
              .iterate_done limit
                (.collectPass_last hPass rfl)⟩

end Comments

end ByteGrammar

------------------------------------------------------------
-- The Whole Parser
------------------------------------------------------------

namespace ByteGrammar

namespace Comments

variable {comments : Comments}
variable {rules : Rules}
variable {data : List UInt8}
variable {start : Nat}

theorem unscoped_pieces
    (comments : Comments) :
    (Parser.choice comments.pieces).Every
      (·.isScoped = false) := by
  apply Parser.unscoped_choice
  intro part hPart
  simp only [pieces, List.mem_append, List.mem_map] at hPart
  rcases hPart with (hBlanks | ⟨opener, -, rfl⟩) |
    ⟨block, -, rfl⟩
  · split at hBlanks
    · rw [List.mem_singleton] at hBlanks
      subst hBlanks
      exact ⟨rfl, rfl, trivial⟩
    · cases hBlanks
  · simp [lineComment, Parser.both, Parser.discard,
      Parser.supply, Parser.text, Parser.Every,
      Parser.isScoped]
  · simp [blockComment, Parser.both, Parser.discard,
      Parser.supply, Parser.text, Parser.Every,
      Parser.isScoped]

theorem unscoped_skipper
    (comments : Comments) :
    comments.skipper.Every (·.isScoped = false) :=
  ⟨rfl, rfl, unscoped_pieces comments⟩

/- The whitespace parser comes to what the scan comes to. -/
theorem comesTo_skipper
    (hInside : start ≤ data.length) :
    Parser.ComesTo rules data (fun _ => True) start
      comments.skipper
      ((comments.scan start (data.drop start)).outcome
        ⟨start,
          (comments.scan start (data.drop start)).position,
          .unit⟩)
      (comments.scan start (data.drop start)).position := by
  -- The passes of the loop need one depth for all.
  apply Parser.ComesTo.of_step
    ((Parser.choice comments.pieces).size + 1)
  intro depth hDepth
  cases depth with
  | zero => cases hDepth
  | succ depth =>
      have hPass :
          comments.TakesStretches data
            ((Parser.choice comments.pieces).run rules
              depth) := by
        intro start hInside
        exact (takes_stretch hInside).run_of_unscoped
          (unscoped_pieces comments)
          (Nat.le_of_succ_le_succ hDepth)
      rcases hPass.iterate _ [] hInside
          (Nat.lt_succ_self _) with
        ⟨collected, hIterate⟩
      have hStep :
          comments.skipper.step rules
              (Parser.run rules (depth + 1)) =
            Action.map (fun _ => .unit)
              (Action.repeated 0 none
                ((Parser.choice comments.pieces).run rules
                  depth)) := rfl
      rw [hStep]
      cases hScan : comments.scan start (data.drop start) with
      | stopped stop =>
          rw [hScan] at hIterate
          exact .map _ (.many (.loop hIterate))
      | unterminated closer stop =>
          rw [hScan] at hIterate
          exact .map_fatal _ (.many_fatal (.loop hIterate))

/-
  With openers that are not empty, the whitespace parser
  does in every context what the scanner does: it matches up
  to where the scan stops, or raises the error of a block
  comment that is not closed right after its opener. It does
  not fail, and where it stops, nothing more is to be
  skipped.
-/
theorem parse_skipper_eq_scan
    {cursor : Cursor}
    (rules : Rules)
    (context : Context)
    (hOpened : comments.Opened)
    (hInside : cursor.position ≤ cursor.data.length) :
    let finish :=
      comments.scan cursor.position cursor.remaining
    ∃ last events,
      comments.skipper.parse rules ⟨cursor, context⟩ =
          some
            ⟨finish.outcome
                ⟨cursor.position, finish.position, .unit⟩,
              ⟨last, context⟩, events⟩ ∧
        last.data = cursor.data ∧
        last.position = finish.position ∧
        ∀ stop, finish = .stopped stop →
          comments.piece (cursor.data.drop stop) =
            .nothing := by
  have hUnscoped :
      comments.skipper.Every (·.isScoped = false) :=
    unscoped_skipper comments
  have hComes :
      Parser.ComesTo rules cursor.data (fun _ => True)
        cursor.position comments.skipper _ _ :=
    comesTo_skipper hInside
  rcases hComes.parse_of_unscoped hUnscoped cursor context
      rfl rfl trivial with
    ⟨last, events, hRun, hData, hPosition⟩
  refine ⟨last, events, hRun, hData, hPosition, ?_⟩
  intro stop hStopped
  exact hOpened.piece_of_scan_stopped rfl hStopped

/- A block that closes on the second star after its body, a
  line up to its newline and a blank after it, and then a
  block whose opener is not closed by its own star. -/
theorem parse_skipper_eq_scan_overlapping :
    let comments : Comments :=
      ⟨true, ["//"], [("/*", "*/")]⟩
    let rules : Rules := .empty
    let context : Context := .fresh .standard
    let closed : Cursor :=
      .ofBytes (Utf8.encode "/* a **/// b\n c")
    let unclosed : Cursor :=
      .ofBytes (Utf8.encode " //\n/*/")
    comments.Opened ∧
      (closed.position ≤ closed.data.length ∧
        unclosed.position ≤ unclosed.data.length) ∧
      (∃ last events,
        comments.skipper.parse rules ⟨closed, context⟩ =
          some ⟨.matched ⟨0, 14, .unit⟩, ⟨last, context⟩,
            events⟩) ∧
      ∃ last events,
        comments.skipper.parse rules ⟨unclosed, context⟩ =
          some
            ⟨.fatal (.committed
                "unterminated block comment, expected `*/`"
                6),
              ⟨last, context⟩, events⟩ := by
  intro comments rules context closed unclosed
  have hOpened : comments.Opened :=
    ⟨by simp [comments], by simp [comments]⟩
  have hClosed : closed.position ≤ closed.data.length :=
    Nat.zero_le _
  have hUnclosed :
      unclosed.position ≤ unclosed.data.length :=
    Nat.zero_le _
  have hStopped :
      comments.scan closed.position closed.remaining =
        .stopped 14 := by
    decide +kernel
  have hUnterminated :
      comments.scan unclosed.position unclosed.remaining =
        .unterminated "*/" 6 := by
    decide +kernel
  refine ⟨hOpened, ⟨hClosed, hUnclosed⟩, ?_, ?_⟩
  · rcases parse_skipper_eq_scan rules context hOpened
        hClosed with
      ⟨last, events, hRun, -⟩
    rw [hStopped] at hRun
    exact ⟨last, events, hRun⟩
  · rcases parse_skipper_eq_scan rules context hOpened
        hUnclosed with
      ⟨last, events, hRun, -⟩
    rw [hUnterminated] at hRun
    exact ⟨last, events, hRun⟩

end Comments

end ByteGrammar
