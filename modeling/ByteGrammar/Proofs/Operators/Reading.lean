import ByteGrammar.Proofs.Operators.Levels
import ByteGrammar.Proofs.Termination.Parses

/-
  Tables of operators read what their expressions print.

  The operands at the left of a chain are those of one spine
  of an expression, so the spine is read from its leftmost
  operand on: what is read of a chain so far is the value of
  a left part of the expression, and the rest goes on from
  there. Both facts, that an expression is read and that it
  starts chains, go through one induction on it.

  Main declarations:
    * `Expression.IsRead`, `Expression.StartsChains`
    * `Expression.reads_spine`
    * `Parser.exists_tryParse_of_comesTo`
    * `Expression.exists_tryParse_print`
-/

------------------------------------------------------------
-- Expressions
------------------------------------------------------------

namespace ByteGrammar

namespace Expression

open OperatorTable

variable {table : OperatorTable}
variable {rules : Rules}
variable {handle : Handle}
variable {data rest : List UInt8}
variable {start stop : Nat}
variable {value : Value}
variable {tree left right : Expression table}

/- No expression takes more levels than there are. -/
theorem rank_le
    (tree : Expression table) :
    tree.rank ≤ table.levels.length := by
  cases tree with
  | leaf _ => exact Nat.zero_le _
  | binary slot _ _ => exact slot.level.isLt

/- What is printed of the expression is read by the levels
  that it takes. -/
def IsRead
    (rules : Rules)
    (handle : Handle)
    (data : List UInt8)
    (tree : Expression table) :
    Prop :=
  ∀ start rest, data.drop start = tree.print ++ rest →
    table.Stops tree.rank rest →
    Reads rules handle data
      (table.reader handle tree.rank) start
      (start + tree.print.length) tree.fold

/- What is printed of the expression starts a chain of a
  level, which can go on with the value of the
  expression. -/
def StartsChains
    (rules : Rules)
    (handle : Handle)
    (data : List UInt8)
    (tree : Expression table) :
    Prop :=
  ∀ (level : Fin table.levels.length) start rest stop value,
    data.drop start =
        enclose (level + 1) tree.rank tree.print ++ rest →
    table.Stops level rest →
    Continues rules handle data (table.reader handle level)
      (table.levels.get level)
      (start +
        (enclose (level + 1) tree.rank tree.print).length)
      tree.fold stop value →
    Reads rules handle data
      (table.reader handle (level + 1)) start stop value

/- With parentheses around it where it takes more levels, an
  expression is read by any levels. -/
theorem IsRead.enclosed
    (hBound : table.BoundIn rules handle)
    (hTree : tree.IsRead rules handle data)
    {allowed : Nat}
    (hAllowed : allowed ≤ table.levels.length)
    (hData :
      data.drop start =
        enclose allowed tree.rank tree.print ++ rest)
    (hStops : table.Stops allowed rest) :
    Reads rules handle data
      (table.reader handle allowed) start
      (start +
        (enclose allowed tree.rank tree.print).length)
      tree.fold := by
  have hRest := drop_add_length hData
  rw [← hRest] at hStops
  by_cases hFits : tree.rank ≤ allowed
  · rw [enclose, if_pos hFits] at hData hStops hRest ⊢
    have hRead :=
      hTree start rest hData
        (hRest ▸ hStops.mono hFits)
    exact reads_lift_le hFits hAllowed hRead
      (Nat.le_add_right ..) hStops
  · rw [enclose, if_neg hFits] at hData hStops ⊢
    have hInner :
        data.drop (start + 1) =
          tree.print ++ 0x29 :: rest := by
      rw [← List.drop_drop, hData]
      simp
    have hClose := drop_add_length hInner
    have hRead :=
      hTree (start + 1) _ hInner (stops_close _ _)
    have hAll :=
      reads_lift_le tree.rank_le (Nat.le_refl _) hRead
        (Nat.le_add_right ..) (hClose ▸ stops_close _ _)
    have hGroup := reads_group hBound hData hAll hClose
    have hLength :
        start + (0x28 :: tree.print ++ [0x29]).length =
          start + 1 + tree.print.length + 1 := by
      simp only [List.cons_append, List.length_cons,
        List.length_append, List.length_nil]
      omega
    rw [hLength] at hStops ⊢
    exact reads_lift_le (Nat.zero_le allowed) hAllowed
      hGroup (by omega) hStops

/- An expression that does not take just the level of the
  chain and those before is its first operand. -/
theorem IsRead.startsChain
    (hBound : table.BoundIn rules handle)
    (hTree : tree.IsRead rules handle data)
    {level : Fin table.levels.length}
    (hRank : tree.rank ≠ level + 1)
    (hData :
      data.drop start =
        enclose (level + 1) tree.rank tree.print ++ rest)
    (hStops : table.Stops level rest)
    (hContinues :
      Continues rules handle data
        (table.reader handle level) (table.levels.get level)
        (start +
          (enclose (level + 1) tree.rank tree.print).length)
        tree.fold stop value) :
    Reads rules handle data
      (table.reader handle (level + 1)) start stop
      value := by
  have hSame :
      enclose (level + 1) tree.rank tree.print =
        enclose level tree.rank tree.print := by
    have hLess :
        tree.rank ≤ level + 1 ↔ tree.rank ≤ level := by
      omega
    simp only [enclose, hLess]
  rw [hSame] at hData hContinues
  rw [reader_succ]
  exact reads_chain (table.nodup_split level).1
    (hTree.enclosed hBound (Nat.le_of_lt level.isLt) hData
      hStops)
    (Nat.le_add_right ..) hContinues

/- The left operand starts a chain, which goes on with the
  operator and the right operand. -/
theorem reads_spine
    (hBound : table.BoundIn rules handle)
    {slot : table.Slot}
    (hLeft : left.StartsChains rules handle data)
    (hRight : right.IsRead rules handle data)
    (hData :
      data.drop start =
        (binary slot left right).print ++ rest)
    (hStops : table.Stops slot.level rest)
    (hContinues :
      Continues rules handle data
        (table.reader handle slot.level)
        (table.levels.get slot.level)
        (start + (binary slot left right).print.length)
        (binary slot left right).fold stop value) :
    Reads rules handle data
      (table.reader handle (slot.level + 1))
      start stop value := by
  rw [print, List.append_assoc, List.cons_append] at hData
  have hOperator := drop_add_length hData
  have hOperand :
      data.drop
          (start +
            (enclose (slot.level + 1) left.rank
              left.print).length + 1) =
        enclose slot.level right.rank right.print ++
          rest := by
    rw [← List.drop_drop, hOperator]
    rfl
  have hRead :=
    hRight.enclosed hBound (Nat.le_of_lt slot.level.isLt)
      hOperand hStops
  have hLength :
      start + (binary slot left right).print.length =
        start +
          (enclose (slot.level + 1) left.rank
            left.print).length + 1 +
          (enclose slot.level right.rank
            right.print).length := by
    rw [print, List.length_append, List.length_cons]
    omega
  rw [hLength] at hContinues
  exact hLeft slot.level start _ stop value hData
    (stops_operator slot _)
    (.again slot.getElem?_place hOperator hRead (by omega)
      hContinues)

theorem isRead_leaf
    (numeral : Numeral) :
    (leaf numeral : Expression table).IsRead rules handle
      data := by
  intro start rest hData hStops
  exact reads_numeral numeral hData hStops

/- The chain of an expression is done where no operator of
  its level follows. -/
theorem isRead_binary
    (hBound : table.BoundIn rules handle)
    {slot : table.Slot}
    (hLeft : left.StartsChains rules handle data)
    (hRight : right.IsRead rules handle data) :
    (binary slot left right).IsRead rules handle data := by
  intro start rest hData hStops
  have hRest := drop_add_length hData
  apply reads_spine hBound hLeft hRight hData
    (hStops.mono (Nat.le_succ _))
  apply Continues.done
  rw [hRest]
  intro byte hByte
  exact hStops.level hByte

theorem startsChains_leaf
    (hBound : table.BoundIn rules handle)
    (numeral : Numeral) :
    (leaf numeral : Expression table).StartsChains rules
      handle data := by
  intro level start rest stop value hData hStops hContinues
  exact (isRead_leaf numeral).startsChain hBound
    (Nat.succ_ne_zero _).symm hData hStops hContinues

/- At its own level, the chain of an expression goes on. At
  another, the expression is an operand. -/
theorem startsChains_binary
    (hBound : table.BoundIn rules handle)
    {slot : table.Slot}
    (hLeft : left.StartsChains rules handle data)
    (hRight : right.IsRead rules handle data) :
    (binary slot left right).StartsChains rules handle
      data := by
  intro level start rest stop value hData hStops hContinues
  by_cases hLevel : slot.level = level
  · subst hLevel
    have hOpen :
        enclose (slot.level + 1)
            (binary slot left right).rank
            (binary slot left right).print =
          (binary slot left right).print :=
      if_pos (Nat.le_refl _)
    rw [hOpen] at hData hContinues
    exact reads_spine hBound hLeft hRight hData hStops
      hContinues
  · have hRank :
        (binary slot left right).rank ≠ level + 1 := by
      intro hSame
      exact hLevel (Fin.ext (Nat.succ.inj hSame))
    exact (isRead_binary hBound hLeft hRight).startsChain
      hBound hRank hData hStops hContinues

/- Every expression is read, and starts chains. -/
theorem isRead_and_startsChains
    (hBound : table.BoundIn rules handle)
    (tree : Expression table) :
    tree.IsRead rules handle data ∧
      tree.StartsChains rules handle data := by
  induction tree with
  | leaf numeral =>
      exact ⟨isRead_leaf numeral,
        startsChains_leaf hBound numeral⟩
  | binary slot left right hLeft hRight =>
      exact ⟨isRead_binary hBound hLeft.2 hRight.1,
        startsChains_binary hBound hLeft.2 hRight.1⟩

end Expression

end ByteGrammar

------------------------------------------------------------
-- Whole Inputs
------------------------------------------------------------

namespace ByteGrammar

namespace Parser

/- With detection of loops, what a parser comes to is the
  outcome of a whole parse. -/
theorem exists_tryParse_of_comesTo
    {rules : Rules}
    {parser : Parser}
    {options : Options}
    {input : String}
    {found : Match}
    (hDetects : options.loopDetection = true)
    (hFound :
      ComesTo rules (Utf8.encode input)
        (· = Context.fresh options) 0 parser (.matched found)
        (Utf8.encode input).length) :
    ∃ report,
      parser.tryParse rules options input = some report ∧
        report.result = .ok found.value := by
  let start : State :=
    ⟨.ofBytes (Utf8.encode input), .fresh options⟩
  rcases hFound with ⟨least, hLeast⟩
  rcases hLeast least (Nat.le_refl least) start.cursor
      start.context rfl rfl rfl with
    ⟨last, events, hRun, hData, hStop⟩
  have hParse : parser.parse rules start = some _ :=
    parse_eq_of_run hDetects (Nat.zero_le _) hRun
  refine ⟨_, congrArg (Option.map _) hParse, ?_⟩
  have hEnd : last.atEnd = true := by
    simp [Cursor.atEnd, hData, hStop]
  simp [Report.ofStep, hEnd]

end Parser

namespace Expression

open OperatorTable

/-
  The grammar of a table reads what is printed of an
  expression: the whole of it, for the value of the
  expression.
-/
theorem exists_tryParse_print
    (table : OperatorTable)
    (rules : Rules)
    (tree : Expression table)
    {input : String}
    (hInput : Utf8.encode input = tree.print) :
    ∃ handle built,
      table.grammar rules = .ok (handle, built) ∧
      ∃ report,
        (Parser.rule handle).tryParse built .standard
            input =
            some report ∧
          report.result = .ok tree.fold := by
  rcases table.exists_grammar rules with
    ⟨handle, built, hGrammar, hBound⟩
  refine ⟨handle, built, hGrammar, ?_⟩
  have hData :
      (Utf8.encode input).drop 0 = tree.print ++ [] := by
    rw [List.drop_zero, List.append_nil, hInput]
  have hRead :=
    (isRead_and_startsChains hBound tree).1 0 [] hData
      (stops_nil _)
  have hRest := drop_add_length hData
  have hAll :=
    reads_lift_le tree.rank_le (Nat.le_refl _) hRead
      (Nat.zero_le _) (hRest ▸ stops_nil _)
  rw [Nat.zero_add, ← hInput] at hAll
  have hRule := Parser.ComesTo.rule hBound hAll
  apply Parser.exists_tryParse_of_comesTo rfl
    (hRule.mono ?_)
  rintro _ rfl
  exact Context.clear_fresh rfl _ 0

/- Two levels of arithmetic, and an expression in which the
  left operand binds looser and a right operand binds the
  same. -/
theorem exists_tryParse_print_parentheses :
    let table : OperatorTable :=
      { levels :=
          [[⟨0x2A, .bin "mul"⟩],
            [⟨0x2B, .bin "add"⟩, ⟨0x2D, .bin "sub"⟩]]
        nonempty := List.cons_ne_nil _ _
        distinct := by decide
        apart := by decide }
    let mul : table.Slot := ⟨⟨0, by decide⟩, ⟨0, by decide⟩⟩
    let sub : table.Slot := ⟨⟨1, by decide⟩, ⟨1, by decide⟩⟩
    let three : Numeral := ⟨"3", by decide, rfl⟩
    let eighty : Numeral := ⟨"80", by decide, rfl⟩
    let tree : Expression table :=
      .binary mul
        (.binary sub (.leaf eighty)
          (.binary sub (.leaf three) (.leaf three)))
        (.leaf eighty)
    let value : Value :=
      .bin "mul"
        (.bin "sub" (.str "80")
          (.bin "sub" (.str "3") (.str "3")))
        (.str "80")
    Utf8.encode "(80-(3-3))*80" = tree.print ∧
      ∃ handle built,
        table.grammar .empty = .ok (handle, built) ∧
        ∃ report,
          (Parser.rule handle).tryParse built .standard
              "(80-(3-3))*80" =
            some report ∧
          report.result = .ok value := by
  intro table mul sub three eighty tree value
  have hInput : Utf8.encode "(80-(3-3))*80" = tree.print :=
    rfl
  exact ⟨hInput,
    exists_tryParse_print table .empty tree hInput⟩

end Expression

end ByteGrammar
