import ByteGrammar.Proofs.Engine.ComesTo
import ByteGrammar.Proofs.Operators.Alternatives
import ByteGrammar.Proofs.Operators.Expression

/-
  What the levels of a table of operators read.

  A level reads a chain: an operand, and then operators with
  operands for as long as they follow. Its operands are what
  the level before reads. What a level reads, the next level
  reads as well where none of its operators follows.

  Main declarations:
    * `Operator.choice_hit`, `Operator.choice_miss`
    * `OperatorTable.Reads`, `OperatorTable.Continues`
    * `OperatorTable.reads_chain`
    * `OperatorTable.reads_numeral`
    * `OperatorTable.reads_group`
    * `OperatorTable.reads_lift`
-/

------------------------------------------------------------
-- Bytes and Digits
------------------------------------------------------------

namespace ByteGrammar

namespace Parser

namespace ComesTo

variable {rules : Rules}
variable {data bytes rest : List UInt8}
variable {admitted : Context → Prop}
variable {start : Nat}
variable {byte : UInt8}

theorem byte_hit
    (hData : data.drop start = byte :: rest) :
    ComesTo rules data admitted start (.byte byte)
      (.matched ⟨start, start + 1, .byte byte⟩)
      (start + 1) := by
  have hScan :
      (Terminal.byteWhere (· == byte)).scan
          (data.drop start) =
        .hit 1 fun _ => .byte byte := by
    rw [hData]
    simp [Terminal.scan, Terminal.scanByte]
  have hLength := congrArg List.length hData
  rw [List.length_drop, List.length_cons] at hLength
  exact terminal_hit hScan (by omega)

theorem byte_miss
    (hByte : ∀ other, (data.drop start).head? = some other →
      byte ≠ other) :
    ComesTo rules data admitted start (.byte byte) .failed
      start := by
  apply terminal_miss
  cases hData : data.drop start with
  | nil => rfl
  | cons other rest =>
      have hOther : other ≠ byte :=
        (hByte other (by rw [hData]; rfl)).symm
      simp [Terminal.scan, Terminal.scanByte, hOther]

/- The longest run of digits. -/
theorem digits_hit
    (hNonempty : bytes ≠ [])
    (hDecimal : ∀ byte ∈ bytes,
      Digits.isDecimal byte = true)
    (hRest : ∀ byte, rest.head? = some byte →
      Digits.isDecimal byte = false)
    (hData : data.drop start = bytes ++ rest) :
    ComesTo rules data admitted start digits
      (.matched ⟨start, start + bytes.length,
        .region ⟨start, bytes.length⟩⟩)
      (start + bytes.length) := by
  have hNone : rest.takeWhile Digits.isDecimal = [] := by
    cases rest with
    | nil => rfl
    | cons byte rest => simp [hRest byte rfl]
  have hScan :
      (Terminal.run Digits.isDecimal 1 none).scan
          (data.drop start) =
        Scan.covered bytes.length := by
    have hPositive := List.length_pos_iff.mpr hNonempty
    rw [hData]
    simp only [Terminal.scan, Terminal.scanRun]
    rw [List.takeWhile_append_of_pos hDecimal, hNone,
      List.append_nil, if_neg (by omega)]
  have hLength := congrArg List.length hData
  rw [List.length_drop, List.length_append] at hLength
  have hPositive := List.length_pos_iff.mpr hNonempty
  exact terminal_hit hScan (by omega)

theorem digits_miss
    (hByte : ∀ byte, (data.drop start).head? = some byte →
      Digits.isDecimal byte = false) :
    ComesTo rules data admitted start digits .failed
      start := by
  apply terminal_miss
  cases hData : data.drop start with
  | nil => rfl
  | cons byte rest =>
      have hNone := hByte byte (by rw [hData]; rfl)
      simp [Terminal.scan, Terminal.scanRun, hNone]

end ComesTo

end Parser

end ByteGrammar

------------------------------------------------------------
-- Operators
------------------------------------------------------------

namespace ByteGrammar

namespace Operator

/- The matchers of operators that are bytes, numbered from
  some number on. -/
def taggedFrom
    (first : Nat) :
    List ByteOperator → List Parser
  | [] => []
  | sign :: signs =>
      Parser.supply (.u64 first) (.byte sign.byte) ::
        taggedFrom (first + 1) signs

theorem tagged_map
    (signs : List ByteOperator) :
    tagged (signs.map ByteOperator.operator) =
      taggedFrom 0 signs := by
  have hFrom : ∀ first,
      ((signs.map ByteOperator.operator).zipIdx first).map
          (fun entry =>
            Parser.supply (.u64 entry.2) entry.1.matcher) =
        taggedFrom first signs := by
    induction signs with
    | nil => exact fun _ => rfl
    | cons sign signs ih =>
        intro first
        rw [List.map_cons, List.zipIdx_cons, List.map_cons,
          ih]
        rfl
  exact hFrom 0

theorem combineAt_map
    {signs : List ByteOperator}
    {place : Nat}
    {sign : ByteOperator}
    (hPlace : signs[place]? = some sign)
    (left right : Value) :
    combineAt (signs.map ByteOperator.operator) left
        (.u64 place) right =
      sign.combine left right := by
  simp [combineAt, hPlace, ByteOperator.operator]

variable {rules : Rules}
variable {data rest : List UInt8}
variable {admitted : Context → Prop}
variable {start : Nat}
variable {signs : List ByteOperator}

/- An operator is told by its byte. -/
theorem choice_hit
    (first : Nat)
    {place : Nat}
    {sign : ByteOperator}
    (hDistinct : (signs.map ByteOperator.byte).Nodup)
    (hPlace : signs[place]? = some sign)
    (hData : data.drop start = sign.byte :: rest) :
    Parser.ComesTo rules data admitted start
      (Parser.choice (taggedFrom first signs))
      (.matched ⟨start, start + 1, .u64 (first + place)⟩)
      (start + 1) := by
  induction signs generalizing first place with
  | nil => cases hPlace
  | cons other signs ih =>
      rw [List.map_cons, List.nodup_cons] at hDistinct
      cases place with
      | zero =>
          cases hPlace
          exact .either_first (.map _ (.byte_hit hData))
      | succ place =>
          have hOther : other.byte ≠ sign.byte := by
            intro hSame
            apply hDistinct.1
            rw [hSame]
            exact List.mem_map_of_mem
              (List.mem_of_getElem? hPlace)
          have hMiss :
              Parser.ComesTo rules data admitted start
                (.supply (.u64 first) (.byte other.byte))
                .failed start := by
            apply Parser.ComesTo.map_failed
            apply Parser.ComesTo.byte_miss
            rw [hData]
            intro byte hByte
            cases hByte
            exact hOther
          have hRest := ih (first + 1) hDistinct.2 hPlace
          rw [Nat.add_right_comm, Nat.add_assoc] at hRest
          exact .either_second hMiss hRest

theorem choice_miss
    (first : Nat)
    (hByte : ∀ byte, (data.drop start).head? = some byte →
      ∀ sign ∈ signs, sign.byte ≠ byte) :
    Parser.ComesTo rules data admitted start
      (Parser.choice (taggedFrom first signs)) .failed
      start := by
  induction signs generalizing first with
  | nil => exact .terminal_miss rfl
  | cons sign signs ih =>
      have hMiss :
          Parser.ComesTo rules data admitted start
            (.supply (.u64 first) (.byte sign.byte))
            .failed start := by
        apply Parser.ComesTo.map_failed
        apply Parser.ComesTo.byte_miss
        intro byte hHead
        exact hByte byte hHead sign (List.mem_cons_self ..)
      apply Parser.ComesTo.either_second hMiss
      apply ih
      intro byte hHead other hOther
      exact hByte byte hHead other
        (List.mem_cons_of_mem _ hOther)

end Operator

end ByteGrammar

------------------------------------------------------------
-- Levels
------------------------------------------------------------

namespace ByteGrammar

namespace OperatorTable

/- A parser matches from a position to another with a value,
  while a rule has not run after the former. -/
def Reads
    (rules : Rules)
    (handle : Handle)
    (data : List UInt8)
    (parser : Parser)
    (start stop : Nat)
    (value : Value) :
    Prop :=
  Parser.ComesTo rules data
    (Context.Clear (rules.idOf handle) (start + 1)) start
    parser (.matched ⟨start, stop, value⟩) stop

/-
  How a chain goes on from where it stands with the value it
  has so far. It ends where no operator follows, and goes on
  with an operator and an operand.
-/
inductive Continues
    (rules : Rules)
    (handle : Handle)
    (data : List UInt8)
    (operand : Parser)
    (signs : List ByteOperator) :
    Nat → Value → Nat → Value → Prop where
  | done {place : Nat} {value : Value}
      (hByte : ∀ byte,
        (data.drop place).head? = some byte →
          ∀ sign ∈ signs, sign.byte ≠ byte) :
      Continues rules handle data
        operand signs place value place value
  | again {start middle stop place : Nat}
      {left right value : Value} {sign : ByteOperator}
      {rest : List UInt8}
      (hPlace : signs[place]? = some sign)
      (hData : data.drop start = sign.byte :: rest)
      (hRight :
        Reads rules handle data
          operand (start + 1) middle right)
      (hMoved : start < middle)
      (hRest :
        Continues rules handle data operand signs middle
          (sign.combine left right) stop value) :
      Continues rules handle data
        operand signs start left stop value

variable {rules : Rules}
variable {handle : Handle}
variable {data : List UInt8}
variable {operand : Parser}
variable {signs : List ByteOperator}

/- One pass of the chain of a level, down to a depth. -/
def levelPass
    (rules : Rules)
    (operand : Parser)
    (signs : List ByteOperator)
    (depth : Nat)
    (taken : Nat × Value) :
    Action (Pass (Nat × Value) (Nat × Value)) :=
  Action.chainPass
    (Operator.combineAt (signs.map ByteOperator.operator))
    (operand.run rules depth)
    ((Parser.choice (Operator.tagged
      (signs.map ByteOperator.operator))).run rules depth)
    taken

/- A chain is done where no operator follows, in every
  context. -/
theorem levelPass_done
    {start : Nat}
    (hByte : ∀ byte, (data.drop start).head? = some byte →
      ∀ sign ∈ signs, sign.byte ≠ byte) :
    ∃ least, ∀ depth, least ≤ depth →
      ∀ admitted taken,
        Action.ComesTo data admitted start
          (levelPass rules operand signs depth taken)
          (.matched (.done taken)) start := by
  rcases @Operator.choice_miss rules data (fun _ => True) start
      signs 0 hByte with
    ⟨least, hMiss⟩
  refine ⟨least, ?_⟩
  intro depth hDepth admitted taken
  unfold levelPass
  rw [Operator.tagged_map]
  apply Action.ComesTo.chainPass_done
  exact (hMiss depth hDepth).mono fun _ _ => trivial

/- A chain goes on with an operator and an operand, as long
  as the rule has not run after some position before. -/
theorem levelPass_again
    {start middle place : Nat}
    {right : Value}
    {sign : ByteOperator}
    {rest : List UInt8}
    (hDistinct : (signs.map ByteOperator.byte).Nodup)
    (hPlace : signs[place]? = some sign)
    (hData : data.drop start = sign.byte :: rest)
    (hRight :
      Reads rules handle data
        operand (start + 1) middle right)
    (hMoved : start < middle) :
    ∃ least, ∀ depth, least ≤ depth →
      ∀ bound ≤ start, ∀ left,
        Action.ComesTo data
          (Context.Clear (rules.idOf handle) (bound + 1))
          start
          (levelPass rules operand signs depth (start, left))
          (.matched
            (.again (middle, sign.combine left right)))
          middle := by
  rcases @Operator.choice_hit rules data rest (fun _ => True)
      start signs 0 place sign hDistinct hPlace hData with
    ⟨one, hHit⟩
  rcases hRight with ⟨two, hRight⟩
  refine ⟨max one two, ?_⟩
  intro depth hDepth bound hBound left
  let id := rules.idOf handle
  have hSymbol :=
    (hHit depth (by omega)).mono
      (fun context (_ : context.Clear id (bound + 1)) =>
        trivial)
  have hOperand :=
    (hRight depth (by omega)).mono
      (fun context (hClear : context.Clear id (bound + 1)) =>
        hClear.mono (by omega))
  unfold levelPass
  rw [Operator.tagged_map, ← Operator.combineAt_map hPlace,
    ← Nat.zero_add place]
  exact .chainPass_again hSymbol hOperand
    (Nat.ne_of_gt hMoved)

/- The loop of a chain follows it to its end. A pass that
  goes on moves by a byte or more, so there are enough. -/
theorem Continues.iterate
    {start stop : Nat}
    {left value : Value}
    (hDistinct : (signs.map ByteOperator.byte).Nodup)
    (hContinues :
      Continues rules handle data
        operand signs start left stop value) :
    ∃ least, ∀ depth, least ≤ depth →
      ∀ bound ≤ start, ∀ limit, data.length - start < limit →
        Action.ComesTo data
          (Context.Clear (rules.idOf handle) (bound + 1))
          start
          (Action.iterate
            (levelPass rules operand signs depth) limit
            (start, left))
          (.matched (stop, value)) stop := by
  induction hContinues with
  | done hByte =>
      rcases levelPass_done hByte with ⟨least, hDone⟩
      refine ⟨least, ?_⟩
      intro depth hDepth bound _ limit hLimit
      cases limit with
      | zero => cases hLimit
      | succ limit =>
          exact .iterate_done limit (hDone depth hDepth _ _)
  | @again start middle stop place left right value sign rest
      hPlace hData hRight hMoved _ ih =>
      rcases levelPass_again hDistinct hPlace hData hRight hMoved
          with
        ⟨one, hAgain⟩
      rcases ih with ⟨two, hRest⟩
      refine ⟨max one two, ?_⟩
      intro depth hDepth bound hBound limit hLimit
      cases limit with
      | zero => cases hLimit
      | succ limit =>
          have hLength := congrArg List.length hData
          rw [List.length_drop, List.length_cons] at hLength
          exact .iterate_again
            (hAgain depth (by omega) bound hBound left)
            (hRest depth (by omega) bound (by omega) limit
              (by omega))

/- A level reads a first operand and what the chain goes on
  with. -/
theorem reads_chain
    {start middle stop : Nat}
    {left value : Value}
    (hDistinct : (signs.map ByteOperator.byte).Nodup)
    (hOperand :
      Reads rules handle data operand start middle left)
    (hOrder : start ≤ middle)
    (hContinues :
      Continues rules handle data
        operand signs middle left stop value) :
    Reads rules handle data
      (Operator.leftAssociative operand
        (signs.map ByteOperator.operator))
      start stop value := by
  rcases hOperand with ⟨one, hOperand⟩
  rcases hContinues.iterate hDistinct with ⟨two, hIterate⟩
  apply Parser.ComesTo.of_step (max one two)
  intro depth hDepth
  apply Action.ComesTo.chain (hOperand depth (by omega))
  intro limit hLimit
  rw [Parser.run_firstOf]
  exact hIterate depth (by omega) start hOrder limit hLimit

end OperatorTable

end ByteGrammar

------------------------------------------------------------
-- Operands and Levels of a Table
------------------------------------------------------------

namespace ByteGrammar

namespace OperatorTable

variable {table : OperatorTable}
variable {rules : Rules}
variable {handle : Handle}
variable {data rest : List UInt8}
variable {start stop : Nat}
variable {value : Value}

theorem drop_add_length
    {bytes : List UInt8}
    (hData : data.drop start = bytes ++ rest) :
    data.drop (start + bytes.length) = rest := by
  rw [← List.drop_drop, hData, List.drop_left]

/- Digits are read for their text. -/
theorem reads_numeral
    (numeral : Numeral)
    (hData :
      data.drop start = Utf8.encode numeral.text ++ rest)
    (hStops : table.Stops 0 rest) :
    Reads rules handle data (operand handle) start
      (start + (Utf8.encode numeral.text).length)
      (.str numeral.text) := by
  have hRest : ∀ byte, rest.head? = some byte →
      Digits.isDecimal byte = false :=
    fun byte hByte => (hStops byte hByte).1
  have hSlice :
      (Region.between start
          (start + (Utf8.encode numeral.text).length)).slice?
            data =
        some (Utf8.encode numeral.text) := by
    have hLength := congrArg List.length hData
    rw [List.length_drop, List.length_append] at hLength
    have hPositive :=
      List.length_pos_iff.mpr numeral.nonempty
    simp only [Region.slice?, Region.between, Region.stop,
      Nat.add_sub_cancel_left]
    rw [if_pos (by omega), hData, List.take_left]
  have hDigits :=
    @Parser.ComesTo.digits_hit rules data _ rest
      (Context.Clear (rules.idOf handle) (start + 1)) start
      numeral.nonempty (List.all_eq_true.mp numeral.decimal)
      hRest hData
  exact .either_first (.convert_text hDigits hSlice)

/- Parentheses are read for what the rule reads between
  them, while it is running before them. -/
theorem reads_group
    {inner : List UInt8}
    (hBound : table.BoundIn rules handle)
    (hOpen : data.drop start = 0x28 :: inner)
    (hInner :
      Reads rules handle data
        (table.reader handle table.levels.length) (start + 1)
        stop value)
    (hClose : data.drop stop = 0x29 :: rest) :
    Reads rules handle data
      (operand handle) start (stop + 1) value := by
  have hDigits :
      Parser.ComesTo rules data
        (Context.Clear (rules.idOf handle) (start + 1))
        start .digits .failed start := by
    apply Parser.ComesTo.digits_miss
    rw [hOpen]
    intro byte hByte
    cases hByte
    rfl
  have hRule := Parser.ComesTo.rule hBound hInner
  exact .either_second (.convert_failed _ hDigits)
    (.between (.byte_hit hOpen) hRule (.byte_hit hClose))

/- What a level reads, the next level reads where no
  operator of it follows. -/
theorem reads_lift
    {level : Fin table.levels.length}
    (hReads :
      Reads rules handle data
        (table.reader handle level) start stop value)
    (hOrder : start ≤ stop)
    (hStops : table.Stops (level + 1) (data.drop stop)) :
    Reads rules handle data
      (table.reader handle (level + 1)) start stop
      value := by
  rw [reader_succ]
  apply reads_chain (table.nodup_split level).1 hReads hOrder
  apply Continues.done
  intro byte hByte
  exact hStops.level hByte

theorem reads_lift_le
    {count more : Nat}
    (hMore : count ≤ more)
    (hAll : more ≤ table.levels.length)
    (hReads :
      Reads rules handle data
        (table.reader handle count) start stop value)
    (hOrder : start ≤ stop)
    (hStops : table.Stops more (data.drop stop)) :
    Reads rules handle data
      (table.reader handle more) start stop value := by
  induction hMore with
  | refl => exact hReads
  | @step more _ ih =>
      have hLess := hStops.mono (Nat.le_succ more)
      exact @reads_lift table rules handle data start stop
        value ⟨more, hAll⟩
        (ih (Nat.le_of_succ_le hAll) hLess) hOrder hStops

end OperatorTable

end ByteGrammar
