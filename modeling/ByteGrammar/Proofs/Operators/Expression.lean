import ByteGrammar.Engine.Parse
import ByteGrammar.Grammar.Operators

/-
  Expressions over tables of operators of one byte.

  A table gives rise to a grammar, in which a rule calls
  itself for what stands in parentheses, and to expressions,
  which are printed with as few parentheses as operators
  that associate to the left allow.

  Main declarations:
    * `OperatorTable`, `OperatorTable.grammar`
    * `OperatorTable.reader`
    * `Expression`, `Expression.print`, `Expression.fold`
    * `OperatorTable.Stops`
-/

------------------------------------------------------------
-- Tables
------------------------------------------------------------

namespace ByteGrammar

/- An operator that is one byte. -/
structure ByteOperator where
  byte : UInt8
  combine : Value → Value → Value

namespace ByteOperator

/- The operator as one of a table of precedence. -/
def operator
    (sign : ByteOperator) :
    Operator :=
  ⟨Parser.byte sign.byte, sign.combine⟩

end ByteOperator

/- Levels of operators, the tightest first. All bytes are
  distinct, and none is a digit or a parenthesis. -/
structure OperatorTable where
  levels : List (List ByteOperator)
  nonempty : levels ≠ []
  distinct : (levels.flatten.map ByteOperator.byte).Nodup
  apart : ∀ operator ∈ levels.flatten,
    Digits.isDecimal operator.byte = false ∧
      operator.byte ≠ 0x28 ∧ operator.byte ≠ 0x29

namespace OperatorTable

/- A place of a table. -/
structure Slot
    (table : OperatorTable) where
  level : Fin table.levels.length
  place : Fin (table.levels.get level).length

variable {table : OperatorTable}

/- The operator at a place. -/
def Slot.operator
    (slot : table.Slot) :
    ByteOperator :=
  (table.levels.get slot.level).get slot.place

theorem Slot.operator_mem
    (slot : table.Slot) :
    slot.operator ∈ table.levels.get slot.level :=
  List.get_mem _ _

theorem Slot.getElem?_place
    (slot : table.Slot) :
    (table.levels.get slot.level)[slot.place.val]? =
      some slot.operator :=
  List.getElem?_eq_getElem slot.place.isLt

theorem Slot.operator_mem_flatten
    (slot : table.Slot) :
    slot.operator ∈ table.levels.flatten :=
  List.mem_flatten.mpr
    ⟨_, List.get_mem _ _, slot.operator_mem⟩

end OperatorTable

end ByteGrammar

------------------------------------------------------------
-- Grammars
------------------------------------------------------------

namespace ByteGrammar

namespace OperatorTable

/- Digits, for their text, or what a rule matches between
  parentheses. -/
def operand
    (handle : Handle) :
    Parser :=
  .either (.convert .text .digits)
    (.between (.byte 0x28) (.rule handle) (.byte 0x29))

/- The levels of the table as those of a table of
  precedence. -/
def operators
    (table : OperatorTable) :
    List (List Operator) :=
  table.levels.map fun level =>
    level.map ByteOperator.operator

/- Makes a rule for the expressions of the table. -/
def grammar
    (table : OperatorTable)
    (rules : Rules) :
    Except GrammarError (Handle × Rules) :=
  rules.recursive (fun error => error)
    fun handle rules => do
    let body ←
      Operator.precedence (operand handle) table.operators
    return (body, rules)

/- The parser of some of the levels, the tightest ones. -/
def reader
    (table : OperatorTable)
    (handle : Handle)
    (count : Nat) :
    Parser :=
  (table.operators.take count).foldl
    Operator.leftAssociative (operand handle)

/- Whether a rule is bound to the parser of all levels. -/
def BoundIn
    (table : OperatorTable)
    (rules : Rules)
    (handle : Handle) :
    Prop :=
  rules.target? handle =
    some (table.reader handle table.levels.length)

variable {table : OperatorTable}

theorem reader_succ
    (handle : Handle)
    (level : Fin table.levels.length) :
    table.reader handle (level + 1) =
      Operator.leftAssociative (table.reader handle level)
        ((table.levels.get level).map
          ByteOperator.operator) := by
  have hLevel :
      table.operators[level.val]? =
        some ((table.levels.get level).map
          ByteOperator.operator) := by
    simp [operators]
  unfold reader
  rw [List.take_add_one, List.foldl_append, hLevel]
  rfl

/- The table of precedence is the parser of all levels. -/
theorem precedence_eq
    (table : OperatorTable)
    (handle : Handle) :
    Operator.precedence (operand handle) table.operators =
      .ok (table.reader handle table.levels.length) := by
  have hNonempty : table.operators ≠ [] := by
    simpa [operators] using table.nonempty
  have hAll :
      table.operators.take table.levels.length =
        table.operators := by
    apply List.take_of_length_le
    simp [operators]
  unfold reader
  rw [hAll]
  unfold Operator.precedence
  split
  · contradiction
  · rfl

/- The grammar can be made in every table of rules, with a
  rule that is bound to the parser of all levels. -/
theorem exists_grammar
    (table : OperatorTable)
    (rules : Rules) :
    ∃ handle built,
      table.grammar rules = .ok (handle, built) ∧
      table.BoundIn built handle := by
  rcases rules.exists_bind_create
      (table.reader rules.create.1 table.levels.length) with
    ⟨built, hBuilt, hBound⟩
  refine ⟨rules.create.1, built, ?_, hBound⟩
  unfold grammar Rules.recursive
  simp only [precedence_eq, Bind.bind, Except.bind,
    Pure.pure, Except.pure]
  rw [hBuilt]

end OperatorTable

end ByteGrammar

------------------------------------------------------------
-- Expressions
------------------------------------------------------------

namespace ByteGrammar

/- A text of one digit or more. -/
structure Numeral where
  text : String
  nonempty : Utf8.encode text ≠ []
  decimal : (Utf8.encode text).all Digits.isDecimal = true

/- Trees of the operators of a table over texts of
  digits. -/
inductive Expression (table : OperatorTable) where
  | leaf (numeral : Numeral)
  | binary (slot : table.Slot)
      (left right : Expression table)

namespace Expression

variable {table : OperatorTable}

/- How many levels an expression takes: those up to the
  level of its operator, and none for a leaf. -/
def rank :
    Expression table → Nat
  | leaf _ => 0
  | binary slot _ _ => slot.level + 1

/- Puts what takes more levels than it may in
  parentheses. -/
def enclose
    (allowed taken : Nat)
    (bytes : List UInt8) :
    List UInt8 :=
  if taken ≤ allowed then bytes
  else 0x28 :: bytes ++ [0x29]

/- The bytes of an expression. The left operand may take as
  many levels as the whole, so there are parentheses around
  it where its operator binds looser. The right operand may
  take fewer only, so there are parentheses around it where
  its operator binds looser or the same. -/
def print :
    Expression table → List UInt8
  | leaf numeral => Utf8.encode numeral.text
  | binary slot left right =>
      enclose (slot.level + 1) left.rank left.print ++
        slot.operator.byte ::
          enclose slot.level right.rank right.print

/- The value of an expression: that of its texts under the
  combinations of its operators. -/
def fold :
    Expression table → Value
  | leaf numeral => .str numeral.text
  | binary slot left right =>
      slot.operator.combine left.fold right.fold

end Expression

end ByteGrammar

------------------------------------------------------------
-- Stops
------------------------------------------------------------

namespace ByteGrammar

namespace OperatorTable

variable {table : OperatorTable}

/- What follows goes on with no digit, and with no operator
  of the tightest levels. -/
def Stops
    (table : OperatorTable)
    (count : Nat)
    (rest : List UInt8) :
    Prop :=
  ∀ byte, rest.head? = some byte →
    Digits.isDecimal byte = false ∧
      ∀ operator ∈ (table.levels.take count).flatten,
        operator.byte ≠ byte

theorem stops_nil
    (count : Nat) :
    table.Stops count [] := by
  intro byte hByte
  cases hByte

theorem stops_close
    (count : Nat)
    (rest : List UInt8) :
    table.Stops count (0x29 :: rest) := by
  intro byte hByte
  cases hByte
  refine ⟨rfl, ?_⟩
  intro operator hOperator
  have hMem : operator ∈ table.levels.flatten := by
    rcases List.mem_flatten.mp hOperator with
      ⟨level, hLevel, hOperator⟩
    exact List.mem_flatten.mpr
      ⟨level, List.mem_of_mem_take hLevel, hOperator⟩
  exact (table.apart operator hMem).2.2

/- The bytes of a level are distinct from each other, and
  from those of tighter levels. -/
theorem nodup_split
    (table : OperatorTable)
    (level : Fin table.levels.length) :
    ((table.levels.get level).map ByteOperator.byte).Nodup ∧
      ∀ operator ∈ (table.levels.take level).flatten,
        ∀ other ∈ table.levels.get level,
          operator.byte ≠ other.byte := by
  have hSplit :
      table.levels =
        table.levels.take level ++
          table.levels.get level ::
            table.levels.drop (level + 1) := by
    simp
  have hDistinct := table.distinct
  rw [hSplit, List.flatten_append, List.flatten_cons,
    List.map_append, List.map_append] at hDistinct
  rcases List.nodup_append.mp hDistinct with ⟨-, hTail, hApart⟩
  refine ⟨(List.nodup_append.mp hTail).1, ?_⟩
  intro operator hOperator other hOther
  apply hApart
  · exact List.mem_map_of_mem hOperator
  · exact List.mem_append_left _ (List.mem_map_of_mem hOther)

/- An operator stops what is tighter. -/
theorem stops_operator
    (slot : table.Slot)
    (rest : List UInt8) :
    table.Stops slot.level (slot.operator.byte :: rest) := by
  intro byte hByte
  cases hByte
  refine ⟨(table.apart _ slot.operator_mem_flatten).1, ?_⟩
  intro operator hOperator
  exact (table.nodup_split slot.level).2 operator hOperator
    slot.operator slot.operator_mem

theorem Stops.mono
    {count more : Nat}
    {rest : List UInt8}
    (hStops : table.Stops more rest)
    (hMore : count ≤ more) :
    table.Stops count rest := by
  intro byte hByte
  rcases hStops byte hByte with ⟨hDecimal, hOperators⟩
  refine ⟨hDecimal, ?_⟩
  intro operator hOperator
  rcases List.mem_flatten.mp hOperator with
    ⟨level, hLevel, hOperator⟩
  exact hOperators operator (List.mem_flatten.mpr
    ⟨level, List.take_subset_take_left _ hMore hLevel,
      hOperator⟩)

/- What stops the levels up to one stops this one. -/
theorem Stops.level
    {level : Fin table.levels.length}
    {rest : List UInt8}
    {byte : UInt8}
    (hStops : table.Stops (level + 1) rest)
    (hByte : rest.head? = some byte) :
    ∀ operator ∈ table.levels.get level,
      operator.byte ≠ byte := by
  intro operator hOperator
  apply (hStops byte hByte).2
  refine List.mem_flatten.mpr
    ⟨table.levels.get level, ?_, hOperator⟩
  exact List.mem_take_iff_getElem.mpr
    ⟨level, by omega, rfl⟩

end OperatorTable

end ByteGrammar
