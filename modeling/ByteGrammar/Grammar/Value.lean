import ByteGrammar.Input.Reading
import ByteGrammar.Number.Literal

/-
  The values that parsers yield.

  A grammar is data and decides only when it runs what it
  yields, so its values carry their kind with them.

  Main declarations:
    * `Value`
    * `Value.integer?`, `Value.weight`, `Value.weighs`
    * `Value.negate`, `Value.successor`
    * `Arithmetic.apply`
-/

------------------------------------------------------------
-- Values
------------------------------------------------------------

namespace ByteGrammar

/- What a parser yields. -/
inductive Value where
  | unit
  | byte (value : UInt8)
  | char (value : Char)
  | str (text : String)
  | const (text : String)
  | region (region : Region)
  | u32 (value : Nat)
  | u64 (value : Nat)
  | i64 (value : Int)
  | f64 (value : Binary64)
  | bool (value : Bool)
  | ipv4 (first second third fourth : Nat)
  | place (line column : Nat)
  | unreadable (error : ReadError)
  | none
  | some (value : Value)
  | left (value : Value)
  | right (value : Value)
  | list (values : List Value)
  | pair (first second : Value)
  | named (name : String) (value : Value)
  | spanned (value : Value) (region : Region)
  | bin (name : String) (left right : Value)
  | neg (value : Value)
  | succ (value : Value)
  | wrap (value : Value)

namespace Value

/- The value of a number of either kind. -/
def ofNumber :
    Number → Value
  | .integer value => .i64 value
  | .float value => .f64 value

end Value

end ByteGrammar

------------------------------------------------------------
-- Measures
------------------------------------------------------------

namespace ByteGrammar

namespace Value

/- The integer of 64 bits that a value is, if it is one. -/
def integer? :
    Value → Option Int
  | .byte value => Option.some value.toNat
  | .i64 value => Option.some value
  | .u64 value =>
      if Integer.inI64 value then Option.some value
      else Option.none
  | _ => Option.none

/- The size of a value: the number it is, the code point of
  a character, the bytes of a text, the length of a region
  or list, and nothing otherwise. -/
def weight :
    Value → Int
  | .byte value => value.toNat
  | .u32 value => value
  | .u64 value => value
  | .i64 value => value
  | .char value => value.toNat
  | .str text => text.utf8ByteSize
  | .const text => text.utf8ByteSize
  | .region covered => covered.length
  | .list values => values.length
  | _ => 0

/- How a weight is compared with a bound. -/
inductive Comparison where
  | atMost
  | atLeast
  | equal
  | even
deriving DecidableEq

/- Whether the weight of a value compares with a bound; the
  bound does not matter to evenness. -/
def weighs
    (comparison : Comparison)
    (bound : Int)
    (value : Value) :
    Bool :=
  match comparison with
  | .atMost => decide (value.weight ≤ bound)
  | .atLeast => decide (bound ≤ value.weight)
  | .equal => decide (value.weight = bound)
  | .even => decide (value.weight % 2 = 0)

/- The first of a pair; other values unchanged. -/
def first :
    Value → Value
  | .pair first _ => first
  | value => value

/- The second of a pair; other values unchanged. -/
def second :
    Value → Value
  | .pair _ second => second
  | value => value

end Value

end ByteGrammar

------------------------------------------------------------
-- Checked Arithmetic
------------------------------------------------------------

namespace ByteGrammar

/- An integer that fits in 64 bits. -/
def checked
    (value : Int) :
    Option Int :=
  if Integer.inI64 value then some value else none

namespace Value

/- The negated integer of a value; without one in range the
  negation stays symbolic. -/
def negate
    (value : Value) :
    Value :=
  match value.integer?.bind fun n => checked (-n) with
  | Option.some result => .i64 result
  | Option.none => .neg value

/- The integer after that of a value; without one in range
  the successor stays symbolic. -/
def successor
    (value : Value) :
    Value :=
  match value.integer?.bind fun n => checked (n + 1) with
  | Option.some result => .i64 result
  | Option.none => .succ value

/- The weight as an integer of 64 bits; a larger one
  wraps. -/
def weighed
    (value : Value) :
    Value :=
  .i64 (value.weight.bmod Integer.words)

end Value

/- The four operations on integers. -/
inductive Arithmetic where
  | add
  | sub
  | mul
  | div
deriving DecidableEq

namespace Arithmetic

/- The operation of a name. -/
def ofName? :
    String → Option Arithmetic
  | "add" => some .add
  | "sub" => some .sub
  | "mul" => some .mul
  | "div" => some .div
  | _ => none

/- The result in 64 bits, if there is one. Division
  truncates toward zero. -/
def apply
    (operation : Arithmetic)
    (left right : Int) :
    Option Int :=
  match operation with
  | .add => checked (left + right)
  | .sub => checked (left - right)
  | .mul => checked (left * right)
  | .div =>
      if right = 0 then none else checked (left.tdiv right)

end Arithmetic

namespace Value

/- Applies the operation of a name to two values. Without
  such an operation, without two integers or without a
  result the application stays symbolic. -/
def combine
    (name : String)
    (left right : Value) :
    Value :=
  let result := do
    let operation ← Arithmetic.ofName? name
    let first ← left.integer?
    let second ← right.integer?
    operation.apply first second
  match result with
  | Option.some value => .i64 value
  | Option.none => .bin name left right

end Value

end ByteGrammar
