import ByteGrammar.Text.Printable

/-
  Texts quoted for a reader.

  Quotes, backslashes and the common controls have escapes
  of their own; other hidden characters are spelled by their
  code.

  Main declarations:
    * `Quoted.escape`
    * `Quoted.quote`
-/

------------------------------------------------------------
-- Quoting
------------------------------------------------------------

namespace ByteGrammar

namespace Quoted

/- A character by its code in hexadecimal. -/
def byCode
    (char : Char) :
    List Char :=
  ['\\', 'u', '\x7b'] ++ Nat.toDigits 16 char.toNat ++
    ['\x7d']

/- A character as it is spelled between quotes. -/
def escape :
    Char → List Char
  | '"' => ['\\', '"']
  | '\\' => ['\\', '\\']
  | '\n' => ['\\', 'n']
  | '\r' => ['\\', 'r']
  | '\t' => ['\\', 't']
  | '\x00' => ['\\', '0']
  | char =>
      if Printable.isShown char then [char] else byCode char

/- A text with its quotes. -/
def quote
    (text : String) :
    String :=
  String.ofList
    ('"' :: text.toList.flatMap escape ++ ['"'])

end Quoted

end ByteGrammar
