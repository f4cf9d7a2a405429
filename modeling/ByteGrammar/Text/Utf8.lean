/-
  UTF-8 as bytes.

  `Utf8.encode` and `Utf8.decode?` tie a text to its bytes.
  `Utf8.pieces` cuts arbitrary bytes into the characters and
  the broken parts they hold; from it come the length of the
  longest valid start of the bytes and the lossy reading.

  Main declarations:
    * `Utf8.encode`, `Utf8.decode?`
    * `Utf8.decode?_encode`, `Utf8.encode_of_decode?`
    * `Utf8.encode_inj`
    * `Utf8.encode_ofList`, `Utf8.encode_append`
    * `Utf8.pieces`
    * `Utf8.validLength`
    * `Utf8.lossy`
-/

------------------------------------------------------------
-- Whole Texts
------------------------------------------------------------

namespace ByteGrammar

namespace Utf8

/- The bytes that spell `text`. -/
def encode
    (text : String) :
    List UInt8 :=
  text.toByteArray.data.toList

/- The text that `bytes` spell, if they spell one. -/
def decode?
    (bytes : List UInt8) :
    Option String :=
  String.fromUTF8? ⟨bytes.toArray⟩

/- A text is read back from its own bytes. -/
theorem decode?_encode
    (text : String) :
    decode? (encode text) = some text := by
  have hValid : text.toByteArray.IsValidUTF8 :=
    text.isValidUTF8
  simp [decode?, encode, String.fromUTF8?, hValid,
    String.fromUTF8]

/- So no two texts are spelled alike. -/
theorem encode_inj
    {text other : String} :
    encode text = encode other ↔ text = other := by
  constructor
  · intro hEncode
    have hDecode := congrArg decode? hEncode
    rw [decode?_encode, decode?_encode] at hDecode
    exact Option.some.inj hDecode
  · exact congrArg encode

theorem encode_ne_nil
    {text : String}
    (hText : text ≠ "") :
    encode text ≠ [] := by
  intro hEncode
  exact hText (encode_inj.mp hEncode)

/- Bytes that spell a text are exactly its bytes. -/
theorem encode_of_decode?
    {bytes : List UInt8}
    {text : String}
    (hDecode : decode? bytes = some text) :
    encode text = bytes := by
  simp only [decode?, String.fromUTF8?] at hDecode
  split at hDecode
  · cases hDecode
    simp [encode, String.fromUTF8]
  · cases hDecode

/- Characters are spelled one by one. -/
theorem encode_ofList
    (chars : List Char) :
    encode (String.ofList chars) =
      chars.flatMap String.utf8EncodeChar := by
  simp [encode, List.utf8Encode]

theorem encode_append
    (left right : String) :
    encode (left ++ right) = encode left ++ encode right := by
  simp [encode]

end Utf8

end ByteGrammar

------------------------------------------------------------
-- Pieces of Arbitrary Bytes
------------------------------------------------------------

namespace ByteGrammar

namespace Utf8

/-
  What a lead byte announces: its own bits of the code
  point, how many continuation bytes follow, and the range
  of the first of them. The range is narrower than that of
  the others where a wider one would admit overlong forms,
  surrogates or code points past the last.
-/
structure Lead where
  bits : Nat
  more : Nat
  low : UInt8
  high : UInt8

/- The lead bytes of characters of two to four bytes. -/
def lead?
    (byte : UInt8) :
    Option Lead :=
  let value := byte.toNat
  if value < 0xC2 then none
  else if value < 0xE0 then
    some ⟨value - 0xC0, 1, 0x80, 0xBF⟩
  else if value = 0xE0 then some ⟨0, 2, 0xA0, 0xBF⟩
  else if value = 0xED then some ⟨0xD, 2, 0x80, 0x9F⟩
  else if value < 0xF0 then
    some ⟨value - 0xE0, 2, 0x80, 0xBF⟩
  else if value = 0xF0 then some ⟨0, 3, 0x90, 0xBF⟩
  else if value < 0xF4 then
    some ⟨value - 0xF0, 3, 0x80, 0xBF⟩
  else if value = 0xF4 then some ⟨4, 3, 0x80, 0x8F⟩
  else none

/- A character of `width` bytes, or `width` bytes that are
  the longest start of a character at their place. -/
inductive Piece where
  | char (value : Char) (width : Nat)
  | broken (width : Nat)

/- A character under construction: the bytes taken so far
  and what must follow. -/
structure Pending where
  bits : Nat
  taken : Nat
  more : Nat
  low : UInt8
  high : UInt8

/-
  Cuts bytes into pieces. A byte that cannot continue the
  pending character ends a broken piece and is looked at
  again as a first byte.
-/
def cut :
    Option Pending → List UInt8 → List Piece
  | none, [] => []
  | some pending, [] => [.broken pending.taken]
  | none, byte :: rest =>
      if byte < 0x80 then
        .char (Char.ofNat byte.toNat) 1 :: cut none rest
      else
        match lead? byte with
        | none => .broken 1 :: cut none rest
        | some lead =>
            cut (some ⟨lead.bits, 1, lead.more, lead.low,
              lead.high⟩) rest
  | some pending, byte :: rest =>
      if pending.low ≤ byte ∧ byte ≤ pending.high then
        let bits :=
          pending.bits * 64 + (byte.toNat - 0x80)
        if pending.more ≤ 1 then
          .char (Char.ofNat bits) (pending.taken + 1) ::
            cut none rest
        else
          cut (some ⟨bits, pending.taken + 1,
            pending.more - 1, 0x80, 0xBF⟩) rest
      else if byte < 0x80 then
        .broken pending.taken ::
          .char (Char.ofNat byte.toNat) 1 :: cut none rest
      else
        match lead? byte with
        | none =>
            .broken pending.taken :: .broken 1 ::
              cut none rest
        | some lead =>
            .broken pending.taken ::
              cut (some ⟨lead.bits, 1, lead.more, lead.low,
                lead.high⟩) rest

/- The pieces of `bytes`, in order. -/
def pieces
    (bytes : List UInt8) :
    List Piece :=
  cut none bytes

/- The bytes of the characters before the first broken
  piece. -/
def validWidth :
    List Piece → Nat
  | .char _ width :: rest => width + validWidth rest
  | _ => 0

/- The length of the longest valid start of `bytes`. -/
def validLength
    (bytes : List UInt8) :
    Nat :=
  validWidth (pieces bytes)

/- The character that stands for a piece in a lossy
  reading. -/
def Piece.shown :
    Piece → Char
  | .char value _ => value
  | .broken _ => '\uFFFD'

/- Reads `bytes` as text, with a replacement character for
  each broken piece. Bytes that spell a text are read as
  that text. -/
def lossy
    (bytes : List UInt8) :
    String :=
  match decode? bytes with
  | some text => text
  | none => String.ofList ((pieces bytes).map Piece.shown)

end Utf8

end ByteGrammar
