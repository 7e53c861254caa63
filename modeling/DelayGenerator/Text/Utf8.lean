/-
This file decodes bytes as UTF-8 and replaces what is not well formed.
-/

namespace DelayGenerator.Text

/-- The bytes of a text in UTF-8. -/
def utf8 (text : String) : List UInt8 :=
  text.toList.flatMap String.utf8EncodeChar

/-- The character that stands for bytes that encode nothing. -/
def replacement : Char := Char.ofNat 0xFFFD

/-- What the first byte of a character announces: how many bytes follow, the payload of this byte,
and the range of the byte that follows next. Later bytes lie in `0x80 … 0xBF`. -/
structure Lead where
  following : Nat
  payload : Nat
  least : UInt8
  greatest : UInt8

/-- The lead of a multi-byte character. The narrowed ranges exclude overlong forms, surrogates and
code points above `0x10FFFF`. -/
def lead? (byte : UInt8) : Option Lead :=
  let value := byte.toNat
  if 0xC2 ≤ value && value ≤ 0xDF then some ⟨1, value - 0xC0, 0x80, 0xBF⟩
  else if value == 0xE0 then some ⟨2, 0, 0xA0, 0xBF⟩
  else if value == 0xED then some ⟨2, 0xD, 0x80, 0x9F⟩
  else if 0xE1 ≤ value && value ≤ 0xEF then some ⟨2, value - 0xE0, 0x80, 0xBF⟩
  else if value == 0xF0 then some ⟨3, 0, 0x90, 0xBF⟩
  else if 0xF1 ≤ value && value ≤ 0xF3 then some ⟨3, value - 0xF0, 0x80, 0xBF⟩
  else if value == 0xF4 then some ⟨3, 4, 0x80, 0x8F⟩
  else none

/-- Decodes with a character under way. Bytes that cannot continue it are replaced by one
replacement character, and the byte that broke it off is looked at afresh. -/
def decodeUtf8With : Option Lead → List UInt8 → List Char
  | none, [] => []
  | some _, [] => [replacement]
  | none, byte :: rest =>
    if byte < 0x80 then Char.ofNat byte.toNat :: decodeUtf8With none rest
    else match lead? byte with
      | some lead => decodeUtf8With (some lead) rest
      | none => replacement :: decodeUtf8With none rest
  | some lead, byte :: rest =>
    if lead.least ≤ byte && byte ≤ lead.greatest then
      let payload := lead.payload * 64 + (byte.toNat - 0x80)
      if lead.following ≤ 1 then Char.ofNat payload :: decodeUtf8With none rest
      else decodeUtf8With (some ⟨lead.following - 1, payload, 0x80, 0xBF⟩) rest
    else if byte < 0x80 then replacement :: Char.ofNat byte.toNat :: decodeUtf8With none rest
    else match lead? byte with
      | some next => replacement :: decodeUtf8With (some next) rest
      | none => replacement :: replacement :: decodeUtf8With none rest

/-- The text of the bytes, with one replacement character for every longest sequence of bytes that
begins a character and does not end it, and for every byte that begins none. -/
def decodeUtf8 (bytes : List UInt8) : String :=
  String.ofList (decodeUtf8With none bytes)

end DelayGenerator.Text
