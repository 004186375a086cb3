/-!
# Texts as bytes

Texts are sent as the bytes of their UTF-8 form. `ofUtf8?` reads such bytes and refuses any others.
`decodeLossy` reads any bytes: what is no character in UTF-8 becomes the character U+FFFD, once for
each byte that cannot begin a character and once for the longest beginning of a character that is
not finished.
-/

namespace QueryTelemetry

namespace Text

/-- The bytes of a text. -/
def utf8 (text : String) : List UInt8 := text.toUTF8.data.toList

/-- The text that bytes are the UTF-8 form of. -/
def ofUtf8? (bytes : List UInt8) : Option String :=
  String.fromUTF8? (ByteArray.mk bytes.toArray)

/-- A character of which bytes are missing. -/
structure Unfinished where
  /-- The number that the bytes so far stand for. -/
  value : Nat
  /-- How many bytes are missing. -/
  missing : Nat
  /-- The least value that the next byte may have. -/
  least : Nat
  /-- The greatest value that the next byte may have. -/
  greatest : Nat

/-- Reads a byte where a character begins: the text that it ends, and the character that it
begins. The bounds of the second byte leave out longer forms than necessary, surrogates, and
numbers beyond the last character. -/
def decodeFirst (byte : UInt8) : List Char × Option Unfinished :=
  let n := byte.toNat
  if n < 0x80 then ([Char.ofNat n], none)
  else if 0xC2 ≤ n ∧ n ≤ 0xDF then ([], some ⟨n - 0xC0, 1, 0x80, 0xBF⟩)
  else if 0xE0 ≤ n ∧ n ≤ 0xEF then
    ([], some ⟨n - 0xE0, 2, if n = 0xE0 then 0xA0 else 0x80, if n = 0xED then 0x9F else 0xBF⟩)
  else if 0xF0 ≤ n ∧ n ≤ 0xF4 then
    ([], some ⟨n - 0xF0, 3, if n = 0xF0 then 0x90 else 0x80, if n = 0xF4 then 0x8F else 0xBF⟩)
  else (['\uFFFD'], none)

/-- Reads a byte after the bytes of a character that is perhaps not finished. -/
def decodeNext (begun : Option Unfinished) (byte : UInt8) : List Char × Option Unfinished :=
  match begun with
  | none => decodeFirst byte
  | some u =>
    let n := byte.toNat
    if u.least ≤ n ∧ n ≤ u.greatest then
      let value := 64 * u.value + (n - 0x80)
      if u.missing ≤ 1 then ([Char.ofNat value], none)
      else ([], some ⟨value, u.missing - 1, 0x80, 0xBF⟩)
    else
      -- The byte does not belong to the character, so it is read again as the first of another.
      let (ended, begun) := decodeFirst byte
      ('\uFFFD' :: ended, begun)

/-- The text that bytes stand for after the bytes of a character that is perhaps not finished. -/
def decodeAfter (begun : Option Unfinished) : List UInt8 → List Char
  | [] => if begun.isSome then ['\uFFFD'] else []
  | byte :: rest =>
    let (ended, begun) := decodeNext begun byte
    ended ++ decodeAfter begun rest

/-- The text that any bytes stand for, with U+FFFD for what is no UTF-8. -/
def decodeLossy (bytes : List UInt8) : String := String.ofList (decodeAfter none bytes)

end Text

end QueryTelemetry
