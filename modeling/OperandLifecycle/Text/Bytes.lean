/-!
# Reading JSON bytes as text

JSON given as bytes is decoded before it is read. The encoding is found from the first bytes
(`Encoding.detect`): a byte order mark names UTF-32, UTF-16 or UTF-8; without one, zero bytes
among the first four tell UTF-32 or UTF-16 and their byte order; otherwise the bytes are UTF-8.

Decoding is strict, with one allowance: a surrogate code point written out on its own passes
(it cannot be held by a character, so it stands as the replacement character). A refusal
names the encoding, the offending byte or byte range, and the reason (`ByteFault.message`).
-/
namespace OperandLifecycle.Text

/-- The encodings JSON bytes may use. -/
inductive Encoding where
  | utf8
  /-- UTF-8 after a byte order mark. -/
  | utf8Marked
  /-- UTF-16 with a byte order mark. -/
  | utf16
  | utf16le
  | utf16be
  /-- UTF-32 with a byte order mark. -/
  | utf32
  | utf32le
  | utf32be
  deriving DecidableEq, Repr

/-- The encoding of JSON bytes, from their first bytes. -/
def Encoding.detect (bs : List UInt8) : Encoding :=
  if [0x00, 0x00, 0xFE, 0xFF].isPrefixOf bs || [0xFF, 0xFE, 0x00, 0x00].isPrefixOf bs then .utf32
  else if [0xFE, 0xFF].isPrefixOf bs || [0xFF, 0xFE].isPrefixOf bs then .utf16
  else if [0xEF, 0xBB, 0xBF].isPrefixOf bs then .utf8Marked
  else
    match bs with
    | b0 :: b1 :: b2 :: b3 :: _ =>
      if b0 == 0 then (if b1 != 0 then .utf16be else .utf32be)
      else if b1 == 0 then (if b2 != 0 || b3 != 0 then .utf16le else .utf32le)
      else .utf8
    | [b0, b1] =>
      if b0 == 0 then .utf16be else if b1 == 0 then .utf16le else .utf8
    | _ => .utf8

/-- Why bytes could not be decoded: the encoding's name, the first offending byte's position,
the bytes it covers, and the reason. -/
structure ByteFault where
  encoding : String
  start : Nat
  bytes : List UInt8
  reason : String
  deriving Repr

/-- Two lower-case hex digits. -/
def hexByte (b : UInt8) : String :=
  let d (n : Nat) : Char := (Nat.toDigits 16 n).headD '0'
  String.ofList [d (b.toNat / 16), d (b.toNat % 16)]

/-- The text of a decoding refusal: one byte by its value, several by their positions. -/
def ByteFault.message (f : ByteFault) : String :=
  match f.bytes with
  | [b] =>
    "'" ++ f.encoding ++ "' codec can't decode byte 0x" ++ hexByte b ++ " in position " ++
      toString f.start ++ ": " ++ f.reason
  | bs =>
    "'" ++ f.encoding ++ "' codec can't decode bytes in position " ++ toString f.start ++ "-" ++
      toString (f.start + bs.length - 1) ++ ": " ++ f.reason

/-- A code point as a character; a surrogate becomes the replacement character. -/
def pointChar (n : Nat) : Char := if n.isValidChar then Char.ofNat n else '�'

/-- Whether a byte continues a UTF-8 sequence. -/
def isTail (b : UInt8) : Bool := 0x80 ≤ b && b ≤ 0xBF

/-- The low six bits of a continuation byte. -/
def tailBits (b : UInt8) : Nat := b.toNat % 64

/-- Whether the second byte of a three-byte sequence fits its first (surrogates excluded). -/
def secondOf3 (b0 b1 : UInt8) : Bool :=
  isTail b1 && (if b0 == 0xE0 then b1 ≥ 0xA0 else if b0 == 0xED then b1 < 0xA0 else true)

/-- Whether the second byte of a four-byte sequence fits its first. -/
def secondOf4 (b0 b1 : UInt8) : Bool :=
  isTail b1 && (if b0 == 0xF0 then b1 ≥ 0x90 else if b0 == 0xF4 then b1 < 0x90 else true)

/-- Decodes UTF-8; `pos` is the position of the first byte, `acc` the characters so far,
last first. -/
def decodeUtf8 (pos : Nat) (acc : List Char) : List UInt8 → Except ByteFault String
  | [] => .ok (String.ofList acc.reverse)
  | b0 :: rest =>
    let fault (n : Nat) (reason : String) : Except ByteFault String :=
      .error ⟨"utf-8", pos, (b0 :: rest).take n, reason⟩
    if b0 < 0x80 then decodeUtf8 (pos + 1) (Char.ofNat b0.toNat :: acc) rest
    else if b0 < 0xC2 then fault 1 "invalid start byte"
    else if b0 < 0xE0 then
      match rest with
      | [] => fault 1 "unexpected end of data"
      | b1 :: rest' =>
        if isTail b1 then
          decodeUtf8 (pos + 2) (pointChar ((b0.toNat % 32) * 64 + tailBits b1) :: acc) rest'
        else fault 1 "invalid continuation byte"
    else if b0 < 0xF0 then
      match rest with
      | [] => fault 1 "unexpected end of data"
      | [b1] =>
        -- an encoded surrogate passes, so its second byte counts as fitting here
        if secondOf3 b0 b1 || (b0 == 0xED && isTail b1) then fault 2 "unexpected end of data"
        else fault 1 "invalid continuation byte"
      | b1 :: b2 :: rest' =>
        let point := (b0.toNat % 16) * 4096 + tailBits b1 * 64 + tailBits b2
        if b0 == 0xED && b1 ≥ 0xA0 && isTail b1 && isTail b2 then
          decodeUtf8 (pos + 3) (pointChar point :: acc) rest'
        else if !secondOf3 b0 b1 then fault 1 "invalid continuation byte"
        else if !isTail b2 then fault 2 "invalid continuation byte"
        else decodeUtf8 (pos + 3) (pointChar point :: acc) rest'
    else if b0 < 0xF5 then
      match rest with
      | [] => fault 1 "unexpected end of data"
      | [b1] => if secondOf4 b0 b1 then fault 2 "unexpected end of data"
        else fault 1 "invalid continuation byte"
      | [b1, b2] =>
        if !secondOf4 b0 b1 then fault 1 "invalid continuation byte"
        else if !isTail b2 then fault 2 "invalid continuation byte"
        else fault 3 "unexpected end of data"
      | b1 :: b2 :: b3 :: rest' =>
        if !secondOf4 b0 b1 then fault 1 "invalid continuation byte"
        else if !isTail b2 then fault 2 "invalid continuation byte"
        else if !isTail b3 then fault 3 "invalid continuation byte"
        else
          let point := (b0.toNat % 8) * 262144 + tailBits b1 * 4096 + tailBits b2 * 64 + tailBits b3
          decodeUtf8 (pos + 4) (pointChar point :: acc) rest'
    else fault 1 "invalid start byte"

/-- Decodes UTF-16 in the given byte order; a surrogate pair joins, a lone surrogate passes. -/
def decodeUtf16 (name : String) (bigEndian : Bool) (pos : Nat) (acc : List Char) :
    List UInt8 → Except ByteFault String
  | [] => .ok (String.ofList acc.reverse)
  | [b] => .error ⟨name, pos, [b], "truncated data"⟩
  | a :: b :: rest =>
    let unit (x y : UInt8) : Nat := if bigEndian then x.toNat * 256 + y.toNat else y.toNat * 256 + x.toNat
    let u := unit a b
    if 0xD800 ≤ u ∧ u < 0xDC00 then
      match rest with
      | c :: d :: rest' =>
        let v := unit c d
        if 0xDC00 ≤ v ∧ v < 0xE000 then
          decodeUtf16 name bigEndian (pos + 4)
            (pointChar (0x10000 + (u - 0xD800) * 0x400 + (v - 0xDC00)) :: acc) rest'
        else decodeUtf16 name bigEndian (pos + 2) ('�' :: acc) (c :: d :: rest')
      | [] => .ok (String.ofList ('�' :: acc).reverse)
      | [c] => .error ⟨name, pos + 2, [c], "truncated data"⟩
    else decodeUtf16 name bigEndian (pos + 2) (pointChar u :: acc) rest
termination_by xs => xs.length

/-- Decodes UTF-32 in the given byte order; a lone surrogate passes. -/
def decodeUtf32 (name : String) (bigEndian : Bool) (pos : Nat) (acc : List Char) :
    List UInt8 → Except ByteFault String
  | a :: b :: c :: d :: rest =>
    let n := if bigEndian then ((a.toNat * 256 + b.toNat) * 256 + c.toNat) * 256 + d.toNat
      else ((d.toNat * 256 + c.toNat) * 256 + b.toNat) * 256 + a.toNat
    if n ≥ 0x110000 then .error ⟨name, pos, [a, b, c, d], "code point not in range(0x110000)"⟩
    else decodeUtf32 name bigEndian (pos + 4) (pointChar n :: acc) rest
  | [] => .ok (String.ofList acc.reverse)
  | bs => .error ⟨name, pos, bs, "truncated data"⟩

/-- Decodes JSON bytes in the encoding their first bytes show. -/
def decodeJsonBytes (bs : List UInt8) : Except ByteFault String :=
  match Encoding.detect bs with
  | .utf8 => decodeUtf8 0 [] bs
  | .utf8Marked => decodeUtf8 0 [] (bs.drop 3)
  | .utf16 =>
    match bs with
    | 0xFE :: 0xFF :: rest => decodeUtf16 "utf-16-be" true 2 [] rest
    | _ => decodeUtf16 "utf-16-le" false 2 [] (bs.drop 2)
  | .utf16le => decodeUtf16 "utf-16-le" false 0 [] bs
  | .utf16be => decodeUtf16 "utf-16-be" true 0 [] bs
  | .utf32 =>
    match bs with
    | 0x00 :: 0x00 :: 0xFE :: 0xFF :: rest => decodeUtf32 "utf-32-be" true 4 [] rest
    | _ => decodeUtf32 "utf-32-le" false 4 [] (bs.drop 4)
  | .utf32le => decodeUtf32 "utf-32-le" false 0 [] bs
  | .utf32be => decodeUtf32 "utf-32-be" true 0 [] bs

/-- The value of a hexadecimal digit. -/
def hexDigit (c : Char) : Option Nat :=
  if '0' ≤ c ∧ c ≤ '9' then some (c.toNat - '0'.toNat)
  else if 'a' ≤ c ∧ c ≤ 'f' then some (c.toNat - 'a'.toNat + 10)
  else if 'A' ≤ c ∧ c ≤ 'F' then some (c.toNat - 'A'.toNat + 10)
  else none

/-- Bytes written as pairs of hexadecimal digits. -/
def bytesOfHex : List Char → Option (List UInt8)
  | [] => some []
  | a :: b :: rest => do
    let x ← hexDigit a
    let y ← hexDigit b
    let r ← bytesOfHex rest
    pure (UInt8.ofNat (x * 16 + y) :: r)
  | [_] => none

/-- The UTF-8 bytes of a text. -/
def utf8Bytes (s : String) : List UInt8 := s.toUTF8.toList

end OperandLifecycle.Text
