/-!
# SHA-1

The SHA-1 digest of a byte string (FIPS 180-4): the message is padded with a one bit, zeros
and its bit length to a multiple of 64 bytes, and each 64-byte block is folded into five
32-bit words by eighty rounds. `sha1Hex` writes the 20-byte digest as 40 lower-case hex
digits. The manager names events after a digest of their content.
-/
namespace OperandLifecycle.Digest

/-- The five words of the running digest. -/
structure Sha1State where
  a : UInt32
  b : UInt32
  c : UInt32
  d : UInt32
  e : UInt32

/-- The initial digest. -/
def Sha1State.initial : Sha1State := ⟨0x67452301, 0xEFCDAB89, 0x98BADCFE, 0x10325476, 0xC3D2E1F0⟩

/-- Rotates a word left by `n` bits. -/
def rotl (x : UInt32) (n : UInt32) : UInt32 := (x <<< n) ||| (x >>> (32 - n))

/-- A big-endian word from four bytes. -/
def word (b0 b1 b2 b3 : UInt8) : UInt32 :=
  (b0.toUInt32 <<< 24) ||| (b1.toUInt32 <<< 16) ||| (b2.toUInt32 <<< 8) ||| b3.toUInt32

/-- The sixteen words of a 64-byte block. -/
def blockWords : List UInt8 → List UInt32
  | b0 :: b1 :: b2 :: b3 :: rest => word b0 b1 b2 b3 :: blockWords rest
  | _ => []

/-- The eighty words of the message schedule of a block. -/
def schedule (w16 : List UInt32) : Array UInt32 := Id.run do
  let mut w := w16.toArray
  for t in [16:80] do
    let x := w[t - 3]! ^^^ w[t - 8]! ^^^ w[t - 14]! ^^^ w[t - 16]!
    w := w.push (rotl x 1)
  return w

/-- The round function and constant of round `t`. -/
def roundMix (t : Nat) (b c d : UInt32) : UInt32 × UInt32 :=
  if t < 20 then ((b &&& c) ||| ((~~~b) &&& d), 0x5A827999)
  else if t < 40 then (b ^^^ c ^^^ d, 0x6ED9EBA1)
  else if t < 60 then ((b &&& c) ||| (b &&& d) ||| (c &&& d), 0x8F1BBCDC)
  else (b ^^^ c ^^^ d, 0xCA62C1D6)

/-- Folds one block into the digest. -/
def Sha1State.absorb (s : Sha1State) (block : List UInt8) : Sha1State := Id.run do
  let w := schedule (blockWords block)
  let mut v := s
  for t in [0:80] do
    let (f, k) := roundMix t v.b v.c v.d
    let tmp := rotl v.a 5 + f + v.e + k + w[t]!
    v := ⟨tmp, v.a, rotl v.b 30, v.c, v.d⟩
  return ⟨s.a + v.a, s.b + v.b, s.c + v.c, s.d + v.d, s.e + v.e⟩

/-- The message with its padding: a one bit, zeros, and the bit length in eight bytes. -/
def pad (msg : List UInt8) : List UInt8 :=
  let len := msg.length
  let zeros := (119 - len % 64) % 64
  let bits := len * 8
  msg ++ [0x80] ++ List.replicate zeros 0 ++
    (List.range 8).reverse.map (fun i => UInt8.ofNat (bits / Nat.pow 256 i % 256))

/-- Splits a list into blocks of 64. -/
def blocks (xs : List UInt8) : List (List UInt8) :=
  if _h : xs.length ≤ 64 then (if xs.isEmpty then [] else [xs])
  else xs.take 64 :: blocks (xs.drop 64)
termination_by xs.length

/-- The eight hex digits of a word. -/
def wordHex (x : UInt32) : String :=
  let ds := Nat.toDigits 16 x.toNat
  String.ofList (List.replicate (8 - ds.length) '0' ++ ds)

/-- The SHA-1 digest of bytes, as forty lower-case hex digits. -/
def sha1Hex (msg : List UInt8) : String :=
  let s := (blocks (pad msg)).foldl Sha1State.absorb Sha1State.initial
  wordHex s.a ++ wordHex s.b ++ wordHex s.c ++ wordHex s.d ++ wordHex s.e

end OperandLifecycle.Digest
