/-!
# Fingerprints of texts

The 64-bit XXH3 hash of a text, with the seed zero and the standard secret, written in lower-case
hexadecimal digits. It is the name under which all occurrences of a statement are grouped, so it
must not change from one run or machine to the next.

The hash treats short, medium and long inputs differently: up to 16 bytes are mixed at once, up to
240 bytes in pieces of 16, and longer ones in stripes of 64 bytes with eight accumulators.
-/

namespace QueryTelemetry

namespace Fingerprint

/-! ### Constants -/

def prime32a : UInt64 := 0x9E3779B1
def prime32b : UInt64 := 0x85EBCA77
def prime32c : UInt64 := 0xC2B2AE3D
def prime64a : UInt64 := 0x9E3779B185EBCA87
def prime64b : UInt64 := 0xC2B2AE3D27D4EB4F
def prime64c : UInt64 := 0x165667B19E3779F9
def prime64d : UInt64 := 0x85EBCA77C2B2AE63
def prime64e : UInt64 := 0x27D4EB2F165667C5
def mixPrimeA : UInt64 := 0x165667919E3779F9
def mixPrimeB : UInt64 := 0x9FB21C651E98DF25

/-- The standard secret. -/
def secret : Array UInt8 :=
  #[0xB8, 0xFE, 0x6C, 0x39, 0x23, 0xA4, 0x4B, 0xBE, 0x7C, 0x01, 0x81, 0x2C, 0xF7, 0x21, 0xAD, 0x1C,
    0xDE, 0xD4, 0x6D, 0xE9, 0x83, 0x90, 0x97, 0xDB, 0x72, 0x40, 0xA4, 0xA4, 0xB7, 0xB3, 0x67, 0x1F,
    0xCB, 0x79, 0xE6, 0x4E, 0xCC, 0xC0, 0xE5, 0x78, 0x82, 0x5A, 0xD0, 0x7D, 0xCC, 0xFF, 0x72, 0x21,
    0xB8, 0x08, 0x46, 0x74, 0xF7, 0x43, 0x24, 0x8E, 0xE0, 0x35, 0x90, 0xE6, 0x81, 0x3A, 0x26, 0x4C,
    0x3C, 0x28, 0x52, 0xBB, 0x91, 0xC3, 0x00, 0xCB, 0x88, 0xD0, 0x65, 0x8B, 0x1B, 0x53, 0x2E, 0xA3,
    0x71, 0x64, 0x48, 0x97, 0xA2, 0x0D, 0xF9, 0x4E, 0x38, 0x19, 0xEF, 0x46, 0xA9, 0xDE, 0xAC, 0xD8,
    0xA8, 0xFA, 0x76, 0x3F, 0xE3, 0x9C, 0x34, 0x3F, 0xF9, 0xDC, 0xBB, 0xC7, 0xC7, 0x0B, 0x4F, 0x1D,
    0x8A, 0x51, 0xE0, 0x4B, 0xCD, 0xB4, 0x59, 0x31, 0xC8, 0x9F, 0x7E, 0xC9, 0xD9, 0x78, 0x73, 0x64,
    0xEA, 0xC5, 0xAC, 0x83, 0x34, 0xD3, 0xEB, 0xC3, 0xC5, 0x81, 0xA0, 0xFF, 0xFA, 0x13, 0x63, 0xEB,
    0x17, 0x0D, 0xDD, 0x51, 0xB7, 0xF0, 0xDA, 0x49, 0xD3, 0x16, 0x55, 0x26, 0x29, 0xD4, 0x68, 0x9E,
    0x2B, 0x16, 0xBE, 0x58, 0x7D, 0x47, 0xA1, 0xFC, 0x8F, 0xF8, 0xB8, 0xD1, 0x7A, 0xD0, 0x31, 0xCE,
    0x45, 0xCB, 0x3A, 0x8F, 0x95, 0x16, 0x04, 0x28, 0xAF, 0xD7, 0xFB, 0xCA, 0xBB, 0x4B, 0x40, 0x7E]

/-! ### Reading words -/

/-- The byte at a position; zero beyond the end. -/
def byteAt (bytes : Array UInt8) (i : Nat) : UInt64 := (bytes.getD i 0).toUInt64

/-- The 32 bits at a position, lowest byte first. -/
def word32 (bytes : Array UInt8) (i : Nat) : UInt64 :=
  byteAt bytes i ||| byteAt bytes (i + 1) <<< 8 ||| byteAt bytes (i + 2) <<< 16 |||
    byteAt bytes (i + 3) <<< 24

/-- The 64 bits at a position, lowest byte first. -/
def word64 (bytes : Array UInt8) (i : Nat) : UInt64 :=
  word32 bytes i ||| word32 bytes (i + 4) <<< 32

/-! ### Mixing -/

/-- Moves the bits up and brings those that fall out back in below. -/
def rotateLeft (x k : UInt64) : UInt64 := x <<< k ||| x >>> (64 - k)

/-- The eight bytes in opposite order. -/
def reverseBytes (x : UInt64) : UInt64 :=
  (x &&& 0xFF) <<< 56 ||| (x >>> 8 &&& 0xFF) <<< 48 ||| (x >>> 16 &&& 0xFF) <<< 40 |||
    (x >>> 24 &&& 0xFF) <<< 32 ||| (x >>> 32 &&& 0xFF) <<< 24 ||| (x >>> 40 &&& 0xFF) <<< 16 |||
    (x >>> 48 &&& 0xFF) <<< 8 ||| x >>> 56

/-- The two halves of the 128-bit product, combined. -/
def foldedProduct (a b : UInt64) : UInt64 :=
  let product := a.toNat * b.toNat
  (product % UInt64.size).toUInt64 ^^^ (product / UInt64.size).toUInt64

/-- The last step for inputs of up to three bytes. -/
def avalancheShort (h : UInt64) : UInt64 :=
  let h := (h ^^^ h >>> 33) * prime64b
  let h := (h ^^^ h >>> 29) * prime64c
  h ^^^ h >>> 32

/-- The last step for inputs of nine bytes or more. -/
def avalanche (h : UInt64) : UInt64 :=
  let h := (h ^^^ h >>> 37) * mixPrimeA
  h ^^^ h >>> 32

/-- The last step for inputs of four to eight bytes. -/
def avalancheWithLength (h : UInt64) (length : UInt64) : UInt64 :=
  let h := (h ^^^ rotateLeft h 49 ^^^ rotateLeft h 24) * mixPrimeB
  let h := (h ^^^ (h >>> 35 + length)) * mixPrimeB
  h ^^^ h >>> 28

/-- Mixes 16 bytes of the input with 16 bytes of the secret. -/
def mixPiece (input : Array UInt8) (i k : Nat) : UInt64 :=
  foldedProduct (word64 input i ^^^ word64 secret k)
    (word64 input (i + 8) ^^^ word64 secret (k + 8))

/-! ### By length -/

/-- For no byte at all. -/
def hashEmpty : UInt64 := avalancheShort (word64 secret 56 ^^^ word64 secret 64)

/-- For one to three bytes. -/
def hashUpTo3 (input : Array UInt8) : UInt64 :=
  let n := input.size
  let combined := byteAt input 0 <<< 16 ||| byteAt input (n / 2) <<< 24 |||
    byteAt input (n - 1) ||| n.toUInt64 <<< 8
  avalancheShort (combined ^^^ (word32 secret 0 ^^^ word32 secret 4))

/-- For four to eight bytes. -/
def hashUpTo8 (input : Array UInt8) : UInt64 :=
  let n := input.size
  let flips := word64 secret 8 ^^^ word64 secret 16
  let joined := word32 input (n - 4) + word32 input 0 <<< 32
  avalancheWithLength (joined ^^^ flips) n.toUInt64

/-- For nine to 16 bytes. -/
def hashUpTo16 (input : Array UInt8) : UInt64 :=
  let n := input.size
  let low := word64 input 0 ^^^ (word64 secret 24 ^^^ word64 secret 32)
  let high := word64 input (n - 8) ^^^ (word64 secret 40 ^^^ word64 secret 48)
  avalanche (n.toUInt64 + reverseBytes low + high + foldedProduct low high)

/-- For 17 to 128 bytes: pieces from both ends towards the middle. -/
def hashUpTo128 (input : Array UInt8) : UInt64 :=
  let n := input.size
  let pairs := (n - 1) / 32 + 1
  let mixed := (List.range pairs).foldl
    (fun sum i => sum + mixPiece input (16 * i) (32 * i) +
      mixPiece input (n - 16 * (i + 1)) (32 * i + 16))
    (n.toUInt64 * prime64a)
  avalanche mixed

/-- For 129 to 240 bytes: all pieces in order, and once more the last 16 bytes. -/
def hashUpTo240 (input : Array UInt8) : UInt64 :=
  let n := input.size
  let first := (List.range 8).foldl
    (fun sum i => sum + mixPiece input (16 * i) (16 * i)) (n.toUInt64 * prime64a)
  let all := (List.range (n / 16 - 8)).foldl
    (fun sum i => sum + mixPiece input (16 * (i + 8)) (16 * i + 3)) (avalanche first)
  avalanche (all + mixPiece input (n - 16) 119)

/-! ### Long inputs -/

/-- The accumulators before the first stripe. -/
def initialAccumulators : Vector UInt64 8 :=
  #v[prime32c, prime64a, prime64b, prime64c, prime64d, prime32b, prime64e, prime32a]

/-- The other accumulator of a pair. -/
def partner (i : Fin 8) : Fin 8 :=
  ⟨if i.val % 2 = 0 then i.val + 1 else i.val - 1, by have := i.isLt; split <;> omega⟩

/-- Adds a stripe of 64 bytes. Each word goes into the partner as it is and, mixed with the secret,
into its own accumulator as the product of its halves. -/
def addStripe (input : Array UInt8) (i k : Nat) (sums : Vector UInt64 8) : Vector UInt64 8 :=
  Vector.ofFn fun lane =>
    let keyed : UInt64 := word64 input (i + 8 * lane.val) ^^^ word64 secret (k + 8 * lane.val)
    let halves : UInt64 := (keyed &&& (0xFFFFFFFF : UInt64)) * (keyed >>> 32)
    sums[lane] + word64 input (i + 8 * (partner lane).val) + halves

/-- Stirs the accumulators after a block. -/
def scramble (sums : Vector UInt64 8) : Vector UInt64 8 :=
  Vector.ofFn fun lane =>
    let x := sums[lane]
    (x ^^^ x >>> 47 ^^^ word64 secret (128 + 8 * lane.val)) * prime32a

/-- Adds the first `count` stripes of a block. -/
def addStripes (input : Array UInt8) (start count : Nat) (sums : Vector UInt64 8) :
    Vector UInt64 8 :=
  (List.range count).foldl (fun sums n => addStripe input (start + 64 * n) (8 * n) sums) sums

/-- Combines the accumulators. -/
def mergeAccumulators (sums : Vector UInt64 8) (start : UInt64) : UInt64 :=
  let pair (i : Fin 4) : UInt64 :=
    foldedProduct (sums[2 * i.val] ^^^ word64 secret (11 + 16 * i.val))
      (sums[2 * i.val + 1] ^^^ word64 secret (11 + 16 * i.val + 8))
  avalanche (start + pair 0 + pair 1 + pair 2 + pair 3)

/-- For more than 240 bytes: blocks of 16 stripes, the stripes of the last block, and once more the
last 64 bytes. -/
def hashLong (input : Array UInt8) : UInt64 :=
  let n := input.size
  let blocks := (n - 1) / 1024
  let whole := (List.range blocks).foldl
    (fun sums b => scramble (addStripes input (1024 * b) 16 sums)) initialAccumulators
  let rest := addStripes input (1024 * blocks) ((n - 1 - 1024 * blocks) / 64) whole
  mergeAccumulators (addStripe input (n - 64) 121 rest) (n.toUInt64 * prime64a)

/-- The hash of a sequence of bytes. -/
def hash (input : Array UInt8) : UInt64 :=
  let n := input.size
  if n = 0 then hashEmpty
  else if n ≤ 3 then hashUpTo3 input
  else if n ≤ 8 then hashUpTo8 input
  else if n ≤ 16 then hashUpTo16 input
  else if n ≤ 128 then hashUpTo128 input
  else if n ≤ 240 then hashUpTo240 input
  else hashLong input

/-- The fingerprint of a text: the hash of its UTF-8 bytes in hexadecimal digits, without leading
zeros. -/
def ofText (text : String) : String :=
  String.ofList (Nat.toDigits 16 (hash text.toUTF8.data).toNat)

end Fingerprint

end QueryTelemetry
