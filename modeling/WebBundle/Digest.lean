/-!
# Content digests

A digest is the 128-bit XXH3 hash of a byte string with seed zero.  Four
ranges of the length are hashed differently: up to 16 bytes by a closed
formula, up to 240 bytes by folding 32-byte lanes from both ends, and
everything longer by eight accumulators that absorb 64-byte stripes.
Reads past the end of the data yield zero, so every function is total; no
length class ever performs one.
-/

namespace WebBundle

/-- A 128-bit digest as two little-endian words. -/
structure Digest where
  low : UInt64
  high : UInt64
  deriving DecidableEq, Repr, Inhabited

namespace Digest

/-- The digest as one number. -/
def toNat (digest : Digest) : Nat :=
  digest.high.toNat * UInt64.size + digest.low.toNat

private def hexDigit (value : Nat) : Char :=
  if value < 10 then Char.ofNat (48 + value) else Char.ofNat (87 + value)

/-- Lower-case hexadecimal digits of a number, most significant first, padded
with zeros to the given width. -/
def hexDigits : (width : Nat) → (value : Nat) → List Char
  | 0, _ => []
  | width + 1, value => hexDigits width (value / 16) ++ [hexDigit (value % 16)]

/-- The 32 lower-case hexadecimal digits of a digest. -/
def toHex (digest : Digest) : String :=
  String.ofList (hexDigits 32 digest.toNat)

theorem mem_hexDigits {width value : Nat} {c : Char} (hc : c ∈ hexDigits width value) :
    c ∈ "0123456789abcdef".toList := by
  have hdigit : ∀ digit < 16, hexDigit digit ∈ "0123456789abcdef".toList := by decide
  induction width generalizing value with
  | zero => cases hc
  | succ width ih =>
      rcases List.mem_append.mp hc with hfirst | hlast
      · exact ih hfirst
      · rw [List.mem_singleton.mp hlast]
        exact hdigit _ (Nat.mod_lt value (by decide))

private def prime32First : UInt64 := 0x9E3779B1
private def prime32Second : UInt64 := 0x85EBCA77
private def prime32Third : UInt64 := 0xC2B2AE3D
private def prime64First : UInt64 := 0x9E3779B185EBCA87
private def prime64Second : UInt64 := 0xC2B2AE3D27D4EB4F
private def prime64Third : UInt64 := 0x165667B19E3779F9
private def prime64Fourth : UInt64 := 0x85EBCA77C2B2AE63
private def prime64Fifth : UInt64 := 0x27D4EB2F165667C5
private def mixFirst : UInt64 := 0x165667919E3779F9
private def mixSecond : UInt64 := 0x9FB21C651E98DF25

/-- The fixed key material of the hash. -/
private def secret : ByteArray := ⟨#[
  0xb8, 0xfe, 0x6c, 0x39, 0x23, 0xa4, 0x4b, 0xbe, 0x7c, 0x01, 0x81, 0x2c, 0xf7, 0x21, 0xad, 0x1c,
  0xde, 0xd4, 0x6d, 0xe9, 0x83, 0x90, 0x97, 0xdb, 0x72, 0x40, 0xa4, 0xa4, 0xb7, 0xb3, 0x67, 0x1f,
  0xcb, 0x79, 0xe6, 0x4e, 0xcc, 0xc0, 0xe5, 0x78, 0x82, 0x5a, 0xd0, 0x7d, 0xcc, 0xff, 0x72, 0x21,
  0xb8, 0x08, 0x46, 0x74, 0xf7, 0x43, 0x24, 0x8e, 0xe0, 0x35, 0x90, 0xe6, 0x81, 0x3a, 0x26, 0x4c,
  0x3c, 0x28, 0x52, 0xbb, 0x91, 0xc3, 0x00, 0xcb, 0x88, 0xd0, 0x65, 0x8b, 0x1b, 0x53, 0x2e, 0xa3,
  0x71, 0x64, 0x48, 0x97, 0xa2, 0x0d, 0xf9, 0x4e, 0x38, 0x19, 0xef, 0x46, 0xa9, 0xde, 0xac, 0xd8,
  0xa8, 0xfa, 0x76, 0x3f, 0xe3, 0x9c, 0x34, 0x3f, 0xf9, 0xdc, 0xbb, 0xc7, 0xc7, 0x0b, 0x4f, 0x1d,
  0x8a, 0x51, 0xe0, 0x4b, 0xcd, 0xb4, 0x59, 0x31, 0xc8, 0x9f, 0x7e, 0xc9, 0xd9, 0x78, 0x73, 0x64,
  0xea, 0xc5, 0xac, 0x83, 0x34, 0xd3, 0xeb, 0xc3, 0xc5, 0x81, 0xa0, 0xff, 0xfa, 0x13, 0x63, 0xeb,
  0x17, 0x0d, 0xdd, 0x51, 0xb7, 0xf0, 0xda, 0x49, 0xd3, 0x16, 0x55, 0x26, 0x29, 0xd4, 0x68, 0x9e,
  0x2b, 0x16, 0xbe, 0x58, 0x7d, 0x47, 0xa1, 0xfc, 0x8f, 0xf8, 0xb8, 0xd1, 0x7a, 0xd0, 0x31, 0xce,
  0x45, 0xcb, 0x3a, 0x8f, 0x95, 0x16, 0x04, 0x28, 0xaf, 0xd7, 0xfb, 0xca, 0xbb, 0x4b, 0x40, 0x7e]⟩

private def byteAt (data : ByteArray) (index : Nat) : UInt64 :=
  match data[index]? with
  | some byte => byte.toUInt64
  | none => 0

/-- The little-endian 32-bit word at a byte offset. -/
private def word32 (data : ByteArray) (index : Nat) : UInt64 :=
  byteAt data index ||| (byteAt data (index + 1) <<< 8) |||
    (byteAt data (index + 2) <<< 16) ||| (byteAt data (index + 3) <<< 24)

/-- The little-endian 64-bit word at a byte offset. -/
private def word64 (data : ByteArray) (index : Nat) : UInt64 :=
  word32 data index ||| (word32 data (index + 4) <<< 32)

private def key (index : Nat) : UInt64 := word64 secret index

/-- The full product of two words. -/
private def wideMul (left right : UInt64) : Digest :=
  let product := left.toNat * right.toNat
  ⟨UInt64.ofNat product, UInt64.ofNat (product / UInt64.size)⟩

/-- Both halves of the full product, combined by exclusive or. -/
private def foldedMul (left right : UInt64) : UInt64 :=
  let product := wideMul left right
  product.low ^^^ product.high

private def low32 (value : UInt64) : UInt64 := value &&& 0xFFFFFFFF

private def swap32 (value : UInt64) : UInt64 :=
  let byte (shift : UInt64) : UInt64 := (value >>> shift) &&& (0xFF : UInt64)
  (byte 0 <<< 24) ||| (byte 8 <<< 16) ||| (byte 16 <<< 8) ||| byte 24

private def swap64 (value : UInt64) : UInt64 :=
  (swap32 (low32 value) <<< 32) ||| swap32 (value >>> 32)

private def rotateLeft32 (value : UInt64) (amount : UInt64) : UInt64 :=
  low32 (value <<< amount) ||| (value >>> (32 - amount))

private def avalanche (value : UInt64) : UInt64 :=
  let mixed := (value ^^^ (value >>> 37)) * mixFirst
  mixed ^^^ (mixed >>> 32)

private def shortAvalanche (value : UInt64) : UInt64 :=
  let first := (value ^^^ (value >>> 33)) * prime64Second
  let second := (first ^^^ (first >>> 29)) * prime64Third
  second ^^^ (second >>> 32)

private def ofEmpty : Digest :=
  ⟨shortAvalanche (key 64 ^^^ key 72), shortAvalanche (key 80 ^^^ key 88)⟩

/-- One to three bytes. -/
private def ofTiny (data : ByteArray) : Digest :=
  let size := data.size
  let combined := (byteAt data 0 <<< 16) ||| (byteAt data (size / 2) <<< 24) |||
    byteAt data (size - 1) ||| (UInt64.ofNat size <<< 8)
  let swapped := rotateLeft32 (swap32 combined) 13
  ⟨shortAvalanche (combined ^^^ (word32 secret 0 ^^^ word32 secret 4)),
    shortAvalanche (swapped ^^^ (word32 secret 8 ^^^ word32 secret 12))⟩

/-- Four to eight bytes. -/
private def ofShort (data : ByteArray) : Digest :=
  let size := data.size
  let input := word32 data 0 + (word32 data (size - 4) <<< 32)
  let product := wideMul (input ^^^ (key 16 ^^^ key 24))
    (prime64First + (UInt64.ofNat size <<< 2))
  let high := product.high + (product.low <<< 1)
  let low := product.low ^^^ (high >>> 3)
  let low := (low ^^^ (low >>> 35)) * mixSecond
  ⟨low ^^^ (low >>> 28), avalanche high⟩

/-- Nine to sixteen bytes. -/
private def ofMedium (data : ByteArray) : Digest :=
  let size := data.size
  let first := word64 data 0
  let last := word64 data (size - 8)
  let product := wideMul (first ^^^ last ^^^ (key 32 ^^^ key 40)) prime64First
  let low := product.low + (UInt64.ofNat (size - 1) <<< 54)
  let keyed := last ^^^ (key 48 ^^^ key 56)
  let high := product.high + keyed + low32 keyed * (prime32Second - 1)
  let final := wideMul (low ^^^ swap64 high) prime64Second
  ⟨avalanche final.low, avalanche (final.high + high * prime64Second)⟩

private def mixLane (data : ByteArray) (index keyIndex : Nat) : UInt64 :=
  foldedMul (word64 data index ^^^ key keyIndex) (word64 data (index + 8) ^^^ key (keyIndex + 8))

/-- Absorbs two 16-byte lanes into both halves of the accumulator. -/
private def mixPair (data : ByteArray) (acc : Digest) (left right keyIndex : Nat) : Digest :=
  ⟨(acc.low + mixLane data left keyIndex) ^^^ (word64 data right + word64 data (right + 8)),
    (acc.high + mixLane data right (keyIndex + 16)) ^^^
      (word64 data left + word64 data (left + 8))⟩

private def finishLanes (size : Nat) (acc : Digest) : Digest :=
  ⟨avalanche (acc.low + acc.high),
    0 - avalanche (acc.low * prime64First + acc.high * prime64Fourth +
      UInt64.ofNat size * prime64Second)⟩

/-- 17 to 128 bytes: lanes are taken from both ends towards the middle. -/
private def ofLanes (data : ByteArray) : Digest :=
  let size := data.size
  let start : Digest := ⟨UInt64.ofNat size * prime64First, 0⟩
  let inner := (List.range ((size - 1) / 32)).reverse.foldl
    (fun acc lane =>
      mixPair data acc (16 * (lane + 1)) (size - 16 * (lane + 2)) (32 * (lane + 1))) start
  finishLanes size (mixPair data inner 0 (size - 16) 0)

/-- 129 to 240 bytes: four lanes, a scramble, the remaining lanes and the tail. -/
private def ofManyLanes (data : ByteArray) : Digest :=
  let size := data.size
  let start : Digest := ⟨UInt64.ofNat size * prime64First, 0⟩
  let opening := (List.range 4).foldl
    (fun acc lane => mixPair data acc (32 * lane) (32 * lane + 16) (32 * lane)) start
  let scrambled : Digest := ⟨avalanche opening.low, avalanche opening.high⟩
  let middle := (List.range (size / 32 - 4)).foldl
    (fun acc lane =>
      mixPair data acc (128 + 32 * lane) (144 + 32 * lane) (3 + 32 * lane)) scrambled
  finishLanes size (mixPair data middle (size - 16) (size - 32) 103)

/-- Eight accumulators absorb one 64-byte stripe. -/
private def absorb (data : ByteArray) (acc : Array UInt64) (index keyIndex : Nat) : Array UInt64 :=
  (Array.range 8).map fun lane =>
    let value := word64 data (index + 8 * lane)
    let keyed := value ^^^ key (keyIndex + 8 * lane)
    let partner := if lane % 2 = 0 then lane + 1 else lane - 1
    acc.getD lane 0 + word64 data (index + 8 * partner) + low32 keyed * (keyed >>> 32)

private def scramble (acc : Array UInt64) : Array UInt64 :=
  (Array.range 8).map fun lane =>
    let value := acc.getD lane 0
    ((value ^^^ (value >>> 47)) ^^^ key (128 + 8 * lane)) * prime32First

private def absorbStripes (data : ByteArray) (start count : Nat) (acc : Array UInt64) :
    Array UInt64 :=
  (List.range count).foldl (fun acc stripe => absorb data acc (start + 64 * stripe) (8 * stripe)) acc

private def merge (acc : Array UInt64) (keyIndex : Nat) (start : UInt64) : UInt64 :=
  avalanche <| (List.range 4).foldl
    (fun result lane =>
      result + foldedMul (acc.getD (2 * lane) 0 ^^^ key (keyIndex + 16 * lane))
        (acc.getD (2 * lane + 1) 0 ^^^ key (keyIndex + 16 * lane + 8))) start

/-- More than 240 bytes: blocks of sixteen stripes, each followed by a scramble. -/
private def ofStripes (data : ByteArray) : Digest :=
  let size := data.size
  let start := #[prime32Third, prime64First, prime64Second, prime64Third,
    prime64Fourth, prime32Second, prime64Fifth, prime32First]
  let blocks := (size - 1) / 1024
  let acc := (List.range blocks).foldl
    (fun acc block => scramble (absorbStripes data (1024 * block) 16 acc)) start
  let acc := absorbStripes data (1024 * blocks) ((size - 1 - 1024 * blocks) / 64) acc
  let acc := absorb data acc (size - 64) 121
  ⟨merge acc 11 (UInt64.ofNat size * prime64First),
    merge acc 117 (~~~(UInt64.ofNat size * prime64Second))⟩

/-- The digest of a byte string. -/
def ofBytes (data : ByteArray) : Digest :=
  if data.size = 0 then ofEmpty
  else if data.size ≤ 3 then ofTiny data
  else if data.size ≤ 8 then ofShort data
  else if data.size ≤ 16 then ofMedium data
  else if data.size ≤ 128 then ofLanes data
  else if data.size ≤ 240 then ofManyLanes data
  else ofStripes data

/-- The digest of the UTF-8 bytes of a text. -/
def ofText (text : String) : Digest := ofBytes text.toUTF8

end Digest

end WebBundle
