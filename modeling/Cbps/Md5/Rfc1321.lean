import Mathlib.Data.BitVec
import Mathlib.Data.List.Basic

/-!
# The MD5 digest, as RFC 1321 defines it

The document describes the digest in four steps, and the definitions follow it in order:
the message is padded with a one bit, zeros and its 64-bit length (`pad`); the padded
message is read as blocks of sixteen little-endian words (`blockWord`); each block is
processed by four rounds of sixteen operations on the registers `A, B, C, D` (`compress`),
written row by row as in the document; and the registers are put out low-order byte first.

Messages are octet strings, so the appended one bit is the octet `0x80`. The table `T` is
the integer part of `4294967296 * abs(sin(i))`, as listed in the document's appendix.
-/

namespace Cbps.Md5

/-- A 32-bit word. -/
abbrev U32 := BitVec 32

/-- The four registers, or the four words of a chaining state. -/
abbrev Quad := U32 × U32 × U32 × U32

/-- The word whose octets are `b0, b1, b2, b3`, low-order octet first. -/
def leWord (b0 b1 b2 b3 : UInt8) : U32 :=
  b0.toBitVec.setWidth 32 ||| b1.toBitVec.setWidth 32 <<< 8 |||
    b2.toBitVec.setWidth 32 <<< 16 ||| b3.toBitVec.setWidth 32 <<< 24

/-- Octet `i` of a word, counted from the low-order end. -/
def octetOf {w : ℕ} (x : BitVec w) (i : ℕ) : UInt8 := UInt8.ofBitVec (x.extractLsb' (8 * i) 8)

namespace Rfc1321

/-! ### Step 1 and 2: padding and length -/

/-- The number of zero octets that bring the message and the marker to 56 modulo 64. -/
def padZeros (len : ℕ) : ℕ := (119 - len % 64) % 64

/-- The 64-bit count of message **bits**, low-order octet first. -/
def lengthOctets (len : ℕ) : List UInt8 :=
  (List.range 8).map fun i => octetOf (BitVec.ofNat 64 (8 * len)) i

/-- The padded message. -/
def pad (m : List UInt8) : List UInt8 :=
  m ++ [0x80] ++ List.replicate (padZeros m.length) 0 ++ lengthOctets m.length

/-! ### Step 3: the registers -/

/-- The initial value of the registers. -/
def initial : Quad := (0x67452301, 0xefcdab89, 0x98badcfe, 0x10325476)

/-! ### Step 4: processing one block -/

/-- `X[k]`, word `k` of a block of octets. -/
def blockWord (block : List UInt8) (k : ℕ) : U32 :=
  leWord (block.getD (4 * k) 0) (block.getD (4 * k + 1) 0) (block.getD (4 * k + 2) 0)
    (block.getD (4 * k + 3) 0)

def F (x y z : U32) : U32 := (x &&& y) ||| (~~~x &&& z)

def G (x y z : U32) : U32 := (x &&& z) ||| (y &&& ~~~z)

def H (x y z : U32) : U32 := x ^^^ y ^^^ z

def I (x y z : U32) : U32 := y ^^^ (x ||| ~~~z)

/-- The sine table, counted from one as in the document. -/
def T (i : ℕ) : U32 :=
  ([
    0xd76aa478, 0xe8c7b756, 0x242070db, 0xc1bdceee,
    0xf57c0faf, 0x4787c62a, 0xa8304613, 0xfd469501,
    0x698098d8, 0x8b44f7af, 0xffff5bb1, 0x895cd7be,
    0x6b901122, 0xfd987193, 0xa679438e, 0x49b40821,
    0xf61e2562, 0xc040b340, 0x265e5a51, 0xe9b6c7aa,
    0xd62f105d, 0x02441453, 0xd8a1e681, 0xe7d3fbc8,
    0x21e1cde6, 0xc33707d6, 0xf4d50d87, 0x455a14ed,
    0xa9e3e905, 0xfcefa3f8, 0x676f02d9, 0x8d2a4c8a,
    0xfffa3942, 0x8771f681, 0x6d9d6122, 0xfde5380c,
    0xa4beea44, 0x4bdecfa9, 0xf6bb4b60, 0xbebfbc70,
    0x289b7ec6, 0xeaa127fa, 0xd4ef3085, 0x04881d05,
    0xd9d4d039, 0xe6db99e5, 0x1fa27cf8, 0xc4ac5665,
    0xf4292244, 0x432aff97, 0xab9423a7, 0xfc93a039,
    0x655b59c3, 0x8f0ccc92, 0xffeff47d, 0x85845dd1,
    0x6fa87e4f, 0xfe2ce6e0, 0xa3014314, 0x4e0811a1,
    0xf7537e82, 0xbd3af235, 0x2ad7d2bb, 0xeb86d391] : List U32).getD (i - 1) 0

/-- The operation `[abcd k s i]`: `a = b + ((a + f(b,c,d) + X[k] + T[i]) <<< s)`. -/
def operation (f : U32 → U32 → U32 → U32) (X : ℕ → U32) (a b c d : U32) (k s i : ℕ) : U32 :=
  b + (a + f b c d + X k + T i).rotateLeft s

/-- One printed row of a round: `[ABCD k s i] [DABC k s i] [CDAB k s i] [BCDA k s i]`, the
table index counting up from `i`. -/
def row (f : U32 → U32 → U32 → U32) (X : ℕ → U32) (s : ℕ × ℕ × ℕ × ℕ) (k : ℕ × ℕ × ℕ × ℕ)
    (i : ℕ) (r : Quad) : Quad :=
  let A := operation f X r.1 r.2.1 r.2.2.1 r.2.2.2 k.1 s.1 i
  let D := operation f X r.2.2.2 A r.2.1 r.2.2.1 k.2.1 s.2.1 (i + 1)
  let C := operation f X r.2.2.1 D A r.2.1 k.2.2.1 s.2.2.1 (i + 2)
  let B := operation f X r.2.1 C D A k.2.2.2 s.2.2.2 (i + 3)
  (A, B, C, D)

def round1 (X : ℕ → U32) (r : Quad) : Quad :=
  row F X (7, 12, 17, 22) (12, 13, 14, 15) 13 <| row F X (7, 12, 17, 22) (8, 9, 10, 11) 9 <|
    row F X (7, 12, 17, 22) (4, 5, 6, 7) 5 <| row F X (7, 12, 17, 22) (0, 1, 2, 3) 1 r

def round2 (X : ℕ → U32) (r : Quad) : Quad :=
  row G X (5, 9, 14, 20) (13, 2, 7, 12) 29 <| row G X (5, 9, 14, 20) (9, 14, 3, 8) 25 <|
    row G X (5, 9, 14, 20) (5, 10, 15, 4) 21 <| row G X (5, 9, 14, 20) (1, 6, 11, 0) 17 r

def round3 (X : ℕ → U32) (r : Quad) : Quad :=
  row H X (4, 11, 16, 23) (9, 12, 15, 2) 45 <| row H X (4, 11, 16, 23) (13, 0, 3, 6) 41 <|
    row H X (4, 11, 16, 23) (1, 4, 7, 10) 37 <| row H X (4, 11, 16, 23) (5, 8, 11, 14) 33 r

def round4 (X : ℕ → U32) (r : Quad) : Quad :=
  row I X (6, 10, 15, 21) (4, 11, 2, 9) 61 <| row I X (6, 10, 15, 21) (8, 15, 6, 13) 57 <|
    row I X (6, 10, 15, 21) (12, 3, 10, 1) 53 <| row I X (6, 10, 15, 21) (0, 7, 14, 5) 49 r

/-- Increment the registers by the four rounds over one block. -/
def compressWords (r : Quad) (X : ℕ → U32) : Quad :=
  let t := round4 X (round3 X (round2 X (round1 X r)))
  (r.1 + t.1, r.2.1 + t.2.1, r.2.2.1 + t.2.2.1, r.2.2.2 + t.2.2.2)

def compress (r : Quad) (block : List UInt8) : Quad := compressWords r (blockWord block)

/-- Process the first `n` blocks of an octet string. -/
def processBlocks : ℕ → Quad → List UInt8 → Quad
  | 0, r, _ => r
  | n + 1, r, octets => processBlocks n (compress r (octets.take 64)) (octets.drop 64)

/-! ### Step 5: output -/

/-- The sixteen octets of `A, B, C, D`, each low-order octet first. -/
def output (r : Quad) : List UInt8 :=
  [r.1, r.2.1, r.2.2.1, r.2.2.2].flatMap fun x => (List.range 4).map (octetOf x)

/-- The digest of a message. -/
def digest (m : List UInt8) : List UInt8 :=
  output (processBlocks ((pad m).length / 64) initial (pad m))

/-! ### The shape of a padded message -/

theorem length_lengthOctets (len : ℕ) : (lengthOctets len).length = 8 := by
  simp [lengthOctets]

theorem length_pad (m : List UInt8) : (pad m).length = m.length + 1 + padZeros m.length + 8 := by
  simp only [pad, List.length_append, List.length_replicate, length_lengthOctets,
    List.length_singleton]

/-- Processing a concatenation is processing one part after the other. -/
theorem processBlocks_append {k n : ℕ} {r : Quad} {xs ys : List UInt8} (h : xs.length = 64 * k) :
    processBlocks (k + n) r (xs ++ ys) = processBlocks n (processBlocks k r xs) ys := by
  induction k generalizing r xs with
  | zero =>
    obtain rfl : xs = [] := List.eq_nil_of_length_eq_zero (by omega)
    simp [processBlocks]
  | succ k ih =>
    have htake : (xs ++ ys).take 64 = xs.take 64 := List.take_append_of_le_length (by omega)
    have hdrop : (xs ++ ys).drop 64 = xs.drop 64 ++ ys := List.drop_append_of_le_length (by omega)
    rw [Nat.add_right_comm, processBlocks, htake, hdrop, ih (by rw [List.length_drop]; omega),
      processBlocks]

end Rfc1321

end Cbps.Md5
