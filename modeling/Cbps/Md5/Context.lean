import Cbps.Md5.Rfc1321

/-!
# The MD5 library of the stack

The model of `md5.c`, function by function. The context holds the block buffer as sixteen
words, the chaining state and the octet counter; `fill` only ever **ORs** octets into the
buffer and relies on `transform` having cleared it. To say so, the context also records the
calls of `fill` (`fills`), which no operation reads.

The 16-bit locals of the C code never wrap here: a block index is below 64 and the loop index
of `MD5Update` is at most `len`. They are natural numbers, except where a bound is what makes
a loop end: the block index is a `Fin 64`.
-/

namespace Cbps.Md5

/-- One call of `fill`: the buffer it finds, where it starts, and what it stores. -/
structure FillCall where
  word : List U32
  index : ℕ
  byte : List UInt8
  deriving DecidableEq

/-- `MD5_CTX`, with the calls of `fill` as history. -/
structure Md5Ctx where
  buffer : List U32
  state : Quad
  bytes : U32
  fills : List FillCall
  deriving DecidableEq

/-- What one call of `MD5Update` is given: at most 65535 octets, the range of its `len`. -/
structure Chunk where
  input : List UInt8
  fits : input.length < 2 ^ 16

/-! ### Octets in and out of words -/

/-- Unpack words into octets: `t` is the word being shifted out at output index `j`. -/
def encode : (len j : ℕ) → (t : U32) → (input : List U32) → List UInt8
  | 0, _, _, _ => []
  | len + 1, j, t, input =>
    let (t, input) := if j &&& 3 = 0 then (input.headD 0, input.tail) else (t, input)
    UInt8.ofBitVec (t.setWidth 8) :: encode len (j + 1) (t >>> 8) input

/-- One iteration of `fill`. -/
def orOctet (word : List U32) (index : ℕ) (byte : UInt8) : List U32 :=
  word.modify (index >>> 2) fun w => w ||| byte.toBitVec.setWidth 32 <<< (8 * (index &&& 3))

/-- OR octets into the words, starting at octet `index`. -/
def fill (word : List U32) (index : ℕ) : List UInt8 → List U32
  | [] => word
  | b :: byte => fill (orOctet word index b) (index + 1) byte

/-- `fill` applied to the buffer of a context. -/
def Md5Ctx.fill (context : Md5Ctx) (index : ℕ) (byte : List UInt8) : Md5Ctx :=
  { context with
    buffer := Md5.fill context.buffer index byte
    fills := context.fills ++ [⟨context.buffer, index, byte⟩] }

/-! ### The transform -/

/-- The additive constants of `transform`. -/
def kTable : List U32 := [
    0xd76aa478, 0xe8c7b756, 0x242070db, 0xc1bdceee,
    0xf57c0faf, 0x4787c62a, 0xa8304613, 0xfd469501,
    0x698098d8, 0x8b44f7af, 0xffff5bb1, 0x895cd7be,
    0x6b901122, 0xfd987193, 0xa679438e, 0x49b40821,
    0xf61e2562, 0xc040b340, 0x265e5a51, 0xe9b6c7aa,
    0xd62f105d, 0x02441453, 0xd8a1e681, 0xe7d3fbc8,
    0x21e1cde6, 0xc33707d6, 0xf4d50d87, 0x455a14ed,
    0xa9e3e905, 0xfcefa3f8, 0x676f02d9, 0x8d2a4c8a,
    0xfffa3942, 0x8771f681, 0x6d9d6122, 0xfde5380c,
    0xa4beea44, 0x4bdecfa9, 0xf6bb4b60, 0xbebfbc70,
    0x289b7ec6, 0xeaa127fa, 0xd4ef3085, 0x4881d05,
    0xd9d4d039, 0xe6db99e5, 0x1fa27cf8, 0xc4ac5665,
    0xf4292244, 0x432aff97, 0xab9423a7, 0xfc93a039,
    0x655b59c3, 0x8f0ccc92, 0xffeff47d, 0x85845dd1,
    0x6fa87e4f, 0xfe2ce6e0, 0xa3014314, 0x4e0811a1,
    0xf7537e82, 0xbd3af235, 0x2ad7d2bb, 0xeb86d391]

/-- The rotations of `transform`, by round and operation modulo four. -/
def rTable : List (List ℕ) :=
  [[7, 12, 17, 22], [5, 9, 14, 20], [4, 11, 16, 23], [6, 10, 15, 21]]

/-- The buffer index and the mixing function of iteration `i`. -/
def mix (i : ℕ) (b c d : U32) : ℕ × U32 :=
  if i < 16 then (i, d ^^^ (b &&& (c ^^^ d)))
  else if i < 32 then (5 * i + 1, c ^^^ (d &&& (b ^^^ c)))
  else if i < 48 then (3 * i + 5, b ^^^ (c ^^^ d))
  else (7 * i, c ^^^ (b ||| ~~~d))

/-- Iteration `i` of `transform`. -/
def transformStep (buffer : List U32) (v : Quad) (i : ℕ) : Quad :=
  let (a, b, c, d) := v
  let shift := (rTable.getD (i / 16) []).getD (i &&& 3) 0
  let (g, f) := mix i b c d
  let f := f + (a + kTable.getD i 0 + buffer.getD (g &&& 15) 0)
  let f := f <<< shift ||| f >>> (32 - shift)
  (d, b + f, b, c)

/-- The transform of one block; the buffer is cleared for the next `fill`. -/
def transform (context : Md5Ctx) : Md5Ctx :=
  let v := (List.range 64).foldl (transformStep context.buffer) context.state
  { context with
    state := (context.state.1 + v.1, context.state.2.1 + v.2.1, context.state.2.2.1 + v.2.2.1,
      context.state.2.2.2 + v.2.2.2)
    buffer := List.replicate 16 0 }

/-! ### The interface -/

/-- `MD5Init`. -/
def md5Init : Md5Ctx where
  buffer := List.replicate 16 0
  state := (0x67452301, 0xefcdab89, 0x98badcfe, 0x10325476)
  bytes := 0
  fills := []

/-- The loop of `MD5Update`. A call that does not fill the block is the last iteration, so
`index` is not advanced, as in the source. -/
def updateLoop (context : Md5Ctx) (input : List UInt8) (index : Fin 64) (i : ℕ) : Md5Ctx :=
  if i < input.length then
    let n := min (64 - index.val) (input.length - i)
    let context := context.fill index.val ((input.drop i).take n)
    if index.val + n = 64 then updateLoop (transform context) input 0 (i + n)
    else updateLoop context input index (i + n)
  else context
  termination_by input.length - i
  decreasing_by all_goals omega

/-- The block index of a context, `bytes & 0x3F`. -/
def Md5Ctx.index (context : Md5Ctx) : Fin 64 := Fin.ofNat 64 (context.bytes &&& 0x3F).toNat

/-- `MD5Update`. -/
def md5Update (context : Md5Ctx) (chunk : Chunk) : Md5Ctx :=
  let index := context.index
  let context := { context with bytes := context.bytes + BitVec.ofNat 32 chunk.input.length }
  updateLoop context chunk.input index 0

/-- The message length in bits, stored in the last two words of the buffer. -/
def Md5Ctx.storeLength (context : Md5Ctx) : Md5Ctx :=
  { context with
    buffer := (context.buffer.set 14 (context.bytes <<< 3)).set 15 (context.bytes >>> 29) }

/-- The array `state` of a context. -/
def Md5Ctx.stateWords (context : Md5Ctx) : List U32 :=
  [context.state.1, context.state.2.1, context.state.2.2.1, context.state.2.2.2]

/-- `MD5Final`: the digest, and the context it leaves. -/
def md5Final (context : Md5Ctx) : List UInt8 × Md5Ctx :=
  let index := context.index.val
  let context := context.fill index [0x80]
  let context := if index + 1 > 56 then transform context else context
  let context := transform context.storeLength
  (encode 16 0 0 context.stateWords, context)

/-- A whole digest operation: `MD5Init`, one `MD5Update` for each chunk, `MD5Final`. -/
def md5 (chunks : List Chunk) : List UInt8 × Md5Ctx :=
  md5Final (chunks.foldl md5Update md5Init)

/-- The message that the chunks make up. -/
def message (chunks : List Chunk) : List UInt8 := chunks.flatMap Chunk.input

/-- Octet `p` of a buffer, in the order in which `fill` addresses it. -/
def bufferOctet (word : List U32) (p : ℕ) : UInt8 := octetOf (word.getD (p >>> 2) 0) (p &&& 3)

/-- A call of `fill` that finds every octet it has not filled yet zero. -/
def FillCall.Clear (call : FillCall) : Prop :=
  ∀ p, call.index ≤ p → bufferOctet call.word p = 0

end Cbps.Md5
