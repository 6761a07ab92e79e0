import Cbps.A2dp.Caps

/-!
# Selection of a configuration

`a2dp_codec_sbc.c`, `a2dp_codec_mp3.c`, `a2dp_codec_aac.c`, `a2dp_codec_csr_faststream.c`,
`a2dp_codec_csr_aptx.c`, `a2dp_codec_csr_aptx_acl_sprint.c` and `a2dpSelectOptimalCodecSettings`:
the remote capabilities are narrowed in place until they are a configuration. Most selections are a
chain of tests of which the first one that succeeds says what is kept of an octet, and a chain is a
`Step`.
-/

namespace Cbps.A2dp

inductive Role
  | source
  | sink
  deriving DecidableEq

/-- `caps[i] &= m`. -/
def Caps.mask (c : Caps) (i : ℕ) (m : Octet) : Caps := fun k => if k = i then c k &&& m else c k

/-- `caps[i] = v`. -/
def Caps.put (c : Caps) (i : ℕ) (v : Octet) : Caps := fun k => if k = i then v else c k

/-- What stands beside the first bit that passes the test, or the last of the chain. -/
def pick {α : Type} (test : Bit → Bool) (rows : List (Bit × α)) (last : α) : α :=
  (rows.find? fun row => test row.1).elim last Prod.snd

/-- A chain of tests that keeps a part of an octet. -/
structure Step where
  index : ℕ
  /-- The local capabilities are tested too. -/
  both : Bool
  rows : List (Bit × Octet)
  last : Octet

def Step.test (s : Step) (l c : Caps) (b : Bit) : Bool := if s.both then c.has b && l.has b else c.has b

def Step.run (s : Step) (l c : Caps) : Caps := c.mask s.index (pick (s.test l c) s.rows s.last)

/-! ### SBC -/

def sbcChannelModeStep : Step :=
  { index := 4, both := true, rows := [((4, 0), 0xf1), ((4, 1), 0xf2), ((4, 2), 0xf4)], last := 0xf8 }

def sbcBlockLengthStep : Step :=
  { index := 5, both := false, rows := [((5, 4), 0x1f), ((5, 5), 0x2f), ((5, 6), 0x4f)], last := 0x8f }

def sbcSubbandsStep : Step := { index := 5, both := false, rows := [((5, 2), 0xf7)], last := 0xfb }

def sbcAllocationStep : Step := { index := 5, both := false, rows := [((5, 0), 0xfd)], last := 0xfe }

/-- The clamps of the bitpools. -/
def clampBitpools (l c : Caps) : Caps :=
  let c := if c 6 < l 6 then c.put 6 (l 6) else c
  if l 7 < c 7 then c.put 7 (l 7) else c

/-- `selectOptimalCommonSbcCaps`. -/
def selectOptimalCommonSbcCaps (l c : Caps) : Caps :=
  let c := sbcChannelModeStep.run l c
  let c := sbcBlockLengthStep.run l c
  let c := sbcSubbandsStep.run l c
  let c := sbcAllocationStep.run l c
  clampBitpools l c

def sbcSinkFrequencyStep : Step :=
  { index := 4, both := false, rows := [((4, 5), 0x2f), ((4, 4), 0x1f), ((4, 6), 0x4f)], last := 0x8f }

def sbcSourceFrequencyStep : Step :=
  { index := 4, both := true, rows := [((4, 4), 0x1f), ((4, 5), 0x2f), ((4, 6), 0x4f)], last := 0x8f }

/-- `selectOptimalSbcCapsSink`. -/
def selectOptimalSbcCapsSink (l c : Caps) : Caps :=
  selectOptimalCommonSbcCaps l (sbcSinkFrequencyStep.run l c)

/-- `selectOptimalSbcCapsSource`. -/
def selectOptimalSbcCapsSource (l c : Caps) : Caps :=
  selectOptimalCommonSbcCaps l (sbcSourceFrequencyStep.run l c)

/-! ### MPEG audio -/

/-- A row of the tables of MPEG audio: an octet and a mask to test in the remote capabilities, the same
for the local ones, what to keep of an octet, and what to keep of another one in the table of the
bit rates. -/
structure Mp3Row where
  remoteTest : ℕ × Octet
  localTest : ℕ × Octet
  kept : ℕ × Octet
  rateKept : Option (ℕ × Octet)

def mp3CapsChannelMode : List Mp3Row :=
  [⟨(4, 0x01), (4, 0x01), (4, 0xf1), none⟩,
    ⟨(4, 0x02), (4, 0x02), (4, 0xf2), none⟩,
    ⟨(4, 0x04), (4, 0x04), (4, 0xf4), none⟩,
    ⟨(4, 0xff), (4, 0xff), (4, 0xf8), none⟩]

def mp3CapsSampleRate : List Mp3Row :=
  [⟨(5, 0x02), (5, 0x02), (5, 0xc2), none⟩,
    ⟨(5, 0x01), (5, 0x01), (5, 0xc1), none⟩,
    ⟨(5, 0x04), (5, 0x04), (5, 0xc4), none⟩,
    ⟨(5, 0x08), (5, 0x08), (5, 0xc8), none⟩,
    ⟨(5, 0x10), (5, 0x10), (5, 0xd0), none⟩,
    ⟨(5, 0xff), (5, 0xff), (5, 0xe0), none⟩]

def mp3CapsBitRate : List Mp3Row :=
  [⟨(6, 0x02), (6, 0x02), (6, 0x82), some (7, 0x00)⟩,
    ⟨(6, 0x01), (6, 0x01), (6, 0x81), some (7, 0x00)⟩,
    ⟨(6, 0x04), (6, 0x04), (6, 0x84), some (7, 0x00)⟩,
    ⟨(7, 0x80), (7, 0x80), (6, 0x80), some (7, 0x80)⟩,
    ⟨(6, 0x08), (6, 0x08), (6, 0x88), some (7, 0x00)⟩,
    ⟨(7, 0x40), (7, 0x40), (6, 0x80), some (7, 0x40)⟩,
    ⟨(6, 0x10), (6, 0x10), (6, 0x90), some (7, 0x00)⟩,
    ⟨(7, 0x20), (7, 0x20), (6, 0x80), some (7, 0x20)⟩,
    ⟨(6, 0x20), (6, 0x20), (6, 0xa0), some (7, 0x00)⟩,
    ⟨(7, 0x10), (7, 0x10), (6, 0x80), some (7, 0x10)⟩,
    ⟨(6, 0x40), (6, 0x40), (6, 0xc0), some (7, 0x00)⟩,
    ⟨(7, 0x08), (7, 0x08), (6, 0x80), some (7, 0x08)⟩,
    ⟨(7, 0x04), (7, 0x04), (6, 0x80), some (7, 0x04)⟩,
    ⟨(7, 0x02), (7, 0x02), (6, 0x80), some (7, 0x02)⟩]

def mp3CapsTable : List (List Mp3Row) := [mp3CapsChannelMode, mp3CapsSampleRate, mp3CapsBitRate]

def Mp3Row.test (row : Mp3Row) (l c : Caps) : Bool :=
  c row.remoteTest.1 &&& row.remoteTest.2 ≠ 0 ∧ l row.localTest.1 &&& row.localTest.2 ≠ 0

def Mp3Row.apply (row : Mp3Row) (l c : Caps) : Caps :=
  let c := c.mask row.kept.1 row.kept.2
  match row.rateKept with
  | none => c
  -- variable bit rates
  | some kept => (c.mask kept.1 kept.2).mask 6 (l 6 ||| 0x7f)

/-- The first row whose tests succeed is applied. -/
def selectMp3Row (l c : Caps) (rows : List Mp3Row) : Caps :=
  (rows.find? fun row => row.test l c).elim c fun row => row.apply l c

/-- `selectMp3Caps`. -/
def selectMp3Caps (l c : Caps) : Caps := mp3CapsTable.foldl (selectMp3Row l) c

/-- `selectOptimalMp3CapsSink`. -/
def selectOptimalMp3CapsSink (l c : Caps) : Caps := selectMp3Caps l c

/-- `selectOptimalMp3CapsSource`. -/
def selectOptimalMp3CapsSource (l c : Caps) : Caps := selectMp3Caps l c

/-! ### AAC -/

def aacChannelsStep : Step := { index := 6, both := false, rows := [((6, 2), 0xf4)], last := 0xf8 }

/-- `selectOptimalAacCaps`. -/
def selectOptimalAacCaps (c : Caps) : Caps :=
  let c := c.put 4 (pick c.has [((4, 6), 0x40)] 0x80)
  let c := aacChannelsStep.run c c
  if c.has (6, 7) then (c.mask 6 0x8f).put 5 0
  else
    let c := c.mask 6 0x0f
    c.put 5 (pick c.has [((5, 0), 0x01), ((5, 1), 0x02), ((5, 2), 0x04), ((5, 3), 0x08), ((5, 4), 0x10),
      ((5, 5), 0x20), ((5, 6), 0x40)] 0x80)

/-- `selectOptimalAacCapsSink`. -/
def selectOptimalAacCapsSink (_l c : Caps) : Caps := selectOptimalAacCaps c

/-- `selectOptimalAacCapsSource`. -/
def selectOptimalAacCapsSource (_l c : Caps) : Caps := selectOptimalAacCaps c

/-! ### FastStream -/

/-- `FASTSTREAM_MUSIC | FASTSTREAM_VOICE`. -/
def faststreamDirections : Octet := 0x01 ||| 0x02

/-- `FASTSTREAM_MUSIC_SAMP_48000 | FASTSTREAM_MUSIC_SAMP_44100 | FASTSTREAM_VOICE_SAMP_16000`. -/
def faststreamRates : Octet := 0x01 ||| 0x02 ||| 0x20

/-- `selectOptimalCsrFastStreamCapsSink`. -/
def selectOptimalCsrFastStreamCapsSink (l c : Caps) : Caps :=
  let c := c.put 10 ((c 10 &&& faststreamDirections) &&& (l 10 &&& faststreamDirections))
  c.put 11 ((c 11 &&& faststreamRates) &&& (l 11 &&& faststreamRates))

/-- `selectOptimalCsrFastStreamCapsSource`. -/
def selectOptimalCsrFastStreamCapsSource (l c : Caps) : Caps :=
  let c := c.put 10 ((c 10 &&& faststreamDirections) &&& (l 10 &&& faststreamDirections))
  c.put 11 ((c 11 &&& faststreamRates) &&& (l 11 &&& faststreamRates))

/-! ### aptX -/

def aptxSinkRateStep : Step := { index := 10, both := false, rows := [((10, 5), 0x2f)], last := 0x1f }

def aptxSourceRateStep : Step := { index := 10, both := false, rows := [((10, 4), 0x1f)], last := 0x2f }

/-- `selectOptimalCsrAptxCapsSink`. -/
def selectOptimalCsrAptxCapsSink (l c : Caps) : Caps :=
  (aptxSinkRateStep.run l (c.put 10 (c 10 &&& l 10))).mask 10 0xf2

/-- `selectOptimalCsrAptxCapsSource`. -/
def selectOptimalCsrAptxCapsSource (l c : Caps) : Caps :=
  (aptxSourceRateStep.run l (c.put 10 (c 10 &&& l 10))).mask 10 0xf2

/-- `selectOptimalCsrAptxAclSprintCapsSink`. -/
def selectOptimalCsrAptxAclSprintCapsSink (l c : Caps) : Caps :=
  let c := (c.put 10 (c 10 &&& l 10)).put 11 (c 11 &&& l 11)
  ((aptxSinkRateStep.run l c).mask 10 0xf2).mask 11 0x03

/-- `A2DP_APTX_LOWLATENCY_TCL_LSB` and the constants after it. -/
def aptxLowlatency : List Octet := [0xb4, 0x00, 0x7c, 0x01, 0x32, 0x01, 0xb4, 0x00]

/-- `selectOptimalCsrAptxAclSprintCapsSource`. -/
def selectOptimalCsrAptxAclSprintCapsSource (l c : Caps) : Caps :=
  let c := (c.put 10 (c 10 &&& l 10)).put 11 (c 11 &&& l 11)
  let c := ((aptxSourceRateStep.run l c).mask 10 0xf2).mask 11 0x03
  if c.has (11, 1) then fun k => if 13 ≤ k ∧ k < 21 then aptxLowlatency.getD (k - 13) 0 else c k else c

/-! ### The codecs -/

inductive Codec
  | sbc
  | mpeg
  | aac
  | faststream
  | aptx
  | aptxAclSprint
  deriving DecidableEq

/-- `isCodecCsrFaststream` and its siblings. -/
def isVendorCodec (vendorId : BitVec 32) (codecId : BitVec 16) (c : Caps) : Bool :=
  convertUint8ValuesToUint32 (c.drop 4) = vendorId ∧ convertUint8ValuesToUint16 (c.drop 8) = codecId

def isCodecCsrFaststream : Caps → Bool := isVendorCodec csrVendorId csrFaststreamCodecId

def isCodecCsrAptx : Caps → Bool := isVendorCodec aptVendorId csrAptxCodecId

def isCodecCsrAptxAclSprint : Caps → Bool := isVendorCodec csrVendorId csrAptxAclSprintCodecId

/-- The selections of a sink. -/
def selectSink (l c : Caps) : Option Caps :=
  if l 3 = mediaCodecSbc then some (selectOptimalSbcCapsSink l c)
  else if l 3 = mediaCodecMpeg12Audio then some (selectOptimalMp3CapsSink l c)
  else if l 3 = mediaCodecMpeg24Aac then some (selectOptimalAacCapsSink l c)
  else if l 3 = mediaCodecNonA2dp then
    if isCodecCsrFaststream l ∧ isCodecCsrFaststream c then some (selectOptimalCsrFastStreamCapsSink l c)
    else if isCodecCsrAptxAclSprint l ∧ isCodecCsrAptxAclSprint c then
      some (selectOptimalCsrAptxAclSprintCapsSink l c)
    else if isCodecCsrAptx l ∧ isCodecCsrAptx c then some (selectOptimalCsrAptxCapsSink l c)
    else none
  else some c

/-- The selections of a source. -/
def selectSource (l c : Caps) : Option Caps :=
  if l 3 = mediaCodecSbc then some (selectOptimalSbcCapsSource l c)
  else if l 3 = mediaCodecMpeg12Audio then some (selectOptimalMp3CapsSource l c)
  else if l 3 = mediaCodecMpeg24Aac then some (selectOptimalAacCapsSource l c)
  else if l 3 = mediaCodecNonA2dp then
    if isCodecCsrFaststream l then some (selectOptimalCsrFastStreamCapsSource l c)
    else if isCodecCsrAptxAclSprint l then some (selectOptimalCsrAptxAclSprintCapsSource l c)
    else if isCodecCsrAptx l then some (selectOptimalCsrAptxCapsSource l c)
    else none
  else none

/-- The octets from an offset on are replaced. -/
def Caps.write (c : Caps) (j : ℕ) (d : Caps) : Caps := fun k => if k < j then c k else d (k - j)

/-- `a2dpSelectOptimalCodecSettings`, with the capabilities of the local end point and its role. The
codecs of true wireless stereo are left out. -/
def a2dpSelectOptimalCodecSettings (n : ℕ) (role : Role) (localCaps remoteCaps : Caps) : Option Caps :=
  match findCodecSpecificInformation n localCaps, findCodecSpecificInformation n remoteCaps with
  | some i, some j =>
    let selected :=
      match role with
      | .sink => selectSink (localCaps.drop i) (remoteCaps.drop j)
      | .source => selectSource (localCaps.drop i) (remoteCaps.drop j)
    selected.map (remoteCaps.write j)
  | _, _ => none

end Cbps.A2dp
