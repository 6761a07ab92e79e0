import Cbps.Lib.Runs
import Cbps.Lib.Sink
import Mathlib.Data.List.TakeWhile

/-!
# AT commands of an HFP link

Commands that wait to be sent stay in the RFCOMM sink: `hfpSendAtCmd` claims room for the text of
the command and stores its id in place of the `T`. `hfpSendNextAtCmd` finds the next command
there, takes the id, puts the `T` back and flushes the command, unless one is waiting for its
acknowledgement. `log` keeps what happens to the commands and to the volume setting.
-/

namespace Cbps.Hfp

/-- `hfp_at_cmd`. -/
inductive HfpAtCmd
  | hfpNoCmdPending
  | hfpCmdPending
  | hfpCkpdCmdPending
  | hfpBrsfCmdPending
  | hfpCindTestCmdPending
  | hfpCindReadCmdPending
  | hfpCmerCmdPending
  | hfpChldStatusCmdPending
  | hfpAtaCmdPending
  | hfpChupCmdPending
  | hfpBldnCmdPending
  | hfpBvraCmdPending
  | hfpClipCmdPending
  | hfpAtdNumberCmdPending
  | hfpAtdMemoryCmdPending
  | hfpBinpCmdPending
  | hfpNrecCmdPending
  | hfpVtsCmdPending
  | hfpCcwaCmdPending
  | hfpChldZeroCmdPending
  | hfpChldOneCmdPending
  | hfpChldOneIdxCmdPending
  | hfpChldTwoCmdPending
  | hfpChldTwoIdxCmdPending
  | hfpChldThreeCmdPending
  | hfpChldFourCmdPending
  | hfpCnumCmdPending
  | hfpBtrhStatusCmdPending
  | hfpBtrhZeroCmdPending
  | hfpBtrhOneCmdPending
  | hfpBtrhTwoCmdPending
  | hfpCopsFormatCmdPending
  | hfpCopsReqCmdPending
  | hfpCmeeCmdPending
  | hfpBiaCmdPending
  | hfpClccCmdPending
  | hfpBcsCmdPending
  | hfpCsrSfPending
  | hfpCsrBatPending
  | hfpCsrPwrPending
  | hfpCsrModIndPending
  | hfpCsrGetSmsPending
  | hfpBacCmdPending
  | hfpBccCmdPending
  | hfpVgsCmdPending
  | hfpAtCmdPending
  deriving DecidableEq, Repr

/-- The octet of an id. -/
def HfpAtCmd.octet (id : HfpAtCmd) : UInt8 := UInt8.ofNat id.ctorIdx

/-- `hfp_lib_status`. -/
inductive HfpLibStatus
  | success
  | fail
  | agFailure
  | noConnectionToPhone
  | operationNotAllowed
  | operationNotSupported
  | phSimPinRequired
  | simNotInserted
  | simPinRequired
  | simPukRequired
  | simFailure
  | simBusy
  | incorrectPassword
  | simPin2Required
  | simPuk2Required
  | memoryFull
  | invalidIndex
  | memoryFailure
  | textStringTooLong
  | invalidCharsInTextString
  | dialStringTooLong
  | invalidCharsInDialString
  | noNetworkService
  | networkTimeout
  | networkNotAllowed
  | timeout
  deriving DecidableEq, Repr

/-- `extendedStatusCode`. -/
def extendedStatusCode : List HfpLibStatus :=
  [.agFailure, .noConnectionToPhone, .fail, .operationNotAllowed, .operationNotSupported,
    .phSimPinRequired, .fail, .fail, .fail, .fail, .simNotInserted, .simPinRequired,
    .simPukRequired, .simFailure, .simBusy, .fail, .incorrectPassword, .simPin2Required,
    .simPuk2Required, .fail, .memoryFull, .invalidIndex, .fail, .memoryFailure, .textStringTooLong,
    .invalidCharsInTextString, .dialStringTooLong, .invalidCharsInDialString, .fail, .fail,
    .noNetworkService, .networkTimeout, .networkNotAllowed]

/-- `convertErrorCode`. -/
def convertErrorCode (cmeErrorCode : ℕ) : HfpLibStatus := extendedStatusCode.getD cmeErrorCode .fail

/-- The octet of a character. -/
def octet (c : Char) : UInt8 := UInt8.ofNat c.toNat

/-- An AT command: `A`, `T`, the body and a carriage return. It has an id, and `AT+VGS` is sent
with two digits that are still to be filled in. -/
structure Command where
  id : HfpAtCmd
  body : List UInt8
  id_ne : id ≠ .hfpNoCmdPending
  notMem_body : octet '\r' ∉ body
  body_vgs : id = .hfpVgsCmdPending → body = "+VGS=00".toList.map octet
  deriving DecidableEq

/-- The text of a command. -/
def Command.text (cmd : Command) : List UInt8 :=
  octet 'A' :: octet 'T' :: cmd.body ++ [octet '\r']

/-- What happens on the link. -/
inductive Obs
  | accepted (cmd : Command)
  | requested (gain : ℕ)
  | setting (gain : ℕ)
  | flushed (octets : List UInt8)
  | handled (status : HfpLibStatus) (id : UInt8)
  deriving DecidableEq

/-- The part of `hfp_link_data` about AT commands, for a link that is connected.
`responseTimeout` is the time for which `HFP_INTERNAL_WAIT_AT_TIMEOUT` is scheduled, if it is. -/
structure Link where
  sink : Lib.Sink UInt8
  atCmdRespPending : UInt8
  atVolPending : Bool
  atVolSetting : ℕ
  responseTimeout : Option ℕ
  isHfp : Bool
  remoteVolControl : Bool
  slcComplete : Bool
  log : List Obs
  deriving DecidableEq

def Link.note (link : Link) (obs : Obs) : Link := { link with log := link.log ++ [obs] }

/-- `toUpper`. -/
def toUpper (c : UInt8) : UInt8 := if octet 'a' ≤ c ∧ c ≤ octet 'z' then c - 32 else c

/-- `hfpMatchChar`. -/
def hfpMatchChar (c d : UInt8) : Bool := toUpper c = toUpper d

/-- The two digits of a gain. -/
def gainDigits (gain : ℕ) : List UInt8 :=
  [UInt8.ofNat (48 + gain / 10), UInt8.ofNat (48 + gain % 10)]

/-- `getBytesToFlush` on the octets that are claimed: the link and the octets after it, and how
many of them to flush. -/
def getBytesToFlush (link : Link) (data : List UInt8) : Link × List UInt8 × ℕ :=
  if data = [] then (link, data, 0)
  else
    -- the next AT command
    let ix := (data.takeWhile fun c => !hfpMatchChar c (octet 'A')).length
    if ix = data.length then (link, data, ix + 1)
    else
      let id := data.getD (ix + 1) 0
      let data := Lib.writeAt data (ix + 1) [octet 'T']
      let link := { link with atCmdRespPending := id }
      let isVgs := id = HfpAtCmd.hfpVgsCmdPending.octet
      let data := if isVgs then Lib.writeAt data (ix + 2 + 5) (gainDigits link.atVolSetting) else data
      let link := if isVgs then { link with atVolPending := false } else link
      (link, data, ix + 2 + ((data.drop (ix + 2)).takeWhile fun c => c ≠ octet '\r').length + 1)

/-- `AT_RESPONSE_TIMEOUT_5SEC` and its siblings, by the command that has been sent. -/
def responseTimeoutOf (id : UInt8) : ℕ :=
  if id = HfpAtCmd.hfpCnumCmdPending.octet then 10
  else if id = HfpAtCmd.hfpBinpCmdPending.octet then 30
  else 5

/-- `SinkFlush` of the octets in which the command was found. -/
def Link.flush (link : Link) (data : List UInt8) (bytes : ℕ) : Link :=
  let sink : Lib.Sink UInt8 := { link.sink with claimed := data }
  if bytes = 0 ∨ data.length < bytes then { link with sink := sink }
  else { link with sink := sink.flush bytes }.note (.flushed (data.take bytes))

/-- `hfpSendNextAtCmd`, with all that is claimed. -/
def hfpSendNextAtCmd (link : Link) : Link :=
  if link.atCmdRespPending = HfpAtCmd.hfpNoCmdPending.octet then
    let (link, data, bytes) := getBytesToFlush link link.sink.claimed
    let link := link.flush data bytes
    if link.atCmdRespPending ≠ HfpAtCmd.hfpNoCmdPending.octet then
      { link with responseTimeout := some (responseTimeoutOf link.atCmdRespPending) }
    else link
  else link

/-- `hfpSendAtCmd` while the slack of the sink is `slack`. -/
def hfpSendAtCmd (link : Link) (slack : ℕ) (cmd : Command) : Link :=
  if cmd.text.length ≤ slack then
    let offset := link.sink.claimed.length
    let sink := link.sink.claim 0 cmd.text.length
    let sink := sink.store offset cmd.text
    -- the id stands in for the `T`
    let sink := sink.store (offset + 1) [cmd.id.octet]
    hfpSendNextAtCmd ({ link with sink := sink }.note (.accepted cmd))
  else link

/-- Commands sent one after the other, each with the slack that it finds. -/
def sendAll (link : Link) (sends : List (Command × ℕ)) : Link :=
  sends.foldl (fun link send => hfpSendAtCmd link send.2 send.1) link

/-- `atCmdAckReceived`. `sends` are the commands that the handler of the acknowledgement sends. -/
def atCmdAckReceived (link : Link) (status : HfpLibStatus) (sends : List (Command × ℕ)) : Link :=
  let link := { link with responseTimeout := none }
  let id := link.atCmdRespPending
  -- without a command there is no handler
  let link := if id = HfpAtCmd.hfpNoCmdPending.octet then link else sendAll link sends
  let link := { link with atCmdRespPending := HfpAtCmd.hfpNoCmdPending.octet }
  hfpSendNextAtCmd (link.note (.handled status id))

/-- `hfpHandleOk`. -/
def hfpHandleOk (link : Link) (sends : List (Command × ℕ)) : Link :=
  atCmdAckReceived link .success sends

/-- `hfpHandleError`. -/
def hfpHandleError (link : Link) (sends : List (Command × ℕ)) : Link :=
  atCmdAckReceived link .fail sends

/-- `hfpHandleExtendedError`. -/
def hfpHandleExtendedError (link : Link) (err : ℕ) (sends : List (Command × ℕ)) : Link :=
  if link.isHfp then atCmdAckReceived link (convertErrorCode err) sends else link

/-- `hfpHandleWaitAtTimeout`. -/
def hfpHandleWaitAtTimeout (link : Link) (sends : List (Command × ℕ)) : Link :=
  atCmdAckReceived link .timeout sends

/-! ### Volume -/

/-- `HFP_MAX_GAIN`. -/
def hfpMaxGain : ℕ := 15

/-- A gain that the AG is told is limited. -/
def limitGain (gain : ℕ) : ℕ := if gain > hfpMaxGain then hfpMaxGain else gain

/-- The field `at_vol_setting`, which has four bits, is set. -/
def Link.setVolume (link : Link) (gain : ℕ) : Link :=
  { link with atVolSetting := gain % 16 }.note (.setting (gain % 16))

/-- `AT+VGS=00`. -/
def vgs : Command where
  id := .hfpVgsCmdPending
  body := "+VGS=00".toList.map octet
  id_ne := HfpAtCmd.noConfusion
  notMem_body := by decide
  body_vgs := fun _ => rfl

/-- `hfpHandleVgsRequest`. -/
def hfpHandleVgsRequest (link : Link) (gain : UInt8) (slack : ℕ) : Link :=
  let link := link.note (.requested gain.toNat)
  if link.atVolSetting ≠ gain.toNat then
    let link := link.setVolume (limitGain gain.toNat)
    if !link.atVolPending then hfpSendAtCmd { link with atVolPending := true } slack vgs else link
  else link

/-- `hfpHandleSpeakerGain`. A link is an HFP link or an HSP link. -/
def hfpHandleSpeakerGain (link : Link) (gain : ℕ) : Link :=
  if gain ≤ hfpMaxGain ∧ ((link.isHfp ∧ link.remoteVolControl) ∨ !link.isHfp) ∧ link.slcComplete ∧
      !link.atVolPending then
    link.setVolume gain
  else link

/-! ### Runs -/

/-- What the application, the AG and the timer do. -/
inductive Event
  | send (cmd : Command) (slack : ℕ)
  | vgsRequest (gain : UInt8) (slack : ℕ)
  | speakerGain (gain : ℕ)
  | ok (sends : List (Command × ℕ))
  | error (sends : List (Command × ℕ))
  | extendedError (err : ℕ) (sends : List (Command × ℕ))
  | timeout (sends : List (Command × ℕ))

/-- One event on the link. -/
def step (link : Link) : Event → Option Link
  | .send cmd slack => some (hfpSendAtCmd link slack cmd)
  | .vgsRequest gain slack => some (hfpHandleVgsRequest link gain slack)
  | .speakerGain gain => some (hfpHandleSpeakerGain link gain)
  | .ok sends => some (hfpHandleOk link sends)
  | .error sends => some (hfpHandleError link sends)
  | .extendedError err sends => some (hfpHandleExtendedError link err sends)
  | .timeout sends => some (hfpHandleWaitAtTimeout link sends)

/-- A link that has just been connected. -/
def Link.start (isHfp remoteVolControl slcComplete : Bool) : Link where
  sink := ⟨[], []⟩
  atCmdRespPending := HfpAtCmd.hfpNoCmdPending.octet
  atVolPending := false
  atVolSetting := 0
  responseTimeout := none
  isHfp := isHfp
  remoteVolControl := remoteVolControl
  slcComplete := slcComplete
  log := []

end Cbps.Hfp
