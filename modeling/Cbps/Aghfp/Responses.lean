import Cbps.Hfp.Commands
import Mathlib.Algebra.Ring.Int.Defs

/-!
# Responses in their arrays

The audio gateway puts its responses into the sink of the link piece by piece. A number is first printed into an array on
the stack, of 2 to 16 characters, and the string in the array is put into the sink. `formatted_iff` says for which
arguments every number fits its array: a mode of the network operator of one digit, indicators and codecs of the features
of CSR of three.
-/

namespace Cbps.Aghfp.Responses

open Lib List

open Cbps.Hfp.Commands (Overrun declared sprintf strlen decimal)

/-! ### The types -/

abbrev U8 := BitVec 8

abbrev U16 := BitVec 16

/-- An enumerated type. A variable of the type holds an `unsigned int`. -/
abbrev Enum := BitVec 32

/-- Octets with their size, a `u16`. -/
structure Data where
  text : List Char
  size : text.length < 65536

/-- `%d`. -/
def printed (n : ℤ) : List Char := if n < 0 then '-' :: decimal n.natAbs else decimal n.natAbs

/-- `%d` with a `u8` or a `u16`. -/
def printedNat (n : ℕ) : List Char := printed n

/-- `%d` with a `bool`. -/
def printedBool (b : Bool) : List Char := printed (if b then 1 else 0)

/-! ### The sink -/

/-- `aghfpAtCmdString`: the string is copied up to its end. -/
def aghfpAtCmdString (sink string : List Char) : Except Overrun (List Char) := do
  let length ← strlen string
  if length % 65536 ≤ string.length then .ok (sink ++ string.take (length % 65536)) else .error .outside

/-- A step of a response. -/
inductive Part
  | string (text : List Char)
  | print (text : List Char)
  | buf
  | data (data : Data)

/-- A response: the size of its array, and its steps. `string` and `data` put text of their own into the sink, `print` is the
`sprintf` into the array, `buf` puts the string in the array into the sink. -/
structure Response where
  size : ℕ
  parts : List Part

/-- The steps between `aghfpAtCmdBegin` and `aghfpAtCmdEnd`. -/
def steps : List Char → List Char → List Part → Except Overrun (List Char)
  | _, sink, [] => .ok sink
  | buf, sink, .string text :: parts => do
    let sink ← aghfpAtCmdString sink (text ++ ['\x00'])
    steps buf sink parts
  | buf, sink, .print text :: parts => do
    let buf ← sprintf buf 0 text
    steps buf sink parts
  | buf, sink, .buf :: parts => do
    let sink ← aghfpAtCmdString sink buf
    steps buf sink parts
  | buf, sink, .data data :: parts => steps buf (sink ++ data.text) parts

/-- `\r\n` -/
def lineEnd : List Char := ['\r', '\n']

/-- The octets of a response in the sink. -/
def Response.send (mem : ℕ → Char) (r : Response) : Except Overrun (List Char) := do
  let sink ← steps (declared mem r.size) lineEnd r.parts
  return sink ++ lineEnd

/-- `aghfpSendAtCmd`. -/
def aghfpSendAtCmd (atCmd : List Char) : Response := ⟨0, [.string atCmd]⟩

/-- `aghfpSendOk`. -/
def aghfpSendOk : Response := aghfpSendAtCmd "OK".toList

/-! ### The gateway -/

/-- `aghfp_profile`. -/
inductive Profile
  | headset
  | handsfree
  | handsfree15
  | handsfree16
  deriving DecidableEq, Repr

/-- `AGHFP`, as far as the responses depend on it. -/
structure Gateway where
  supportedProfile : Profile
  supportedFeatures : U16
  activeIndicators : U16
  indicatorsEnable : Bool
  callWaitingNotification : Bool
  serviceState : Bool
  activeCall : Bool

/-- `supportedProfileHasHfp15Features`. -/
def supportedProfileHasHfp15Features : Profile → Bool
  | .handsfree15 => true
  | .handsfree16 => true
  | _ => false

/-- The profile of a gateway has the features of HFP 1.5. -/
def Gateway.hfp15 (aghfp : Gateway) : Bool := supportedProfileHasHfp15Features aghfp.supportedProfile

/-! ### Indicators -/

/-- `aghfpHandleSendCindDetails`. -/
def aghfpHandleSendCindDetails (aghfp : Gateway) : Response :=
  if aghfp.hfp15 then
    aghfpSendAtCmd ("+CIND:(\"service\",(0,1)),(\"call\",(0,1)),(\"callsetup\",(0-3)),".toList ++
      "(\"callheld\",(0-2)),(\"signal\",(0-5)),(\"roam\",(0,1)),(\"battchg\",(0-5))".toList)
  else aghfpSendAtCmd "+CIND:(\"service\",(0,1)),(\"call\",(0,1)),(\"callsetup\",(0-3))".toList

/-- `AghfpCallIndicatorsStatusResponse`. -/
def AghfpCallIndicatorsStatusResponse (aghfp : Gateway) (availability callStatus callSetupStatus callHeldStatus : Enum)
    (signal : U16) (roamStatus : Enum) (batt : U16) : List Response :=
  [⟨16, [.string "+CIND:".toList,
      .print (printed availability.toInt ++ [','] ++ printed callStatus.toInt ++ [','] ++
        printed callSetupStatus.toInt ++ [',']), .buf] ++
    (if aghfp.hfp15 then
      [.print (printed callHeldStatus.toInt ++ [','] ++ printedNat signal.toNat ++ [','] ++
        printed roamStatus.toInt ++ [','] ++ printedNat batt.toNat), .buf]
    else [])⟩, aghfpSendOk]

/-- `+CIEV` with the index of an indicator: the array has room for one digit. -/
def ciev (start : List Char) (value : List Char) : Response := ⟨2, [.string start, .print value, .buf]⟩

/-- `AghfpSendServiceIndicator`. -/
def AghfpSendServiceIndicator (aghfp : Gateway) (availability : Enum) : Option Enum :=
  if aghfp.activeIndicators &&& 0x01 ≠ 0 ∧ aghfp.indicatorsEnable then some availability else none

/-- `aghfpHandleSendServiceIndicator`. -/
def aghfpHandleSendServiceIndicator (availability : Enum) : Response :=
  ciev "+CIEV:1,".toList (printed availability.toInt)

/-- `aghfpSendCallIndicator`. -/
def aghfpSendCallIndicator (aghfp : Gateway) (status : Enum) : List Response :=
  if aghfp.indicatorsEnable then [ciev "+CIEV:2,".toList (printed status.toInt)] else []

/-- `aghfpHandleSendCallIndicator`. -/
def aghfpHandleSendCallIndicator (aghfp : Gateway) (status : Enum) : List Response :=
  if aghfp.indicatorsEnable then aghfpSendCallIndicator aghfp status else []

/-- `aghfpSendCallSetupIndicator`. -/
def aghfpSendCallSetupIndicator (aghfp : Gateway) (type : Enum) : List Response :=
  if aghfp.indicatorsEnable then [ciev "+CIEV:3,".toList (printed type.toInt)] else []

/-- `aghfpHandleSendCallSetupIndicator`. -/
def aghfpHandleSendCallSetupIndicator (aghfp : Gateway) (type : Enum) : List Response :=
  if aghfp.indicatorsEnable then aghfpSendCallSetupIndicator aghfp type else []

/-- `AghfpSendCallHeldIndicator`. -/
def AghfpSendCallHeldIndicator (aghfp : Gateway) (status : Enum) : Option Enum :=
  if aghfp.hfp15 then some status else none

/-- `aghfpHandleSendCallHeldIndicator`. -/
def aghfpHandleSendCallHeldIndicator (aghfp : Gateway) (status : Enum) : List Response :=
  if aghfp.indicatorsEnable then [ciev "+CIEV:4,".toList (printed status.toInt)] else []

/-- `AghfpSendSignalIndicator`. -/
def AghfpSendSignalIndicator (aghfp : Gateway) (level : U16) : Option U16 :=
  if aghfp.hfp15 ∧ aghfp.activeIndicators &&& 0x10 ≠ 0 ∧ aghfp.indicatorsEnable then some (if level < 5 then level else 5)
  else none

/-- `aghfpHandleSendSignalIndicator`. -/
def aghfpHandleSendSignalIndicator (level : U16) : Response := ciev "+CIEV:5,".toList (printedNat level.toNat)

/-- `AghfpSendRoamIndicator`. -/
def AghfpSendRoamIndicator (aghfp : Gateway) (status : Enum) : Option Enum :=
  if aghfp.hfp15 ∧ aghfp.activeIndicators &&& 0x20 ≠ 0 ∧ aghfp.indicatorsEnable then some status else none

/-- `aghfpHandleSendRoamIndicator`. -/
def aghfpHandleSendRoamIndicator (status : Enum) : Response := ciev "+CIEV:6,".toList (printed status.toInt)

/-- `AghfpSendBattChgIndicator`. -/
def AghfpSendBattChgIndicator (aghfp : Gateway) (level : U16) : Option U16 :=
  if aghfp.hfp15 ∧ aghfp.activeIndicators &&& 0x40 ≠ 0 ∧ aghfp.indicatorsEnable then some (if level < 5 then level else 5)
  else none

/-- `aghfpHandleSendBattChgIndicator`. -/
def aghfpHandleSendBattChgIndicator (level : U16) : Response := ciev "+CIEV:7,".toList (printedNat level.toNat)

/-- `aghfpHandleCindStatusRequest`. -/
def aghfpHandleCindStatusRequest (aghfp : Gateway) : List Response :=
  AghfpCallIndicatorsStatusResponse aghfp (if aghfp.serviceState then 1 else 0) (if aghfp.activeCall then 1 else 0)
    0 0 5 0 5

/-! ### Calls -/

/-- `aghfpSendCallerId`. -/
def aghfpSendCallerId (type : U8) (number string : Data) : Response :=
  ⟨4, [.string "+CLIP: ".toList] ++ (if number.text ≠ [] then [.data number] else []) ++
    [.string [','], .print (printedNat type.toNat), .buf] ++
    (if string.text ≠ [] then [.string ",,,".toList, .data string] else [])⟩

/-- `AghfpSendCallWaitingNotification`, with memory for the message. -/
def AghfpSendCallWaitingNotification (aghfp : Gateway) (type : U8) (number string : Data) : Option (U8 × Data × Data) :=
  if aghfp.callWaitingNotification then some (type, number, string) else none

/-- `aghfpHandleSendCallWaitingNotification`. The string is a null pointer when it is empty. -/
def aghfpHandleSendCallWaitingNotification (type : U8) (number string : Data) : Response :=
  ⟨4, [.string "+CCWA: ".toList, .data number, .string [','], .print (printedNat type.toNat), .buf, .string ",1".toList] ++
    (if string.text ≠ [] then [.string [','], .data string] else [])⟩

/-- `aghfpHandleCallHoldSupportRequest`. -/
def aghfpHandleCallHoldSupportRequest : List Response := [aghfpSendAtCmd "+CHLD:(0,1,1x,2,2x,3)".toList, aghfpSendOk]

/-- `aghfp_call_info`. -/
structure CallInfo where
  idx : U16
  dir : Enum
  status : Enum
  mode : Enum
  mpty : Enum
  type : U8
  number : Data

/-- `AGHFP_INTERNAL_SEND_CURRENT_CALL_T`. -/
structure CurrentCall where
  idx : U8
  dir : U8
  status : U8
  mode : U8
  mpty : U8
  type : U8
  number : Data

/-- `AghfpSendCurrentCall`: the members are cut to a `u8`. -/
def AghfpSendCurrentCall (aghfp : Gateway) (call : CallInfo) : Option CurrentCall :=
  if aghfp.hfp15 then
    some ⟨call.idx.setWidth 8, call.dir.setWidth 8, call.status.setWidth 8, call.mode.setWidth 8, call.mpty.setWidth 8,
      call.type, call.number⟩
  else none

/-- `aghfpHandleSendCurrentCall`. -/
def aghfpHandleSendCurrentCall (res : CurrentCall) : Response :=
  ⟨16, [.print (printedNat res.idx.toNat ++ [','] ++ printedNat res.dir.toNat ++ [','] ++ printedNat res.status.toNat ++
      [','] ++ printedNat res.mode.toNat ++ [','] ++ printedNat res.mpty.toNat),
      .string "+CLCC: ".toList, .buf] ++
    (if res.number.text ≠ [] then
      [.string ", ".toList, .data res.number, .print (", ".toList ++ printedNat res.type.toNat), .buf]
    else [])⟩

/-! ### The other features -/

/-- `aghfpHandleBrsfRequest`. -/
def aghfpHandleBrsfRequest (aghfp : Gateway) : List Response :=
  [⟨6, [.string "+BRSF:".toList, .print (printedNat aghfp.supportedFeatures.toNat), .buf]⟩, aghfpSendOk]

/-- `AghfpSetRemoteMicrophoneGain`. -/
def AghfpSetRemoteMicrophoneGain (gain : U8) : Option U8 := if gain ≤ 15 then some gain else none

/-- `aghfpHandleSetRemoteMicrophoneGain`. -/
def aghfpHandleSetRemoteMicrophoneGain (gain : U8) : Response :=
  ⟨3, [.print (printedNat gain.toNat), .string "+VGM: ".toList, .buf]⟩

/-- `AghfpSetRemoteSpeakerVolume`. -/
def AghfpSetRemoteSpeakerVolume (volume : U8) : Option U8 := if volume ≤ 15 then some volume else none

/-- `aghfpHandleSetRemoteSpeakerVolume`. -/
def aghfpHandleSetRemoteSpeakerVolume (volume : U8) : Response :=
  ⟨3, [.print (printedNat volume.toNat), .string "+VGS: ".toList, .buf]⟩

/-- `AghfpSendResponseHoldState`. -/
def AghfpSendResponseHoldState (aghfp : Gateway) (state : Enum) : Option Enum := if aghfp.hfp15 then some state else none

/-- `AghfpConfirmResponseHoldState`. -/
def AghfpConfirmResponseHoldState (aghfp : Gateway) (state : Enum) : Option Enum :=
  if aghfp.hfp15 then some state else none

theorem length_singleton_lt (c : Char) : [c].length < 65536 := by
  rw [length_singleton]
  decide

/-- `stateAsChar`. -/
def stateAsChar (state : Enum) : Data := ⟨[Char.ofNat (state.setWidth 8 + 0x30).toNat], length_singleton_lt _⟩

/-- `aghfpHandleSendResponseHoldState`. -/
def aghfpHandleSendResponseHoldState (state : Enum) : Response :=
  ⟨0, [.string "+BTRH:".toList, .data (stateAsChar state)]⟩

/-- `aghfpHandleConfirmResponseHoldState`. -/
def aghfpHandleConfirmResponseHoldState (state : Enum) : List Response :=
  [⟨0, [.string "+BTRH:".toList, .data (stateAsChar state)]⟩, aghfpSendOk]

/-- `AghfpSendSubscriberNumber`. -/
def AghfpSendSubscriberNumber (aghfp : Gateway) (type service : U8) (number : Data) : Option (U8 × U8 × Data) :=
  if aghfp.hfp15 then some (type, service, number) else none

/-- `aghfpHandleSendSubscriberNumber`. -/
def aghfpHandleSendSubscriberNumber (type service : U8) (number : Data) : Response :=
  ⟨16, [.print (", ".toList ++ printedNat type.toNat ++ ", , ".toList ++ printedNat service.toNat),
    .string "+CNUM: , ".toList, .data number, .buf]⟩

/-- `AghfpSendNetworkOperator`. -/
def AghfpSendNetworkOperator (aghfp : Gateway) (mode : U8) (operator : Data) : Option (U8 × Data) :=
  if aghfp.hfp15 then some (mode, operator) else none

/-- `aghfpHandleSendNetworkOperator`. -/
def aghfpHandleSendNetworkOperator (mode : U8) (operator : Data) : List Response :=
  [⟨2, [.print (printedNat mode.toNat), .string "+COPS: ".toList, .buf, .string ", 0, ".toList, .data operator]⟩,
    aghfpSendOk]

/-- `aghfpWbsStartCodecNegotiation`, with the identifier that `WbsCodecMaskToCodecId` finds for the codec. -/
def aghfpWbsStartCodecNegotiation (codecId : Enum) : Response :=
  ⟨15, [.string "+BCS: ".toList, .print (printed codecId.toInt), .buf]⟩

/-- `AghfpSendPhoneNumberForVoiceTag`. -/
def AghfpSendPhoneNumberForVoiceTag (aghfp : Gateway) (number : Data) : Option Data :=
  if aghfp.supportedFeatures &&& 0x10 ≠ 0 then some number else none

/-- `aghfpHandleSendPhoneNumberForVoiceTag`. -/
def aghfpHandleSendPhoneNumberForVoiceTag (number : Data) : Response := ⟨0, [.string "+BINP: ".toList, .data number]⟩

/-- `aghfpCsrSupportedFeaturesResponse`. -/
def aghfpCsrSupportedFeaturesResponse (callerName rawText smsInd battLevel pwrSource : Bool) (codecs : U16)
    (codecBandwidthsPresent : Bool) (codecBandwidths : U16) : List Response :=
  [⟨4, [.string "+CSRSF: ".toList, .print (printedBool callerName), .buf, .string [','], .print (printedBool rawText), .buf,
      .string [','], .print (printedBool smsInd), .buf, .string [','], .print (printedBool battLevel), .buf, .string [','],
      .print (printedBool pwrSource), .buf, .string [','], .print (printedNat codecs.toNat), .buf] ++
    (if codecBandwidthsPresent then [.string [','], .print (printedNat codecBandwidths.toNat), .buf] else [])⟩,
    aghfpSendOk]

/-- `aghfpFeatureNegotiate`. -/
def aghfpFeatureNegotiate (numCsrFeatures indicator0 value0 indicator1 value1 : U16) (sendLeadingOK : Bool) :
    List Response :=
  (if sendLeadingOK then [aghfpSendOk] else []) ++
    [⟨4, [.string "+CSRFN: ".toList, .string ['('], .print (printedNat indicator0.toNat), .buf, .string [','],
        .print (printedNat value0.toNat), .buf] ++
      (if 1 < numCsrFeatures then
        [.string "),(".toList, .print (printedNat indicator1.toNat), .buf, .string [','],
          .print (printedNat value1.toNat), .buf]
      else []) ++ [.string [')']]⟩]

/-! ### Requests -/

/-- What makes the gateway format a response: a call of the application, a command of the hands-free unit, or the library
itself. -/
inductive Request
  | cindDetails
  | cindStatus
  | callIndicatorsStatus (availability callStatus callSetupStatus callHeldStatus : Enum) (signal : U16) (roamStatus : Enum)
      (batt : U16)
  | serviceIndicator (availability : Enum)
  | callIndicator (status : Enum)
  | callSetupIndicator (type : Enum)
  | callHeldIndicator (status : Enum)
  | signalIndicator (level : U16)
  | roamIndicator (status : Enum)
  | battChgIndicator (level : U16)
  | callerId (type : U8) (number string : Data)
  | callWaitingNotification (type : U8) (number string : Data)
  | callHoldSupport
  | currentCall (call : CallInfo)
  | brsf
  | remoteMicrophoneGain (gain : U8)
  | remoteSpeakerVolume (volume : U8)
  | responseHoldState (state : Enum)
  | confirmResponseHoldState (state : Enum)
  | subscriberNumber (type service : U8) (number : Data)
  | networkOperator (mode : U8) (operator : Data)
  | codecNegotiation (codecId : Enum)
  | phoneNumberForVoiceTag (number : Data)
  | csrSupportedFeatures (callerName rawText smsInd battLevel pwrSource : Bool) (codecs : U16)
      (codecBandwidthsPresent : Bool) (codecBandwidths : U16)
  | featureNegotiate (numCsrFeatures indicator0 value0 indicator1 value1 : U16) (sendLeadingOK : Bool)

/-- The responses to a request that is made in one state of the gateway, and whose message is handled in another. -/
def responses (aghfp handling : Gateway) : Request → List Response
  | .cindDetails => [aghfpHandleSendCindDetails handling, aghfpSendOk]
  | .cindStatus => aghfpHandleCindStatusRequest handling
  | .callIndicatorsStatus availability callStatus callSetupStatus callHeldStatus signal roamStatus batt =>
    AghfpCallIndicatorsStatusResponse aghfp availability callStatus callSetupStatus callHeldStatus signal roamStatus batt
  | .serviceIndicator availability =>
    (AghfpSendServiceIndicator aghfp availability).toList.map aghfpHandleSendServiceIndicator
  | .callIndicator status => aghfpHandleSendCallIndicator handling status
  | .callSetupIndicator type => aghfpHandleSendCallSetupIndicator handling type
  | .callHeldIndicator status =>
    (AghfpSendCallHeldIndicator aghfp status).toList.flatMap (aghfpHandleSendCallHeldIndicator handling)
  | .signalIndicator level => (AghfpSendSignalIndicator aghfp level).toList.map aghfpHandleSendSignalIndicator
  | .roamIndicator status => (AghfpSendRoamIndicator aghfp status).toList.map aghfpHandleSendRoamIndicator
  | .battChgIndicator level => (AghfpSendBattChgIndicator aghfp level).toList.map aghfpHandleSendBattChgIndicator
  | .callerId type number string => [aghfpSendCallerId type number string]
  | .callWaitingNotification type number string =>
    (AghfpSendCallWaitingNotification aghfp type number string).toList.map fun message =>
      aghfpHandleSendCallWaitingNotification message.1 message.2.1 message.2.2
  | .callHoldSupport => aghfpHandleCallHoldSupportRequest
  | .currentCall call => (AghfpSendCurrentCall aghfp call).toList.map aghfpHandleSendCurrentCall
  | .brsf => aghfpHandleBrsfRequest handling
  | .remoteMicrophoneGain gain => (AghfpSetRemoteMicrophoneGain gain).toList.map aghfpHandleSetRemoteMicrophoneGain
  | .remoteSpeakerVolume volume => (AghfpSetRemoteSpeakerVolume volume).toList.map aghfpHandleSetRemoteSpeakerVolume
  | .responseHoldState state => (AghfpSendResponseHoldState aghfp state).toList.map aghfpHandleSendResponseHoldState
  | .confirmResponseHoldState state =>
    (AghfpConfirmResponseHoldState aghfp state).toList.flatMap aghfpHandleConfirmResponseHoldState
  | .subscriberNumber type service number =>
    (AghfpSendSubscriberNumber aghfp type service number).toList.map fun message =>
      aghfpHandleSendSubscriberNumber message.1 message.2.1 message.2.2
  | .networkOperator mode operator => (AghfpSendNetworkOperator aghfp mode operator).toList.flatMap fun message =>
      aghfpHandleSendNetworkOperator message.1 message.2
  | .codecNegotiation codecId => [aghfpWbsStartCodecNegotiation codecId]
  | .phoneNumberForVoiceTag number =>
    (AghfpSendPhoneNumberForVoiceTag aghfp number).toList.map aghfpHandleSendPhoneNumberForVoiceTag
  | .csrSupportedFeatures callerName rawText smsInd battLevel pwrSource codecs codecBandwidthsPresent codecBandwidths =>
    aghfpCsrSupportedFeaturesResponse callerName rawText smsInd battLevel pwrSource codecs codecBandwidthsPresent
      codecBandwidths
  | .featureNegotiate numCsrFeatures indicator0 value0 indicator1 value1 sendLeadingOK =>
    aghfpFeatureNegotiate numCsrFeatures indicator0 value0 indicator1 value1 sendLeadingOK

/-! ### What is to be sent -/

/-- The text of the steps, with the text that has been printed last. -/
def textOf : List Char → List Part → List Char
  | _, [] => []
  | last, .string text :: parts => text ++ textOf last parts
  | _, .print text :: parts => textOf text parts
  | last, .buf :: parts => last ++ textOf last parts
  | last, .data data :: parts => data.text ++ textOf last parts

/-- The text of a response. -/
def Response.text (r : Response) : List Char := lineEnd ++ textOf [] r.parts ++ lineEnd

/-- **The promise** of the responses: each stays in its array, and what is sent is its text. -/
def Formatted (mem : ℕ → Char) (aghfp handling : Gateway) (request : Request) : Prop :=
  ∀ r ∈ responses aghfp handling request, r.send mem = .ok r.text

/-- The number of characters of `%d`. -/
def width (n : ℤ) : ℕ := (printed n).length

/-- The value is printed as one character. -/
def OneDigit (n : ℤ) : Prop := 0 ≤ n ∧ n < 10

/-- The requests whose numbers fit the arrays of their responses. -/
def Fits (aghfp handling : Gateway) : Request → Prop
  | .callIndicatorsStatus availability callStatus callSetupStatus callHeldStatus signal roamStatus batt =>
    width availability.toInt + width callStatus.toInt + width callSetupStatus.toInt < 13 ∧
      (aghfp.hfp15 → width callHeldStatus.toInt + width signal.toNat + width roamStatus.toInt + width batt.toNat < 13)
  | .serviceIndicator availability =>
    aghfp.activeIndicators &&& 0x01 ≠ 0 ∧ aghfp.indicatorsEnable → OneDigit availability.toInt
  | .callIndicator status => handling.indicatorsEnable → OneDigit status.toInt
  | .callSetupIndicator type => handling.indicatorsEnable → OneDigit type.toInt
  | .callHeldIndicator status => aghfp.hfp15 ∧ handling.indicatorsEnable → OneDigit status.toInt
  | .roamIndicator status =>
    aghfp.hfp15 ∧ aghfp.activeIndicators &&& 0x20 ≠ 0 ∧ aghfp.indicatorsEnable → OneDigit status.toInt
  | .currentCall call =>
    aghfp.hfp15 → width (call.idx.toNat % 256 : ℕ) + width (call.dir.toNat % 256 : ℕ) +
      width (call.status.toNat % 256 : ℕ) + width (call.mode.toNat % 256 : ℕ) + width (call.mpty.toNat % 256 : ℕ) < 12
  | .networkOperator mode _ => aghfp.hfp15 → mode.toNat < 10
  | .csrSupportedFeatures _ _ _ _ _ codecs codecBandwidthsPresent codecBandwidths =>
    codecs.toNat < 1000 ∧ (codecBandwidthsPresent → codecBandwidths.toNat < 1000)
  | .featureNegotiate numCsrFeatures indicator0 value0 indicator1 value1 _ =>
    indicator0.toNat < 1000 ∧ value0.toNat < 1000 ∧
      (1 < numCsrFeatures → indicator1.toNat < 1000 ∧ value1.toNat < 1000)
  | _ => True

/-! ### The steps of a response -/

/-- The texts have no end inside, and the strings of the program are short. -/
def Part.Valid : Part → Prop
  | .string text => '\x00' ∉ text ∧ text.length < 65536
  | .print text => '\x00' ∉ text
  | _ => True

/-- The text and its end fit the array. -/
def Part.Fits (size : ℕ) : Part → Prop
  | .print text => text.length < size
  | _ => True

/-- Something is printed before the array is sent. -/
def ready : List Part → Bool
  | [] => true
  | .print _ :: _ => true
  | .buf :: _ => false
  | .string _ :: parts => ready parts
  | .data _ :: parts => ready parts

/-- A string is in the array. -/
def Holds (buf last : List Char) : Prop :=
  ∃ rest, buf = last ++ '\x00' :: rest ∧ '\x00' ∉ last ∧ last.length < 65536

theorem aghfpAtCmdString_eq {sink text rest : List Char} (hend : '\x00' ∉ text) (hshort : text.length < 65536) :
    aghfpAtCmdString sink (text ++ '\x00' :: rest) = .ok (sink ++ text) := by
  rw [aghfpAtCmdString, strlen, if_pos (by simp), Hfp.Commands.takeWhile_end hend, ok_bind, Nat.mod_eq_of_lt hshort,
    if_pos (by simp), List.take_left]

theorem sprintf_eq {buf text : List Char} (hroom : text.length < buf.length) :
    sprintf buf 0 text = .ok (text ++ '\x00' :: buf.drop (text.length + 1)) := by
  have hlength : (text ++ ['\x00']).length = text.length + 1 := by rw [length_append, length_singleton]
  rw [sprintf, Hfp.Commands.write, if_pos (by omega), take_zero, nil_append, Nat.zero_add, hlength,
    append_assoc, singleton_append]

theorem sprintf_error {buf text : List Char} (hroom : ¬ text.length < buf.length) :
    sprintf buf 0 text = .error .outside := by
  have hlength : (text ++ ['\x00']).length = text.length + 1 := by rw [length_append, length_singleton]
  rw [sprintf, Hfp.Commands.write, if_neg (by omega)]

variable {parts : List Part}

/-- By induction on the steps: the array holds what has been printed last, or nothing has been printed and it is not sent
before something is. -/
theorem steps_iff (hvalid : ∀ p ∈ parts, p.Valid) {buf : List Char} (hsize : buf.length ≤ 65536)
    {last : List Char} (hheld : Holds buf last ∨ ready parts) {sink : List Char} :
    steps buf sink parts = .ok (sink ++ textOf last parts) ↔ ∀ p ∈ parts, p.Fits buf.length := by
  induction parts generalizing buf last sink with
  | nil => simp [steps, textOf]
  | cons p parts ih =>
    obtain ⟨hp, hparts⟩ := forall_mem_cons.mp hvalid
    rw [forall_mem_cons]
    cases p with
    | string text =>
      rw [steps, aghfpAtCmdString_eq hp.1 hp.2, ok_bind, textOf, ← append_assoc, ih hparts hsize hheld]
      exact (and_iff_right trivial).symm
    | print text =>
      by_cases hroom : text.length < buf.length
      · have hlength : (text ++ '\x00' :: buf.drop (text.length + 1)).length = buf.length := by
          rw [length_append, length_cons, length_drop]
          omega
        rw [steps, sprintf_eq hroom, ok_bind, textOf,
          ih hparts (by rwa [hlength]) (.inl ⟨_, rfl, hp, by omega⟩), hlength]
        exact (and_iff_right hroom).symm
      · rw [steps, sprintf_error hroom, error_bind]
        refine iff_of_false ?_ fun hfits => hroom hfits.1
        rintro ⟨⟩
    | buf =>
      obtain ⟨rest, rfl, hend, hshort⟩ := hheld.resolve_right Bool.false_ne_true
      rw [steps, aghfpAtCmdString_eq hend hshort, ok_bind, textOf, ← append_assoc,
        ih hparts hsize (.inl ⟨rest, rfl, hend, hshort⟩)]
      exact (and_iff_right trivial).symm
    | data data =>
      rw [steps, textOf, ← append_assoc, ih hparts hsize hheld]
      exact (and_iff_right trivial).symm

/-- A response whose steps are valid, with an array of less than 64 KiB. -/
structure Response.Valid (r : Response) : Prop where
  size : r.size ≤ 65536
  ready : ready r.parts
  parts : r.parts.Forall Part.Valid

theorem send_iff {mem : ℕ → Char} {r : Response} (hvalid : r.Valid) :
    r.send mem = .ok r.text ↔ r.parts.Forall (Part.Fits r.size) := by
  have hlength : (declared mem r.size).length = r.size := Hfp.Commands.length_declared _
  have hsteps := @steps_iff r.parts (forall_iff_forall_mem.mp hvalid.parts) (declared mem r.size) (by rw [hlength]; exact hvalid.size) []
    (.inr hvalid.ready) lineEnd
  rw [hlength] at hsteps
  rw [forall_iff_forall_mem, ← hsteps, Response.send, Response.text]
  constructor
  · intro heq
    obtain ⟨sink, hsink, hsent⟩ := exists_of_bind_eq_ok heq
    rw [hsink, append_cancel_right (Except.ok.inj hsent)]
  · intro heq
    rw [heq, ok_bind]
    rfl

/-! ### The width of a number -/

theorem no_end_printed (n : ℤ) : '\x00' ∉ printed n := by
  rw [printed]
  split
  · rw [mem_cons, not_or]
    exact ⟨by decide, Hfp.Commands.no_end_in_decimal _⟩
  · exact Hfp.Commands.no_end_in_decimal _

theorem printed_natCast (n : ℕ) : printed (n : ℤ) = decimal n := by
  rw [printed, if_neg (Int.not_lt.mpr (Int.natCast_nonneg n)), Int.natAbs_natCast]

theorem width_le_iff {n k : ℕ} (hk : 0 < k) : width (n : ℤ) ≤ k ↔ n < 10 ^ k := by
  rw [width, printed_natCast]
  exact Hfp.Commands.length_decimal hk

theorem width_u8 (x : U8) : width (x.toNat : ℤ) ≤ 3 :=
  (width_le_iff (by decide)).mpr (Nat.lt_trans x.isLt (by decide))

theorem width_u16 (x : U16) : width (x.toNat : ℤ) ≤ 5 :=
  (width_le_iff (by decide)).mpr (Nat.lt_trans x.isLt (by decide))

theorem width_bool (b : Bool) : (printedBool b).length = 1 := by
  cases b <;> decide

/-- The sign and ten digits. -/
theorem width_enum (x : Enum) : width x.toInt ≤ 11 := by
  have hlow := BitVec.le_toInt x
  have hhigh := @BitVec.toInt_lt _ x
  have hdecimal : (decimal x.toInt.natAbs).length ≤ 10 := (Hfp.Commands.length_decimal (by decide)).mpr (by omega)
  rw [width, printed]
  split
  · rw [length_cons]
    omega
  · omega

theorem width_lt_two (n : ℤ) : (printed n).length < 2 ↔ OneDigit n := by
  rw [printed, OneDigit]
  by_cases hneg : n < 0
  · have hpos := Hfp.Commands.length_decimal_pos n.natAbs
    rw [if_pos hneg, length_cons]
    omega
  · rw [if_neg hneg, Nat.lt_succ_iff, Hfp.Commands.length_decimal (by decide)]
    omega

theorem length_printedNat (n : ℕ) : (printedNat n).length = width (n : ℤ) := rfl

/-! ### The responses -/

@[simp] theorem forall_ite {P : Part → Prop} {c : Prop} [Decidable c] :
    (if c then parts else []).Forall P ↔ (c → parts.Forall P) := by
  by_cases hc : c
  · rw [if_pos hc, imp_iff_right hc]
  · rw [if_neg hc]
    exact iff_of_true trivial fun h => absurd h hc

@[simp] theorem forall_ite_nil {P : Part → Prop} {c : Prop} [Decidable c] :
    (if c then [] else parts).Forall P ↔ (¬ c → parts.Forall P) := by
  rw [← ite_not, forall_ite]

section

variable {mem : ℕ → Char}

theorem send_atCmd {atCmd : List Char} (hend : '\x00' ∉ atCmd) (hshort : atCmd.length < 65536) :
    (aghfpSendAtCmd atCmd).send mem = .ok (aghfpSendAtCmd atCmd).text :=
  (@send_iff mem (aghfpSendAtCmd atCmd) ⟨Nat.zero_le _, rfl, ⟨hend, hshort⟩⟩).mpr trivial

theorem send_ok : aghfpSendOk.send mem = .ok aghfpSendOk.text := send_atCmd (by simp) (by simp)

theorem send_ciev {start value : List Char} (hstart : '\x00' ∉ start ∧ start.length < 65536) (hvalue : '\x00' ∉ value) :
    (ciev start value).send mem = .ok (ciev start value).text ↔ value.length < 2 := by
  rw [@send_iff mem (ciev start value) ⟨Nat.le_of_ble_eq_true rfl, rfl, ⟨hstart, hvalue, trivial⟩⟩]
  simp [ciev, Part.Fits]

theorem send_cindDetails (aghfp : Gateway) :
    (aghfpHandleSendCindDetails aghfp).send mem = .ok (aghfpHandleSendCindDetails aghfp).text := by
  rw [aghfpHandleSendCindDetails]
  split
  · exact send_atCmd (by simp) (by simp)
  · exact send_atCmd (by simp) (by simp)

/-- The text of a number has no end inside. -/
theorem no_end_printedNat (n : ℕ) : '\x00' ∉ printedNat n := no_end_printed n

theorem send_callIndicatorsStatus {aghfp : Gateway} {availability callStatus callSetupStatus callHeldStatus : Enum}
    {signal : U16} {roamStatus : Enum} {batt : U16} :
    (∀ r ∈ AghfpCallIndicatorsStatusResponse aghfp availability callStatus callSetupStatus callHeldStatus signal roamStatus
        batt, r.send mem = .ok r.text) ↔
      width availability.toInt + width callStatus.toInt + width callSetupStatus.toInt < 13 ∧
        (aghfp.hfp15 →
          width callHeldStatus.toInt + width signal.toNat + width roamStatus.toInt + width batt.toNat < 13) := by
  rw [AghfpCallIndicatorsStatusResponse, forall_mem_cons, forall_mem_singleton, and_iff_left send_ok,
    send_iff ⟨Nat.le_of_ble_eq_true rfl, rfl, ?_⟩]
  · simp only [forall_append, forall_ite, Part.Fits, length_append, length_singleton, length_printedNat, width,
      List.Forall, true_and, and_true]
    refine and_congr ?_ (imp_congr_right fun _ => ?_)
    · omega
    · omega
  · simp [Part.Valid, no_end_printed, no_end_printedNat]

theorem send_callerId (type : U8) (number string : Data) :
    (aghfpSendCallerId type number string).send mem = .ok (aghfpSendCallerId type number string).text := by
  refine (send_iff ⟨Nat.le_of_ble_eq_true rfl, ?_, ?_⟩).mpr ?_
  · rw [aghfpSendCallerId]
    split <;> rfl
  · simp [aghfpSendCallerId, Part.Valid, no_end_printedNat]
  · simp [aghfpSendCallerId, Part.Fits, length_printedNat, Nat.lt_succ_of_le (width_u8 type)]

theorem send_callWaitingNotification (type : U8) (number string : Data) :
    (aghfpHandleSendCallWaitingNotification type number string).send mem =
      .ok (aghfpHandleSendCallWaitingNotification type number string).text := by
  refine (send_iff ⟨Nat.le_of_ble_eq_true rfl, rfl, ?_⟩).mpr ?_
  · simp [aghfpHandleSendCallWaitingNotification, Part.Valid, no_end_printedNat]
  · simp [aghfpHandleSendCallWaitingNotification, Part.Fits, length_printedNat, Nat.lt_succ_of_le (width_u8 type)]

theorem send_currentCall {res : CurrentCall} :
    (aghfpHandleSendCurrentCall res).send mem = .ok (aghfpHandleSendCurrentCall res).text ↔
      width res.idx.toNat + width res.dir.toNat + width res.status.toNat + width res.mode.toNat +
        width res.mpty.toNat < 12 := by
  have htype := width_u8 res.type
  rw [send_iff ⟨Nat.le_of_ble_eq_true rfl, rfl, ?_⟩]
  · simp only [aghfpHandleSendCurrentCall, forall_append, forall_ite, Part.Fits, length_append,
      length_singleton, length_printedNat, List.Forall, true_and, and_true]
    change _ ∧ (_ → 2 + _ < 16) ↔ _
    omega
  · simp [aghfpHandleSendCurrentCall, Part.Valid, no_end_printedNat]

theorem send_brsf (aghfp : Gateway) : ∀ r ∈ aghfpHandleBrsfRequest aghfp, r.send mem = .ok r.text := by
  rw [aghfpHandleBrsfRequest, forall_mem_cons, forall_mem_singleton]
  refine ⟨(send_iff ⟨Nat.le_of_ble_eq_true rfl, rfl, ?_⟩).mpr ?_, send_ok⟩
  · simp [Part.Valid, no_end_printedNat]
  · simp [Part.Fits, length_printedNat, Nat.lt_succ_of_le (width_u16 _)]

/-- A gain that `AghfpSetRemoteMicrophoneGain` lets through. -/
theorem send_remoteMicrophoneGain {gain : U8} (hgain : gain ≤ 15) :
    (aghfpHandleSetRemoteMicrophoneGain gain).send mem = .ok (aghfpHandleSetRemoteMicrophoneGain gain).text := by
  have hwidth : width (gain.toNat : ℤ) ≤ 2 := (width_le_iff (by decide)).mpr (Nat.lt_of_le_of_lt hgain (by decide))
  refine (send_iff ⟨Nat.le_of_ble_eq_true rfl, rfl, ?_⟩).mpr ?_
  · simp [aghfpHandleSetRemoteMicrophoneGain, Part.Valid, no_end_printedNat]
  · simp [aghfpHandleSetRemoteMicrophoneGain, Part.Fits, length_printedNat, Nat.lt_succ_of_le hwidth]

theorem send_remoteSpeakerVolume {volume : U8} (hvolume : volume ≤ 15) :
    (aghfpHandleSetRemoteSpeakerVolume volume).send mem = .ok (aghfpHandleSetRemoteSpeakerVolume volume).text := by
  have hwidth : width (volume.toNat : ℤ) ≤ 2 := (width_le_iff (by decide)).mpr (Nat.lt_of_le_of_lt hvolume (by decide))
  refine (send_iff ⟨Nat.le_of_ble_eq_true rfl, rfl, ?_⟩).mpr ?_
  · simp [aghfpHandleSetRemoteSpeakerVolume, Part.Valid, no_end_printedNat]
  · simp [aghfpHandleSetRemoteSpeakerVolume, Part.Fits, length_printedNat, Nat.lt_succ_of_le hwidth]

theorem send_responseHoldState (state : Enum) :
    (aghfpHandleSendResponseHoldState state).send mem = .ok (aghfpHandleSendResponseHoldState state).text :=
  (@send_iff mem (aghfpHandleSendResponseHoldState state)
    ⟨Nat.zero_le _, rfl, ⟨⟨by simp, by simp⟩, trivial⟩⟩).mpr ⟨trivial, trivial⟩

theorem send_confirmResponseHoldState (state : Enum) :
    ∀ r ∈ aghfpHandleConfirmResponseHoldState state, r.send mem = .ok r.text := by
  rw [aghfpHandleConfirmResponseHoldState, forall_mem_cons, forall_mem_singleton]
  exact ⟨send_responseHoldState state, send_ok⟩

theorem send_subscriberNumber (type service : U8) (number : Data) :
    (aghfpHandleSendSubscriberNumber type service number).send mem =
      .ok (aghfpHandleSendSubscriberNumber type service number).text := by
  have htype := width_u8 type
  have hservice := width_u8 service
  refine (send_iff ⟨Nat.le_of_ble_eq_true rfl, rfl, ?_⟩).mpr ?_
  · simp [aghfpHandleSendSubscriberNumber, Part.Valid, no_end_printedNat]
  · simp only [aghfpHandleSendSubscriberNumber, forall_cons, Part.Fits, length_append, length_printedNat,
      List.Forall, and_true]
    change 2 + _ + 4 + _ < 16
    omega

theorem send_networkOperator {mode : U8} {operator : Data} :
    (∀ r ∈ aghfpHandleSendNetworkOperator mode operator, r.send mem = .ok r.text) ↔ mode.toNat < 10 := by
  rw [aghfpHandleSendNetworkOperator, forall_mem_cons, forall_mem_singleton, and_iff_left send_ok,
    send_iff ⟨Nat.le_of_ble_eq_true rfl, rfl, ?_⟩]
  · simp only [Part.Fits, List.Forall, and_true, length_printedNat]
    exact Nat.lt_succ_iff.trans (width_le_iff (by decide))
  · simp [Part.Valid, no_end_printedNat]

theorem send_codecNegotiation (codecId : Enum) :
    (aghfpWbsStartCodecNegotiation codecId).send mem = .ok (aghfpWbsStartCodecNegotiation codecId).text := by
  have hwidth := width_enum codecId
  refine (send_iff ⟨Nat.le_of_ble_eq_true rfl, rfl, ?_⟩).mpr ?_
  · simp [aghfpWbsStartCodecNegotiation, Part.Valid, no_end_printed]
  · refine ⟨trivial, ?_, trivial⟩
    change width _ < 15
    omega

theorem send_phoneNumberForVoiceTag (number : Data) :
    (aghfpHandleSendPhoneNumberForVoiceTag number).send mem = .ok (aghfpHandleSendPhoneNumberForVoiceTag number).text :=
  (@send_iff mem (aghfpHandleSendPhoneNumberForVoiceTag number)
    ⟨Nat.zero_le _, rfl, ⟨⟨by simp, by simp⟩, trivial⟩⟩).mpr ⟨trivial, trivial⟩

/-- A number in an array of four characters. -/
theorem width_lt_four {n : ℕ} : width (n : ℤ) < 4 ↔ n < 1000 := Nat.lt_succ_iff.trans (width_le_iff (by decide))

theorem no_end_printedBool (b : Bool) : '\x00' ∉ printedBool b := no_end_printed _

theorem send_csrSupportedFeatures {callerName rawText smsInd battLevel pwrSource : Bool} {codecs : U16}
    {codecBandwidthsPresent : Bool} {codecBandwidths : U16} :
    (∀ r ∈ aghfpCsrSupportedFeaturesResponse callerName rawText smsInd battLevel pwrSource codecs codecBandwidthsPresent
        codecBandwidths, r.send mem = .ok r.text) ↔
      codecs.toNat < 1000 ∧ (codecBandwidthsPresent → codecBandwidths.toNat < 1000) := by
  rw [aghfpCsrSupportedFeaturesResponse, forall_mem_cons, forall_mem_singleton, and_iff_left send_ok,
    send_iff ⟨Nat.le_of_ble_eq_true rfl, rfl, ?_⟩]
  · simp [Part.Fits, width_bool, length_printedNat, width_lt_four]
  · simp [Part.Valid, no_end_printedNat, no_end_printedBool]

theorem send_featureNegotiate {numCsrFeatures indicator0 value0 indicator1 value1 : U16} {sendLeadingOK : Bool} :
    (∀ r ∈ aghfpFeatureNegotiate numCsrFeatures indicator0 value0 indicator1 value1 sendLeadingOK,
        r.send mem = .ok r.text) ↔
      indicator0.toNat < 1000 ∧ value0.toNat < 1000 ∧
        (1 < numCsrFeatures → indicator1.toNat < 1000 ∧ value1.toNat < 1000) := by
  rw [aghfpFeatureNegotiate, forall_mem_append, forall_mem_singleton, and_iff_right,
    send_iff ⟨Nat.le_of_ble_eq_true rfl, rfl, ?_⟩]
  · simp [Part.Fits, length_printedNat, width_lt_four]
  · simp [Part.Valid, no_end_printedNat]
  · by_cases hleading : sendLeadingOK
    · simpa [hleading] using send_ok
    · simp [hleading]

/-- An indicator with a value of the application. -/
theorem send_indicator {start : List Char} (hstart : '\x00' ∉ start ∧ start.length < 65536) (value : Enum) :
    (∀ r ∈ [ciev start (printed value.toInt)], r.send mem = .ok r.text) ↔ OneDigit value.toInt :=
  forall_mem_singleton.trans ((send_ciev hstart (no_end_printed _)).trans (width_lt_two _))

/-- An indicator with a level of at most 5. -/
theorem send_level {start : List Char} (hstart : '\x00' ∉ start ∧ start.length < 65536) (level : U16) :
    ∀ r ∈ [ciev start (printedNat (if level < 5 then level else 5).toNat)], r.send mem = .ok r.text := by
  refine forall_mem_singleton.mpr ((send_ciev hstart (no_end_printedNat _)).mpr ?_)
  refine Nat.lt_succ_of_le ((width_le_iff (by decide)).mpr ?_)
  split
  · next hlevel => exact Nat.lt_trans hlevel (by decide)
  · decide

/-! ### The result -/

theorem map_gate {α : Type} {c : Prop} [Decidable c] {a : α} {f : α → Response} :
    (if c then some a else none).toList.map f = if c then [f a] else [] := by
  split <;> rfl

theorem flatMap_gate {α : Type} {c : Prop} [Decidable c] {a : α} {f : α → List Response} :
    (if c then some a else none).toList.flatMap f = if c then f a else [] := by
  split
  · exact append_nil _
  · rfl

/-- Responses behind a check of the gateway. -/
theorem forall_gate {c P : Prop} [Decidable c] {rs : List Response}
    (h : c → ((∀ r ∈ rs, r.send mem = .ok r.text) ↔ P)) :
    (∀ r ∈ if c then rs else [], r.send mem = .ok r.text) ↔ (c → P) := by
  by_cases hc : c
  · rw [if_pos hc, imp_iff_right hc, h hc]
  · rw [if_neg hc]
    exact iff_of_true (forall_mem_nil _) fun hc' => absurd hc' hc

/-- Responses that fit whether the check lets them through or not. -/
theorem forall_gate_true {c : Prop} [Decidable c] {rs : List Response} (h : c → ∀ r ∈ rs, r.send mem = .ok r.text) :
    (∀ r ∈ if c then rs else [], r.send mem = .ok r.text) ↔ True :=
  (forall_gate fun hc => iff_of_true (h hc) trivial).trans (iff_true_intro fun _ => trivial)

/-- For each request, each state in which it is made and each in which it is handled: the responses are sent as they are
formatted if and only if the numbers fit. -/
theorem formatted_iff {aghfp handling : Gateway} {request : Request} :
    Formatted mem aghfp handling request ↔ Fits aghfp handling request := by
  unfold Formatted
  cases request with
  | cindDetails =>
    rw [responses, forall_mem_cons, forall_mem_singleton]
    exact iff_of_true ⟨send_cindDetails handling, send_ok⟩ trivial
  | cindStatus =>
    refine iff_of_true (send_callIndicatorsStatus.mpr ⟨?_, fun _ => by decide⟩) trivial
    cases handling.serviceState <;> cases handling.activeCall <;> decide
  | callIndicatorsStatus => exact send_callIndicatorsStatus
  | serviceIndicator availability =>
    rw [responses, AghfpSendServiceIndicator, map_gate]
    exact forall_gate fun _ => send_indicator (by simp) availability
  | callIndicator status =>
    rw [responses, aghfpHandleSendCallIndicator]
    refine forall_gate fun henable => ?_
    rw [aghfpSendCallIndicator, if_pos henable]
    exact send_indicator (by simp) status
  | callSetupIndicator type =>
    rw [responses, aghfpHandleSendCallSetupIndicator]
    refine forall_gate fun henable => ?_
    rw [aghfpSendCallSetupIndicator, if_pos henable]
    exact send_indicator (by simp) type
  | callHeldIndicator status =>
    rw [responses, AghfpSendCallHeldIndicator, flatMap_gate, Fits, and_imp]
    refine forall_gate fun _ => ?_
    rw [aghfpHandleSendCallHeldIndicator]
    exact forall_gate fun _ => send_indicator (by simp) status
  | signalIndicator level =>
    rw [responses, AghfpSendSignalIndicator, map_gate]
    exact forall_gate_true fun _ => send_level (by simp) level
  | roamIndicator status =>
    rw [responses, AghfpSendRoamIndicator, map_gate]
    exact forall_gate fun _ => send_indicator (by simp) status
  | battChgIndicator level =>
    rw [responses, AghfpSendBattChgIndicator, map_gate]
    exact forall_gate_true fun _ => send_level (by simp) level
  | callerId type number string =>
    exact iff_of_true (forall_mem_singleton.mpr (send_callerId type number string)) trivial
  | callWaitingNotification type number string =>
    rw [responses, AghfpSendCallWaitingNotification, map_gate]
    exact forall_gate_true fun _ => forall_mem_singleton.mpr (send_callWaitingNotification type number string)
  | callHoldSupport =>
    rw [responses, aghfpHandleCallHoldSupportRequest, forall_mem_cons, forall_mem_singleton]
    exact iff_of_true ⟨send_atCmd (by simp) (by simp), send_ok⟩ trivial
  | currentCall call =>
    rw [responses, AghfpSendCurrentCall, map_gate]
    refine forall_gate fun _ => forall_mem_singleton.trans (send_currentCall.trans ?_)
    simp only [BitVec.toNat_setWidth]
  | brsf => exact iff_of_true (send_brsf handling) trivial
  | remoteMicrophoneGain gain =>
    rw [responses, AghfpSetRemoteMicrophoneGain, map_gate]
    exact forall_gate_true fun hgain => forall_mem_singleton.mpr (send_remoteMicrophoneGain hgain)
  | remoteSpeakerVolume volume =>
    rw [responses, AghfpSetRemoteSpeakerVolume, map_gate]
    exact forall_gate_true fun hvolume => forall_mem_singleton.mpr (send_remoteSpeakerVolume hvolume)
  | responseHoldState state =>
    rw [responses, AghfpSendResponseHoldState, map_gate]
    exact forall_gate_true fun _ => forall_mem_singleton.mpr (send_responseHoldState state)
  | confirmResponseHoldState state =>
    rw [responses, AghfpConfirmResponseHoldState, flatMap_gate]
    exact forall_gate_true fun _ => send_confirmResponseHoldState state
  | subscriberNumber type service number =>
    rw [responses, AghfpSendSubscriberNumber, map_gate]
    exact forall_gate_true fun _ => forall_mem_singleton.mpr (send_subscriberNumber type service number)
  | networkOperator mode operator =>
    rw [responses, AghfpSendNetworkOperator, flatMap_gate]
    exact forall_gate fun _ => send_networkOperator
  | codecNegotiation codecId => exact iff_of_true (forall_mem_singleton.mpr (send_codecNegotiation codecId)) trivial
  | phoneNumberForVoiceTag number =>
    rw [responses, AghfpSendPhoneNumberForVoiceTag, map_gate]
    exact forall_gate_true fun _ => forall_mem_singleton.mpr (send_phoneNumberForVoiceTag number)
  | csrSupportedFeatures => exact send_csrSupportedFeatures
  | featureNegotiate => exact send_featureNegotiate

end

/-- Each request, in each state, and whatever is in the arrays before. -/
def AlwaysFormatted : Prop :=
  ∀ (mem : ℕ → Char) (aghfp handling : Gateway) (request : Request), Formatted mem aghfp handling request

/-- A gateway with HFP 1.5. -/
def gateway : Gateway := ⟨.handsfree15, 0, 0, false, false, false, false⟩

/-- A network operator, with mode 10. -/
theorem not_alwaysFormatted : ¬ AlwaysFormatted := by
  intro halways
  have hsent := halways (fun _ => ' ') gateway gateway (.networkOperator 10 ⟨[], Nat.zero_lt_succ _⟩)
  rw [Formatted, responses, AghfpSendNetworkOperator, flatMap_gate, forall_gate fun _ => send_networkOperator] at hsent
  exact absurd (hsent rfl) (by decide)

end Cbps.Aghfp.Responses
