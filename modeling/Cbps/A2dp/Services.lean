import Cbps.A2dp.Codecs

/-!
# Lists of service capabilities

`a2dp_caps_parse.c` and the capability functions of `a2dp_process_command.c`, on lists of octets. A list
is the octets that lie between a pointer and the end that its size gives. It is a sequence of entries of a
service category, a length and so many octets; an entry that is cut off ends it.
-/

namespace Cbps.A2dp

/-! ### Constants -/

/-- `AVDTP_SERVICE_MEDIA_TRANSPORT`. -/
def serviceMediaTransport : Octet := 1

def serviceReporting : Octet := 2

def serviceRecovery : Octet := 3

def serviceContentProtection : Octet := 4

def serviceHeaderCompression : Octet := 5

def serviceMultiplexing : Octet := 6

def serviceDelayReporting : Octet := 8

/-- `avdtp_error_code`. -/
def badHeaderFormat : Octet := 0x01

def badLength : Octet := 0x11

def badAcpSeid : Octet := 0x12

def sepInUse : Octet := 0x13

def sepNotInUse : Octet := 0x14

def badServCategory : Octet := 0x17

def badPayloadFormat : Octet := 0x18

def invalidCapabilities : Octet := 0x1a

def badRecoveryType : Octet := 0x22

def badMediaTransportFormat : Octet := 0x23

def badRecoveryFormat : Octet := 0x25

def badRohcFormat : Octet := 0x26

def badCpFormat : Octet := 0x27

def badMultiplexingFormat : Octet := 0x28

def unsupportedConfiguration : Octet := 0x29

def badState : Octet := 0x31

/-! ### Entries -/

/-- A service category with its information. -/
structure Service where
  category : Octet
  information : List Octet
  deriving DecidableEq, Repr

/-- The octets of an entry. -/
def Service.octets (s : Service) : List Octet :=
  s.category :: BitVec.ofNat 8 s.information.length :: s.information

/-- The entries of a list of at most `n` octets. -/
def servicesWithin : ℕ → List Octet → List Service
  | n + 1, category :: losc :: caps =>
    if losc.toNat ≤ caps.length then
      ⟨category, caps.take losc.toNat⟩ :: servicesWithin n (caps.drop losc.toNat)
    else []
  | _, _ => []

def services (caps : List Octet) : List Service := servicesWithin caps.length caps

/-- `a2dpIsServiceSupported`. -/
def a2dpIsServiceSupported (service : Octet) (caps : List Octet) : Bool :=
  (services caps).any fun s => s.category = service

/-- The entry that `a2dpFindCodecSpecificInformation` finds. -/
def codecEntry (caps : List Octet) : Option Service :=
  (services caps).find? fun s => s.category = serviceMediaCodec

/-- `remote_codec[AVDTP_SERVICE_CAPS_MEDIA_CODEC_TYPE_OFFSET]`. -/
def codecType (codec : Service) : Octet := codec.octets.getD 3 0

/-- The pointer to a list. -/
def pointer (caps : List Octet) : Caps := fun k => caps.getD k 0

/-- `a2dpFindMatchingCodecSpecificInformation` finds something. -/
def codecsCompatible (localCaps remoteCaps : List Octet) (initiating : Bool) : Bool :=
  (a2dpFindMatchingCodecSpecificInformation (localCaps.length + remoteCaps.length) (pointer localCaps)
    (pointer remoteCaps) initiating).isSome

/-- `a2dpSelectOptimalCodecSettings`, which writes into the list. -/
def selectSettings (role : Role) (localCaps remoteCaps : List Octet) : Option (List Octet) :=
  (a2dpSelectOptimalCodecSettings (localCaps.length + remoteCaps.length) role (pointer localCaps)
    (pointer remoteCaps)).map fun caps => (List.range remoteCaps.length).map caps

/-! ### Checks -/

/-- The check of one entry in `a2dpValidateServiceCaps`. A second codec is told from the first one. -/
def validateService (ignoreBadServCategory hasCodec : Bool) (s : Service) : Option Octet :=
  if s.category = serviceMediaTransport then
    if s.information ≠ [] then some badMediaTransportFormat else none
  else if s.category = serviceReporting then
    if s.information ≠ [] then some badPayloadFormat else none
  else if s.category = serviceRecovery then
    if s.information.length ≠ 3 then some badRecoveryFormat
    else if s.information.getD 0 0 ≠ 1 then some badRecoveryType
    else if s.information.getD 1 0 < 0x01 ∨ 0x18 < s.information.getD 1 0 then some badRecoveryFormat
    else if s.information.getD 2 0 < 0x01 ∨ 0x18 < s.information.getD 2 0 then some badRecoveryFormat
    else none
  else if s.category = serviceContentProtection then
    if s.information.length < 2 then some badCpFormat else none
  else if s.category = serviceHeaderCompression then
    if s.information.length ≠ 1 then some badRohcFormat else none
  else if s.category = serviceMultiplexing then
    if s.information.length < 2 then some badMultiplexingFormat else none
  else if s.category = serviceMediaCodec then
    if s.information.length < 2 ∨ hasCodec then some badPayloadFormat else none
  else if s.category = serviceDelayReporting then
    if s.information ≠ [] then some badPayloadFormat else none
  else if ignoreBadServCategory then none
  else some badServCategory

/-- The error of a list: the category that it is about, and the code. -/
structure CapsError where
  category : Octet
  code : Octet
  deriving DecidableEq, Repr

/-- The loop of `a2dpValidateServiceCaps`, which returns whether there is a media transport and a codec. -/
def validateEntries (ignoreBadServCategory : Bool) : ℕ → Octet → Bool → Bool → List Octet →
    Except CapsError (Bool × Bool)
  | n + 1, _, hasMediaTransport, hasCodec, category :: losc :: caps =>
    if losc.toNat ≤ caps.length then
      match validateService ignoreBadServCategory hasCodec ⟨category, caps.take losc.toNat⟩ with
      | some code => .error ⟨category, code⟩
      | none =>
        let hasMediaTransport := hasMediaTransport || category = serviceMediaTransport
        let hasCodec := hasCodec || category = serviceMediaCodec
        if caps.drop losc.toNat = [] then .ok (hasMediaTransport, hasCodec)
        else validateEntries ignoreBadServCategory n category hasMediaTransport hasCodec
          (caps.drop losc.toNat)
    else .error ⟨category, badPayloadFormat⟩
  | _, category, _, _, _ => .error ⟨category, badPayloadFormat⟩

/-- `a2dpValidateServiceCaps`. The category of an error in an empty list is what the caller left there. -/
def a2dpValidateServiceCaps (caps : List Octet) (reconfigure onlyCheckStructure ignoreBadServCategory : Bool) :
    Except CapsError Unit :=
  match validateEntries ignoreBadServCategory caps.length 0 false false caps with
  | .error e => .error e
  | .ok (hasMediaTransport, hasCodec) =>
    if onlyCheckStructure then .ok ()
    else if hasMediaTransport = reconfigure then .error ⟨serviceMediaTransport, invalidCapabilities⟩
    else if !hasCodec then .error ⟨serviceMediaCodec, badPayloadFormat⟩
    else .ok ()

/-- `a2dpAreServicesCategoriesCompatible` returns the category that is not supported. -/
def unsupportedService (localCaps configCaps : List Octet) : Option Octet :=
  ((services configCaps).find? fun s => !a2dpIsServiceSupported s.category localCaps).map Service.category

/-- `getFilteredServiceCaps`. -/
def getFilteredServiceCaps (filter : Octet) (caps : List Octet) : List Octet :=
  ((services caps).filter fun s => s.category ≠ filter).flatMap Service.octets

/-! ### The configured capabilities -/

/-- `media_transport_caps`. -/
def mediaTransportCaps : List Octet := [serviceMediaTransport, 0]

/-- `content_protection_caps`, of SCMS. -/
def contentProtectionCaps : List Octet := [serviceContentProtection, 2, 0x02, 0x00]

/-- `delay_reporting_caps`. -/
def delayReportingCaps : List Octet := [serviceDelayReporting, 0]

/-- A service of `updateConfiguredServiceCaps`: what is being updated must be supported locally, and what
is not is retained. -/
def retainsService (service : Octet) (localCaps configuredCaps newCaps : List Octet) : Bool :=
  if a2dpIsServiceSupported service newCaps then a2dpIsServiceSupported service localCaps
  else a2dpIsServiceSupported service configuredCaps

/-- `updateConfiguredServiceCaps`. -/
def updateConfiguredServiceCaps (localCaps configuredCaps newCaps : List Octet) : List Octet :=
  let codec := (codecEntry newCaps).or (codecEntry configuredCaps)
  mediaTransportCaps ++ (codec.map Service.octets).getD [] ++
    (if retainsService serviceContentProtection localCaps configuredCaps newCaps then
      contentProtectionCaps else []) ++
    (if retainsService serviceDelayReporting localCaps configuredCaps newCaps then delayReportingCaps else [])

end Cbps.A2dp
