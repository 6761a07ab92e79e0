import Cbps.SdpParse.Uuids
import Cbps.Service.Reading

/-!
# The searches of the SDP library

A service record holds its protocols, and its profiles, as a list of sections, and a section is a row of elements: a UUID
with its parameters. `findServerChannel` and `findProfileVersion` go through the sections of a list and, in each of them,
through the elements until one is accepted for the UUID.
-/

namespace Cbps.SdpParse

open Service

variable (mem : ℕ → UInt8)

/-! ### Attributes -/

/-- A record is searched from its beginning. -/
def start (record : Region) : Next := ⟨record, 0, .nil, ⟨0, 0⟩⟩

/-- `findArbitrary`, `findSupportedFeatures`, `findPbapRepos`, `findGoepL2CapPsm` and `findServiceName`, which look at the
first attribute with an identifier: its value, if it is of the type. -/
def findAttribute (id : ℕ) (type : ServiceDataType) (record : Region) : Except Fault (Option Region) := do
  let (ok, next) ← serviceFindAttribute mem id (start record)
  if ok ∧ next.type = type then return some next.value else return none

/-- One turn of the loop of `findProtocolDescriptorList`, which has returned if there is a result. -/
def listTurn (st : Next × Option Bool) : Except Fault (Option (Next × Option Bool)) := do
  match st.2 with
  | some _ => return none
  | none =>
    let (ok, next) ← serviceFindAttribute mem 0x0004 st.1
    if ok then return some (next, if next.type = .sequence then some true else none)
    else return some (next, some false)

/-- `findProtocolDescriptorList`. -/
def findProtocolDescriptorList (record : Region) : Except Fault (Option Region) := do
  let (next, result) ← Lib.loop .endless (listTurn mem) (regionSize record + 2) (start record, none)
  if result = some true then return some next.value else return none

/-! ### Sections -/

/-- The variables of the loop over the elements of a section. -/
structure Walk where
  protocol : Region
  type : ServiceDataType
  value : Region
  reachedEnd : Bool

/-- One turn of `while( !RegionMatchesUUID32( ... ) )`. -/
def walkTurn (id : ℕ) (w : Walk) : Except Fault (Option Walk) := do
  if w.reachedEnd || regionMatchesUuid32 mem w.value id then return none
  else
    let got ← serviceGetValue mem w.protocol w.type w.value
    return some ⟨got.r, got.type, got.out, !got.result⟩

/-- `while( !RegionMatchesUUID32( ... ) )`. -/
def walk (id : ℕ) (w : Walk) : Except Fault Walk :=
  Lib.loop .endless (walkTurn mem id) (regionSize w.protocol + 2) w

/-- The variables of the loop over the sections of a list. -/
structure Search where
  protocols : Region
  type : ServiceDataType
  value : Region
  result : Option Bool

/-- One turn of the loop of `findServerChannel`. -/
def channelTurn (id : ℕ) (s : Search) : Except Fault (Option Search) := do
  match s.result with
  | some _ => return none
  | none =>
    let got ← serviceGetValue mem s.protocols s.type ⟨0, 0⟩
    if got.result then
      let first ← serviceGetValue mem got.out got.type s.value
      if first.result then
        let w ← walk mem id ⟨first.r, first.type, first.out, false⟩
        if w.value.end ≠ w.protocol.end then
          let last ← serviceGetValue mem w.protocol w.type w.value
          return some ⟨got.r, last.type, last.out,
            if last.result ∧ last.type = .unsignedInteger then some true else none⟩
        else return some ⟨got.r, w.type, w.value, none⟩
      else return some ⟨got.r, first.type, first.out, none⟩
    else return some ⟨got.r, got.type, s.value, some false⟩

/-- `findServerChannel`. -/
def findServerChannel (id : ℕ) (protocols value : Region) : Except Fault Search :=
  Lib.loop .endless (channelTurn mem id) (regionSize protocols + 2) ⟨protocols, .nil, value, none⟩

/-- One turn of the inner loop of `findProfileVersion`. -/
def versionTurn (serviceClass : ℕ) (s : Search) : Except Fault (Option Search) := do
  match s.result with
  | some _ => return none
  | none =>
    let got ← serviceGetValue mem s.protocols s.type ⟨0, 0⟩
    if got.result then
      let first ← serviceGetValue mem got.out got.type s.value
      if first.result then
        let w ← walk mem serviceClass ⟨first.r, first.type, first.out, false⟩
        if w.reachedEnd then return some ⟨got.r, w.type, w.value, some false⟩
        else
          let last ← serviceGetValue mem w.protocol w.type w.value
          return some ⟨got.r, last.type, last.out,
            if last.result ∧ last.type = .unsignedInteger then some true else none⟩
      else return some ⟨got.r, first.type, first.out, none⟩
    else return none

/-- The variables of the outer loop of `findProfileVersion`: the list is the value of the attribute that was found. -/
structure Profile where
  next : Next
  value : Region
  result : Option Bool

/-- One turn of the outer loop of `findProfileVersion`. -/
def profileTurn (serviceClass : ℕ) (p : Profile) : Except Fault (Option Profile) := do
  match p.result with
  | some _ => return none
  | none =>
    let (ok, next) ← serviceFindAttribute mem 0x0009 p.next
    if ok then
      if next.type = .sequence then
        let s ← Lib.loop .endless (versionTurn mem serviceClass) (regionSize next.value + 2)
          ⟨next.value, next.type, p.value, none⟩
        return some ⟨next, s.value, s.result⟩
      else return some ⟨next, p.value, none⟩
    else return some ⟨next, p.value, some false⟩

/-- `findProfileVersion`. -/
def findProfileVersion (serviceClass : ℕ) (record : Region) : Except Fault (Option Region) := do
  let p ← Lib.loop .endless (profileTurn mem serviceClass) (regionSize record + 2) ⟨start record, ⟨0, 0⟩, none⟩
  if p.result = some true then return some p.value else return none

/-! ### Access to the values -/

/-- `SdpParseGetArbitrary`. -/
def sdpParseGetArbitrary (id : ℕ) (record : Region) : Except Fault (Option ℕ) :=
  Option.map (regionReadUnsigned mem) <$> findAttribute mem id .unsignedInteger record

/-- `SdpParseGetSupportedFeatures`. -/
def sdpParseGetSupportedFeatures (record : Region) : Except Fault (Option ℕ) :=
  Option.map (fun value => regionReadUnsigned mem value % 65536) <$> findAttribute mem 0x0311 .unsignedInteger record

/-- `SdpParseGetPbapRepos`. -/
def sdpParseGetPbapRepos (record : Region) : Except Fault (Option ℕ) :=
  Option.map (fun value => regionReadUnsigned mem value % 256) <$> findAttribute mem 0x0314 .unsignedInteger record

/-- `SdpParseGetProfileVersion`. -/
def sdpParseGetProfileVersion (serviceClass : ℕ) (record : Region) : Except Fault (Option ℕ) :=
  Option.map (fun value => regionReadUnsigned mem value % 65536) <$> findProfileVersion mem serviceClass record

/-- `UUID_RFCOMM`. -/
def uuidRfcomm : ℕ := 3

/-- The variables of the loop of `SdpParseGetMultipleRfcommServerChannels`, which is left by `break` when `full` is set. -/
structure Gather where
  protocols : Region
  value : Region
  chans : List ℕ
  full : Bool

/-- One turn of the loop of `SdpParseGetMultipleRfcommServerChannels`. -/
def gatherTurn (sizeChans : ℕ) (g : Gather) : Except Fault (Option Gather) := do
  if g.full then return none
  else
    let s ← findServerChannel mem uuidRfcomm g.protocols g.value
    if s.result = some true then
      let protocols : Region := { s.protocols with begin := s.value.end }
      if g.chans.length < sizeChans then
        return some ⟨protocols, s.value, g.chans ++ [regionReadUnsigned mem s.value % 256], false⟩
      else return some ⟨protocols, s.value, g.chans, true⟩
    else return none

/-- `SdpParseGetMultipleRfcommServerChannels`: the channels, of which there is at least one if it returns TRUE. -/
def sdpParseGetMultipleRfcommServerChannels (sizeChans : ℕ) (record : Region) : Except Fault (List ℕ) := do
  match ← findProtocolDescriptorList mem record with
  | none => return []
  | some protocols =>
    let g ← Lib.loop .endless (gatherTurn mem sizeChans) (regionSize protocols + 2) ⟨protocols, ⟨0, 0⟩, [], false⟩
    return g.chans

end Cbps.SdpParse
