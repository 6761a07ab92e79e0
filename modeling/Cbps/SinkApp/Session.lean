import Cbps.Lib.Masks

/-!
# The session data

`configManagerWriteSessionData` stores the settings that change at run time in one record of the persistent store, and
after a restart `configManagerReadSessionData` takes them from there. The orientation of the volume buttons comes back in
two steps: the record is read into `volumeOrientationIsInverted`, and `initUserFeatures` makes of that the event which
inverts the buttons.

The user EQ bank and the enhancements of the music mode share one field, the bank in its three lowest bits (`packed_low`,
`packed_high`).
-/

namespace Cbps.SinkApp.Session

/-- `volume_info`. -/
structure VolumeInfo where
  mainVolume : BitVec 16
  auxVolume : BitVec 16
deriving DecidableEq, Repr

/-- `user_eq_band_t`. -/
structure UserEqBand where
  filter : BitVec 16
  freq : BitVec 16
  gain : BitVec 16
  q : BitVec 16
deriving DecidableEq, Repr

/-- `user_eq_bank_t`. -/
structure UserEqBank where
  preGain : BitVec 16
  bands : Vector UserEqBand 5
deriving DecidableEq, Repr

/-- `audio_sources`. -/
inductive AudioSource
  | none
  | fm
  | analog
  | spdif
  | usb
  | ag1
  | ag2
  | endOfList
deriving DecidableEq, Repr

/-- The bits of a source. -/
def AudioSource.toBits : AudioSource → BitVec 3
  | .none => 0
  | .fm => 1
  | .analog => 2
  | .spdif => 3
  | .usb => 4
  | .ag1 => 5
  | .ag2 => 6
  | .endOfList => 7

def AudioSource.ofBits (bits : BitVec 3) : AudioSource :=
  match bits.toNat with
  | 0 => .none
  | 1 => .fm
  | 2 => .analog
  | 3 => .spdif
  | 4 => .usb
  | 5 => .ag1
  | 6 => .ag2
  | _ => .endOfList

@[simp] theorem AudioSource.ofBits_toBits (source : AudioSource) : ofBits source.toBits = source := by
  cases source <;> rfl

/-- `ble_gap_role_t`, of which two bits are stored: unknown, central and peripheral. -/
abbrev BleGapRole := BitVec 2

def bleGapRoleUnknown : BleGapRole := 0

/-- `A2DP_MUSIC_PROCESSING_T`: the banks of the user EQ follow `A2DP_MUSIC_PROCESSING_FULL_SET_EQ_BANK0`. -/
abbrev MusicProcessing := BitVec 16

def musicProcessingFull : MusicProcessing := 1

def setEqBank0 : MusicProcessing := 3

/-- `A2DP_MUSIC_CONFIG_USER_EQ_SELECT`. -/
def userEqSelect : BitVec 16 := 7

/-! ### The settings and the record -/

/-- The settings for which the record has a field. `PEQ` is there from the allocation of the configuration on. -/
structure Settings where
  volButtonsInverted : Bool
  ledsEnabled : Bool
  audioPromptLanguage : BitVec 4
  audioPromptsEnabled : Bool
  multipointEnable : Bool
  peerLinkReserved : Bool
  lbipmEnable : Bool
  ssrEnabled : Bool
  gapDefaultRole : BleGapRole
  requestedAudioSource : AudioSource
  musicModeProcessing : MusicProcessing
  musicModeEnhancements : BitVec 16
  fmRxTunedFreq : BitVec 16
  fmVolume : VolumeInfo
  analogVolume : VolumeInfo
  spdifVolume : VolumeInfo
  usbVolume : VolumeInfo
  peq : UserEqBank
deriving DecidableEq, Repr

/-- `theSink`, with what the initialisation is told about the orientation of the volume buttons. -/
structure Sink extends Settings where
  volumeOrientationIsInverted : Bool
deriving DecidableEq, Repr

/-- `session_data_type`. -/
structure SessionData where
  volOrientation : Bool
  ledEnable : Bool
  audioPromptLanguage : BitVec 4
  multipointEnable : Bool
  peerLinkReserved : Bool
  lbipmEnable : Bool
  bleRole : BitVec 2
  audioPromptEnable : Bool
  ssrEnabled : Bool
  audioSource : BitVec 3
  audioEnhancements : BitVec 16
  fmFrequency : BitVec 16
  analogVolume : VolumeInfo
  spdifVolume : VolumeInfo
  usbVolume : VolumeInfo
  fmVolume : VolumeInfo
  userEq : UserEqBank
deriving DecidableEq, Repr

/-- `ENABLE_FM`, two features, and what `HfpLinkSetMaxConnections` and `A2dpConfigureMaxRemoteDevices` answer. -/
structure Config where
  enableFm : Bool
  resetLEDEnableStateAfterReset : Bool
  enableA2dpStreaming : Bool
  hfpLinkSetMaxConnections : ℕ → Bool
  a2dpConfigureMaxRemoteDevices : ℕ → Bool

def noVolume : VolumeInfo := ⟨0, 0⟩

def noEq : UserEqBank := ⟨0, .replicate 5 ⟨0, 0, 0, 0⟩⟩

/-- All of `theSink` is zero at first. -/
def restarted : Sink :=
  ⟨⟨false, false, 0, false, false, false, false, false, bleGapRoleUnknown, .none, 0, 0, 0, noVolume, noVolume, noVolume,
    noVolume, noEq⟩, false⟩

/-! ### The functions -/

/-- Whether the profiles can have that many connections. -/
def Config.accepts (config : Config) (connections : ℕ) : Bool :=
  config.hfpLinkSetMaxConnections connections &&
    (!config.enableA2dpStreaming || config.a2dpConfigureMaxRemoteDevices connections)

/-- `configManagerEnableMultipoint`: the flag that it leaves. -/
def configManagerEnableMultipoint (config : Config) (multipointEnable enable : Bool) : Bool :=
  if enable then
    if config.accepts 2 then true else multipointEnable
  else
    if config.accepts 1 then false else multipointEnable

/-- The bank and the enhancements in one field. -/
def audioEnhancements (musicModeProcessing : MusicProcessing) (musicModeEnhancements : BitVec 16) : BitVec 16 :=
  ((musicModeProcessing - setEqBank0) &&& userEqSelect) ||| (musicModeEnhancements &&& ~~~userEqSelect)

/-- The record that is stored. -/
def configManagerWriteSessionData (config : Config) (sink : Sink) : SessionData where
  volOrientation := sink.volButtonsInverted
  ledEnable := sink.ledsEnabled
  audioPromptLanguage := sink.audioPromptLanguage
  audioPromptEnable := sink.audioPromptsEnabled
  multipointEnable := sink.multipointEnable
  lbipmEnable := sink.lbipmEnable
  ssrEnabled := sink.ssrEnabled
  peerLinkReserved := sink.peerLinkReserved
  bleRole := sink.gapDefaultRole
  audioSource := sink.requestedAudioSource.toBits
  audioEnhancements := audioEnhancements sink.musicModeProcessing sink.musicModeEnhancements
  -- `sinkFmSetSessionDataFromFmData`; without FM the record keeps the zeros of its initialisation
  fmFrequency := if config.enableFm then sink.fmRxTunedFreq else 0
  fmVolume := if config.enableFm then sink.fmVolume else noVolume
  analogVolume := sink.analogVolume
  spdifVolume := sink.spdifVolume
  usbVolume := sink.usbVolume
  userEq := sink.peq

/-- Take the settings from the record. -/
def configManagerReadSessionData (config : Config) (data : SessionData) (sink : Sink) : Sink where
  volButtonsInverted := sink.volButtonsInverted
  volumeOrientationIsInverted := data.volOrientation
  ledsEnabled := if !config.resetLEDEnableStateAfterReset then data.ledEnable else true
  audioPromptLanguage := data.audioPromptLanguage
  audioPromptsEnabled := data.audioPromptEnable
  lbipmEnable := data.lbipmEnable
  ssrEnabled := data.ssrEnabled
  requestedAudioSource := .ofBits data.audioSource
  multipointEnable := configManagerEnableMultipoint config sink.multipointEnable data.multipointEnable
  peerLinkReserved := data.peerLinkReserved
  musicModeProcessing := setEqBank0 + (data.audioEnhancements &&& userEqSelect)
  musicModeEnhancements := data.audioEnhancements &&& ~~~userEqSelect
  -- `sinkFmSetFmDataFromSessionData`
  fmRxTunedFreq := if config.enableFm then data.fmFrequency else sink.fmRxTunedFreq
  fmVolume := if config.enableFm then data.fmVolume else sink.fmVolume
  analogVolume := data.analogVolume
  spdifVolume := data.spdifVolume
  usbVolume := data.usbVolume
  peq := data.userEq
  gapDefaultRole := if sink.gapDefaultRole = bleGapRoleUnknown then data.bleRole else sink.gapDefaultRole

/-- The part of `InitUserFeatures` about the volume buttons: `EventUsrVolumeOrientationInvert` inverts them. -/
def initUserFeatures (sink : Sink) : Sink :=
  if sink.volumeOrientationIsInverted then { sink with volButtonsInverted := true } else sink

/-- The settings after a restart with a stored record. -/
def restart (config : Config) (data : SessionData) : Sink :=
  initUserFeatures (configManagerReadSessionData config data restarted)

/-- `configManagerRestoreDefaults`: the settings and the record that is stored. `lTemp` is what the memory of the local
record holds. -/
def configManagerRestoreDefaults (config : Config) (lTemp : SessionData) (sink : Sink) : Sink × SessionData :=
  ({ sink with
      volButtonsInverted := false
      audioPromptLanguage := 0
      audioPromptsEnabled := true
      multipointEnable := configManagerEnableMultipoint config sink.multipointEnable false
      lbipmEnable := false
      musicModeProcessing := musicProcessingFull },
    { lTemp with userEq := noEq, ledEnable := true })

/-! ### The round trip -/

/-- **The promise**: a restart gives every setting back, and the record of the defaults does not depend on the memory of the
local record. -/
def RoundTrip : Prop :=
  (∀ config sink, (restart config (configManagerWriteSessionData config sink)).toSettings = sink.toSettings) ∧
    ∀ config sink lTemp lTemp',
      (configManagerRestoreDefaults config lTemp sink).2 = (configManagerRestoreDefaults config lTemp' sink).2

/-- What a restart makes of the settings by design: the LEDs may be enabled again, a second connection may be refused, the
lowest bits of the enhancements are those of the bank, and without FM there is nothing to tune. -/
def Settings.kept (config : Config) (settings : Settings) : Settings :=
  { settings with
    ledsEnabled := settings.ledsEnabled || config.resetLEDEnableStateAfterReset
    multipointEnable := settings.multipointEnable && config.accepts 2
    musicModeEnhancements := settings.musicModeEnhancements &&& ~~~userEqSelect
    fmRxTunedFreq := if config.enableFm then settings.fmRxTunedFreq else 0
    fmVolume := if config.enableFm then settings.fmVolume else noVolume }

/-- One of the banks of the user EQ is selected. -/
def Settings.HasBank (settings : Settings) : Prop :=
  setEqBank0.toNat ≤ settings.musicModeProcessing.toNat ∧
    settings.musicModeProcessing.toNat ≤ setEqBank0.toNat + userEqSelect.toNat

/-- The bank comes back from the lowest bits of the field. -/
theorem setEqBank0_add {settings : Settings} (h : settings.HasBank) :
    setEqBank0 + (audioEnhancements settings.musicModeProcessing settings.musicModeEnhancements &&& userEqSelect) =
      settings.musicModeProcessing := by
  obtain ⟨hlow, hhigh⟩ := h
  have hbank : (settings.musicModeProcessing - setEqBank0) &&& userEqSelect = settings.musicModeProcessing - setEqBank0 := by
    refine BitVec.eq_of_toNat_eq ?_
    have hmod := Nat.and_two_pow_sub_one_eq_mod (settings.musicModeProcessing - setEqBank0).toNat 3
    rw [BitVec.toNat_and, show userEqSelect.toNat = 2 ^ 3 - 1 from rfl, hmod, BitVec.toNat_sub_of_le hlow]
    exact Nat.mod_eq_of_lt (by rw [show userEqSelect.toNat = 7 from rfl] at hhigh; omega)
  rw [audioEnhancements, Lib.packed_and, hbank, BitVec.add_comm, BitVec.sub_add_cancel]

/-- Multipoint comes back if the profiles can have two connections. -/
theorem enableMultipoint_restarted (config : Config) (enable : Bool) :
    configManagerEnableMultipoint config restarted.multipointEnable enable = (enable && config.accepts 2) := by
  cases enable with
  | false => exact ite_self _
  | true =>
    rw [configManagerEnableMultipoint, if_pos rfl, Bool.true_and]
    split
    · exact Eq.symm ‹_›
    · exact ((Bool.not_eq_true _).mp ‹_›).symm

/-- The buttons are inverted by the event of the initialisation. -/
theorem restart_eq (config : Config) (data : SessionData) :
    restart config data =
      { configManagerReadSessionData config data restarted with volButtonsInverted := data.volOrientation } := by
  obtain ⟨_ | _, _⟩ := data <;> rfl

/-- While a bank of the user EQ is selected, a restart keeps the settings as designed. -/
theorem restart_toSettings (config : Config) {sink : Sink} (h : sink.HasBank) :
    (restart config (configManagerWriteSessionData config sink)).toSettings = sink.toSettings.kept config := by
  have hled : (if !config.resetLEDEnableStateAfterReset then sink.ledsEnabled else true) =
      (sink.ledsEnabled || config.resetLEDEnableStateAfterReset) := by
    cases config.resetLEDEnableStateAfterReset <;> simp
  -- what is not read is as it was stored, zero
  have hfm {α : Type} (a zero : α) : (if config.enableFm then if config.enableFm then a else zero else zero) =
      if config.enableFm then a else zero := by
    split <;> rfl
  rw [restart_eq, Settings.kept, configManagerReadSessionData, configManagerWriteSessionData]
  dsimp only
  rw [enableMultipoint_restarted, AudioSource.ofBits_toBits, setEqBank0_add h, audioEnhancements, Lib.packed_and_not, hled,
    show restarted.fmRxTunedFreq = 0 from rfl, show restarted.fmVolume = noVolume from rfl, hfm, hfm,
    if_pos (show restarted.gapDefaultRole = bleGapRoleUnknown from rfl)]

/-- A configuration with all features. -/
def allFeatures : Config := ⟨true, true, true, fun _ => true, fun _ => true⟩

/-- The sink with a bank of the user EQ. -/
def firstBank : Sink := { restarted with musicModeProcessing := setEqBank0 }

end Cbps.SinkApp.Session
