import Cbps.A2dp.Matching

/-!
# What answers no command

The history of a device is judged by the commands that have been taken up and the packets that answer them. A
function is `Quiet` if it adds nothing of both, and does not raise the flag of a command that waits for its answer.
All functions that react to responses, to requests of the application and to timers are quiet, as are those that
establish a stream.
-/

namespace Cbps.A2dp

open List

/-- The label of the command that a packet answers. -/
def Obs.answers : Obs → Option Label
  | .packet label .command id _ => if id = Signal.null.id then some label else none
  | .packet label .generalReject _ _ | .packet label .accept _ _ | .packet label .reject _ _ => some label
  | _ => none

/-- The entry neither answers a command, nor is a command that is taken up or dropped. -/
def Obs.isNeutral : Obs → Bool
  | .command _ _ | .dropped _ => false
  | o => o.answers = none

variable {signal : Signal} {payload : List Octet}

theorem isNeutral_command {label : Label} (h : signal ≠ .null) :
    (Obs.packet label .command signal.id payload).isNeutral = true := by
  have hid : signal.id ≠ Signal.null.id := by
    cases signal <;> first | exact absurd rfl h | decide
  rw [Obs.isNeutral, Obs.answers, if_neg hid]
  · rfl
  · rintro _ _ ⟨⟩
  · rintro _ ⟨⟩

namespace Device

variable {d t u : Device}

/-- Nothing is taken up and nothing is answered. A command that still waits is the one that did before. -/
structure Quiet (d t : Device) : Prop where
  log : ∃ obs, t.log = d.log ++ obs ∧ ∀ o ∈ obs, o.isNeutral = true
  flag : t.pendingReceived = true → d.pendingReceived = true ∧ t.receivedLabel = d.receivedLabel
  link : t.sinkIsValid = true → d.sinkIsValid = true

theorem Quiet.trans (h : Quiet d t) (h' : Quiet t u) : Quiet d u := by
  obtain ⟨obs, hlog, hobs⟩ := h.log
  obtain ⟨obs', hlog', hobs'⟩ := h'.log
  refine ⟨⟨obs ++ obs', by rw [hlog', hlog, append_assoc], ?_⟩, fun hu => ?_, fun hu => h.link (h'.link hu)⟩
  · intro o ho
    exact (mem_append.mp ho).elim (hobs o) (hobs' o)
  · obtain ⟨ht, hlabel⟩ := h'.flag hu
    exact ⟨(h.flag ht).1, hlabel.trans (h.flag ht).2⟩

/-- The history, the flag and the channel are the same. -/
theorem Quiet.of_eq (hlog : t.log = d.log) (hflag : t.pendingReceived = d.pendingReceived)
    (hlabel : t.receivedLabel = d.receivedLabel) (hlink : t.connectionState = d.connectionState) : Quiet d t where
  log := ⟨[], by rw [hlog, append_nil], fun _ ho => absurd ho not_mem_nil⟩
  flag ht := ⟨hflag ▸ ht, hlabel⟩
  link ht := by rwa [sinkIsValid, ← hlink]

/-- The same, before a function that is quiet. -/
theorem Quiet.after (h : Quiet u t) (hlog : u.log = d.log) (hflag : u.pendingReceived = d.pendingReceived)
    (hlabel : u.receivedLabel = d.receivedLabel) (hlink : u.connectionState = d.connectionState) : Quiet d t :=
  (Quiet.of_eq hlog hflag hlabel hlink).trans h

theorem Quiet.refl (d : Device) : Quiet d d := .of_eq rfl rfl rfl rfl

theorem quiet_note {o : Obs} (h : o.isNeutral = true) : Quiet d (d.note o) where
  log := ⟨[o], rfl, fun _ ho => mem_singleton.mp ho ▸ h⟩
  flag ht := ⟨ht, rfl⟩
  link ht := ht

theorem quiet_told (t : Told) : Quiet d (d.told t) := quiet_note rfl

theorem quiet_mediaOpenCfm (status : Status) : Quiet d (d.mediaOpenCfm status) := quiet_told _

theorem quiet_setStreamState (s : StreamState) : Quiet d (d.a2dpSetStreamState s) := .of_eq rfl rfl rfl rfl

/-- The flag is cleared with the stream. -/
theorem quiet_reset : Quiet d d.a2dpStreamReset where
  log := ⟨[], (append_nil _).symm, fun _ ho => absurd ho not_mem_nil⟩
  flag ht := absurd ht Bool.false_ne_true
  link ht := ht

/-! ### Packets and media channels -/

theorem quiet_sendCommand {sent : Bool} (hsignal : signal ≠ .null)
    (h : d.a2dpSendCommand signal payload = (t, sent)) : Quiet d t := by
  obtain ⟨-, rfl⟩ | ⟨-, room, rfl⟩ | ⟨-, -, room, rfl⟩ := sendCommand_cases h
  · exact Quiet.refl t
  · exact Quiet.of_eq rfl rfl rfl rfl
  · exact ⟨⟨[_], rfl, fun _ ho => mem_singleton.mp ho ▸ isNeutral_command hsignal⟩, fun ht => ⟨ht, rfl⟩, fun ht => ht⟩

theorem quiet_disconnectAllMedia : Quiet d d.a2dpDisconnectAllMedia.1 := by
  rw [a2dpDisconnectAllMedia]
  split
  · exact Quiet.of_eq rfl rfl rfl rfl
  · exact Quiet.of_eq rfl rfl rfl rfl
  · exact ⟨⟨[_], rfl, fun _ ho => mem_singleton.mp ho ▸ rfl⟩, fun ht => ⟨ht, rfl⟩, fun ht => ht⟩
  · exact Quiet.refl d
  · exact Quiet.refl d
  · exact Quiet.refl d
  · exact Quiet.refl d

theorem quiet_signallingDisconnectPending : Quiet d d.a2dpSignallingDisconnectPending.1 := by
  rw [a2dpSignallingDisconnectPending]
  split_ifs with hlink
  · refine ⟨⟨[_], rfl, fun _ ho => mem_singleton.mp ho ▸ rfl⟩, fun ht => ⟨ht, rfl⟩, fun _ => ?_⟩
    rw [sinkIsValid, hlink]
    rfl
  · exact Quiet.refl d

theorem quiet_mediaConnectReq : Quiet d d.a2dpMediaConnectReq := by
  rw [a2dpMediaConnectReq]
  split_ifs
  · exact ⟨⟨[_], rfl, fun _ ho => mem_singleton.mp ho ▸ rfl⟩, fun ht => ⟨ht, rfl⟩, fun ht => ht⟩
  · exact quiet_mediaOpenCfm _
  · exact quiet_mediaOpenCfm _

theorem quiet_mediaDisconnectReq : Quiet d d.a2dpMediaDisconnectReq := by
  rw [a2dpMediaDisconnectReq]
  split_ifs
  · exact ⟨⟨[_], rfl, fun _ ho => mem_singleton.mp ho ▸ rfl⟩, fun ht => ⟨ht, rfl⟩, fun ht => ht⟩
  · exact Quiet.refl d

theorem quiet_abort : Quiet d d.a2dpStreamAbort := by
  rw [a2dpStreamAbort]
  split_ifs
  · exact Quiet.refl d
  · split
    · next e heq => exact (quiet_sendCommand (by decide) heq).trans (quiet_setStreamState _)
    · next e heq => exact ((quiet_sendCommand (by decide) heq).trans quiet_disconnectAllMedia).trans quiet_reset
  · exact Quiet.refl d

/-! ### The establishment of a stream -/

theorem quiet_failOpen (status : Status) : Quiet d (d.failOpen status) := quiet_abort.trans (quiet_mediaOpenCfm _)

theorem quiet_issue (payload : List Octet) (s : StreamState) (hsignal : signal ≠ .null) :
    Quiet d (d.issue signal payload s) := by
  rw [issue]
  split
  · next e heq => exact (quiet_sendCommand hsignal heq).trans (quiet_setStreamState _)
  · next e heq => exact (quiet_sendCommand hsignal heq).trans (quiet_failOpen _)

theorem quiet_issueGetCapabilities : Quiet d d.issueGetCapabilities := by
  refine quiet_issue _ _ ?_
  split_ifs <;> decide

theorem quiet_issueOpen : Quiet d d.issueOpen := quiet_issue _ _ (by decide)

theorem quiet_issueClientSetConfiguration : Quiet d d.issueClientSetConfiguration := quiet_issue _ _ (by decide)

theorem quiet_selectConfigurationParameters : Quiet d d.a2dpSelectConfigurationParameters.1 := by
  rw [a2dpSelectConfigurationParameters]
  split
  · exact Quiet.refl d
  · dsimp only
    split
    · exact Quiet.of_eq rfl rfl rfl rfl
    · split_ifs
      · split <;> exact Quiet.of_eq rfl rfl rfl rfl
      · exact Quiet.of_eq rfl rfl rfl rfl

theorem quiet_issueSetConfiguration : Quiet d d.issueSetConfiguration.1 := by
  have hselect := quiet_selectConfigurationParameters (d := d)
  rw [issueSetConfiguration]
  split
  · next e heq =>
    rw [heq] at hselect
    exact (hselect.trans (quiet_told _)).trans (quiet_setStreamState _)
  · next e heq =>
    rw [heq] at hselect
    exact hselect.trans quiet_issueClientSetConfiguration
  · next e heq =>
    rw [heq] at hselect
    exact hselect

theorem quiet_requestDelayReport : Quiet d d.requestDelayReport :=
  (quiet_told _).trans (.of_eq rfl rfl rfl rfl)

theorem quiet_connectTurn : Quiet d d.connectTurn.1 := by
  rw [connectTurn]
  split
  · exact quiet_issueGetCapabilities
  · dsimp only
    split_ifs
    · exact quiet_issueSetConfiguration
    · exact quiet_issueSetConfiguration.trans (quiet_setStreamState _)
    · exact Quiet.refl d
    · exact quiet_setStreamState _
  · split_ifs
    · exact quiet_requestDelayReport
    · exact Quiet.of_eq rfl rfl rfl rfl
    · exact quiet_issueOpen
  · exact quiet_issueOpen
  · split_ifs
    · exact quiet_issueGetCapabilities
    · exact quiet_issueGetCapabilities
    · exact quiet_issueSetConfiguration
    · exact Quiet.refl d
  · exact quiet_abort

theorem quiet_selectNextSeid : Quiet d d.selectNextSeid.1 := by
  rw [selectNextSeid]
  split
  · exact Quiet.of_eq rfl rfl rfl rfl
  · split
    · exact Quiet.of_eq rfl rfl rfl rfl
    · exact quiet_reset.trans (quiet_mediaOpenCfm _)

theorem quiet_connectWithin (n : ℕ) (d : Device) : Quiet d (connectWithin n d) := by
  induction n generalizing d with
  | zero => exact Quiet.refl d
  | succ n ih =>
    have hturn := quiet_connectTurn (d := d)
    rw [connectWithin]
    split
    · next e heq =>
      rw [heq] at hturn
      exact hturn
    · next e heq =>
      rw [heq] at hturn
      have hnext := quiet_selectNextSeid (d := e)
      split
      · next e' heq' =>
        rw [heq'] at hnext
        exact (hturn.trans hnext).trans (ih e')
      · next e' heq' =>
        rw [heq'] at hnext
        exact hturn.trans hnext

theorem quiet_continueStreamConnect : Quiet d d.continueStreamConnect := quiet_connectWithin _ d

theorem quiet_tryNextSeid : Quiet d d.tryNextSeid := by
  have hnext := (quiet_setStreamState (d := d) .idle).trans quiet_selectNextSeid
  rw [tryNextSeid]
  split
  · next e heq =>
    rw [heq] at hnext
    exact hnext.trans quiet_continueStreamConnect
  · next e heq =>
    rw [heq] at hnext
    exact hnext

/-! ### Responses -/

section Responses

variable {p : Packet}

theorem quiet_discoverResponse : Quiet d (d.a2dpHandleDiscoverResponse p) := by
  rw [a2dpHandleDiscoverResponse]
  split_ifs
  · exact Quiet.refl d
  · exact quiet_reset.trans (quiet_mediaOpenCfm _)
  · split
    · exact (quiet_reset.trans (quiet_mediaOpenCfm _)).after rfl rfl rfl rfl
    · exact quiet_continueStreamConnect.after rfl rfl rfl rfl

theorem quiet_storeCodecType (caps : List Octet) : Quiet d (d.storeCodecType caps) := by
  rw [storeCodecType]
  split <;> exact Quiet.of_eq rfl rfl rfl rfl

theorem quiet_processGetCapabilitiesResponse : Quiet d (d.a2dpProcessGetCapabilitiesResponse p).1 := by
  have hstored : Quiet d ((d.note (.capabilities d.remoteSep.seid (p.from 2))).storeCodecType (p.from 2)) :=
    (quiet_note rfl).trans (quiet_storeCodecType _)
  rw [a2dpProcessGetCapabilitiesResponse]
  split
  · exact Quiet.refl d
  · dsimp only
    split
    · exact hstored
    · split_ifs
      · exact hstored.trans (.of_eq rfl rfl rfl rfl)
      · exact hstored

theorem quiet_getCapabilitiesResponse : Quiet d (d.a2dpHandleGetCapabilitiesResponse p) := by
  have hprocess := quiet_processGetCapabilitiesResponse (d := d) (p := p)
  rw [a2dpHandleGetCapabilitiesResponse]
  split_ifs
  · exact Quiet.refl d
  · split
    · next e heq =>
      rw [heq] at hprocess
      exact hprocess.trans quiet_continueStreamConnect
    · next e heq =>
      rw [heq] at hprocess
      exact hprocess.trans quiet_tryNextSeid
  · exact quiet_tryNextSeid

theorem quiet_codecConfigureResponse (accept : Bool) (seid : Octet) (caps : List Octet) :
    Quiet d (d.a2dpHandleCodecConfigureResponse accept seid caps) := by
  rw [a2dpHandleCodecConfigureResponse]
  split
  · exact Quiet.refl d
  · split
    · split_ifs
      · exact quiet_issueClientSetConfiguration.after rfl rfl rfl rfl
      · exact quiet_tryNextSeid
    · exact quiet_tryNextSeid

theorem quiet_setConfigurationResponse : Quiet d (d.a2dpHandleSetConfigurationResponse p) := by
  rw [a2dpHandleSetConfigurationResponse]
  split_ifs
  · exact Quiet.refl d
  · exact quiet_continueStreamConnect.after rfl rfl rfl rfl
  · exact quiet_tryNextSeid

theorem quiet_reconfigureResponse : Quiet d (d.a2dpHandleReconfigureResponse p) := by
  rw [a2dpHandleReconfigureResponse]
  split_ifs
  · exact Quiet.refl d
  · exact (quiet_told _).after rfl rfl rfl rfl
  · exact (quiet_setStreamState _).trans (quiet_told _)

theorem quiet_openResponse : Quiet d (d.a2dpHandleOpenResponse p) := by
  rw [a2dpHandleOpenResponse]
  split_ifs
  · exact Quiet.refl d
  · exact quiet_mediaConnectReq
  · exact quiet_failOpen _

theorem quiet_startResponse : Quiet d (d.a2dpHandleStartResponse p) := by
  rw [a2dpHandleStartResponse]
  split_ifs
  · exact (quiet_setStreamState _).trans (quiet_told _)
  · exact (quiet_setStreamState _).trans (quiet_told _)
  · exact quiet_told _

theorem quiet_suspendResponse : Quiet d (d.a2dpHandleSuspendResponse p) := by
  rw [a2dpHandleSuspendResponse]
  split_ifs
  · exact (quiet_setStreamState _).trans (quiet_told _)
  · exact (quiet_setStreamState _).trans (quiet_told _)
  · exact quiet_told _

theorem quiet_closeResponse : Quiet d (d.a2dpHandleCloseResponse p) := by
  rw [a2dpHandleCloseResponse]
  split_ifs
  · exact quiet_mediaDisconnectReq.after rfl rfl rfl rfl
  · exact quiet_abort
  · exact quiet_told _

theorem quiet_disconnectAfterReset : Quiet d d.disconnectAfterReset := by
  have hdisconnect := quiet_reset.trans (quiet_disconnectAllMedia (d := d.a2dpStreamReset))
  rw [disconnectAfterReset]
  split
  · next e heq =>
    rw [heq] at hdisconnect
    exact hdisconnect
  · next e heq =>
    rw [heq] at hdisconnect
    exact hdisconnect.trans quiet_signallingDisconnectPending

theorem quiet_sendDelayReport (delay : BitVec 16) : Quiet d (d.sendDelayReport delay).1 :=
  (quiet_sendCommand (by decide) (Prod.eta _).symm).after rfl rfl rfl rfl

theorem quiet_streamDelayReport (delay : BitVec 16) : Quiet d (d.a2dpStreamDelayReport delay) := by
  have hsend := quiet_sendDelayReport (d := d) delay
  rw [a2dpStreamDelayReport]
  split_ifs
  · split
    · next e heq =>
      rw [heq] at hsend
      exact hsend
    · next e heq =>
      rw [heq] at hsend
      exact hsend.trans (.of_eq rfl rfl rfl rfl)
  · exact Quiet.refl d
  · exact Quiet.refl d

theorem quiet_delayReportResponse : Quiet d (d.a2dpHandleDelayReportResponse p) := by
  rw [a2dpHandleDelayReportResponse]
  split
  · exact Quiet.refl d
  · split
    · split_ifs
      · dsimp only
        split_ifs
        · exact (quiet_told _).trans quiet_continueStreamConnect
        · exact quiet_told _
      · exact (quiet_told _).trans (quiet_failOpen _)
    · split_ifs
      · exact (quiet_streamDelayReport _).after rfl rfl rfl rfl
      · exact Quiet.refl d

theorem quiet_receiveResponse : Quiet d (d.handleReceiveResponse p) := by
  have hpending : Quiet d { d with pendingIssued := false } := .of_eq rfl rfl rfl rfl
  rw [handleReceiveResponse]
  split
  · exact Quiet.refl d
  · dsimp only
    split
    · exact hpending
    · split
      · exact hpending.trans quiet_discoverResponse
      · exact hpending.trans quiet_getCapabilitiesResponse
      · exact hpending.trans quiet_getCapabilitiesResponse
      · exact hpending.trans quiet_setConfigurationResponse
      · exact hpending.trans quiet_reconfigureResponse
      · exact hpending.trans quiet_openResponse
      · exact hpending.trans quiet_startResponse
      · exact hpending.trans quiet_closeResponse
      · exact hpending.trans quiet_suspendResponse
      · exact hpending.trans quiet_disconnectAfterReset
      · exact hpending.trans quiet_delayReportResponse
      all_goals exact hpending

theorem quiet_generalRejectResponse : Quiet d (d.processGeneralRejectResponse p) := by
  rw [processGeneralRejectResponse]
  split_ifs
  · exact Quiet.refl d
  · exact (quiet_told _).trans (quiet_setStreamState _)
  · exact quiet_abort

end Responses

/-! ### Requests, timers and channels -/

theorem quiet_establish (seids : List Octet) : Quiet d (d.a2dpStreamEstablish seids) := by
  rw [a2dpStreamEstablish]
  split_ifs
  · exact quiet_mediaOpenCfm _
  · exact quiet_mediaOpenCfm _
  · have hbuilt : Quiet d (d.buildPreferredList seids).1 := .of_eq rfl rfl rfl rfl
    rw [issueDiscover]
    split
    · next e heq =>
      rw [heq] at hbuilt
      exact hbuilt.trans (quiet_issue _ _ (by decide))
    · next e heq =>
      rw [heq] at hbuilt
      exact hbuilt.trans (quiet_failOpen _)

theorem quiet_request {states : List StreamState} {told : Status → Told}
    {sent : Device → Device} (hsignal : signal ≠ .null) (hsent : ∀ e : Device, Quiet e (sent e)) :
    Quiet d (d.requestStream states told signal payload sent) := by
  rw [requestStream]
  split_ifs
  · exact quiet_told _
  · exact quiet_told _
  · split
    · next e heq => exact (quiet_sendCommand hsignal heq).trans (hsent e)
    · next e heq => exact ((quiet_sendCommand hsignal heq).trans quiet_abort).trans (quiet_told _)
  · exact quiet_told _

theorem quiet_streamClose : Quiet d d.a2dpStreamClose.1 := by
  rw [a2dpStreamClose]
  split_ifs
  · exact Quiet.refl d
  · split
    · next e heq => exact (quiet_sendCommand (by decide) heq).trans (quiet_setStreamState _)
    · next e heq => exact (quiet_sendCommand (by decide) heq).trans quiet_abort

theorem quiet_signallingDisconnectReq : Quiet d d.a2dpHandleSignallingDisconnectReq := by
  have hclose := quiet_streamClose (d := d)
  have hlinked : ∀ {e : Device} (s : ConnectionState), Quiet d e → d.connectionState = .connected →
      Quiet d { e with connectionState := s } := by
    intro e s he hlink
    exact ⟨he.log, he.flag, fun _ => by rw [sinkIsValid, hlink]; rfl⟩
  rw [a2dpHandleSignallingDisconnectReq]
  split
  · exact Quiet.refl d
  · next hlink =>
    have hlink := not_not.mp hlink
    split
    · next e heq =>
      rw [heq] at hclose
      exact hlinked _ hclose hlink
    · next e heq =>
      rw [heq] at hclose
      split
      · exact hlinked _ (hclose.trans quiet_abort) hlink
      · exact (hlinked _ hclose hlink).trans (quiet_note rfl)

theorem quiet_setSepAvailable (seid : Octet) (available : Bool) : Quiet d (d.a2dpSetSepAvailable seid available) := by
  rw [a2dpSetSepAvailable]
  split <;> exact Quiet.of_eq rfl rfl rfl rfl

theorem quiet_watchdogTimeout : Quiet d d.a2dpHandleInternalWatchdogTimeout := by
  rw [a2dpHandleInternalWatchdogTimeout]
  split_ifs
  · exact quiet_disconnectAfterReset
  · exact quiet_abort

theorem quiet_zeroSignalling {s : ConnectionState} (hs : s.isConnected = false) : Quiet d (d.zeroSignalling s) where
  log := ⟨[], (append_nil _).symm, fun _ ho => absurd ho not_mem_nil⟩
  flag ht := absurd ht Bool.false_ne_true
  link ht := absurd (ht.symm.trans hs) (by decide)

theorem quiet_removeDevice : Quiet d d.removeDevice where
  log := ⟨[], (append_nil _).symm, fun _ ho => absurd ho not_mem_nil⟩
  flag ht := absurd ht Bool.false_ne_true
  link ht := absurd ht Bool.false_ne_true

theorem quiet_mediaConnectCfm (success : Bool) : Quiet d (d.mediaConnectCfm success) := by
  have hfailed : Quiet d { d.mediaOpenCfm .operationFail with mediaState := .idle } :=
    (quiet_mediaOpenCfm _).trans (.of_eq rfl rfl rfl rfl)
  rw [mediaConnectCfm]
  split_ifs
  · exact Quiet.refl d
  · dsimp only
    split_ifs
    · exact ((quiet_setStreamState _).trans (quiet_mediaOpenCfm _)).after rfl rfl rfl rfl
    · exact (quiet_mediaOpenCfm _).after rfl rfl rfl rfl
  · exact hfailed.trans quiet_abort
  · exact (quiet_note rfl).after rfl rfl rfl rfl
  · exact hfailed.trans quiet_signallingDisconnectPending
  · exact Quiet.refl d

theorem quiet_mediaConnectInd : Quiet d d.mediaConnectInd := by
  rw [mediaConnectInd]
  split_ifs
  · exact Quiet.refl d
  · exact (quiet_note rfl).after rfl rfl rfl rfl
  · exact quiet_note rfl

theorem quiet_mediaDisconnected (status : Status) (linkloss : Bool) : Quiet d (d.mediaDisconnected status linkloss) := by
  have hclosed : Quiet d { d.told (.mediaCloseInd status) with mediaState := .idle } :=
    (quiet_told _).trans (.of_eq rfl rfl rfl rfl)
  have hreset := (hclosed.trans quiet_reset).trans quiet_signallingDisconnectPending
  rw [mediaDisconnected]
  split
  · exact Quiet.refl d
  · split
    · next e heq =>
      rw [heq] at hreset
      exact hreset
    · next e heq =>
      rw [heq] at hreset
      split_ifs
      · exact (hreset.trans (quiet_told _)).trans quiet_removeDevice
      · exact hreset.trans (quiet_told _)
      · exact hreset

end Device

end Cbps.A2dp
