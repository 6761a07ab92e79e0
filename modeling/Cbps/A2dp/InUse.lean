import Cbps.A2dp.Commands
import Cbps.Lib.Runs

/-!
# End points in use

`inUse_of_run`: at most one local end point of a device is marked in use, it is the current one, and it is
marked only while there is a configuration. This is so as long as no configuration is accepted while an end
point is in use, and the signalling channel is not set up anew while one is.
-/

namespace Cbps.A2dp

open Option

/-- The states in which this side establishes a stream. -/
def StreamState.isEstablishing (s : StreamState) : Bool :=
  s ∈ [StreamState.discovering, .readingCaps, .processingCaps, .configuring]

namespace Device

variable {d t : Device}

/-- The end point is marked in use. -/
def Marked (d : Device) (i : ℕ) : Prop := ∃ s, d.seps[i]? = some s ∧ s.inUse = true

/-- No end point is marked. -/
def Free (d : Device) : Prop := ∀ s ∈ d.seps, s.inUse = false

instance (d : Device) : Decidable d.Free := inferInstanceAs (Decidable (∀ s ∈ d.seps, s.inUse = false))

/-- At most one end point is in use. It is the current one, and the stream is configured at least. -/
structure InUseSound (d : Device) : Prop where
  one : ∀ i j, d.Marked i → d.Marked j → i = j
  current : ∀ i, d.Marked i → i = d.current
  configured : ∀ i, d.Marked i → d.streamState ∉ [.idle, .discovering, .readingCaps, .processingCaps]

/-! ### Marks -/

theorem Free.not_marked (h : d.Free) (i : ℕ) : ¬d.Marked i := by
  rintro ⟨s, hs, hmark⟩
  rw [h s (List.mem_of_getElem? hs)] at hmark
  exact Bool.false_ne_true hmark

theorem marked_congr (h : t.seps = d.seps) (i : ℕ) : t.Marked i ↔ d.Marked i := by
  rw [Marked, Marked, h]

theorem marked_clearInUse {i j : ℕ} (h : (d.clearInUse i).Marked j) : d.Marked j ∧ j ≠ i := by
  obtain ⟨s, hs, hmark⟩ := h
  rw [clearInUse, List.getElem?_modify] at hs
  obtain ⟨s', hs', rfl⟩ := map_eq_some_iff.mp hs
  split_ifs at hmark with hi
  exact ⟨⟨s', hs', hmark⟩, fun h => hi h.symm⟩

theorem marked_setInUse {i j : ℕ} (h : (d.setInUse i).Marked j) : j = i ∨ d.Marked j := by
  obtain ⟨s, hs, hmark⟩ := h
  rw [setInUse, List.getElem?_modify] at hs
  obtain ⟨s', hs', rfl⟩ := map_eq_some_iff.mp hs
  split_ifs at hmark with hi
  · exact Or.inl hi.symm
  · exact Or.inr ⟨s', hs', hmark⟩

theorem map_seid_modify (seps : List Sep) (i : ℕ) {f : Sep → Sep} (hf : ∀ s, (f s).seid = s.seid) :
    (seps.modify i f).map Sep.seid = seps.map Sep.seid := by
  refine List.ext_getElem? fun j => ?_
  rw [List.getElem?_map, List.getElem?_map, List.getElem?_modify]
  cases seps[j]? with
  | none => rfl
  | some s =>
    by_cases hi : i = j
    · simp [hi, hf]
    · simp [hi]

theorem getSepIndexBySeid_eq (d : Device) (seid : Octet) :
    d.getSepIndexBySeid seid = (d.seps.map Sep.seid).findIdx? fun x => x = seid := by
  rw [getSepIndexBySeid, List.findIdx?_map]
  rfl

variable {seid : Octet}

theorem getSepIndexBySeid_spec {i : ℕ} (h : d.getSepIndexBySeid seid = some i) :
    ∃ s, d.seps[i]? = some s ∧ s.seid = seid := by
  rw [getSepIndexBySeid, List.findIdx?_eq_some_iff_getElem] at h
  obtain ⟨hi, hseid, -⟩ := h
  exact ⟨d.seps[i], List.getElem?_eq_getElem hi, by simpa using hseid⟩

/-! ### The invariant -/

/-- The current end point is found by its seid. -/
def Listed (d : Device) : Prop :=
  ∀ seid, (d.seps.map Sep.seid)[d.current]? = some seid → d.getSepIndexBySeid seid = some d.current

/-- Only the current end point may be marked. -/
structure Held (d : Device) : Prop where
  listed : d.Listed
  held : ∀ i, d.Marked i → i = d.current

/-- No end point is marked, and the channel is not being disconnected by this side. -/
structure Clear (d : Device) : Prop where
  listed : d.Listed
  unmarked : ∀ i, ¬d.Marked i
  linked : d.connectionState ≠ .disconnecting ∧ d.connectionState ≠ .disconnectPending

structure Inv (d : Device) : Prop extends Held d where
  free : d.streamState = .idle → ∀ i, ¬d.Marked i
  clear : d.streamState.isEstablishing = true → d.Clear

theorem Inv.inUseSound (h : d.Inv) : d.InUseSound where
  one i j hi hj := (h.held i hi).trans (h.held j hj).symm
  current := h.held
  configured i hi hs := by
    obtain hs | hs | hs | hs : d.streamState = .idle ∨ d.streamState = .discovering ∨
        d.streamState = .readingCaps ∨ d.streamState = .processingCaps := by simpa using hs
    · exact h.free hs i hi
    · exact (h.clear (by rw [hs]; rfl)).unmarked i hi
    · exact (h.clear (by rw [hs]; rfl)).unmarked i hi
    · exact (h.clear (by rw [hs]; rfl)).unmarked i hi

theorem Listed.of_seids (h : d.Listed) (hseids : t.seps.map Sep.seid = d.seps.map Sep.seid)
    (hcurrent : t.current = d.current) : t.Listed := by
  intro seid hseid
  rw [hseids, hcurrent] at hseid
  rw [hcurrent, ← h seid hseid, getSepIndexBySeid_eq, getSepIndexBySeid_eq, hseids]

theorem Listed.of_eq (h : d.Listed) (hseps : t.seps = d.seps) (hcurrent : t.current = d.current) : t.Listed :=
  h.of_seids (congrArg _ hseps) hcurrent

/-- An end point that has been found by its seid becomes the current one. -/
theorem setCurrent_listed {i : ℕ} (h : d.getSepIndexBySeid seid = some i) :
    (d.setCurrent i).Listed ∧ (d.setCurrent i).current = i := by
  obtain ⟨s, hs, rfl⟩ := getSepIndexBySeid_spec h
  have hi : (d.setCurrent i).current = i := if_pos (List.getElem?_eq_some_iff.mp hs).1
  refine ⟨fun seid hseid => ?_, hi⟩
  rw [hi, setCurrent, List.getElem?_map, hs] at hseid
  obtain rfl := some.inj hseid
  exact hi.symm ▸ h

theorem setCurrent_zero_listed (d : Device) : (d.setCurrent 0).Listed := by
  intro seid hseid
  cases hseps : d.seps with
  | nil => simp [setCurrent, hseps] at hseid
  | cons s seps =>
    have hcurrent : (d.setCurrent 0).current = 0 := by simp [setCurrent, hseps]
    have hfirst : s.seid = seid := by simpa [setCurrent, hseps] using hseid
    rw [hcurrent, getSepIndexBySeid, setCurrent, hseps, List.findIdx?_cons, decide_eq_true hfirst, if_pos rfl]

theorem Held.of_eq (h : d.Held) (hseps : t.seps = d.seps) (hcurrent : t.current = d.current) : t.Held :=
  ⟨h.listed.of_eq hseps hcurrent, fun i hi => hcurrent ▸ h.held i ((marked_congr hseps i).mp hi)⟩

theorem Clear.of_eq (h : d.Clear) (hseps : t.seps = d.seps) (hcurrent : t.current = d.current)
    (hlink : t.connectionState = d.connectionState) : t.Clear :=
  ⟨h.listed.of_eq hseps hcurrent, fun i hi => h.unmarked i ((marked_congr hseps i).mp hi), hlink ▸ h.linked⟩

theorem Clear.inv (h : d.Clear) : d.Inv :=
  ⟨⟨h.listed, fun i hi => absurd hi (h.unmarked i)⟩, fun _ => h.unmarked, fun _ => h⟩

/-- In the other states the mark of the current end point does no harm. -/
theorem Held.inv (h : d.Held) (hs : d.streamState ≠ .idle ∧ d.streamState.isEstablishing = false) : d.Inv :=
  ⟨h, fun hidle => absurd hidle hs.1, fun he => absurd (he.symm.trans hs.2) Bool.noConfusion⟩

/-- The fields that the invariant speaks about are the same. -/
structure Keeps (d t : Device) : Prop where
  seps : t.seps = d.seps
  current : t.current = d.current
  streamState : t.streamState = d.streamState
  connectionState : t.connectionState = d.connectionState

theorem Keeps.trans {u : Device} (h : Keeps d t) (h' : Keeps t u) : Keeps d u :=
  ⟨h'.seps.trans h.seps, h'.current.trans h.current, h'.streamState.trans h.streamState,
    h'.connectionState.trans h.connectionState⟩

theorem Inv.of_keeps (h : d.Inv) (hk : Keeps d t) : t.Inv :=
  ⟨h.toHeld.of_eq hk.seps hk.current,
    fun hs i hi => h.free (hk.streamState ▸ hs) i ((marked_congr hk.seps i).mp hi),
    fun hs => (h.clear (hk.streamState ▸ hs)).of_eq hk.seps hk.current hk.connectionState⟩

theorem Clear.of_keeps (h : d.Clear) (hk : Keeps d t) : t.Clear := h.of_eq hk.seps hk.current hk.connectionState

/-- A state in which the mark does no harm is set. -/
theorem Held.inv_setStreamState (h : d.Held) {s : StreamState} (hs : s ≠ .idle ∧ s.isEstablishing = false) :
    (d.a2dpSetStreamState s).Inv :=
  Held.inv (h.of_eq rfl rfl) hs

theorem Inv.told (h : d.Inv) (t : Told) : (d.told t).Inv := h.of_keeps ⟨rfl, rfl, rfl, rfl⟩

theorem Clear.setStreamState (h : d.Clear) (s : StreamState) : (d.a2dpSetStreamState s).Clear := h.of_eq rfl rfl rfl

/-! ### Packets and media channels -/

section Sends

variable {signal : Signal} {signalId : Octet} {payload : List Octet}

theorem keeps_sendAccept (h : d.a2dpSendAccept signal payload = some t) : Keeps d t := by
  obtain ⟨room, rfl⟩ := sendAccept_eq h
  exact ⟨rfl, rfl, rfl, rfl⟩

theorem keeps_sendReject {e : CapsError} (h : d.a2dpSendReject signalId e = some t) : Keeps d t := by
  obtain ⟨rfl, -⟩ | ⟨room, rfl⟩ := sendReject_cases h <;> exact ⟨rfl, rfl, rfl, rfl⟩

theorem keeps_sendGeneralReject (h : d.a2dpSendGeneralReject signalId = some t) : Keeps d t := by
  obtain ⟨room, type, id, rfl, -⟩ := sendGeneralReject_eq h
  exact ⟨rfl, rfl, rfl, rfl⟩

theorem keeps_sendCommand {sent : Bool} (h : d.a2dpSendCommand signal payload = (t, sent)) : Keeps d t := by
  obtain ⟨-, rfl⟩ | ⟨-, room, rfl⟩ | ⟨-, -, room, rfl⟩ := sendCommand_cases h <;> exact ⟨rfl, rfl, rfl, rfl⟩

theorem keeps_disconnectAllMedia (d : Device) : Keeps d d.a2dpDisconnectAllMedia.1 := by
  rw [a2dpDisconnectAllMedia]
  split <;> exact ⟨rfl, rfl, rfl, rfl⟩

theorem keeps_mediaConnectReq (d : Device) : Keeps d d.a2dpMediaConnectReq := by
  rw [a2dpMediaConnectReq]
  split_ifs <;> exact ⟨rfl, rfl, rfl, rfl⟩

theorem keeps_mediaDisconnectReq (d : Device) : Keeps d d.a2dpMediaDisconnectReq := by
  rw [a2dpMediaDisconnectReq]
  split_ifs <;> exact ⟨rfl, rfl, rfl, rfl⟩

end Sends

/-! ### The end of a stream -/

/-- The mark of the current end point is cleared, and the first one becomes the current one. -/
theorem Held.clearCurrent (h : d.Held) :
    ((d.clearInUse d.current).setCurrent 0).Listed ∧ ∀ i, ¬((d.clearInUse d.current).setCurrent 0).Marked i := by
  refine ⟨setCurrent_zero_listed _, fun i hi => ?_⟩
  obtain ⟨hmarked, hne⟩ := marked_clearInUse ((marked_congr (t := (d.clearInUse d.current).setCurrent 0) rfl i).mp hi)
  exact hne (h.held i hmarked)

theorem Held.reset (h : d.Held) : d.a2dpStreamReset.Inv := by
  obtain ⟨hlisted, hunmarked⟩ := h.clearCurrent
  refine ⟨⟨hlisted.of_eq rfl rfl, fun i hi => absurd ?_ (hunmarked i)⟩, fun _ i hi => hunmarked i ?_, fun he => ?_⟩
  · exact (marked_congr rfl i).mp hi
  · exact (marked_congr rfl i).mp hi
  · cases he

theorem Clear.reset (h : d.Clear) : d.a2dpStreamReset.Clear := by
  obtain ⟨hlisted, hunmarked⟩ := h.inv.clearCurrent
  exact ⟨hlisted.of_eq rfl rfl, fun i hi => hunmarked i ((marked_congr rfl i).mp hi), h.linked⟩

/-- What an abort does on a channel that is connected. -/
theorem Held.abort (h : d.Held) (hlink : d.connectionState = .connected)
    (hs : d.streamState ≠ .localAborting ∧ d.streamState ≠ .remoteAborting) : d.a2dpStreamAbort.Inv := by
  rw [a2dpStreamAbort, if_neg (not_or.mpr hs), if_pos hlink]
  split
  · next e heq =>
    have hk := keeps_sendCommand heq
    exact (h.of_eq hk.seps hk.current).inv_setStreamState (by decide)
  · next e heq =>
    have hk := (keeps_sendCommand heq).trans (keeps_disconnectAllMedia e)
    exact (h.of_eq hk.seps hk.current).reset

theorem Inv.abort (h : d.Inv) : d.a2dpStreamAbort.Inv := by
  by_cases hs : d.streamState = .localAborting ∨ d.streamState = .remoteAborting
  · rw [a2dpStreamAbort, if_pos hs]
    exact h
  · by_cases hlink : d.connectionState = .connected
    · exact h.toHeld.abort hlink (not_or.mp hs)
    · rw [a2dpStreamAbort, if_neg hs, if_neg hlink]
      exact h

theorem Clear.abort (h : d.Clear) : d.a2dpStreamAbort.Clear := by
  rw [a2dpStreamAbort]
  split_ifs
  · exact h
  · split
    · next e heq => exact (h.of_keeps (keeps_sendCommand heq)).setStreamState _
    · next e heq => exact (h.of_keeps ((keeps_sendCommand heq).trans (keeps_disconnectAllMedia e))).reset
  · exact h

theorem Inv.failOpen (h : d.Inv) (status : Status) : (d.failOpen status).Inv := h.abort.of_keeps ⟨rfl, rfl, rfl, rfl⟩

theorem Clear.failOpen (h : d.Clear) (status : Status) : (d.failOpen status).Clear :=
  h.abort.of_keeps ⟨rfl, rfl, rfl, rfl⟩

/-! ### The search -/

theorem Clear.issue (h : d.Clear) (signal : Signal) (payload : List Octet) (s : StreamState) :
    (d.issue signal payload s).Clear := by
  rw [Device.issue]
  split
  · next e heq => exact (h.of_keeps (keeps_sendCommand heq)).setStreamState s
  · next e heq => exact (h.of_keeps (keeps_sendCommand heq)).failOpen _

theorem Clear.setCurrent {i : ℕ} (h : d.Clear) (hi : d.getSepIndexBySeid seid = some i) :
    (d.setCurrent i).Clear :=
  ⟨(setCurrent_listed hi).1, h.unmarked, h.linked⟩

theorem Clear.selectConfigurationParameters (h : d.Clear) : d.a2dpSelectConfigurationParameters.1.Clear := by
  rw [a2dpSelectConfigurationParameters]
  split
  · exact h
  · next i hi =>
    have hclear := h.setCurrent hi
    dsimp only
    split
    · exact hclear
    · split_ifs
      · split
        · exact hclear
        · exact hclear.of_eq rfl rfl rfl
      · exact hclear

theorem Clear.issueSetConfiguration (h : d.Clear) : d.issueSetConfiguration.1.Clear := by
  have hselect := h.selectConfigurationParameters
  rw [Device.issueSetConfiguration]
  split
  · next e heq =>
    rw [heq] at hselect
    exact (hselect.of_keeps ⟨rfl, rfl, rfl, rfl⟩ : (e.told _).Clear).setStreamState _
  · next e heq =>
    rw [heq] at hselect
    exact hselect.issue _ _ _
  · next e heq =>
    rw [heq] at hselect
    exact hselect

theorem Clear.connectTurn (h : d.Clear) : d.connectTurn.1.Clear := by
  rw [Device.connectTurn]
  split
  · exact h.issue _ _ _
  · have htried : (if doesCodecMatch d.localSep d.remoteSep then d.issueSetConfiguration else (d, false)).1.Clear := by
      split_ifs
      · exact h.issueSetConfiguration
      · exact h
    generalize (if doesCodecMatch d.localSep d.remoteSep then d.issueSetConfiguration else (d, false)) = tried
      at htried
    dsimp only
    split_ifs
    · exact htried
    · exact htried.setStreamState _
  · split_ifs
    · exact h.of_eq rfl rfl rfl
    · exact h.of_eq rfl rfl rfl
    · exact h.issue _ _ _
  · exact h.issue _ _ _
  · split_ifs
    · exact h.issue _ _ _
    · exact h.issue _ _ _
    · exact h.issueSetConfiguration
    · exact h
  · exact h.abort

theorem Clear.selectNextSeid (h : d.Clear) : d.selectNextSeid.1.Clear := by
  rw [Device.selectNextSeid]
  split
  · exact h.of_eq rfl rfl rfl
  · split
    · exact h.of_eq rfl rfl rfl
    · exact h.reset.of_keeps ⟨rfl, rfl, rfl, rfl⟩

theorem Clear.connectWithin (n : ℕ) (h : d.Clear) : (connectWithin n d).Clear := by
  induction n generalizing d with
  | zero => exact h
  | succ n ih =>
    have hturn := h.connectTurn
    rw [Device.connectWithin]
    split
    · next e heq =>
      rw [heq] at hturn
      exact hturn
    · next e heq =>
      rw [heq] at hturn
      have hnext := hturn.selectNextSeid
      split
      · next e' heq' =>
        rw [heq'] at hnext
        exact ih hnext
      · next e' heq' =>
        rw [heq'] at hnext
        exact hnext

theorem Clear.continueStreamConnect (h : d.Clear) : d.continueStreamConnect.Clear := h.connectWithin _

theorem Clear.tryNextSeid (h : d.Clear) : d.tryNextSeid.Clear := by
  have hnext := (h.setStreamState .idle).selectNextSeid
  rw [Device.tryNextSeid]
  split
  · next e heq =>
    rw [heq] at hnext
    exact hnext.continueStreamConnect
  · next e heq =>
    rw [heq] at hnext
    exact hnext

/-! ### The opening of the stream -/

/-- In these states `continueStreamConnect` returns after its first turn. -/
theorem continueStreamConnect_configured (hs : d.streamState = .configured) :
    d.continueStreamConnect = d.issueOpen := by
  rw [Device.continueStreamConnect, Device.connectWithin, Device.connectTurn, hs]

theorem continueStreamConnect_configuring (hs : d.streamState = .configuring) :
    d.continueStreamConnect =
      if a2dpIsServiceSupported serviceDelayReporting d.configuredCaps then
        if d.localSep.role = .sink then d.requestDelayReport else d.waitDelayReport
      else d.issueOpen := by
  rw [Device.continueStreamConnect, Device.connectWithin, Device.connectTurn, hs]
  dsimp only
  split_ifs <;> rfl

theorem Held.issueOpen (h : d.Held)
    (hfail : ∀ e, Keeps d e → e.a2dpStreamAbort.Inv) : d.issueOpen.Inv := by
  rw [Device.issueOpen, issue]
  split
  · next e heq =>
    have hk := keeps_sendCommand heq
    exact (h.of_eq hk.seps hk.current).inv_setStreamState (by decide)
  · next e heq => exact (hfail e (keeps_sendCommand heq)).of_keeps ⟨rfl, rfl, rfl, rfl⟩

theorem Inv.issueOpen (h : d.Inv) : d.issueOpen.Inv := h.toHeld.issueOpen fun _ hk => (h.of_keeps hk).abort

/-- The accepted configuration is in use from now on. -/
theorem Clear.configured (h : d.Clear) (hs : d.streamState = .configuring) (hlink : d.connectionState = .connected) :
    ({ d with sepConfiguredLocally := true }.setInUse d.current).continueStreamConnect.Inv := by
  have hconfiguring : ({ d with sepConfiguredLocally := true }.setInUse d.current).streamState = .configuring := hs
  rw [continueStreamConnect_configuring hconfiguring]
  have hheld : ({ d with sepConfiguredLocally := true }.setInUse d.current).Held := by
    refine ⟨h.listed.of_seids (map_seid_modify d.seps _ fun _ => rfl) rfl, fun i hi => ?_⟩
    · obtain rfl | hmarked := marked_setInUse hi
      · rfl
      · exact absurd ((marked_congr rfl i).mp hmarked) (h.unmarked i)
  split_ifs
  · exact Held.inv (hheld.of_eq rfl rfl) ⟨nofun, rfl⟩
  · exact (hheld.inv_setStreamState (s := .configured) (by decide)).of_keeps ⟨rfl, rfl, rfl, rfl⟩
  · refine hheld.issueOpen fun e hk => (hheld.of_eq hk.seps hk.current).abort ?_ ?_
    · exact hk.connectionState.trans hlink
    · rw [hk.streamState]
      change d.streamState ≠ _ ∧ d.streamState ≠ _
      rw [hs]
      decide

/-! ### Responses -/

section Responses

variable {p : Packet}

theorem Inv.discoverResponse (h : d.Inv) : (d.a2dpHandleDiscoverResponse p).Inv := by
  rw [a2dpHandleDiscoverResponse]
  split_ifs with hs
  · exact h
  · exact h.toHeld.reset.of_keeps ⟨rfl, rfl, rfl, rfl⟩
  · have hclear := h.clear (by rw [not_not.mp hs]; rfl)
    split
    · exact (Held.reset (h.toHeld.of_eq rfl rfl)).of_keeps ⟨rfl, rfl, rfl, rfl⟩
    · refine (Clear.continueStreamConnect ?_).inv
      exact hclear.of_eq rfl rfl rfl

theorem Clear.storeCodecType (h : d.Clear) (caps : List Octet) : (d.storeCodecType caps).Clear := by
  rw [Device.storeCodecType]
  split
  · exact h.of_eq rfl rfl rfl
  · exact h

theorem Clear.processGetCapabilitiesResponse (h : d.Clear) : (d.a2dpProcessGetCapabilitiesResponse p).1.Clear := by
  have hstored : ((d.note (.capabilities d.remoteSep.seid (p.from 2))).storeCodecType (p.from 2)).Clear :=
    (h.of_eq rfl rfl rfl : (d.note _).Clear).storeCodecType _
  rw [a2dpProcessGetCapabilitiesResponse]
  split
  · exact h
  · dsimp only
    split
    · exact hstored
    · split_ifs
      · exact hstored.of_eq rfl rfl rfl
      · exact hstored

theorem Inv.getCapabilitiesResponse (h : d.Inv) : (d.a2dpHandleGetCapabilitiesResponse p).Inv := by
  rw [a2dpHandleGetCapabilitiesResponse]
  split_ifs with hs
  · exact h
  · have hclear := h.clear (by rw [not_not.mp hs]; rfl)
    have hprocess := hclear.processGetCapabilitiesResponse (p := p)
    split
    · next e heq =>
      rw [heq] at hprocess
      exact hprocess.continueStreamConnect.inv
    · next e heq =>
      rw [heq] at hprocess
      exact hprocess.tryNextSeid.inv
  · exact (h.clear (by rw [not_not.mp hs]; rfl)).tryNextSeid.inv

theorem Inv.codecConfigureResponse (h : d.Inv) (accept : Bool) (seid : Octet) (caps : List Octet) :
    (d.a2dpHandleCodecConfigureResponse accept seid caps).Inv := by
  rw [a2dpHandleCodecConfigureResponse]
  split
  · exact h
  · next hs =>
    have hclear := h.clear (by rw [not_not.mp hs]; rfl)
    split
    · split_ifs
      · refine (Clear.issue ?_ _ _ _).inv
        exact hclear.of_eq rfl rfl rfl
      · exact hclear.tryNextSeid.inv
    · exact hclear.tryNextSeid.inv

theorem Inv.setConfigurationResponse (h : d.Inv) (hvalid : d.sinkIsValid = true) :
    (d.a2dpHandleSetConfigurationResponse p).Inv := by
  rw [a2dpHandleSetConfigurationResponse]
  split_ifs with hs
  · exact h
  · have hclear := h.clear (by rw [not_not.mp hs]; rfl)
    -- a channel that is being established is not being disconnected
    have hlink : d.connectionState = .connected := by
      have hstates : d.connectionState = .connected ∨ d.connectionState = .disconnecting ∨
          d.connectionState = .disconnectPending := by
        simpa [sinkIsValid, ConnectionState.isConnected] using hvalid
      obtain hlink | hlink | hlink := hstates
      · exact hlink
      · exact absurd hlink hclear.linked.1
      · exact absurd hlink hclear.linked.2
    exact hclear.configured (not_not.mp hs) hlink
  · exact (h.clear (by rw [not_not.mp hs]; rfl)).tryNextSeid.inv

theorem Inv.reconfigureResponse (h : d.Inv) : (d.a2dpHandleReconfigureResponse p).Inv := by
  rw [a2dpHandleReconfigureResponse]
  split_ifs
  · exact h
  · refine (Held.inv_setStreamState (s := .open) ?_ (by decide)).told _
    exact h.toHeld.of_eq rfl rfl
  · exact (h.toHeld.inv_setStreamState (by decide)).told _

theorem Inv.openResponse (h : d.Inv) : (d.a2dpHandleOpenResponse p).Inv := by
  rw [a2dpHandleOpenResponse]
  split_ifs
  · exact h
  · exact h.of_keeps (keeps_mediaConnectReq d)
  · exact h.failOpen _

theorem Inv.startResponse (h : d.Inv) : (d.a2dpHandleStartResponse p).Inv := by
  rw [a2dpHandleStartResponse]
  split_ifs
  · exact (h.toHeld.inv_setStreamState (by decide)).told _
  · exact (h.toHeld.inv_setStreamState (by decide)).told _
  · exact h.told _

theorem Inv.suspendResponse (h : d.Inv) : (d.a2dpHandleSuspendResponse p).Inv := by
  rw [a2dpHandleSuspendResponse]
  split_ifs
  · exact (h.toHeld.inv_setStreamState (by decide)).told _
  · exact (h.toHeld.inv_setStreamState (by decide)).told _
  · exact h.told _

theorem Inv.closeResponse (h : d.Inv) : (d.a2dpHandleCloseResponse p).Inv := by
  rw [a2dpHandleCloseResponse]
  split_ifs
  · obtain ⟨hlisted, hunmarked⟩ := h.clearCurrent
    have hheld : Held { ((d.clearInUse d.current).setCurrent 0).removeStreamBlocks with
        remoteSep := { d.remoteSep with codec := mediaCodecUndefined }
        localSep := { d.localSep with codec := mediaCodecUndefined } } :=
      ⟨hlisted.of_eq rfl rfl, fun i hi => absurd ((marked_congr rfl i).mp hi) (hunmarked i)⟩
    exact (hheld.inv_setStreamState (s := .localClosing) (by decide)).of_keeps (keeps_mediaDisconnectReq _)
  · exact h.abort
  · exact h.told _

/-- Outside the establishment, the invariant does not depend on the channel. -/
theorem Inv.of_link (h : d.Inv) (hseps : t.seps = d.seps) (hcurrent : t.current = d.current)
    (hstate : t.streamState = d.streamState) (hs : d.streamState.isEstablishing = false) : t.Inv := by
  refine ⟨h.toHeld.of_eq hseps hcurrent, fun hidle i hi => ?_, fun he => ?_⟩
  · exact h.free (hstate ▸ hidle) i ((marked_congr hseps i).mp hi)
  · rw [hstate, hs] at he
    exact absurd he Bool.false_ne_true

theorem Inv.signallingDisconnectPending (h : d.Inv) : d.a2dpSignallingDisconnectPending.1.Inv := by
  rw [a2dpSignallingDisconnectPending]
  split_ifs with hlink
  · refine h.of_link rfl rfl rfl ?_
    cases he : d.streamState.isEstablishing with
    | false => rfl
    | true => exact absurd hlink (h.clear he).linked.2
  · exact h

theorem Inv.disconnectAfterReset (h : d.Inv) : d.disconnectAfterReset.Inv := by
  have hreset := h.toHeld.reset
  rw [Device.disconnectAfterReset]
  have hk := keeps_disconnectAllMedia d.a2dpStreamReset
  split
  · next e heq =>
    rw [heq] at hk
    exact hreset.of_keeps hk
  · next e heq =>
    rw [heq] at hk
    exact (hreset.of_keeps hk).signallingDisconnectPending

theorem keeps_sendDelayReport (d : Device) (delay : BitVec 16) : Keeps d (d.sendDelayReport delay).1 := by
  have hdelay : Keeps d { d with delay := delay } := ⟨rfl, rfl, rfl, rfl⟩
  exact hdelay.trans (keeps_sendCommand (Prod.eta _).symm)

theorem keeps_streamDelayReport (d : Device) (delay : BitVec 16) : Keeps d (d.a2dpStreamDelayReport delay) := by
  have hk := keeps_sendDelayReport d delay
  rw [a2dpStreamDelayReport]
  split_ifs
  · split
    · next e heq =>
      rw [heq] at hk
      exact hk
    · next e heq =>
      rw [heq] at hk
      exact hk.trans ⟨rfl, rfl, rfl, rfl⟩
  · exact ⟨rfl, rfl, rfl, rfl⟩
  · exact ⟨rfl, rfl, rfl, rfl⟩

theorem Inv.delayReportResponse (h : d.Inv) : (d.a2dpHandleDelayReportResponse p).Inv := by
  rw [a2dpHandleDelayReportResponse]
  split
  · exact h
  · split
    · next hs =>
      split_ifs
      · dsimp only
        split_ifs
        · rw [continueStreamConnect_configured (d := d.told _) hs]
          exact (h.told _).issueOpen
        · exact h.told _
      · exact (h.told _).failOpen _
    · split_ifs
      · have hinv : { d with delayPending := false }.Inv := h.of_keeps ⟨rfl, rfl, rfl, rfl⟩
        exact hinv.of_keeps (keeps_streamDelayReport _ _)
      · exact h

theorem Inv.receiveResponse (h : d.Inv) (hvalid : d.sinkIsValid = true) : (d.handleReceiveResponse p).Inv := by
  have hpending : { d with pendingIssued := false }.Inv := h.of_keeps ⟨rfl, rfl, rfl, rfl⟩
  rw [handleReceiveResponse]
  split
  · exact h
  · dsimp only
    split
    · exact hpending
    · split
      · exact hpending.discoverResponse
      · exact hpending.getCapabilitiesResponse
      · exact hpending.getCapabilitiesResponse
      · exact hpending.setConfigurationResponse hvalid
      · exact hpending.reconfigureResponse
      · exact hpending.openResponse
      · exact hpending.startResponse
      · exact hpending.closeResponse
      · exact hpending.suspendResponse
      · exact hpending.disconnectAfterReset
      · exact hpending.delayReportResponse
      all_goals exact hpending

end Responses

/-! ### Commands -/

section Commands

variable {p : Packet}

/-- The configuration that a command asks for is accepted. -/
def Acceptable (d : Device) (p : Packet) : Prop :=
  ∃ sep, d.namedSep p = some sep ∧ ¬(sep.role = .source ∧ d.streamState = .configuring) ∧ sep.isTaken = false ∧
    a2dpValidateServiceCaps (p.from 4) false false false = .ok () ∧ unsupportedService sep.caps (p.from 4) = none ∧
    codecsCompatible sep.caps (p.from 4) false = true

/-- What the acceptance of a configuration does. -/
theorem processSetConfiguration_ok (h : d.a2dpProcessSetConfigurationCommand p = .ok t) :
    d.Acceptable p ∧ ∃ i, d.getSepIndexBySeid (p.seid 2) = some i ∧ t.seps = (d.setInUse i).seps ∧
      t.current = (d.setCurrent i).current := by
  rw [a2dpProcessSetConfigurationCommand] at h
  split at h
  · next i sep hi hsep =>
    split at h
    · cases h
    · next hrole =>
      split at h
      · cases h
      · next htaken =>
        split at h
        · cases h
        · next hvalid =>
          split at h
          · cases h
          · next hsupported =>
            split at h
            · cases h
            · next hcodec =>
              obtain rfl := Except.ok.inj h
              exact ⟨⟨sep, hsep, hrole, by simpa using htaken, hvalid, hsupported, by simpa using hcodec⟩,
                i, hi, rfl, rfl⟩
  · cases h

theorem Free.configured (h : d.Free) (hok : d.a2dpProcessSetConfigurationCommand p = .ok t) : t.Held := by
  obtain ⟨-, i, hi, hseps, hcurrent⟩ := processSetConfiguration_ok hok
  obtain ⟨hlisted, hi'⟩ := setCurrent_listed hi
  refine ⟨hlisted.of_seids ?_ hcurrent, fun j hj => ?_⟩
  · rw [hseps]
    exact map_seid_modify d.seps i fun _ => rfl
  · rw [hcurrent, hi']
    obtain rfl | hmarked := marked_setInUse ((marked_congr hseps j).mp hj)
    · rfl
    · exact absurd hmarked (h.not_marked j)

/-- Only an accepted configuration needs an end point that is free. -/
theorem Inv.setConfigurationCommand (h : d.Inv)
    (hfree : d.streamState ∈ [StreamState.idle, .discovering, .readingCaps, .processingCaps, .configuring, .configured] →
      d.Acceptable p → d.Free)
    (ht : d.a2dpHandleSetConfigurationCommand p = some t) : t.Inv := by
  rw [a2dpHandleSetConfigurationCommand] at ht
  split at ht
  · exact h.of_keeps (keeps_sendReject ht)
  · next hs =>
    split at ht
    · exact h.of_keeps (keeps_sendReject ht)
    · next e hok =>
      have hheld := (hfree (not_not.mp hs) (processSetConfiguration_ok hok).1).configured hok
      obtain ⟨u, hu, rfl⟩ := map_eq_some_iff.mp ht
      have hinv : ({ e with sepConfiguredLocally := false }.a2dpSetStreamState .configured).Inv :=
        Held.inv (hheld.of_eq rfl rfl) ⟨nofun, rfl⟩
      have hu' := hinv.of_keeps (keeps_sendAccept hu)
      split_ifs
      · exact hu'.told _
      · exact hu'

theorem keeps_grabSink {size : ℕ} (h : d.a2dpGrabSink size = some t) : Keeps d t := by
  rw [grabSink_eq h]
  exact ⟨rfl, rfl, rfl, rfl⟩

theorem keeps_discoverCommand (h : d.a2dpHandleDiscoverCommand = some t) : Keeps d t := by
  rw [a2dpHandleDiscoverCommand] at h
  split at h
  · exact keeps_sendReject h
  · next e payload hok =>
    rw [a2dpProcessDiscoverCommand] at hok
    split at hok
    · cases hok
    · split at hok
      · cases hok
      · next e' hgrab =>
        obtain ⟨rfl, rfl⟩ := Prod.mk.inj (Except.ok.inj hok)
        exact (keeps_grabSink hgrab).trans (keeps_sendAccept h)

theorem keeps_getCapabilitiesCommand {signal : Signal} {filter : Octet}
    (h : d.a2dpHandleGetCapabilitiesCommand signal filter p = some t) : Keeps d t := by
  rw [a2dpHandleGetCapabilitiesCommand] at h
  split at h
  · exact keeps_sendReject h
  · next e payload hok =>
    rw [a2dpProcessGetCapabilitiesCommand] at hok
    split at hok
    · cases hok
    · split at hok
      · cases hok
      · next e' hgrab =>
        obtain ⟨rfl, rfl⟩ := Prod.mk.inj (Except.ok.inj hok)
        exact (keeps_grabSink hgrab).trans (keeps_sendAccept h)

theorem keeps_getConfigurationCommand (h : d.a2dpHandleGetConfigurationCommand p = some t) : Keeps d t := by
  rw [a2dpHandleGetConfigurationCommand] at h
  split at h
  · exact keeps_sendReject h
  · split at h
    · exact keeps_sendReject h
    · next e hgrab =>
      split at h
      · cases h
      · exact (keeps_grabSink hgrab).trans (keeps_sendAccept h)

theorem keeps_reconfigureCommand (h : d.a2dpHandleReconfigureCommand p = some t) : Keeps d t := by
  rw [a2dpHandleReconfigureCommand] at h
  split at h
  · exact keeps_sendReject h
  · split at h
    · exact keeps_sendReject h
    · next e hok =>
      have hk : Keeps d e := by
        rw [a2dpProcessReconfigureCommand] at hok
        repeat' split at hok
        all_goals cases hok
        exact ⟨rfl, rfl, rfl, rfl⟩
      obtain ⟨u, hu, rfl⟩ := map_eq_some_iff.mp h
      have hu' := hk.trans (keeps_sendAccept hu)
      exact hu'.trans ⟨rfl, rfl, rfl, rfl⟩

theorem Inv.openCommand (h : d.Inv) (ht : d.a2dpHandleOpenCommand p = some t) : t.Inv := by
  rw [a2dpHandleOpenCommand] at ht
  split at ht
  · exact h.of_keeps (keeps_sendReject ht)
  · split at ht
    · exact h.of_keeps (keeps_sendReject ht)
    · obtain rfl := some.inj ht
      exact (h.toHeld.inv_setStreamState (by decide)).told _

theorem Inv.startCommand (h : d.Inv) (ht : d.a2dpHandleStartCommand p = some t) : t.Inv := by
  rw [a2dpHandleStartCommand] at ht
  split at ht
  · exact h.of_keeps (keeps_sendReject ht)
  · split at ht
    · exact h.of_keeps (keeps_sendReject ht)
    · obtain rfl := some.inj ht
      exact (h.toHeld.inv_setStreamState (by decide)).told _

theorem Inv.suspendCommand (h : d.Inv) (ht : d.a2dpHandleSuspendCommand p = some t) : t.Inv := by
  rw [a2dpHandleSuspendCommand] at ht
  split at ht
  · exact h.of_keeps (keeps_sendReject ht)
  · split at ht
    · exact h.of_keeps (keeps_sendReject ht)
    · obtain ⟨u, hu, rfl⟩ := map_eq_some_iff.mp ht
      exact ((h.toHeld.inv_setStreamState (by decide)).of_keeps (keeps_sendAccept hu)).told _

/-- The end point that a command may name is the current one. -/
theorem checkSeid_ok (h : d.checkSeid seid = .ok ()) :
    d.getLocalSeid = seid ∧ ∃ i, d.getSepIndexBySeid seid = some i := by
  rw [checkSeid] at h
  split_ifs at h with hi hseid
  exact ⟨not_not.mp hseid, ne_none_iff_exists'.mp hi⟩

/-- The end point that is closed is the current one. -/
theorem Held.closed (h : d.Held) (hok : d.a2dpProcessCloseCommand p = .ok t) : t.Held := by
  rw [a2dpProcessCloseCommand] at hok
  split at hok
  · cases hok
  · next hseid =>
    obtain ⟨hlocal, i, hi⟩ := checkSeid_ok hseid
    have hcurrent : ∀ s, d.seps[d.current]? = some s → d.current = i := by
      intro s hs
      have hs' : s.seid = p.seid 2 := by
        rw [← hlocal, getLocalSeid, currentSep, hs]
        rfl
      have hfound := h.listed s.seid (by rw [List.getElem?_map, hs]; rfl)
      rw [hs', hi] at hfound
      exact (some.inj hfound).symm
    obtain rfl := Except.ok.inj hok
    rw [hi, getD_some]
    refine ⟨(setCurrent_zero_listed (d.clearInUse i)).of_eq rfl rfl, fun j hj => ?_⟩
    obtain ⟨hmarked, hne⟩ := marked_clearInUse ((marked_congr (d := d.clearInUse i) rfl j).mp hj)
    have hj' := h.held j hmarked
    obtain ⟨s, hs, -⟩ := hmarked
    exact absurd (hj'.trans (hcurrent s (hj' ▸ hs))) hne

theorem Inv.closeCommand (h : d.Inv) (ht : d.a2dpHandleCloseCommand p = some t) : t.Inv := by
  rw [a2dpHandleCloseCommand] at ht
  split at ht
  · exact h.of_keeps (keeps_sendReject ht)
  · split at ht
    · exact h.of_keeps (keeps_sendReject ht)
    · next e hok =>
      exact ((h.toHeld.closed hok).inv_setStreamState (by decide)).of_keeps (keeps_sendAccept ht)

theorem Inv.abortCommand (h : d.Inv) (ht : d.a2dpHandleAbortCommand p = some t) : t.Inv := by
  rw [a2dpHandleAbortCommand] at ht
  split at ht
  · obtain ⟨u, hu, rfl⟩ := map_eq_some_iff.mp ht
    exact (h.of_keeps ((keeps_sendAccept hu).trans (keeps_disconnectAllMedia u))).reset
  · obtain rfl := some.inj ht
    exact h

theorem Inv.delayReportCommand (h : d.Inv) (ht : d.a2dpHandleDelayReportCommand p = some t) : t.Inv := by
  rw [a2dpHandleDelayReportCommand] at ht
  obtain ⟨u, hu, rfl⟩ := map_eq_some_iff.mp ht
  have hk : Keeps d u := by
    split at hu
    · exact keeps_sendReject hu
    · split at hu
      · exact keeps_sendReject hu
      · next e hok =>
        obtain ⟨v, hv, rfl⟩ := map_eq_some_iff.mp hu
        have he : Keeps d e := by
          rw [a2dpProcessDelayReportCommand] at hok
          repeat' split at hok
          all_goals cases hok
          exact ⟨rfl, rfl, rfl, rfl⟩
        exact (he.trans (keeps_sendAccept hv)).trans ⟨rfl, rfl, rfl, rfl⟩
  split_ifs with hs
  · rw [continueStreamConnect_configured hs.1]
    exact (h.of_keeps hk).issueOpen
  · exact h.of_keeps hk

theorem Inv.generalReject (h : d.Inv) : (d.processGeneralRejectResponse p).Inv := by
  rw [processGeneralRejectResponse]
  split_ifs
  · exact h
  · exact Held.inv_setStreamState ((h.told _).toHeld) (by decide)
  · exact h.abort

theorem Inv.dispatch {signal : Signal} (h : d.Inv)
    (hfree : signal = .setConfiguration →
      d.streamState ∈ [StreamState.idle, .discovering, .readingCaps, .processingCaps, .configuring, .configured] →
      d.Acceptable p → d.Free)
    (ht : d.dispatchCommand signal p = some t) : t.Inv := by
  rw [dispatchCommand.eq_def] at ht
  split at ht
  · split_ifs at ht
    · obtain rfl := some.inj ht
      exact h.generalReject
    · exact h.of_keeps (keeps_sendGeneralReject ht)
  · exact h.of_keeps (keeps_discoverCommand ht)
  · exact h.of_keeps (keeps_getCapabilitiesCommand ht)
  · exact h.setConfigurationCommand (hfree rfl) ht
  · exact h.of_keeps (keeps_getConfigurationCommand ht)
  · exact h.of_keeps (keeps_reconfigureCommand ht)
  · exact h.openCommand ht
  · exact h.startCommand ht
  · exact h.closeCommand ht
  · exact h.suspendCommand ht
  · exact h.abortCommand ht
  · exact h.of_keeps (keeps_sendGeneralReject ht)
  · exact h.of_keeps (keeps_getCapabilitiesCommand ht)
  · exact h.delayReportCommand ht

end Commands

/-! ### Turns -/

/-- The packet that the next turn takes up. -/
def nextPacket (d : Device) : Option Packet :=
  d.source.head?.bind fun fragment => (reassemble d.received fragment).complete.map Prod.snd

/-- The next turn accepts the configuration that a command asks for. -/
def AcceptsConfiguration (d : Device) (p : Packet) : Prop :=
  d.profileVersion ≠ .notRequested ∧ d.sinkIsValid = true ∧ d.nextPacket = some p ∧ p.type = .command ∧
    d.pendingReceived = false ∧ Signal.ofId (p.octet 1) = some .setConfiguration ∧
    Signal.minLength .setConfiguration ≤ p.length ∧
    d.streamState ∈ [StreamState.idle, .discovering, .readingCaps, .processingCaps, .configuring, .configured] ∧
    d.Acceptable p

theorem Inv.receiveCommand {p : Packet} {r : Device × Bool} (h : d.Inv)
    (hfree : d.pendingReceived = false → Signal.ofId (p.octet 1) = some .setConfiguration →
      Signal.minLength .setConfiguration ≤ p.length →
      d.streamState ∈ [StreamState.idle, .discovering, .readingCaps, .processingCaps, .configuring, .configured] →
      d.Acceptable p → d.Free)
    (hr : d.handleReceiveCommand p = some r) : r.1.Inv := by
  have htaken : (d.takeUp p).Inv := h.of_keeps ⟨rfl, rfl, rfl, rfl⟩
  rw [handleReceiveCommand] at hr
  split at hr
  · obtain rfl := some.inj hr
    exact h
  · next hpending =>
    split at hr
    · obtain ⟨u, hu, rfl⟩ := map_eq_some_iff.mp hr
      exact htaken.of_keeps (keeps_sendGeneralReject hu)
    · next signal hsignal =>
      split_ifs at hr with hlength hopening
      · obtain ⟨u, hu, rfl⟩ := map_eq_some_iff.mp hr
        exact htaken.of_keeps (keeps_sendReject hu)
      · obtain rfl := some.inj hr
        exact h.of_keeps ⟨rfl, rfl, rfl, rfl⟩
      · obtain ⟨u, hu, rfl⟩ := map_eq_some_iff.mp hr
        refine htaken.dispatch (fun hset hs hacceptable => ?_) hu
        subst hset
        exact hfree (by simpa using (not_or.mp hpending).2) hsignal (Nat.le_of_not_lt hlength) hs hacceptable

theorem Inv.badHeader {p : Packet} (h : d.Inv) (ht : d.handleBadHeader p = some t) : t.Inv := by
  rw [handleBadHeader] at ht
  split_ifs at ht
  · obtain rfl := some.inj ht
    exact h
  · have htaken : (d.takeUp p).Inv := h.of_keeps ⟨rfl, rfl, rfl, rfl⟩
    exact htaken.of_keeps (keeps_sendReject ht)

theorem Inv.turn (h : d.Inv) (hfree : ∀ p, d.AcceptsConfiguration p → d.Free)
    (ht : d.a2dpHandleSignalPacket = some t) : t.Inv := by
  rw [a2dpHandleSignalPacket] at ht
  split at ht
  · obtain rfl := some.inj ht
    exact h
  · next hready =>
    obtain ⟨hversion, hvalid⟩ := not_or.mp hready
    split at ht
    · obtain rfl := some.inj ht
      exact h
    · next fragment fragments hsource =>
      split_ifs at ht
      dsimp only at ht
      split at ht
      · obtain rfl := some.inj ht
        exact h.of_keeps ⟨rfl, rfl, rfl, rfl⟩
      · next type p hcomplete =>
        obtain ⟨r, hr, rfl⟩ := map_eq_some_iff.mp ht
        have hinv : { d with received := none }.Inv := h.of_keeps ⟨rfl, rfl, rfl, rfl⟩
        have hvalid' : d.sinkIsValid = true := by simpa using hvalid
        have hr' : r.1.Inv := by
          rw [processSignalPacket] at hr
          split at hr
          · next htype =>
            refine hinv.receiveCommand (fun hpending hsignal hlength hs hacceptable => ?_) hr
            refine hfree p ⟨hversion, hvalid', ?_, htype, hpending, hsignal, hlength, hs, hacceptable⟩
            rw [nextPacket, hsource, List.head?_cons, bind_some, hcomplete, map_some]
          · split at hr
            · obtain ⟨u, hu, rfl⟩ := map_eq_some_iff.mp hr
              exact hinv.badHeader hu
            · obtain rfl := some.inj hr
              exact hinv.generalReject
          · obtain rfl := some.inj hr
            exact hinv.receiveResponse hvalid'
          · obtain rfl := some.inj hr
            exact hinv.receiveResponse hvalid'
        split_ifs
        · exact hr'.of_keeps ⟨rfl, rfl, rfl, rfl⟩
        · exact hr'
        · exact hr'.of_keeps ⟨rfl, rfl, rfl, rfl⟩

/-! ### Requests -/

theorem Inv.establish (h : d.Inv) (seids : List Octet) : (d.a2dpStreamEstablish seids).Inv := by
  rw [a2dpStreamEstablish]
  split_ifs with hlink hidle
  · exact h.told _
  · exact h.told _
  · rw [Device.issueDiscover]
    have hclear : d.Clear := by
      refine ⟨h.listed, h.free (not_not.mp hidle), ?_⟩
      rw [not_not.mp hlink]
      decide
    have hbuilt : (d.buildPreferredList seids).1.Clear := hclear.of_eq rfl rfl rfl
    split
    · next e heq =>
      rw [heq] at hbuilt
      exact (hbuilt.issue _ _ _).inv
    · next e heq =>
      rw [heq] at hbuilt
      exact (hbuilt.failOpen _).inv

theorem Inv.openResponseOfClient {accept : Bool} (h : d.Inv) (ht : d.a2dpStreamOpenResponse accept = some t) :
    t.Inv := by
  rw [a2dpStreamOpenResponse] at ht
  split at ht
  · obtain rfl := some.inj ht
    exact h.told _
  · split at ht
    · obtain rfl := some.inj ht
      exact h.told _
    · split at ht
      · exact h.of_keeps (keeps_sendAccept ht)
      · obtain ⟨u, hu, rfl⟩ := map_eq_some_iff.mp ht
        exact (h.of_keeps (keeps_sendReject hu)).reset

theorem Inv.startResponseOfClient {accept : Bool} (h : d.Inv) (ht : d.a2dpStreamStartResponse accept = some t) :
    t.Inv := by
  rw [a2dpStreamStartResponse] at ht
  split at ht
  · obtain ⟨u, hu, rfl⟩ := map_eq_some_iff.mp ht
    exact (h.of_keeps (keeps_sendReject hu)).told _
  · split at ht
    · obtain ⟨u, hu, rfl⟩ := map_eq_some_iff.mp ht
      exact ((h.toHeld.inv_setStreamState (by decide)).of_keeps (keeps_sendAccept hu)).told _
    · obtain ⟨u, hu, rfl⟩ := map_eq_some_iff.mp ht
      exact ((h.toHeld.inv_setStreamState (by decide)).of_keeps (keeps_sendReject hu)).told _

theorem Inv.request {states : List StreamState} {told : Status → Told} {signal : Signal} {payload : List Octet}
    {sent : Device → Device} (h : d.Inv) (hsent : ∀ e : Device, e.Inv → (sent e).Inv) :
    (d.requestStream states told signal payload sent).Inv := by
  rw [requestStream]
  split_ifs
  · exact h.told _
  · exact h.told _
  · split
    · next e heq => exact hsent e (h.of_keeps (keeps_sendCommand heq))
    · next e heq => exact (h.of_keeps (keeps_sendCommand heq)).abort.told _
  · exact h.told _

theorem Inv.setAvailable (h : d.Inv) (seid : Octet) (available : Bool) : (d.a2dpSetSepAvailable seid available).Inv := by
  rw [a2dpSetSepAvailable]
  split
  · exact h
  · next i hi =>
    have hmarked : ∀ j, Marked { d with seps := d.seps.modify i fun s => { s with unavailable := !available } } j →
        d.Marked j := by
      rintro j ⟨s, hs, hmark⟩
      rw [List.getElem?_modify] at hs
      obtain ⟨s', hs', rfl⟩ := map_eq_some_iff.mp hs
      refine ⟨s', hs', ?_⟩
      split_ifs at hmark <;> exact hmark
    have hlisted : Listed { d with seps := d.seps.modify i fun s => { s with unavailable := !available } } :=
      h.listed.of_seids (map_seid_modify d.seps i fun _ => rfl) rfl
    refine ⟨⟨hlisted, fun j hj => h.held j (hmarked j hj)⟩, fun hs j hj => h.free hs j (hmarked j hj), fun hs => ?_⟩
    exact ⟨hlisted, fun j hj => (h.clear hs).unmarked j (hmarked j hj), (h.clear hs).linked⟩

/-- An abort on a connected channel ends the establishment. -/
theorem abort_isEstablishing (hlink : d.connectionState = .connected) :
    d.a2dpStreamAbort.streamState.isEstablishing = false := by
  rw [a2dpStreamAbort]
  split
  · next hs =>
    obtain hs | hs := hs
    · rw [hs]
      rfl
    · rw [hs]
      rfl
  · split <;> rfl

theorem Inv.signallingDisconnectReq (h : d.Inv) : d.a2dpHandleSignallingDisconnectReq.Inv := by
  rw [a2dpHandleSignallingDisconnectReq]
  split
  · exact h
  · next hlink =>
    have hclose : d.a2dpStreamClose.1.Inv ∧
        (d.a2dpStreamClose.2 = true → d.a2dpStreamClose.1.streamState.isEstablishing = false) ∧
        (d.a2dpStreamClose.2 = false → d.a2dpStreamClose.1 = d) := by
      rw [a2dpStreamClose]
      split_ifs
      · exact ⟨h, nofun, fun _ => rfl⟩
      · split
        · next e heq =>
          exact ⟨(h.of_keeps (keeps_sendCommand heq)).toHeld.inv_setStreamState (by decide), fun _ => rfl, nofun⟩
        · next e heq =>
          have hk := keeps_sendCommand heq
          exact ⟨(h.of_keeps hk).abort,
            fun _ => abort_isEstablishing (hk.connectionState.trans (not_not.mp hlink)), nofun⟩
    split
    · next e heq =>
      rw [heq] at hclose
      exact hclose.1.of_link rfl rfl rfl (hclose.2.1 rfl)
    · next e heq =>
      rw [heq] at hclose
      obtain rfl := hclose.2.2 rfl
      split
      · exact h.abort.of_link rfl rfl rfl (abort_isEstablishing (not_not.mp hlink))
      · next hidle =>
        refine h.of_link rfl rfl rfl ?_
        rw [not_not.mp hidle]
        rfl

/-! ### Channels -/

/-- A channel is set up anew only while no end point is marked. -/
theorem Inv.zeroSignalling (h : d.Inv) (hfree : ∀ i, ¬d.Marked i) (s : ConnectionState) : (d.zeroSignalling s).Inv := by
  refine ⟨h.toHeld.of_eq rfl rfl, fun _ i hi => hfree i ((marked_congr rfl i).mp hi), fun he => ?_⟩
  cases he

theorem Inv.removeDevice (h : d.Inv) (hidle : d.streamState = .idle) : d.removeDevice.Inv := by
  have hzero := h.zeroSignalling (h.free hidle) .idle
  exact hzero.of_keeps ⟨rfl, rfl, rfl, rfl⟩

theorem Inv.mediaConnectCfm (h : d.Inv) (success : Bool) : (d.mediaConnectCfm success).Inv := by
  rw [Device.mediaConnectCfm]
  have hidle : { d.mediaOpenCfm .operationFail with mediaState := .idle }.Inv := h.of_keeps ⟨rfl, rfl, rfl, rfl⟩
  have hconnected : { d with mediaState := .connected }.Inv := h.of_keeps ⟨rfl, rfl, rfl, rfl⟩
  split
  · exact h
  · split
    · split
      · dsimp only
        split
        · exact (hconnected.toHeld.inv_setStreamState (s := .open) (by decide)).told _
        · exact hconnected.told _
      · exact hidle.abort
    · split
      · split
        · exact h.of_keeps ⟨rfl, rfl, rfl, rfl⟩
        · exact hidle.signallingDisconnectPending
      · exact h

theorem Inv.mediaConnectInd (h : d.Inv) : d.mediaConnectInd.Inv := by
  rw [Device.mediaConnectInd]
  split_ifs <;> exact h.of_keeps ⟨rfl, rfl, rfl, rfl⟩

theorem signallingDisconnectPending_streamState (d : Device) :
    d.a2dpSignallingDisconnectPending.1.streamState = d.streamState := by
  rw [a2dpSignallingDisconnectPending]
  split_ifs <;> rfl

theorem Inv.mediaDisconnected (h : d.Inv) (status : Status) (linkloss : Bool) :
    (d.mediaDisconnected status linkloss).Inv := by
  rw [Device.mediaDisconnected]
  split
  · exact h
  · have htold : { d.told (.mediaCloseInd status) with mediaState := .idle }.Inv := h.of_keeps ⟨rfl, rfl, rfl, rfl⟩
    have hpending := htold.reset.signallingDisconnectPending
    have hidle := signallingDisconnectPending_streamState
      { d.told (.mediaCloseInd status) with mediaState := .idle }.a2dpStreamReset
    split
    · next e heq =>
      rw [heq] at hpending
      exact hpending
    · next e heq =>
      rw [heq] at hpending hidle
      split_ifs
      · exact (hpending.told _).removeDevice hidle
      · exact hpending.told _
      · exact hpending

/-- A managed link loss sets up the channel anew when there is no media channel to be disconnected first. -/
theorem Inv.signallingDisconnected (h : d.Inv) {managed : Bool}
    (hfree : d.connectionState.isConnected = true → managed = true → d.mediaState.isConnected = false → d.Free)
    (status : Status) : (d.signallingDisconnected status managed).Inv := by
  have hlink : Inv { d with connectionState := .idle } := by
    refine ⟨h.toHeld.of_eq rfl rfl, fun hs i hi => h.free hs i ((marked_congr rfl i).mp hi), fun hs => ?_⟩
    exact ⟨h.listed.of_eq rfl rfl, fun i hi => (h.clear hs).unmarked i ((marked_congr rfl i).mp hi), nofun, nofun⟩
  rw [Device.signallingDisconnected]
  split_ifs with hconnected hmanaged hmedia
  · exact h
  · exact hlink
  · have hfree' := hfree (by simpa using hconnected) hmanaged (by simpa using hmedia)
    refine Inv.zeroSignalling (h.told _) (fun i hi => ?_) _
    exact hfree'.not_marked i ((marked_congr rfl i).mp hi)
  · have hk := keeps_disconnectAllMedia d
    split
    · next e heq =>
      rw [heq] at hk
      exact hlink.of_keeps ⟨hk.seps, hk.current, hk.streamState, rfl⟩
    · next e heq =>
      rw [heq] at hk
      exact ((h.of_keeps hk).told _).reset.removeDevice rfl

/-! ### Runs -/

/-- No configuration is accepted while an end point is in use, and the signalling channel is not set up anew
while one is. -/
def KeepsFree (d : Device) : Input → Prop
  | .turn => ∀ p, d.AcceptsConfiguration p → d.Free
  | .signallingConnected _ => d.connectionState = .idle ∨ d.connectionState = .paging → d.Free
  | .signallingDisconnected _ managed =>
    d.connectionState.isConnected = true → managed = true → d.mediaState.isConnected = false → d.Free
  | _ => True

/-- One input keeps the marks in order. -/
theorem Inv.step {i : Input} (h : d.Inv) (hfree : d.KeepsFree i) (ht : d.step i = some t) : t.Inv := by
  cases i with try obtain rfl := some.inj ht
  | turn => exact h.turn hfree ht
  | openRes accept => exact Inv.openResponseOfClient (h.of_keeps ⟨rfl, rfl, rfl, rfl⟩ : (d.note .responded).Inv) ht
  | startRes accept => exact Inv.startResponseOfClient (h.of_keeps ⟨rfl, rfl, rfl, rfl⟩ : (d.note .responded).Inv) ht
  | packet octets | version v =>
    split_ifs
    · exact h.of_keeps ⟨rfl, rfl, rfl, rfl⟩
    · exact h
  | room n => exact h.of_keeps ⟨rfl, rfl, rfl, rfl⟩
  | signallingConnected mtu =>
    split_ifs with hlink
    · have hzero := h.zeroSignalling (hfree hlink).not_marked .connected
      exact hzero.of_keeps ⟨rfl, rfl, rfl, rfl⟩
    · exact h
  | signallingDisconnected status managed => exact h.signallingDisconnected hfree status
  | mediaConnectInd => exact h.mediaConnectInd
  | mediaConnectCfm success => exact h.mediaConnectCfm success
  | mediaDisconnected status linkloss => exact h.mediaDisconnected status linkloss
  | signallingDisconnectReq => exact h.signallingDisconnectReq
  | openReq seids => exact h.establish seids
  | startReq | suspendReq | closeReq => exact h.request fun e he => he.toHeld.inv_setStreamState (by decide)
  | reconfigureReq caps =>
    refine h.request fun e he => Held.inv_setStreamState (s := .reconfiguring) ?_ (by decide)
    exact he.toHeld.of_eq rfl rfl
  | delayReq delay => exact h.of_keeps (keeps_streamDelayReport d delay)
  | codecConfigureRes accept seid caps => exact h.codecConfigureResponse accept seid caps
  | setAvailable seid available => exact h.setAvailable seid available
  | watchdog =>
    have hfired : { d with watchdog := false }.Inv := h.of_keeps ⟨rfl, rfl, rfl, rfl⟩
    split_ifs
    · rw [a2dpHandleInternalWatchdogTimeout]
      split_ifs
      · exact hfired.disconnectAfterReset
      · exact hfired.abort
    · exact h
  | clientRspTimeout =>
    have hfired : { d with clientRsp := false }.Inv := h.of_keeps ⟨rfl, rfl, rfl, rfl⟩
    split_ifs
    · rw [a2dpHandleInternalClientRspTimeout]
      split_ifs
      · exact hfired.of_keeps (keeps_sendDelayReport _ 0)
      · exact hfired
    · exact h
  | remoteCmdTimeout =>
    have hfired : { d with remoteCmd := false }.Inv := h.of_keeps ⟨rfl, rfl, rfl, rfl⟩
    split_ifs
    · rw [a2dpHandleInternalRemoteCmdTimeout]
      split_ifs with hs
      · rw [continueStreamConnect_configured hs]
        exact hfired.issueOpen
      · exact hfired
    · exact h

/-- A device as it is before its channel is connected. -/
def Initial (d : Device) : Prop := d.streamState = .idle ∧ d.current = 0 ∧ d.Free

theorem Initial.inv (h : d.Initial) : d.Inv := by
  obtain ⟨hidle, hcurrent, hfree⟩ := h
  have hlisted : d.Listed := by
    intro seid hseid
    rw [hcurrent, List.getElem?_map] at hseid
    obtain ⟨s, hs, rfl⟩ := map_eq_some_iff.mp hseid
    obtain ⟨rest, hrest⟩ : ∃ rest, d.seps = s :: rest := by
      cases hseps : d.seps with
      | nil => simp [hseps] at hs
      | cons s' rest => simpa [hseps] using hs
    rw [hcurrent, getSepIndexBySeid, hrest, List.findIdx?_cons, decide_eq_true rfl, if_pos rfl]
  refine ⟨⟨hlisted, fun i hi => absurd hi (hfree.not_marked i)⟩, fun _ => hfree.not_marked, fun he => ?_⟩
  rw [hidle] at he
  cases he

/-- In every run, at most one end point is in use, and it is that of the stream. -/
def AlwaysInUseSound : Prop :=
  ∀ (d t : Device) (is : List Input), d.Initial → Lib.run Device.step d is = some t → t.InUseSound

/-- Every run keeps the marks in order, as long as no configuration is accepted while an end point is in use,
and no channel is set up anew while one is. -/
theorem inUse_of_run {d t : Device} {is : List Input} (hinit : d.Initial)
    (hfree : Lib.RunMeets Device.step KeepsFree d is) (hrun : Lib.run Device.step d is = some t) : t.InUseSound :=
  (Lib.run_invariant (fun _ _ _ h hok hs => h.step hok hs) hinit.inv hfree hrun).inUseSound

theorem Free.keepsFree (h : d.Free) (i : Input) : d.KeepsFree i := by
  cases i with
  | turn => exact fun _ _ => h
  | signallingConnected => exact fun _ => h
  | signallingDisconnected => exact fun _ _ _ => h
  | _ => trivial

instance (d : Device) : Decidable d.Initial := inferInstanceAs (Decidable (_ ∧ _ ∧ _))

/-- Two end points of a sink, both for SBC. -/
def twoSinks : Device where
  seps := [⟨1, 0, .sink, true, [1, 0, 7, 6, 0, 0, 0xFF, 0xFF, 2, 53], false, false⟩,
    ⟨2, 0, .sink, true, [1, 0, 7, 6, 0, 0, 0xFF, 0xFF, 2, 53], false, false⟩]
  current := 0
  preferred := []
  preferredCurrent := 0
  discovered := []
  discoveredCurrent := 0
  configuredCaps := []
  localSep := ⟨0, .source, 0⟩
  remoteSep := ⟨0, .source, 0⟩
  sepConfiguredLocally := false
  reconfigCaps := []
  profileVersion := .notRequested
  connectionState := .idle
  mtu := 0
  streamState := .idle
  pendingIssued := false
  pendingReceived := false
  issuedLabel := 0
  receivedLabel := 0
  received := none
  source := []
  room := 100
  mediaState := .idle
  delay := 0
  delayPending := false
  watchdog := false
  clientRsp := false
  remoteCmd := false
  log := []

/-- A SET_CONFIGURATION command for one of the end points. -/
def configures (seid : Octet) : List Octet := [0x10, 3, seid <<< 2, 4, 1, 0, 7, 6, 0, 0, 0x21, 0x15, 2, 53]

def configuredTwice : List Input :=
  [.signallingConnected 672, .version .v13, .packet (configures 1), .turn, .packet (configures 2), .turn]

/-- The first configuration marks the first end point. -/
theorem inUse_configured : ∃ t, Lib.run Device.step twoSinks (configuredTwice.take 4) = some t ∧
    t.streamState = .configured ∧ t.seps.map Sep.inUse = [true, false] ∧ t.InUseSound := by
  have hruns : (Lib.run Device.step twoSinks (configuredTwice.take 4)).any (fun t =>
      t.streamState = .configured ∧ t.seps.map Sep.inUse = [true, false]) := by decide
  obtain ⟨t, ht, hmarks⟩ := (any_eq_true _ _).mp hruns
  have hfree : Lib.RunMeets Device.step (fun d _ => d.Free) twoSinks (configuredTwice.take 4) := by decide
  obtain ⟨hstate, hseps⟩ := of_decide_eq_true hmarks
  exact ⟨t, ht, hstate, hseps, inUse_of_run (by decide) (hfree.mono fun _ i h => h.keepsFree i) ht⟩

/-- The second configuration marks the second end point too. -/
theorem not_alwaysInUseSound : ¬AlwaysInUseSound := by
  intro h
  have hruns : (Lib.run Device.step twoSinks configuredTwice).any fun t =>
      t.seps.map Sep.inUse = [true, true] := by decide
  obtain ⟨t, ht, hmarks⟩ := (any_eq_true _ _).mp hruns
  have hseps : t.seps.map Sep.inUse = [true, true] := of_decide_eq_true hmarks
  have hmarked : ∀ i, (t.seps.map Sep.inUse)[i]? = some true → t.Marked i := by
    intro i hi
    rw [List.getElem?_map] at hi
    exact map_eq_some_iff.mp hi
  rw [hseps] at hmarked
  have hone := (h twoSinks t configuredTwice (by decide) ht).one 0 1 (hmarked 0 rfl) (hmarked 1 rfl)
  cases hone

end Device

end Cbps.A2dp
