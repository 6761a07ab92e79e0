import Cbps.A2dp.InUse

/-!
# What a configuration command leaves configured

`exactlyConfigured_iff`: a SET_CONFIGURATION that is refused changes nothing, and one that is accepted stores what it
asks for, as long as no content protection or delay reporting is left from an earlier configuration that the command
does not ask for: `updateConfiguredServiceCaps` retains it. For a RECONFIGURE this is what is wanted.
-/

namespace Cbps.A2dp

/-! ### Lists of entries -/

/-- The codec that is looked for is in the entries that are read. -/
theorem validateEntries_ok {ignore : Bool} (n : ℕ) {category : Octet} {transport codec : Bool} {caps : List Octet}
    {r : Bool × Bool} (h : validateEntries ignore n category transport codec caps = .ok r) :
    r.2 = (codec || (servicesWithin n caps).any fun s => s.category = serviceMediaCodec) := by
  induction n generalizing category transport codec caps with
  | zero => cases h
  | succ n ih =>
    match caps, h with
    | category :: losc :: caps, h =>
      rw [validateEntries] at h
      split at h
      · next hle =>
        rw [servicesWithin, if_pos hle, List.any_cons, ← Bool.or_assoc]
        split at h
        · cases h
        · dsimp only at h
          split at h
          · next hnil =>
            obtain rfl := Except.ok.inj h
            rw [hnil]
            cases n <;> exact (Bool.or_false _).symm
          · exact ih h
      · cases h

variable {localCaps oldCaps newCaps : List Octet} {service : Octet} {s : Service}

/-- A list that is accepted has a codec. -/
theorem exists_codecEntry {reconfigure ignore : Bool}
    (h : a2dpValidateServiceCaps newCaps reconfigure false ignore = .ok ()) :
    ∃ s, codecEntry newCaps = some s := by
  rw [a2dpValidateServiceCaps] at h
  split at h
  · cases h
  · next transport codec hentries =>
    rw [if_neg Bool.false_ne_true] at h
    split_ifs at h with htransport hcodec
    have hany := validateEntries_ok _ hentries
    rw [Bool.false_or] at hany
    rw [← Option.isSome_iff_exists, codecEntry, List.isSome_find?, services, ← hany]
    simpa using hcodec

/-- What a command asks for is supported locally, and so what is stored is what it asks for and what was there. -/
theorem retainsService_eq (h : unsupportedService localCaps newCaps = none) :
    retainsService service localCaps oldCaps newCaps =
      (a2dpIsServiceSupported service newCaps || a2dpIsServiceSupported service oldCaps) := by
  rw [retainsService]
  split
  · next hnew =>
    obtain ⟨s, hs, hcategory⟩ := List.any_eq_true.mp hnew
    have hall := List.find?_eq_none.mp (Option.map_eq_none_iff.mp h) s hs
    rw [of_decide_eq_true hcategory] at hall
    rw [hnew, Bool.true_or]
    simpa using hall
  · next hnew => rw [eq_false_of_ne_true hnew, Bool.false_or]

/-- The stored capabilities: media transport, a codec, and content protection and delay reporting or not. -/
def storedCaps (codec : Service) (protection reporting : Bool) : List Octet :=
  mediaTransportCaps ++ codec.octets ++ (if protection then contentProtectionCaps else []) ++
    if reporting then delayReportingCaps else []

/-- The new codec, and what is asked for or was there before. -/
def mergedCaps (codec : Service) (newCaps oldCaps : List Octet) : List Octet :=
  storedCaps codec
    (a2dpIsServiceSupported serviceContentProtection newCaps || a2dpIsServiceSupported serviceContentProtection oldCaps)
    (a2dpIsServiceSupported serviceDelayReporting newCaps || a2dpIsServiceSupported serviceDelayReporting oldCaps)

/-- What an accepted command stores. -/
theorem update_eq (hs : codecEntry newCaps = some s) (h : unsupportedService localCaps newCaps = none) :
    updateConfiguredServiceCaps localCaps oldCaps newCaps = mergedCaps s newCaps oldCaps := by
  rw [updateConfiguredServiceCaps, hs, retainsService_eq h, retainsService_eq h]
  rfl

theorem storedCaps_inj {p p' r r' : Bool} : storedCaps s p r = storedCaps s p' r' ↔ p = p' ∧ r = r' := by
  cases p <;> cases p' <;> cases r <;> cases r' <;>
    simp [storedCaps, contentProtectionCaps, delayReportingCaps, serviceContentProtection, serviceDelayReporting]

namespace Device

variable {d t : Device} {p : Packet}

/-- The end points and the configuration are the same. -/
structure SameConfiguration (d t : Device) : Prop where
  seps : t.seps = d.seps
  current : t.current = d.current
  localSep : t.localSep = d.localSep
  remoteSep : t.remoteSep = d.remoteSep
  configuredCaps : t.configuredCaps = d.configuredCaps

/-- A SET_CONFIGURATION that is refused changes nothing, and one that is accepted stores what it asks for. A RECONFIGURE
that is accepted stores the new codec, and of the rest what it asks for and what was there. -/
structure ExactlyConfigured (d : Device) (p : Packet) : Prop where
  refused : ∀ e t, d.a2dpProcessSetConfigurationCommand p = .error e →
    d.a2dpHandleSetConfigurationCommand p = some t → SameConfiguration d t
  configured : ∀ t, d.a2dpProcessSetConfigurationCommand p = .ok t → ∃ s, codecEntry (p.from 4) = some s ∧
    t.configuredCaps = storedCaps s (a2dpIsServiceSupported serviceContentProtection (p.from 4))
      (a2dpIsServiceSupported serviceDelayReporting (p.from 4))
  reconfigured : ∀ t, d.a2dpProcessReconfigureCommand p = .ok t → ∃ s, codecEntry (p.from 3) = some s ∧
    t.configuredCaps = mergedCaps s (p.from 3) d.configuredCaps

theorem refused_same {e : CapsError} (h : d.a2dpProcessSetConfigurationCommand p = .error e)
    (ht : d.a2dpHandleSetConfigurationCommand p = some t) : SameConfiguration d t := by
  have hreject {id : Octet} {e : CapsError} (h : d.a2dpSendReject id e = some t) : SameConfiguration d t := by
    obtain ⟨rfl, -⟩ | ⟨room, rfl⟩ := sendReject_cases h <;> exact ⟨rfl, rfl, rfl, rfl, rfl⟩
  rw [a2dpHandleSetConfigurationCommand, h] at ht
  split at ht <;> exact hreject ht

/-- A command that is accepted, and what it stores. -/
theorem exists_configured (h : d.Acceptable p) : ∃ t s, d.a2dpProcessSetConfigurationCommand p = .ok t ∧
    codecEntry (p.from 4) = some s ∧ t.configuredCaps = mergedCaps s (p.from 4) d.configuredCaps := by
  obtain ⟨sep, hsep, hrole, htaken, hvalid, hsupported, hcodec⟩ := h
  obtain ⟨s, hs⟩ := exists_codecEntry hvalid
  obtain ⟨i, hi⟩ : ∃ i, d.getSepIndexBySeid (p.seid 2) = some i := by
    rw [← Option.isSome_iff_exists, getSepIndexBySeid, List.findIdx?_isSome, ← List.isSome_find?]
    exact Option.isSome_of_eq_some hsep
  obtain ⟨t, ht, hcaps⟩ : ∃ t, d.a2dpProcessSetConfigurationCommand p = .ok t ∧
      t.configuredCaps = updateConfiguredServiceCaps sep.caps d.configuredCaps (p.from 4) := by
    rw [a2dpProcessSetConfigurationCommand, hi, hsep]
    dsimp only
    rw [if_neg hrole, htaken, if_neg Bool.false_ne_true, hvalid, hsupported]
    dsimp only
    rw [hcodec, if_neg (by decide)]
    exact ⟨_, rfl, rfl⟩
  exact ⟨t, s, ht, hs, hcaps.trans (update_eq hs hsupported)⟩

/-- What a RECONFIGURE that is accepted stores. -/
theorem reconfigured_eq (h : d.a2dpProcessReconfigureCommand p = .ok t) :
    ∃ s, codecEntry (p.from 3) = some s ∧ t.configuredCaps = mergedCaps s (p.from 3) d.configuredCaps := by
  rw [a2dpProcessReconfigureCommand] at h
  split at h
  · cases h
  · split at h
    · cases h
    · split at h
      · cases h
      · split at h
        · cases h
        · next hvalid =>
          split at h
          · cases h
          · next hsupported =>
            split at h
            · cases h
            · obtain rfl := Except.ok.inj h
              obtain ⟨s, hs⟩ := exists_codecEntry hvalid
              exact ⟨s, hs, update_eq hs hsupported⟩

end Device

end Cbps.A2dp
