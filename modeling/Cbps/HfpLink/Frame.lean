import Cbps.HfpLink.Handlers
import Mathlib.Data.List.Basic

/-!
# What the service records leave alone

Records of services are registered while links come and go. `KeepsLinks` says that this does not
reach the links, nor the messages that are scheduled for their link losses.
-/

namespace Cbps.HfpLink

/-- A message that is scheduled for a link loss. -/
def Message.isLinkLoss : Message → Bool
  | linkLossReconnect _ _ | linkLossTimeout _ _ => true
  | _ => false

namespace Task

/-! ### Links -/

variable {t t' t'' : Task}

theorem link_modifyLink {i : ℕ} (hi : i < t.links.length) (f : LinkData → LinkData) :
    (t.modifyLink i f).link i = f (t.link i) := by
  rw [link, modifyLink, List.getD_eq_getElem?_getD, List.getElem?_modify_eq, link,
    List.getD_eq_getElem?_getD, List.getElem?_eq_getElem hi]
  rfl

/-- Beyond the configured links there is nothing. -/
theorem link_of_length_le {i : ℕ} (h : t.links.length ≤ i) : t.link i = LinkData.zero false := by
  rw [link, List.getD_eq_getElem?_getD, List.getElem?_eq_none h]
  rfl

theorem length_modifyLink (t : Task) (i : ℕ) (f : LinkData → LinkData) :
    (t.modifyLink i f).links.length = t.links.length := List.length_modify _ _ _

/-! ### Records -/

/-- The messages that are scheduled for link losses. -/
def lossMessages (t : Task) : List Message := t.messages.filter Message.isLinkLoss

/-- The links and what is scheduled for them are the same. -/
structure KeepsLinks (t t' : Task) : Prop where
  links : t'.links = t.links
  firstIncomingCall : t'.firstIncomingCall = t.firstIncomingCall
  linkLossTime : t'.linkLossTime = t.linkLossTime
  episodes : t'.episodes = t.episodes
  lossMessages : t'.lossMessages = t.lossMessages
  initialised : t.initialised = true → t'.initialised = true

theorem KeepsLinks.refl (t : Task) : KeepsLinks t t := ⟨rfl, rfl, rfl, rfl, rfl, id⟩

theorem KeepsLinks.trans (h : KeepsLinks t t') (h' : KeepsLinks t' t'') : KeepsLinks t t'' :=
  ⟨h'.links.trans h.links, h'.firstIncomingCall.trans h.firstIncomingCall,
    h'.linkLossTime.trans h.linkLossTime, h'.episodes.trans h.episodes,
    h'.lossMessages.trans h.lossMessages, fun hinit => h'.initialised (h.initialised hinit)⟩

theorem keepsLinks_output (t : Task) (out : Output) : KeepsLinks t (t.output out) :=
  ⟨rfl, rfl, rfl, rfl, rfl, id⟩

theorem keepsLinks_modifyService (t : Task) (s : ℕ) (f : ServiceData → ServiceData) :
    KeepsLinks t (t.modifyService s f) := ⟨rfl, rfl, rfl, rfl, rfl, id⟩

theorem keepsLinks_busyChannel (t : Task) (channel : ℕ) :
    KeepsLinks t { t with busyChannel := channel } := ⟨rfl, rfl, rfl, rfl, rfl, id⟩

/-- A message that no link loss has scheduled. -/
theorem keepsLinks_send (t : Task) {message : Message} (h : message.isLinkLoss = false) :
    KeepsLinks t (t.send message) := by
  refine ⟨rfl, rfl, rfl, rfl, ?_, id⟩
  rw [Task.lossMessages, Task.send, List.filter_append, List.filter_cons_of_neg (by rw [h]; decide)]
  exact List.append_nil _

theorem keepsLinks_hfpInitCfmToApp (t : Task) (status : HfpInitStatus) :
    KeepsLinks t (t.hfpInitCfmToApp status) := by
  rw [hfpInitCfmToApp]
  split
  · exact ⟨rfl, rfl, rfl, rfl, rfl, id⟩
  · exact keepsLinks_output t _

theorem keepsLinks_hfpInitSdpRegisterComplete (t : Task) (success : Bool) :
    KeepsLinks t (t.hfpInitSdpRegisterComplete success) := by
  rw [hfpInitSdpRegisterComplete]
  split
  · dsimp only
    split
    · exact ⟨rfl, rfl, rfl, rfl, rfl, fun _ => rfl⟩
    · exact keepsLinks_busyChannel t 0
  · exact keepsLinks_hfpInitCfmToApp t _

theorem keepsLinks_hfpRegisterServiceRecord (t : Task) (s : ℕ) :
    KeepsLinks t (t.hfpRegisterServiceRecord s) := by
  rw [hfpRegisterServiceRecord]
  dsimp only
  split
  · split
    · split
      · exact (keepsLinks_busyChannel t _).trans (keepsLinks_output _ _)
      · exact (keepsLinks_busyChannel t _).trans (keepsLinks_hfpInitSdpRegisterComplete _ false)
    · exact keepsLinks_send t rfl
  · split
    · exact (keepsLinks_busyChannel t _).trans (keepsLinks_hfpInitSdpRegisterComplete _ true)
    · exact KeepsLinks.refl t

theorem keepsLinks_hfpUnregisterServiceRecord (t : Task) (s : ℕ) :
    KeepsLinks t (t.hfpUnregisterServiceRecord s) := by
  rw [hfpUnregisterServiceRecord]
  split
  · exact keepsLinks_output t _
  · exact KeepsLinks.refl t

theorem keepsLinks_hfpHandleSdpRegisterCfm (t : Task) (success : Bool) (handle : ℕ) :
    KeepsLinks t (t.hfpHandleSdpRegisterCfm success handle) := by
  rw [hfpHandleSdpRegisterCfm]
  split
  · exact KeepsLinks.refl t
  · dsimp only
    split
    · split
      · exact ((keepsLinks_modifyService t _ _).trans (keepsLinks_busyChannel _ 0)).trans
          (keepsLinks_hfpUnregisterServiceRecord _ _)
      · exact (keepsLinks_modifyService t _ _).trans (keepsLinks_busyChannel _ 0)
    · exact KeepsLinks.refl t

theorem keepsLinks_handleSdpUnregisterCfm (t : Task) (success : Bool) (handle : ℕ) :
    KeepsLinks t (t.handleSdpUnregisterCfm success handle) := by
  rw [handleSdpUnregisterCfm]
  split
  · exact KeepsLinks.refl t
  · dsimp only
    split
    · split
      · split
        · exact (keepsLinks_modifyService t _ _).trans (keepsLinks_hfpRegisterServiceRecord _ _)
        · exact keepsLinks_modifyService t _ _
      · exact keepsLinks_modifyService t _ _
    · exact KeepsLinks.refl t

theorem keepsLinks_releaseService (t : Task) (i : ℕ) : KeepsLinks t (t.releaseService i) := by
  rw [releaseService]
  split
  · split
    · exact (keepsLinks_modifyService t _ _).trans (keepsLinks_hfpRegisterServiceRecord _ _)
    · exact KeepsLinks.refl t
  · exact KeepsLinks.refl t

end Task

end Cbps.HfpLink
