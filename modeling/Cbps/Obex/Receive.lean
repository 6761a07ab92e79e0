import Cbps.Obex.Frame
import Cbps.Obex.Scan

/-!
# The receive loop

What each turn of `obexHandleIncomingPacket` takes from the source. A turn waits for the header scans of the handler of
its packet, each of which may never return; then it drops the octets of the packet that the handler does not leave to
the application. A packet that declares no octets at all, and of which the handler leaves none, stays where it is, and is
handled again. `receives_iff` says that nothing else keeps the loop from coming to its end.
-/

namespace Cbps.Obex

open Option

variable {s s' t u : Session} {pkt beyond : List UInt8} {len pktLen n : ℕ} {opcode : UInt8}

/-! ### Handlers leave the source alone -/

/-- If the application holds no octets of the source, they stay as they are, and it still holds none. -/
def Unread (s s' : Session) : Prop := s.srcUsed = 0 → s'.source = s.source ∧ s'.srcUsed = 0

namespace Unread

theorem refl (s : Session) : Unread s s := fun h => ⟨rfl, h⟩

theorem trans (h : Unread s t) (h' : Unread t u) : Unread s u := by
  intro hs
  obtain ⟨hsource, hused⟩ := h hs
  obtain ⟨hsource', hused'⟩ := h' hused
  exact ⟨hsource'.trans hsource, hused'⟩

theorem of_framed (h : Framed s s') : Unread s s' := by
  obtain ⟨n, k, rfl⟩ := h
  exact refl s

theorem of_reports (h : Reports s s') : Unread s s' := by
  obtain ⟨m, es, rfl, -⟩ := h
  exact refl s

theorem emit (s : Session) (e : Effect) : Unread s (s.emit e) := refl s

theorem setState (s : Session) (st : ObexState) : Unread s (s.setState st) := refl s

theorem flushPacket (s : Session) (opcode : UInt8) : Unread s (obexFlushPacket s opcode) := by
  have hempty : Unread s (obexSourceEmpty s) := by
    intro hs
    rw [obexSourceEmpty, if_neg (not_not.mpr hs)]
    split
    · exact ⟨rfl, hs⟩
    · exact ⟨rfl, hs⟩
  have hflush : ∀ t : Session, Unread t (obexObjFlush t true) := fun t => refl t
  rw [obexFlushPacket]
  refine hempty.trans (trans (of_framed ?_) (hflush _))
  exact (Framed.store _ _ _).trans (Framed.store _ _ _)

theorem deleteSessionInd (s : Session) : Unread s (obexDeleteSessionInd s) := by
  rw [obexDeleteSessionInd]
  split
  · exact refl s
  · exact refl s

theorem connectCfm (s : Session) (status : ObexStatus) : Unread s (obexConnectCfm s status) := by
  rw [obexConnectCfm]
  split
  · exact refl s
  · split
    · exact (emit s _).trans (deleteSessionInd _)
    · exact emit s _

theorem sendResponse (s : Session) (response : ObexStatus) : Unread s (obexSendResponse s response) := by
  have hframe : Unread s (if s.pktLen ≠ 0 then (true, s)
      else (decide ((obexNewPacket s 0 obexPut).1 ≠ 0), (obexNewPacket s 0 obexPut).2)).2 := by
    split
    · exact refl s
    · exact of_framed (Framed.newPacket s 0 obexPut)
  rw [obexSendResponse]
  dsimp only
  generalize (if s.pktLen ≠ 0 then (true, s)
      else (decide ((obexNewPacket s 0 obexPut).1 ≠ 0), (obexNewPacket s 0 obexPut).2)) = r at hframe ⊢
  generalize (if response = ObexStatus.success then ObexStatus.remoteSuccess
      else if response < ObexStatus.continue then ObexStatus.unknownError else response) = octet
  have hsent : Unread s (if r.1 = true then obexFlushPacket r.2 octet else r.2) := by
    split
    · exact hframe.trans (flushPacket _ _)
    · exact hframe
  split
  · exact hsent
  · exact hsent.trans (setState _ _)

theorem sendErrorResponse (s : Session) (response : ObexStatus) : Unread s (obexSendErrorResponse s response) := by
  have hframe : Unread s (obexNewPacket (s.setState .connected) obexPktHdrSize obexPut).2 :=
    (setState s _).trans (of_framed (Framed.newPacket _ _ _))
  rw [obexSendErrorResponse]
  dsimp only
  split
  · exact hframe.trans (flushPacket _ _)
  · exact hframe

theorem putGetInd (s : Session) (cmd : UInt8) (n : ℕ) : Unread s (putGetInd s cmd n) := by
  rw [Obex.putGetInd]
  split
  · exact refl s
  · exact refl s

theorem connectReply (s : Session) (response : ObexStatus) : Unread s (connectReply s response) := by
  have hframe : Unread s (obexFrameConnectPkt s response).2 := of_framed (Framed.frameConnectPkt s response)
  rw [Obex.connectReply]
  dsimp only
  generalize obexFrameConnectPkt s response = r at hframe ⊢
  split
  · exact hframe
  · have hsent : Unread s (if r.1 = true then obexFlushPacket r.2 response else r.2) := by
      split
      · exact hframe.trans (flushPacket _ _)
      · exact hframe
    generalize (if r.1 = true then obexFlushPacket r.2 response else r.2) = u at hsent ⊢
    generalize (if r.1 = true then response else ObexStatus.failure) = reply
    refine hsent.trans (trans ?_ (connectCfm _ _))
    split
    · exact setState u _
    · exact refl u

theorem disconnectReq (s : Session) : Unread s (obexDisconnectReq s) := by
  have hdown : ∀ t : Session, Unread t (obexDisconnectSession t) := fun t => refl t
  have hstart : Unread s ((s.setPktLen 0).setState .disconnect) := refl s
  have hframe : Unread s (obexNewPacket ((s.setPktLen 0).setState .disconnect) 0 obexDisconnect).2 :=
    hstart.trans (of_framed (Framed.newPacket _ _ _))
  rw [obexDisconnectReq]
  split
  · dsimp only
    split
    · exact hframe.trans (flushPacket _ _)
    · exact hframe.trans (hdown _)
  · exact hdown s

variable {r : ℕ × Session}

/-- The handler of a packet leaves the source alone. -/
theorem handleCommand (h : obexHandleCommand s pkt pktLen = some r) : Unread s r.2 := by
  rw [obexHandleCommand] at h
  split at h
  · obtain ⟨⟨response, t⟩, hresponse, rfl⟩ := map_eq_some_iff.mp h
    exact (of_reports (Reports.connectResponse hresponse)).trans (connectReply _ _)
  · split at h
    · obtain ⟨t, hdisconnect, rfl⟩ := map_eq_some_iff.mp h
      rw [obexHandleDisconnectRequest] at hdisconnect
      obtain ⟨⟨valid, m⟩, -, rfl⟩ := map_eq_some_iff.mp hdisconnect
      dsimp only
      split
      · exact (sendResponse s _).trans (trans (of_framed (Framed.setPktLen _ _)) (deleteSessionInd _))
      · exact sendErrorResponse s _
    · split at h
      · obtain rfl := some.inj h
        dsimp only
        rw [obexHandleAbortRequest]
        split
        · exact (emit s _).trans (sendResponse _ _)
        · exact sendResponse s _
      · split at h
        · rw [obexHandleSetPathRequest] at h
          split at h
          · obtain ⟨⟨valid, m⟩, -, h⟩ := bind_eq_some_iff.mp h
            dsimp only at h
            split at h
            · split at h
              · exact some.inj h ▸ refl s
              · obtain ⟨⟨name, k⟩, -, rfl⟩ := map_eq_some_iff.mp h
                exact refl s
            · exact some.inj h ▸ sendResponse s _
          · exact some.inj h ▸ sendResponse s _
        · split at h
          · rw [obexHandlePutGetRequest] at h
            dsimp only at h
            split at h
            · split at h
              · obtain ⟨⟨valid, m⟩, -, rfl⟩ := map_eq_some_iff.mp h
                dsimp only
                split
                · exact putGetInd s _ _
                · exact sendResponse s _
              · split at h
                · exact some.inj h ▸ sendResponse s _
                · exact some.inj h ▸ putGetInd s _ _
            · exact some.inj h ▸ sendResponse s _
          · exact some.inj h ▸ sendErrorResponse s _

theorem connectReq (s : Session) : Unread s (obexConnectReq s false).2 := by
  have hframe : Unread s (obexFrameConnectPkt s obexConnectOpcode).2 := of_framed (Framed.frameConnectPkt s _)
  rw [obexConnectReq]
  generalize obexFrameConnectPkt s obexConnectOpcode = r at hframe ⊢
  obtain ⟨_ | _, t⟩ := r
  · exact hframe.trans (connectCfm t _)
  · exact hframe

theorem authenticate {r : Bool × ℕ × Session} (h : obexAuthenticateSession s pkt len = some r) : Unread s r.2.2 :=
  of_reports (Reports.authenticateSession h)

theorem connectUnauthorized (h : connectUnauthorized s pkt pktLen = some r) : Unread s r.2 := by
  have hreq := connectReq s
  rw [Obex.connectUnauthorized] at h
  generalize obexConnectReq s false = q at h hreq
  obtain ⟨_ | _, t⟩ := q
  · exact some.inj h ▸ hreq
  · obtain ⟨⟨authenticated, m, u⟩, hauth, rfl⟩ := map_eq_some_iff.mp h
    have ht : Unread t { t with auth := true } := refl t
    have hu : Unread s u := hreq.trans (ht.trans (authenticate hauth))
    dsimp only
    split
    · exact hu
    · exact hu.trans (connectCfm u _)

theorem connectSuccess {m : ℕ} (h : connectSuccess s m pkt pktLen = some r) : Unread s r.2 := by
  rw [Obex.connectSuccess] at h
  obtain ⟨⟨accepted, t⟩, hchecked, h⟩ := bind_eq_some_iff.mp h
  have ht : Unread s t := by
    split at hchecked
    · obtain ⟨⟨stored, u⟩, hstored, hchecked⟩ := bind_eq_some_iff.mp hchecked
      rw [obexStoreConnectionID] at hstored
      obtain ⟨connID, -, hstored⟩ := map_eq_some_iff.mp hstored
      obtain ⟨-, rfl⟩ := Prod.mk.inj hstored
      dsimp only at hchecked
      split at hchecked
      · obtain ⟨valid, -, hchecked⟩ := map_eq_some_iff.mp hchecked
        obtain ⟨-, rfl⟩ := Prod.mk.inj hchecked
        exact refl s
      · obtain ⟨-, rfl⟩ := Prod.mk.inj (some.inj hchecked)
        exact refl s
    · obtain ⟨-, rfl⟩ := Prod.mk.inj (some.inj hchecked)
      exact refl s
  dsimp only at h
  split at h
  · obtain ⟨⟨authenticated, k, u⟩, hauth, rfl⟩ := map_eq_some_iff.mp h
    have hu : Unread s u := ht.trans (authenticate hauth)
    have hmax : Unread u { u with maxPktLen := min m u.maxPktLen } := refl u
    exact hu.trans (hmax.trans (connectCfm _ _))
  · exact some.inj h ▸ ht.trans (connectCfm _ _)

theorem handleConnectResponse (h : obexHandleConnectResponse s pkt pktLen = some r) :
    Unread s r.2 := by
  rw [obexHandleConnectResponse] at h
  dsimp only at h
  split at h
  · exact some.inj h ▸ connectCfm s _
  · generalize (if pkt.getD 0 0 = ObexStatus.unauthorized ∧ ¬s.isObexInAuthConnect = true then obexUnauthorizedRsp
      else pkt.getD 0 0) = response at h
    split at h
    · exact connectUnauthorized h
    · split at h
      · exact connectSuccess h
      · exact some.inj h ▸ connectCfm s _

theorem handleAbortResponse (s : Session) (status : ObexStatus) : Unread s (obexHandleAbortResponse s status) := by
  rw [obexHandleAbortResponse]
  generalize (if status = ObexStatus.remoteSuccess then ObexStatus.localAbort else status) = octet
  have hcfm : ∀ id, Unread s ((obexStatusCfm s octet id 0).setState .connected) := fun id => refl s
  split
  · exact (hcfm _).trans (disconnectReq _)
  · exact hcfm _

/-- The handler of a response leaves the source alone. -/
theorem handleResponse (h : obexHandleResponse s pkt pktLen = some r) : Unread s r.2 := by
  rw [obexHandleResponse] at h
  split at h
  · exact handleConnectResponse h
  · exact handleConnectResponse h
  · exact some.inj h ▸ deleteSessionInd s
  · exact some.inj h ▸ handleAbortResponse s _
  · exact some.inj h ▸ handleAbortResponse s _
  · exact some.inj h ▸ refl s
  · exact some.inj h ▸ refl s
  · rw [obexHandleGetPutResponse] at h
    obtain ⟨⟨valid, m⟩, -, rfl⟩ := map_eq_some_iff.mp h
    dsimp only
    split
    · exact refl s
    · exact refl s
  · rw [obexHandleGetPutResponse] at h
    obtain ⟨⟨valid, m⟩, -, rfl⟩ := map_eq_some_iff.mp h
    dsimp only
    split
    · exact refl s
    · exact refl s
  · exact some.inj h ▸ refl s
  · exact some.inj h ▸ refl s
  · exact some.inj h ▸ refl s

theorem handlePacket (h : handlePacket s pkt pktLen = some r) : Unread s r.2 := by
  rw [Obex.handlePacket] at h
  split at h
  · exact (emit s _).trans (handleCommand h)
  · exact (emit s _).trans (handleResponse h)

end Unread

/-! ### The scans of a handler -/

theorem bind_ne_none {α β : Type*} {x : Option α} {f : α → Option β} :
    x.bind f ≠ none ↔ x ≠ none ∧ ∀ a, x = some a → f a ≠ none := by
  rcases x with - | a
  · exact iff_of_false (fun h => h rfl) fun h => h.1 rfl
  · rw [bind_some]
    constructor
    · exact fun h => ⟨(by simp), fun a' ha => some.inj ha ▸ h⟩
    · exact fun h => h.2 a rfl

theorem map_ne_none {α β : Type*} {x : Option α} {f : α → β} : x.map f ≠ none ↔ x ≠ none := by
  rw [Ne, map_eq_none_iff]

/-- In `obex_auth_connect`, the scan for the response returns. -/
def ResponseReturns (s : Session) (pkt : List UInt8) (len : ℕ) : Prop :=
  s.isObexInAuthConnect = true → obexGetDigest pkt len obexAuthResponse obexRspDigestTag ≠ none

/-- The scans for digests return, as far as they are made. -/
def DigestsReturn (s : Session) (pkt : List UInt8) (len : ℕ) : Prop :=
  ¬(s.isObexInConnect = true ∧ ¬s.auth = true) →
    if s.auth = true then
      obexGetDigest pkt len obexAuthChallenge obexReqNonceTag ≠ none ∧
        ∀ digest m, obexGetDigest pkt len obexAuthChallenge obexReqNonceTag = some (some digest, m) →
          ResponseReturns s pkt len
    else ResponseReturns s pkt len

/-- The scans of a CONNECT packet return: that for the Target, or the Who, and those for digests if it is ours. -/
def TargetReturns (s : Session) (pkt : List UInt8) (len : ℕ) : Prop :=
  obexValidateSession s pkt len ≠ none ∧ (obexValidateSession s pkt len = some true → DigestsReturn s pkt len)

/-- The scans for a request return. -/
def CommandReturns (s : Session) (pkt : List UInt8) (pktLen : ℕ) : Prop :=
  let op := pkt.getD 0 0
  if op = obexConnectOpcode then
    obexPktConnectHdrSize ≤ pktLen → s.isObexConnecting = true → s.targetWho.isSome = true →
      TargetReturns s (pkt.drop obexPktConnectHdrSize) (pktLen - obexPktConnectHdrSize)
  else if op = obexDisconnect then obexValidateConnectionID s pkt pktLen ≠ none
  else if op = obexSetPath then
    s.isObexReady = true → obexValidateConnectionID s pkt pktLen ≠ none ∧
      ∀ m, obexValidateConnectionID s pkt pktLen = some (true, m) → obexGetSeqHeader pkt m obexNameHdr ≠ none
  else if op = obexPut ∨ op = obexPutFinal ∨ op = obexGet ∨ op = obexGetFinal then
    s.isObexReady = true → s.isObexConnected = true → obexValidateConnectionID s pkt pktLen ≠ none
  else True

/-- The scans of the headers behind that of a response to a CONNECT return. -/
def ConnectReturns (s : Session) (response : UInt8) (hdrs : List UInt8) (hdrsLen : ℕ) : Prop :=
  if response = ObexStatus.unauthorized ∧ ¬s.isObexInAuthConnect = true ∨ response = obexUnauthorizedRsp then
    (obexFrameConnectPkt s obexConnectOpcode).1 = true → DigestsReturn { s with auth := true } hdrs hdrsLen
  else if response = ObexStatus.remoteSuccess then
    if s.targetWho.isSome = true then
      obexGetUint32Header hdrs hdrsLen obexConnectidHdr ≠ none ∧
        (obexGetUint32Header hdrs hdrsLen obexConnectidHdr ≠ some obexInvalidUint32 → TargetReturns s hdrs hdrsLen)
    else DigestsReturn s hdrs hdrsLen
  else True

/-- The scans for a response return. -/
def AnswerReturns (s : Session) (pkt : List UInt8) (pktLen : ℕ) : Prop :=
  match s.state with
  | .connect | .authConnect =>
    obexPktConnectHdrSize ≤ pktLen →
      ConnectReturns s (pkt.getD 0 0) (pkt.drop obexPktConnectHdrSize) (pktLen - obexPktConnectHdrSize)
  | .put | .get => obexValidateConnectionID s pkt pktLen ≠ none
  | _ => True

theorem authenticateResponse_ne_none {m : ℕ} :
    authenticateResponse s pkt len m ≠ none ↔ ResponseReturns s pkt len := by
  rw [authenticateResponse, ResponseReturns]
  split
  · next h => rw [map_ne_none, forall_prop_of_true h]
  · next h => exact iff_of_true (by simp) fun h' => absurd h' h

theorem authenticateSession_ne_none : obexAuthenticateSession s pkt len ≠ none ↔ DigestsReturn s pkt len := by
  rw [obexAuthenticateSession, DigestsReturn]
  split
  · next h => exact iff_of_true (by simp) fun h' => absurd h h'
  · next h =>
    rw [forall_prop_of_true h]
    split
    · next hauth =>
      rw [bind_ne_none]
      refine and_congr_right fun _ => ?_
      have hresponse : ∀ (digest m : ℕ) k, ResponseReturns (obexAuthClgInd
          (if s.isObexInConnect = true then obexAuthReqInd s else s) (pkt.drop digest) m) pkt k ↔
            ResponseReturns s pkt k := by
        intro digest m k
        split
        · exact Iff.rfl
        · exact Iff.rfl
      constructor
      · intro hall digest m hdigest
        exact (hresponse digest m len).mp (authenticateResponse_ne_none.mp (hall (some digest, m) hdigest))
      · rintro hall ⟨_ | digest, m⟩ hdigest
        · simp
        · exact authenticateResponse_ne_none.mpr ((hresponse digest m len).mpr (hall digest m hdigest))
    · exact authenticateResponse_ne_none

theorem validateSession_bind_ne_none {α : Type*} {f : Bool → Option α} (hfalse : f false ≠ none) :
    (obexValidateSession s pkt len).bind f ≠ none ↔
      obexValidateSession s pkt len ≠ none ∧ (obexValidateSession s pkt len = some true → f true ≠ none) := by
  rw [bind_ne_none]
  refine and_congr_right fun _ => ?_
  constructor
  · exact fun h => h true
  · rintro h (_ | _) hvalid
    · exact hfalse
    · exact h hvalid

/-- Only the flags of the session matter for the scans for digests. -/
theorem digestsReturn_congr (hstate : s'.state = s.state) (hauth : s'.auth = s.auth) :
    DigestsReturn s' pkt len ↔ DigestsReturn s pkt len := by
  rw [DigestsReturn, DigestsReturn, ResponseReturns, ResponseReturns, Session.isObexInConnect,
    Session.isObexInConnect, Session.isObexInAuthConnect, Session.isObexInAuthConnect, hstate, hauth]

theorem handleConnectRequest_ne_none : obexHandleConnectRequest s pkt pktLen ≠ none ↔
    (obexPktConnectHdrSize ≤ pktLen → s.isObexConnecting = true → s.targetWho.isSome = true →
      TargetReturns s (pkt.drop obexPktConnectHdrSize) (pktLen - obexPktConnectHdrSize)) := by
  rw [obexHandleConnectRequest, map_ne_none, connectResponse]
  split
  · next h => exact iff_of_true (by simp) fun h' => absurd h (Nat.not_lt.mpr h')
  · next h =>
    rw [forall_prop_of_true (Nat.not_lt.mp h)]
    split
    · next hconnecting =>
      rw [forall_prop_of_true hconnecting]
      split
      · next htarget =>
        rw [forall_prop_of_true htarget, TargetReturns]
        dsimp only
        rw [validateSession_bind_ne_none (by rw [if_neg Bool.false_ne_true]; simp), if_pos rfl]
        refine and_congr_right fun _ => imp_congr_right fun _ => ?_
        rw [map_ne_none, authenticateSession_ne_none]
        exact digestsReturn_congr rfl rfl
      · next htarget => exact iff_of_true (by simp) fun h' => absurd h' htarget
    · next hconnecting => exact iff_of_true (by simp) fun h' => absurd h' hconnecting

theorem handleSetPathRequest_ne_none (hop : pkt.getD 0 0 = obexSetPath) :
    obexHandleSetPathRequest s pkt pktLen ≠ none ↔
      (s.isObexReady = true → obexValidateConnectionID s pkt pktLen ≠ none ∧
        ∀ m, obexValidateConnectionID s pkt pktLen = some (true, m) → obexGetSeqHeader pkt m obexNameHdr ≠ none) := by
  rw [obexHandleSetPathRequest]
  split
  · next hready =>
    rw [forall_prop_of_true hready, bind_ne_none]
    refine and_congr_right fun _ => ?_
    -- the flags are read from the opcode, which does not say parent and no folder
    have hpath : ¬(pkt.getD 0 0 &&& 0x03).toNat = 3 := by
      rw [hop]
      decide
    constructor
    · intro h m hm
      have hscan := h (true, m) hm
      dsimp only at hscan
      rw [if_pos rfl, if_neg hpath, map_ne_none] at hscan
      exact hscan
    · rintro h ⟨_ | _, m⟩ hm
      · dsimp only
        rw [if_neg Bool.false_ne_true]
        simp
      · dsimp only
        rw [if_pos rfl, if_neg hpath, map_ne_none]
        exact h m hm
  · next hready => exact iff_of_true (by simp) fun h' => absurd h' hready

theorem handlePutGetRequest_ne_none : obexHandlePutGetRequest s pkt pktLen ≠ none ↔
    (s.isObexReady = true → s.isObexConnected = true → obexValidateConnectionID s pkt pktLen ≠ none) := by
  rw [obexHandlePutGetRequest]
  split
  · next hready =>
    rw [forall_prop_of_true hready]
    split
    · next hconnected => rw [forall_prop_of_true hconnected, map_ne_none]
    · next hconnected =>
      refine iff_of_true ?_ fun h' => absurd h' hconnected
      split
      · simp
      · simp
  · next hready => exact iff_of_true (by simp) fun h' => absurd h' hready

/-- The handler of a request returns exactly if its scans do. -/
theorem handleCommand_ne_none : obexHandleCommand s pkt pktLen ≠ none ↔ CommandReturns s pkt pktLen := by
  rw [obexHandleCommand, CommandReturns]
  by_cases hconnect : pkt.getD 0 0 = obexConnectOpcode
  · rw [if_pos hconnect, if_pos hconnect]
    exact handleConnectRequest_ne_none
  · rw [if_neg hconnect, if_neg hconnect]
    by_cases hdisconnect : pkt.getD 0 0 = obexDisconnect
    · rw [if_pos hdisconnect, if_pos hdisconnect, map_ne_none, obexHandleDisconnectRequest, map_ne_none]
    · rw [if_neg hdisconnect, if_neg hdisconnect]
      by_cases habort : pkt.getD 0 0 = obexAbort
      · have hother : ¬pkt.getD 0 0 = obexSetPath ∧ ¬(pkt.getD 0 0 = obexPut ∨ pkt.getD 0 0 = obexPutFinal ∨
            pkt.getD 0 0 = obexGet ∨ pkt.getD 0 0 = obexGetFinal) := by
          rw [habort]
          decide
        rw [if_pos habort, if_neg hother.1, if_neg hother.2]
        exact iff_of_true (by simp) trivial
      · rw [if_neg habort]
        by_cases hsetpath : pkt.getD 0 0 = obexSetPath
        · rw [if_pos hsetpath, if_pos hsetpath]
          exact handleSetPathRequest_ne_none hsetpath
        · rw [if_neg hsetpath, if_neg hsetpath]
          split
          · exact handlePutGetRequest_ne_none
          · exact iff_of_true (by simp) trivial

theorem connectUnauthorized_ne_none : connectUnauthorized s pkt len ≠ none ↔
    ((obexFrameConnectPkt s obexConnectOpcode).1 = true → DigestsReturn { s with auth := true } pkt len) := by
  have hframe := Framed.frameConnectPkt s obexConnectOpcode
  rw [connectUnauthorized, obexConnectReq]
  generalize obexFrameConnectPkt s obexConnectOpcode = r at hframe ⊢
  obtain ⟨ok, t⟩ := r
  obtain ⟨n, k, rfl⟩ := hframe
  rcases ok with - | -
  · exact iff_of_true (by simp) (by simp)
  · rw [forall_prop_of_true rfl]
    dsimp only
    rw [if_pos rfl]
    dsimp only
    rw [if_pos rfl, map_ne_none, authenticateSession_ne_none]
    exact digestsReturn_congr rfl rfl

theorem connectSuccess_ne_none {m : ℕ} : connectSuccess s m pkt len ≠ none ↔
    if s.targetWho.isSome = true then
      obexGetUint32Header pkt len obexConnectidHdr ≠ none ∧
        (obexGetUint32Header pkt len obexConnectidHdr ≠ some obexInvalidUint32 → TargetReturns s pkt len)
    else DigestsReturn s pkt len := by
  rw [connectSuccess]
  dsimp only
  split
  · rw [obexStoreConnectionID]
    rcases hheader : obexGetUint32Header pkt len obexConnectidHdr with - | connID
    · exact iff_of_false (fun h => h rfl) fun h => h.1 rfl
    · rw [and_iff_right (by simp : some connID ≠ none), map_some, bind_some]
      by_cases hstored : connID = obexInvalidUint32
      · refine iff_of_true ?_ fun h => absurd (congrArg some hstored) h
        rw [hstored]
        simp
      · have hid : some connID ≠ some obexInvalidUint32 := fun h => hstored (some.inj h)
        rw [forall_prop_of_true hid]
        dsimp only
        rw [if_pos (decide_eq_true hstored), bind_map, TargetReturns]
        have hvalid : obexValidateSession { s with connID := connID } pkt len = obexValidateSession s pkt len := rfl
        rw [hvalid, validateSession_bind_ne_none (by rw [Function.comp_apply, if_neg Bool.false_ne_true]; simp)]
        refine and_congr_right fun _ => imp_congr_right fun _ => ?_
        rw [Function.comp_apply, if_pos rfl, map_ne_none, authenticateSession_ne_none]
        exact digestsReturn_congr rfl rfl
  · rw [bind_some]
    dsimp only
    rw [if_pos rfl, map_ne_none, authenticateSession_ne_none]

theorem handleConnectResponse_ne_none : obexHandleConnectResponse s pkt pktLen ≠ none ↔
    (obexPktConnectHdrSize ≤ pktLen →
      ConnectReturns s (pkt.getD 0 0) (pkt.drop obexPktConnectHdrSize) (pktLen - obexPktConnectHdrSize)) := by
  rw [obexHandleConnectResponse, ConnectReturns]
  dsimp only
  split
  · next h => exact iff_of_true (by simp) fun h' => absurd h (Nat.not_lt.mpr h')
  · next h =>
    rw [forall_prop_of_true (Nat.not_lt.mp h)]
    by_cases hunauthorized : pkt.getD 0 0 = ObexStatus.unauthorized ∧ ¬s.isObexInAuthConnect = true
    · rw [if_pos hunauthorized, if_pos rfl, if_pos (.inl hunauthorized)]
      exact connectUnauthorized_ne_none
    · rw [if_neg hunauthorized]
      by_cases hrsp : pkt.getD 0 0 = obexUnauthorizedRsp
      · rw [if_pos hrsp, if_pos (.inr hrsp)]
        exact connectUnauthorized_ne_none
      · rw [if_neg hrsp, if_neg (not_or.mpr ⟨hunauthorized, hrsp⟩)]
        split
        · exact connectSuccess_ne_none
        · exact iff_of_true (by simp) trivial

/-- The handler of a response returns exactly if its scans do. -/
theorem handleResponse_ne_none : obexHandleResponse s pkt pktLen ≠ none ↔ AnswerReturns s pkt pktLen := by
  rw [obexHandleResponse, AnswerReturns]
  rcases s.state with - | - | - | - | - | - | - | - | - | - | - | -
  case connect => exact handleConnectResponse_ne_none
  case authConnect => exact handleConnectResponse_ne_none
  case put => exact map_ne_none
  case get => exact map_ne_none
  all_goals exact iff_of_true (by simp) trivial

/-- The scans of the handler of a packet return. -/
def ScansReturn (s : Session) (pkt : List UInt8) (pktLen : ℕ) : Prop :=
  let s := s.emit (.received s.state pkt pktLen)
  if s.isObexServer = true then CommandReturns s pkt pktLen else AnswerReturns s pkt pktLen

theorem handlePacket_ne_none : handlePacket s pkt pktLen ≠ none ↔ ScansReturn s pkt pktLen := by
  rw [handlePacket, ScansReturn]
  split
  · exact handleCommand_ne_none
  · exact handleResponse_ne_none

/-! ### What a packet without octets leaves -/

/-- A request that declares no octets leaves some to the application: a PUT or GET whose length wraps around. -/
def CommandLeaves (s : Session) (pkt : List UInt8) : Prop :=
  let op := pkt.getD 0 0
  (op = obexPut ∨ op = obexPutFinal ∨ op = obexGet ∨ op = obexGetFinal) ∧ s.isObexReady = true ∧
    if s.isObexConnected = true then obexGetUint32Header (pkt.drop obexPktHdrSize) 65533 obexConnectidHdr = some s.connID
    else ¬(s.isObexInPut = true ∧ (op = obexGet ∨ op = obexGetFinal))

/-- A response that declares no octets leaves some to the application. -/
def AnswerLeaves (s : Session) (pkt : List UInt8) : Prop :=
  (s.state = .put ∨ s.state = .get) ∧ pkt.getD 0 0 ≠ obexSetPath

def Leaves (s : Session) (pkt : List UInt8) : Prop :=
  if s.isObexServer = true then CommandLeaves s pkt else AnswerLeaves s pkt

/-- The length that is left of a packet without octets, which is not a SETPATH. -/
theorem validate_zero {valid : Bool} (hop : pkt.getD 0 0 ≠ obexSetPath)
    (h : obexValidateConnectionID s pkt 0 = some (valid, n)) :
    n ≠ 0 ∧ (valid = true ↔ obexGetUint32Header (pkt.drop obexPktHdrSize) 65533 obexConnectidHdr = some s.connID) := by
  rw [obexValidateConnectionID] at h
  dsimp only at h
  rw [if_neg fun h' => hop h'.1, if_neg hop] at h
  obtain ⟨connID, hconn, h⟩ := map_eq_some_iff.mp h
  obtain ⟨hvalid, hn⟩ := Prod.mk.inj h
  have hconn' : obexGetUint32Header (pkt.drop obexPktHdrSize) 65533 obexConnectidHdr = some connID := hconn
  constructor
  · rw [← hn]
    split
    · decide
    · decide
  · rw [← hvalid, hconn', decide_eq_true_iff, some.injEq]
    exact eq_comm

theorem handlePutGetRequest_zero (hop : pkt.getD 0 0 ≠ obexSetPath)
    (h : obexHandlePutGetRequest s pkt 0 = some (n, t)) : n ≠ 0 ↔ s.isObexReady = true ∧
      if s.isObexConnected = true then
        obexGetUint32Header (pkt.drop obexPktHdrSize) 65533 obexConnectidHdr = some s.connID
      else ¬(s.isObexInPut = true ∧ (pkt.getD 0 0 = obexGet ∨ pkt.getD 0 0 = obexGetFinal)) := by
  rw [obexHandlePutGetRequest] at h
  split at h
  · next hready =>
    rw [and_iff_right hready]
    split at h
    · next hconnected =>
      rw [if_pos hconnected]
      obtain ⟨⟨valid, m⟩, hvalidate, heq⟩ := map_eq_some_iff.mp h
      obtain ⟨hm, hvalid⟩ := validate_zero hop hvalidate
      rw [← hvalid]
      dsimp only at heq
      split at heq
      · next htrue => exact iff_of_true ((Prod.mk.inj heq).1 ▸ hm) htrue
      · next hfalse => exact iff_of_false (not_not.mpr (Prod.mk.inj heq).1.symm) hfalse
    · next hconnected =>
      rw [if_neg hconnected]
      split at h
      · next hget => exact iff_of_false (not_not.mpr (Prod.mk.inj (some.inj h)).1.symm) (not_not.mpr hget)
      · next hget =>
        refine iff_of_true ?_ hget
        rw [← (Prod.mk.inj (some.inj h)).1]
        decide
  · next hready =>
    exact iff_of_false (not_not.mpr (Prod.mk.inj (some.inj h)).1.symm) fun h' => hready h'.1

/-- A SETPATH without octets is refused. -/
theorem handleSetPathRequest_zero (hop : pkt.getD 0 0 = obexSetPath)
    (h : obexHandleSetPathRequest s pkt 0 = some (n, t)) : n = 0 := by
  have hshort : obexValidateConnectionID s pkt 0 = some (false, 0) := if_pos ⟨hop, by decide⟩
  rw [obexHandleSetPathRequest, hshort] at h
  split at h
  · exact (Prod.mk.inj (some.inj h)).1.symm
  · exact (Prod.mk.inj (some.inj h)).1.symm

theorem handleCommand_zero (h : obexHandleCommand s pkt 0 = some (n, t)) : n ≠ 0 ↔ CommandLeaves s pkt := by
  rw [CommandLeaves]
  by_cases hop : pkt.getD 0 0 = obexPut ∨ pkt.getD 0 0 = obexPutFinal ∨ pkt.getD 0 0 = obexGet ∨
      pkt.getD 0 0 = obexGetFinal
  · have hother : ¬pkt.getD 0 0 = obexConnectOpcode ∧ ¬pkt.getD 0 0 = obexDisconnect ∧ ¬pkt.getD 0 0 = obexAbort ∧
        ¬pkt.getD 0 0 = obexSetPath := by
      rcases hop with hop | hop | hop | hop <;> rw [hop] <;> decide
    rw [obexHandleCommand, if_neg hother.1, if_neg hother.2.1, if_neg hother.2.2.1, if_neg hother.2.2.2, if_pos hop] at h
    rw [and_iff_right hop]
    exact handlePutGetRequest_zero hother.2.2.2 h
  · refine iff_of_false (not_not.mpr ?_) fun h' => hop h'.1
    rw [obexHandleCommand] at h
    split at h
    · obtain ⟨r, -, heq⟩ := map_eq_some_iff.mp h
      exact (Prod.mk.inj heq).1.symm
    · split at h
      · obtain ⟨r, -, heq⟩ := map_eq_some_iff.mp h
        exact (Prod.mk.inj heq).1.symm
      · split at h
        · exact (Prod.mk.inj (some.inj h)).1.symm
        · split at h
          · next hsetpath => exact handleSetPathRequest_zero hsetpath h
          · exact (Prod.mk.inj (some.inj h)).1.symm

theorem handleGetPutResponse_zero (h : obexHandleGetPutResponse s pkt 0 = some (n, t)) :
    n ≠ 0 ↔ pkt.getD 0 0 ≠ obexSetPath := by
  rw [obexHandleGetPutResponse] at h
  obtain ⟨⟨valid, m⟩, hvalidate, heq⟩ := map_eq_some_iff.mp h
  rw [← (Prod.mk.inj heq).1]
  by_cases hop : pkt.getD 0 0 = obexSetPath
  · have hshort : obexValidateConnectionID s pkt 0 = some (false, 0) := if_pos ⟨hop, by decide⟩
    have hm : m = 0 := (Prod.mk.inj (some.inj (hvalidate.symm.trans hshort))).2
    exact iff_of_false (not_not.mpr hm) (not_not.mpr hop)
  · exact iff_of_true (validate_zero hop hvalidate).1 hop

theorem handleResponse_zero (h : obexHandleResponse s pkt 0 = some (n, t)) : n ≠ 0 ↔ AnswerLeaves s pkt := by
  have hconnect : ∀ r, obexHandleConnectResponse s pkt 0 = some r → r.1 = 0 := by
    intro r hr
    have hr' : some (0, obexConnectCfm s ObexStatus.invalidResponse) = some r := hr
    rw [← some.inj hr']
  rw [obexHandleResponse] at h
  rw [AnswerLeaves]
  rcases hstate : s.state with - | - | - | - | - | - | - | - | - | - | - | -
  case connect =>
    rw [hstate] at h
    exact iff_of_false (not_not.mpr (hconnect _ h)) fun h' => h'.1.elim (by simp) (by simp)
  case authConnect =>
    rw [hstate] at h
    exact iff_of_false (not_not.mpr (hconnect _ h)) fun h' => h'.1.elim (by simp) (by simp)
  case put =>
    rw [hstate] at h
    rw [and_iff_right (.inl rfl)]
    exact handleGetPutResponse_zero h
  case get =>
    rw [hstate] at h
    rw [and_iff_right (.inr rfl)]
    exact handleGetPutResponse_zero h
  all_goals
    rw [hstate] at h
    exact iff_of_false (not_not.mpr (Prod.mk.inj (some.inj h)).1.symm) fun h' => h'.1.elim (by simp) (by simp)

theorem handlePacket_zero (h : handlePacket s pkt 0 = some (n, t)) : n ≠ 0 ↔ Leaves s pkt := by
  rw [handlePacket] at h
  rw [Leaves]
  split at h
  · next hserver =>
    rw [if_pos (show s.isObexServer = true from hserver)]
    have hzero : n ≠ 0 ↔ CommandLeaves (s.emit (.received s.state pkt 0)) pkt := handleCommand_zero h
    exact hzero
  · next hserver =>
    rw [if_neg (show ¬s.isObexServer = true from hserver)]
    have hzero : n ≠ 0 ↔ AnswerLeaves (s.emit (.received s.state pkt 0)) pkt := handleResponse_zero h
    exact hzero

/-! ### The loop -/

/-- A turn of the loop breaks, removes octets of the source or leaves some to the application. -/
def Progresses (s : Session) (beyond : List UInt8) : Prop :=
  ∃ goesOn s', incomingIteration s beyond = some (goesOn, s') ∧
    (goesOn = true → s'.source.length < s.source.length ∨ s'.srcUsed ≠ 0)

/-- The session has a complete packet of an admissible size, which a turn hands to its handler. -/
def Dispatches (s : Session) (beyond : List UInt8) : Prop :=
  obexPktHdrSize ≤ s.sourceBoundary ∧ s.srcUsed = 0 ∧ uint8ToUint16 (s.sourceMap beyond) 1 ≤ s.maxPktLen ∧
    uint8ToUint16 (s.sourceMap beyond) 1 ≤ s.sourceBoundary

/-- The handler of the packet returns, and a packet that declares no octets leaves some. -/
def Handled (s : Session) (beyond : List UInt8) : Prop :=
  Dispatches s beyond → ScansReturn s (s.sourceMap beyond) (uint8ToUint16 (s.sourceMap beyond) 1) ∧
    (uint8ToUint16 (s.sourceMap beyond) 1 = 0 → Leaves s (s.sourceMap beyond))

theorem incomingIteration_of_dispatches (h : Dispatches s beyond) : incomingIteration s beyond =
    (handlePacket s (s.sourceMap beyond) (uint8ToUint16 (s.sourceMap beyond) 1)).map fun (srcUsed, t) =>
      (true, (t.sourceDrop (u16 (uint8ToUint16 (s.sourceMap beyond) 1 - srcUsed))).setSrcUsed srcUsed) := by
  obtain ⟨hhdr, hused, hmax, hboundary⟩ := h
  rw [incomingIteration, if_pos ⟨hhdr, hused⟩]
  dsimp only
  rw [if_neg (Nat.not_lt.mpr hmax), if_neg (Nat.not_lt.mpr hboundary)]

theorem incomingIteration_of_not (h : ¬Dispatches s beyond) : ∃ s', incomingIteration s beyond = some (false, s') := by
  rw [incomingIteration]
  split
  · next hpacket =>
    dsimp only
    split
    · exact ⟨_, rfl⟩
    · next hmax =>
      split
      · exact ⟨_, rfl⟩
      · next hboundary => exact absurd ⟨hpacket.1, hpacket.2, Nat.not_lt.mp hmax, Nat.not_lt.mp hboundary⟩ h
  · exact ⟨_, rfl⟩

/-- A turn gets on exactly if its packet is handled. -/
theorem progresses_iff : Progresses s beyond ↔ Handled s beyond := by
  rw [Handled]
  by_cases hdispatches : Dispatches s beyond
  · rw [forall_prop_of_true hdispatches, ← handlePacket_ne_none]
    rw [Progresses, incomingIteration_of_dispatches hdispatches]
    obtain ⟨hhdr, hused, -, hboundary⟩ := hdispatches
    generalize hlen : uint8ToUint16 (s.sourceMap beyond) 1 = pktLen at hboundary ⊢
    rcases hhandle : handlePacket s (s.sourceMap beyond) pktLen with - | ⟨n, t⟩
    · exact iff_of_false (fun ⟨_, _, h, _⟩ => absurd h (by simp)) fun h => h.1 rfl
    · obtain ⟨hsource, -⟩ := Unread.handlePacket hhandle hused
      rw [and_iff_right (by simp : some (n, t) ≠ none)]
      have hfull : 3 ≤ s.source.length := (Nat.le_min.mp hhdr).1
      have hstep : (∃ goesOn s', some (true, (t.sourceDrop (u16 (pktLen - n))).setSrcUsed n) = some (goesOn, s') ∧
          (goesOn = true → s'.source.length < s.source.length ∨ s'.srcUsed ≠ 0)) ↔
            (s.source.drop (u16 (pktLen - n))).length < s.source.length ∨ n ≠ 0 := by
        rw [← hsource]
        constructor
        · rintro ⟨goesOn, s', heq, h⟩
          obtain ⟨rfl, rfl⟩ := Prod.mk.inj (some.inj heq)
          exact h rfl
        · exact fun h => ⟨true, _, rfl, fun _ => h⟩
      rw [map_some, hstep, List.length_drop]
      rcases Nat.eq_zero_or_pos pktLen with hzero | hpos
      · subst hzero
        have hleaves := handlePacket_zero hhandle
        rw [forall_prop_of_true rfl, ← hleaves]
        constructor
        · rintro (hlt | hn)
          · intro hn
            rw [hn] at hlt
            have h0 : u16 ((0 : ℕ) - (0 : ℕ)) = 0 := rfl
            rw [h0] at hlt
            omega
          · exact hn
        · exact .inr
      · refine iff_of_true ?_ fun h => absurd h (Nat.ne_of_gt hpos)
        rcases Nat.eq_zero_or_pos n with hn | hn
        · left
          have hsmall : pktLen < 65536 := hlen ▸ uint8ToUint16_lt _ _
          have hall : u16 ((pktLen : ℤ) - (n : ℤ)) = pktLen := by
            rw [u16, hn]
            omega
          rw [hall]
          omega
        · exact .inr (Nat.ne_of_gt hn)
  · obtain ⟨s', hs'⟩ := incomingIteration_of_not hdispatches
    exact iff_of_true ⟨false, s', hs', (by simp)⟩ fun h => absurd h hdispatches

/-- The sessions in which a turn of the loop begins. -/
inductive Turned (beyond : List UInt8) (s : Session) : Session → Prop
  | first : Turned beyond s s
  | next {t u : Session} : Turned beyond s t → incomingIteration t beyond = some (true, u) → Turned beyond s u

/-- The loop comes to its end. -/
inductive LoopEnds (beyond : List UInt8) : Session → Prop
  | last {s t : Session} : incomingIteration s beyond = some (false, t) → LoopEnds beyond s
  | turn {s t : Session} : incomingIteration s beyond = some (true, t) → LoopEnds beyond t → LoopEnds beyond s

/-- **The promise** of the receive loop: every turn gets on, and the loop ends. -/
def Receives (s : Session) (beyond : List UInt8) : Prop :=
  LoopEnds beyond s ∧ ∀ t, Turned beyond s t → Progresses t beyond

/-- The turn after one that leaves octets to the application breaks. -/
theorem loopEnds_of_used (h : s.srcUsed ≠ 0) : LoopEnds beyond s := by
  obtain ⟨t, ht⟩ := @incomingIteration_of_not s beyond fun h' => h h'.2.1
  exact .last ht

/-- The loop ends if every turn gets on, since the source does not last. -/
theorem loopEnds_of_progress (h : ∀ t, Turned beyond s t → Progresses t beyond) : LoopEnds beyond s := by
  induction hlen : s.source.length using Nat.strong_induction_on generalizing s with
  | _ n ih =>
    obtain ⟨goesOn, t, ht, hprogress⟩ := h s .first
    rcases goesOn with - | -
    · exact .last ht
    · refine .turn ht ?_
      rcases hprogress rfl with hlt | hused
      · refine ih _ (hlen ▸ hlt) (fun u hu => h u ?_) rfl
        induction hu with
        | first => exact .next .first ht
        | next _ hnext ihu => exact .next ihu hnext
      · exact loopEnds_of_used hused

/-- The loop keeps its promise exactly if the packets of all its turns are handled. -/
theorem receives_iff (s : Session) (beyond : List UInt8) :
    Receives s beyond ↔ ∀ t, Turned beyond s t → Handled t beyond := by
  constructor
  · exact fun h t ht => progresses_iff.mp (h.2 t ht)
  · intro h
    have hprogress : ∀ t, Turned beyond s t → Progresses t beyond := fun t ht => progresses_iff.mpr (h t ht)
    exact ⟨loopEnds_of_progress hprogress, hprogress⟩

/-- A connected server is sent an ABORT packet whose length field is zero. -/
theorem not_receives : ¬∀ s beyond, Receives s beyond := by
  intro h
  let s : Session := { serverSession ⟨none, false⟩ ⟨[], 100, by decide⟩ [0xFF, 0, 0] 100 with state := .connected }
  obtain ⟨goesOn, t, ht, hprogress⟩ := (h s []).2 s .first
  have hturn : (incomingIteration s []).all fun r =>
      r.1 && decide (r.2.source.length = s.source.length) && decide (r.2.srcUsed = 0) := by decide
  rw [ht] at hturn
  simp only [all_some, Bool.and_eq_true, decide_eq_true_eq] at hturn
  rcases hprogress hturn.1.1 with hlt | hused
  · exact absurd hturn.1.2 (Nat.ne_of_lt hlt)
  · exact hused hturn.2

end Cbps.Obex
