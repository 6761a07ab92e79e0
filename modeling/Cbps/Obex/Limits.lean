import Cbps.Obex.Allocation

/-!
# Packets under the limit

A session keeps its packet under the limit that was negotiated, through every action that does not lower the limit under
a packet that is being framed: `inBounds_of_run`. `Adopts` says which packets lower it. With the results on allocation
this is `allocates_iff`.
-/

namespace Cbps.Obex

open Option

variable {s t : Session} {pkt : List UInt8} {len : ℕ}

variable {r : ℕ × Session}

namespace Room

/-! ### Packets of the server -/

theorem sendResponse (h : Room s 0) (response : ObexStatus) : Room (obexSendResponse s response) 0 := by
  have hnew := h.newPacket 0 obexPut
  rw [obexSendResponse]
  generalize obexNewPacket s 0 obexPut = r at hnew ⊢
  obtain ⟨n, t⟩ := r
  dsimp only at hnew ⊢
  have hframe : Room (if s.pktLen ≠ 0 then (true, s) else (decide (n ≠ 0), t)).2 0 := by
    split
    · exact h
    · exact hnew
  generalize (if s.pktLen ≠ 0 then (true, s) else (decide (n ≠ 0), t)) = r at hframe ⊢
  generalize (if response = ObexStatus.success then ObexStatus.remoteSuccess
    else if response < ObexStatus.continue then ObexStatus.unknownError else response) = octet
  have hsent : Room (if r.1 then obexFlushPacket r.2 octet else r.2) 0 := .ite (flushPacket _ _) hframe
  exact .ite hsent (hsent.same (.setState _ _))

theorem sendErrorResponse (h : Room s 0) (response : ObexStatus) : Room (obexSendErrorResponse s response) 0 := by
  have hnew := (h.same (.setState s .connected)).newPacket obexPktHdrSize obexPut
  rw [obexSendErrorResponse]
  exact .ite (flushPacket _ _) hnew

theorem frameConnectPkt (h : Room s 0) (opcode : UInt8) : Room (obexFrameConnectPkt s opcode).2 0 := by
  have hnew := h.newPacket (connectDataLen s opcode) obexConnectOpcode
  rw [obexFrameConnectPkt]
  generalize obexNewPacket s (connectDataLen s opcode) obexConnectOpcode = r at hnew ⊢
  obtain ⟨n, t⟩ := r
  dsimp only at hnew ⊢
  split
  · exact hnew
  · have hheader : Room (t.storeConnectHeader opcode) 0 := ((hnew.store _ _).store _ _).store _ _
    split
    · exact hheader.addSeqHeader _ _
    · exact hheader

theorem connectReply (h : Room s 0) (response : ObexStatus) : Room (connectReply s response) 0 := by
  have hframe := h.frameConnectPkt response
  rw [Obex.connectReply]
  generalize obexFrameConnectPkt s response = r at hframe ⊢
  obtain ⟨ok, t⟩ := r
  dsimp only at hframe ⊢
  split
  · exact hframe
  · have hsent : Room (if ok then obexFlushPacket t response else t) 0 := .ite (flushPacket _ _) hframe
    exact (Room.ite (hsent.same (.setState _ _)) hsent).same (.connectCfm _ _)

theorem sendAuthPacket (h : Room s 0) (hdr : UInt8) (src : List UInt8) : Room (obexSendAuthPacket s hdr src) 0 := by
  have hadd : Room (if src.length ≠ 0 then obexAddSeqHeader s hdr src else (true, s)).2 0 := by
    split
    · exact h.addSeqHeader _ _
    · exact h
  rw [obexSendAuthPacket]
  generalize (if src.length ≠ 0 then obexAddSeqHeader s hdr src else (true, s)) = r at hadd ⊢
  obtain ⟨ok, t⟩ := r
  dsimp only at hadd ⊢
  generalize hu : (if hdr = obexAuthChallenge then t.setState .authConnect else { t with auth := false }) = u
  have hmarked : Room u 0 := hu ▸ .ite (hadd.same (.setState _ _)) (hadd.same ⟨rfl, rfl, rfl⟩)
  generalize (if u.auth then obexUnauthorizedRsp else ObexStatus.remoteSuccess) = response
  have hflushed := flushPacket u response
  exact .ite (.ite (.ite (hflushed.same (.connectCfm _ _)) hflushed) (.ite (flushPacket _ _) hmarked))
    (hadd.same (.connectCfm _ _))

theorem of_some {n : ℕ} (h : Room t 0) (hr : some (n, t) = some r) : Room r.2 0 := by
  obtain rfl := some.inj hr
  exact h

theorem abortRequest (h : Room s 0) : Room (obexHandleAbortRequest s) 0 := by
  have hind : Room (if s.isObexInPut ∨ s.isObexInGet then obexAbortInd s else s) 0 := .ite (h.same (.emit s _)) h
  rw [obexHandleAbortRequest]
  exact hind.sendResponse _

theorem disconnectRequest (h : Room s 0) (hr : obexHandleDisconnectRequest s pkt len = some t) : Room t 0 := by
  obtain ⟨⟨valid, n⟩, -, rfl⟩ := map_eq_some_iff.mp hr
  refine .ite ?_ (h.sendErrorResponse _)
  exact (of_empty rfl).same (.deleteSessionInd _)

theorem handleSetPathRequest (h : Room s 0) (hr : obexHandleSetPathRequest s pkt len = some r) :
    Room r.2 0 := by
  have hind : ∀ final n, Room (obexCommandInd (s.setState .setpath) .setPathInd final n) 0 :=
    fun _ _ => h.same ⟨rfl, rfl, rfl⟩
  rw [obexHandleSetPathRequest] at hr
  split at hr
  · obtain ⟨⟨valid, n⟩, -, hr⟩ := bind_eq_some_iff.mp hr
    dsimp only at hr
    split at hr
    · split at hr
      · exact (hind _ _).of_some hr
      · obtain ⟨⟨name, m⟩, -, rfl⟩ := map_eq_some_iff.mp hr
        exact hind _ _
    · exact (h.sendResponse _).of_some hr
  · exact (h.sendResponse _).of_some hr

theorem putGetInd (h : Room s 0) (cmd : UInt8) (n : ℕ) : Room (putGetInd s cmd n) 0 :=
  .ite (h.same ⟨rfl, rfl, rfl⟩) (h.same ⟨rfl, rfl, rfl⟩)

theorem putGetRequest (h : Room s 0) (hr : obexHandlePutGetRequest s pkt len = some r) :
    Room r.2 0 := by
  rw [obexHandlePutGetRequest] at hr
  dsimp only at hr
  split at hr
  · split at hr
    · obtain ⟨⟨valid, n⟩, -, rfl⟩ := map_eq_some_iff.mp hr
      dsimp only
      split
      · exact h.putGetInd _ _
      · have hsent := h.sendResponse ObexStatus.srvUnavailable
        exact hsent
    · split at hr
      · exact (h.sendResponse _).of_some hr
      · exact (h.putGetInd _ _).of_some hr
  · exact (h.sendResponse _).of_some hr

end Room

/-! ### A CONNECT that lowers the limit -/

/-- The packet makes the session adopt the limit in it: a CONNECT for the Target of a server, or a CONNECT response of
success that a client accepts. -/
def Adopts (s : Session) (pkt : List UInt8) (len : ℕ) : Prop :=
  s.isObexConnecting ∧ obexPktConnectHdrSize ≤ len ∧
    let headers := pkt.drop obexPktConnectHdrSize
    let n := len - obexPktConnectHdrSize
    if s.isObexServer then
      pkt.getD 0 0 = obexConnectOpcode ∧ s.targetWho.isSome ∧ obexValidateSession s headers n = some true
    else
      pkt.getD 0 0 = ObexStatus.remoteSuccess ∧ (s.targetWho.isSome →
        (∃ connID, obexGetUint32Header headers n obexConnectidHdr = some connID ∧ connID ≠ obexInvalidUint32) ∧
          obexValidateSession s headers n = some true)

/-- A limit that is adopted leaves room for the packet that is being framed. -/
def AdmitsPacket (s : Session) (pkt : List UInt8) (len : ℕ) : Prop :=
  Adopts s pkt len → s.pktLen ≤ uint8ToUint16 pkt 5

namespace Room

theorem lowered (h : Room s 0) {m : ℕ} (hm : s.pktLen ≤ m) : Room { s with maxPktLen := min m s.maxPktLen } 0 where
  packet := h.packet
  limit := Nat.le_min.mpr ⟨hm, h.limit⟩
  sink := h.sink

theorem connectRequest (h : Room s 0) (hserver : s.isObexServer)
    (hop : pkt.getD 0 0 = obexConnectOpcode) (hadmits : AdmitsPacket s pkt len)
    (hr : obexHandleConnectRequest s pkt len = some r) : Room r.2 0 := by
  obtain ⟨⟨response, t⟩, ht, rfl⟩ := map_eq_some_iff.mp hr
  refine connectReply (s := t) ?_ response
  rw [connectResponse] at ht
  split at ht
  · obtain ⟨-, rfl⟩ := Prod.mk.inj (some.inj ht)
    exact h
  · next hlen =>
    split at ht
    · next hconnecting =>
      split at ht
      · next htarget =>
        obtain ⟨valid, hvalid, ht⟩ := bind_eq_some_iff.mp ht
        dsimp only at ht
        split at ht
        · next htrue =>
          subst htrue
          have hlow := h.lowered (hadmits ⟨hconnecting, Nat.le_of_not_lt hlen, by
            dsimp only
            rw [if_pos hserver]
            exact ⟨hop, htarget, hvalid⟩⟩)
          obtain ⟨⟨ok, n, u⟩, hu, heq⟩ := map_eq_some_iff.mp ht
          have hsame := hlow.same (SamePacket.authenticateSession hu)
          dsimp only at heq hsame
          split at heq
          · exact (Prod.mk.inj heq).2 ▸ hsame
          · split at heq
            · exact (Prod.mk.inj heq).2 ▸ hsame
            · exact (Prod.mk.inj heq).2 ▸ hsame
        · exact (Prod.mk.inj (some.inj ht)).2 ▸ h
      · exact (Prod.mk.inj (some.inj ht)).2 ▸ h
    · exact (Prod.mk.inj (some.inj ht)).2 ▸ h

theorem handleCommand (h : Room s 0) (hserver : s.isObexServer) (hadmits : AdmitsPacket s pkt len)
    (hr : obexHandleCommand s pkt len = some r) : Room r.2 0 := by
  rw [obexHandleCommand] at hr
  split at hr
  · next hop => exact h.connectRequest hserver hop hadmits hr
  · split at hr
    · obtain ⟨t, ht, rfl⟩ := map_eq_some_iff.mp hr
      exact h.disconnectRequest ht
    · split at hr
      · exact h.abortRequest.of_some hr
      · split at hr
        · exact h.handleSetPathRequest hr
        · split at hr
          · exact h.putGetRequest hr
          · exact (h.sendErrorResponse _).of_some hr

/-! ### Packets of a client -/

theorem disconnectReq (s : Session) (h : Room s 0) : Room (obexDisconnectReq s) 0 := by
  rw [obexDisconnectReq]
  have hnew : Room (obexNewPacket ((s.setPktLen 0).setState .disconnect) 0 obexDisconnect).2 0 :=
    newPacket (of_empty rfl) _ _
  exact .ite (.ite (flushPacket _ _) (hnew.same ⟨rfl, rfl, rfl⟩)) (h.same ⟨rfl, rfl, rfl⟩)

theorem connectReq (h : Room s 0) (flush : Bool) : Room (obexConnectReq s flush).2 0 := by
  have hframe := h.frameConnectPkt obexConnectOpcode
  rw [obexConnectReq]
  generalize obexFrameConnectPkt s obexConnectOpcode = r at hframe ⊢
  obtain ⟨ok, t⟩ := r
  dsimp only at hframe ⊢
  split
  · exact .ite (flushPacket _ _) hframe
  · have hcfm := hframe.same (.connectCfm t ObexStatus.failure)
    exact hcfm

theorem connectUnauthorized (h : Room s 0) (hr : connectUnauthorized s pkt len = some r) :
    Room r.2 0 := by
  have hreq := h.connectReq false
  rw [Obex.connectUnauthorized] at hr
  generalize obexConnectReq s false = q at hreq hr
  obtain ⟨ok, t⟩ := q
  dsimp only at hreq hr
  split at hr
  · obtain ⟨⟨authenticated, n, u⟩, hu, rfl⟩ := map_eq_some_iff.mp hr
    have hauth : Room { t with auth := true } 0 := hreq.same ⟨rfl, rfl, rfl⟩
    have hsame : Room u 0 := hauth.same (SamePacket.authenticateSession hu)
    exact .ite hsame (hsame.same (.connectCfm _ _))
  · exact hreq.of_some hr

theorem connectSuccess (h : Room s 0) (hadmits : AdmitsPacket s pkt len) (hclient : ¬ s.isObexServer)
    (hconnecting : s.isObexConnecting) (hlen : obexPktConnectHdrSize ≤ len)
    (hop : pkt.getD 0 0 = ObexStatus.remoteSuccess)
    (hr : connectSuccess s (uint8ToUint16 pkt 5) (pkt.drop obexPktConnectHdrSize) (len - obexPktConnectHdrSize) =
      some r) : Room r.2 0 := by
  rw [Obex.connectSuccess] at hr
  dsimp only at hr
  obtain ⟨⟨accepted, t⟩, hchecked, hr⟩ := bind_eq_some_iff.mp hr
  have haccepted : SamePacket s t ∧ (accepted → Adopts s pkt len) := by
    have hadopts : (s.targetWho.isSome →
        (∃ connID, obexGetUint32Header (pkt.drop obexPktConnectHdrSize) (len - obexPktConnectHdrSize)
            obexConnectidHdr = some connID ∧ connID ≠ obexInvalidUint32) ∧
          obexValidateSession s (pkt.drop obexPktConnectHdrSize) (len - obexPktConnectHdrSize) = some true) →
        Adopts s pkt len := by
      intro h
      refine ⟨hconnecting, hlen, ?_⟩
      dsimp only
      rw [if_neg hclient]
      exact ⟨hop, h⟩
    split at hchecked
    · obtain ⟨⟨stored, u⟩, hstore, hvalid⟩ := bind_eq_some_iff.mp hchecked
      obtain ⟨connID, hget, hu⟩ := map_eq_some_iff.mp hstore
      have hsame : SamePacket s u := (Prod.mk.inj hu).2 ▸ ⟨rfl, rfl, rfl⟩
      dsimp only at hvalid
      split at hvalid
      · next htrue =>
        obtain ⟨valid, hv, heq⟩ := map_eq_some_iff.mp hvalid
        obtain ⟨rfl, rfl⟩ := Prod.mk.inj heq
        have hconnID : connID ≠ obexInvalidUint32 := of_decide_eq_true ((Prod.mk.inj hu).1.trans htrue)
        refine ⟨hsame, fun hvalid => hadopts fun _ => ⟨⟨connID, hget, hconnID⟩, ?_⟩⟩
        -- the validation looks at the role and the Target only
        rw [← (Prod.mk.inj hu).2] at hv
        exact hvalid ▸ hv
      · obtain ⟨rfl, rfl⟩ := Prod.mk.inj (some.inj hvalid)
        exact ⟨hsame, (by simp)⟩
    · next htarget =>
      obtain ⟨rfl, rfl⟩ := Prod.mk.inj (some.inj hchecked)
      exact ⟨.refl s, fun _ => hadopts fun h => absurd h htarget⟩
  dsimp only at hr
  split at hr
  · next htrue =>
    obtain ⟨⟨authenticated, n, u⟩, hu, rfl⟩ := map_eq_some_iff.mp hr
    have hsame := haccepted.1.trans (SamePacket.authenticateSession hu)
    have hm := hadmits (haccepted.2 htrue)
    have hlow : Room { u with maxPktLen := min (uint8ToUint16 pkt 5) u.maxPktLen } 0 :=
      (h.same hsame).lowered (hsame.pktLen ▸ hm)
    have hcfm := hlow.same (.connectCfm _ ObexStatus.remoteSuccess)
    exact hcfm
  · exact ((h.same haccepted.1).same (.connectCfm _ _)).of_some hr

theorem handleConnectResponse (h : Room s 0) (hadmits : AdmitsPacket s pkt len)
    (hclient : ¬ s.isObexServer) (hconnecting : s.isObexConnecting)
    (hr : obexHandleConnectResponse s pkt len = some r) : Room r.2 0 := by
  rw [obexHandleConnectResponse] at hr
  dsimp only at hr
  split at hr
  · exact (h.same (.connectCfm _ _)).of_some hr
  · next hlen =>
    have hsuccess : (if pkt.getD 0 0 = ObexStatus.unauthorized ∧ ¬ s.isObexInAuthConnect then obexUnauthorizedRsp
        else pkt.getD 0 0) = ObexStatus.remoteSuccess → pkt.getD 0 0 = ObexStatus.remoteSuccess := by
      split
      · exact fun h => absurd h (by decide)
      · exact id
    generalize (if pkt.getD 0 0 = ObexStatus.unauthorized ∧ ¬ s.isObexInAuthConnect then obexUnauthorizedRsp
      else pkt.getD 0 0) = response at hsuccess hr
    split at hr
    · exact h.connectUnauthorized hr
    · split at hr
      · next hop =>
        exact h.connectSuccess hadmits hclient hconnecting (Nat.le_of_not_lt hlen) (hsuccess hop) hr
      · exact (h.same (.connectCfm _ _)).of_some hr

theorem handleGetPutResponse (h : Room s 0) (hr : obexHandleGetPutResponse s pkt len = some r) :
    Room r.2 0 := by
  obtain ⟨⟨valid, n⟩, -, rfl⟩ := map_eq_some_iff.mp hr
  exact .ite (h.same ⟨rfl, rfl, rfl⟩) (h.same ⟨rfl, rfl, rfl⟩)

theorem handleAbortResponse (h : Room s 0) (status : ObexStatus) : Room (obexHandleAbortResponse s status) 0 := by
  rw [obexHandleAbortResponse]
  generalize (if status = ObexStatus.remoteSuccess then ObexStatus.localAbort else status) = status
  generalize (if s.state = .abortPut then ObexMessageId.putCfm else .getCfm) = id
  have hcfm : Room ((obexStatusCfm s status id 0).setState .connected) 0 := h.same ⟨rfl, rfl, rfl⟩
  exact .ite (disconnectReq _ hcfm) hcfm

theorem handleResponse (h : Room s 0) (hadmits : AdmitsPacket s pkt len)
    (hclient : ¬ s.isObexServer) (hr : obexHandleResponse s pkt len = some r) : Room r.2 0 := by
  have hcfm : ∀ id, Room (obexStatusCfm (s.setState .connected) (pkt.getD 0 0) id 0) 0 := fun _ => h.same ⟨rfl, rfl, rfl⟩
  rw [obexHandleResponse] at hr
  split at hr
  case h_1 hstate =>
    exact h.handleConnectResponse hadmits hclient (by simp [Session.isObexConnecting, hstate]) hr
  case h_2 hstate =>
    exact h.handleConnectResponse hadmits hclient (by simp [Session.isObexConnecting, hstate]) hr
  case h_3 => exact (h.same (.deleteSessionInd _)).of_some hr
  case h_4 => exact (h.handleAbortResponse _).of_some hr
  case h_5 => exact (h.handleAbortResponse _).of_some hr
  case h_6 => exact (hcfm _).of_some hr
  case h_7 => exact (hcfm _).of_some hr
  case h_8 => exact h.handleGetPutResponse hr
  case h_9 => exact h.handleGetPutResponse hr
  all_goals exact h.of_some hr

/-! ### Requests of the application -/

theorem refused (s : Session) (status : ObexStatus) (id : ObexMessageId) :
    Room (obexStatusCfm (s.setPktLen 0) status id 0) 0 :=
  .of_empty rfl

theorem sent (s : Session) (opcode : UInt8) (st : ObexState) : Room ((obexFlushPacket s opcode).setState st) 0 :=
  (flushPacket s opcode).same (.setState _ _)

theorem putReq (s : Session) (opcode : UInt8) : Room (obexPutReq s opcode) 0 := by
  rw [obexPutReq]
  exact .ite (.ite (refused _ _ _) (sent _ _ _)) (refused _ _ _)

theorem getReq (s : Session) (opcode : UInt8) : Room (obexGetReq s opcode) 0 := by
  rw [obexGetReq]
  exact .ite (.ite (refused _ _ _) (sent _ _ _)) (refused _ _ _)

theorem abortReq (h : Room s 0) : Room (obexAbortReq s) 0 := by
  rw [obexAbortReq]
  exact .ite (.ite ((flushPacket _ _).same (.setState _ _)) (h.newPacket _ _)) h

theorem setPathRequest {flags : ObexFolderPath} {folderName : List UInt8} (h : Room s 0)
    (hr : obexSetPathRequest s flags folderName = some t) : Room t 0 := by
  rw [obexSetPathRequest] at hr
  generalize (if flags = .folderRoot then [] else folderName) = name at hr
  generalize (if flags = .folderRoot then ObexFolderPath.folderIn else flags) = flags at hr
  dsimp only at hr
  split at hr
  · obtain rfl := some.inj hr
    exact (h.newPacket _ _).same ⟨rfl, rfl, rfl⟩
  · obtain ⟨⟨ok, u⟩, hu, rfl⟩ := map_eq_some_iff.mp hr
    rw [obexSetPathReq]
    exact .ite (.ite (sent _ _ _) (refused _ _ _)) (.of_empty (pktLen_objFlush _ _))

theorem deleteRequest {objName : List UInt8} {before : UInt8} (h : Room s 0)
    (hr : obexDeleteRequest s objName before = some t) : Room t 0 := by
  rw [obexDeleteRequest] at hr
  dsimp only at hr
  split at hr
  · obtain rfl := some.inj hr
    exact (h.newPacket _ _).same ⟨rfl, rfl, rfl⟩
  · obtain ⟨⟨ok, u⟩, hu, rfl⟩ := map_eq_some_iff.mp hr
    rw [obexDeleteReq]
    exact .ite (.ite (sent _ _ _) (refused _ _ _)) (.of_empty (pktLen_objFlush _ _))

theorem request {r : Request} (h : Room s 0) (hr : request s r = some t) : Room t 0 := by
  cases r with
  | put final => exact some.inj hr ▸ putReq s _
  | get final => exact some.inj hr ▸ getReq s _
  | setPath flags folderName => exact h.setPathRequest hr
  | delete objName before => exact h.deleteRequest hr
  | abort => exact some.inj hr ▸ h.abortReq
  | disconnect => exact some.inj hr ▸ disconnectReq s h

end Room

/-! ### Runs -/

/-- A packet that the receive loop is about to have handled leaves room for the packet that is being framed. -/
def AdmitsIteration (s : Session) (beyond : List UInt8) : Prop :=
  let pkt := s.sourceMap beyond
  let pktLen := uint8ToUint16 pkt 1
  obexPktHdrSize ≤ s.sourceBoundary → s.srcUsed = 0 → pktLen ≤ s.maxPktLen → pktLen ≤ s.sourceBoundary →
    AdmitsPacket s pkt pktLen

/-- The same of every packet of the first `n` iterations. -/
def AdmitsIncoming (s : Session) (beyond : List UInt8) : (n : ℕ) → Prop
  | 0 => True
  | n + 1 => AdmitsIteration s beyond ∧
      ∀ t, incomingIteration s beyond = some (true, t) → AdmitsIncoming t beyond n

/-- No action lowers the limit under the packet, or frames claimed octets behind the limit. -/
def Admits (s : Session) : Action → Prop
  | .event (.moreData beyond iterations) => AdmitsIncoming s beyond iterations
  | .event (.objAddByteHdr _ _) => Fits s obexUintHdrSize
  | .event (.objAddVariableHdr _ hdrLen none) => Fits s (u16 (obexSeqHdrSize + hdrLen))
  | _ => True

theorem Room.incomingIteration {beyond : List UInt8} {r : Bool × Session} (h : Room s 0)
    (hadmits : AdmitsIteration s beyond) (hr : incomingIteration s beyond = some r) : Room r.2 0 := by
  have hempty : Room (s.setSource []) 0 := h.same (.setSource s _)
  rw [Obex.incomingIteration] at hr
  dsimp only at hr
  split at hr
  · next hsource =>
    split at hr
    · obtain rfl := some.inj hr
      exact .ite (disconnectReq _ hempty) (hempty.sendErrorResponse _)
    · next hlimit =>
      split at hr
      · obtain rfl := some.inj hr
        exact h
      · next hcomplete =>
        have hpacket := hadmits hsource.1 hsource.2 (Nat.le_of_not_lt hlimit) (Nat.le_of_not_lt hcomplete)
        obtain ⟨⟨n, t⟩, ht, rfl⟩ := map_eq_some_iff.mp hr
        generalize uint8ToUint16 (s.sourceMap beyond) 1 = len at ht hpacket
        generalize s.sourceMap beyond = pkt at ht hpacket
        have hemit : Room (s.emit (.received s.state pkt len)) 0 := h.same (.emit s _)
        have hhandled : Room t 0 := by
          rw [handlePacket] at ht
          split at ht
          · next hserver => exact hemit.handleCommand hserver hpacket ht
          · next hclient => exact hemit.handleResponse hpacket hclient ht
        exact hhandled.same ⟨rfl, rfl, rfl⟩
  · obtain rfl := some.inj hr
    exact h

theorem Room.handleIncomingPacket {beyond : List UInt8} {n : ℕ} (h : Room s 0) (hadmits : AdmitsIncoming s beyond n)
    (ht : obexHandleIncomingPacket s beyond n = some t) : Room t 0 := by
  induction n generalizing s with
  | zero => exact some.inj ht ▸ h
  | succ n ih =>
    obtain ⟨⟨goesOn, u⟩, hu, ht⟩ := bind_eq_some_iff.mp ht
    have hroom := h.incomingIteration hadmits.1 hu
    rcases goesOn with _ | _
    · exact some.inj ht ▸ hroom
    · exact ih hroom (hadmits.2 u hu) ht

/-- What one action keeps. -/
theorem Room.act {a : Action} (h : Room s 0) (hadmits : Admits s a) (ht : act s a = some t) : Room t 0 := by
  cases a with
  | request r => exact h.request ht
  | event e =>
    cases e with
    | receive octets => exact some.inj ht ▸ h.same (.setSource s _)
    | moreData beyond iterations => exact h.handleIncomingPacket hadmits ht
    | sinkSpace slack =>
      obtain rfl := some.inj ht
      exact ⟨h.packet, h.limit, Nat.le_trans h.packet (Nat.le_add_right _ _)⟩
    | rfcommDisconnectInd => exact some.inj ht ▸ h.same (.handleRfcommDisconnect s)
    | putResponse response | getResponse response | setPathResponse response => exact some.inj ht ▸ h.sendResponse _
    | authReqResponse nonce options realm | authClgResponse reqDigest userId => exact some.inj ht ▸ .ite (h.sendAuthPacket _ _) h
    | deleteSessionResponse => exact some.inj ht ▸ h.same (.deleteSessionTask s)
    | sourceDrop => exact some.inj ht ▸ h.same (.sourceEmpty s)
    | objNew => exact some.inj ht ▸ h.newPacket _ _
    | objDelete => exact some.inj ht ▸ .of_empty (pktLen_objFlush s _)
    | objAddByteHdr hdrId hdrVal => exact some.inj ht ▸ h.addUint32Header hadmits _
    | objAddVariableHdr hdrId hdrLen src =>
      rcases src with - | ⟨octets, before⟩
      · exact some.inj ht ▸ h.addEmptyHeader _ hadmits
      · change (if isByteSeqHdr hdrId then some (obexAddSeqHeader s hdrId octets).2
          else if isUnicodeHdr hdrId then (obexAddUnicodeHeader s hdrId octets before).map Prod.snd
          else some s) = some t at ht
        split at ht
        · exact some.inj ht ▸ h.addSeqHeader _ _
        · split at ht
          · obtain ⟨r, hr, rfl⟩ := map_eq_some_iff.mp ht
            exact h.addUnicodeHeader hr
          · exact some.inj ht ▸ h

theorem room_startSession (role : ObexRole) (connParams : ObexConnParams) (sink : Sink) (source : List UInt8)
    (status : RfcommConnectStatus) (payloadSize : ℕ) :
    Room (startSession role connParams sink source status payloadSize) 0 := by
  have hcfm : ∀ s status, s.pktLen = 0 → Room (obexHandleSessionCfm s status) 0 := by
    intro s status hempty
    have hstate : ∀ st, Room ((obexCreateSessionCfm s status).setState st) 0 := fun _ => .of_empty hempty
    rw [obexHandleSessionCfm]
    refine .ite ?_ (((hstate _).same (.connectCfm _ _)).same (.deleteSessionTask _))
    rw [obexConnectionReady]
    exact .ite ((hstate _).connectReq true) (.ite ((hstate _).same (.sourceEmpty _)) (hstate _))
  rw [startSession]
  generalize hs : ({ obexCreateSession role connParams.target sink source with auth := connParams.auth } : Session) = s
  have hempty : s.pktLen = 0 := by rw [← hs]; rfl
  cases status with
  | pending => exact .of_empty hempty
  | success | channelAlreadyOpen | failed =>
    simp only [obexHandleRfcConnectCfm]
    exact hcfm _ _ hempty

/-- `maxLen` of `obexSinkSlack`. -/
def sinkMaxLen (s : Session) : ℕ :=
  let maxLen := u16 (s.sink.slack + s.sink.claimed.length)
  if maxLen > s.maxPktLen then s.maxPktLen else maxLen

/-- The packet keeps the limit, and `maxLen - pktLen` is not negative. -/
structure InBounds (s : Session) : Prop where
  limit : s.pktLen ≤ s.maxPktLen
  slack : s.pktLen ≤ sinkMaxLen s

theorem Room.inBounds (h : Room s 0) : InBounds s := by
  have hfits := s.sink.fits
  have hsink := h.sink
  have hlimit := h.limit
  have hsum : u16 ((s.sink.slack : ℤ) + (s.sink.claimed.length : ℤ)) = s.sink.claimed.length + s.sink.slack := by
    rw [u16]
    omega
  refine ⟨hlimit, ?_⟩
  rw [sinkMaxLen, hsum]
  split
  · exact hlimit
  · exact hsink

/-- In every run of a session whose actions are admitted, the packet stays in its bounds. -/
theorem inBounds_of_run {role : ObexRole} {connParams : ObexConnParams} {sink : Sink} {source : List UInt8}
    {status : RfcommConnectStatus} {payloadSize : ℕ} {actions : List Action}
    (hadmits : Lib.RunMeets act Admits (startSession role connParams sink source status payloadSize) actions)
    (hrun : Lib.run act (startSession role connParams sink source status payloadSize) actions = some t) : InBounds t :=
  (Lib.run_invariant (fun _ _ _ h hok hs => Room.act h hok hs) (room_startSession ..) hadmits hrun).inBounds

/-- Allocation, a packet and a response at a time and over the runs of a session. -/
theorem allocates_iff (s : Session) (size : ℕ) (opcode : UInt8) (response : ObexStatus) (role : ObexRole)
    (connParams : ObexConnParams) (sink : Sink) (source : List UInt8) (status : RfcommConnectStatus) (payloadSize : ℕ)
    (actions : List Action) :
    (AtomicNewPacket s size opcode ↔ ¬ ExactFit s size opcode) ∧
    ((obexSendResponse s response).pktLen = 0 ↔ ¬ ExactFit s 0 obexPut) ∧
    (Lib.RunMeets act Admits (startSession role connParams sink source status payloadSize) actions →
      ∀ t, Lib.run act (startSession role connParams sink source status payloadSize) actions = some t → InBounds t) :=
  ⟨newPacket_atomic_iff s size opcode, sendResponse_empty_iff s response, fun hadmits _ => inBounds_of_run hadmits⟩

/-- An application that frames an object of its own before it is connected. -/
theorem allocates_iff_objNew :
    InBounds (obexObjNew (startSession .rfcommServer ⟨none, false⟩ ⟨[], 600, by decide⟩ [] .success 127)) :=
  (allocates_iff (obexCreateSession .rfcommServer none ⟨[], 3, by decide⟩ []) 0 0 .success .rfcommServer ⟨none, false⟩
    ⟨[], 600, by decide⟩ [] .success 127 [.event .objNew]).2.2 ⟨trivial, fun _ _ => trivial⟩ _ rfl

/-- A CONNECT request of eleven octets for the Target of one octet, with this limit. -/
def targetConnect (limit : ℕ) : List UInt8 :=
  [obexConnectOpcode, 0, 11, obexVersion, 0] ++ uint16ToUint8 limit ++ [obexTargetHdr, 0, 4, 0x54]

/-- Three octets of slack: the header of a response is claimed, and the result is 0. And a server that asks for
authentication holds its reply back; a second CONNECT lowers the limit to zero under it. -/
theorem not_allocates :
    (¬ ∀ s size opcode, AtomicNewPacket s size opcode) ∧
    ¬ ∀ role connParams sink source status payloadSize actions t,
      Lib.run act (startSession role connParams sink source status payloadSize) actions = some t → InBounds t := by
  constructor
  · intro h
    have hatomic := h (obexCreateSession .rfcommServer none ⟨[], 3, by decide⟩ []) 0 obexPut
    revert hatomic
    rw [AtomicNewPacket]
    decide
  · intro h
    have hruns : (Lib.run act (startSession .rfcommServer ⟨some [0x54], true⟩ ⟨[], 600, by decide⟩ [] .success 127)
        [.event (.receive (targetConnect 256)), .event (.moreData [] 1), .event (.receive (targetConnect 0)),
          .event (.moreData [] 1)]).any fun t => decide (t.maxPktLen < t.pktLen) := by
      decide
    obtain ⟨t, ht, hlt⟩ := (any_eq_true _ _).mp hruns
    exact absurd (h _ _ _ _ _ _ _ t ht).limit (Nat.not_le.mpr (of_decide_eq_true hlt))

end Cbps.Obex
