import Cbps.Obex.Frame

/-!
# The history of a server session

A server session keeps its role, its Target and its connection ID, and its log only grows.
`Continues s s'` states this for one function after the other, up to a whole `step`: what a log
has recorded stays recorded. `Ends s s'` says in addition that `s'` has no CONNECT under way and
that none was confirmed; from such a state no session comes back, `ends_step`.
-/

namespace Cbps.Obex

open List Option

/-- A response leaves the state as it is for `continue`, else the session is connected. -/
theorem obexSendResponse_eq (s : Session) (response : ObexStatus) :
    ∃ t, Quiet s t ∧ obexSendResponse s response =
      if response = ObexStatus.continue then t else t.setState .connected := by
  have hnew := Quiet.of_framed (Framed.newPacket s 0 obexPut)
  have hcontinue : (if response = ObexStatus.success then ObexStatus.remoteSuccess
      else if response < ObexStatus.continue then ObexStatus.unknownError else response) =
        ObexStatus.continue ↔ response = ObexStatus.continue := by
    split
    · simp_all [ObexStatus.success, ObexStatus.remoteSuccess, ObexStatus.continue]
    · split
      · rename_i hlt
        refine ⟨fun h => absurd h (by decide), fun h => ?_⟩
        rw [h] at hlt
        exact absurd hlt (by decide)
      · exact Iff.rfl
  rw [obexSendResponse]
  generalize (if response = ObexStatus.success then ObexStatus.remoteSuccess
    else if response < ObexStatus.continue then ObexStatus.unknownError else response) = octet at *
  generalize obexNewPacket s 0 obexPut = r at hnew ⊢
  obtain ⟨n, t⟩ := r
  dsimp only at hnew ⊢
  have hframe : Quiet s (if s.pktLen ≠ 0 then (true, s) else (decide (n ≠ 0), t)).2 := by
    split
    · exact .refl s
    · exact hnew
  generalize (if s.pktLen ≠ 0 then (true, s) else (decide (n ≠ 0), t)) = r at hframe ⊢
  refine ⟨if r.1 then obexFlushPacket r.2 octet else r.2, ?_, if_congr hcontinue rfl rfl⟩
  split
  · exact hframe.trans (.flushPacket _ _)
  · exact hframe

variable {s : Session}

theorem isObexClient_of_server (h : s.isObexServer) : s.isObexClient = false := by
  rw [Session.isObexServer] at h
  rw [Session.isObexClient]
  cases hrole : s.role <;> simp_all

variable {beyond : List UInt8}

/-- An iteration of a server's receive loop waits for more octets, refuses a packet that is too
long, or has a complete packet handled. -/
theorem incomingIteration_cases {r : Bool × Session}
    (hserver : s.isObexServer) (h : incomingIteration s beyond = some r) :
    let pkt := s.sourceMap beyond
    let pktLen := uint8ToUint16 pkt 1
    (r.2 = s ∧ r.1 = false) ∨
    (r.2 = obexSendErrorResponse (s.setSource []) ObexStatus.badRequest ∧
      obexPktHdrSize ≤ s.sourceBoundary ∧ s.srcUsed = 0 ∧ s.maxPktLen < pktLen) ∨
    ∃ n t, obexHandleCommand (s.emit (.received s.state pkt pktLen)) pkt pktLen = some (n, t) ∧
      r.2 = (t.sourceDrop (u16 (pktLen - n))).setSrcUsed n ∧
      obexPktHdrSize ≤ s.sourceBoundary ∧ s.srcUsed = 0 ∧ pktLen ≤ s.sourceBoundary := by
  rw [incomingIteration] at h
  split at h
  · rename_i hpacket
    dsimp only at h
    split at h
    · rename_i hlong
      have hempty : (s.setSource []).isObexClient = false := isObexClient_of_server hserver
      rw [hempty, if_neg Bool.false_ne_true] at h
      exact .inr (.inl ⟨some.inj h ▸ rfl, hpacket.1, hpacket.2, hlong⟩)
    · split at h
      · exact .inl ⟨some.inj h ▸ rfl, some.inj h ▸ rfl⟩
      · rename_i hlen
        obtain ⟨⟨n, t⟩, ht, rfl⟩ := map_eq_some_iff.mp h
        rw [handlePacket, if_pos (show (s.emit _).isObexServer from hserver)] at ht
        exact .inr (.inr ⟨n, t, ht, rfl, hpacket.1, hpacket.2, Nat.le_of_not_lt hlen⟩)
  · exact .inl ⟨some.inj h ▸ rfl, some.inj h ▸ rfl⟩

/-- The session `s'` comes later in the life of the server session `s`. -/
structure Continues (s s' : Session) : Prop where
  role : s'.role = s.role
  targetWho : s'.targetWho = s.targetWho
  connID : s'.connID = s.connID
  log : s.log <+: s'.log

variable {pkt : List UInt8} {r : ℕ × Session} {pktLen : ℕ}

namespace Continues

theorem refl (s : Session) : Continues s s := ⟨rfl, rfl, rfl, prefix_rfl⟩

theorem trans {s t u : Session} (h : Continues s t) (h' : Continues t u) : Continues s u where
  role := h'.role.trans h.role
  targetWho := h'.targetWho.trans h.targetWho
  connID := h'.connID.trans h.connID
  log := h.log.trans h'.log

theorem of_quiet {s s' : Session} (h : Quiet s s') : Continues s s' := by
  obtain ⟨m, source, srcUsed, n, k, es, rfl, -⟩ := h
  exact ⟨rfl, rfl, rfl, prefix_append _ _⟩

theorem emit (s : Session) (e : Effect) : Continues s (s.emit e) :=
  ⟨rfl, rfl, rfl, prefix_append _ _⟩

theorem setState (s : Session) (st : ObexState) : Continues s (s.setState st) :=
  ⟨rfl, rfl, rfl, prefix_rfl⟩

theorem setAuth (s : Session) (auth : Bool) : Continues s { s with auth := auth } :=
  ⟨rfl, rfl, rfl, prefix_rfl⟩

theorem isObexServer {s s' : Session} (h : Continues s s') : s'.isObexServer = s.isObexServer := by
  rw [Session.isObexServer, Session.isObexServer, h.role]

/-! ### Messages and responses -/

theorem deleteSessionInd (s : Session) : Continues s (obexDeleteSessionInd s) := by
  rw [obexDeleteSessionInd]
  split
  · exact (setState s _).trans (emit _ _)
  · exact emit s _

theorem connectCfm (s : Session) (status : ObexStatus) : Continues s (obexConnectCfm s status) := by
  have hcfm := emit s (.app (.connectCfm status s.maxPktLen))
  rw [obexConnectCfm]
  split
  · exact hcfm.trans (setState _ _)
  · split
    · exact hcfm.trans (deleteSessionInd _)
    · exact hcfm

theorem sendResponse (s : Session) (response : ObexStatus) :
    Continues s (obexSendResponse s response) := by
  obtain ⟨t, ht, heq⟩ := obexSendResponse_eq s response
  rw [heq]
  split
  · exact of_quiet ht
  · exact (of_quiet ht).trans (setState t _)

theorem sendErrorResponse (s : Session) (response : ObexStatus) :
    Continues s (obexSendErrorResponse s response) := by
  have hnew := of_quiet (.of_framed
    (Framed.newPacket (s.setState .connected) obexPktHdrSize obexPut))
  rw [obexSendErrorResponse]
  generalize obexNewPacket (s.setState .connected) obexPktHdrSize obexPut = r at hnew ⊢
  obtain ⟨n, t⟩ := r
  dsimp only
  split
  · exact (setState s _).trans (hnew.trans (of_quiet (.flushPacket t _)))
  · exact (setState s _).trans hnew

/-! ### Requests -/

theorem handleAbortRequest (s : Session) : Continues s (obexHandleAbortRequest s) := by
  rw [obexHandleAbortRequest]
  split
  · exact (emit s _).trans (sendResponse _ _)
  · exact sendResponse s _

theorem handleDisconnectRequest {s s' : Session}
    (h : obexHandleDisconnectRequest s pkt pktLen = some s') : Continues s s' := by
  obtain ⟨⟨valid, n⟩, -, rfl⟩ := map_eq_some_iff.mp h
  dsimp only
  split
  · exact (sendResponse s _).trans
      ((of_quiet (.of_framed (Framed.setPktLen _ 0))).trans (deleteSessionInd _))
  · exact sendErrorResponse s _

theorem connectReply (s : Session) (response : ObexStatus) :
    Continues s (connectReply s response) := by
  have hframe := of_quiet (.of_framed (Framed.frameConnectPkt s response))
  rw [Obex.connectReply]
  generalize obexFrameConnectPkt s response = r at hframe ⊢
  obtain ⟨ok, t⟩ := r
  refine hframe.trans ?_
  dsimp only
  split
  · exact refl t
  · have hflush : Continues t (if ok then obexFlushPacket t response else t) := by
      split
      · exact of_quiet (.flushPacket t _)
      · exact refl t
    refine hflush.trans ?_
    generalize (if ok then obexFlushPacket t response else t) = u
    generalize (if ok then response else ObexStatus.failure) = response
    split
    · exact (setState u _).trans (connectCfm _ _)
    · exact connectCfm u _

theorem handleConnectRequest (h : obexHandleConnectRequest s pkt pktLen = some r) : Continues s r.2 := by
  obtain ⟨⟨response, t⟩, hresponse, rfl⟩ := map_eq_some_iff.mp h
  exact (of_quiet (.of_reports (.connectResponse hresponse))).trans (connectReply t response)

theorem handleSetPathRequest (h : obexHandleSetPathRequest s pkt pktLen = some r) : Continues s r.2 := by
  rw [obexHandleSetPathRequest] at h
  split at h
  · obtain ⟨⟨valid, n⟩, -, h⟩ := bind_eq_some_iff.mp h
    dsimp only at h
    split at h
    · split at h
      · exact some.inj h ▸ (setState s _).trans (emit _ _)
      · obtain ⟨⟨name, n⟩, -, rfl⟩ := map_eq_some_iff.mp h
        exact (setState s _).trans (emit _ _)
    · obtain rfl := some.inj h
      exact sendResponse s ObexStatus.badRequest
  · obtain rfl := some.inj h
    exact sendResponse s ObexStatus.srvUnavailable

theorem putGetInd (s : Session) (cmd : UInt8) (pktLen : ℕ) :
    Continues s (putGetInd s cmd pktLen) := by
  rw [Obex.putGetInd]
  split
  · exact (setState s _).trans (emit _ _)
  · exact (setState s _).trans (emit _ _)

theorem handlePutGetRequest (h : obexHandlePutGetRequest s pkt pktLen = some r) : Continues s r.2 := by
  rw [obexHandlePutGetRequest] at h
  split at h
  · split at h
    · obtain ⟨⟨valid, n⟩, -, rfl⟩ := map_eq_some_iff.mp h
      dsimp only
      split
      · exact putGetInd s _ _
      · exact sendResponse s ObexStatus.srvUnavailable
    · split at h
      · obtain rfl := some.inj h
        exact sendResponse s ObexStatus.badRequest
      · obtain rfl := some.inj h
        exact putGetInd s _ _
  · obtain rfl := some.inj h
    exact sendResponse s ObexStatus.srvUnavailable

theorem handleCommand (h : obexHandleCommand s pkt pktLen = some r) : Continues s r.2 := by
  rw [obexHandleCommand] at h
  split at h
  · exact handleConnectRequest h
  · split at h
    · obtain ⟨t, ht, rfl⟩ := map_eq_some_iff.mp h
      exact handleDisconnectRequest ht
    · split at h
      · exact some.inj h ▸ handleAbortRequest s
      · split at h
        · exact handleSetPathRequest h
        · split at h
          · exact handlePutGetRequest h
          · exact some.inj h ▸ sendErrorResponse s _

/-! ### The receive loop and the application -/

theorem incomingIteration {r : Bool × Session}
    (hserver : s.isObexServer) (h : incomingIteration s beyond = some r) : Continues s r.2 := by
  rcases incomingIteration_cases hserver h with ⟨hr, -⟩ | ⟨hr, -⟩ | ⟨n, t, ht, hr, -⟩
  · rw [hr]
    exact refl s
  · rw [hr]
    exact (of_quiet (.setSource s [])).trans (sendErrorResponse _ _)
  · rw [hr]
    exact (emit s _).trans ((handleCommand ht).trans (of_quiet
      ((Quiet.setSource t _).trans (Quiet.setSrcUsed _ _))))

theorem handleIncomingPacket {s s' : Session} {n : ℕ}
    (hserver : s.isObexServer) (h : obexHandleIncomingPacket s beyond n = some s') :
    Continues s s' := by
  induction n generalizing s with
  | zero => exact some.inj h ▸ refl s
  | succ n ih =>
    obtain ⟨⟨goesOn, t⟩, ht, h⟩ := bind_eq_some_iff.mp h
    have hcont := incomingIteration hserver ht
    change (if goesOn then obexHandleIncomingPacket t beyond n else some t) = some s' at h
    split at h
    · exact hcont.trans (ih (hcont.isObexServer.trans hserver) h)
    · exact some.inj h ▸ hcont

theorem sendAuthPacket (s : Session) (hdr : UInt8) (src : List UInt8) :
    Continues s (obexSendAuthPacket s hdr src) := by
  have hadd : Continues s (if src.length ≠ 0 then obexAddSeqHeader s hdr src else (true, s)).2 := by
    split
    · exact of_quiet (.of_framed (Framed.addSeqHeader s hdr src))
    · exact refl s
  rw [obexSendAuthPacket]
  generalize (if src.length ≠ 0 then obexAddSeqHeader s hdr src else (true, s)) = r at hadd ⊢
  obtain ⟨ok, t⟩ := r
  dsimp only at hadd ⊢
  refine hadd.trans ?_
  split
  · have hmark : Continues t
        (if hdr = obexAuthChallenge then t.setState .authConnect else { t with auth := false }) := by
      split
      · exact setState t _
      · exact setAuth t _
    refine hmark.trans ?_
    generalize (if hdr = obexAuthChallenge then t.setState .authConnect
      else { t with auth := false }) = u
    generalize (if u.auth then obexUnauthorizedRsp else ObexStatus.remoteSuccess) = response
    have hflush := of_quiet (Quiet.flushPacket u response)
    split
    · split
      · exact hflush.trans (connectCfm _ _)
      · exact hflush
    · split
      · exact of_quiet (.flushPacket u _)
      · exact refl u
  · exact connectCfm t _

theorem deleteSessionTask (s : Session) : Continues s (obexDeleteSessionTask s) := by
  rw [obexDeleteSessionTask]
  split
  · exact emit s _
  · split
    · exact setState s _
    · exact (emit s _).trans (setState _ _)

theorem handleRfcommDisconnect (s : Session) : Continues s (obexHandleRfcommDisconnect s) := by
  rw [obexHandleRfcommDisconnect]
  refine (emit s .rfcommDisconnectResponse).trans ?_
  split
  · exact (setState _ _).trans (deleteSessionInd _)
  · exact (setState _ _).trans (deleteSessionTask _)

end Continues

/-- The objects that the application frames stay in the transport. -/
theorem quiet_objAddVariableHdr {s s' : Session} {hdrId : UInt8} {hdrLen : ℕ}
    {src : Option (List UInt8 × UInt8)} (h : obexObjAddVariableHdr s hdrId hdrLen src = some s') :
    Quiet s s' := by
  cases src with
  | none => exact some.inj h ▸ .of_framed (Framed.addEmptyHeader s _ _)
  | some src =>
    obtain ⟨octets, before⟩ := src
    rw [obexObjAddVariableHdr] at h
    split at h
    · exact some.inj h ▸ .of_framed (Framed.addSeqHeader s _ _)
    · split at h
      · obtain ⟨r, hr, rfl⟩ := map_eq_some_iff.mp h
        exact .of_framed (Framed.addUnicodeHeader hr)
      · exact some.inj h ▸ .refl s

/-- A server session continues in every step. -/
theorem continues_step {s s' : Session} {e : Event} (hserver : s.isObexServer)
    (h : step s e = some s') : Continues s s' := by
  cases e with
  | receive octets => exact some.inj h ▸ .of_quiet (.setSource s _)
  | moreData beyond iterations => exact .handleIncomingPacket hserver h
  | sinkSpace slack => exact some.inj h ▸ .of_quiet (.setSink s _)
  | rfcommDisconnectInd => exact some.inj h ▸ .handleRfcommDisconnect s
  | putResponse response | getResponse response | setPathResponse response => exact some.inj h ▸ .sendResponse s _
  | authReqResponse nonce options realm =>
    refine some.inj h ▸ ?_
    rw [obexAuthReqResponse]
    split
    · exact .sendAuthPacket s _ _
    · exact .refl s
  | authClgResponse reqDigest userId =>
    refine some.inj h ▸ ?_
    rw [obexAuthClgResponse]
    split
    · exact .sendAuthPacket s _ _
    · exact .refl s
  | deleteSessionResponse => exact some.inj h ▸ .deleteSessionTask s
  | sourceDrop => exact some.inj h ▸ .of_quiet (.sourceEmpty s)
  | objNew => exact some.inj h ▸ .of_quiet (.of_framed (Framed.newPacket s _ _))
  | objDelete => exact some.inj h ▸ .of_quiet (.objFlush s _)
  | objAddByteHdr hdrId hdrVal =>
    exact some.inj h ▸ .of_quiet (.of_framed (Framed.addUint32Header s _ _))
  | objAddVariableHdr hdrId hdrLen src => exact .of_quiet (quiet_objAddVariableHdr h)

/-! ### Confirmations and replies -/

/-- A connecting session is not ready. -/
theorem not_isObexReady_of_connecting (h : s.isObexConnecting) :
    ¬ s.isObexReady := by
  simp only [Session.isObexConnecting, Bool.or_eq_true, decide_eq_true_eq] at h
  rcases h with h | h <;> simp [Session.isObexReady, h, ObexState.toNat]

theorem obexConnectCfm_failure {status : ObexStatus}
    (h : status ≠ ObexStatus.remoteSuccess) : obexConnectCfm s status =
      if s.isObexConnecting then
        (s.emit (.app (.connectCfm status s.maxPktLen))).emit (.app .deleteSessionInd)
      else s.emit (.app (.connectCfm status s.maxPktLen)) := by
  rw [obexConnectCfm, if_neg h]
  by_cases hconn : s.isObexConnecting
  · have hready : ¬ (s.sendApp (.connectCfm status s.maxPktLen)).isObexReady :=
      not_isObexReady_of_connecting hconn
    rw [if_pos hconn, if_pos (show (s.sendApp _).isObexConnecting from hconn),
      obexDeleteSessionInd, if_neg hready]
    rfl
  · rw [if_neg hconn, if_neg (show ¬ (s.sendApp _).isObexConnecting from hconn)]
    rfl

/-- A CONNECT reply is held back, confirms the session or fails. -/
theorem connectReply_cases (s : Session) (response : ObexStatus) :
    (∃ t, obexFrameConnectPkt s response = (true, t) ∧ (response = obexUnauthorizedRsp ∨
      response = ObexStatus.remoteSuccess ∧ s.auth) ∧ connectReply s response = t) ∨
    (∃ t, Quiet s t ∧ response = ObexStatus.remoteSuccess ∧ ¬ s.auth ∧
      connectReply s response = obexConnectCfm t ObexStatus.remoteSuccess) ∨
    ∃ t status, Quiet s t ∧ status ≠ ObexStatus.remoteSuccess ∧
      connectReply s response = obexConnectCfm (t.setState .session) status := by
  have hframe := Framed.frameConnectPkt s response
  have hauth : (obexFrameConnectPkt s response).2.auth = s.auth := by
    obtain ⟨n, k, h⟩ := hframe
    rw [h]
  rw [connectReply]
  generalize obexFrameConnectPkt s response = r at hframe hauth ⊢
  obtain ⟨_ | _, t⟩ := r
  · refine .inr (.inr ⟨t, ObexStatus.failure, .of_framed hframe, by decide, rfl⟩)
  · dsimp only at hframe hauth ⊢
    by_cases hheld : response = obexUnauthorizedRsp ∨ response = ObexStatus.remoteSuccess ∧ s.auth
    · exact .inl ⟨t, rfl, hheld, if_pos ⟨rfl, hauth ▸ hheld⟩⟩
    · rw [if_neg (fun h => hheld (hauth ▸ h.2)), if_pos rfl, if_pos rfl]
      have hquiet := (Quiet.of_framed hframe).trans (.flushPacket t response)
      by_cases hsuccess : response = ObexStatus.remoteSuccess
      · rw [if_neg (not_not_intro hsuccess)]
        exact .inr (.inl ⟨_, hquiet, hsuccess, fun h => hheld (.inr ⟨hsuccess, h⟩), by rw [hsuccess]⟩)
      · rw [if_pos hsuccess]
        exact .inr (.inr ⟨_, _, hquiet, hsuccess, rfl⟩)

/-- What a server does once the digest header is added, or is not. -/
theorem obexSendAuthPacket_server {hdr : UInt8} {src : List UInt8} {r : Bool × Session}
    (hserver : s.isObexServer)
    (hr : (if src.length ≠ 0 then obexAddSeqHeader s hdr src else (true, s)) = r) :
    obexSendAuthPacket s hdr src =
      if r.1 then
        if hdr = obexAuthChallenge then
          if s.auth then obexFlushPacket (r.2.setState .authConnect) obexUnauthorizedRsp
          else obexConnectCfm (obexFlushPacket (r.2.setState .authConnect)
            ObexStatus.remoteSuccess) ObexStatus.remoteSuccess
        else obexConnectCfm (obexFlushPacket { r.2 with auth := false } ObexStatus.remoteSuccess)
          ObexStatus.remoteSuccess
      else obexConnectCfm r.2 ObexStatus.failure := by
  have hframe : Framed s r.2 := by
    rw [← hr]
    split
    · exact .addSeqHeader s hdr src
    · exact .refl s
  rw [obexSendAuthPacket, hr]
  obtain ⟨ok, t⟩ := r
  obtain ⟨n, k, rfl⟩ := hframe
  cases ok with
  | false => rfl
  | true =>
    have hserver' : ∀ st, (({ s with pktLen := n, sink := k } : Session).setState st).isObexServer :=
      fun _ => hserver
    dsimp only
    by_cases hhdr : hdr = obexAuthChallenge
    · simp only [if_pos hhdr, if_true]
      rw [if_pos (hserver' _)]
      by_cases hauth : s.auth
      · simp [Session.setState, hauth, obexUnauthorizedRsp, ObexStatus.remoteSuccess]
      · simp [Session.setState, hauth]
    · simp only [if_neg hhdr, if_true]
      refine (if_pos hserver).trans ?_
      simp

/-! ### After the handshake -/

/-- The session goes on to a state in which no CONNECT is under way, and none was confirmed. -/
structure Ends (s s' : Session) : Prop where
  continues : Continues s s'
  unconfirmed : ∃ es, s'.log = s.log ++ es ∧
    ∀ n, .app (.connectCfm ObexStatus.remoteSuccess n) ∉ es
  state : ¬ s'.isObexConnecting

namespace Ends

theorem refl (h : ¬ s.isObexConnecting) : Ends s s :=
  ⟨.refl s, ⟨[], by simp, by simp⟩, h⟩

theorem trans {s t u : Session} (h : Ends s t) (h' : Ends t u) : Ends s u := by
  obtain ⟨es, hes, hnot⟩ := h.unconfirmed
  obtain ⟨es', hes', hnot'⟩ := h'.unconfirmed
  refine ⟨h.continues.trans h'.continues, ⟨es ++ es', ?_, fun n hmem => ?_⟩, h'.state⟩
  · rw [hes', hes, List.append_assoc]
  · exact (mem_append.mp hmem).elim (hnot n) (hnot' n)

variable {st : ObexState}

/-- A change of state after something quiet. -/
theorem setState {s t : Session} (h : Quiet s t)
    (hst : st ≠ .connect ∧ st ≠ .authConnect) : Ends s (t.setState st) := by
  refine ⟨(Continues.of_quiet h).trans (.setState t st), ?_, by
    simp [Session.isObexConnecting, Session.setState, hst]⟩
  obtain ⟨m, source, srcUsed, n, k, es, rfl, hes⟩ := h
  exact ⟨es, rfl, fun n hmem => absurd (hes _ hmem) (by simp [Effect.isRoutine])⟩

theorem of_quiet {s t : Session} (h : Quiet s t) (hs : ¬ s.isObexConnecting) : Ends s t := by
  obtain ⟨m, source, srcUsed, n, k, es, rfl, hes⟩ := h
  exact ⟨.of_quiet ⟨m, source, srcUsed, n, k, es, rfl, hes⟩,
    ⟨es, rfl, fun n hmem => absurd (hes _ hmem) (by simp [Effect.isRoutine])⟩, hs⟩

theorem emit {e : Effect} (hs : ¬ s.isObexConnecting)
    (he : ∀ n, e ≠ .app (.connectCfm ObexStatus.remoteSuccess n)) : Ends s (s.emit e) :=
  ⟨.emit s e, ⟨[e], rfl, fun n hmem => he n (mem_singleton.mp hmem).symm⟩, hs⟩

theorem deleteSessionInd (hs : ¬ s.isObexConnecting) :
    Ends s (obexDeleteSessionInd s) := by
  rw [obexDeleteSessionInd]
  split
  · exact (setState (.refl s) (by decide)).trans (emit (setState (.refl s) (by decide)).state
      (by simp))
  · exact emit hs (by simp)

theorem sendResponse (s : Session) {response : ObexStatus}
    (h : response ≠ ObexStatus.continue ∨ ¬ s.isObexConnecting) :
    Ends s (obexSendResponse s response) := by
  obtain ⟨t, ht, heq⟩ := obexSendResponse_eq s response
  rw [heq]
  split
  · rename_i hcontinue
    exact of_quiet ht (h.resolve_left (not_not_intro hcontinue))
  · exact setState ht (by decide)

theorem sendErrorResponse (s : Session) (response : ObexStatus) :
    Ends s (obexSendErrorResponse s response) := by
  have hconnected : Ends s (s.setState .connected) := setState (.refl s) (by decide)
  refine hconnected.trans (of_quiet ?_ hconnected.state)
  have hnew := Quiet.of_framed (Framed.newPacket (s.setState .connected) obexPktHdrSize obexPut)
  rw [obexSendErrorResponse]
  generalize obexNewPacket (s.setState .connected) obexPktHdrSize obexPut = r at hnew ⊢
  obtain ⟨n, t⟩ := r
  dsimp only at hnew ⊢
  split
  · exact hnew.trans (.flushPacket t _)
  · exact hnew

/-- A refused CONNECT. -/
theorem connectCfm_failure {s t : Session} (h : Quiet s t) {status : ObexStatus}
    (hstatus : status ≠ ObexStatus.remoteSuccess) :
    Ends s (obexConnectCfm (t.setState .session) status) := by
  have hsession : Ends s (t.setState .session) := setState h (by decide)
  refine hsession.trans ?_
  rw [obexConnectCfm_failure hstatus, if_neg hsession.state]
  refine emit hsession.state fun n heq => hstatus ?_
  injection heq with hmessage
  injection hmessage

/-- A change of state after one log entry. -/
theorem emit_setState (s : Session) {e : Effect}
    (he : ∀ n, e ≠ .app (.connectCfm ObexStatus.remoteSuccess n))
    (hst : st ≠ .connect ∧ st ≠ .authConnect) : Ends s ((s.emit e).setState st) :=
  ⟨(Continues.emit s e).trans (.setState _ st),
    ⟨[e], rfl, fun n hmem => he n (mem_singleton.mp hmem).symm⟩, by
      simp [Session.isObexConnecting, Session.setState, hst]⟩

theorem deleteSessionTask (s : Session) : Ends s (obexDeleteSessionTask s) := by
  rw [obexDeleteSessionTask]
  split
  · rename_i hidle
    refine emit ?_ (by simp)
    simp only [Session.isObexInIdle, decide_eq_true_eq] at hidle
    simp [Session.isObexConnecting, hidle]
  · split
    · exact setState (.refl s) (by decide)
    · exact emit_setState s (by simp) (by decide)

theorem handleRfcommDisconnect (s : Session) : Ends s (obexHandleRfcommDisconnect s) := by
  have hidle : Ends s ((s.emit .rfcommDisconnectResponse).setState .idle) :=
    emit_setState s (by simp) (by decide)
  rw [obexHandleRfcommDisconnect]
  split
  · exact hidle.trans (deleteSessionInd hidle.state)
  · exact hidle.trans (deleteSessionTask _)

/-! Every request except a CONNECT ends the handshake. -/

theorem handleAbortRequest (s : Session) : Ends s (obexHandleAbortRequest s) := by
  rw [obexHandleAbortRequest]
  split
  · rename_i hstate
    have hnot : ¬ s.isObexConnecting := by
      simp only [Session.isObexInPut, Session.isObexInGet, decide_eq_true_eq] at hstate
      rcases hstate with h | h <;> simp [Session.isObexConnecting, h]
    have hind : Ends s (obexAbortInd s) := emit hnot (by simp)
    exact hind.trans (sendResponse _ (.inl (by decide)))
  · exact sendResponse s (.inl (by decide))

theorem handleDisconnectRequest {s s' : Session}
    (h : obexHandleDisconnectRequest s pkt pktLen = some s') : Ends s s' := by
  obtain ⟨⟨valid, n⟩, -, rfl⟩ := map_eq_some_iff.mp h
  dsimp only
  split
  · have hresponse : Ends s (obexSendResponse s ObexStatus.remoteSuccess) :=
      sendResponse s (.inl (by decide))
    have hpkt : Ends s ((obexSendResponse s ObexStatus.remoteSuccess).setPktLen 0) :=
      hresponse.trans (of_quiet (.of_framed (.setPktLen _ 0)) hresponse.state)
    exact hpkt.trans (deleteSessionInd hpkt.state)
  · exact sendErrorResponse s _

theorem command (s : Session) (hst : st ≠ .connect ∧ st ≠ .authConnect)
    (id : ObexMessageId) (final : Bool) (n : ℕ) :
    Ends s (obexCommandInd (s.setState st) id final n) := by
  have hstate : Ends s (s.setState st) := setState (.refl s) hst
  exact hstate.trans (emit hstate.state (by simp))

theorem handleSetPathRequest (h : obexHandleSetPathRequest s pkt pktLen = some r) : Ends s r.2 := by
  have hrefuse : ∀ response, response ≠ ObexStatus.continue →
      Ends s (obexSendResponse s response) := fun _ h => sendResponse s (.inl h)
  rw [obexHandleSetPathRequest] at h
  split at h
  · obtain ⟨⟨valid, n⟩, -, h⟩ := bind_eq_some_iff.mp h
    dsimp only at h
    split at h
    · split at h
      · obtain rfl := some.inj h
        exact command s (by decide) _ _ _
      · obtain ⟨⟨name, n⟩, -, rfl⟩ := map_eq_some_iff.mp h
        exact command s (by decide) _ _ _
    · obtain rfl := some.inj h
      exact hrefuse ObexStatus.badRequest (by decide)
  · obtain rfl := some.inj h
    exact hrefuse ObexStatus.srvUnavailable (by decide)

theorem putGetInd (s : Session) (cmd : UInt8) (pktLen : ℕ) : Ends s (putGetInd s cmd pktLen) := by
  rw [Obex.putGetInd]
  split
  · exact command s (by decide) _ _ _
  · exact command s (by decide) _ _ _

theorem handlePutGetRequest (h : obexHandlePutGetRequest s pkt pktLen = some r) : Ends s r.2 := by
  have hrefuse : ∀ response, response ≠ ObexStatus.continue →
      Ends s (obexSendResponse s response) := fun _ h => sendResponse s (.inl h)
  rw [obexHandlePutGetRequest] at h
  split at h
  · split at h
    · obtain ⟨⟨valid, n⟩, -, rfl⟩ := map_eq_some_iff.mp h
      dsimp only
      split
      · exact putGetInd s _ _
      · exact hrefuse ObexStatus.srvUnavailable (by decide)
    · split at h
      · obtain rfl := some.inj h
        exact hrefuse ObexStatus.badRequest (by decide)
      · obtain rfl := some.inj h
        exact putGetInd s _ _
  · obtain rfl := some.inj h
    exact hrefuse ObexStatus.srvUnavailable (by decide)

theorem handleCommand (hop : pkt.getD 0 0 ≠ obexConnectOpcode) (h : obexHandleCommand s pkt pktLen = some r) :
    Ends s r.2 := by
  rw [obexHandleCommand, if_neg hop] at h
  split at h
  · obtain ⟨t, ht, rfl⟩ := map_eq_some_iff.mp h
    exact handleDisconnectRequest ht
  · split at h
    · obtain rfl := some.inj h
      exact handleAbortRequest s
    · split at h
      · exact handleSetPathRequest h
      · split at h
        · exact handlePutGetRequest h
        · obtain rfl := some.inj h
          exact sendErrorResponse s _

/-- A CONNECT is refused when none is under way. -/
theorem handleConnectRequest
    (hs : ¬ s.isObexConnecting) (h : obexHandleConnectRequest s pkt pktLen = some r) :
    Ends s r.2 := by
  obtain ⟨⟨response, t⟩, hresponse, rfl⟩ := map_eq_some_iff.mp h
  have hrefused : t = s ∧ response ≠ ObexStatus.remoteSuccess ∧ response ≠ obexUnauthorizedRsp := by
    rw [connectResponse, if_neg hs] at hresponse
    split at hresponse
    · obtain ⟨rfl, rfl⟩ := Prod.mk.inj (some.inj hresponse)
      exact ⟨rfl, by decide, by decide⟩
    · obtain ⟨rfl, rfl⟩ := Prod.mk.inj (some.inj hresponse)
      exact ⟨rfl, by decide, by decide⟩
  obtain ⟨rfl, hsuccess, hheld⟩ := hrefused
  change Ends t (connectReply t response)
  rcases connectReply_cases t response with ⟨u, -, hwait, -⟩ | ⟨u, -, hs, -⟩ |
    ⟨u, status, hu, hstatus, heq⟩
  · exact absurd hwait (by simp [hsuccess, hheld])
  · exact absurd hs hsuccess
  · rw [heq]
    exact connectCfm_failure hu hstatus

theorem incomingIteration {r : Bool × Session}
    (hserver : s.isObexServer) (hs : ¬ s.isObexConnecting)
    (h : incomingIteration s beyond = some r) : Ends s r.2 := by
  rcases incomingIteration_cases hserver h with ⟨hr, -⟩ | ⟨hr, -⟩ | ⟨n, t, ht, hr, -⟩
  · rw [hr]
    exact refl hs
  · rw [hr]
    exact (of_quiet (.setSource s []) hs).trans (sendErrorResponse _ _)
  · have hreceived : Ends s (s.emit (.received s.state (s.sourceMap beyond)
        (uint8ToUint16 (s.sourceMap beyond) 1))) := emit hs (by simp)
    have hhandled : Ends s t := by
      refine hreceived.trans ?_
      by_cases hop : (s.sourceMap beyond).getD 0 0 = obexConnectOpcode
      · rw [obexHandleCommand, if_pos hop] at ht
        exact handleConnectRequest hreceived.state ht
      · exact handleCommand hop ht
    rw [hr]
    exact hhandled.trans (of_quiet ((Quiet.setSource t _).trans (.setSrcUsed _ _)) hhandled.state)

theorem handleIncomingPacket {s s' : Session} {n : ℕ}
    (hserver : s.isObexServer) (hs : ¬ s.isObexConnecting)
    (h : obexHandleIncomingPacket s beyond n = some s') : Ends s s' := by
  induction n generalizing s with
  | zero => exact some.inj h ▸ refl hs
  | succ n ih =>
    obtain ⟨⟨goesOn, t⟩, ht, h⟩ := bind_eq_some_iff.mp h
    have hends : Ends s t := incomingIteration hserver hs ht
    cases goesOn with
    | false => exact some.inj h ▸ hends
    | true => exact hends.trans (ih (hends.continues.isObexServer.trans hserver) hends.state h)

end Ends

/-- **No second handshake.** Once no CONNECT is under way, none is ever again, and no connection
is confirmed. -/
theorem ends_step {s s' : Session} {e : Event} (hserver : s.isObexServer)
    (hs : ¬ s.isObexConnecting) (h : step s e = some s') : Ends s s' := by
  cases e with
  | receive octets => exact some.inj h ▸ .of_quiet (.setSource s _) hs
  | moreData beyond iterations => exact .handleIncomingPacket hserver hs h
  | sinkSpace slack => exact some.inj h ▸ .of_quiet (.setSink s _) hs
  | rfcommDisconnectInd => exact some.inj h ▸ .handleRfcommDisconnect s
  | putResponse response | getResponse response | setPathResponse response => exact some.inj h ▸ .sendResponse s (.inr hs)
  | authReqResponse nonce options realm =>
    obtain rfl := some.inj h
    rw [obexAuthReqResponse, if_neg hs]
    exact .refl hs
  | authClgResponse reqDigest userId =>
    obtain rfl := some.inj h
    rw [obexAuthClgResponse, if_neg hs]
    exact .refl hs
  | deleteSessionResponse => exact some.inj h ▸ .deleteSessionTask s
  | sourceDrop => exact some.inj h ▸ .of_quiet (.sourceEmpty s) hs
  | objNew => exact some.inj h ▸ .of_quiet (.of_framed (Framed.newPacket s _ _)) hs
  | objDelete => exact some.inj h ▸ .of_quiet (.objFlush s _) hs
  | objAddByteHdr hdrId hdrVal =>
    exact some.inj h ▸ .of_quiet (.of_framed (Framed.addUint32Header s _ _)) hs
  | objAddVariableHdr hdrId hdrLen src => exact .of_quiet (quiet_objAddVariableHdr h) hs

end Cbps.Obex
