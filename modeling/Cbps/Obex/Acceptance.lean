import Cbps.Obex.History

/-!
# Acceptance before requests

A server session with a Target must have accepted a CONNECT for this Target before it becomes
ready or hands a request to the application. `Guarded` states this on the session and its log.
Error replies, abort replies and responses of the application put a session into
`obex_connected` without looking whether it is still connecting; in runs where none of them
happens before the acceptance, `guarded_of_run`, every state is guarded.
-/

namespace Cbps.Obex

open List Option

/-! ### Acceptance in the log -/

/-- The `len` octets at `pkt` are a CONNECT whose Target header is `target`. -/
def ConnectFor (target pkt : List UInt8) (len : ℕ) : Prop :=
  pkt.getD 0 0 = obexConnectOpcode ∧ obexPktConnectHdrSize ≤ len ∧
    ∃ off, obexGetSeqHeader (pkt.drop obexPktConnectHdrSize) (len - obexPktConnectHdrSize)
      obexTargetHdr = some (some off, target.length) ∧
      octetsAt (pkt.drop obexPktConnectHdrSize) off target.length = target

/-- A CONNECT for `target` came in while the session was connecting and is not confirmed yet. -/
def Pending (target : List UInt8) (log : List Effect) : Prop :=
  ∃ before state pkt len since, log = before ++ .received state pkt len :: since ∧
    (state = .connect ∨ state = .authConnect) ∧ ConnectFor target pkt len ∧
    ∀ status n, .app (.connectCfm status n) ∉ since

/-- A CONNECT for `target` was accepted. -/
def Accepted (target : List UInt8) (log : List Effect) : Prop :=
  ∃ before n since, log = before ++ .app (.connectCfm ObexStatus.remoteSuccess n) :: since ∧
    Pending target before

theorem Accepted.mono {target : List UInt8} {log log' : List Effect} (h : Accepted target log)
    (hlog : log <+: log') : Accepted target log' := by
  obtain ⟨before, n, since, rfl, hpending⟩ := h
  obtain ⟨rest, rfl⟩ := hlog
  exact ⟨before, n, since ++ rest, by simp, hpending⟩

theorem Pending.append {target : List UInt8} {log es : List Effect} (h : Pending target log)
    (hes : ∀ status n, .app (.connectCfm status n) ∉ es) : Pending target (log ++ es) := by
  obtain ⟨before, state, pkt, len, since, rfl, hstate, hfor, hsince⟩ := h
  refine ⟨before, state, pkt, len, since ++ es, by simp, hstate, hfor, fun status n hmem => ?_⟩
  exact (mem_append.mp hmem).elim (hsince status n) (hes status n)

/-- The pending CONNECT is accepted when it is confirmed. -/
theorem Pending.accepted {target : List UInt8} {log : List Effect} (h : Pending target log)
    (n : ℕ) : Accepted target (log ++ [.app (.connectCfm ObexStatus.remoteSuccess n)]) :=
  ⟨log, n, [], rfl, h⟩

/-! ### Guarded sessions -/

/-- A PUT, GET or SETPATH that is handed to the application. -/
def Effect.isRequest : Effect → Bool
  | .app (.commandInd ..) => true
  | _ => false

/-- The session is a server for `target`, is ready only after a CONNECT for it was accepted, and
has handed requests to the application only after that. -/
structure Guarded (target : List UInt8) (s : Session) : Prop where
  server : s.isObexServer
  targetWho : s.targetWho = some target
  ready : s.isObexReady → Accepted target s.log
  requests : ∀ before e since, s.log = before ++ e :: since → e.isRequest → Accepted target before

namespace Guarded

variable {target : List UInt8} {s s' : Session}

/-- After the acceptance everything is allowed. -/
theorem of_accepted (h : Guarded target s) (hacc : Accepted target s.log)
    (hcont : Continues s s') : Guarded target s' where
  server := hcont.isObexServer.trans h.server
  targetWho := hcont.targetWho.trans h.targetWho
  ready _ := hacc.mono hcont.log
  requests before e since hlog he := by
    obtain ⟨rest, hrest⟩ := hcont.log
    rcases append_eq_append_iff.mp (hrest.trans hlog) with ⟨more, rfl, -⟩ | ⟨more, hs, hmore⟩
    · exact hacc.mono (prefix_append _ _)
    · cases more with
      | nil => exact hacc.mono (by simp [hs])
      | cons e' more =>
        obtain ⟨rfl, -⟩ := List.cons.inj hmore
        exact h.requests before _ _ hs he

/-- Without a request in the new log entries, only the state has to be looked at. -/
theorem of_append (h : Guarded target s) {es : List Effect} (hcont : Continues s s')
    (hlog : s'.log = s.log ++ es) (hes : ∀ e ∈ es, ¬ e.isRequest)
    (hready : s'.isObexReady → Accepted target s'.log) : Guarded target s' where
  server := hcont.isObexServer.trans h.server
  targetWho := hcont.targetWho.trans h.targetWho
  ready := hready
  requests before e since hbefore he := by
    rcases append_eq_append_iff.mp (hlog.symm.trans hbefore) with
      ⟨more, rfl, hmore⟩ | ⟨more, hs, hmore⟩
    · exact absurd he (hes e (by rw [hmore]; simp))
    · cases more with
      | nil => exact absurd he (hes e (by rw [← nil_append es, ← hmore]; simp))
      | cons e' more =>
        obtain ⟨rfl, -⟩ := List.cons.inj hmore
        exact h.requests before _ _ hs he

theorem of_quiet (h : Guarded target s) (hq : Quiet s s') : Guarded target s' := by
  have hcont := Continues.of_quiet hq
  obtain ⟨m, source, srcUsed, n, k, es, rfl, hes⟩ := hq
  refine h.of_append hcont rfl (fun e he hreq => ?_) fun hready => (h.ready hready).mono hcont.log
  have := hes e he
  cases e with
  | app m => cases m <;> simp_all [Effect.isRequest, Effect.isRoutine]
  | _ => simp_all [Effect.isRequest, Effect.isRoutine]

/-- A failed confirmation, and the clean-up that follows it. -/
theorem connectCfm_failure (h : Guarded target s) {status : ObexStatus}
    (hstatus : status ≠ ObexStatus.remoteSuccess) : Guarded target (obexConnectCfm s status) := by
  have hcont := Continues.connectCfm s status
  by_cases hacc : Accepted target s.log
  · exact h.of_accepted hacc hcont
  · have hready : ¬ s.isObexReady := fun hready => hacc (h.ready hready)
    have hcfm := Continues.emit s (.app (.connectCfm status s.maxPktLen))
    rw [obexConnectCfm_failure hstatus]
    split
    · exact h.of_append (hcfm.trans (.emit _ _)) (List.append_assoc ..) (by simp [Effect.isRequest])
        fun h' => absurd h' hready
    · exact h.of_append hcfm rfl (by simp [Effect.isRequest]) fun h' => absurd h' hready

/-- The confirmation of a pending CONNECT. -/
theorem connectCfm_success (h : Guarded target s) (hpending : Pending target s.log) :
    Guarded target (obexConnectCfm s ObexStatus.remoteSuccess) :=
  h.of_append (.connectCfm s _) rfl (by simp [Effect.isRequest]) fun _ => hpending.accepted _

/-- A session that is not ready. -/
theorem setState (h : Guarded target s) {st : ObexState}
    (hst : st.toNat < ObexState.connected.toNat) : Guarded target (s.setState st) where
  server := h.server
  targetWho := h.targetWho
  ready hready := absurd (of_decide_eq_true hready) (Nat.not_le.mpr hst)
  requests := h.requests

end Guarded

theorem Pending.of_quiet {target : List UInt8} {s s' : Session} (h : Pending target s.log)
    (hq : Quiet s s') : Pending target s'.log := by
  obtain ⟨m, source, srcUsed, n, k, es, rfl, hes⟩ := hq
  exact h.append fun status n hmem => absurd (hes _ hmem) (by simp [Effect.isRoutine])

/-! ### CONNECT requests -/

/-- A CONNECT that is answered with success, if only after the application is asked. -/
theorem connectFor_of_connectResponse {target pkt : List UInt8} {s t : Session} {pktLen : ℕ}
    {response : ObexStatus} (hserver : s.isObexServer) (htarget : s.targetWho = some target)
    (hop : pkt.getD 0 0 = obexConnectOpcode)
    (h : connectResponse s pkt pktLen = some (response, t))
    (hresponse : response = ObexStatus.remoteSuccess) :
    s.isObexConnecting ∧ ConnectFor target pkt pktLen := by
  subst hresponse
  have hne : ∀ status : ObexStatus, status ≠ ObexStatus.remoteSuccess → ∀ u,
      some (status, u) ≠ some (ObexStatus.remoteSuccess, t) :=
    fun status hstatus u heq => hstatus (congrArg Prod.fst (some.inj heq))
  rw [connectResponse] at h
  split at h
  · exact absurd h (hne _ (by decide) _)
  · rename_i hlen
    split at h
    · rename_i hconn
      refine ⟨hconn, hop, Nat.le_of_not_lt hlen, ?_⟩
      rw [if_pos (by rw [htarget]; rfl)] at h
      obtain ⟨valid, hvalid, h⟩ := bind_eq_some_iff.mp h
      cases valid with
      | false => exact absurd h (hne _ (by decide) _)
      | true =>
        rw [obexValidateSession, isObexClient_of_server hserver] at hvalid
        obtain ⟨⟨value, len⟩, hget, hvalid⟩ := map_eq_some_iff.mp hvalid
        simp only [Session.sizeTargetWho, htarget, getD_some, decide_eq_true_eq] at hvalid
        obtain ⟨rfl, off, hoff, hoctets⟩ := hvalid
        exact ⟨off, by rw [← mem_def.mp hoff]; exact hget, hoctets⟩
    · exact absurd h (hne _ (by decide) _)

theorem Guarded.handleConnectRequest {target pkt : List UInt8} {s : Session} {pktLen : ℕ}
    {r : ℕ × Session} (h : Guarded target s) (hop : pkt.getD 0 0 = obexConnectOpcode)
    (hr : obexHandleConnectRequest (s.emit (.received s.state pkt pktLen)) pkt pktLen = some r) :
    Guarded target r.2 := by
  have hs : Guarded target (s.emit (.received s.state pkt pktLen)) :=
    h.of_append (.emit s _) rfl (by simp [Effect.isRequest])
      fun hready => (h.ready hready).mono (prefix_append _ _)
  obtain ⟨⟨response, t⟩, hresponse, rfl⟩ := map_eq_some_iff.mp hr
  have hquiet := Quiet.of_reports (.connectResponse hresponse)
  have ht : Guarded target t := hs.of_quiet hquiet
  change Guarded target (connectReply t response)
  rcases connectReply_cases t response with ⟨u, hframe, -, heq⟩ | ⟨u, hu, hsuccess, -, heq⟩ |
    ⟨u, status, hu, hstatus, heq⟩
  · rw [heq]
    have hframed := Framed.frameConnectPkt t response
    rw [hframe] at hframed
    exact ht.of_quiet (.of_framed hframed)
  · rw [heq]
    obtain ⟨hconn, hfor⟩ :=
      connectFor_of_connectResponse hs.server hs.targetWho hop hresponse hsuccess
    have hstate : s.state = .connect ∨ s.state = .authConnect := by
      have hconn' : s.isObexConnecting := hconn
      simpa [Session.isObexConnecting] using hconn'
    have hpending : Pending target (s.emit (.received s.state pkt pktLen)).log :=
      ⟨s.log, s.state, pkt, pktLen, [], rfl, hstate, hfor, by simp⟩
    exact (ht.of_quiet hu).connectCfm_success ((hpending.of_quiet hquiet).of_quiet hu)
  · rw [heq]
    exact ((ht.of_quiet hu).setState (by decide)).connectCfm_failure hstatus

/-! ### Steps before the acceptance -/

/-- The next iteration of the receive loop meets a packet that puts the session into
`obex_connected` whatever state it is in: too long, or neither a CONNECT nor a DISCONNECT with the
connection ID of the session. -/
def StrayPacket (s : Session) (beyond : List UInt8) : Prop :=
  obexPktHdrSize ≤ s.sourceBoundary ∧ s.srcUsed = 0 ∧
    (s.maxPktLen < uint8ToUint16 (s.sourceMap beyond) 1 ∨
      uint8ToUint16 (s.sourceMap beyond) 1 ≤ s.sourceBoundary ∧
        (s.sourceMap beyond).getD 0 0 ≠ obexConnectOpcode ∧
        ¬ ((s.sourceMap beyond).getD 0 0 = obexDisconnect ∧ ∃ n,
          obexValidateConnectionID s (s.sourceMap beyond) (uint8ToUint16 (s.sourceMap beyond) 1) =
            some (true, n)))

/-- No iteration of the receive loop meets a stray packet before the acceptance. -/
def NoStrayPacket (target : List UInt8) (s : Session) (beyond : List UInt8) : (n : ℕ) → Prop
  | 0 => True
  | n + 1 => (Accepted target s.log ∨ ¬ StrayPacket s beyond) ∧
      ∀ s', incomingIteration s beyond = some (true, s') → NoStrayPacket target s' beyond n

/-- Before the acceptance, no packet and no response of the application puts the session into
`obex_connected`: no stray packet comes in, a request that was never indicated is at most
answered with `continue`, and no authentication is answered that was not asked for. -/
def Orderly (target : List UInt8) (s : Session) (e : Event) : Prop :=
  Accepted target s.log ∨
    match e with
    | .moreData beyond n => NoStrayPacket target s beyond n
    | .putResponse response | .getResponse response => response = ObexStatus.continue
    | .setPathResponse _ => False
    | .authReqResponse .. => s.isObexConnecting → s.auth ∨ Pending target s.log
    | .authClgResponse .. => s.isObexConnecting → Pending target s.log
    | _ => True

namespace Guarded

variable {target : List UInt8} {s s' : Session}

/-- A response `continue` does not touch the state. -/
theorem sendResponse_continue (h : Guarded target s) :
    Guarded target (obexSendResponse s ObexStatus.continue) := by
  obtain ⟨t, ht, heq⟩ := obexSendResponse_eq s ObexStatus.continue
  rw [heq, if_pos rfl]
  exact h.of_quiet ht

/-- A valid DISCONNECT passes through `obex_connected` and ends in `obex_session`. -/
theorem handleDisconnectRequest {pkt : List UInt8} {pktLen n : ℕ} (h : Guarded target s)
    (hvalid : obexValidateConnectionID s pkt pktLen = some (true, n))
    (hs' : obexHandleDisconnectRequest s pkt pktLen = some s') : Guarded target s' := by
  obtain ⟨t, ht, heq⟩ := obexSendResponse_eq s ObexStatus.remoteSuccess
  rw [obexHandleDisconnectRequest, hvalid, map_some] at hs'
  obtain rfl := some.inj hs'
  have hend : Guarded target ((t.setPktLen 0).setState .session) :=
    ((h.of_quiet ht).of_quiet (.of_framed (.setPktLen t 0))).setState (by decide)
  change Guarded target (obexDeleteSessionInd ((obexSendResponse s _).setPktLen 0))
  rw [heq, if_neg (by decide)]
  exact hend.of_append (.emit _ (.app .deleteSessionInd)) rfl (by simp [Effect.isRequest])
    fun hready => absurd hready Bool.false_ne_true

/-- A packet that is not stray. -/
theorem incomingIteration {beyond : List UInt8} {r : Bool × Session} (h : Guarded target s)
    (hstray : ¬ StrayPacket s beyond) (hr : incomingIteration s beyond = some r) :
    Guarded target r.2 := by
  rcases incomingIteration_cases h.server hr with ⟨hs, -⟩ | ⟨-, hsize, hused, hlong⟩ |
    ⟨n, t, ht, hs, hsize, hused, hlen⟩
  · rw [hs]
    exact h
  · exact absurd ⟨hsize, hused, .inl hlong⟩ hstray
  · generalize hpkt : s.sourceMap beyond = pkt at ht hs hlen
    generalize hpktLen : uint8ToUint16 pkt 1 = pktLen at ht hs hlen
    rw [hs]
    suffices Guarded target t from
      this.of_quiet ((Quiet.setSource t _).trans (Quiet.setSrcUsed _ _))
    by_cases hop : pkt.getD 0 0 = obexConnectOpcode
    · rw [obexHandleCommand, if_pos hop] at ht
      exact h.handleConnectRequest hop ht
    · have hdisconnect : pkt.getD 0 0 = obexDisconnect ∧ ∃ n,
          obexValidateConnectionID s pkt pktLen = some (true, n) := by
        by_contra hnot
        refine hstray ⟨hsize, hused, .inr ?_⟩
        rw [hpkt, hpktLen]
        exact ⟨hlen, hop, hnot⟩
      obtain ⟨hop', n, hvalid⟩ := hdisconnect
      rw [obexHandleCommand, if_neg hop, if_pos hop'] at ht
      obtain ⟨u, hu, heq⟩ := map_eq_some_iff.mp ht
      obtain ⟨-, rfl⟩ := Prod.mk.inj heq
      have hs : Guarded target (s.emit (.received s.state pkt pktLen)) :=
        h.of_append (.emit s _) rfl (by simp [Effect.isRequest])
          fun hready => (h.ready hready).mono (prefix_append _ _)
      exact hs.handleDisconnectRequest (n := n) hvalid hu

/-- One iteration after the other. -/
theorem handleIncomingPacket {beyond : List UInt8} {n : ℕ} (h : Guarded target s)
    (hok : NoStrayPacket target s beyond n)
    (hs' : obexHandleIncomingPacket s beyond n = some s') : Guarded target s' := by
  induction n generalizing s with
  | zero => exact some.inj hs' ▸ h
  | succ n ih =>
    obtain ⟨⟨goesOn, t⟩, ht, hrest⟩ := bind_eq_some_iff.mp hs'
    have hguarded : Guarded target t := by
      rcases hok.1 with hacc | hstray
      · exact h.of_accepted hacc (Continues.incomingIteration h.server ht)
      · exact h.incomingIteration hstray ht
    cases goesOn with
    | false => exact some.inj hrest ▸ hguarded
    | true => exact ih hguarded (hok.2 t ht) hrest

/-- Before the acceptance, an authentication packet is a challenge of a session that still wants
to authenticate, or answers the pending CONNECT. -/
theorem sendAuthPacket {hdr : UInt8} {src : List UInt8} (h : Guarded target s)
    (hok : hdr = obexAuthChallenge ∧ s.auth ∨ Pending target s.log) :
    Guarded target (obexSendAuthPacket s hdr src) := by
  rw [obexSendAuthPacket_server h.server rfl]
  have hframe : Framed s (if src.length ≠ 0 then obexAddSeqHeader s hdr src else (true, s)).2 := by
    split
    · exact .addSeqHeader s hdr src
    · exact .refl s
  generalize (if src.length ≠ 0 then obexAddSeqHeader s hdr src else (true, s)) = r at hframe ⊢
  obtain ⟨ok, t⟩ := r
  have ht : Guarded target t := h.of_quiet (.of_framed hframe)
  have hpending : Pending target s.log → Pending target t.log := fun hp =>
    hp.of_quiet (.of_framed hframe)
  dsimp only
  split
  · split
    · have hauth : Guarded target (t.setState .authConnect) := ht.setState (by decide)
      split
      · exact hauth.of_quiet (.flushPacket _ _)
      · rename_i hnot
        have hp := hpending (hok.resolve_left fun hchallenge => hnot hchallenge.2)
        exact (hauth.of_quiet (.flushPacket _ _)).connectCfm_success
          (Pending.of_quiet (s := t.setState .authConnect) hp (.flushPacket _ _))
    · rename_i hhdr
      have hp := hpending (hok.resolve_left fun hchallenge => hhdr hchallenge.1)
      have hauth : Guarded target { t with auth := false } :=
        ⟨ht.server, ht.targetWho, ht.ready, ht.requests⟩
      exact (hauth.of_quiet (.flushPacket _ _)).connectCfm_success
        (Pending.of_quiet (s := { t with auth := false }) hp (.flushPacket _ _))
  · exact ht.connectCfm_failure (by decide)

theorem deleteSessionTask (h : Guarded target s) : Guarded target (obexDeleteSessionTask s) := by
  rw [obexDeleteSessionTask]
  split
  · exact h.of_append (.emit s _) rfl (by simp [Effect.isRequest])
      fun hready => (h.ready hready).mono (prefix_append _ _)
  · split
    · exact h.setState (by decide)
    · exact (h.of_append (.emit s .rfcommDisconnectRequest) rfl (by simp [Effect.isRequest])
        fun hready => (h.ready hready).mono (prefix_append _ _)).setState (by decide)

theorem handleRfcommDisconnect (h : Guarded target s) :
    Guarded target (obexHandleRfcommDisconnect s) := by
  have hidle : Guarded target ((s.emit .rfcommDisconnectResponse).setState .idle) :=
    (h.of_append (.emit s .rfcommDisconnectResponse) rfl (by simp [Effect.isRequest])
      fun hready => (h.ready hready).mono (prefix_append _ _)).setState (by decide)
  rw [obexHandleRfcommDisconnect]
  split
  · exact hidle.of_append (.emit _ (.app .deleteSessionInd)) rfl (by simp [Effect.isRequest])
      fun hready => absurd hready Bool.false_ne_true
  · exact hidle.deleteSessionTask

/-- **The step lemma.** An orderly step keeps a session guarded. -/
theorem step {e : Event} (h : Guarded target s) (hok : Orderly target s e)
    (hs' : step s e = some s') : Guarded target s' := by
  rcases hok with hacc | hok
  · exact h.of_accepted hacc (continues_step h.server hs')
  · cases e with
    | receive octets => exact some.inj hs' ▸ h.of_quiet (.setSource s _)
    | moreData beyond n => exact h.handleIncomingPacket hok hs'
    | sinkSpace slack => exact some.inj hs' ▸ h.of_quiet (.setSink s _)
    | rfcommDisconnectInd => exact some.inj hs' ▸ h.handleRfcommDisconnect
    | putResponse response | getResponse response =>
      obtain rfl : response = ObexStatus.continue := hok
      exact some.inj hs' ▸ h.sendResponse_continue
    | setPathResponse response => exact absurd hok id
    | authReqResponse nonce options realm =>
      obtain rfl := some.inj hs'
      rw [obexAuthReqResponse]
      split
      · rename_i hconn
        exact h.sendAuthPacket ((hok hconn).imp_left fun hauth => ⟨rfl, hauth⟩)
      · exact h
    | authClgResponse reqDigest userId =>
      obtain rfl := some.inj hs'
      rw [obexAuthClgResponse]
      split
      · rename_i hconn
        exact h.sendAuthPacket (.inr (hok hconn))
      · exact h
    | deleteSessionResponse => exact some.inj hs' ▸ h.deleteSessionTask
    | sourceDrop => exact some.inj hs' ▸ h.of_quiet (.sourceEmpty s)
    | objNew => exact some.inj hs' ▸ h.of_quiet (.of_framed (.newPacket s _ _))
    | objDelete => exact some.inj hs' ▸ h.of_quiet (.objFlush s _)
    | objAddByteHdr hdrId hdrVal =>
      exact some.inj hs' ▸ h.of_quiet (.of_framed (.addUint32Header s _ _))
    | objAddVariableHdr hdrId hdrLen src => exact h.of_quiet (quiet_objAddVariableHdr hs')

end Guarded

/-! ### Whole runs -/

/-- A session with a Target is guarded when its channel has come up. -/
theorem guarded_serverSession {connParams : ObexConnParams} {target : List UInt8}
    (h : connParams.target = some target) (sink : Sink) (source : List UInt8) (payloadSize : ℕ) :
    Guarded target (serverSession connParams sink source payloadSize) := by
  have hcreated : Guarded target { obexConnectResponse connParams sink source with
      maxPktLen := obexMaxPacketSize / payloadSize * payloadSize } :=
    ⟨rfl, h, fun hready => absurd hready Bool.false_ne_true,
      fun before e since hlog => absurd hlog (by simp [obexConnectResponse, obexCreateSession])⟩
  have hcfm := hcreated.of_append (.emit _ (.app (.createSessionCfm ObexStatus.success))) rfl
    (by simp [Effect.isRequest]) fun hready => absurd hready Bool.false_ne_true
  exact (hcfm.setState (show ObexState.connect.toNat < ObexState.connected.toNat by decide)).of_quiet
    (.sourceEmpty _)

/-- **Acceptance before requests.** In a run whose steps are orderly before the acceptance, every
state is guarded: the session is ready, and requests were indicated, only after a CONNECT for
its Target was accepted. -/
theorem guarded_of_run {connParams : ObexConnParams} {target : List UInt8} {sink : Sink}
    {source : List UInt8} {payloadSize : ℕ} {events : List Event} {s : Session}
    (htarget : connParams.target = some target)
    (hok : Lib.RunMeets step (Orderly target) (serverSession connParams sink source payloadSize)
      events)
    (hrun : Lib.run step (serverSession connParams sink source payloadSize) events = some s) :
    Guarded target s :=
  Lib.run_invariant (fun _ _ _ hinv hok hs => Guarded.step hinv hok hs)
    (guarded_serverSession htarget sink source payloadSize) hok hrun

/-- An orderly run: a CONNECT for the Target is accepted and the session is ready. -/
theorem guarded_of_run_connect :
    let s := serverSession ⟨some [0x01], false⟩ ⟨[], 1000, by decide⟩ [] 100
    let connect := [0x80, 0, 11, 0x10, 0, 0x10, 0, 0x46, 0, 4, 0x01]
    ∃ t, Lib.run step s [.receive connect, .moreData [] 1] = some t ∧ t.isObexReady ∧
      Guarded [0x01] t := by
  intro s connect
  have hready : (Lib.run step s [.receive connect, .moreData [] 1]).map Session.isObexReady =
      some true := by decide
  obtain ⟨t, hrun, hready⟩ := map_eq_some_iff.mp hready
  refine ⟨t, hrun, hready, guarded_of_run (by rfl) ?_ hrun⟩
  refine ⟨.inr trivial, fun s' hs' => ⟨.inr ⟨.inr fun hstray => ?_, fun _ _ => trivial⟩,
    fun _ _ => trivial⟩⟩
  obtain rfl := some.inj hs'
  obtain ⟨-, -, hlong | ⟨-, hop, -⟩⟩ := hstray
  · exact absurd hlong (by decide)
  · exact hop rfl

/-- An ABORT makes a session ready that is still connecting: nothing was accepted. -/
theorem ready_of_abort :
    let s := serverSession ⟨some [0x01], false⟩ ⟨[], 1000, by decide⟩ [] 100
    ∃ t, Lib.run step s [.receive [0xFF, 0, 3], .moreData [] 1] = some t ∧ t.isObexReady ∧
      ¬ Accepted [0x01] t.log := by
  intro s
  have hlog : (Lib.run step s [.receive [0xFF, 0, 3], .moreData [] 1]).map
      (fun t => (t.isObexReady, t.log)) = some (true, [.app (.createSessionCfm ObexStatus.success),
        .received .connect [0xFF, 0, 3] 3, .moreData, .flushed [0xA0, 0, 3]]) := by
    decide
  obtain ⟨t, hrun, ht⟩ := map_eq_some_iff.mp hlog
  obtain ⟨hready, hlog⟩ := Prod.mk.inj ht
  refine ⟨t, hrun, hready, ?_⟩
  rintro ⟨before, n, since, hsplit, -⟩
  have hmem : Effect.app (.connectCfm ObexStatus.remoteSuccess n) ∈ t.log := by simp [hsplit]
  simp [hlog] at hmem

end Cbps.Obex
