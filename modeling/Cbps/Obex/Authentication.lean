import Cbps.Obex.Append
import Cbps.Obex.History

/-!
# Mutual authentication

A server session that was created with the authentication flag confirms a connection only after
it has sent its own challenge and the remote side has answered it. `Handshake` is the invariant:
the flag stays set until the answer is in, and the packet under construction is the CONNECT
reply that is held back for the application. The application must answer in the order of the
handshake, `InOrder`; a response to the remote challenge that is given before the own challenge
was answered confirms the connection all the same.
-/

namespace Cbps.Obex

open List Option

/-! ### Authentication in the log -/

/-- The session has sent a challenge: an `unauthorized` CONNECT reply, with the Who header or
without it, that ends with the challenge. -/
def ChallengeSent (log : List Effect) : Prop :=
  ∃ header who nonce options realm,
    .flushed (obexUnauthorizedRsp :: (header ++ who ++
      seqHeader obexAuthChallenge (authReqDigest nonce options realm))) ∈ log ∧
    header.length = 6 ∧ (who = [] ∨ ∃ target, who = seqHeader obexWhoHdr target)

/-- After its challenge, the session has received a CONNECT with a response digest in
`obex_auth_connect` and passed the digest on. -/
def Authenticated (log : List Effect) : Prop :=
  ∃ before pkt len since off n userId,
    log = before ++ .received .authConnect pkt len :: since ∧ ChallengeSent before ∧
    pkt.getD 0 0 = obexConnectOpcode ∧
    obexGetDigest (pkt.drop obexPktConnectHdrSize) (len - obexPktConnectHdrSize) obexAuthResponse
      obexRspDigestTag = some (some off, n) ∧
    .app (.authRspCfm (octetsAt ((pkt.drop obexPktConnectHdrSize).drop off) obexTlvHdrSize
      obexSizeDigest) userId) ∈ since

variable {log log' : List Effect}

theorem ChallengeSent.mono (h : ChallengeSent log)
    (hlog : log <+: log') : ChallengeSent log' := by
  obtain ⟨header, who, nonce, options, realm, hmem, hshape⟩ := h
  exact ⟨header, who, nonce, options, realm, hlog.subset hmem, hshape⟩

theorem Authenticated.mono (h : Authenticated log)
    (hlog : log <+: log') : Authenticated log' := by
  obtain ⟨before, pkt, len, since, off, n, userId, rfl, hsent, hop, hdigest, hcfm⟩ := h
  obtain ⟨rest, rfl⟩ := hlog
  exact ⟨before, pkt, len, since ++ rest, off, n, userId, by simp, hsent, hop, hdigest,
    mem_append_left _ hcfm⟩

/-- Every confirmed connection was authenticated before. -/
def ConfirmsAuthenticated (log : List Effect) : Prop :=
  ∀ before n since, log = before ++ .app (.connectCfm ObexStatus.remoteSuccess n) :: since →
    Authenticated before

theorem ConfirmsAuthenticated.append {log es : List Effect} (h : ConfirmsAuthenticated log)
    (hes : ∀ n, .app (.connectCfm ObexStatus.remoteSuccess n) ∈ es → Authenticated log) :
    ConfirmsAuthenticated (log ++ es) := by
  intro before n since hlog
  rcases append_eq_append_iff.mp hlog with ⟨more, rfl, hmore⟩ | ⟨more, hs, hmore⟩
  · exact (hes n (by rw [hmore]; simp)).mono (prefix_append _ _)
  · cases more with
    | nil =>
      rw [hs, append_nil] at hes
      exact hes n (by rw [← nil_append es, ← hmore]; simp)
    | cons e more =>
      obtain ⟨rfl, -⟩ := List.cons.inj hmore
      exact h before _ _ hs

/-! ### The CONNECT reply -/

/-- The packet is a CONNECT reply, with the Who header or without it. -/
def IsConnectReply (pkt : List UInt8) : Prop :=
  ∃ header who, pkt = header ++ who ∧ header.length = obexPktConnectHdrSize ∧
    (who = [] ∨ ∃ target, who = seqHeader obexWhoHdr target)

/-- A session that holds a packet back cannot frame another one. -/
theorem obexFrameConnectPkt_busy {s : Session} (h : s.pktLen ≠ 0) (response : UInt8) :
    obexFrameConnectPkt s response = (false, s) := by
  rw [obexFrameConnectPkt, obexNewPacket, if_pos h]
  rfl

theorem obexFrameConnectPkt_isConnectReply {s t : Session} {response : UInt8}
    (hserver : s.isObexServer) (hpkt : s.pktLen = 0) (hconn : s.connID = obexInvalidUint32)
    (h : obexFrameConnectPkt s response = (true, t)) :
    obexPktConnectHdrSize ≤ t.pktLen ∧ Room t 0 ∧ IsConnectReply t.packet := by
  rw [obexFrameConnectPkt] at h
  generalize hnew : obexNewPacket s (connectDataLen s response) obexConnectOpcode = r at h
  obtain ⟨n, u⟩ := r
  dsimp only at h
  split at h
  · exact absurd (congrArg Prod.fst h) Bool.false_ne_true
  · rename_i hn
    obtain ⟨hframe, hlen, hroom⟩ := obexNewPacket_room hpkt hconn hnew hn
    have hhdr : u.pktLen = obexPktConnectHdrSize := by
      rw [hlen, pktHdrLen, if_neg (not_not_intro hconn)]
      rfl
    have hserver' : (u.storeConnectHeader response).isObexServer := by
      obtain ⟨m, k, rfl⟩ := hframe
      exact hserver
    have hroom' : Room (u.storeConnectHeader response) 0 :=
      ((hroom.mono (Nat.zero_le _)).store _ _).store _ _ |>.store _ _
    have hlen' : (u.storeConnectHeader response).packet.length = obexPktConnectHdrSize :=
      (length_take_of_le hroom'.packet).trans hhdr
    have hhdr' : (u.storeConnectHeader response).pktLen = obexPktConnectHdrSize := hhdr
    generalize u.storeConnectHeader response = v at *
    split at h
    · rcases obexAddSeqHeader_cases hroom' obexWhoHdr (v.targetWho.getD []) with
        hfail | ⟨w, hw, happ, hroom⟩
      · rw [hfail] at h
        exact absurd (congrArg Prod.fst h) Bool.false_ne_true
      · rw [hw] at h
        obtain ⟨-, rfl⟩ := Prod.mk.inj h
        refine ⟨?_, hroom, v.packet, _, happ.packet, hlen', .inr ⟨_, rfl⟩⟩
        rw [happ.pktLen, hhdr']
        exact Nat.le_add_right _ _
    · obtain ⟨-, rfl⟩ := Prod.mk.inj h
      exact ⟨Nat.le_of_eq hhdr'.symm, hroom', _, [], (append_nil _).symm, hlen', .inl rfl⟩

/-! ### The invariant -/

/-- A server session that authenticates. -/
structure Handshake (s : Session) : Prop where
  server : s.isObexServer
  connID : s.connID = obexInvalidUint32
  confirms : ConfirmsAuthenticated s.log
  auth : s.isObexConnecting → s.auth
  /-- What is held back while connecting is a CONNECT reply. -/
  held : s.isObexConnecting → s.pktLen ≠ 0 →
    obexPktConnectHdrSize ≤ s.pktLen ∧ Room s 0 ∧ IsConnectReply s.packet
  challenged : s.state = .authConnect → ChallengeSent s.log
  /-- The reply held back after the challenge answers an authenticated CONNECT. -/
  answered : s.state = .authConnect → s.pktLen ≠ 0 → s.targetWho.isSome → Authenticated s.log

namespace Handshake

variable {s s' : Session}

theorem of_ends (h : Handshake s) (hends : Ends s s') : Handshake s' := by
  have hstate := hends.state
  have hauth : s'.state ≠ .authConnect := fun h' => hstate (by simp [Session.isObexConnecting, h'])
  refine ⟨hends.continues.isObexServer.trans h.server, hends.continues.connID.trans h.connID, ?_,
    fun h' => absurd h' hstate, fun h' => absurd h' hstate, fun h' => absurd h' hauth,
    fun h' => absurd h' hauth⟩
  obtain ⟨es, hlog, hes⟩ := hends.unconfirmed
  rw [hlog]
  exact h.confirms.append fun n hmem => absurd hmem (hes n)

theorem setSource (h : Handshake s) (source : List UInt8) (srcUsed : ℕ) :
    Handshake { s with source := source, srcUsed := srcUsed } where
  server := h.server
  connID := h.connID
  confirms := h.confirms
  auth := h.auth
  held hconn hpkt := by
    obtain ⟨hlen, hroom, hreply⟩ := h.held hconn hpkt
    exact ⟨hlen, ⟨hroom.packet, hroom.limit, hroom.sink⟩, hreply⟩
  challenged := h.challenged
  answered := h.answered

theorem report (h : Handshake s) {es : List Effect}
    (hes : ∀ n, .app (.connectCfm ObexStatus.remoteSuccess n) ∉ es) :
    Handshake { s with log := s.log ++ es } where
  server := h.server
  connID := h.connID
  confirms := h.confirms.append fun n hmem => absurd hmem (hes n)
  auth := h.auth
  held hconn hpkt := by
    obtain ⟨hlen, hroom, hreply⟩ := h.held hconn hpkt
    exact ⟨hlen, ⟨hroom.packet, hroom.limit, hroom.sink⟩, hreply⟩
  challenged hstate := (h.challenged hstate).mono (prefix_append _ _)
  answered hstate hpkt htarget := (h.answered hstate hpkt htarget).mono (prefix_append _ _)

theorem emit (h : Handshake s) {e : Effect}
    (he : ∀ n, e ≠ .app (.connectCfm ObexStatus.remoteSuccess n)) : Handshake (s.emit e) :=
  h.report fun n hmem => he n (mem_singleton.mp hmem).symm

theorem sourceEmpty (h : Handshake s) : Handshake (obexSourceEmpty s) := by
  obtain ⟨source, srcUsed, es, heq, hes⟩ := obexSourceEmpty_eq s
  rw [heq]
  exact (h.setSource source srcUsed).report fun n hmem => absurd (hes _ hmem) (by simp)

theorem setSlack (h : Handshake s) (n : ℕ) : Handshake (s.setSink (s.sink.setSlack n)) where
  server := h.server
  connID := h.connID
  confirms := h.confirms
  auth := h.auth
  held hconn hpkt := by
    obtain ⟨hlen, hroom, hreply⟩ := h.held hconn hpkt
    have hpacket := hroom.packet
    refine ⟨hlen, ⟨hpacket, hroom.limit, ?_⟩, hreply⟩
    change s.pktLen + 0 ≤ s.sink.claimed.length + _
    omega
  challenged := h.challenged
  answered := h.answered

/-- A failed confirmation, and the clean-up that follows it. -/
theorem connectCfm_failure (h : Handshake s) {status : ObexStatus}
    (hstatus : status ≠ ObexStatus.remoteSuccess) : Handshake (obexConnectCfm s status) := by
  have hcfm : ∀ n, (Effect.app (.connectCfm status s.maxPktLen)) ≠
      .app (.connectCfm ObexStatus.remoteSuccess n) := fun n heq => by
    injection heq with hmessage
    injection hmessage with hstatus'
    exact hstatus hstatus'
  rw [obexConnectCfm_failure hstatus]
  split
  · exact (h.emit hcfm).emit (by simp)
  · exact h.emit hcfm

/-- The confirmation of an authenticated connection. -/
theorem connectCfm_success (hserver : s.isObexServer) (hconn : s.connID = obexInvalidUint32)
    (hconfirms : ConfirmsAuthenticated s.log) (hauth : Authenticated s.log) :
    Handshake (obexConnectCfm s ObexStatus.remoteSuccess) := by
  have hstate : (obexConnectCfm s ObexStatus.remoteSuccess).state = .connected := rfl
  refine ⟨hserver, hconn, hconfirms.append fun _ _ => hauth, ?_, ?_, ?_, ?_⟩ <;>
    simp [hstate, Session.isObexConnecting]

/-! ### CONNECT requests -/

variable {pkt : List UInt8} {t : Session}

theorem authenticateResponse_authConnect {len pktLen n : ℕ}
    (hstate : s.state = .authConnect)
    (h : authenticateResponse s pkt len pktLen = some (true, n, t)) :
    ∃ off m, obexGetDigest pkt len obexAuthResponse obexRspDigestTag = some (some off, m) ∧
      t = obexAuthRspCfm s (pkt.drop off) m := by
  rw [authenticateResponse, if_pos (by simp [Session.isObexInAuthConnect, hstate])] at h
  obtain ⟨⟨digest, m⟩, hdigest, h⟩ := map_eq_some_iff.mp h
  cases digest with
  | none => exact absurd (congrArg Prod.fst h) Bool.false_ne_true
  | some off => exact ⟨off, m, hdigest, (congrArg (fun r => r.2.2) h).symm⟩

/-- Authentication in `obex_auth_connect` succeeds with a response digest only, and passes it
on. -/
theorem authenticateSession_authConnect {len n : ℕ}
    (h : obexAuthenticateSession s pkt len = some (true, n, t)) (hstate : s.state = .authConnect) :
    ∃ off m userId es,
      obexGetDigest pkt len obexAuthResponse obexRspDigestTag = some (some off, m) ∧
      t.log = s.log ++ es ∧
      .app (.authRspCfm (octetsAt (pkt.drop off) obexTlvHdrSize obexSizeDigest) userId) ∈ es := by
  have hconnect : s.isObexInConnect = false := by simp [Session.isObexInConnect, hstate]
  rw [obexAuthenticateSession, hconnect] at h
  split at h
  · rename_i hcontra
    exact absurd hcontra.1 Bool.false_ne_true
  · split at h
    · obtain ⟨⟨digest, pktLen⟩, -, h⟩ := bind_eq_some_iff.mp h
      cases digest with
      | none => exact absurd (congrArg Prod.fst (some.inj h)) Bool.false_ne_true
      | some digest =>
        obtain ⟨off, m, hdigest, rfl⟩ := authenticateResponse_authConnect (s := obexAuthClgInd s _ _)
          hstate h
        exact ⟨off, m, _, [_, _], hdigest, List.append_assoc _ [_] [_],
          mem_cons_of_mem _ (mem_singleton_self _)⟩
    · obtain ⟨off, m, hdigest, rfl⟩ := authenticateResponse_authConnect hstate h
      exact ⟨off, m, _, [_], hdigest, rfl, mem_singleton_self _⟩

/-- In `obex_auth_connect`, the reply to a CONNECT is held back only if the CONNECT is
authenticated. -/
theorem authenticated_of_connectResponse {pktLen : ℕ}
    {response : ObexStatus} (hstate : s.state = .authConnect) (htarget : s.targetWho.isSome)
    (hsent : ChallengeSent s.log) (hop : pkt.getD 0 0 = obexConnectOpcode)
    (h : connectResponse (s.emit (.received s.state pkt pktLen)) pkt pktLen = some (response, t))
    (hheld : response = obexUnauthorizedRsp ∨ response = ObexStatus.remoteSuccess) :
    Authenticated t.log := by
  have hne : ∀ status : ObexStatus,
      status ≠ ObexStatus.remoteSuccess ∧ status ≠ obexUnauthorizedRsp → ∀ u,
        some (status, u) ≠ some (response, t) := fun status hstatus u heq => by
    obtain rfl : status = response := congrArg Prod.fst (some.inj heq)
    exact hheld.elim hstatus.2 hstatus.1
  have hconnecting : (s.emit (.received s.state pkt pktLen)).isObexConnecting := by
    simp [Session.isObexConnecting, Session.emit, hstate]
  have htarget' : (s.emit (.received s.state pkt pktLen)).targetWho.isSome := htarget
  rw [connectResponse] at h
  by_cases hlen : pktLen < obexPktConnectHdrSize
  · rw [if_pos hlen] at h
    exact absurd h (hne _ (by decide) _)
  · rw [if_neg hlen, if_pos hconnecting, if_pos htarget'] at h
    obtain ⟨valid, -, h⟩ := bind_eq_some_iff.mp h
    cases valid with
    | false => exact absurd h (hne _ (by decide) _)
    | true =>
      obtain ⟨⟨authenticated, n, u⟩, hauth, h⟩ := map_eq_some_iff.mp h
      cases authenticated with
      | true =>
        obtain ⟨-, rfl⟩ := Prod.mk.inj h
        obtain ⟨off, m, userId, es, hdigest, hlog, hmem⟩ :=
          authenticateSession_authConnect hauth hstate
        refine ⟨s.log, pkt, pktLen, es, off, m, userId, ?_, hsent, hop, hdigest, hmem⟩
        rw [hlog, ← hstate]
        exact List.append_assoc s.log [_] es
      | false =>
        have hu : u.isObexInAuthConnect := by
          obtain ⟨m, es, rfl, -⟩ := Reports.authenticateSession hauth
          exact decide_eq_true hstate
        dsimp only at h
        rw [if_neg Bool.false_ne_true, if_pos hu] at h
        exact absurd (congrArg some h) (hne _ (by decide) _)

/-- Reporting with no packet under construction. -/
theorem of_reports (h : Handshake s) (hpkt : t.pktLen = 0) (ht : Reports s t) :
    Handshake t := by
  obtain ⟨m, es, rfl, hes⟩ := ht
  have hreport := h.report fun n hmem => absurd (hes _ hmem) (by simp [Effect.isRoutine])
  exact ⟨h.server, h.connID, hreport.confirms, h.auth, fun _ hbusy => absurd hpkt hbusy,
    hreport.challenged, fun _ hbusy => absurd hpkt hbusy⟩

/-- Holding back a CONNECT reply. -/
theorem hold (h : Handshake s) (hframed : Framed s t)
    (hlen : obexPktConnectHdrSize ≤ t.pktLen) (hroom : Room t 0)
    (hreply : IsConnectReply t.packet)
    (hanswered : s.state = .authConnect → s.targetWho.isSome → Authenticated s.log) :
    Handshake t := by
  obtain ⟨n, k, rfl⟩ := hframed
  exact ⟨h.server, h.connID, h.confirms, h.auth, fun _ _ => ⟨hlen, hroom, hreply⟩, h.challenged,
    fun hstate _ htarget => hanswered hstate htarget⟩

/-- A CONNECT while connecting: the reply is held back, or the handshake has failed. -/
theorem handleConnectRequest {pktLen : ℕ} {r : ℕ × Session} (h : Handshake s)
    (hop : pkt.getD 0 0 = obexConnectOpcode) (hconnecting : s.isObexConnecting)
    (hr : obexHandleConnectRequest (s.emit (.received s.state pkt pktLen)) pkt pktLen = some r) :
    Handshake r.2 := by
  have hs : Handshake (s.emit (.received s.state pkt pktLen)) := h.emit (by simp)
  obtain ⟨⟨response, t⟩, hresponse, rfl⟩ := map_eq_some_iff.mp hr
  have hreports : Reports (s.emit (.received s.state pkt pktLen)) t :=
    Reports.connectResponse hresponse
  change Handshake (connectReply t response)
  rcases connectReply_cases t response with ⟨u, hframe, hheld, heq⟩ | ⟨u, -, -, hauth, -⟩ |
    ⟨u, status, hu, hstatus, heq⟩
  · rw [heq]
    have hpkt : t.pktLen = 0 := by
      by_contra hbusy
      rw [obexFrameConnectPkt_busy hbusy] at hframe
      exact absurd (congrArg Prod.fst hframe) Bool.false_ne_true
    have ht := hs.of_reports hpkt hreports
    have hframed := Framed.frameConnectPkt t response
    rw [hframe] at hframed
    obtain ⟨hlen, hroom, hreply⟩ :=
      obexFrameConnectPkt_isConnectReply ht.server hpkt ht.connID hframe
    refine ht.hold hframed hlen hroom hreply fun hstate htarget => ?_
    obtain ⟨m, es, rfl, -⟩ := hreports
    exact authenticated_of_connectResponse (s := s) hstate htarget (h.challenged hstate) hop hresponse
      (hheld.imp_right And.left)
  · -- the flag is set while connecting
    obtain ⟨m, es, rfl, -⟩ := hreports
    exact absurd (h.auth hconnecting) hauth
  · rw [heq]
    have hends : Ends (s.emit (.received s.state pkt pktLen))
        (obexConnectCfm (u.setState .session) status) :=
      .connectCfm_failure ((Quiet.of_reports hreports).trans hu) hstatus
    exact hs.of_ends hends

theorem incomingIteration {beyond : List UInt8} {r : Bool × Session} (h : Handshake s)
    (hconnecting : s.isObexConnecting) (hr : incomingIteration s beyond = some r) :
    Handshake r.2 := by
  rcases incomingIteration_cases h.server hr with ⟨hs, -⟩ | ⟨hs, -⟩ | ⟨n, t, ht, hs, -⟩
  · rw [hs]
    exact h
  · rw [hs]
    exact (h.setSource [] s.srcUsed).of_ends (.sendErrorResponse _ _)
  · generalize s.sourceMap beyond = pkt at ht hs
    generalize uint8ToUint16 pkt 1 = pktLen at ht hs
    rw [hs]
    suffices Handshake t from this.setSource _ _
    by_cases hop : pkt.getD 0 0 = obexConnectOpcode
    · rw [obexHandleCommand, if_pos hop] at ht
      exact h.handleConnectRequest hop hconnecting ht
    · have hreceived : Handshake (s.emit (.received s.state pkt pktLen)) := h.emit (by simp)
      exact hreceived.of_ends (.handleCommand hop ht)

theorem handleIncomingPacket {beyond : List UInt8} {n : ℕ} (h : Handshake s)
    (hs' : obexHandleIncomingPacket s beyond n = some s') : Handshake s' := by
  induction n generalizing s with
  | zero => exact some.inj hs' ▸ h
  | succ n ih =>
    obtain ⟨⟨goesOn, t⟩, ht, hrest⟩ := bind_eq_some_iff.mp hs'
    have ht' : Handshake t := by
      by_cases hconnecting : s.isObexConnecting
      · exact h.incomingIteration hconnecting ht
      · exact h.of_ends (.incomingIteration h.server hconnecting ht)
    cases goesOn with
    | false => exact some.inj hrest ▸ ht'
    | true => exact ih ht' hrest

/-! ### Responses of the application -/

/-- The digest header goes behind the held reply, or the handshake fails. -/
theorem sendAuthPacket {hdr : UInt8} {src : List UInt8} (h : Handshake s)
    (hconnecting : s.isObexConnecting) (hpkt : s.pktLen ≠ 0) (hsrc : src.length ≠ 0)
    (hsend : ∀ t, Appended s t (seqHeader hdr src) → Room t 0 → Handshake
      (if hdr = obexAuthChallenge then obexFlushPacket (t.setState .authConnect) obexUnauthorizedRsp
      else obexConnectCfm (obexFlushPacket { t with auth := false } ObexStatus.remoteSuccess)
        ObexStatus.remoteSuccess)) :
    Handshake (obexSendAuthPacket s hdr src) := by
  obtain ⟨-, hroom, -⟩ := h.held hconnecting hpkt
  rcases obexAddSeqHeader_cases hroom hdr src with hfail | ⟨t, ht, happ, hroom'⟩
  · rw [obexSendAuthPacket_server h.server (if_pos hsrc), hfail]
    exact h.connectCfm_failure (show ObexStatus.failure ≠ ObexStatus.remoteSuccess by decide)
  · have hflag := h.auth hconnecting
    rw [obexSendAuthPacket_server h.server (if_pos hsrc), ht]
    simp only [if_true, hflag]
    exact hsend t happ hroom'

/-- The challenge goes out with the held reply. -/
theorem authReqResponse {nonce : List UInt8} {options : UInt8} {realm : Option (List UInt8)}
    (h : Handshake s) (hconnecting : s.isObexConnecting) (hpkt : s.pktLen ≠ 0) :
    Handshake (obexAuthReqResponse s (some nonce) options realm) := by
  obtain ⟨hlen, -, header, who, hpacket, hheader, hwho⟩ := h.held hconnecting hpkt
  have hsrc : (authReqDigest nonce options realm).length ≠ 0 := by
    cases realm <;> simp only [authReqDigest] <;> split <;> simp [obexFrameTLVHeader]
  rw [obexAuthReqResponse, if_pos hconnecting, elim_some]
  refine h.sendAuthPacket hconnecting hpkt hsrc fun t happ hroom => ?_
  rw [if_pos rfl]
  have hlen' : 3 ≤ t.pktLen := by
    have := happ.pktLen
    rw [obexPktConnectHdrSize] at hlen
    omega
  obtain ⟨source, srcUsed, k, es, heq, hes⟩ := obexFlushPacket_eq (s := t.setState .authConnect)
    hroom.packet hlen' obexUnauthorizedRsp
  have hsent : ChallengeSent (obexFlushPacket (t.setState .authConnect) obexUnauthorizedRsp).log := by
    refine ⟨uint16ToUint8 t.pktLen ++ header.drop 3, who, nonce, options, realm, ?_, ?_, hwho⟩
    · rw [heq]
      refine mem_append_right _ (mem_singleton.mpr ?_)
      change _ = Effect.flushed (_ :: (uint16ToUint8 t.pktLen ++ t.packet.drop 3))
      rw [happ.packet, hpacket, List.append_assoc header, drop_append_of_le_length
        (by rw [hheader, obexPktConnectHdrSize]; omega)]
      simp only [List.append_assoc]
    · rw [length_append, length_drop, hheader]
      rfl
  obtain ⟨n, k', rfl⟩ := happ.framed
  rw [heq] at hsent ⊢
  refine ⟨h.server, h.connID, ?_, fun _ => h.auth hconnecting, fun _ hbusy => absurd rfl hbusy,
    fun _ => hsent, fun _ hbusy => absurd rfl hbusy⟩
  rw [List.append_assoc]
  exact h.confirms.append fun n hmem => absurd hmem (by
    simp only [mem_append, not_or]
    exact ⟨fun hmem => absurd (hes _ hmem) (by simp), by simp⟩)

/-- The response to the remote challenge, once the own challenge was answered. -/
theorem authClgResponse {reqDigest : List UInt8} {userId : Option (List UInt8)}
    (h : Handshake s) (hstate : s.state = .authConnect) (hpkt : s.pktLen ≠ 0)
    (htarget : s.targetWho.isSome) : Handshake (obexAuthClgResponse s reqDigest userId) := by
  have hconnecting : s.isObexConnecting := by simp [Session.isObexConnecting, hstate]
  have hauth := h.answered hstate hpkt htarget
  have hsrc : (authClgDigest reqDigest userId).length ≠ 0 := by
    cases userId <;> simp [authClgDigest, obexFrameTLVHeader]
  rw [obexAuthClgResponse, if_pos hconnecting]
  refine h.sendAuthPacket hconnecting hpkt hsrc fun t happ hroom => ?_
  rw [if_neg (by decide)]
  obtain ⟨n, k, rfl⟩ := happ.framed
  obtain ⟨m, source, srcUsed, n, k, es, heq, hes⟩ := Quiet.flushPacket
    { s with pktLen := n, sink := k, auth := false } ObexStatus.remoteSuccess
  rw [heq]
  refine connectCfm_success h.server h.connID ?_ (hauth.mono (prefix_append _ _))
  exact h.confirms.append fun n hmem => absurd (hes _ hmem) (by simp [Effect.isRoutine])

end Handshake

/-! ### Steps and runs -/

/-- The application answers in the order of the handshake: its challenge while a CONNECT reply is
held back, its response only when the reply to the authenticated CONNECT is. It does not frame
objects or answer requests while the session is connecting. -/
def InOrder (s : Session) (e : Event) : Prop :=
  s.isObexConnecting →
    match e with
    | .authReqResponse nonce _ _ => nonce.isSome ∧ s.pktLen ≠ 0
    | .authClgResponse .. => s.state = .authConnect ∧ s.pktLen ≠ 0 ∧ s.targetWho.isSome
    | .putResponse _ | .getResponse _ | .setPathResponse _ => False
    | .objNew | .objDelete | .objAddByteHdr .. | .objAddVariableHdr .. => False
    | _ => True

instance (s : Session) : (e : Event) → Decidable (InOrder s e)
  | .authReqResponse nonce _ _ =>
    inferInstanceAs (Decidable (s.isObexConnecting → nonce.isSome ∧ s.pktLen ≠ 0))
  | .authClgResponse .. => inferInstanceAs (Decidable
      (s.isObexConnecting → s.state = .authConnect ∧ s.pktLen ≠ 0 ∧ s.targetWho.isSome))
  | .putResponse _ | .getResponse _ | .setPathResponse _
  | .objNew | .objDelete | .objAddByteHdr .. | .objAddVariableHdr .. =>
    inferInstanceAs (Decidable (s.isObexConnecting → False))
  | .receive _ | .moreData .. | .sinkSpace _ | .rfcommDisconnectInd | .deleteSessionResponse
  | .sourceDrop => inferInstanceAs (Decidable (s.isObexConnecting → True))

/-- **The step lemma.** A step in order keeps up the handshake. -/
theorem Handshake.step {s s' : Session} {e : Event} (h : Handshake s) (hok : InOrder s e)
    (hs' : step s e = some s') : Handshake s' := by
  by_cases hconnecting : s.isObexConnecting
  · have hok := hok hconnecting
    cases e with
    | receive octets => exact some.inj hs' ▸ h.setSource _ _
    | moreData beyond n => exact h.handleIncomingPacket hs'
    | sinkSpace slack => exact some.inj hs' ▸ h.setSlack slack
    | rfcommDisconnectInd => exact some.inj hs' ▸ h.of_ends (.handleRfcommDisconnect s)
    | authReqResponse nonce options realm =>
      obtain ⟨hnonce, hpkt⟩ := hok
      obtain ⟨nonce, rfl⟩ := isSome_iff_exists.mp hnonce
      exact some.inj hs' ▸ h.authReqResponse hconnecting hpkt
    | authClgResponse reqDigest userId =>
      exact some.inj hs' ▸ h.authClgResponse hok.1 hok.2.1 hok.2.2
    | deleteSessionResponse => exact some.inj hs' ▸ h.of_ends (.deleteSessionTask s)
    | sourceDrop => exact some.inj hs' ▸ h.sourceEmpty
    | _ => exact hok.elim
  · exact h.of_ends (ends_step h.server hconnecting hs')

theorem handshake_serverSession {connParams : ObexConnParams} (h : connParams.auth) (sink : Sink)
    (source : List UInt8) (payloadSize : ℕ) :
    Handshake (serverSession connParams sink source payloadSize) := by
  have hconnect : Handshake ({ obexConnectResponse connParams sink source with
      maxPktLen := obexMaxPacketSize / payloadSize * payloadSize }.setState .connect) := by
    refine ⟨rfl, rfl, fun before n since hlog => absurd hlog ?_, fun _ => h,
      fun _ hbusy => absurd rfl hbusy, fun hstate => ?_, fun _ hbusy => absurd rfl hbusy⟩
    · simp [Session.setState, obexConnectResponse, obexCreateSession]
    · exact absurd (show ObexState.connect = .authConnect from hstate) (by decide)
  exact (hconnect.emit (e := .app (.createSessionCfm ObexStatus.success)) (by simp)).sourceEmpty

/-- **Mutual authentication.** In a run in which the application answers in order, every confirmed
connection of a session with the authentication flag was authenticated before. -/
theorem confirmsAuthenticated_of_run {connParams : ObexConnParams} {sink : Sink}
    {source : List UInt8} {payloadSize : ℕ} {events : List Event} {s : Session}
    (hauth : connParams.auth)
    (hok : Lib.RunMeets step InOrder (serverSession connParams sink source payloadSize) events)
    (hrun : Lib.run step (serverSession connParams sink source payloadSize) events = some s) :
    ConfirmsAuthenticated s.log :=
  (Lib.run_invariant (fun _ _ _ hinv hok hs => Handshake.step hinv hok hs)
    (handshake_serverSession hauth sink source payloadSize) hok hrun).confirms

/-- The handshake in order: both sides are challenged, the second CONNECT answers. -/
theorem confirmsAuthenticated_of_run_mutual :
    let s := serverSession ⟨some [0x01], true⟩ ⟨[], 1000, by decide⟩ [] 100
    let challenge := [0x4D, 0, 21, 0x00, 16] ++ List.replicate 16 7
    let response := [0x4E, 0, 21, 0x00, 16] ++ List.replicate 16 9
    let events := [
      .receive ([0x80, 0, 32, 0x10, 0, 0x10, 0, 0x46, 0, 4, 0x01] ++ challenge),
      .moreData [] 1, .authReqResponse (some []) 0 none,
      .receive ([0x80, 0, 53, 0x10, 0, 0x10, 0, 0x46, 0, 4, 0x01] ++ challenge ++ response),
      .moreData [] 1, .authClgResponse [] none]
    ∃ t, Lib.run step s events = some t ∧ t.isObexConnected ∧ ConfirmsAuthenticated t.log := by
  intro s challenge response events
  have hconnected : (Lib.run step s events).map Session.isObexConnected = some true := by
    decide
  obtain ⟨t, hrun, hconnected⟩ := map_eq_some_iff.mp hconnected
  exact ⟨t, hrun, hconnected, confirmsAuthenticated_of_run (by rfl) (by decide) hrun⟩

/-- An `OBEX_AUTH_RSP_CFM`. -/
def Effect.isAuthRspCfm : Effect → Bool
  | .app (.authRspCfm ..) => true
  | _ => false

/-- A first CONNECT that carries a challenge: the application answers both indications, and the
connection is confirmed although the challenge of the session was never answered. -/
theorem not_confirmsAuthenticated_of_early_response :
    let s := serverSession ⟨some [0x01], true⟩ ⟨[], 1000, by decide⟩ [] 100
    let challenge := [0x4D, 0, 21, 0x00, 16] ++ List.replicate 16 7
    let events := [
      .receive ([0x80, 0, 32, 0x10, 0, 0x10, 0, 0x46, 0, 4, 0x01] ++ challenge),
      .moreData [] 1, .authReqResponse (some []) 0 none, .authClgResponse [] none]
    ∃ t, Lib.run step s events = some t ∧ t.isObexConnected ∧ ¬ ConfirmsAuthenticated t.log := by
  intro s challenge events
  have hrun : (Lib.run step s events).map (fun t => (t.isObexConnected, t.log.getLast?,
      t.log.all fun e => !e.isAuthRspCfm)) =
      some (true, some (.app (.connectCfm ObexStatus.remoteSuccess 800)), true) := by
    decide
  obtain ⟨t, hrun, ht⟩ := map_eq_some_iff.mp hrun
  obtain ⟨hconnected, ht⟩ := Prod.mk.inj ht
  obtain ⟨hlast, hall⟩ := Prod.mk.inj ht
  obtain ⟨before, hlog⟩ := List.getLast?_eq_some_iff.mp hlast
  refine ⟨t, hrun, hconnected, fun hconfirms => ?_⟩
  obtain ⟨front, pkt, len, since, off, n, userId, rfl, -, -, -, hcfm⟩ := hconfirms before 800 [] hlog
  have hmem := mem_append_left [Effect.app (.connectCfm ObexStatus.remoteSuccess 800)]
    (mem_append_right front (mem_cons_of_mem (.received .authConnect pkt len) hcfm))
  rw [← hlog] at hmem
  exact absurd (List.all_eq_true.mp hall _ hmem) Bool.false_ne_true

end Cbps.Obex
