import Cbps.Obex.System

/-!
# What the functions leave alone

Most functions of the library only work on the transport. `Framed s s'` says that `s'` is `s`
up to the outgoing packet, and `Quiet s s'` that it is `s` up to the transport and up to log
entries that are not about the session: a flushed packet or a wake-up. There is one lemma for
each function, and the session invariants never unfold what is below them.
-/

namespace Cbps.Obex

open List Option

/-- The sessions agree up to the packet under construction. -/
def Framed (s s' : Session) : Prop := ∃ n k, s' = { s with pktLen := n, sink := k }

variable {s : Session}

namespace Framed

theorem refl (s : Session) : Framed s s := ⟨s.pktLen, s.sink, rfl⟩

theorem trans {s t u : Session} (h : Framed s t) (h' : Framed t u) : Framed s u := by
  obtain ⟨n, k, rfl⟩ := h
  obtain ⟨n', k', rfl⟩ := h'
  exact ⟨n', k', rfl⟩

theorem store (s : Session) (off : ℕ) (octets : List UInt8) : Framed s (s.store off octets) :=
  ⟨s.pktLen, s.sink.store off octets, rfl⟩

theorem setPktLen (s : Session) (n : ℕ) : Framed s (s.setPktLen n) := ⟨n, s.sink, rfl⟩

theorem setSink (s : Session) (k : Sink) : Framed s (s.setSink k) := ⟨s.pktLen, k, rfl⟩

theorem sinkClaim (s : Session) (len : ℕ) : Framed s (obexSinkClaim s len).2 := by
  rw [obexSinkClaim]
  split
  · exact refl s
  · split
    · exact refl s
    · exact setSink s _

theorem addUint32Header (s : Session) (opcode : UInt8) (value : ℕ) :
    Framed s (obexAddUint32Header s opcode value).2 := by
  have hclaim := sinkClaim s obexUintHdrSize
  rw [obexAddUint32Header]
  generalize obexSinkClaim s obexUintHdrSize = r at hclaim ⊢
  obtain ⟨_ | _, t⟩ := r
  · exact hclaim
  · exact hclaim.trans ((store t _ _).trans (setPktLen _ _))

theorem addEmptyHeader (s : Session) (hdr : UInt8) (size : ℕ) :
    Framed s (obexAddEmptyHeader s hdr size).2 := by
  have hclaim := sinkClaim s (u16 (obexSeqHdrSize + size))
  rw [obexAddEmptyHeader]
  generalize obexSinkClaim s (u16 (obexSeqHdrSize + size)) = r at hclaim ⊢
  obtain ⟨_ | _, t⟩ := r
  · exact hclaim
  · exact hclaim.trans (((store t _ _).trans ((store _ _ _).trans (store _ _ _))).trans
      (setPktLen _ _))

theorem addSeqHeader (s : Session) (hdr : UInt8) (src : List UInt8) :
    Framed s (obexAddSeqHeader s hdr src).2 := by
  have hempty := addEmptyHeader s hdr 0
  rw [obexAddSeqHeader]
  split
  · exact refl s
  · generalize obexAddEmptyHeader s hdr 0 = r at hempty ⊢
    obtain ⟨_ | _, t⟩ := r
    · exact hempty
    · have hoctets : Framed t (if obexSinkSpace t ≠ 0
          then (obexSinkClaim t src.length).2.store (s.pktLen + 3) src
          else t.setSink (t.sink.move src)) := by
        split
        · exact (sinkClaim t _).trans (store _ _ _)
        · exact setSink t _
      exact hempty.trans (hoctets.trans ((setPktLen _ _).trans (store _ _ _)))

theorem unicodeLoop {unicode : ℕ} {str : List UInt8} {fuel : ℕ} {i j : UInt8} {s t : Session}
    (h : unicodeLoop unicode str fuel i j s = some t) : Framed s t := by
  induction fuel generalizing i j s with
  | zero => exact absurd h (by simp [Obex.unicodeLoop])
  | succ fuel ih =>
    rw [Obex.unicodeLoop] at h
    split at h
    · exact (store s _ _).trans (ih h)
    · exact some.inj h ▸ refl s

theorem addUnicodeHeader {hdr : UInt8} {str : List UInt8} {before : UInt8}
    {r : Bool × Session} (h : obexAddUnicodeHeader s hdr str before = some r) : Framed s r.2 := by
  have hempty := addEmptyHeader s hdr 0
  rw [obexAddUnicodeHeader] at h
  split at h
  · exact some.inj h ▸ refl s
  · generalize obexAddEmptyHeader s hdr 0 = r at hempty h
    obtain ⟨_ | _, t⟩ := r
    · exact some.inj h ▸ hempty
    · obtain ⟨u, hloop, rfl⟩ := map_eq_some_iff.mp h
      exact hempty.trans ((sinkClaim t _).trans ((store _ _ _).trans ((unicodeLoop hloop).trans
        ((store u _ _).trans ((setPktLen _ _).trans (store _ _ _))))))

theorem newPacket (s : Session) (size : ℕ) (opcode : UInt8) :
    Framed s (obexNewPacket s size opcode).2 := by
  have hclaim := sinkClaim s (pktHdrLen s opcode)
  rw [obexNewPacket]
  split
  · exact refl s
  · dsimp only
    split
    · exact refl s
    · generalize obexSinkClaim s (pktHdrLen s opcode) = r at hclaim ⊢
      obtain ⟨_ | _, t⟩ := r
      · exact hclaim
      · refine hclaim.trans ?_
        rw [if_pos rfl]
        dsimp only
        split
        · exact (setPktLen t _).trans (addUint32Header _ _ _)
        · exact setPktLen t _

theorem frameConnectPkt (s : Session) (opcode : UInt8) :
    Framed s (obexFrameConnectPkt s opcode).2 := by
  have hnew := newPacket s (connectDataLen s opcode) obexConnectOpcode
  rw [obexFrameConnectPkt]
  generalize obexNewPacket s (connectDataLen s opcode) obexConnectOpcode = r at hnew ⊢
  obtain ⟨n, t⟩ := r
  refine hnew.trans ?_
  have hheader : Framed t (t.storeConnectHeader opcode) :=
    (store t _ _).trans ((store _ _ _).trans (store _ _ _))
  dsimp only
  split
  · exact refl t
  · split
    · exact hheader.trans (addSeqHeader _ _ _)
    · exact hheader

end Framed

/-- Log entries that neither confirm a connection nor pass on a request. -/
def Effect.isRoutine : Effect → Bool
  | .flushed _ | .moreData => true
  | .app .abortInd | .app .authReqInd | .app (.authClgInd ..) | .app (.authRspCfm ..) => true
  | _ => false

/-- The sessions agree up to the packet size and routine log entries. -/
def Reports (s s' : Session) : Prop :=
  ∃ maxPktLen es, s' = { s with maxPktLen := maxPktLen, log := s.log ++ es } ∧
    ∀ e ∈ es, e.isRoutine

namespace Reports

theorem refl (s : Session) : Reports s s :=
  ⟨s.maxPktLen, [], by rw [append_nil], by simp⟩

theorem trans {s t u : Session} (h : Reports s t) (h' : Reports t u) : Reports s u := by
  obtain ⟨m, es, rfl, hes⟩ := h
  obtain ⟨m', es', rfl, hes'⟩ := h'
  refine ⟨m', es ++ es', by rw [List.append_assoc], fun e he => ?_⟩
  exact (mem_append.mp he).elim (hes e) (hes' e)

theorem emit (s : Session) {e : Effect} (he : e.isRoutine) : Reports s (s.emit e) :=
  ⟨s.maxPktLen, [e], rfl, fun _ h => by rwa [mem_singleton.mp h]⟩

theorem setMaxPktLen (s : Session) (n : ℕ) : Reports s { s with maxPktLen := n } :=
  ⟨n, [], by rw [append_nil], by simp⟩

variable {pkt : List UInt8} {r : Bool × ℕ × Session}

theorem authenticateResponse {len pktLen : ℕ}
    (h : authenticateResponse s pkt len pktLen = some r) :
    Reports s r.2.2 := by
  rw [Obex.authenticateResponse] at h
  split at h
  · obtain ⟨⟨digest, n⟩, -, rfl⟩ := map_eq_some_iff.mp h
    cases digest with
    | none => exact refl s
    | some digest => exact emit s rfl
  · exact some.inj h ▸ refl s

/-- Authentication only reports to the application. -/
theorem authenticateSession {len : ℕ}
    (h : obexAuthenticateSession s pkt len = some r) : Reports s r.2.2 := by
  rw [obexAuthenticateSession] at h
  split at h
  · exact some.inj h ▸ refl s
  · split at h
    · have hreq : Reports s (if s.isObexInConnect then obexAuthReqInd s else s) := by
        split
        · exact emit s rfl
        · exact refl s
      obtain ⟨⟨digest, n⟩, -, h⟩ := bind_eq_some_iff.mp h
      cases digest with
      | none => exact some.inj h ▸ hreq
      | some digest => exact hreq.trans ((emit _ rfl).trans (authenticateResponse h))
    · exact authenticateResponse h

/-- Settling on a response to a CONNECT only reports to the application. -/
theorem connectResponse {pktLen : ℕ}
    {r : ObexStatus × Session} (h : connectResponse s pkt pktLen = some r) : Reports s r.2 := by
  rw [Obex.connectResponse] at h
  split at h
  · exact some.inj h ▸ refl s
  · split at h
    · split at h
      · obtain ⟨valid, -, h⟩ := bind_eq_some_iff.mp h
        split at h
        · obtain ⟨⟨authenticated, n, t⟩, hauth, rfl⟩ := map_eq_some_iff.mp h
          have ht := (setMaxPktLen s _).trans (authenticateSession hauth)
          dsimp only
          split
          · exact ht
          · split
            · exact ht
            · exact ht
        · exact some.inj h ▸ refl s
      · exact some.inj h ▸ refl s
    · exact some.inj h ▸ refl s

end Reports

/-- The sessions agree up to the transport, the packet size and routine log entries. -/
def Quiet (s s' : Session) : Prop :=
  ∃ maxPktLen source srcUsed n k es, s' = { s with
    maxPktLen := maxPktLen, source := source, srcUsed := srcUsed, pktLen := n, sink := k,
    log := s.log ++ es } ∧ ∀ e ∈ es, e.isRoutine

namespace Quiet

theorem of_framed {s s' : Session} (h : Framed s s') : Quiet s s' := by
  obtain ⟨n, k, rfl⟩ := h
  exact ⟨s.maxPktLen, s.source, s.srcUsed, n, k, [], by rw [append_nil], by simp⟩

theorem of_reports {s s' : Session} (h : Reports s s') : Quiet s s' := by
  obtain ⟨m, es, rfl, hes⟩ := h
  exact ⟨m, s.source, s.srcUsed, s.pktLen, s.sink, es, rfl, hes⟩

theorem refl (s : Session) : Quiet s s := of_framed (Framed.refl s)

theorem trans {s t u : Session} (h : Quiet s t) (h' : Quiet t u) : Quiet s u := by
  obtain ⟨m, source, srcUsed, n, k, es, rfl, hes⟩ := h
  obtain ⟨m', source', srcUsed', n', k', es', rfl, hes'⟩ := h'
  refine ⟨m', source', srcUsed', n', k', es ++ es', by rw [List.append_assoc], fun e he => ?_⟩
  exact (mem_append.mp he).elim (hes e) (hes' e)

theorem emit (s : Session) {e : Effect} (he : e.isRoutine) : Quiet s (s.emit e) :=
  ⟨s.maxPktLen, s.source, s.srcUsed, s.pktLen, s.sink, [e], rfl, fun _ h => by
    rwa [mem_singleton.mp h]⟩

theorem setSource (s : Session) (octets : List UInt8) : Quiet s (s.setSource octets) :=
  ⟨s.maxPktLen, octets, s.srcUsed, s.pktLen, s.sink, [], by rw [append_nil]; rfl, by simp⟩

theorem setSrcUsed (s : Session) (n : ℕ) : Quiet s (s.setSrcUsed n) :=
  ⟨s.maxPktLen, s.source, n, s.pktLen, s.sink, [], by rw [append_nil]; rfl, by simp⟩

theorem setSink (s : Session) (k : Sink) : Quiet s (s.setSink k) := of_framed (Framed.setSink s k)

theorem sourceEmpty (s : Session) : Quiet s (obexSourceEmpty s) := by
  have hdrop : Quiet s (if s.srcUsed ≠ 0 then (s.sourceDrop s.srcUsed).setSrcUsed 0 else s) := by
    split
    · exact (setSource s _).trans (setSrcUsed _ 0)
    · exact refl s
  rw [obexSourceEmpty]
  refine hdrop.trans ?_
  generalize (if s.srcUsed ≠ 0 then (s.sourceDrop s.srcUsed).setSrcUsed 0 else s) = t
  split
  · exact emit t rfl
  · exact refl t

theorem objFlush (s : Session) (out : Bool) : Quiet s (obexObjFlush s out) := by
  rw [obexObjFlush]
  split
  · exact (emit s rfl).trans (of_framed ((Framed.setSink _ _).trans (Framed.setPktLen _ 0)))
  · exact of_framed (Framed.setPktLen s 0)

theorem flushPacket (s : Session) (opcode : UInt8) : Quiet s (obexFlushPacket s opcode) := by
  rw [obexFlushPacket]
  exact (sourceEmpty s).trans ((of_framed ((Framed.store _ _ _).trans (Framed.store _ _ _))).trans
    (objFlush _ true))

end Quiet

end Cbps.Obex
