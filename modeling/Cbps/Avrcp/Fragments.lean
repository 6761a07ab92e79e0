import Cbps.Avrcp.Continuation
import Mathlib.Algebra.Ring.Nat
import Mathlib.Data.List.Basic

/-!
# The fragments of a metadata response

`fragmentsSound_of_run`: the fragments of every response follow each other in its data, and every
request for the next fragment gets one, as long as no size is set that is out of range, the first fragment has room for the
mandatory data, a request names the response of which a fragment is left, and what is left is not exactly
as long as a fragment when the next one is asked for.
-/

namespace Cbps.Avrcp

open List Option

/-! ### Fragments -/

/-- The data that fragments carry. -/
def joined (fragments : List Fragment) : List Octet := fragments.flatMap Fragment.data

@[simp] theorem joined_append (fs : List Fragment) (f : Fragment) : joined (fs ++ [f]) = joined fs ++ f.data := by
  rw [joined, flatMap_append, flatMap_singleton]
  rfl

/-- The fragments follow each other in the data, each with the type that says where it stands. -/
structure WellFragmented (data : List Octet) (fragments : List Fragment) : Prop where
  isPrefix : joined fragments <+: data
  first : ∀ f, fragments.head? = some f → f.packetType = .single ∨ f.packetType = .start
  others : ∀ f ∈ fragments.tail, f.packetType = .continuing ∨ f.packetType = .ending
  marked : ∀ fs f, fs ++ [f] <+: fragments → (f.packetType.isLast = true ↔ joined (fs ++ [f]) = data)
  last : ∀ f ∈ fragments.dropLast, f.packetType.isLast = false
  nonempty : data ≠ [] → ∀ f ∈ fragments, f.data ≠ []

theorem wellFragmented_nil (data : List Octet) : WellFragmented data [] where
  isPrefix := nil_prefix
  first := by simp
  others := by simp
  marked := by simp
  last := by simp
  nonempty := by simp

variable {fs : List Fragment} {f : Fragment}

/-- One more fragment, of what is left of the data. -/
theorem WellFragmented.append {data rest : List Octet}
    (h : WellFragmented data fs) (hdata : joined fs ++ f.data ++ rest = data)
    (hopen : ∀ g ∈ fs, g.packetType.isLast = false)
    (hfirst : fs = [] → f.packetType = .single ∨ f.packetType = .start)
    (hother : fs ≠ [] → f.packetType = .continuing ∨ f.packetType = .ending)
    (hlast : f.packetType.isLast = true ↔ rest = []) (hne : data ≠ [] → f.data ≠ []) :
    WellFragmented data (fs ++ [f]) where
  isPrefix := ⟨rest, by rw [joined_append, hdata]⟩
  first := by
    intro g hg
    cases fs with
    | nil =>
      obtain rfl := some.inj hg
      exact hfirst rfl
    | cons f' fs => exact h.first g hg
  others := by
    intro g hg
    cases fs with
    | nil => cases hg
    | cons f' fs =>
      obtain hg | hg := mem_append.mp hg
      · exact h.others g hg
      · obtain rfl := mem_singleton.mp hg
        exact hother (cons_ne_nil _ _)
  marked := by
    intro fs' g hpre
    obtain heq | hpre := prefix_concat_iff.mp hpre
    · obtain ⟨rfl, hg⟩ := append_inj' heq rfl
      obtain rfl := singleton_inj.mp hg
      rw [hlast, joined_append, ← hdata, self_eq_append_right]
    · exact h.marked fs' g hpre
  last := by
    intro g hg
    rw [dropLast_concat] at hg
    exact hopen g hg
  nonempty := by
    intro hdata' g hg
    obtain hg | hg := mem_append.mp hg
    · exact h.nonempty hdata' g hg
    · obtain rfl := mem_singleton.mp hg
      exact hne hdata'

/-! ### What the log says -/

/-- The answers of the application with the fragments that have been sent of them, the last one first. -/
def record (transfers : List (List Octet × List Fragment)) : Obs → List (List Octet × List Fragment)
  | .answered data => (data, []) :: transfers
  | .sent f =>
    match transfers with
    | (data, fs) :: transfers => (data, fs ++ [f]) :: transfers
    | [] => []
  | .requested | .aborted _ => transfers

def transfers (log : List Obs) : List (List Octet × List Fragment) := log.foldl record []

/-- The requests for a fragment. -/
def requests (log : List Obs) : ℕ := log.countP fun obs => obs = .requested

/-- The fragments that answer a request. -/
def Obs.answers : Obs → Bool
  | .sent f => f.packetType = .continuing ∨ f.packetType = .ending
  | _ => false

def answers (log : List Obs) : ℕ := log.countP Obs.answers

theorem transfers_append (log : List Obs) (obs : Obs) :
    transfers (log ++ [obs]) = record (transfers log) obs := by
  rw [transfers, foldl_append]
  rfl

theorem requests_append (log : List Obs) (obs : Obs) :
    requests (log ++ [obs]) = requests log + if obs = .requested then 1 else 0 := by
  rw [requests, countP_append, countP_singleton]
  simp [requests]

theorem answers_append (log : List Obs) (obs : Obs) :
    answers (log ++ [obs]) = answers log + if obs.answers then 1 else 0 := by
  rw [answers, countP_append, countP_singleton]
  rfl

/-- The fragment that waits in a message. -/
def Internal.next? : Internal → Option NextPacket
  | nextContinuationPacket next => some next
  | abortContinuingRes _ => none

namespace Target

/-- A fragment has been asked for. -/
def asked (s : Target) : Bool := s.continuationPdu = 0 ∧ s.queue.any Internal.isNextContinuationPacket

/-- The fragments of every answer follow each other in its data, every request for a fragment has got one
unless it is about to, the next command is accepted when the messages have been delivered, and the size of
the fragments fits an AV/C frame and makes progress. -/
structure Sound (s : Target) : Prop where
  fragmented : ∀ t ∈ transfers s.log, WellFragmented t.1 t.2
  answered : requests s.log = answers s.log + s.asked.toNat
  accepts : s.queue.find? s.deliverable = none → s.block ≠ .vendor
  size : 1 ≤ s.avMaxDataSize ∧ s.avMaxDataSize ≤ avcMaxDataSize

/-- What the application and the stack promise: a command has an identifier, the length of an answer is a
number of 16 bits, and the sink has room for a response. -/
def Promised : Event → Prop
  | .command pdu => pdu ≠ 0
  | .respond _ data mandatoryData room => (mandatoryData ++ data).length < 2 ^ 16 ∧ room = true
  | .deliver room => room = true
  | .requestContinuing _ | .abortContinuing _ | .setSize _ => True

/-- The answer has room for its mandatory data, a request names the response of which a fragment is left,
what is left is not as long as a fragment, and a size is in range. -/
def CanContinue (s : Target) : Event → Prop
  | .respond _ _ mandatoryData _ => mandatoryData.length ≤ s.avMaxDataSize
  | .requestContinuing pdu =>
    s.block = .none → ∃ message ∈ s.queue, message.next?.map NextPacket.pduId = some pdu
  | .deliver _ => ∀ message ∈ s.queue.find? s.deliverable,
      message.next?.map NextPacket.paramLength ≠ some s.avMaxDataSize
  | .setSize dataSize => 1 ≤ dataSize ∧ dataSize ≤ avcMaxDataSize
  | .command _ | .abortContinuing _ => True

instance (e : Event) : Decidable (Promised e) := by
  cases e <;> unfold Promised <;> infer_instance

instance (s : Target) (e : Event) : Decidable (s.CanContinue e) := by
  cases e <;> unfold CanContinue <;> infer_instance

/-- A fragment is left of the last answer. -/
structure Left (s : Target) (next : NextPacket) : Prop where
  transfer : ∃ data fs ts, transfers s.log = (data, fs) :: ts ∧ fs ≠ [] ∧ (∀ f ∈ fs, f.packetType.isLast = false) ∧
    joined fs ++ next.data = data
  length : next.paramLength = next.data.length
  bound : next.data.length < 2 ^ 16
  nonempty : next.data ≠ []
  pduId : next.pduId ≠ 0

/-- Where a target stands between two steps. -/
inductive Phase (s : Target) : Prop
  /-- Nothing is left to be sent. -/
  | idle (queue : s.queue = []) (block : s.block ≠ .vendor) (pdu : s.block ≠ .pdu 0)
  /-- A response is aborted. -/
  | aborting (accepted : Bool) (queue : s.queue = [.abortContinuingRes accepted]) (block : s.block = .vendor)
  /-- A fragment waits for a request. -/
  | stored (next : NextPacket) (queue : s.queue = [.nextContinuationPacket next])
      (continuationPdu : s.continuationPdu = next.pduId) (left : s.Left next) (block : s.block = .none)
  /-- A fragment is about to be sent. -/
  | requested (next : NextPacket) (queue : s.queue = [.nextContinuationPacket next])
      (continuationPdu : s.continuationPdu = 0) (left : s.Left next) (block : s.block = .vendor)
  /-- Another response was to be aborted. -/
  | rejected (next : NextPacket) (queue : s.queue = [.nextContinuationPacket next, .abortContinuingRes false])
      (continuationPdu : s.continuationPdu = next.pduId) (left : s.Left next) (block : s.block = .vendor)

/-- The invariant. -/
structure Inv (s : Target) : Prop where
  fragmented : ∀ t ∈ transfers s.log, WellFragmented t.1 t.2
  answered : requests s.log = answers s.log + s.asked.toNat
  size : 1 ≤ s.avMaxDataSize ∧ s.avMaxDataSize ≤ avcMaxDataSize
  phase : s.Phase

variable {s t : Target}

theorem Inv.sound (h : s.Inv) : s.Sound := by
  refine ⟨h.fragmented, h.answered, fun hqueue => ?_, h.size⟩
  obtain ⟨-, hblock, -⟩ | ⟨accepted, hq, -⟩ | ⟨next, hq, hpdu, hleft, hblock⟩ | ⟨next, hq, hpdu, -, -⟩ |
    ⟨next, hq, hpdu, hleft, -⟩ := h.phase
  · exact hblock
  · rw [hq] at hqueue
    cases hqueue
  · rw [hblock]
    exact fun h => by cases h
  · rw [hq, List.find?_singleton, if_pos (by simp [deliverable, hpdu])] at hqueue
    cases hqueue
  · have hnext : s.deliverable (.nextContinuationPacket next) = false := by
      simp [deliverable, hpdu, hleft.pduId]
    rw [hq, List.find?_cons, hnext] at hqueue
    cases hqueue

/-! ### The steps -/

theorem taken_eq {paramLength size : ℕ} (h : size ≤ paramLength) (hp : paramLength < 2 ^ 16) :
    taken paramLength size = paramLength - size := by
  have hsub : paramLength + 2 ^ 16 - size = paramLength - size + 2 ^ 16 := by omega
  rw [taken, hsub, Nat.add_mod_right, Nat.mod_eq_of_lt (by omega)]

variable {data mandatoryData : List Octet}

theorem send_eq {pduId paramLength : ℕ} {packetType : PacketType}
    (h : s.avrcpSendMetadataResponse pduId data packetType paramLength mandatoryData true = some t) :
    t = (s.note (.sent ⟨pduId, packetType,
      mandatoryData ++ data.take (taken paramLength mandatoryData.length)⟩)).avrcpUnblockReceivedData := by
  unfold avrcpSendMetadataResponse at h
  dsimp only at h
  split_ifs at h with hshort hroom
  · exact (some.inj h).symm
  · exact absurd rfl hroom

variable {ts : List (List Octet × List Fragment)}

/-- A fragment goes out of the data that is left. -/
theorem fragmented_sent {data : List Octet}
    (h : ∀ t ∈ (data, fs) :: ts, WellFragmented t.1 t.2)
    (hf : WellFragmented data fs → WellFragmented data (fs ++ [f])) :
    ∀ t ∈ record ((data, fs) :: ts) (.sent f), WellFragmented t.1 t.2 := by
  rw [forall_mem_cons] at h
  exact forall_mem_cons.mpr ⟨hf h.1, h.2⟩

variable {pdu : ℕ}

theorem Phase.idle_of_pdu (h : s.Phase) (hblock : s.block = .pdu pdu) : s.queue = [] ∧ pdu ≠ 0 := by
  obtain ⟨hq, -, hpdu⟩ | ⟨-, -, hb⟩ | ⟨-, -, -, -, hb⟩ | ⟨-, -, -, -, hb⟩ | ⟨-, -, -, -, hb⟩ := h
  · refine ⟨hq, ?_⟩
    rintro rfl
    exact hpdu hblock
  all_goals exact absurd (hblock.symm.trans hb) (by simp)

/-- A fragment has been sent, and more are left. -/
theorem inv_stored {log : List Obs} {data rest : List Octet}
    {size pdu : ℕ} (htransfers : transfers log = (data, fs) :: ts)
    (hfragmented : ∀ t ∈ transfers log, WellFragmented t.1 t.2) (hopen : ∀ g ∈ fs, g.packetType.isLast = false)
    (hdata : joined fs ++ f.data ++ rest = data)
    (htype : (fs = [] ∧ f.packetType = .start) ∨ (fs ≠ [] ∧ f.packetType = .continuing)) (hne : f.data ≠ [])
    (hrest : rest ≠ []) (hbound : rest.length < 2 ^ 16) (hpdu : pdu ≠ 0)
    (hanswered : requests log = answers log + if fs = [] then 0 else 1)
    (hsize : 1 ≤ size ∧ size ≤ avcMaxDataSize) :
    Inv ⟨pdu, size, .none, [.nextContinuationPacket ⟨rest, rest.length, pdu⟩], log ++ [.sent f]⟩ := by
  have hlog : transfers (log ++ [.sent f]) = (data, fs ++ [f]) :: ts := by
    rw [transfers_append, htransfers]
    rfl
  have hfalse : f.packetType.isLast = false := by
    obtain ⟨-, h⟩ | ⟨-, h⟩ := htype <;> rw [h] <;> rfl
  refine ⟨?_, ?_, hsize, .stored _ rfl rfl ⟨⟨_, _, _, hlog, ?_, ?_, ?_⟩, rfl, hbound, hrest, hpdu⟩ rfl⟩
  · rw [hlog]
    rw [htransfers] at hfragmented
    refine fragmented_sent hfragmented fun h => h.append hdata hopen ?_ ?_ ?_ fun _ => hne
    · rintro rfl
      obtain ⟨-, h⟩ | ⟨h, -⟩ := htype
      · exact Or.inr h
      · exact absurd rfl h
    · intro hfs
      obtain ⟨h, -⟩ | ⟨-, h⟩ := htype
      · exact absurd h hfs
      · exact Or.inl h
    · rw [hfalse]
      exact iff_of_false Bool.false_ne_true hrest
  · have hasked : asked ⟨pdu, size, .none, [.nextContinuationPacket ⟨rest, rest.length, pdu⟩], log ++ [.sent f]⟩ =
        false := by
      simp [asked, hpdu]
    rw [hasked, requests_append, answers_append, hanswered]
    obtain ⟨h, htype⟩ | ⟨h, htype⟩ := htype
    · simp [h, Obs.answers, htype]
    · simp [h, Obs.answers, htype]
  · exact append_ne_nil_of_right_ne_nil fs (cons_ne_nil f [])
  · intro g hg
    obtain hg | hg := mem_append.mp hg
    · exact hopen g hg
    · rw [mem_singleton.mp hg, hfalse]
  · rw [joined_append, hdata]

/-- The last fragment has been sent. -/
theorem inv_last {log : List Obs} {data : List Octet}
    {size pdu : ℕ} (htransfers : transfers log = (data, fs) :: ts)
    (hfragmented : ∀ t ∈ transfers log, WellFragmented t.1 t.2) (hopen : ∀ g ∈ fs, g.packetType.isLast = false)
    (hdata : joined fs ++ f.data = data)
    (htype : (fs = [] ∧ f.packetType = .single) ∨ (fs ≠ [] ∧ f.packetType = .ending))
    (hne : data ≠ [] → f.data ≠ [])
    (hanswered : requests log = answers log + if fs = [] then 0 else 1)
    (hsize : 1 ≤ size ∧ size ≤ avcMaxDataSize) :
    Inv ⟨pdu, size, .none, [], log ++ [.sent f]⟩ := by
  have hlog : transfers (log ++ [.sent f]) = (data, fs ++ [f]) :: ts := by
    rw [transfers_append, htransfers]
    rfl
  have htrue : f.packetType.isLast = true := by
    obtain ⟨-, h⟩ | ⟨-, h⟩ := htype <;> rw [h] <;> rfl
  refine ⟨?_, ?_, hsize, .idle rfl (fun h => by cases h) fun h => by cases h⟩
  · rw [hlog]
    rw [htransfers] at hfragmented
    have hdata' : joined fs ++ f.data ++ [] = data := by rw [append_nil, hdata]
    refine fragmented_sent hfragmented fun h => h.append hdata' hopen ?_ ?_ ?_ hne
    · rintro rfl
      obtain ⟨-, h⟩ | ⟨h, -⟩ := htype
      · exact Or.inl h
      · exact absurd rfl h
    · intro hfs
      obtain ⟨h, -⟩ | ⟨-, h⟩ := htype
      · exact absurd h hfs
      · exact Or.inr h
    · exact iff_of_true htrue rfl
  · have hasked : asked ⟨pdu, size, .none, [], log ++ [.sent f]⟩ = false := by simp [asked]
    rw [hasked, requests_append, answers_append, hanswered]
    obtain ⟨h, htype⟩ | ⟨h, htype⟩ := htype
    · simp [h, Obs.answers, htype]
    · simp [h, Obs.answers, htype]

theorem inv_respond (h : s.Inv) (hblock : s.block = .pdu pdu)
    (hlen : (mandatoryData ++ data).length < 2 ^ 16) (hsize : mandatoryData.length ≤ s.avMaxDataSize)
    (ht : (s.note (.answered (mandatoryData ++ data))).prepareMetadataStatusResponse pdu data mandatoryData true =
      some t) : t.Inv := by
  obtain ⟨hqueue, hpdu⟩ := h.phase.idle_of_pdu hblock
  have hmax : s.avMaxDataSize ≤ 502 := h.size.2
  have htransfers : transfers (s.log ++ [.answered (mandatoryData ++ data)]) =
      (mandatoryData ++ data, []) :: transfers s.log := transfers_append _ _
  have hfragmented : ∀ t ∈ transfers (s.log ++ [.answered (mandatoryData ++ data)]), WellFragmented t.1 t.2 := by
    rw [htransfers]
    exact forall_mem_cons.mpr ⟨wellFragmented_nil _, h.fragmented⟩
  have hanswered : requests (s.log ++ [.answered (mandatoryData ++ data)]) =
      answers (s.log ++ [.answered (mandatoryData ++ data)]) + if ([] : List Fragment) = [] then 0 else 1 := by
    have hasked : s.asked = false := by simp [asked, hqueue]
    rw [requests_append, answers_append, h.answered, hasked]
    simp [Obs.answers]
  rw [length_append] at hlen
  unfold prepareMetadataStatusResponse at ht
  dsimp only at ht
  split_ifs at ht with hfit
  · -- the first of some fragments
    have hmore : s.avMaxDataSize < mandatoryData.length + data.length := hfit
    have htaken : taken s.avMaxDataSize mandatoryData.length = s.avMaxDataSize - mandatoryData.length :=
      taken_eq hsize (by omega)
    have hrest : (data.drop (taken s.avMaxDataSize mandatoryData.length)).length =
        mandatoryData.length + data.length - s.avMaxDataSize := by
      rw [length_drop, htaken]
      omega
    have heq : t = ⟨pdu, s.avMaxDataSize, .none, [.nextContinuationPacket
        ⟨data.drop (taken s.avMaxDataSize mandatoryData.length),
          (data.drop (taken s.avMaxDataSize mandatoryData.length)).length, pdu⟩],
        s.log ++ [.answered (mandatoryData ++ data)] ++
          [.sent ⟨pdu, .start, mandatoryData ++ data.take (taken s.avMaxDataSize mandatoryData.length)⟩]⟩ := by
      rw [send_eq ht, hrest]
      unfold avrcpUnblockReceivedData note avrcpStoreNextContinuationPacket
      dsimp only
      rw [hqueue]
      rfl
    rw [heq]
    refine inv_stored htransfers hfragmented (by simp) ?_ (Or.inl ⟨rfl, rfl⟩) ?_ ?_ ?_ hpdu hanswered h.size
    · rw [joined, flatMap_nil, nil_append, List.append_assoc]
      exact congrArg (mandatoryData ++ ·) (List.take_append_drop _ _)
    · have hlength : (mandatoryData ++ data.take (taken s.avMaxDataSize mandatoryData.length)).length =
          s.avMaxDataSize := by
        rw [length_append, length_take, htaken]
        omega
      rw [← length_pos_iff]
      exact Nat.lt_of_lt_of_eq h.size.1 hlength.symm
    · rw [← length_pos_iff, hrest]
      omega
    · rw [hrest]
      omega
  · -- the only fragment
    have htaken : taken (mandatoryData.length + data.length) mandatoryData.length = data.length := by
      rw [taken_eq (Nat.le_add_right _ _) hlen, Nat.add_sub_cancel_left]
    have heq : t = ⟨s.continuationPdu, s.avMaxDataSize, .none, [], s.log ++ [.answered (mandatoryData ++ data)] ++
        [.sent ⟨pdu, .single, mandatoryData ++
          data.take (taken (mandatoryData.length + data.length) mandatoryData.length)⟩]⟩ := by
      rw [send_eq ht]
      unfold avrcpUnblockReceivedData note
      dsimp only
      rw [hqueue]
    rw [heq]
    refine inv_last htransfers hfragmented (by simp) ?_ (Or.inl ⟨rfl, rfl⟩) ?_ hanswered h.size
    · rw [htaken, take_length]
      rfl
    · rw [htaken, take_length]
      exact id

theorem Left.inv_next {next : NextPacket} (hleft : s.Left next) (h : s.Inv) (hpdu : s.continuationPdu = 0)
    (hqueue : s.queue = [.nextContinuationPacket next]) (hne : next.paramLength ≠ s.avMaxDataSize)
    (ht : { s with queue := [] }.avrcpHandleNextContinuationPacket next true = some t) : t.Inv := by
  obtain ⟨data, fs, ts, htransfers, hfs, hopen, hdata⟩ := hleft.transfer
  have hanswered : requests s.log = answers s.log + if fs = [] then 0 else 1 := by
    have hasked : s.asked = true := by simp [asked, hpdu, hqueue, Internal.isNextContinuationPacket]
    rw [h.answered, hasked, if_neg hfs]
    rfl
  have hlength := hleft.length
  have hbound := hleft.bound
  have hmax : s.avMaxDataSize ≤ 502 := h.size.2
  unfold avrcpHandleNextContinuationPacket at ht
  dsimp only at ht
  split_ifs at ht with hlast
  · have htaken : taken next.paramLength 0 = next.data.length := by
      rw [taken_eq (Nat.zero_le _) (by omega), Nat.sub_zero, hlength]
    have heq := send_eq ht
    rw [length_nil, htaken, nil_append, take_length] at heq
    rw [heq]
    exact inv_last htransfers h.fragmented hopen hdata (Or.inr ⟨hfs, rfl⟩) (fun _ => hleft.nonempty) hanswered
      h.size
  · have hmore : s.avMaxDataSize < next.data.length := by omega
    have htaken : taken s.avMaxDataSize 0 = s.avMaxDataSize := taken_eq (Nat.zero_le _) (by omega)
    have hrest : (next.data.drop s.avMaxDataSize).length = next.paramLength - s.avMaxDataSize := by
      rw [length_drop, hlength]
    have heq := send_eq ht
    rw [length_nil, htaken, nil_append, ← hrest] at heq
    rw [heq]
    refine inv_stored htransfers h.fragmented hopen ?_ (Or.inr ⟨hfs, rfl⟩) ?_ ?_ ?_ hleft.pduId hanswered h.size
    · rw [List.append_assoc, List.take_append_drop, hdata]
    · have hone := h.size.1
      rw [← length_pos_iff, length_take]
      omega
    · rw [← length_pos_iff, hrest]
      omega
    · rw [hrest]
      omega

theorem Left.of_log {next : NextPacket} (h : s.Left next) (hlog : transfers t.log = transfers s.log) :
    t.Left next := by
  obtain ⟨data, fs, ts, htransfers, hrest⟩ := h.transfer
  exact ⟨⟨data, fs, ts, hlog.trans htransfers, hrest⟩, h.length, h.bound, h.nonempty, h.pduId⟩

/-- A step that sends no fragment. -/
theorem Inv.of_log (h : s.Inv) (hlog : transfers t.log = transfers s.log)
    (hanswered : requests t.log + s.asked.toNat = requests s.log + t.asked.toNat)
    (hanswers : answers t.log = answers s.log) (hmax : t.avMaxDataSize = s.avMaxDataSize) (hphase : t.Phase) :
    t.Inv := by
  have hs := h.answered
  refine ⟨by rw [hlog]; exact h.fragmented, ?_, by rw [hmax]; exact h.size, hphase⟩
  rw [hanswers]
  omega

theorem asked_eq_false (hpdu : s.continuationPdu ≠ 0 ∨ s.queue.any Internal.isNextContinuationPacket = false) :
    s.asked = false := by
  obtain h | h := hpdu <;> simp [asked, h]

theorem Phase.of_block (h : s.Phase) (hblock : s.block = .none) :
    s.queue = [] ∨ ∃ next, s.queue = [.nextContinuationPacket next] ∧ s.continuationPdu = next.pduId ∧
      s.Left next := by
  obtain ⟨hq, -, -⟩ | ⟨-, -, hb⟩ | ⟨next, hq, hpdu, hleft, -⟩ | ⟨-, -, -, -, hb⟩ | ⟨-, -, -, -, hb⟩ := h
  · exact Or.inl hq
  · exact absurd (hblock.symm.trans hb) (by simp)
  · exact Or.inr ⟨next, hq, hpdu, hleft⟩
  · exact absurd (hblock.symm.trans hb) (by simp)
  · exact absurd (hblock.symm.trans hb) (by simp)

/-- Between two commands no fragment has been asked for. -/
theorem Phase.asked_of_block (h : s.Phase) (hblock : s.block = .none) : s.asked = false := by
  obtain hq | ⟨next, -, hpdu, hleft⟩ := h.of_block hblock
  · exact asked_eq_false (Or.inr (by rw [hq]; rfl))
  · exact asked_eq_false (Or.inl (hpdu ▸ hleft.pduId))

theorem inv_command (h : s.Inv) (hblock : s.block = .none) (hpdu : pdu ≠ 0) :
    (s.avrcpHandleMetadataCommand (.command pdu)).Inv := by
  have hqueue : (s.avrcpHandleMetadataCommand (.command pdu)).queue = [] := by
    unfold avrcpHandleMetadataCommand abortContinuation
    obtain hq | ⟨next, hq, hcontinuation, hleft⟩ := h.phase.of_block hblock
    · dsimp only
      split_ifs <;> simp [hq]
    · have hne : s.continuationPdu ≠ 0 := hcontinuation ▸ hleft.pduId
      dsimp only
      rw [if_pos hne]
      simp [hq, Internal.isNextContinuationPacket]
  have hlog : (s.avrcpHandleMetadataCommand (.command pdu)).log = s.log ∧
      (s.avrcpHandleMetadataCommand (.command pdu)).avMaxDataSize = s.avMaxDataSize ∧
      (s.avrcpHandleMetadataCommand (.command pdu)).block = .pdu pdu := by
    unfold avrcpHandleMetadataCommand abortContinuation
    dsimp only
    split_ifs <;> exact ⟨rfl, rfl, rfl⟩
  obtain ⟨hlog, hmax, hpending⟩ := hlog
  refine h.of_log (by rw [hlog]) ?_ (by rw [hlog]) hmax (.idle hqueue ?_ ?_)
  · rw [hlog, h.phase.asked_of_block hblock, asked_eq_false (Or.inr (by rw [hqueue]; rfl))]
  · rw [hpending]
    exact fun h => by cases h
  · rw [hpending]
    exact fun h => hpdu (Pending.pdu.inj h)

theorem inv_requestContinuing (h : s.Inv) (hblock : s.block = .none)
    (hok : ∃ message ∈ s.queue, message.next?.map NextPacket.pduId = some pdu) :
    (s.avrcpHandleMetadataCommand (.requestContinuing pdu)).Inv := by
  obtain ⟨message, hmem, hnext⟩ := hok
  obtain hq | ⟨next, hq, hpdu, hleft⟩ := h.phase.of_block hblock
  · rw [hq] at hmem
    cases hmem
  rw [hq] at hmem
  obtain rfl := mem_singleton.mp hmem
  obtain rfl : next.pduId = pdu := some.inj hnext
  have heq : s.avrcpHandleMetadataCommand (.requestContinuing next.pduId) =
      ⟨0, s.avMaxDataSize, .vendor, s.queue, s.log ++ [.requested]⟩ := if_pos hpdu
  rw [heq]
  have hasked : asked ⟨0, s.avMaxDataSize, .vendor, s.queue, s.log ++ [.requested]⟩ = true := by
    simp [asked, hq, Internal.isNextContinuationPacket]
  refine h.of_log (transfers_append _ _) ?_ ?_ rfl (.requested next hq rfl (hleft.of_log (transfers_append _ _)) rfl)
  · rw [hasked, h.phase.asked_of_block hblock, requests_append]
    rfl
  · rw [answers_append]
    rfl

theorem inv_abortContinuing (h : s.Inv) (hblock : s.block = .none) (pdu : ℕ) :
    (s.avrcpHandleMetadataCommand (.abortContinuing pdu)).Inv := by
  change (avrcpHandleAbortContinuingCommand { s with block := .vendor } pdu).Inv
  have hasked := h.phase.asked_of_block hblock
  unfold avrcpHandleAbortContinuingCommand abortContinuation
  dsimp only
  obtain hq | ⟨next, hq, hpdu, hleft⟩ := h.phase.of_block hblock
  · rw [hq]
    split_ifs
    · refine h.of_log rfl ?_ rfl rfl (.aborting true rfl rfl)
      rw [hasked, asked_eq_false (Or.inr rfl)]
    · refine h.of_log rfl ?_ rfl rfl (.aborting false rfl rfl)
      rw [hasked, asked_eq_false (Or.inr rfl)]
  · rw [hq]
    split_ifs
    · refine h.of_log rfl ?_ rfl rfl (.aborting true rfl rfl)
      rw [hasked, asked_eq_false (Or.inr rfl)]
    · refine h.of_log rfl ?_ rfl rfl (.rejected next rfl hpdu (hleft.of_log rfl) rfl)
      rw [hasked, asked_eq_false (Or.inl (hpdu ▸ hleft.pduId))]

/-- The answer to an abort is sent. -/
theorem inv_aborted (h : s.Inv) {accepted : Bool} {queue : List Internal} (hasked : s.asked = false)
    (hphase : Phase ⟨s.continuationPdu, s.avMaxDataSize, .none, queue, s.log ++ [.aborted accepted]⟩)
    (hqueue : queue.any Internal.isNextContinuationPacket = false ∨ s.continuationPdu ≠ 0) :
    Inv ⟨s.continuationPdu, s.avMaxDataSize, .none, queue, s.log ++ [.aborted accepted]⟩ := by
  refine h.of_log (transfers_append _ _) ?_ ?_ rfl hphase
  · rw [hasked, asked_eq_false hqueue.symm, requests_append]
    rfl
  · rw [answers_append]
    rfl

theorem inv_deliver (h : s.Inv) (hok : s.CanContinue (.deliver true)) (ht : s.deliver true = some t) : t.Inv := by
  have hnot : ∀ next, s.continuationPdu ≠ 0 → s.deliverable (.nextContinuationPacket next) = false :=
    fun next hpdu => decide_eq_false hpdu
  unfold deliver at ht
  obtain ⟨hq, -, -⟩ | ⟨accepted, hq, -⟩ | ⟨next, hq, hpdu, hleft, -⟩ | ⟨next, hq, hpdu, hleft, -⟩ |
    ⟨next, hq, hpdu, hleft, -⟩ := h.phase
  · rw [hq] at ht
    obtain rfl := some.inj ht
    exact h
  · have hfind : s.queue.find? s.deliverable = some (.abortContinuingRes accepted) := by
      rw [hq]
      rfl
    rw [hfind, hq] at ht
    dsimp only at ht
    rw [erase_cons_head] at ht
    obtain rfl := some.inj ht
    refine inv_aborted h (asked_eq_false (Or.inr (by rw [hq]; rfl))) (.idle rfl ?_ ?_) (Or.inl rfl) <;>
      exact fun h => by cases h
  · -- the fragment is not asked for
    have hfind : s.queue.find? s.deliverable = none := by
      rw [hq, List.find?_singleton, hnot next (hpdu ▸ hleft.pduId)]
      rfl
    rw [hfind] at ht
    obtain rfl := some.inj ht
    exact h
  · have hfind : s.queue.find? s.deliverable = some (.nextContinuationPacket next) := by
      rw [hq, List.find?_singleton]
      exact if_pos (decide_eq_true hpdu)
    rw [hfind] at ht
    have hne : next.paramLength ≠ s.avMaxDataSize :=
      fun heq => hok _ hfind (congrArg some heq)
    dsimp only at ht
    rw [hq, erase_cons_head] at ht
    exact hleft.inv_next h hpdu hq hne ht
  · have hne : s.continuationPdu ≠ 0 := hpdu ▸ hleft.pduId
    have hfind : s.queue.find? s.deliverable = some (.abortContinuingRes false) := by
      rw [hq, List.find?_cons, hnot next hne]
      rfl
    have herase : s.queue.erase (.abortContinuingRes false) = [.nextContinuationPacket next] := by
      rw [hq]
      rfl
    rw [hfind] at ht
    dsimp only at ht
    rw [herase] at ht
    obtain rfl := some.inj ht
    exact inv_aborted h (asked_eq_false (Or.inl hne))
      (.stored next rfl hpdu (hleft.of_log (transfers_append _ _)) rfl) (Or.inr hne)

theorem inv_step {e : Event} (h : s.Inv) (hpromised : Promised e) (hok : s.CanContinue e)
    (ht : s.step e = some t) : t.Inv := by
  unfold step at ht
  cases e with try obtain rfl := some.inj ht
  | command pdu =>
    split_ifs with hblock
    · exact inv_command h hblock hpromised
    · exact h
  | respond pdu data mandatoryData room =>
    dsimp only at ht
    split_ifs at ht with hblock
    · obtain ⟨hlen, rfl⟩ := hpromised
      exact inv_respond h hblock hlen hok ht
    · obtain rfl := some.inj ht
      exact h
  | requestContinuing pdu =>
    split_ifs with hblock
    · exact inv_requestContinuing h hblock (hok hblock)
    · exact h
  | abortContinuing pdu =>
    split_ifs with hblock
    · exact inv_abortContinuing h hblock pdu
    · exact h
  | deliver room =>
    obtain rfl : room = true := hpromised
    exact inv_deliver h hok ht
  | setSize dataSize =>
    have heq : s.AvrcpSetMetadataResponsePDUDataSize dataSize = { s with avMaxDataSize := dataSize } :=
      if_pos h.size.2
    rw [heq]
    refine ⟨h.fragmented, h.answered, hok, ?_⟩
    obtain ⟨hq, hb, hp⟩ | ⟨accepted, hq, hb⟩ | ⟨next, hq, hpdu, hleft, hb⟩ | ⟨next, hq, hpdu, hleft, hb⟩ |
      ⟨next, hq, hpdu, hleft, hb⟩ := h.phase
    · exact .idle hq hb hp
    · exact .aborting accepted hq hb
    · exact .stored next hq hpdu (hleft.of_log rfl) hb
    · exact .requested next hq hpdu (hleft.of_log rfl) hb
    · exact .rejected next hq hpdu (hleft.of_log rfl) hb

theorem inv_init : init.Inv := by
  refine ⟨?_, rfl, ⟨?_, ?_⟩, .idle rfl ?_ ?_⟩
  · intro t ht
    cases ht
  · decide
  · decide
  · exact fun h => by cases h
  · exact fun h => by cases h

/-- The fragments of a response are right in every state of a run whose steps meet the condition. -/
theorem fragmentsSound_of_run {es : List Event} (hpromised : ∀ e ∈ es, Promised e)
    (hok : Lib.RunMeets step CanContinue init es) (ht : Lib.run step init es = some t) : t.Sound := by
  have hguard := (Lib.runMeets_of_forall hpromised init).and hok
  exact (Lib.run_invariant (fun _ _ _ hinv hguard hstep => inv_step hinv hguard.1 hguard.2 hstep) inv_init hguard
    ht).sound

/-- The octets of a response in fragments of two, and the request for the second one. -/
def inFragmentsOfTwo (data : List Octet) : List Event :=
  [.setSize 2, .command 0x20, .respond 0x20 data [] true, .requestContinuing 0x20, .deliver true]

theorem fragmentsSound_threeOctets : ∃ t, Lib.run step init (inFragmentsOfTwo [1, 2, 3]) = some t ∧ t.Sound :=
  ⟨_, rfl, @fragmentsSound_of_run _ (inFragmentsOfTwo [1, 2, 3]) (by decide) (by decide) rfl⟩

/-- The fragments of a response are right in every state. -/
def AlwaysSound : Prop :=
  ∀ (es : List Event) (t : Target), (∀ e ∈ es, Promised e) → Lib.run step init es = some t → t.Sound

/-- Four octets in fragments of two: the second fragment is not marked as the last one. -/
theorem not_fragmentsAlwaysSound : ¬AlwaysSound := by
  intro h
  have hrun : Lib.run step init (inFragmentsOfTwo [1, 2, 3, 4]) = some
      ⟨0x20, 2, .none, [.nextContinuationPacket ⟨[], 0, 0x20⟩],
        [.answered [1, 2, 3, 4], .sent ⟨0x20, .start, [1, 2]⟩, .requested, .sent ⟨0x20, .continuing, [3, 4]⟩]⟩ := by
    decide
  have hmarked := ((h _ _ (by decide) hrun).fragmented _ mem_cons_self).marked [⟨0x20, .start, [1, 2]⟩]
    ⟨0x20, .continuing, [3, 4]⟩ (prefix_rfl)
  exact absurd (hmarked.mpr rfl) (by decide)

end Target

end Cbps.Avrcp
