import Cbps.Pbapc.Client

/-!
# Navigation to a phonebook

What is promised of a set-phonebook request: a server that accepts every legal SETPATH is led to the folder asked for in
finitely many requests, each of them legal, with one successful confirm; and after every answer, a refusal too, the
recorded position is where the server is. The recorded position is always right (`session_sound`). Two targets are
missed. The telecom folder has the value of `pbap_current`, so a request for it is a request for the recorded folder,
and no state of the navigation ends in it. The SIM repository is entered with a name in small letters. `navigates_iff`
says that all other requests end where they should.
-/

namespace Cbps.Pbapc

open Option

open Cbps.Lib

variable {caseless : Bool} {srvRepos : PhoneRepository} {s s' : Session} {n : ℕ}

namespace Session

/-- The recorded position is the folder of the server. -/
def Recorded (s : Session) : Prop := s.folder = folderOf s.client.pb.currRepos s.client.pb.currPb

variable (caseless) in
/-- **After an answer** the position is right, and either the next SETPATH request is under way or the request has its
one confirm and the client is ready. A refusal ends the request. -/
def Answered (s : Session) : Prop :=
  ∀ status s', s.step caseless (.answer status) = some s' → s'.Recorded ∧
    ((s'.pending ≠ none ∧ s'.cfms = s.cfms ∧ convertObexError status = .success) ∨
      (s'.pending = none ∧ s'.client.currCom = .none ∧ ∃ cfm, s'.cfms = s.cfms ++ [cfm] ∧
        cfm.status = convertObexError status))

/-- A request that the interface accepts, with no command under way. -/
def Accepts (s : Session) (repository : PhoneRepository) (phonebook : PhoneBook) : Prop :=
  s.client.currCom = .none ∧ requested s.client.srvRepos repository ≠ .current ∧ phonebook ≠ .root

variable (caseless) in
/-- A server that accepts what is legal is led from `s` to a folder in `n` requests at most, each of them legal, with one
confirm of success behind `cfms`. -/
structure Arrives (n : ℕ) (s : Session) (cfms : List SetPhonebookCfm) (folder : Folder) : Prop where
  legal : ∀ k < n, ∀ p ∈ (serve caseless k s).pending, setPath caseless (serve caseless k s).folder p ≠ none
  done : (serve caseless n s).pending = none
  ready : (serve caseless n s).client.currCom = .none
  told : ∃ cfm, (serve caseless n s).cfms = cfms ++ [cfm] ∧ cfm.status = .success
  there : (serve caseless n s).folder = folder

variable (caseless) in
/-- **The promise** for a request. -/
def Navigates (s : Session) (repository : PhoneRepository) (phonebook : PhoneBook) : Prop :=
  ∃ n, Arrives caseless n (s.request repository phonebook) s.cfms
    (folderOf (requested s.client.srvRepos repository) phonebook)

/-- Every session keeps its position, and every request that is accepted ends where it should. -/
def AlwaysNavigates (caseless : Bool) : Prop :=
  ∀ srvRepos es s, run (step caseless) (initial srvRepos) es = some s →
    s.Recorded ∧ s.Answered caseless ∧
      ∀ repository phonebook, s.Accepts repository phonebook → s.Navigates caseless repository phonebook

variable (caseless) in
/-- The condition: the telecom folder is asked for only where the session is, and the SIM repository is not entered with
the wrong name. -/
def Navigable (s : Session) (repository : PhoneRepository) (phonebook : PhoneBook) : Prop :=
  let repository := requested s.client.srvRepos repository
  (phonebook = .telecom → s.client.pb.currPb = .telecom ∧ s.client.pb.currRepos = repository) ∧
    (repository = .sim1 → s.client.pb.currRepos ≠ .sim1 → caseless = true)

/-! ### The invariant -/

/-- A position that can be recorded. -/
def Possible (caseless : Bool) (pb : Pb) : Prop :=
  pb.currRepos ≠ .current ∧ (pb.currRepos = .any → pb.currPb = .root) ∧ (pb.currRepos = .sim1 → caseless = true)

/-- A session on its way to a target. -/
def going (srvRepos : PhoneRepository) (pb : Pb) (cfms : List SetPhonebookCfm) : Session where
  client := ⟨.setPhonebook, pbapcPbNextState pb, srvRepos, pb⟩
  folder := folderOf pb.currRepos pb.currPb
  pending := some (pbapcSetPb ⟨.setPhonebook, pbapcPbNextState pb, srvRepos, pb⟩)
  cfms := cfms

/-- A target that a request can set. -/
def Target (repository : PhoneRepository) : Prop := repository = .local ∨ repository = .sim1

variable (caseless) in
/-- What holds in every session. -/
structure Sound (s : Session) : Prop where
  recorded : s.Recorded
  possible : Possible caseless s.client.pb
  idle : s.pending = none ↔ s.client.currCom ≠ .setPhonebook
  busy : s.pending ≠ none → s = going s.client.srvRepos s.client.pb s.cfms ∧ Target s.client.pb.targetRepos

/-! ### One answer -/

/-- The position after an accepted request. -/
def arrived (pb : Pb) : Pb := (pbapcPbCompleteState ⟨.setPhonebook, pbapcPbNextState pb, .any, pb⟩).1.pb

theorem find_sim1 : ["telecom", "SIM1"].find? (sameName caseless sim1Str) = if caseless then some "SIM1" else none := by
  cases caseless <;> rfl

theorem find_telecom : ["telecom", "SIM1"].find? (sameName caseless "telecom") = some "telecom" := by
  cases caseless <;> rfl

/-- The folders of the phonebooks. -/
theorem children_telecom (repository : PhoneRepository) :
    children (folderOf repository .telecom) = ["pb", "ich", "och", "mch", "cch"] := by
  cases repository <;> simp [children, folderOf]

/-- The name of a phonebook is that of its folder. -/
theorem book_name {book : PhoneBook} (ht : book ≠ .telecom) (hr : book ≠ .root) :
    ∃ name, pbapcGetPbNameFromID book = some name ∧
      (∀ repository, folderOf repository book = folderOf repository .telecom ++ [name]) ∧
      ["pb", "ich", "och", "mch", "cch"].find? (sameName caseless name) = some name := by
  cases book with
  | telecom => contradiction
  | root => contradiction
  | pb => exact ⟨"pb", rfl, fun r => by simp [folderOf], by cases caseless <;> rfl⟩
  | ich => exact ⟨"ich", rfl, fun r => by simp [folderOf], by cases caseless <;> rfl⟩
  | och => exact ⟨"och", rfl, fun r => by simp [folderOf], by cases caseless <;> rfl⟩
  | mch => exact ⟨"mch", rfl, fun r => by simp [folderOf], by cases caseless <;> rfl⟩
  | cch => exact ⟨"cch", rfl, fun r => by simp [folderOf], by cases caseless <;> rfl⟩

variable {repository : PhoneRepository}

theorem setPath_book {book : PhoneBook} (ht : book ≠ .telecom) (hr : book ≠ .root) :
    setPath caseless (folderOf repository .telecom) (.child (pbapcGetPbNameFromID book)) =
      some (folderOf repository book) := by
  obtain ⟨name, hname, hfolder, hfind⟩ := @book_name caseless _ ht hr
  rw [hname, setPath, children_telecom, hfind, map_some, hfolder]

/-- The telecom folder has no child of its own name, and the table of names has none for the root. -/
theorem setPath_stuck {book : PhoneBook} (h : book = .telecom ∨ book = .root) :
    setPath caseless (folderOf repository .telecom) (.child (pbapcGetPbNameFromID book)) = none := by
  have htelecom : pbapcGetPbNameFromID .telecom = some "telecom" := rfl
  have hroot : pbapcGetPbNameFromID .root = none := rfl
  rcases h with rfl | rfl
  · rw [htelecom, setPath, children_telecom]
    cases caseless <;> rfl
  · rw [hroot]
    rfl

/-- The telecom folder is in each repository. -/
theorem setPath_telecom (h : repository = .local ∨ repository = .sim1) :
    setPath caseless (folderOf repository .root) (.child (pbapcGetPbNameFromID .telecom)) =
      some (folderOf repository .telecom) := by
  have hname : pbapcGetPbNameFromID .telecom = some "telecom" := rfl
  rw [hname]
  rcases h with rfl | rfl
  · simp [setPath, folderOf, children, find_telecom]
  · cases caseless <;> rfl

/-- A phonebook is in the telecom folder. -/
theorem setPath_parent {book : PhoneBook} (ht : book ≠ .telecom) (hr : book ≠ .root) :
    setPath caseless (folderOf repository book) .toParent = some (folderOf repository .telecom) := by
  obtain ⟨name, -, hfolder, -⟩ := @book_name caseless _ ht hr
  rw [hfolder, setPath, if_neg (by simp), List.dropLast_concat]

variable (caseless) in
/-- Whether the request of a position on the way is legal. -/
def Legal (pb : Pb) : Prop :=
  (pbapcPbNextState pb = .gotoSim1 → caseless = true) ∧
    (pbapcPbNextState pb = .gotoPhonebook → pb.targetPb ≠ .telecom ∧ pb.targetPb ≠ .root)

/-- The states of the navigation. -/
theorem next_cases {pb : Pb} (hp : Possible caseless pb) :
    (pbapcPbNextState pb = .gotoTelecom ∧ pb.currRepos = pb.targetRepos ∧ pb.currPb = .root) ∨
    (pbapcPbNextState pb = .gotoPhonebook ∧ pb.currRepos = pb.targetRepos ∧ pb.currPb = .telecom) ∨
    (pbapcPbNextState pb = .gotoParent ∧ pb.currRepos = pb.targetRepos ∧ pb.currPb ≠ .telecom ∧ pb.currPb ≠ .root) ∨
    (pbapcPbNextState pb = .gotoSim1 ∧ pb.currRepos = .local ∧ pb.targetRepos = .sim1 ∧ pb.currPb = .root) ∨
    (pbapcPbNextState pb = .gotoRoot ∧ pb.currRepos ≠ pb.targetRepos) := by
  by_cases hrepos : pb.targetRepos = pb.currRepos
  · by_cases hroot : pb.currPb = .root
    · exact .inl ⟨by rw [pbapcPbNextState, if_pos hrepos, if_pos hroot], hrepos.symm, hroot⟩
    by_cases htelecom : pb.currPb = .telecom
    · exact .inr (.inl ⟨by rw [pbapcPbNextState, if_pos hrepos, if_neg hroot, if_pos htelecom], hrepos.symm, htelecom⟩)
    · exact .inr (.inr (.inl ⟨by rw [pbapcPbNextState, if_pos hrepos, if_neg hroot, if_neg htelecom], hrepos.symm,
        htelecom, hroot⟩))
  · by_cases hany : pb.currRepos = .any
    · exact .inr (.inr (.inr (.inr ⟨by rw [pbapcPbNextState, if_neg hrepos, if_neg (not_not.mpr hany)], Ne.symm hrepos⟩)))
    by_cases hsim : pb.targetRepos = .sim1 ∧ pb.currPb = .root
    · refine .inr (.inr (.inr (.inl ⟨by rw [pbapcPbNextState, if_neg hrepos, if_pos hany, if_pos hsim], ?_, hsim⟩)))
      cases hcurr : pb.currRepos with
      | current => exact absurd hcurr hp.1
      | «local» => rfl
      | sim1 => exact absurd (hsim.1.trans hcurr.symm) hrepos
      | any => exact absurd hcurr hany
    · exact .inr (.inr (.inr (.inr ⟨by rw [pbapcPbNextState, if_neg hrepos, if_pos hany, if_neg hsim],
        Ne.symm hrepos⟩)))

/-- The folder after a legal request is that of the position that is recorded then. -/
theorem setPath_going {pb : Pb} (hp : Possible caseless pb) (ht : Target pb.targetRepos) (client : PbapcState)
    (hstate : client.setPbState = pbapcPbNextState pb) (hpb : client.pb = pb) (hlegal : Legal caseless pb) :
    setPath caseless (folderOf pb.currRepos pb.currPb) (pbapcSetPb client) =
      some (folderOf (arrived pb).currRepos (arrived pb).currPb) := by
  rcases next_cases hp with ⟨hnext, hrepos, hbook⟩ | ⟨hnext, hrepos, hbook⟩ | ⟨hnext, hrepos, htelecom, hroot⟩ |
    ⟨hnext, hrepos, hsim, hbook⟩ | ⟨hnext, -⟩
  · have harrived : arrived pb = { pb with currPb := .telecom, currRepos := pb.targetRepos } := by
      simp only [arrived, pbapcPbCompleteState, hnext]
    rw [harrived, pbapcSetPb, hstate, hnext, hrepos, hbook]
    exact setPath_telecom ht
  · have harrived : arrived pb = { pb with currPb := pb.targetPb, currRepos := pb.targetRepos } := by
      simp only [arrived, pbapcPbCompleteState, hnext]
    obtain ⟨htelecom, hroot⟩ := hlegal.2 hnext
    rw [harrived, pbapcSetPb, hstate, hnext, hrepos, hbook, hpb]
    exact setPath_book htelecom hroot
  · have harrived : arrived pb = { pb with currPb := .telecom } := by simp only [arrived, pbapcPbCompleteState, hnext]
    rw [harrived, pbapcSetPb, hstate, hnext]
    exact setPath_parent htelecom hroot
  · have harrived : arrived pb = { pb with currRepos := .sim1, currPb := .root } := by
      simp only [arrived, pbapcPbCompleteState, hnext]
    rw [harrived, pbapcSetPb, hstate, hnext, hrepos, hbook, hlegal.1 hnext]
    simp [setPath, folderOf, children, find_sim1]
  · have harrived : arrived pb = { pb with currRepos := .local, currPb := .root } := by
      simp only [arrived, pbapcPbCompleteState, hnext]
    rw [harrived, pbapcSetPb, hstate, hnext]
    rfl

/-- An illegal request is refused. -/
theorem setPath_illegal {pb : Pb} (hp : Possible caseless pb) (client : PbapcState)
    (hstate : client.setPbState = pbapcPbNextState pb) (hpb : client.pb = pb) (hlegal : ¬ Legal caseless pb) :
    setPath caseless (folderOf pb.currRepos pb.currPb) (pbapcSetPb client) = none := by
  rcases next_cases hp with ⟨hnext, -⟩ | ⟨hnext, hrepos, hbook⟩ | ⟨hnext, -⟩ | ⟨hnext, hrepos, hsim, hbook⟩ | ⟨hnext, -⟩
  · exact absurd ⟨fun h => by simp [hnext] at h, fun h => by simp [hnext] at h⟩ hlegal
  · have htarget : pb.targetPb = .telecom ∨ pb.targetPb = .root := by
      by_contra h
      rw [not_or] at h
      exact hlegal ⟨fun h => by simp [hnext] at h, fun _ => h⟩
    rw [pbapcSetPb, hstate, hnext, hbook, hpb]
    exact setPath_stuck htarget
  · exact absurd ⟨fun h => by simp [hnext] at h, fun h => by simp [hnext] at h⟩ hlegal
  · have hcase : caseless = false := by
      by_contra h
      exact hlegal ⟨fun _ => by simpa using h, fun h => by simp [hnext] at h⟩
    rw [pbapcSetPb, hstate, hnext, hrepos, hbook, hcase]
    simp [setPath, folderOf, children, find_sim1]
  · exact absurd ⟨fun h => by simp [hnext] at h, fun h => by simp [hnext] at h⟩ hlegal

/-- The client on its way to a target. -/
def travelling (srvRepos : PhoneRepository) (pb : Pb) : PbapcState := ⟨.setPhonebook, pbapcPbNextState pb, srvRepos, pb⟩

/-- An accepted request ends the navigation in one state only. -/
theorem completeState_eq {pb : Pb} (hp : Possible caseless pb) :
    pbapcPbCompleteState (travelling srvRepos pb) =
      ({ travelling srvRepos pb with pb := arrived pb }, decide (pbapcPbNextState pb = .gotoPhonebook)) := by
  rcases next_cases hp with ⟨hnext, -⟩ | ⟨hnext, -⟩ | ⟨hnext, -⟩ | ⟨hnext, -⟩ | ⟨hnext, -⟩ <;>
    simp [pbapcPbCompleteState, travelling, arrived, hnext]

theorem arrived_target (pb : Pb) : (arrived pb).targetRepos = pb.targetRepos ∧ (arrived pb).targetPb = pb.targetPb := by
  unfold arrived pbapcPbCompleteState
  split <;> exact ⟨rfl, rfl⟩

/-- The position after a legal request is a possible one. -/
theorem arrived_possible {pb : Pb} (hp : Possible caseless pb) (ht : Target pb.targetRepos)
    (hlegal : Legal caseless pb) : Possible caseless (arrived pb) := by
  have htarget : pb.targetRepos ≠ .current ∧ pb.targetRepos ≠ .any := by
    rcases ht with h | h <;> rw [h] <;> exact ⟨nofun, nofun⟩
  rcases next_cases hp with ⟨hnext, hrepos, -⟩ | ⟨hnext, hrepos, -⟩ | ⟨hnext, hrepos, -⟩ | ⟨hnext, -⟩ | ⟨hnext, -⟩ <;>
    simp only [arrived, pbapcPbCompleteState, hnext]
  · exact ⟨htarget.1, fun h => absurd h htarget.2, fun h => hp.2.2 (hrepos.trans h)⟩
  · exact ⟨htarget.1, fun h => absurd h htarget.2, fun h => hp.2.2 (hrepos.trans h)⟩
  · exact ⟨hp.1, fun h => absurd (hrepos.symm.trans h) htarget.2, hp.2.2⟩
  · exact ⟨nofun, nofun, fun _ => hlegal.1 hnext⟩
  · exact ⟨nofun, nofun, nofun⟩

variable {status : ObexStatus}

/-- **One accepted request** on the way: the next request, from the position that is recorded. -/
theorem going_answer {pb : Pb} {cfms : List SetPhonebookCfm} (hp : Possible caseless pb)
    (hnext : pbapcPbNextState pb ≠ .gotoPhonebook) (hstatus : convertObexError status = .success) :
    (going srvRepos pb cfms).answer status (folderOf (arrived pb).currRepos (arrived pb).currPb) =
      going srvRepos (arrived pb) cfms := by
  have hcomplete := @completeState_eq caseless srvRepos _ hp
  rw [decide_eq_false hnext] at hcomplete
  have hhandled : handleGoepSetPathCfm (travelling srvRepos pb) status =
      ⟨travelling srvRepos (arrived pb), some (pbapcSetPb (travelling srvRepos (arrived pb))), none⟩ := by
    rw [handleGoepSetPathCfm, hstatus, if_pos rfl, hcomplete]
    rfl
  rw [answer, going]
  simp only
  rw [← travelling, hhandled, after]
  simp only [toList_none, List.append_nil]
  rfl

/-- **The last request**: the one confirm, with the target. -/
theorem going_arrived {pb : Pb} {cfms : List SetPhonebookCfm} (hp : Possible caseless pb)
    (hnext : pbapcPbNextState pb = .gotoPhonebook) (hstatus : convertObexError status = .success) (folder : Folder) :
    (going srvRepos pb cfms).answer status folder =
      ⟨{ travelling srvRepos pb with pb := arrived pb, currCom := .none }, folder, none,
        cfms ++ [⟨.success, (arrived pb).currRepos, (arrived pb).currPb⟩]⟩ := by
  have hcomplete := @completeState_eq caseless srvRepos _ hp
  rw [decide_eq_true hnext] at hcomplete
  have hhandled : handleGoepSetPathCfm (travelling srvRepos pb) status =
      ⟨{ travelling srvRepos pb with pb := arrived pb, currCom := .none }, none,
        some ⟨.success, (arrived pb).currRepos, (arrived pb).currPb⟩⟩ := by
    rw [handleGoepSetPathCfm, hstatus, if_pos rfl, hcomplete]
    rfl
  rw [answer, going]
  simp only
  rw [← travelling, hhandled, after]
  rfl

/-- **A refusal** ends the navigation where it is. -/
theorem going_refused {pb : Pb} {cfms : List SetPhonebookCfm}
    (hstatus : convertObexError status ≠ .success) (folder : Folder) :
    (going srvRepos pb cfms).answer status folder =
      ⟨{ travelling srvRepos pb with currCom := .none }, folder, none,
        cfms ++ [⟨convertObexError status, pb.currRepos, pb.currPb⟩]⟩ := by
  have hhandled : handleGoepSetPathCfm (travelling srvRepos pb) status =
      ⟨{ travelling srvRepos pb with currCom := .none }, none,
        some ⟨convertObexError status, pb.currRepos, pb.currPb⟩⟩ := by
    rw [handleGoepSetPathCfm, if_neg hstatus]
    rfl
  rw [answer, going]
  simp only
  rw [← travelling, hhandled, after]
  rfl

/-! ### Every session -/

theorem requested_target {srvRepos repository : PhoneRepository} (h : requested srvRepos repository ≠ .current) :
    Target (requested srvRepos repository) ∧ srvRepos.common (requested srvRepos repository) ≠ .current := by
  revert h
  unfold Target
  cases srvRepos <;> cases repository <;> decide

/-- The phonebook that a request is taken for. -/
def taken (pb : Pb) (phonebook : PhoneBook) : PhoneBook := if phonebook = .telecom then pb.currPb else phonebook

theorem taken_eq (pb : Pb) (phonebook : PhoneBook) :
    (if phonebook.ctorIdx = PhoneRepository.current.ctorIdx then pb.currPb else phonebook) = taken pb phonebook := by
  cases phonebook <;> rfl

/-- The position of a client that sets out. -/
def setOut (client : PbapcState) (repository : PhoneRepository) (phonebook : PhoneBook) : Pb :=
  { client.pb with targetRepos := requested client.srvRepos repository, targetPb := taken client.pb phonebook }

variable {client : PbapcState}

/-- A request of a client that has a command under way is answered at once. -/
theorem request_busy (h : client.currCom ≠ .none) (repository : PhoneRepository)
    (phonebook : PhoneBook) :
    ∃ cfm, pbapcSetPhonebookRequest client repository phonebook = ⟨client, none, some cfm⟩ := by
  by_cases hrepos : requested client.srvRepos repository = .current
  · exact ⟨_, by rw [pbapcSetPhonebookRequest, if_pos hrepos]⟩
  · rw [pbapcSetPhonebookRequest, if_neg hrepos, handleIntSetPb]
    dsimp only
    rw [if_neg hrepos, taken_eq]
    split
    · exact ⟨_, rfl⟩
    · exact ⟨_, rfl⟩

variable {phonebook : PhoneBook}

/-- A request for the recorded position is answered at once. -/
theorem request_here (hrepos : requested client.srvRepos repository ≠ .current)
    (hhere : client.pb.currRepos = requested client.srvRepos repository ∧ client.pb.currPb = taken client.pb phonebook) :
    pbapcSetPhonebookRequest client repository phonebook = ⟨client, none, some (setPbCfm client .success)⟩ := by
  rw [pbapcSetPhonebookRequest]
  rw [if_neg hrepos, handleIntSetPb]
  dsimp only
  rw [if_neg hrepos, taken_eq, if_pos hhere]

/-- Every other request of an idle client sets out. -/
theorem request_sets_out
    (hidle : client.currCom = .none) (hrepos : requested client.srvRepos repository ≠ .current)
    (haway : ¬ (client.pb.currRepos = requested client.srvRepos repository ∧
      client.pb.currPb = taken client.pb phonebook)) :
    pbapcSetPhonebookRequest client repository phonebook =
      ⟨travelling client.srvRepos (setOut client repository phonebook),
        some (pbapcSetPb (travelling client.srvRepos (setOut client repository phonebook))), none⟩ := by
  rw [pbapcSetPhonebookRequest]
  rw [if_neg hrepos, handleIntSetPb]
  dsimp only
  rw [if_neg hrepos, taken_eq, if_neg haway, if_neg (not_not.mpr hidle), if_neg (requested_target hrepos).2]
  rfl

theorem sound_going {pb : Pb} (hp : Possible caseless pb) (ht : Target pb.targetRepos)
    (cfms : List SetPhonebookCfm) : Sound caseless (going srvRepos pb cfms) where
  recorded := rfl
  possible := hp
  idle := by simp [going]
  busy _ := ⟨rfl, ht⟩

/-- A session at rest. -/
theorem sound_idle (hrecorded : s.Recorded) (hp : Possible caseless s.client.pb) (hpending : s.pending = none)
    (hcom : s.client.currCom ≠ .setPhonebook) : Sound caseless s where
  recorded := hrecorded
  possible := hp
  idle := iff_of_true hpending hcom
  busy h := absurd hpending h

/-- A request that is answered at once only adds its confirm. -/
theorem request_answered {cfm : SetPhonebookCfm}
    (h : pbapcSetPhonebookRequest s.client repository phonebook = ⟨s.client, none, some cfm⟩) :
    s.request repository phonebook = { s with cfms := s.cfms ++ [cfm] } := by
  rw [request, h]
  rfl

/-- A request that sets out. -/
theorem request_going (hrecorded : s.Recorded)
    (hidle : s.client.currCom = .none) (hrepos : requested s.client.srvRepos repository ≠ .current)
    (haway : ¬ (s.client.pb.currRepos = requested s.client.srvRepos repository ∧
      s.client.pb.currPb = taken s.client.pb phonebook)) :
    s.request repository phonebook = going s.client.srvRepos (setOut s.client repository phonebook) s.cfms := by
  have hfolder : s.folder = folderOf (setOut s.client repository phonebook).currRepos
      (setOut s.client repository phonebook).currPb := hrecorded
  rw [request, request_sets_out hidle hrepos haway]
  simp only [after, going, toList_none, List.append_nil, some_or, ← hfolder]
  rfl

theorem Sound.request (h : Sound caseless s) (repository : PhoneRepository) (phonebook : PhoneBook) :
    Sound caseless (s.request repository phonebook) := by
  have hstays : ∀ cfm, Sound caseless { s with cfms := s.cfms ++ [cfm] } := fun cfm =>
    { recorded := h.recorded
      possible := h.possible
      idle := h.idle
      busy := fun hpending => ⟨by
        have := (h.busy hpending).1
        rw [this]
        rfl, (h.busy hpending).2⟩ }
  by_cases hidle : s.client.currCom = .none
  · by_cases hrepos : requested s.client.srvRepos repository = .current
    · rw [request_answered (by rw [pbapcSetPhonebookRequest, if_pos hrepos])]
      exact hstays _
    by_cases hhere : s.client.pb.currRepos = requested s.client.srvRepos repository ∧
        s.client.pb.currPb = taken s.client.pb phonebook
    · rw [request_answered (request_here hrepos hhere)]
      exact hstays _
    · have hgoing : s.request repository phonebook =
          going s.client.srvRepos (setOut s.client repository phonebook) s.cfms := by
        exact request_going h.recorded hidle hrepos hhere
      have htarget : Target (setOut s.client repository phonebook).targetRepos := (requested_target hrepos).1
      have hp : Possible caseless (setOut s.client repository phonebook) := h.possible
      rw [hgoing]
      exact sound_going hp htarget _
  · obtain ⟨cfm, hcfm⟩ := request_busy hidle repository phonebook
    rw [request_answered hcfm]
    exact hstays cfm

/-- An answer of the server, in a sound session. -/
theorem Sound.answer (h : Sound caseless s) (hs : s.step caseless (.answer status) = some s') :
    Sound caseless s' ∧ ((s'.pending ≠ none ∧ s'.cfms = s.cfms ∧ convertObexError status = .success) ∨
      (s'.pending = none ∧ s'.client.currCom = .none ∧ ∃ cfm, s'.cfms = s.cfms ++ [cfm] ∧
        cfm.status = convertObexError status)) := by
  have hpending : s.pending ≠ none := by
    intro hnone
    simp only [step, hnone, reduceCtorEq] at hs
  obtain ⟨hgoing, htarget⟩ := h.busy hpending
  have hp := h.possible
  obtain ⟨pb, hpb⟩ : ∃ pb, pb = s.client.pb := ⟨_, rfl⟩
  rw [← hpb] at hgoing htarget hp
  have hreq : s.pending = some (pbapcSetPb (travelling s.client.srvRepos pb)) := by
    rw [hgoing]
    rfl
  have hfolder : s.folder = folderOf pb.currRepos pb.currPb := by
    rw [hpb]
    exact h.recorded
  simp only [step, hreq, hfolder] at hs
  by_cases hstatus : convertObexError status = .success
  · rw [if_pos hstatus] at hs
    by_cases hlegal : Legal caseless pb
    · rw [setPath_going hp htarget _ rfl rfl hlegal, map_some, some.injEq, hgoing] at hs
      have hp' := arrived_possible hp htarget hlegal
      by_cases hnext : pbapcPbNextState pb = .gotoPhonebook
      · rw [going_arrived hp hnext hstatus] at hs
        rw [← hs]
        refine ⟨sound_idle rfl hp' rfl nofun,
          .inr ⟨rfl, rfl, ⟨.success, (arrived pb).currRepos, (arrived pb).currPb⟩, ?_, hstatus.symm⟩⟩
        rw [hgoing]
      · rw [going_answer hp hnext hstatus] at hs
        rw [← hs]
        refine ⟨sound_going hp' ?_ _, .inl ⟨nofun, ?_, hstatus⟩⟩
        · rw [(arrived_target pb).1]
          exact htarget
        · rw [hgoing]
          rfl
    · rw [setPath_illegal hp _ rfl rfl hlegal] at hs
      simp at hs
  · rw [if_neg hstatus, some.injEq, hgoing, going_refused hstatus] at hs
    rw [← hs]
    refine ⟨sound_idle rfl hp rfl nofun,
      .inr ⟨rfl, rfl, ⟨convertObexError status, pb.currRepos, pb.currPb⟩, ?_, rfl⟩⟩
    rw [hgoing]

/-- **Every step** keeps a session sound. -/
theorem Sound.step (h : Sound caseless s) {e : Event} (hs : s.step caseless e = some s') : Sound caseless s' := by
  cases e with
  | request repository phonebook =>
    obtain rfl := some.inj hs
    exact h.request repository phonebook
  | answer status => exact (h.answer hs).1
  | command =>
    simp only [Session.step] at hs
    split at hs
    · next hidle =>
      obtain rfl := some.inj hs
      have hpending : s.pending = none := h.idle.mpr (by rw [hidle]; nofun)
      exact sound_idle h.recorded h.possible hpending nofun
    · contradiction
  | commandDone =>
    simp only [Session.step] at hs
    split at hs
    · next hother =>
      obtain rfl := some.inj hs
      have hpending : s.pending = none := h.idle.mpr (by rw [hother]; nofun)
      exact sound_idle h.recorded h.possible hpending nofun
    · contradiction

theorem sound_initial (srvRepos : PhoneRepository) : Sound caseless (initial srvRepos) :=
  sound_idle rfl ⟨nofun, fun _ => rfl, nofun⟩ rfl nofun

/-- Every session is sound. -/
theorem session_sound {es : List Event} (hrun : run (step caseless) (initial srvRepos) es = some s) :
    Sound caseless s :=
  run_keeps (fun _ _ _ h hs => h.step hs) (sound_initial srvRepos) hrun

/-! ### To the target -/

variable (caseless) in
/-- A session on its way is led to a folder. -/
def Leads (srvRepos : PhoneRepository) (pb : Pb) (cfms : List SetPhonebookCfm) (folder : Folder) : Prop :=
  ∃ n, Arrives caseless n (going srvRepos pb cfms) cfms folder

variable {pb : Pb} {cfms : List SetPhonebookCfm} {folder : Folder}

theorem serve_idle (h : s.pending = none) (n : ℕ) : serve caseless n s = s := by
  cases n with
  | zero => rfl
  | succ n => simp only [serve, h]

theorem serve_accepts {p : SetPath} (hp : s.pending = some p) (hset : setPath caseless s.folder p = some folder) :
    serve caseless (n + 1) s = serve caseless n (s.answer .success folder) := by
  simp only [serve, hp, hset]

/-- A session on its way has a request under way. -/
theorem Leads.succ (h : Leads caseless srvRepos pb cfms folder) :
    ∃ n, Arrives caseless (n + 1) (going srvRepos pb cfms) cfms folder := by
  obtain ⟨n, hn⟩ := h
  cases n with
  | zero => exact absurd hn.done nofun
  | succ n => exact ⟨n, hn⟩

theorem Leads.legal (h : Leads caseless srvRepos pb cfms folder) (hp : Possible caseless pb) : Legal caseless pb := by
  obtain ⟨n, hn⟩ := h.succ
  by_contra hlegal
  exact hn.legal 0 (Nat.succ_pos n) _ rfl (setPath_illegal hp _ rfl rfl hlegal)

theorem serve_going (hp : Possible caseless pb) (ht : Target pb.targetRepos) (hlegal : Legal caseless pb)
    (hnext : pbapcPbNextState pb ≠ .gotoPhonebook) (n : ℕ) :
    serve caseless (n + 1) (going srvRepos pb cfms) = serve caseless n (going srvRepos (arrived pb) cfms) := by
  rw [serve_accepts rfl (setPath_going hp ht _ rfl rfl hlegal), going_answer hp hnext rfl]

/-- One accepted request leads on. -/
theorem leads_step (hp : Possible caseless pb) (ht : Target pb.targetRepos) (hlegal : Legal caseless pb)
    (hnext : pbapcPbNextState pb ≠ .gotoPhonebook) :
    Leads caseless srvRepos pb cfms folder ↔ Leads caseless srvRepos (arrived pb) cfms folder := by
  have hserve := @serve_going caseless srvRepos pb cfms hp ht hlegal hnext
  constructor
  · intro h
    obtain ⟨n, hn⟩ := h.succ
    refine ⟨n, ⟨fun k hk => ?_, ?_, ?_, ?_, ?_⟩⟩
    · have := hn.legal (k + 1) (Nat.succ_lt_succ hk)
      rwa [hserve] at this
    · have := hn.done
      rwa [hserve] at this
    · have := hn.ready
      rwa [hserve] at this
    · have := hn.told
      rwa [hserve] at this
    · have := hn.there
      rwa [hserve] at this
  · rintro ⟨n, hn⟩
    refine ⟨n + 1, ⟨fun k hk => ?_, ?_, ?_, ?_, ?_⟩⟩
    · cases k with
      | zero =>
        intro p hreq
        obtain rfl := some.inj hreq
        exact fun hnone => some_ne_none _ ((setPath_going hp ht _ rfl rfl hlegal).symm.trans hnone)
      | succ k =>
        rw [hserve]
        exact hn.legal k (Nat.lt_of_succ_lt_succ hk)
    all_goals rw [hserve]
    · exact hn.done
    · exact hn.ready
    · exact hn.told
    · exact hn.there

/-- The last request leads to the target. -/
theorem leads_last (hp : Possible caseless pb) (ht : Target pb.targetRepos) (hnext : pbapcPbNextState pb = .gotoPhonebook) :
    Leads caseless srvRepos pb cfms folder ↔
      (pb.targetPb ≠ .telecom ∧ pb.targetPb ≠ .root) ∧ folderOf pb.targetRepos pb.targetPb = folder := by
  have hfolder : folderOf (arrived pb).currRepos (arrived pb).currPb = folderOf pb.targetRepos pb.targetPb := by
    simp only [arrived, pbapcPbCompleteState, hnext]
  have hserve : ∀ n, Legal caseless pb → serve caseless (n + 1) (going srvRepos pb cfms) =
      ⟨{ travelling srvRepos pb with pb := arrived pb, currCom := .none },
        folderOf (arrived pb).currRepos (arrived pb).currPb, none,
        cfms ++ [⟨.success, (arrived pb).currRepos, (arrived pb).currPb⟩]⟩ := by
    intro n hlegal
    rw [serve_accepts rfl (setPath_going hp ht _ rfl rfl hlegal), going_arrived hp hnext rfl, serve_idle rfl]
  constructor
  · intro h
    have hlegal := h.legal hp
    obtain ⟨n, hn⟩ := h.succ
    have hthere := hn.there
    rw [hserve n hlegal] at hthere
    exact ⟨hlegal.2 hnext, hfolder.symm.trans hthere⟩
  · rintro ⟨hleaf, rfl⟩
    have hlegal : Legal caseless pb := ⟨fun h => by simp [hnext] at h, fun _ => hleaf⟩
    refine ⟨1, ⟨fun k hk p hreq => ?_, ?_, ?_, ?_, ?_⟩⟩
    · obtain rfl : k = 0 := Nat.lt_one_iff.mp hk
      obtain rfl := some.inj hreq
      exact fun hnone => some_ne_none _ ((setPath_going hp ht _ rfl rfl hlegal).symm.trans hnone)
    all_goals rw [hserve 0 hlegal]
    · exact ⟨_, rfl, rfl⟩
    · exact hfolder

variable {target : PhoneRepository} {book : PhoneBook}

variable (target book) in
/-- What a target needs. -/
def Reachable (folder : Folder) : Prop := (book ≠ .telecom ∧ book ≠ .root) ∧ folderOf target book = folder

/-- From the telecom folder of the repository. -/
theorem leads_telecom (ht : Target target) (hcase : target = .sim1 → caseless = true) :
    Leads caseless srvRepos ⟨target, target, .telecom, book⟩ cfms folder ↔ Reachable target book folder := by
  have hp : Possible caseless ⟨target, target, .telecom, book⟩ := by
    rcases ht with rfl | rfl
    · exact ⟨nofun, nofun, nofun⟩
    · exact ⟨nofun, nofun, hcase⟩
  exact leads_last hp ht (by rw [pbapcPbNextState, if_pos rfl, if_neg nofun, if_pos rfl])

/-- From the root of the repository. -/
theorem leads_root (ht : Target target) (hcase : target = .sim1 → caseless = true) :
    Leads caseless srvRepos ⟨target, target, .root, book⟩ cfms folder ↔ Reachable target book folder := by
  have hp : Possible caseless ⟨target, target, .root, book⟩ := by
    rcases ht with rfl | rfl
    · exact ⟨nofun, nofun, nofun⟩
    · exact ⟨nofun, nofun, hcase⟩
  have hnext : pbapcPbNextState ⟨target, target, .root, book⟩ = .gotoTelecom := by
    rw [pbapcPbNextState, if_pos rfl, if_pos rfl]
  have harrived : arrived ⟨target, target, .root, book⟩ = ⟨target, target, .telecom, book⟩ := by
    simp only [arrived, pbapcPbCompleteState, hnext]
  rw [leads_step hp ht ⟨by rw [hnext]; nofun, by rw [hnext]; nofun⟩ (by rw [hnext]; nofun), harrived]
  exact leads_telecom ht hcase

/-- From a phonebook of the repository. -/
theorem leads_book {curr : PhoneBook} (ht : Target target) (hcase : target = .sim1 → caseless = true)
    (htelecom : curr ≠ .telecom) (hroot : curr ≠ .root) :
    Leads caseless srvRepos ⟨target, target, curr, book⟩ cfms folder ↔ Reachable target book folder := by
  have hp : Possible caseless ⟨target, target, curr, book⟩ := by
    rcases ht with rfl | rfl
    · exact ⟨nofun, nofun, nofun⟩
    · exact ⟨nofun, nofun, hcase⟩
  have hnext : pbapcPbNextState ⟨target, target, curr, book⟩ = .gotoParent := by
    rw [pbapcPbNextState, if_pos rfl, if_neg hroot, if_neg htelecom]
  have harrived : arrived ⟨target, target, curr, book⟩ = ⟨target, target, .telecom, book⟩ := by
    simp only [arrived, pbapcPbCompleteState, hnext]
  rw [leads_step hp ht ⟨by rw [hnext]; nofun, by rw [hnext]; nofun⟩ (by rw [hnext]; nofun), harrived]
  exact leads_telecom ht hcase

/-- From the root of the phone to the SIM repository. -/
theorem leads_sim1 : Leads caseless srvRepos ⟨.local, .sim1, .root, book⟩ cfms folder ↔
    caseless = true ∧ Reachable .sim1 book folder := by
  have hp : Possible caseless ⟨.local, .sim1, .root, book⟩ := ⟨nofun, nofun, nofun⟩
  have hnext : pbapcPbNextState ⟨.local, .sim1, .root, book⟩ = .gotoSim1 := rfl
  have ht : Target .sim1 := .inr rfl
  constructor
  · intro h
    have hlegal := h.legal hp
    refine ⟨hlegal.1 hnext, ?_⟩
    rw [leads_step hp ht hlegal nofun] at h
    exact (leads_root ht fun _ => hlegal.1 hnext).mp h
  · rintro ⟨hcase, h⟩
    rw [leads_step hp ht ⟨fun _ => hcase, nofun⟩ nofun]
    exact (leads_root ht fun _ => hcase).mpr h

/-- **From any position.** -/
theorem leads_iff (hp : Possible caseless pb) (ht : Target pb.targetRepos) :
    Leads caseless srvRepos pb cfms folder ↔
      (pb.targetRepos = .sim1 → caseless = true) ∧ Reachable pb.targetRepos pb.targetPb folder := by
  obtain ⟨curr, target, currPb, book⟩ := pb
  simp only at ht ⊢
  by_cases hsame : curr = target
  · obtain rfl := hsame
    have hcase : curr = .sim1 → caseless = true := hp.2.2
    rw [and_iff_right hcase]
    by_cases hroot : currPb = .root
    · obtain rfl := hroot
      exact leads_root ht hcase
    by_cases htelecom : currPb = .telecom
    · obtain rfl := htelecom
      exact leads_telecom ht hcase
    · exact leads_book ht hcase htelecom hroot
  · have hrest : Leads caseless srvRepos ⟨.local, target, .root, book⟩ cfms folder ↔
        (target = .sim1 → caseless = true) ∧ Reachable target book folder := by
      rcases ht with rfl | rfl
      · rw [and_iff_right nofun]
        exact leads_root (.inl rfl) nofun
      · simp [leads_sim1]
    by_cases hsim : curr = .local ∧ target = .sim1 ∧ currPb = .root
    · obtain ⟨rfl, rfl, rfl⟩ := hsim
      exact hrest
    · have hnext : pbapcPbNextState ⟨curr, target, currPb, book⟩ = .gotoRoot := by
        rcases next_cases hp with ⟨-, h, -⟩ | ⟨-, h, -⟩ | ⟨-, h, -⟩ | ⟨-, h⟩ | ⟨h, -⟩
        · exact absurd h hsame
        · exact absurd h hsame
        · exact absurd h hsame
        · exact absurd h hsim
        · exact h
      have harrived : arrived ⟨curr, target, currPb, book⟩ = ⟨.local, target, .root, book⟩ := by
        simp only [arrived, pbapcPbCompleteState, hnext]
      rw [leads_step hp ht ⟨by rw [hnext]; nofun, by rw [hnext]; nofun⟩ (by rw [hnext]; nofun), harrived]
      exact hrest

theorem folderOf_book {a b : PhoneBook} (h : folderOf repository a = folderOf repository b) :
    a = b := by
  have hrest := List.append_cancel_left h
  cases a <;> cases b <;> first | rfl | simp at hrest

/-- **When a request ends where it should.** -/
theorem navigates_iff_navigable (h : Sound caseless s)
    (hacc : s.Accepts repository phonebook) :
    s.Navigates caseless repository phonebook ↔ s.Navigable caseless repository phonebook := by
  obtain ⟨hidle, hrepos, hroot⟩ := hacc
  by_cases hhere : s.client.pb.currRepos = requested s.client.srvRepos repository ∧
      s.client.pb.currPb = taken s.client.pb phonebook
  · -- the confirm comes at once, from the recorded position
    have hpending : s.pending = none := h.idle.mpr (by rw [hidle]; nofun)
    have hserve : ∀ n, serve caseless n (s.request repository phonebook) =
        { s with cfms := s.cfms ++ [setPbCfm s.client .success] } := by
      intro n
      have hanswered := request_answered (request_here hrepos hhere)
      rw [hanswered]
      exact serve_idle (by exact hpending) n
    have hnavigates : s.Navigates caseless repository phonebook ↔
        s.folder = folderOf (requested s.client.srvRepos repository) phonebook := by
      constructor
      · rintro ⟨n, hn⟩
        have hthere := hn.there
        rwa [hserve] at hthere
      · intro hfolder
        refine ⟨0, ⟨nofun, ?_, ?_, ?_, ?_⟩⟩ <;> rw [hserve]
        · exact hpending
        · exact hidle
        · exact ⟨_, rfl, rfl⟩
        · exact hfolder
    rw [hnavigates, h.recorded, hhere.1]
    constructor
    · intro hfolder
      have hbook := folderOf_book hfolder
      exact ⟨fun htelecom => ⟨hbook.trans htelecom, hhere.1⟩, fun hsim hcurr => absurd (hhere.1.trans hsim) hcurr⟩
    · rintro ⟨htelecom, -⟩
      by_cases hbook : phonebook = .telecom
      · rw [(htelecom hbook).1, hbook]
      · rw [hhere.2, taken, if_neg hbook]
  · -- the client sets out
    have hrequest := request_going h.recorded hidle hrepos hhere
    have hleads : Leads caseless s.client.srvRepos (setOut s.client repository phonebook) s.cfms
        (folderOf (requested s.client.srvRepos repository) phonebook) ↔ _ :=
      leads_iff h.possible (requested_target hrepos).1
    rw [Navigates, hrequest]
    refine hleads.trans ?_
    constructor
    · rintro ⟨hcase, ⟨htelecom, -⟩, hfolder⟩
      have hbook : taken s.client.pb phonebook = phonebook := folderOf_book hfolder
      refine ⟨fun h => absurd (hbook.trans h) htelecom, fun hsim _ => hcase hsim⟩
    · rintro ⟨htelecom, hcase⟩
      have hbook : phonebook ≠ .telecom := fun h => hhere ⟨(htelecom h).2, by rw [taken, if_pos h]⟩
      have htaken : taken s.client.pb phonebook = phonebook := if_neg hbook
      refine ⟨fun hsim => ?_, ⟨?_, ?_⟩, ?_⟩
      · by_cases hcurr : s.client.pb.currRepos = .sim1
        · exact h.possible.2.2 hcurr
        · exact hcase hsim hcurr
      · exact fun h => hbook (htaken.symm.trans h)
      · exact fun h => hroot (htaken.symm.trans h)
      · exact congrArg _ htaken

/-- **Every session keeps its position, and its requests end where they should exactly when they are navigable.** -/
theorem navigates_iff {es : List Event} (hrun : run (step caseless) (initial srvRepos) es = some s) :
    s.Recorded ∧ s.Answered caseless ∧ ∀ repository phonebook, s.Accepts repository phonebook →
      (s.Navigates caseless repository phonebook ↔ s.Navigable caseless repository phonebook) := by
  have h := session_sound hrun
  refine ⟨h.recorded, fun status s' hs => ?_, fun repository phonebook hacc => navigates_iff_navigable h hacc⟩
  obtain ⟨hsound, hrest⟩ := h.answer hs
  exact ⟨hsound.recorded, hrest⟩

/-- A session that has gone to the phonebook. -/
def atPb : List Event := [.request .local .pb, .answer .success, .answer .success, .answer .success]

theorem navigates_atPb : ∃ s, run (step true) (initial .any) atPb = some s ∧ (s.Recorded ∧ s.Answered true ∧
    ∀ repository phonebook, s.Accepts repository phonebook →
      (s.Navigates true repository phonebook ↔ s.Navigable true repository phonebook)) := by
  have hruns : (run (step true) (initial .any) atPb).isSome := by decide
  obtain ⟨s, hs⟩ := isSome_iff_exists.mp hruns
  exact ⟨s, hs, navigates_iff hs⟩

/-- A new session cannot be taken to the telecom folder, and not to the SIM repository where capital letters count. -/
theorem not_alwaysNavigates : ¬ AlwaysNavigates true ∧ ¬ AlwaysNavigates false := by
  constructor
  · intro h
    have hacc : (initial .any).Accepts .local .telecom := ⟨rfl, nofun, nofun⟩
    have hnavigable := (navigates_iff_navigable (sound_initial .any) hacc).mp ((h .any [] _ rfl).2.2 _ _ hacc)
    exact nomatch (hnavigable.1 rfl).1
  · intro h
    have hacc : (initial .any).Accepts .sim1 .pb := ⟨rfl, nofun, nofun⟩
    have hnavigable := (navigates_iff_navigable (sound_initial .any) hacc).mp ((h .any [] _ rfl).2.2 _ _ hacc)
    exact nomatch hnavigable.2 rfl nofun

end Session

end Cbps.Pbapc
