import Cbps.Lib.Runs

/-!
# Phonebook navigation

The set-phonebook request of the phonebook access client, which goes to a folder in several SETPATH requests, one at a
time, and the server's folders. The client records where it is as a repository and a phonebook.
-/

namespace Cbps.Pbapc

/-- `PbapcPhoneRepository`. The values count, as sets of bits. -/
inductive PhoneRepository
  | current
  | «local»
  | sim1
  | any
  deriving DecidableEq, Repr

/-- The common bits of two repositories. -/
def PhoneRepository.common : PhoneRepository → PhoneRepository → PhoneRepository
  | .any, r | r, .any => r
  | .local, .local => .local
  | .sim1, .sim1 => .sim1
  | _, _ => .current

/-- `PbapcPhoneBook`. The values count: `telecom` has the value of `pbap_current`. -/
inductive PhoneBook
  | telecom
  | pb
  | ich
  | och
  | mch
  | cch
  | root
  deriving DecidableEq, Repr

/-- `pbapcRunningCommand`; `other` is any command but the navigation. -/
inductive RunningCommand
  | none
  | setPhonebook
  | other
  deriving DecidableEq, Repr

/-- `pbapcSetPhonebookState`. -/
inductive SetPhonebookState
  | none
  | gotoRoot
  | gotoParent
  | gotoSim1
  | gotoTelecom
  | gotoPhonebook
  deriving DecidableEq, Repr

/-- `pbapcPb`. -/
structure Pb where
  currRepos : PhoneRepository
  targetRepos : PhoneRepository
  currPb : PhoneBook
  targetPb : PhoneBook
  deriving DecidableEq, Repr

/-- `pbapcState`, as far as the navigation goes. -/
structure PbapcState where
  currCom : RunningCommand
  setPbState : SetPhonebookState
  srvRepos : PhoneRepository
  pb : Pb
  deriving DecidableEq, Repr

/-- What a confirm of the OBEX library can say, as `convertObexError` tells it apart. -/
inductive ObexStatus
  | success
  | disconnected
  | unauthorised
  | invalid
  | aborted
  | continues
  | notFound
  | other
  deriving DecidableEq, Repr

/-- `PbapcLibStatus`. -/
inductive LibStatus
  | success
  | pending
  | failure
  | notIdle
  | aborted
  | remoteDisconnect
  | spbUnauthorised
  | spbNoRepository
  | spbNotFound
  deriving DecidableEq, Repr

/-- `convertObexError`. -/
def convertObexError : ObexStatus → LibStatus
  | .success => .success
  | .disconnected => .remoteDisconnect
  | .unauthorised => .spbUnauthorised
  | .invalid => .notIdle
  | .aborted => .aborted
  | .continues => .pending
  | .notFound => .spbNotFound
  | .other => .failure

/-- A SETPATH request. The name is missing where the table of names ends. -/
inductive SetPath
  | toRoot
  | toParent
  | child (name : Option String)
  deriving DecidableEq, Repr

/-- `PBAPC_SET_PHONEBOOK_CFM`. -/
structure SetPhonebookCfm where
  status : LibStatus
  repository : PhoneRepository
  phonebook : PhoneBook
  deriving DecidableEq, Repr

/-! ### The client -/

/-- `pbapcPbDir`. -/
def pbapcPbDir : List String := ["telecom", "pb", "ich", "och", "mch", "cch"]

/-- `pbapcGetPbNameFromID`. -/
def pbapcGetPbNameFromID (book : PhoneBook) : Option String := pbapcPbDir[book.ctorIdx]?

/-- `sim1Str`. -/
def sim1Str : String := "sim1"

/-- `pbapcPbNextState`. -/
def pbapcPbNextState (pb : Pb) : SetPhonebookState :=
  if pb.targetRepos = pb.currRepos then
    if pb.currPb = .root then .gotoTelecom else if pb.currPb = .telecom then .gotoPhonebook else .gotoParent
  else if pb.currRepos ≠ .any then if pb.targetRepos = .sim1 ∧ pb.currPb = .root then .gotoSim1 else .gotoRoot
  else .gotoRoot

/-- `pbapcSetPb`: the request that is sent. -/
def pbapcSetPb (state : PbapcState) : SetPath :=
  match state.setPbState with
  | .gotoRoot => .toRoot
  | .gotoParent => .toParent
  | .gotoSim1 => .child (some sim1Str)
  | .gotoTelecom => .child (pbapcGetPbNameFromID .telecom)
  | .gotoPhonebook => .child (pbapcGetPbNameFromID state.pb.targetPb)
  | .none => .child none

/-- `pbapcPbCompleteState`. -/
def pbapcPbCompleteState (state : PbapcState) : PbapcState × Bool :=
  let pb := state.pb
  match state.setPbState with
  | .gotoRoot => ({ state with pb := { pb with currRepos := .local, currPb := .root } }, false)
  | .gotoParent => ({ state with pb := { pb with currPb := .telecom } }, false)
  | .gotoSim1 => ({ state with pb := { pb with currRepos := .sim1, currPb := .root } }, false)
  | .gotoTelecom => ({ state with pb := { pb with currPb := .telecom, currRepos := pb.targetRepos } }, false)
  | .gotoPhonebook => ({ state with pb := { pb with currPb := pb.targetPb, currRepos := pb.targetRepos } }, true)
  | .none => (state, false)

/-- `pbapcMsgSendSetPbCfm`. -/
def setPbCfm (state : PbapcState) (status : LibStatus) : SetPhonebookCfm :=
  ⟨status, state.pb.currRepos, state.pb.currPb⟩

/-- What a handler does: a new state, and a SETPATH request or a confirm. -/
structure Handled where
  state : PbapcState
  sent : Option SetPath
  cfm : Option SetPhonebookCfm
  deriving DecidableEq, Repr

/-- The repository that `PbapcSetPhonebookRequest` asks for. -/
def requested (srvRepos repository : PhoneRepository) : PhoneRepository :=
  if repository.common srvRepos = .any then .local else repository.common srvRepos

/-- `handleIntSetPb`. `pbap_current` is zero in both enumerations. -/
def handleIntSetPb (state : PbapcState) (repository : PhoneRepository) (phonebook : PhoneBook) : Handled :=
  let pb := state.pb
  let repository := if repository = .current then pb.currRepos else repository
  let phonebook := if phonebook.ctorIdx = PhoneRepository.current.ctorIdx then pb.currPb else phonebook
  if pb.currRepos = repository ∧ pb.currPb = phonebook then ⟨state, none, some (setPbCfm state .success)⟩
  else if state.currCom ≠ .none then ⟨state, none, some (setPbCfm state .notIdle)⟩
  else if state.srvRepos.common repository = .current then ⟨state, none, some (setPbCfm state .spbNoRepository)⟩
  else
    let pb := { pb with targetRepos := repository, targetPb := phonebook }
    let state := { state with currCom := .setPhonebook, pb := pb, setPbState := pbapcPbNextState pb }
    ⟨state, some (pbapcSetPb state), none⟩

/-- `PbapcSetPhonebookRequest`, with the handling of its message. -/
def pbapcSetPhonebookRequest (state : PbapcState) (repository : PhoneRepository) (phonebook : PhoneBook) : Handled :=
  let repository := requested state.srvRepos repository
  if repository = .current then ⟨state, none, some ⟨.spbNoRepository, .current, .telecom⟩⟩
  else handleIntSetPb state repository phonebook

/-- `handleGoepSetPathCfm`. -/
def handleGoepSetPathCfm (state : PbapcState) (status : ObexStatus) : Handled :=
  let status := convertObexError status
  let (state, complete) := if status = .success then pbapcPbCompleteState state else (state, true)
  if complete then
    ⟨{ state with currCom := .none }, none, some ⟨status, state.pb.currRepos, state.pb.currPb⟩⟩
  else
    let state := { state with setPbState := pbapcPbNextState state.pb }
    ⟨state, some (pbapcSetPb state), none⟩

/-! ### The server -/

/-- A folder of the server, as the names from the root on. -/
abbrev Folder := List String

/-- The folders in a folder. -/
def children (folder : Folder) : List String :=
  if folder = [] then ["telecom", "SIM1"]
  else if folder = ["SIM1"] then ["telecom"]
  else if folder = ["telecom"] ∨ folder = ["SIM1", "telecom"] then ["pb", "ich", "och", "mch", "cch"]
  else []

/-- Whether a name is taken for that of a folder: by a server that tells small and capital letters apart, or not. -/
def sameName (caseless : Bool) (name folder : String) : Bool :=
  if caseless then name.toList.map Char.toLower = folder.toList.map Char.toLower else name = folder

/-- The folder after a SETPATH request, if it is legal. -/
def setPath (caseless : Bool) (folder : Folder) : SetPath → Option Folder
  | .toRoot => some []
  | .toParent => if folder = [] then none else some folder.dropLast
  | .child none => none
  | .child (some name) => ((children folder).find? (sameName caseless name)).map fun c => folder ++ [c]

/-- The folder of a recorded position. Without a repository it is the root. -/
def folderOf (repository : PhoneRepository) (phonebook : PhoneBook) : Folder :=
  (if repository = .sim1 then ["SIM1"] else []) ++
    match phonebook with
    | .root => []
    | .telecom => ["telecom"]
    | .pb => ["telecom", "pb"]
    | .ich => ["telecom", "ich"]
    | .och => ["telecom", "och"]
    | .mch => ["telecom", "mch"]
    | .cch => ["telecom", "cch"]

/-! ### Runs -/

/-- The client, the server's folder, the SETPATH request under way, and the confirms. -/
structure Session where
  client : PbapcState
  folder : Folder
  pending : Option SetPath
  cfms : List SetPhonebookCfm
  deriving DecidableEq, Repr

inductive Event
  | request (repository : PhoneRepository) (phonebook : PhoneBook)
  | answer (status : ObexStatus)
  | command
  | commandDone
  deriving DecidableEq, Repr

namespace Session

/-- The session after a handler. -/
def after (s : Session) (h : Handled) : Session :=
  { s with client := h.state, pending := h.sent, cfms := s.cfms ++ h.cfm.toList }

/-- A request. A SETPATH request under way stays so. -/
def request (s : Session) (repository : PhoneRepository) (phonebook : PhoneBook) : Session :=
  let h := pbapcSetPhonebookRequest s.client repository phonebook
  s.after { h with sent := h.sent.or s.pending }

/-- An answer of the server, which goes to a folder if it accepts. -/
def answer (s : Session) (status : ObexStatus) (folder : Folder) : Session :=
  { s with folder := folder }.after (handleGoepSetPathCfm s.client status)

variable (caseless : Bool)

def step (s : Session) : Event → Option Session
  | .request repository phonebook => some (s.request repository phonebook)
  | .answer status =>
    match s.pending with
    | none => none
    | some p =>
      if convertObexError status = .success then (setPath caseless s.folder p).map (s.answer status)
      else some (s.answer status s.folder)
  -- another command of the client begins and ends
  | .command => if s.client.currCom = .none then some { s with client := { s.client with currCom := .other } } else none
  | .commandDone =>
    if s.client.currCom = .other then some { s with client := { s.client with currCom := .none } } else none

/-- The answers of a server that accepts every legal request, `n` at most. -/
def serve : ℕ → Session → Session
  | 0, s => s
  | n + 1, s =>
    match s.pending with
    | none => s
    | some p =>
      match setPath caseless s.folder p with
      | some folder => serve n (s.answer .success folder)
      | none => serve n (s.answer .notFound s.folder)

/-- A session that has just been set up with a server of these repositories. -/
def initial (srvRepos : PhoneRepository) : Session where
  client := ⟨.none, .none, srvRepos, ⟨.any, .any, .root, .root⟩⟩
  folder := []
  pending := none
  cfms := []

end Session

end Cbps.Pbapc
