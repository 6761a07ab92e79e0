import Cbps.Lib.Runs
import Mathlib.Algebra.Ring.Nat

/-!
# The GATT HID client

The requests of a client whose handles are known, the messages that wait for the pending request to be cleared, the GATT
operations that a message starts, and the confirms. Two messages are sent without their payload: `handleMessage` says
`none` where the handler would read it.
-/

namespace Cbps.Hid

/-- `hid_client_pending_read_type`. -/
inductive Pending
  | none
  | readProtocol
  | readInfo
  | readExtReference
  | readGetReport
  | readReportMap
  | readBootReport
  | writeSetBootProtocol
  | writeSetReportProtocol
  | writeSetControl
  | writeBootNotification
  | writeReportNotification
  | writeCcdhandleNotification
  | writeSetReport
  | writeBootReport
  | readCcdhandle
  deriving DecidableEq, Repr

/-- `gatt_hid_ccd_type`, with `gatt_hid_notification_mode`. -/
inductive Mode
  | boot
  | report
  deriving DecidableEq, Repr

/-- `gatt_hid_client_report_type`. -/
inductive ReportType
  | input
  | output
  | feature
  deriving DecidableEq, Repr

/-- `gatt_hid_client_boot_mode_report_type`. -/
inductive BootReportType
  | kbOutput
  | kbInput
  | mouseInput
  deriving DecidableEq, Repr

/-- `gatt_hid_client_control_type`. -/
inductive ControlType
  | suspend
  | exitSuspend
  deriving DecidableEq, Repr

/-- `gatt_status_t`, as far as `hid_client_convert_status` tells the codes apart. -/
inductive GattStatus
  | success
  | insufficientAuthentication
  | invalidCid
  | other
  deriving DecidableEq, Repr

/-- `gatt_hid_client_status`, in confirms. -/
inductive Status
  | success
  | insufficientAuthentication
  | noConnection
  | failed
  deriving DecidableEq, Repr

/-- `hid_client_convert_status`. -/
def convertStatus : GattStatus → Status
  | .success => .success
  | .insufficientAuthentication => .insufficientAuthentication
  | .invalidCid => .noConnection
  | .other => .failed

/-- `gatt_hid_ccd_handle_mem_t`. -/
structure CcdHandle where
  ccd : ℕ
  ccdType : Mode
  characteristicHandle : ℕ
  deriving DecidableEq, Repr

/-- `gatt_hid_client_report_id_map_t`. -/
structure ReportIdMap where
  reportId : ℕ
  reportHandle : ℕ
  type : ReportType
  deriving DecidableEq, Repr

/-- `GHIDC_T` after its initialisation, less the request under way. Zero is the handle of what the service lacks. The
configuration descriptors are counted in 5 bits. -/
structure HidClient where
  protocolHandle : ℕ
  infoHandle : ℕ
  controlHandle : ℕ
  externalReportReferenceHandle : ℕ
  reportMapHandle : ℕ
  bootKbInputReportHandle : ℕ
  bootMouseInputReportHandle : ℕ
  bootOutputReportHandle : ℕ
  ccdHandles : List CcdHandle
  reportIdMap : Option (List ReportIdMap)
  bootModeSupported : Bool
  registered : Bool
  ccds_lt : ccdHandles.length < 32
  deriving DecidableEq

variable (c : HidClient)

/-- The configuration descriptors of a mode: `num_boot_ccd` or `num_report_ccd` of them. -/
def ccdsOf (mode : Mode) : List CcdHandle := c.ccdHandles.filter fun ccd => ccd.ccdType = mode

/-- `hid_client_get_report_handle_and_type_from_id`. -/
def reportOf (reportId : ℕ) : Option ReportIdMap :=
  (c.reportIdMap.getD []).find? fun report => report.reportId = reportId

/-- `hid_client_get_report_id_from_handle`. -/
def reportIdFromHandle (handle : ℕ) : ℕ :=
  (((c.reportIdMap.getD []).find? fun report => report.reportHandle = handle).map ReportIdMap.reportId).getD 0

/-- `hid_client_get_ccdhandle_for_inputreport`. -/
def ccdhandleForInputreport (reportId : ℕ) (mode : Mode) : Option ℕ := do
  let report ← reportOf c reportId
  if report.type = .input then
    (c.ccdHandles.find? fun ccd => ccd.characteristicHandle = report.reportHandle ∧ ccd.ccdType = mode).map CcdHandle.ccd
  else none

/-! ### Requests -/

/-- The requests of the interface, less the one for the report id map. -/
inductive Request
  | getProtocol
  | readInformation
  | readExternalReportReference
  | readCcd (mode : Mode)
  | getReport (reportId : ℕ)
  | readReportMap
  | readBootReport (type : BootReportType)
  | setProtocol (protocol : Mode)
  | controlRequest (ctrl : ControlType)
  | setReport (reportId : ℕ) (data : List UInt8)
  | writeBootReport (type : BootReportType) (data : List UInt8)
  | registerForNotification (enable : Bool) (mode : Mode)
  | registerNotificationForReportId (enable : Bool) (reportId : ℕ) (mode : Mode)
  deriving DecidableEq, Repr

/-- The internal messages, which wait until no request is pending. -/
inductive Message
  | getProtocol
  | readInfo
  | readExtReference
  | readCcd (ccdHandle : ℕ)
  | getReport (reportHandle : ℕ)
  | readReportMap
  | readBootReport (payload : Option BootReportType)
  | setProtocolBoot
  | setProtocolReport
  | setCtrlPoint (payload : Option ControlType)
  | setReport (handle : ℕ) (type : ReportType) (data : List UInt8)
  | writeBootReport (handle : ℕ) (type : BootReportType) (data : List UInt8)
  | notification (enable : Bool) (mode : Mode)
  | notificationCcdhandle (enable : Bool) (handle : ℕ)
  deriving DecidableEq, Repr

/-- The handle that a boot report has. -/
def bootHandle : BootReportType → ℕ
  | .kbOutput => c.bootOutputReportHandle
  | .kbInput => c.bootKbInputReportHandle
  | .mouseInput => c.bootMouseInputReportHandle

/-- The interface functions: the messages that are sent, or `none` for a status code that says so at once. -/
def accept : Request → Option (List Message)
  | .getProtocol => some [.getProtocol]
  | .readInformation => some [.readInfo]
  | .readExternalReportReference => if c.externalReportReferenceHandle ≠ 0 then some [.readExtReference] else none
  | .readCcd mode =>
    if mode = .boot ∧ c.bootModeSupported = false then none
    else if ccdsOf c mode = [] then none
    else some ((ccdsOf c mode).map fun ccd => .readCcd ccd.ccd)
  | .getReport reportId => (reportOf c reportId).map fun report => [.getReport report.reportHandle]
  | .readReportMap => some [.readReportMap]
  -- the payload is made, and not sent
  | .readBootReport _ => if c.bootModeSupported then some [.readBootReport none] else none
  | .setProtocol .boot => if c.bootModeSupported then some [.setProtocolBoot] else none
  | .setProtocol .report => some [.setProtocolReport]
  | .controlRequest _ => some [.setCtrlPoint none]
  | .setReport reportId data =>
    (reportOf c reportId).map fun report => [.setReport report.reportHandle report.type data]
  | .writeBootReport type data =>
    if c.bootModeSupported then some [.writeBootReport (bootHandle c type) type data] else none
  | .registerForNotification enable mode =>
    if mode = .boot ∧ c.bootModeSupported = false then none else some [.notification enable mode]
  | .registerNotificationForReportId enable reportId mode =>
    if mode = .boot ∧ c.bootModeSupported = false then none
    else (ccdhandleForInputreport c reportId mode).map fun handle => [.notificationCcdhandle enable handle]

/-! ### Operations -/

/-- The operations of the GATT manager, each with its own confirm. -/
inductive Op
  | readValue (handle : ℕ)
  | readLong (handle : ℕ)
  | readUuid (uuid : ℕ)
  | writeValue (handle : ℕ) (value : List UInt8)
  | writeWithoutResponse (handle : ℕ) (value : List UInt8)
  deriving DecidableEq, Repr

/-- Whether an operation has several parts. -/
def Op.isLong : Op → Bool
  | .readLong _ | .readUuid _ => true
  | _ => false

/-- The kinds of confirms. -/
inductive Kind
  | getProtocol
  | readInfo
  | readExtRef
  | readCcd
  | getReport
  | readReportMap
  | readBootReport
  | setProtocol
  | controlReq
  | setReport
  | writeBootReport
  | notificationReg
  | notificationReportIdReg
  deriving DecidableEq, Repr

/-- A confirm to the application. -/
structure Cfm where
  kind : Kind
  status : Status
  reportId : ℕ
  value : List UInt8
  deriving DecidableEq, Repr

/-- What the handler of a message does: the request that is pending then, the operations, and a confirm at once. -/
structure Handled where
  pending : Pending
  ops : List Op
  cfm : Option Cfm
  deriving DecidableEq, Repr

/-- `hid_client_register_for_notification`. -/
def registerForNotification (enable : Bool) (handle : ℕ) : Op := .writeValue handle [if enable then 1 else 0, 0]

/-- `hid_client_read_boot_report`. The flag is set at its end, after an error too. -/
def hidClientReadBootReport (type : BootReportType) : Handled :=
  let uuid := match type with
    | .kbOutput => 0x2A32
    | .kbInput => 0x2A22
    | .mouseInput => 0x2A22
  if bootHandle c type ≠ 0 then ⟨.readBootReport, [.readValue (bootHandle c type)], none⟩
  else if c.registered then ⟨.readBootReport, [.readUuid uuid], none⟩
  else ⟨.readBootReport, [], some ⟨.readBootReport, .failed, 0, []⟩⟩

/-- What is pending while the notifications of a mode are enabled. -/
def notificationPending : Mode → Pending
  | .boot => .writeBootNotification
  | .report => .writeReportNotification

/-- `hid_client_notification_reg_request`. -/
def notificationRegRequest (enable : Bool) (mode : Mode) : Handled :=
  let writes := (ccdsOf c mode).map fun ccd => registerForNotification enable ccd.ccd
  ⟨if writes = [] then .none else notificationPending mode, writes, none⟩

/-- The handlers of the messages. -/
def handleMessage : Message → Option Handled
  | .getProtocol => some ⟨.readProtocol, [.readValue c.protocolHandle], none⟩
  | .readInfo => some ⟨.readInfo, [.readValue c.infoHandle], none⟩
  | .readExtReference => some ⟨.readExtReference, [.readValue c.externalReportReferenceHandle], none⟩
  | .readCcd ccdHandle => some ⟨.readCcdhandle, [.readValue ccdHandle], none⟩
  | .getReport reportHandle => some ⟨.readGetReport, [.readValue reportHandle], none⟩
  | .readReportMap => some ⟨.readReportMap, [.readLong c.reportMapHandle], none⟩
  | .readBootReport payload => payload.map (hidClientReadBootReport c)
  | .setProtocolBoot => some ⟨.writeSetBootProtocol, [.writeWithoutResponse c.protocolHandle [0]], none⟩
  | .setProtocolReport => some ⟨.writeSetReportProtocol, [.writeWithoutResponse c.protocolHandle [1]], none⟩
  | .setCtrlPoint payload => payload.map fun ctrl =>
    ⟨.writeSetControl, [.writeWithoutResponse c.controlHandle [if ctrl = .suspend then 0 else 1]], none⟩
  | .setReport handle type data =>
    some ⟨.writeSetReport,
      [if type = .output then .writeValue handle data else .writeWithoutResponse handle data], none⟩
  | .writeBootReport handle type data =>
    some ⟨.writeBootReport,
      [if type = .kbOutput then .writeValue handle data else .writeWithoutResponse handle data], none⟩
  | .notification enable mode => some (notificationRegRequest c enable mode)
  | .notificationCcdhandle enable handle =>
    some ⟨.writeCcdhandleNotification, [registerForNotification enable handle], none⟩

/-! ### Confirms -/

/-- The result of an operation. -/
structure Result where
  status : GattStatus
  value : List UInt8
  deriving DecidableEq, Repr

/-- The value that a confirm carries. -/
def Result.read (r : Result) : List UInt8 := if convertStatus r.status = .success then r.value else []

/-- What a confirm of the GATT manager leaves: the pending request, the number of confirms, and a confirm. -/
structure Answered where
  pending : Pending
  numCcdCfm : ℕ
  cfm : Option Cfm
  deriving DecidableEq, Repr

/-- `handle_hid_client_read_char_value_cfm`. -/
def handleReadValue (pending : Pending) (numCcdCfm handle : ℕ) (r : Result) : Answered :=
  let status := convertStatus r.status
  -- the report id is looked up for a value only
  let found := status = .success ∧ r.value ≠ []
  match pending with
  | .readProtocol => ⟨.none, numCcdCfm, some ⟨.getProtocol, status, 0, r.read.take 1⟩⟩
  | .readInfo => ⟨.none, numCcdCfm, some ⟨.readInfo, status, 0, r.read⟩⟩
  | .readExtReference => ⟨.none, numCcdCfm, some ⟨.readExtRef, status, 0, r.read⟩⟩
  | .readCcdhandle =>
    let report := ((c.ccdHandles.find? fun ccd => ccd.ccd = handle).map fun ccd =>
      reportIdFromHandle c ccd.characteristicHandle).getD 0
    ⟨.none, numCcdCfm, some ⟨.readCcd, status, if found then report else 0, r.read⟩⟩
  | .readGetReport =>
    ⟨.none, numCcdCfm, some ⟨.getReport, status, if found then reportIdFromHandle c handle else 0, r.read⟩⟩
  | .readBootReport => ⟨.none, numCcdCfm, some ⟨.readBootReport, status, 0, r.read⟩⟩
  | _ => ⟨pending, numCcdCfm, none⟩

/-- `handle_hid_client_read_long_char_value_cfm`, for the last part. -/
def handleReadLong (pending : Pending) (numCcdCfm : ℕ) (r : Result) : Answered :=
  match pending with
  | .readReportMap => ⟨.none, numCcdCfm, some ⟨.readReportMap, convertStatus r.status, 0, r.read⟩⟩
  | _ => ⟨pending, numCcdCfm, none⟩

/-- `handle_hid_client_read_using_uuid_cfm`, for the last part. -/
def handleReadUuid (pending : Pending) (numCcdCfm : ℕ) (r : Result) : Answered :=
  match pending with
  | .readBootReport => ⟨.none, numCcdCfm, some ⟨.readBootReport, convertStatus r.status, 0, r.read⟩⟩
  | _ => ⟨pending, numCcdCfm, none⟩

/-- `hid_client_notification_reg_cfm`. -/
def notificationRegCfm (pending : Pending) (mode : Mode) (numCcdCfm : ℕ) (r : Result) : Answered :=
  let status := convertStatus r.status
  let numCcdCfm := (numCcdCfm + 1) % 32
  if (ccdsOf c mode).length = numCcdCfm ∨ status ≠ .success then ⟨.none, 0, some ⟨.notificationReg, status, 0, []⟩⟩
  else ⟨pending, numCcdCfm, none⟩

/-- `handle_hid_client_write_characteristic_value_cfm`. -/
def handleWriteValue (pending : Pending) (numCcdCfm handle : ℕ) (r : Result) : Answered :=
  let status := convertStatus r.status
  match pending with
  | .writeBootNotification => notificationRegCfm c pending .boot numCcdCfm r
  | .writeReportNotification => notificationRegCfm c pending .report numCcdCfm r
  | .writeCcdhandleNotification => ⟨.none, numCcdCfm, some ⟨.notificationReportIdReg, status, 0, []⟩⟩
  | .writeSetReport => ⟨.none, numCcdCfm, some ⟨.setReport, status, reportIdFromHandle c handle, []⟩⟩
  | .writeBootReport => ⟨.none, numCcdCfm, some ⟨.writeBootReport, status, 0, []⟩⟩
  | _ => ⟨pending, numCcdCfm, none⟩

/-- `handle_hid_client_write_without_response_cfm`. -/
def handleWriteWithoutResponse (pending : Pending) (numCcdCfm handle : ℕ) (r : Result) : Answered :=
  let status := convertStatus r.status
  match pending with
  | .writeSetReportProtocol | .writeSetBootProtocol => ⟨.none, numCcdCfm, some ⟨.setProtocol, status, 0, []⟩⟩
  | .writeSetControl => ⟨.none, numCcdCfm, some ⟨.controlReq, status, 0, []⟩⟩
  | .writeSetReport => ⟨.none, numCcdCfm, some ⟨.setReport, status, reportIdFromHandle c handle, []⟩⟩
  | .writeBootReport => ⟨.none, numCcdCfm, some ⟨.writeBootReport, status, 0, []⟩⟩
  | _ => ⟨pending, numCcdCfm, none⟩

/-- The confirm of an operation. -/
def handleConfirm (pending : Pending) (numCcdCfm : ℕ) (op : Op) (r : Result) : Answered :=
  match op with
  | .readValue handle => handleReadValue c pending numCcdCfm handle r
  | .readLong _ => handleReadLong pending numCcdCfm r
  | .readUuid _ => handleReadUuid pending numCcdCfm r
  | .writeValue handle _ => handleWriteValue c pending numCcdCfm handle r
  | .writeWithoutResponse handle _ => handleWriteWithoutResponse c pending numCcdCfm handle r

/-- The confirm of a part that is not the last one, which leaves the pending request. -/
def handlePart (pending : Pending) (op : Op) (value : List UInt8) : Option Cfm :=
  match op, pending with
  | .readLong _, .readReportMap => some ⟨.readReportMap, .success, 0, value⟩
  | .readUuid _, .readBootReport => some ⟨.readBootReport, .success, 0, value⟩
  | _, _ => none

end Cbps.Hid
