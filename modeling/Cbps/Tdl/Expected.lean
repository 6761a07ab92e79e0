import Cbps.Lib.Recency
import Cbps.Lib.Runs
import Cbps.Tdl.Operations

/-!
# The list a user of the trusted device list expects

What the trusted device list is for, without positions and packing: the trusted devices in most
recently used order, each with its priority flag, and one attribute for each listed device.
Recording a device on a full list forgets the last one. `track` steps this model along with the
calls, and `step` runs the store and the model side by side.
-/

namespace Cbps.Tdl

/-- A trusted device and its priority flag. -/
structure Entry where
  device : TypedBdaddr
  priority : Bool
  deriving DecidableEq, Repr

/-- The listed devices, most recently used first, and their attributes. -/
structure Expected where
  entries : List Entry := []
  attr : TypedBdaddr → Option (List ℕ) := fun _ => none

/-! ### Entries -/

section Entries

variable (n : ℕ) (device : TypedBdaddr) (entries : List Entry)

/-- Record a device as the most recently used one. A new device has no priority. -/
def recordEntry : List Entry :=
  Lib.record Entry.device n
    ((Lib.lookup Entry.device device entries).getD ⟨device, false⟩) entries

/-- Make a listed device the most recently used one. -/
def touchEntry : List Entry :=
  match Lib.lookup Entry.device device entries with
  | none => entries
  | some entry => entry :: Lib.without Entry.device device entries

/-- Set the priority flag of a listed device. It comes to the front; without priority, it comes
behind the priority devices. -/
def setPriorityEntry (priority : Bool) : List Entry :=
  match Lib.lookup Entry.device device entries with
  | none => entries
  | some _ =>
    let rest := Lib.without Entry.device device entries
    if priority then ⟨device, true⟩ :: rest else Lib.settle Entry.priority ⟨device, false⟩ rest

/-- Delete a device unless it has priority. -/
def deleteEntry : List Entry :=
  match Lib.lookup Entry.device device entries with
  | none => entries
  | some entry => if entry.priority then entries else Lib.without Entry.device device entries

/-- The entries after a call. -/
def trackEntries : Call → List Entry
  | .addDevice req =>
    let device : TypedBdaddr := ⟨.publicAddr, req.bdAddr⟩
    if req.isStored then setPriorityEntry device (recordEntry n device entries) false
    else if req.bonded then entries else Lib.without Entry.device device entries
  | .updateTdl device _ => recordEntry n device entries
  | .updateMru peerBdAddr => touchEntry ⟨.publicAddr, peerBdAddr⟩ entries
  | .setTrustLevel _ _ => entries
  | .setPriorityDevice bdAddr isPriorityDevice =>
    setPriorityEntry ⟨.publicAddr, bdAddr⟩ entries isPriorityDevice
  | .deleteDevice device => deleteEntry device entries
  | .deleteDeviceFromTdl device => Lib.without Entry.device device entries
  | .deleteAllDevice => entries.filter Entry.priority
  | .putAttribute _ _ => entries

end Entries

/-! ### Attributes -/

/-- The model after a call. An attribute is what was put last for the device, and is lost when
the device is not listed any more. -/
def track (n : ℕ) (e : Expected) (c : Call) : Expected where
  entries := trackEntries n e.entries c
  attr device :=
    if device ∈ (trackEntries n e.entries c).map Entry.device then
      match c with
      | .putAttribute device' psdata =>
        if device = device' then (if psdata = [] then none else some psdata) else e.attr device
      | _ => e.attr device
    else none

/-! ### The store and the model side by side -/

/-- The store, and what its user expects of it. -/
structure Tracked where
  store : Store := {}
  expected : Expected := {}

/-- One call. -/
def step (cfg : Config) (σ : Tracked) (c : Call) : Option Tracked :=
  some ⟨perform cfg σ.store c, track cfg.tdlNumberOfDevices σ.expected c⟩

end Cbps.Tdl
