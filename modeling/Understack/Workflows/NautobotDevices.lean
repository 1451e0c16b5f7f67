import Understack.Workflows.NautobotInterfaces
import Understack.Workflows.NetdevReconciler
import Mathlib.Data.List.Dedup

/-! The device that `nautobot_device_sync.py` keeps in Nautobot for an Ironic node. The interface
sync at its end writes no device and its result is only logged. -/
namespace Understack.Workflows.Devices
open PyText KeyedTable Interfaces Netdev

/-- The id of a Nautobot record or of a project, which is never empty. -/
def Id := {id : Text // id ≠ []}

instance : DecidableEq Id := inferInstanceAs (DecidableEq {id : Text // id ≠ []})

inductive Face where
  | front
  | rear
  deriving DecidableEq, Repr

/-- The columns of a Nautobot device that the sync reads or writes. -/
structure Device where
  id : Text
  name : Text
  status : Text
  serial : Text
  location : Option Id
  rack : Option Id
  position : Option ℕ
  face : Option Face
  tenant : Option Id
  customFields : List (Text × Option Text)
  deriving DecidableEq

/-- Device ids are unique. Names are not: they may repeat in other locations. -/
def deviceKeys : Keys Device Text Text where
  id := Device.id
  slot := Device.id

/-- The devices, and how many updates of a device have been saved so far. -/
structure Nautobot where
  table : Table deviceKeys
  saves : ℕ

/-- What becomes of a call that fails: it is retried, or it is not. -/
inductive Fault where
  | transient
  | permanent
  deriving DecidableEq, Repr

/-! The node as Ironic has it. -/

structure Node where
  memoryMb : Scalar
  cpus : Scalar
  localGb : Scalar
  provisionState : Text
  lessee : Option Text
  externalCmdbId : Scalar

/-- The part of the inventory that names the device. -/
structure SystemVendor where
  manufacturer : Option Text
  serialNumber : Option Text

/-- What the sync fetches from Ironic; of a port, the name of the switch. -/
structure IronicData where
  node : Node
  systemVendor : SystemVendor
  ports : List (Option Text)

structure DeviceInfo where
  uuid : Text
  name : Option Text
  serialNumber : Option Text
  manufacturer : Option Text
  locationId : Option Id
  rackId : Option Id
  position : Option ℕ
  face : Option Face
  status : Option Text
  tenantId : Option Id
  customFields : List (Text × Text)
  externalCmdbId : Option Text
  deriving DecidableEq

def newDeviceInfo (uuid : Text) : DeviceInfo where
  uuid := uuid
  name := none
  serialNumber := none
  manufacturer := none
  locationId := none
  rackId := none
  position := none
  face := none
  status := none
  tenantId := none
  customFields := []
  externalCmdbId := none

def statusMap : List (Text × Text) :=
  [("active".toList, "Active".toList), ("enroll".toList, "Planned".toList),
    ("available".toList, "Available".toList), ("deploy failed".toList, "Quarantine".toList),
    ("error".toList, "Quarantine".toList), ("rescue".toList, "Quarantine".toList),
    ("rescue failed".toList, "Quarantine".toList), ("unrescueing".toList, "Quarantine".toList),
    ("manageable".toList, "Staged".toList), ("inspecting".toList, "Provisioning".toList),
    ("deploying".toList, "Provisioning".toList), ("cleaning".toList, "Quarantine".toList),
    ("clean failed".toList, "Quarantine".toList), ("deleting".toList, "Decommissioning".toList)]

def allIronicStates : List Text :=
  ["enroll".toList, "verifying".toList, "manageable".toList, "inspecting".toList,
    "inspect wait".toList, "inspect failed".toList, "cleaning".toList, "clean wait".toList,
    "clean failed".toList, "available".toList, "deploying".toList, "wait call-back".toList,
    "deploy failed".toList, "active".toList, "deleting".toList, "error".toList,
    "adopting".toList, "rescuing".toList, "rescue wait".toList, "rescue failed".toList,
    "rescue".toList, "unrescuing".toList, "unrescue failed".toList, "servicing".toList,
    "service wait".toList, "service failed".toList]

/-- `none` where the state is unknown and `ValueError` is raised; a state of Ironic that changes
nothing in Nautobot has no status. -/
def translateToNautobot (provisionState : Text) : Option (Option Text) :=
  match statusMap.lookup provisionState with
  | some status => some (some status)
  | none => if provisionState ∈ allIronicStates then some none else none

/-- `int(value)` of a property that is set; `none` where it raises. -/
def intProperty : Scalar → Option (Option ℤ)
  | .null => some none
  | .int z => some (if z = 0 then none else some z)
  | .str s => if s = [] then some none else (int? s).map some

/-- `str(value) if value else None`. -/
def textOrNone : Scalar → Option Text
  | .null => none
  | .int z => if z = 0 then none else some (ofInt z)
  | .str s => if s = [] then none else some s

/-- `a if a else None` on texts. -/
def nonempty (text : Option Text) : Option Text := text.filter (· ≠ [])

section Populate

variable (C : Casing) (parseUuid : Text → Option Id)

def populateFromNode (node : Node) (info : DeviceInfo) : Option DeviceInfo := do
  let _memoryMb ← intProperty node.memoryMb
  let _cpus ← intProperty node.cpus
  let _localGb ← intProperty node.localGb
  let status ← translateToNautobot node.provisionState
  some
    { info with
      status := status
      tenantId := (nonempty node.lessee).bind parseUuid
      externalCmdbId := textOrNone node.externalCmdbId }

/-- `none` where the manufacturer is not supported. -/
def normaliseManufacturer (name : Text) : Option Text :=
  if isIn "DELL".toList (C.upper name) then some "Dell".toList
  else if isIn "HP".toList (C.upper name) then some "HPE".toList
  else none

/-- The manufacturer, if the inventory has one. -/
def vendorManufacturer (vendor : SystemVendor) : Option (Option Text) :=
  match nonempty vendor.manufacturer with
  | some name => (normaliseManufacturer C name).map some
  | none => some none

def populateFromInventory (vendor : SystemVendor) (info : DeviceInfo) : Option DeviceInfo := do
  let manufacturer ← vendorManufacturer C vendor
  some
    { info with
      manufacturer := manufacturer.or info.manufacturer
      serialNumber := (nonempty vendor.serialNumber).or info.serialNumber }

/-- `f"{manufacturer}-{serial_number}"` where both are known. -/
def generatedName (manufacturer serialNumber : Option Text) : Option Text := do
  let manufacturer ← manufacturer
  let serial ← serialNumber
  some (manufacturer ++ '-' :: serial)

def generateDeviceName (info : DeviceInfo) : DeviceInfo :=
  { info with name := (generatedName info.manufacturer info.serialNumber).or info.name }

/-- What Ironic says of the node, before the switches are looked up. -/
def describe (uuid : Text) (data : IronicData) : Option DeviceInfo := do
  let info ← populateFromNode parseUuid data.node (newDeviceInfo uuid)
  let info ← populateFromInventory C data.systemVendor info
  some (generateDeviceName info)

end Populate

/-! The location of the switches. -/

structure Place where
  location : Id
  rack : Id
  deriving DecidableEq

/-- What Nautobot has under the name of a switch: one device in a rack, none such, or several, of
which the client complains. -/
inductive SwitchAnswer where
  | placed (place : Place)
  | nowhere
  | several

/-- The switch that a port is connected to. -/
def switchName (switchInfo : Option Text) : Option Text :=
  (nonempty switchInfo).filter (· ≠ "None".toList)

/-- The locations that the loop over the ports collects. A call that fails ends it. -/
def switchLocations (switches : Text → SwitchAnswer) (fault : ℕ → Option Fault) :
    ℕ → List (Option Text) → Except Fault (List Place)
  | _, [] => .ok []
  | k, port :: ports =>
    match switchName port with
    | none => switchLocations switches fault (k + 1) ports
    | some name =>
      match fault k, switches name with
      | some e, _ => .error e
      | none, .several => .error .permanent
      | none, .nowhere => switchLocations switches fault (k + 1) ports
      | none, .placed place =>
        (switchLocations switches fault (k + 1) ports).map (place :: ·)

/-- `next(iter(locations))`: any member, as the number says. -/
def firstLocation (pick : ℕ) (locations : List Place) : Option Place :=
  locations.dedup[pick % locations.dedup.length]?

/-- An error that is not retried leaves the node without a location. -/
def setLocationFromSwitches (switches : Text → SwitchAnswer) (fault : ℕ → Option Fault)
    (pick : ℕ) (ports : List (Option Text)) (info : DeviceInfo) : Except Fault DeviceInfo :=
  match switchLocations switches fault 0 ports with
  | .error .transient => .error .transient
  | .error .permanent => .ok info
  | .ok locations =>
    match firstLocation pick locations with
    | none => .ok info
    | some place => .ok { info with locationId := some place.location, rackId := some place.rack }

/-- The calls of one attempt that fail, without effect. -/
structure Faults where
  switch : ℕ → Option Fault
  getId : Option Fault
  getName : Option Fault
  delete : Option Fault
  create : Option Fault
  save : Option Fault

def Faults.none : Faults := ⟨fun _ => .none, .none, .none, .none, .none, .none⟩

/-- What one attempt meets. -/
structure Attempt where
  data : IronicData
  switches : Text → SwitchAnswer
  pick : ℕ
  faults : Faults

/-! The device. -/

def preserveLocationFromDevice (info : DeviceInfo) (device : Device) : DeviceInfo :=
  { info with
    locationId := info.locationId.or device.location
    rackId := info.rackId.or device.rack
    position := device.position.or info.position
    face := device.face.or info.face }

/-- `devices.get(name=...)`, which complains of more than one. -/
def getByName (name : Text) (n : Nautobot) : Except Fault (Option Device) :=
  match n.table.rows.filter (·.name = name) with
  | [] => .ok none
  | [device] => .ok (some device)
  | _ => .error .permanent

def deleteOldDeviceByName (f : Faults) (info : DeviceInfo) (n : Nautobot) :
    Except Fault DeviceInfo × Nautobot :=
  match info.name with
  | none => (.ok info, n)
  | some name =>
    match f.getName, getByName name n with
    | some e, _ => (.error e, n)
    | none, .error e => (.error e, n)
    | none, .ok none => (.ok info, n)
    | none, .ok (some device) =>
      match f.delete with
      | some e => (.error e, n)
      | none =>
        (.ok (preserveLocationFromDevice info device),
          { n with table := n.table.delete device.id })

/-- The record that the create request makes. -/
def createdDevice (info : DeviceInfo) : Device where
  id := info.uuid
  name := info.name.getD info.uuid
  status := "Planned".toList
  serial := []
  location := info.locationId
  rack := none
  position := none
  face := none
  tenant := none
  customFields := []

def createNautobotDevice (f : Faults) (info : DeviceInfo) (n : Nautobot) :
    Except Fault Device × Nautobot :=
  match f.create, n.table.create (createdDevice info) with
  | some e, _ => (.error e, n)
  | none, none => (.error .permanent, n)
  | none, some table => (.ok (createdDevice info), { n with table := table })

/-- The device and what is known of it. A node without a location is not ready yet. -/
def findOrCreateNautobotDevice (f : Faults) (info : DeviceInfo) (n : Nautobot) :
    Except Fault (DeviceInfo × Device) × Nautobot :=
  match f.getId, n.table.get info.uuid with
  | some e, _ => (.error e, n)
  | none, some device => (.ok (info, device), n)
  | none, none =>
    match deleteOldDeviceByName f info n with
    | (.error e, n) => (.error e, n)
    | (.ok info, n) =>
      match info.locationId with
      | none => (.error .permanent, n)
      | some _ =>
        match createNautobotDevice f info n with
        | (.error e, n) => (.error e, n)
        | (.ok device, n) => (.ok (info, device), n)

def cmdbKey : Text := "external_cmdb_id".toList

/-- `custom_fields.get("external_cmdb_id") or None`. -/
def Device.externalCmdbId (device : Device) : Option Text :=
  nonempty (device.customFields.lookup cmdbKey).join

def updatedCustomFields (info : DeviceInfo) (device : Device) : List (Text × Option Text) :=
  info.customFields.foldl
    (fun fields e =>
      if (fields.lookup e.1).join = some e.2 then fields else PyDict.put e.1 (some e.2) fields)
    (if info.externalCmdbId = device.externalCmdbId then device.customFields
      else PyDict.put cmdbKey info.externalCmdbId device.customFields)

/-- The record after the attributes that differ have been set. The face is set with the
position. -/
def updatedDevice (info : DeviceInfo) (device : Device) : Device :=
  { device with
    status := info.status.getD device.status
    name := info.name.getD device.name
    serial := info.serialNumber.getD device.serial
    location := info.locationId.or device.location
    rack := info.rackId.or device.rack
    position := info.position.or device.position
    face := if info.position.isSome then some (info.face.getD .front) else device.face
    tenant := info.tenantId.or device.tenant
    customFields := updatedCustomFields info device }

/-- There is no save if no attribute differs. -/
def updateNautobotDevice (f : Faults) (info : DeviceInfo) (device : Device) (n : Nautobot) :
    Except Fault Unit × Nautobot :=
  if updatedDevice info device = device then (.ok (), n)
  else
    match f.save, n.table.save (updatedDevice info device) with
    | some e, _ => (.error e, n)
    | none, none => (.error .permanent, n)
    | none, some table => (.ok (), ⟨table, n.saves + 1⟩)

section Sync

variable (C : Casing) (parseUuid : Text → Option Id) (uuid : Text)

/-- `fetch_node_details`. -/
def fetchNodeDetails (a : Attempt) : Except Fault DeviceInfo :=
  match describe C parseUuid uuid a.data with
  | none => .error .permanent
  | some info => setLocationFromSwitches a.switches a.faults.switch a.pick a.data.ports info

/-- One attempt. An error that is not transient is caught at its end. -/
def attemptSync (a : Attempt) (n : Nautobot) : Except Fault Unit × Nautobot :=
  match fetchNodeDetails C parseUuid uuid a with
  | .error e => (.error e, n)
  | .ok info =>
    match findOrCreateNautobotDevice a.faults info n with
    | (.error e, n) => (.error e, n)
    | (.ok (info, device), n) => updateNautobotDevice a.faults info device n

inductive Outcome where
  | success
  | failure
  | raised
  deriving DecidableEq, Repr

def retryAttempts : ℕ := 5

/-- What the attempts of one run meet, should each be needed. -/
def Run := {attempts : List Attempt // attempts.length = retryAttempts}

/-- The attempts until one succeeds or fails for good; after the last the error is raised. -/
def retrySync : List Attempt → Nautobot → Outcome × Nautobot
  | [], n => (.raised, n)
  | a :: attempts, n =>
    match attemptSync C parseUuid uuid a n with
    | (.ok _, n) => (.success, n)
    | (.error .permanent, n) => (.failure, n)
    | (.error .transient, n) => retrySync attempts n

def syncDeviceToNautobot (run : Run) (n : Nautobot) : Outcome × Nautobot :=
  if uuid = [] then (.failure, n) else retrySync C parseUuid uuid run.1 n

end Sync

/-! What an attempt knows of the device when it looks for it. -/
section Fetch

variable {C : Casing} {parseUuid : Text → Option Id} {uuid : Text} {info info' : DeviceInfo}

/-- What Ironic says of the node, field by field. -/
theorem describe_eq {data : IronicData} (h : describe C parseUuid uuid data = some info) :
    ∃ status manufacturer, translateToNautobot data.node.provisionState = some status ∧
      vendorManufacturer C data.systemVendor = some manufacturer ∧
      info = { newDeviceInfo uuid with
        name := generatedName manufacturer (nonempty data.systemVendor.serialNumber)
        serialNumber := nonempty data.systemVendor.serialNumber
        manufacturer := manufacturer
        status := status
        tenantId := (nonempty data.node.lessee).bind parseUuid
        externalCmdbId := textOrNone data.node.externalCmdbId } := by
  simp only [describe, populateFromNode, populateFromInventory, Option.bind_eq_bind,
    Option.bind_eq_some_iff, Option.some.injEq] at h
  obtain ⟨-, ⟨-, -, -, -, -, -, status, hstatus, rfl⟩, -, ⟨manufacturer, hm, rfl⟩, rfl⟩ := h
  refine ⟨status, manufacturer, hstatus, hm, ?_⟩
  simp [generateDeviceName, newDeviceInfo]

variable {switches : Text → SwitchAnswer} {fault : ℕ → Option Fault} {pick : ℕ}
  {ports : List (Option Text)}

theorem mem_of_switchLocations {k : ℕ} {places : List Place}
    (h : switchLocations switches fault k ports = .ok places) :
    ∀ p ∈ places, ∃ name ∈ ports.filterMap switchName, switches name = .placed p := by
  induction ports generalizing k places with
  | nil =>
    cases h
    intro p hp
    cases hp
  | cons port ports ih =>
    unfold switchLocations at h
    cases hname : switchName port with
    | none =>
      simp only [hname] at h
      rw [List.filterMap_cons_none hname]
      exact ih h
    | some name =>
      rw [List.filterMap_cons_some hname]
      have hrest : ∀ {k places}, switchLocations switches fault k ports = .ok places →
          ∀ p ∈ places, ∃ w ∈ name :: ports.filterMap switchName, switches w = .placed p := by
        intro k places h p hp
        obtain ⟨w, hw, hans⟩ := ih h p hp
        exact ⟨w, List.mem_cons_of_mem _ hw, hans⟩
      cases hfault : fault k with
      | some e =>
        simp only [hname, hfault] at h
        cases h
      | none =>
        cases hans : switches name with
        | several =>
          simp only [hname, hfault, hans] at h
          cases h
        | nowhere =>
          simp only [hname, hfault, hans] at h
          exact hrest h
        | placed place =>
          simp only [hname, hfault, hans] at h
          cases htail : switchLocations switches fault (k + 1) ports with
          | error e =>
            rw [htail] at h
            cases h
          | ok tail =>
            rw [htail] at h
            cases h
            intro p hp
            rcases List.mem_cons.mp hp with rfl | hp
            · exact ⟨name, List.mem_cons_self, hans⟩
            · exact hrest htail p hp

theorem mem_of_firstLocation {locations : List Place} {p : Place}
    (h : firstLocation pick locations = some p) : p ∈ locations := by
  unfold firstLocation at h
  exact List.mem_dedup.mp (List.mem_of_getElem? h)

/-- The switches add nothing, or the place of one of them. -/
theorem setLocationFromSwitches_eq
    (h : setLocationFromSwitches switches fault pick ports info = .ok info') :
    info' = info ∨ ∃ p, (∃ name ∈ ports.filterMap switchName, switches name = .placed p) ∧
      info' = { info with locationId := some p.location, rackId := some p.rack } := by
  unfold setLocationFromSwitches at h
  cases hl : switchLocations switches fault 0 ports with
  | error e =>
    cases e with
    | transient =>
      simp only [hl] at h
      cases h
    | permanent =>
      simp only [hl] at h
      cases h
      exact Or.inl rfl
  | ok locations =>
    simp only [hl] at h
    cases hp : firstLocation pick locations with
    | none =>
      simp only [hp] at h
      cases h
      exact Or.inl rfl
    | some p =>
      simp only [hp] at h
      cases h
      exact Or.inr ⟨p, mem_of_switchLocations hl p (mem_of_firstLocation hp), rfl⟩

end Fetch

/-! The save of an update. -/
section Update

variable {n : Nautobot} {info : DeviceInfo} {device : Device}

theorem save_isSome (n : Nautobot) (row : Device) : ∃ t, n.table.save row = some t := by
  cases hs : n.table.save row with
  | none =>
    obtain ⟨r, -, hid, hslot⟩ := Table.save_eq_none_iff.mp hs
    exact absurd hslot hid
  | some t => exact ⟨t, rfl⟩

theorem updateNautobotDevice_saved {f : Faults} (hd : device ∈ n.table.rows)
    (hsave : f.save = none) (hne : updatedDevice info device ≠ device) :
    ∃ t : Table deviceKeys, updateNautobotDevice f info device n = (.ok (), ⟨t, n.saves + 1⟩) ∧
      updatedDevice info device ∈ t.rows := by
  obtain ⟨t, ht⟩ := save_isSome n (updatedDevice info device)
  refine ⟨t, ?_, (Table.mem_save ht).mpr (Or.inl ⟨rfl, device, hd, rfl⟩)⟩
  simp only [updateNautobotDevice, if_neg hne, hsave, ht]

end Update

end Understack.Workflows.Devices
