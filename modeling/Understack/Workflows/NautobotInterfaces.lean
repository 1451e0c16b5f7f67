import Understack.Ironic.PortgroupName
import Understack.Lib.Json
import Understack.Lib.KeyedTable

/-! The interfaces that the workflows keep in Nautobot: the node sync of
`nautobot_device_interface_sync.py` and the port and portgroup event handlers. Cables and IP
addresses are other records, on which no interface depends. -/
namespace Understack.Workflows.Interfaces
open PyText KeyedTable Ironic.Portgroup

/-- The columns of a Nautobot interface that the workflows write. -/
structure Interface where
  id : Text
  device : Text
  name : Text
  macAddress : Option Text
  type : Text
  description : Text
  mgmtOnly : Bool
  enabled : Bool
  deriving DecidableEq, Repr

/-- Interface ids are unique, and names within a device. -/
def interfaceKeys : Keys Interface Text (Text × Text) where
  id := Interface.id
  slot := fun r => (r.device, r.name)

/-- The interfaces, and the requests that Nautobot has refused so far. -/
structure Nautobot where
  table : Table interfaceKeys
  refused : List Interface

namespace Nautobot

def create (n : Nautobot) (row : Interface) : Bool × Nautobot :=
  match n.table.create row with
  | some t => (true, { n with table := t })
  | none => (false, { n with refused := row :: n.refused })

def save (n : Nautobot) (row : Interface) : Bool × Nautobot :=
  match n.table.save row with
  | some t => (true, { n with table := t })
  | none => (false, { n with refused := row :: n.refused })

def delete (n : Nautobot) (id : Text) : Nautobot := { n with table := n.table.delete id }

end Nautobot

/-- `str.upper` and `str.lower`, which act on ASCII letters only where a text is ASCII. -/
structure Casing where
  upper : Text → Text
  lower : Text → Text
  upper_ascii : ∀ s, (∀ c ∈ s, c.toNat < 128) → upper s = s.map Char.toUpper
  lower_ascii : ∀ s, (∀ c ∈ s, c.toNat < 128) → lower s = s.map Char.toLower

/-- The casing of ASCII letters alone. -/
def asciiCasing : Casing where
  upper := List.map Char.toUpper
  lower := List.map Char.toLower
  upper_ascii := fun _ _ => rfl
  lower_ascii := fun _ _ => rfl

/-- The address of an Ironic port: never empty, and hexadecimal digits and colons. -/
structure MacAddress where
  text : Text
  nonempty : text ≠ []
  ascii : ∀ c ∈ text, c.toNat < 128

theorem ascii_of_all {s : Text} (h : (s.all fun c => decide (c.toNat < 128)) = true) :
    ∀ c ∈ s, c.toNat < 128 := by
  simpa using h

structure IronicPort where
  uuid : Text
  uuid_ne : uuid ≠ []
  address : MacAddress
  name : Option Text
  biosName : Option Text

structure InventoryInterface where
  macAddress : Option Text
  name : Option Text
  deriving DecidableEq, Repr

/-- The part of a node inventory that the sync reads. -/
structure Inventory where
  interfaces : List InventoryInterface
  bmcMac : Option Text
  deriving DecidableEq, Repr

structure InterfaceInfo where
  uuid : Text
  name : Text
  macAddress : Text
  deviceUuid : Text
  description : Text
  interfaceType : Text
  enabled : Bool
  mgmtOnly : Bool
  deriving DecidableEq, Repr

/-- `a or b or ... or last` on texts. -/
def firstNonempty (texts : List Text) (last : Text) : Text :=
  (texts.find? (· ≠ [])).getD last

def sfp28 : Text := "25gbase-x-sfp28".toList

def interfaceTypeMap : List (Text × Text) :=
  [("slot".toList, sfp28), ("embedded".toList, sfp28), ("integrated".toList, sfp28)]

def defaultInterfaceType : Text := "other".toList

def idrac : Text := "iDRAC".toList

variable (C : Casing)

def getInterfaceType (name : Text) : Text :=
  match interfaceTypeMap.find? fun e => isIn e.1 (C.lower name) with
  | some e => e.2
  | none => defaultInterfaceType

def nicKinds : List (Text × Text) :=
  [("nic.integrated".toList, "Integrated NIC".toList),
    ("nic.embedded".toList, "Embedded NIC".toList), ("nic.slot".toList, "NIC in Slot".toList)]

def getInterfaceDescription (name : Text) : Text :=
  if isIn "idrac".toList (C.lower name) then "Dedicated iDRAC interface".toList
  else
    match rsplitOnce '.' name with
    | none => []
    | some (kind, place) =>
      match nicKinds.lookup (C.lower kind) with
      | none => []
      | some text =>
        match split '-' place with
        | [nic, port] => text ++ " ".toList ++ nic ++ " Port ".toList ++ port
        | [nic, port, partition] =>
          text ++ " ".toList ++ nic ++ " Port ".toList ++ port ++ " Partition ".toList ++ partition
        | _ => []

/-- The names of the inventory by lower-case MAC address; a later entry replaces an earlier. -/
def buildInterfaceMapFromInventory (inventory : Inventory) : List (Text × Text) :=
  inventory.interfaces.foldl (fun d i =>
    match i.macAddress, i.name with
    | some mac, some name => PyDict.put (C.lower mac) name d
    | _, _ => d) []

/-- The name that the node sync gives a port. -/
def syncName (inventoryMap : List (Text × Text)) (port : IronicPort) : Text :=
  let mac := C.lower port.address.text
  firstNonempty
    [port.biosName.getD [], (inventoryMap.lookup mac).getD [], port.name.getD []] port.uuid

def buildInterface (nodeUuid : Text) (inventoryMap : List (Text × Text)) (port : IronicPort) :
    InterfaceInfo :=
  let name := syncName C inventoryMap port
  { uuid := port.uuid
    name := name
    macAddress := C.upper (C.lower port.address.text)
    deviceUuid := nodeUuid
    description := getInterfaceDescription C name
    interfaceType := getInterfaceType C name
    enabled := true
    mgmtOnly := false }

def buildInterfacesFromPorts (nodeUuid : Text) (ports : List IronicPort)
    (inventoryMap : List (Text × Text)) : List InterfaceInfo :=
  ports.map (buildInterface C nodeUuid inventoryMap)

/-- The attributes of a create request; a new record has an empty description. -/
def InterfaceInfo.row (info : InterfaceInfo) : Interface where
  id := info.uuid
  device := info.deviceUuid
  name := info.name
  macAddress := some info.macAddress
  type := info.interfaceType
  description := info.description
  mgmtOnly := info.mgmtOnly
  enabled := info.enabled

/-- A refusal names a unique constraint and is taken for a race with another workflow. -/
def createNautobotInterface (info : InterfaceInfo) (n : Nautobot) : Nautobot :=
  (n.create info.row).2

/-- The record after the attributes that differ have been set. -/
def updatedRow (info : InterfaceInfo) (intf : Interface) : Interface :=
  { intf with
    name := if info.name ≠ [] then info.name else intf.name
    macAddress := if info.macAddress ≠ [] then some info.macAddress else intf.macAddress
    type := if info.interfaceType ≠ [] then info.interfaceType else intf.type
    description := if info.description ≠ [] then info.description else intf.description
    mgmtOnly := info.mgmtOnly }

/-- Another interface of the device that has the new name is deleted first. -/
def deleteNameConflict (info : InterfaceInfo) (intf : Interface) (n : Nautobot) : Nautobot :=
  if info.name ≠ [] ∧ intf.name ≠ info.name then
    match n.table.getSlot (info.deviceUuid, info.name) with
    | some existing => if existing.id ≠ info.uuid then n.delete existing.id else n
    | none => n
  else n

/-- The result says whether the save went through; there is none if no attribute differs. -/
def updateNautobotInterface (info : InterfaceInfo) (intf : Interface) (n : Nautobot) :
    Bool × Nautobot :=
  let n := deleteNameConflict info intf n
  if updatedRow info intf = intf then (true, n) else n.save (updatedRow info intf)

def syncInterface (info : InterfaceInfo) (n : Nautobot) : Bool × Nautobot :=
  match n.table.get info.uuid with
  | none => (true, createNautobotInterface info n)
  | some intf => updateNautobotInterface info intf n

/-- The loop over the interfaces, which an exception ends. -/
def syncInterfaces : List InterfaceInfo → Nautobot → Bool × Nautobot
  | [], n => (true, n)
  | info :: infos, n =>
    let result := syncInterface info n
    if result.1 then syncInterfaces infos result.2 else (false, result.2)

/-- The ids that Nautobot gives to records created without one. -/
structure IdSource where
  next : List Text → Text
  fresh : ∀ ids, next ids ∉ ids

variable (I : IdSource)

def syncIdracInterface (deviceUuid bmcMac : Text) (n : Nautobot) : Bool × Nautobot :=
  let macAddress := C.upper bmcMac
  match n.table.getSlot (deviceUuid, idrac) with
  | some existing =>
    if existing.macAddress.map C.upper ≠ some macAddress then
      n.save { existing with macAddress := some macAddress }
    else (true, n)
  | none =>
    n.create
      { id := I.next (n.table.rows.map Interface.id)
        device := deviceUuid
        name := idrac
        macAddress := some macAddress
        type := "1000base-t".toList
        description := "Dedicated iDRAC interface".toList
        mgmtOnly := true
        enabled := true }

def cleanupStaleInterfaces (nodeUuid : Text) (validInterfaceIds : List Text) (n : Nautobot) :
    Nautobot :=
  { n with
    table := n.table.keep fun r =>
      decide (r.device ≠ nodeUuid ∨ r.name = idrac ∨ r.id ∈ validInterfaceIds) }

def syncInterfacesFromData (nodeUuid : Text) (inventory : Inventory) (ports : List IronicPort)
    (n : Nautobot) : ℕ × Nautobot :=
  if nodeUuid = [] then (1, n)
  else
    let inventoryMap := buildInterfaceMapFromInventory C inventory
    let interfaces := buildInterfacesFromPorts C nodeUuid ports inventoryMap
    let synced := syncInterfaces interfaces n
    if synced.1 then
      let bmcMac := inventory.bmcMac.getD []
      let managed :=
        if bmcMac ≠ [] then syncIdracInterface C I nodeUuid bmcMac synced.2 else (true, synced.2)
      if managed.1 then
        (0, cleanupStaleInterfaces nodeUuid (interfaces.map InterfaceInfo.uuid) managed.2)
      else (1, managed.2)
    else (1, synced.2)

/-! The event handlers. -/

structure IronicPortEvent where
  uuid : Text
  name : Text
  address : Text
  nodeUuid : Text
  biosName : Option Text
  deriving DecidableEq, Repr

def IronicPortEvent.interfaceName (event : IronicPortEvent) : Text :=
  firstNonempty [event.biosName.getD [], event.name] event.uuid

/-- `setattr` of the attributes of the request, then `save`. -/
def saveAttrs (set : Interface → Interface) (intf : Interface) (n : Nautobot) : ℕ × Nautobot :=
  let saved := n.save (set intf)
  (if saved.1 then 0 else 1, saved.2)

/-- What the create and update handlers share. Whether a refusal names a unique set or not, the
interface is not there then, and the handler gives up. -/
def createOrUpdate (new : Interface) (set : Interface → Interface) (n : Nautobot) :
    ℕ × Nautobot :=
  match n.table.get new.id with
  | some intf => saveAttrs set intf n
  | none =>
    let created := n.create new
    if created.1 then saveAttrs set new created.2 else (1, created.2)

def IronicPortEvent.set (event : IronicPortEvent) (intf : Interface) : Interface :=
  { intf with
    name := event.interfaceName
    type := sfp28
    macAddress := some event.address
    device := event.nodeUuid }

/-- A record as the server makes it of the attributes that every create request has. -/
def newInterface (uuid : Text) : Interface where
  id := uuid
  device := []
  name := []
  macAddress := none
  type := []
  description := []
  mgmtOnly := false
  enabled := true

def handlePortCreateUpdate (event : IronicPortEvent) (n : Nautobot) : ℕ × Nautobot :=
  createOrUpdate (event.set (newInterface event.uuid)) event.set n

def handlePortDelete (event : IronicPortEvent) (n : Nautobot) : ℕ × Nautobot :=
  match n.table.get event.uuid with
  | none => (0, n)
  | some intf => (0, n.delete intf.id)

/-- The address and the mode are set only where the event has them. -/
def setPortgroup (event : IronicPortgroupEvent) (intf : Interface) : Interface :=
  { intf with
    name := event.lagName
    device := event.nodeUuid
    type := "lag".toList
    macAddress :=
      if event.address.getD [] ≠ [] then event.address else intf.macAddress
    description :=
      if event.mode.getD [] ≠ [] then "Bond mode: ".toList ++ event.mode.getD []
      else intf.description }

def handlePortgroupCreateUpdate (event : IronicPortgroupEvent) (n : Nautobot) : ℕ × Nautobot :=
  createOrUpdate (setPortgroup event (newInterface event.uuid)) (setPortgroup event) n

def handlePortgroupDelete (event : IronicPortgroupEvent) (n : Nautobot) : ℕ × Nautobot :=
  match n.table.get event.uuid with
  | none => (0, n)
  | some intf => (0, n.delete intf.id)

end Understack.Workflows.Interfaces
