import Understack.Lib.Json
import Understack.Lib.Runs
import Mathlib.Data.Char
import Mathlib.Data.List.Lex

/-! Ports of a netdev node: validation of the requested ports list, planning of each port
against the node's existing ports, and the port calls of the Ironic API. -/
namespace Understack.Workflows.Netdev

open PyText Json

def placeholderSwitchId : Text := "00:00:00:00:00:00".toList

def requiredPortFields : List Text :=
  ["label".toList, "mac".toList, "switch".toList, "intf".toList]

def optionalPortFields : List Text := ["switch_id".toList]

def allowedPortFields : List Text := requiredPortFields ++ optionalPortFields

structure NetdevPort where
  label : Text
  mac : Text
  switch : Text
  interface : Text
  switchId : Option Text
  deriving DecidableEq, Repr

inductive PortsError (F : Type) where
  | noPorts
  | notObject (index : ℕ)
  | missing (index : ℕ) (fields : List Text)
  | notStrings (index : ℕ) (fields : List Text)
  | switchIdNotString (index : ℕ) (got : Value F)
  | unknown (index : ℕ) (fields : List Text)
  | duplicateLabel (label : Text)
  | duplicateMac (mac : Text)

section
variable {F : Type} [FloatOps F]

/-- Truth of `entry.get(key)`. -/
def truthy : Option (Value F) → Bool
  | none => false
  | some .null => false
  | some (.bool b) => b
  | some (.int z) => z ≠ 0
  | some (.float x) => !FloatOps.eqInt x 0
  | some (.str s) => !s.isEmpty
  | some (.arr xs) => !xs.isEmpty
  | some (.obj ms) => !ms.isEmpty

def asStr : Option (Value F) → Option Text
  | some (.str s) => some s
  | _ => none

def switchIdOf (index : ℕ) : Option (Value F) → Except (PortsError F) (Option Text)
  | none => .ok none
  | some .null => .ok none
  | some (.str s) => .ok (some s)
  | some v => .error (.switchIdNotString index v)

/-- The checks of one entry and its port; an entry that is not a dictionary is `none`. -/
def buildNetdevPort (index : ℕ) : Option (List (Text × Value F)) → Except (PortsError F) NetdevPort
  | none => .error (.notObject index)
  | some entry =>
    let missing := requiredPortFields.filter fun key => !truthy (entry.lookup key)
    let nonString := requiredPortFields.filter fun key => (asStr (entry.lookup key)).isNone
    let unknown := (entry.map Prod.fst).filter fun key => key ∉ allowedPortFields
    let field (key : String) := (asStr (entry.lookup key.toList)).getD []
    if missing ≠ [] then .error (.missing index missing)
    else if nonString ≠ [] then .error (.notStrings index nonString)
    else do
      let switchId ← switchIdOf index (entry.lookup "switch_id".toList)
      if unknown ≠ [] then
        .error (.unknown index (unknown.mergeSort fun a b => decide (a ≤ b)))
      else
        .ok ⟨field "label", field "mac", field "switch", field "intf", switchId⟩

def entryMembers : Value F → Option (List (Text × Value F))
  | .obj ms => some ms
  | _ => none

end

section
variable (lower : Text → Text) {F : Type} [FloatOps F]

/-- The loop over `enumerate(ports, start=1)` with `seen_labels` and `seen_macs`. -/
def buildFrom : ℕ → List Text → List Text → List (Value F) →
    Except (PortsError F) (List NetdevPort)
  | _, _, _, [] => .ok []
  | index, seenLabels, seenMacs, entry :: rest => do
    let port ← buildNetdevPort index (entryMembers entry)
    if port.label ∈ seenLabels then .error (.duplicateLabel port.label)
    else if lower port.mac ∈ seenMacs then .error (.duplicateMac port.mac)
    else do
      let ports ← buildFrom (index + 1) (port.label :: seenLabels) (lower port.mac :: seenMacs) rest
      return port :: ports

def buildNetdevPorts (ports : List (Value F)) : Except (PortsError F) (List NetdevPort) :=
  if ports = [] then .error .noPorts else buildFrom lower 1 [] [] ports

end

/-! Ports as Ironic keeps them. -/

abbrev Link := List (Text × Text)

structure Port where
  uuid : Text
  name : Option Text
  address : Text
  physicalNetwork : Option Text
  category : Option Text
  localLinkConnection : Option Link
  deriving DecidableEq, Repr

/-- The body of `create_port`. -/
structure PortData where
  address : Text
  category : Text
  localLinkConnection : Link
  name : Text
  physicalNetwork : Text
  deriving DecidableEq, Repr

/-- An `add` operation on a port, by its path. -/
inductive PortOp where
  | address (mac : Text)
  | physicalNetwork (value : Text)
  | category (value : Text)
  | localLinkConnection (value : Link)
  deriving DecidableEq, Repr

inductive PortCall where
  | createPort (data : PortData)
  | updatePort (uuid : Text) (patch : List PortOp)
  deriving DecidableEq, Repr

/-- The ports of a node: no two have the same UUID. -/
abbrev PortTable := {ports : List Port // (ports.map Port.uuid).Nodup}

/-- What the port API may choose: the UUID of a new port, and the spelling in which a MAC
address is stored. -/
structure PortServer (lower : Text → Text) where
  freshUuid : List Text → Text
  freshUuid_notMem : ∀ uuids, freshUuid uuids ∉ uuids
  storedMac : Text → Text
  lower_storedMac : ∀ mac, lower (storedMac mac) = lower mac

/-- A server that keeps the spelling and makes ever longer UUIDs. -/
def PortServer.verbatim (lower : Text → Text) : PortServer lower where
  freshUuid uuids := 'u' :: uuids.flatten
  freshUuid_notMem uuids h := by
    have hle := (List.sublist_flatten_of_mem h).length_le
    simp only [List.length_cons] at hle
    omega
  storedMac := id
  lower_storedMac _ := rfl

variable {lower : Text → Text}

def PortServer.newPort (S : PortServer lower) (uuids : List Text) (data : PortData) : Port where
  uuid := S.freshUuid uuids
  name := some data.name
  address := S.storedMac data.address
  physicalNetwork := some data.physicalNetwork
  category := some data.category
  localLinkConnection := some data.localLinkConnection

def PortServer.patchPort (S : PortServer lower) (p : Port) : PortOp → Port
  | .address mac => { p with address := S.storedMac mac }
  | .physicalNetwork value => { p with physicalNetwork := some value }
  | .category value => { p with category := some value }
  | .localLinkConnection value => { p with localLinkConnection := some value }

def PortServer.patch (S : PortServer lower) (p : Port) (ops : List PortOp) : Port :=
  ops.foldl S.patchPort p

@[simp] theorem PortServer.patchPort_uuid (S : PortServer lower) (p : Port) (op : PortOp) :
    (S.patchPort p op).uuid = p.uuid := by
  cases op <;> rfl

@[simp] theorem PortServer.patchPort_name (S : PortServer lower) (p : Port) (op : PortOp) :
    (S.patchPort p op).name = p.name := by
  cases op <;> rfl

@[simp] theorem PortServer.patch_uuid (S : PortServer lower) (p : Port) (ops : List PortOp) :
    (S.patch p ops).uuid = p.uuid := by
  unfold PortServer.patch
  induction ops generalizing p with
  | nil => rfl
  | cons op ops ih => simp [ih]

@[simp] theorem PortServer.patch_name (S : PortServer lower) (p : Port) (ops : List PortOp) :
    (S.patch p ops).name = p.name := by
  unfold PortServer.patch
  induction ops generalizing p with
  | nil => rfl
  | cons op ops ih => simp [ih]

/-- The list after an update of the port with the given UUID. -/
def PortServer.updateAt (S : PortServer lower) (uuid : Text) (ops : List PortOp)
    (ports : List Port) : List Port :=
  ports.map fun p => if p.uuid = uuid then S.patch p ops else p

@[simp] theorem PortServer.updateAt_uuids (S : PortServer lower) (uuid : Text)
    (ops : List PortOp) (ports : List Port) :
    (S.updateAt uuid ops ports).map Port.uuid = ports.map Port.uuid := by
  unfold PortServer.updateAt
  rw [List.map_map]
  refine List.map_congr_left fun p _ => ?_
  by_cases hp : p.uuid = uuid <;> simp [hp]

def PortServer.serve (S : PortServer lower) : PortCall → PortTable → PortTable
  | .createPort data, t =>
    ⟨t.1 ++ [S.newPort (t.1.map Port.uuid) data], by
      have hf := S.freshUuid_notMem (t.1.map Port.uuid)
      simpa [List.nodup_append, t.2, PortServer.newPort] using hf⟩
  | .updatePort uuid ops, t => ⟨S.updateAt uuid ops t.1, by simpa using t.2⟩

/-! Planning, against a snapshot of the node's ports. -/

inductive Plan where
  | create (port : NetdevPort)
  | update (existing : Port) (patch : List PortOp)
  deriving DecidableEq, Repr

/-- A MAC address that another port uses, with that port's UUID and name. -/
inductive PlanError where
  | cannotCreate (portName mac ownerUuid : Text) (ownerName : Option Text)
  | cannotUpdate (portName mac ownerUuid : Text) (ownerName : Option Text)
  deriving DecidableEq, Repr

def portName (nodeName label : Text) : Text := nodeName ++ ':' :: label

/-- `ports_by_name.get(name)`: the last port of that name. -/
def portsByName (ports : List Port) (name : Text) : Option Port :=
  ports.reverse.find? fun p => p.name = some name

variable (lower)

/-- `ports_by_mac.get(mac)`: the last port whose lowercased address is `mac`. -/
def portsByMac (ports : List Port) (mac : Text) : Option Port :=
  ports.reverse.find? fun p => lower p.address = mac

/-- A stored `switch_id` that is unset or the placeholder is (re)written as the placeholder. -/
def keptSwitchId (stored : Text) : Text :=
  if stored = [] ∨ stored = placeholderSwitchId then placeholderSwitchId else stored

/-- An explicit value in the request wins, else the stored value is kept. -/
def desiredSwitchId (port : NetdevPort) (current : Link) : Text :=
  match port.switchId with
  | some (c :: cs) => c :: cs
  | _ => keptSwitchId ((current.lookup "switch_id".toList).getD [])

def desiredLlc (port : NetdevPort) (current : Link) : Link :=
  [("switch_id".toList, desiredSwitchId port current), ("switch_info".toList, port.switch),
    ("port_id".toList, port.interface)]

def planAddress (nodeName : Text) (port : NetdevPort) (existing : Port)
    (macOwner : Option Port) : Except PlanError (List PortOp) :=
  if lower existing.address = lower port.mac then .ok []
  else match macOwner with
    | some owner =>
      if owner.uuid ≠ existing.uuid then
        .error (.cannotUpdate (portName nodeName port.label) port.mac owner.uuid owner.name)
      else .ok [.address port.mac]
    | none => .ok [.address port.mac]

/-- `all(current_llc.get(key) == value …)` over the desired connection. -/
def linkHolds (port : NetdevPort) (current : Link) : Bool :=
  (desiredLlc port current).all fun e => current.lookup e.1 = some e.2

/-- The operations other than the one on the address. -/
def planOther (physicalNetwork : Text) (port : NetdevPort) (existing : Port) : List PortOp :=
  (if existing.physicalNetwork = some physicalNetwork then []
    else [PortOp.physicalNetwork physicalNetwork]) ++
  (if existing.category = some "network".toList then []
    else [PortOp.category "network".toList]) ++
  if linkHolds port (existing.localLinkConnection.getD []) then []
    else [PortOp.localLinkConnection (desiredLlc port (existing.localLinkConnection.getD []))]

def planNetdevPort (nodeName physicalNetwork : Text) (port : NetdevPort)
    (existing : Option Port) (macOwner : Option Port) : Except PlanError (Option Plan) :=
  match existing with
  | none =>
    match macOwner with
    | some owner =>
      .error (.cannotCreate (portName nodeName port.label) port.mac owner.uuid owner.name)
    | none => .ok (some (.create port))
  | some existing => do
    let address ← planAddress lower nodeName port existing macOwner
    let patch := address ++ planOther physicalNetwork port existing
    return if patch = [] then none else some (.update existing patch)

/-- The list comprehension over the requested ports: all plans, made before any is applied. -/
def planPorts (nodeName physicalNetwork : Text) (ports : List Port) (requested : List NetdevPort) :
    Except PlanError (List (Option Plan)) :=
  requested.mapM fun port =>
    planNetdevPort lower nodeName physicalNetwork port
      (portsByName ports (portName nodeName port.label)) (portsByMac lower ports (lower port.mac))

/-- The call of `create_netdev_port`. -/
def createNetdevPort (nodeName physicalNetwork : Text) (port : NetdevPort) : PortCall :=
  let switchId := match port.switchId with
    | some (c :: cs) => c :: cs
    | _ => placeholderSwitchId
  .createPort
    { address := port.mac
      category := "network".toList
      localLinkConnection :=
        [("switch_id".toList, switchId), ("switch_info".toList, port.switch),
          ("port_id".toList, port.interface)]
      name := portName nodeName port.label
      physicalNetwork := physicalNetwork }

/-- The one call with which `apply_port_plan` applies a plan. -/
def applyPortPlan (nodeName physicalNetwork : Text) : Plan → PortCall
  | .create port => createNetdevPort nodeName physicalNetwork port
  | .update existing patch => .updatePort existing.uuid patch

end Understack.Workflows.Netdev
