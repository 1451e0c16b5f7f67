import Mathlib.Data.List.Nodup
import Understack.Lib.PyText
import Understack.Lib.Runs
import Understack.Neutron.Ports

/-! The shared uplink of a network (`routers.py`): created with the first router port, removed
with the last one. -/
namespace Understack.Neutron.Uplink
open PyText

structure Port where
  id : String
  networkId : String
  name : Text
  deviceOwner : DeviceOwner
  deviceId : String
  deriving DecidableEq, Repr

structure Segment where
  id : Text
  segmentationId : ℕ
  physicalNetwork : String
  deriving DecidableEq, Repr

/-- A subport of the network node trunk. -/
structure SubPort where
  portId : String
  segmentationId : ℕ
  deriving DecidableEq, Repr

/-- A localnet port in the OVN northbound database. -/
structure LocalnetPort where
  name : Text
  networkId : String
  tag : ℕ
  networkName : String
  deriving DecidableEq, Repr

structure State where
  ports : List Port
  subports : List SubPort
  localnets : List LocalnetPort
  deriving DecidableEq, Repr

def State.empty : State := { ports := [], subports := [], localnets := [] }

structure Config where
  /-- The flavor of a router, `none` where the L3 plugin does not know the router. -/
  getRouterFlavor : String → Option FlavorId
  networkNodeSwitchportPhysnet : Option String

inductive UplinkError where
  | routerNotFound (routerId : String)
  | physnetNotConfigured
  | segmentNotAllocated (networkId physnet : String)
  deriving DecidableEq, Repr

def uplinkPrefix : Text := "uplink-".toList

def uplinkName (segmentId : Text) : Text := uplinkPrefix ++ segmentId

def isUplinkName (name : Text) : Bool := uplinkPrefix.isPrefixOf name

/-- `name.removeprefix("uplink-")`. -/
def removeUplinkPrefix (name : Text) : Text :=
  if isUplinkName name then name.drop uplinkPrefix.length else name

def Port.isRouterPortOn (networkId : String) (p : Port) : Bool :=
  p.networkId = networkId ∧ p.deviceOwner.isRouter

def Port.isSharedOn (networkId : String) (p : Port) : Bool :=
  p.networkId = networkId ∧ isUplinkName p.name

def State.routerPorts (s : State) (networkId : String) : List Port :=
  s.ports.filter (Port.isRouterPortOn networkId)

def routerHasFlavor (config : Config) (routerId : String) : Except UplinkError Bool :=
  match config.getRouterFlavor routerId with
  | none => .error (.routerNotFound routerId)
  | some .notSpecified => .ok false
  | some .null => .ok false
  | some (.value flavorId) => .ok (flavorId ≠ "")

/-- `router_id and _router_has_flavor(...)`. -/
def hasFlavoredRouter (config : Config) (port : Port) : Except UplinkError Bool :=
  if port.deviceId = "" then .ok false else routerHasFlavor config port.deviceId

def isOnlyRouterPortOnNetwork (s : State) (networkId : String) : Bool :=
  ¬ (s.routerPorts networkId).length > 1

/-- `allocated` is what the type manager answers for the network and the physnet. -/
def fetchOrCreateRouterSegment (config : Config) (networkId : String)
    (allocated : Option Segment) : Except UplinkError Segment :=
  match config.networkNodeSwitchportPhysnet with
  | none => .error .physnetNotConfigured
  | some "" => .error .physnetNotConfigured
  | some physnet =>
    match allocated with
    | none => .error (.segmentNotAllocated networkId physnet)
    | some segment => .ok segment

/-- The row of the shared port; `portId` is the id that Neutron generates. -/
def createNeutronPortForSegment (s : State) (segment : Segment) (networkId portId : String) :
    State :=
  { s with ports := s.ports ++ [{ id := portId, networkId := networkId,
                                  name := uplinkName segment.id, deviceOwner := .other "",
                                  deviceId := "" }] }

def addSubportToTrunk (s : State) (portId : String) (segment : Segment) : State :=
  { s with subports := s.subports ++ [{ portId := portId,
                                        segmentationId := segment.segmentationId }] }

/-- `create_lswitch_port` leaves an existing port of that name alone. -/
def createUplinkPort (s : State) (segment : Segment) (networkId : String) : State :=
  if s.localnets.any fun l => l.name = uplinkName segment.id ∧ l.networkId = networkId then s
  else { s with localnets := s.localnets ++ [{ name := uplinkName segment.id,
                                               networkId := networkId,
                                               tag := segment.segmentationId,
                                               networkName := segment.physicalNetwork }] }

/-- `s` holds the router port already: the call comes after its commit. -/
def createPortPostcommit (config : Config) (s : State) (port : Port) (allocated : Option Segment)
    (sharedId : String) : Except UplinkError State := do
  if ¬ isOnlyRouterPortOnNetwork s port.networkId then return s
  if ← hasFlavoredRouter config port then return s
  let segment ← fetchOrCreateRouterSegment config port.networkId allocated
  let s := createNeutronPortForSegment s segment port.networkId sharedId
  let s := addSubportToTrunk s sharedId segment
  return createUplinkPort s segment port.networkId

def fetchSharedRouterPort (s : State) (networkId : String) : Option Port :=
  s.ports.find? (Port.isSharedOn networkId)

/-- A port that is not in the trunk is only logged. -/
def handleSubportRemoval (s : State) (port : Port) : State :=
  { s with subports := s.subports.filter fun sp => sp.portId ≠ port.id }

/-- `delete_lswitch_port`, which accepts a missing port. -/
def deleteLswitchPort (s : State) (name : Text) (networkId : String) : State :=
  { s with localnets := s.localnets.filter fun l => ¬ (l.name = name ∧ l.networkId = networkId) }

def deletePort (s : State) (portId : String) : State :=
  { s with ports := s.ports.filter fun p => p.id ≠ portId }

def doUplinkCleanup (s : State) (networkId : String) : State :=
  match fetchSharedRouterPort s networkId with
  | none => s
  | some shared =>
    let segmentId := removeUplinkPrefix shared.name
    let s := handleSubportRemoval s shared
    let s := deleteLswitchPort s (uplinkName segmentId) networkId
    let s := deleteLswitchPort s shared.id.toList networkId
    deletePort s shared.id

/-- PORT PRECOMMIT_DELETE, with the row of `port` still there. -/
def handleRouterInterfaceRemoval (s : State) (port : Port) : State :=
  if ¬ port.deviceOwner.isRouter then s
  else if ¬ isOnlyRouterPortOnNetwork s port.networkId then s
  else doUplinkCleanup s port.networkId

/-- ROUTER_INTERFACE AFTER_DELETE, with the row of `port` gone. -/
def handleRouterInterfaceAfterDelete (s : State) (port : Port) : State :=
  if ¬ port.deviceOwner.isRouter then s
  else if s.routerPorts port.networkId ≠ [] then s
  else doUplinkCleanup s port.networkId

inductive RemovalEvents where
  | precommitDelete
  | afterDelete
  | both
  deriving DecidableEq, Repr

/-- The row deletion together with the handlers that run before and after it. -/
def removeRouterPort (s : State) (port : Port) : RemovalEvents → State
  | .precommitDelete => deletePort (handleRouterInterfaceRemoval s port) port.id
  | .afterDelete => handleRouterInterfaceAfterDelete (deletePort s port.id) port
  | .both => handleRouterInterfaceAfterDelete
      (deletePort (handleRouterInterfaceRemoval s port) port.id) port

inductive UplinkOp where
  | create (port : Port) (allocated : Option Segment) (sharedId : String)
  | remove (port : Port) (events : RemovalEvents)
  deriving DecidableEq, Repr

/-- The state with the row of the new router port, before `create_port_postcommit`. -/
def State.addPort (s : State) (port : Port) : State := { s with ports := s.ports ++ [port] }

/-- The state after a successful operation; `none` where the operation raises, or where there
is no such router port or its id is taken. -/
def tryOp (config : Config) (s : State) : UplinkOp → Option State
  | .create port allocated sharedId =>
    if port.deviceOwner.isRouter ∧ (port.id :: sharedId :: s.ports.map Port.id).Nodup then
      (createPortPostcommit config (s.addPort port) port allocated sharedId).toOption
    else none
  | .remove port events =>
    if port ∈ s.ports ∧ port.deviceOwner.isRouter then some (removeRouterPort s port events)
    else none

def applyOp (config : Config) (s : State) (op : UplinkOp) : State := (tryOp config s op).getD s

/-- A port of a router without a flavor, as `create_port_postcommit` decides it. -/
def isUnflavored (config : Config) (p : Port) : Bool :=
  (hasFlavoredRouter config p).toOption = some false

def State.sharedPorts (s : State) (networkId : String) : List Port :=
  s.ports.filter fun p => p.isSharedOn networkId ∧ ¬ p.deviceOwner.isRouter

def State.localnetsOn (s : State) (networkId : String) : List LocalnetPort :=
  s.localnets.filter fun l => l.networkId = networkId

/-- The shared port is in the trunk and has its localnet port. -/
def IsUplink (s : State) (networkId : String) (p : Port) : Prop :=
  p ∈ s.sharedPorts networkId ∧ p.id ∈ s.subports.map SubPort.portId ∧
    ∃ l ∈ s.localnetsOn networkId, l.name = p.name

/-- A network has an uplink exactly when its routers need one. -/
structure UplinkContract (config : Config) (s : State) (networkId : String) : Prop where
  atMostOne : (s.sharedPorts networkId).length ≤ 1 ∧ (s.localnetsOn networkId).length ≤ 1
  present : (∃ p ∈ s.routerPorts networkId, isUnflavored config p = true) →
    ∃ p, IsUplink s networkId p
  absent : s.routerPorts networkId = [] →
    s.sharedPorts networkId = [] ∧ s.localnetsOn networkId = []

/-- The port of an unflavored router joins router ports that have no uplink, or a router port
carries a name that identifies shared ports. -/
def MissesUplink (config : Config) (s : State) : UplinkOp → Prop
  | .create port _ _ => isUplinkName port.name = true ∨
      (isUnflavored config port = true ∧ s.routerPorts port.networkId ≠ [] ∧
        fetchSharedRouterPort s port.networkId = none)
  | .remove _ _ => False

instance (config : Config) (s : State) (op : UplinkOp) : Decidable (MissesUplink config s op) := by
  unfold MissesUplink
  split <;> infer_instance

end Understack.Neutron.Uplink
