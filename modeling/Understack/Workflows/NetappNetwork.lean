import Understack.Ironic.PortgroupName
import Understack.Lib.Attempts
import Understack.Workflows.NetappInterfaces

/-! The ports, interfaces and routes that are set up on ONTAP for a project
(`main/netapp_configure_net.py`, `netapp/client.py`, `lif_service.py`, `route_service.py`). Every
request is one call, and a run ends with the first call that fails. -/
namespace Understack.Workflows.NetappNet
open PyText PyIpaddress Attempts

abbrev VlanTag := { tag : ℤ // 1 ≤ tag ∧ tag ≤ 4094 }

def NetappIPInterfaceConfig.vlanTag (c : NetappIPInterfaceConfig) : VlanTag :=
  ⟨c.vlanId, c.vlan_valid⟩

structure Node where
  uuid : Text
  name : Text
  deriving DecidableEq

inductive PortKind where
  | other (name : Text)
  | vlan (basePort : Text) (tag : VlanTag)
  deriving DecidableEq

structure Port where
  uuid : Text
  node : Text
  kind : PortKind
  broadcastDomain : Option Text
  deriving DecidableEq

def vlanPortName (basePort : Text) (tag : VlanTag) : Text := basePort ++ '-' :: ofInt tag.val

/-- ONTAP names a VLAN port after its base port and tag. -/
def Port.name (p : Port) : Text :=
  match p.kind with
  | .other name => name
  | .vlan basePort tag => vlanPortName basePort tag

def Port.isVlan (p : Port) : Bool :=
  match p.kind with
  | .other _ => false
  | .vlan _ _ => true

structure IpInterface where
  uuid : Text
  name : Text
  svm : Text
  address : Text
  netmask : Text
  enabled : Bool
  autoRevert : Bool
  homePortUuid : Text
  broadcastDomain : Text
  servicePolicy : Text
  deriving DecidableEq

structure NetworkRoute where
  uuid : Text
  svm : Text
  gateway : Text
  destinationAddress : Text
  destinationNetmask : Text
  deriving DecidableEq

structure Ontap where
  svms : List Text
  nodes : List Node
  ports : List Port
  interfaces : List IpInterface
  routes : List NetworkRoute

structure PortSpec where
  nodeName : Text
  vlanId : VlanTag
  basePortName : Text
  broadcastDomainName : Text

structure InterfaceSpec where
  name : Text
  address : Text
  netmask : Text
  svmName : Text
  homePortUuid : Text
  broadcastDomainName : Text
  servicePolicy : Text

/-- The exceptions of the manager. A call that fails raises any of them. -/
inductive NetAppManagerError where
  | svmNotFound (svmName : Text)
  | svmOperation (svmName : Text)
  | homeNodeNotFound (interfaceName : Text)
  | networkOperation (about : Text)
  | manager
  deriving DecidableEq

abbrev NetApp (α : Type) := Program Ontap NetAppManagerError α

def svmNameOf (projectId : Text) : Text := "os-".toList ++ projectId

section Client
variable (faults : ℕ → Option (Fault NetAppManagerError)) (uuids : ℕ → Text)

/-- Whether `find_svm` returns a result. -/
def findSvm (svmName : Text) : NetApp Bool :=
  call faults fun _ o => (.ok (decide (svmName ∈ o.svms)), o)

def getNodes : NetApp (List Node) := call faults fun _ o => (.ok o.nodes, o)

/-- The broadcast domain of the first port of the name on the node. -/
def broadcastDomain (ports : List Port) (nodeName portName : Text) :
    Except NetAppManagerError Text :=
  match ports.find? fun p => p.name = portName ∧ p.node = nodeName with
  | some p =>
    match p.broadcastDomain with
    | some domain => .ok domain
    | none => .error (.networkOperation portName)
  | none => .error (.networkOperation portName)

def getBroadcastDomainName (nodeName portName : Text) : NetApp Text :=
  call faults fun _ o => (broadcastDomain o.ports nodeName portName, o)

def Ontap.addPort (o : Ontap) (p : Port) : Ontap := { o with ports := o.ports ++ [p] }

def Ontap.addInterface (o : Ontap) (i : IpInterface) : Ontap :=
  { o with interfaces := o.interfaces ++ [i] }

def Ontap.addRoute (o : Ontap) (r : NetworkRoute) : Ontap := { o with routes := o.routes ++ [r] }

/-- The VLAN ports with this tag on the base port of the node. -/
def Ontap.vlanPorts (o : Ontap) (nodeName basePort : Text) (tag : VlanTag) : List Port :=
  o.ports.filter fun p => p.node = nodeName ∧ p.kind = .vlan basePort tag

/-- The interfaces of the name on the SVM. -/
def Ontap.lifs (o : Ontap) (svmName name : Text) : List IpInterface :=
  o.interfaces.filter fun i => i.svm = svmName ∧ i.name = name

def NetworkRoute.isFor (spec : RouteSpec) (r : NetworkRoute) : Bool :=
  r.svm = spec.svmName ∧ r.gateway = ipv4Text spec.gateway ∧
    r.destinationAddress = ipv4Text spec.destination.networkAddress ∧
    r.destinationNetmask = ipv4Text spec.destination.netmask

def Ontap.routesFor (o : Ontap) (spec : RouteSpec) : List NetworkRoute :=
  o.routes.filter (NetworkRoute.isFor spec)

/-- What is posted, unless it exists. -/
def post {α : Type} (existing : Ontap → List α) (error : NetAppManagerError)
    (add : Ontap → Text → Ontap) : NetApp Text :=
  call faults fun n o =>
    if existing o = [] then (.ok (uuids n), add o (uuids n)) else (.error error, o)

def PortSpec.port (spec : PortSpec) (uuid : Text) : Port where
  uuid := uuid
  node := spec.nodeName
  kind := .vlan spec.basePortName spec.vlanId
  broadcastDomain := some spec.broadcastDomainName

/-- The uuid of the first port that the query finds, or of the one that is posted. -/
def getOrCreatePort (spec : PortSpec) : NetApp Text := do
  let found ← call faults fun _ o => (.ok (o.ports.find? fun p => p.isVlan ∧
    p.name = vlanPortName spec.basePortName spec.vlanId ∧ p.node = spec.nodeName), o)
  match found with
  | some port => return port.uuid
  | none =>
    post faults uuids (fun o => o.vlanPorts spec.nodeName spec.basePortName spec.vlanId)
      (.networkOperation spec.nodeName) fun o uuid => o.addPort (spec.port uuid)

def InterfaceSpec.interface (spec : InterfaceSpec) (uuid : Text) : IpInterface where
  uuid := uuid
  name := spec.name
  svm := spec.svmName
  address := spec.address
  netmask := spec.netmask
  enabled := true
  autoRevert := false
  homePortUuid := spec.homePortUuid
  broadcastDomain := spec.broadcastDomainName
  servicePolicy := spec.servicePolicy

/-- An interface that is found is used as it is. -/
def getOrCreateIpInterface (spec : InterfaceSpec) : NetApp Text := do
  let found ← call faults fun _ o => (.ok (o.interfaces.find? fun i =>
    i.svm = spec.svmName ∧ i.name = spec.name), o)
  match found with
  | some interface => return interface.uuid
  | none =>
    post faults uuids (fun o => o.lifs spec.svmName spec.name) (.networkOperation spec.name)
      fun o uuid => o.addInterface (spec.interface uuid)

def RouteSpec.route (spec : RouteSpec) (uuid : Text) : NetworkRoute where
  uuid := uuid
  svm := spec.svmName
  gateway := ipv4Text spec.gateway
  destinationAddress := ipv4Text spec.destination.networkAddress
  destinationNetmask := ipv4Text spec.destination.netmask

/-- A route is posted without a look at the existing ones. -/
def createRoute (spec : RouteSpec) : NetApp Text :=
  post faults uuids (fun o => o.routesFor spec) (.networkOperation spec.svmName)
    fun o uuid => o.addRoute (spec.route uuid)

end Client

/-- `int` of the digits at the end of a node's name. -/
def nodeIndex (name : Text) : Option ℕ :=
  match Ironic.Portgroup.trailingDigits name with
  | [] => none
  | digits => some (decimalValue digits)

/-- The first node whose number is the one in the interface's name. -/
def homeNode (nodes : List Node) (c : NetappIPInterfaceConfig) : Except NetAppManagerError Node :=
  match nodes.find? fun node =>
    match nodeIndex node.name, c.desiredNodeNumber with
    | some k, .ok desired => k = desired
    | _, _ => false with
  | some node => .ok node
  | none => .error (.homeNodeNotFound c.name)

/-- The property, whose `ValueError` is raised as an operation error. -/
def homePortName (c : NetappIPInterfaceConfig) : Except NetAppManagerError Text :=
  c.basePortName.mapError fun _ => .networkOperation c.name

section Services
variable (faults : ℕ → Option (Fault NetAppManagerError)) (uuids : ℕ → Text)

def identifyHomeNode (c : NetappIPInterfaceConfig) : NetApp Node := do
  let nodes ← getNodes faults
  lift (homeNode nodes c)

def createLif (projectId : Text) (c : NetappIPInterfaceConfig) : NetApp PUnit := do
  let svmResult ← findSvm faults (svmNameOf projectId)
  if svmResult then
    let homeNode ← identifyHomeNode faults c
    let basePort ← lift (homePortName c)
    let domain ← getBroadcastDomainName faults homeNode.name basePort
    let homePortUuid ← getOrCreatePort faults uuids ⟨homeNode.name, c.vlanTag, basePort, domain⟩
    let _ ← getOrCreateIpInterface faults uuids {
      name := c.name
      address := ipv4Text c.address
      netmask := ipv4Text c.network.netmask
      svmName := svmNameOf projectId
      homePortUuid := homePortUuid
      broadcastDomainName := domain
      servicePolicy := "default-data-nvme-tcp".toList }
    return ⟨⟩
  else throw (.svmNotFound (svmNameOf projectId))

/-- `list(set(nexthops))`: the elements of the list, each once, in an order of its own. -/
structure SetOrder where
  elements : List Text → List Text
  nodup : ∀ l, (elements l).Nodup
  mem : ∀ l t, t ∈ elements l ↔ t ∈ l

def nexthopText (c : NetappIPInterfaceConfig) : Except ValueError Text := do
  let nexthop ← c.routeNexthop
  return ipv4Text nexthop

def createRouteVia (projectId nexthop : Text) : NetApp PUnit := do
  let spec ← lift ((RouteSpec.fromNexthopIp (svmNameOf projectId) nexthop).mapError fun _ =>
    .networkOperation nexthop)
  let _ ← createRoute faults uuids spec
  return ⟨⟩

def createRoutesFromInterfaces (order : SetOrder) (projectId : Text)
    (configs : List NetappIPInterfaceConfig) : NetApp PUnit := do
  let nexthops ← lift ((configs.mapM nexthopText).mapError fun _ => .networkOperation projectId)
  (order.elements nexthops).forM (createRouteVia faults uuids projectId)

def netappCreateInterfacesAndRoutes (order : SetOrder) (projectId : Text)
    (configs : List NetappIPInterfaceConfig) : NetApp PUnit := do
  configs.forM (createLif faults uuids projectId)
  createRoutesFromInterfaces faults uuids order projectId configs

end Services

end Understack.Workflows.NetappNet
