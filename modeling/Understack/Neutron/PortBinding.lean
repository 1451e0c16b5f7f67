import Understack.Neutron.Segments

/-! Binding, unbinding and deletion of baremetal ports (`neutron_understack_mech.py`) and the
trunk events on their parents (`trunk.py`), over the segment and binding level tables. -/
namespace Understack.Neutron.Segments

inductive VnicType where
  | baremetal
  | normal
  deriving DecidableEq, Repr

inductive VifType where
  | unbound
  | other
  deriving DecidableEq, Repr

structure Port where
  id : String
  networkId : String
  vnicType : VnicType
  vifType : VifType
  host : String
  profile : List (String × String)
  deriving DecidableEq, Repr

structure SubPort where
  portId : String
  segmentationId : ℕ
  deriving DecidableEq, Repr

structure Trunk where
  id : String
  portId : String
  subPorts : List SubPort
  deriving DecidableEq, Repr

structure State where
  store : Store
  ports : List Port
  trunks : List Trunk
  deriving DecidableEq, Repr

structure Config where
  provisioningNetwork : String
  networkNodeTrunkId : String
  allowedTenantVlanIdRanges : List (ℕ × ℕ)

/-- `profile.get("physical_network")` where it is not empty. -/
def Port.physicalNetwork (p : Port) : Option String :=
  (p.profile.lookup "physical_network").filter (· ≠ "")

def parentPortIsBound (p : Port) : Bool :=
  p.vifType = .other ∧ p.vnicType = .baremetal ∧ p.profile ≠ []

def fetchPortObject (ports : List Port) (portId : String) : Option Port :=
  ports.find? fun p => p.id = portId

/-- The trunk whose details the port dict carries. -/
def trunkDetails (s : State) (portId : String) : Option Trunk :=
  s.trunks.find? fun t => t.portId = portId

def segmentationIdInRanges (segmentationId : ℕ) (ranges : List (ℕ × ℕ)) : Bool :=
  ranges.any fun r => r.1 ≤ segmentationId ∧ segmentationId ≤ r.2

def checkSubportsSegmentationId (config : Config) (trunkId : String) (subports : List SubPort) :
    Bool :=
  trunkId = config.networkNodeTrunkId ∨
    ∀ sp ∈ subports, segmentationIdInRanges sp.segmentationId config.allowedTenantVlanIdRanges

/-- The loop of `_handle_segment_allocation`. -/
def handleSegmentAllocation (ports : List Port) (vlanGroup host : String) :
    Store → List SubPort → Option Store
  | st, [] => some st
  | st, sp :: rest => do
    let port ← fetchPortObject ports sp.portId
    let allocated := vlanSegmentFor st port.networkId vlanGroup
    let st ← createBindingProfileLevel allocated.1
      { portId := sp.portId, host := host, level := 0, segmentId := allocated.2.id }
    handleSegmentAllocation ports vlanGroup host st rest

/-- The loop of `_handle_segment_deallocation`. -/
def handleSegmentDeallocation (host : String) : Store → List SubPort → Option Store
  | st, [] => some st
  | st, sp :: rest =>
    match portBindingLevelByPortId st sp.portId host with
    | none => handleSegmentDeallocation host st rest
    | some level => do
      let st ← deleteUnusedSegment (dropLevels st (BindingLevel.hasKey sp.portId host 0))
        level.segmentId
      handleSegmentDeallocation host st rest

def addSubportsNetworksToParentPortSwitchport (ports : List Port) (parent : Port) (st : Store)
    (subports : List SubPort) : Option Store := do
  let vlanGroup ← parent.physicalNetwork
  handleSegmentAllocation ports vlanGroup parent.host st subports

/-- Neutron writes the levels of the binding when it is committed. -/
def setBindingLevels (st : Store) (portId host : String) (segmentId nextSegmentId : ℕ) :
    Option Store := do
  let st ← insertLevel st { portId := portId, host := host, level := 0, segmentId := segmentId }
  insertLevel st { portId := portId, host := host, level := 1, segmentId := nextSegmentId }

/-- `configure_trunk`, called where the port has trunk details. -/
def configureTrunk (s : State) (port : Port) (st : Store) : Option Store :=
  match trunkDetails s port.id with
  | none => some st
  | some trunk => addSubportsNetworksToParentPortSwitchport s.ports port st trunk.subPorts

/-- `port` carries the host and the profile of the binding that is attempted. -/
def bindPortSegment (s : State) (port : Port) (segment : Segment) : Option Store := do
  let vlanGroup ← port.physicalNetwork
  let allocated := vlanSegmentFor s.store port.networkId vlanGroup
  let st ← configureTrunk s port allocated.1
  setBindingLevels st port.id port.host segment.id allocated.2.id

/-- `none` where the driver does not bind: the network has no VXLAN segment. -/
def bindPort (s : State) (port : Port) : Option Store := do
  let segment ← s.store.segments.find? fun seg =>
    seg.networkId = port.networkId ∧ seg.networkType = .vxlan
  bindPortSegment s port segment

/-- `original` is the port before the unbind; its levels are gone from `st`, and
`topSegmentId` is the segment that its level 0 had. -/
def tenantNetworkPortCleanup (s : State) (st : Store) (original : Port) (topSegmentId : ℕ) :
    Option Store :=
  let st := match networkSegmentById st topSegmentId with
    | none => st
    | some segment => releaseSegmentIfUnused st segment
  match trunkDetails s original.id with
  | none => some st
  | some trunk => handleSegmentDeallocation original.host st trunk.subPorts

def deletePortBaremetal (config : Config) (st : Store) (port : Port) : Store :=
  match port.physicalNetwork with
  | none => st
  | some vlanGroup =>
    if port.networkId = config.provisioningNetwork then st
    else
      match networkSegmentByPhysnet st port.networkId vlanGroup with
      | none => st
      | some segment => releaseSegmentIfUnused st segment

def BindingLevel.isOf (portId host : String) (l : BindingLevel) : Bool :=
  l.portId = portId ∧ l.host = host

def replacePort (ports : List Port) (port : Port) : List Port :=
  ports.map fun p => if p.id = port.id then port else p

def replaceTrunk (trunks : List Trunk) (trunk : Trunk) : List Trunk :=
  trunks.map fun t => if t.id = trunk.id then trunk else t

inductive BindingOp where
  | bind (portId host : String) (profile : List (String × String))
  | unbind (portId : String)
  | delete (portId : String)
  | createTrunk (trunk : Trunk)
  | addSubports (trunkId : String) (subports : List SubPort)
  | removeSubports (trunkId : String) (portIds : List String)
  | deleteTrunk (trunkId : String)
  deriving DecidableEq, Repr

def bindOp (s : State) (portId host : String) (profile : List (String × String)) :
    Option State := do
  let original ← fetchPortObject s.ports portId
  if original.vnicType ≠ .baremetal ∨ original.vifType ≠ .unbound then none
  let port := { original with vifType := .other, host := host, profile := profile }
  let st ← bindPort s port
  return { s with store := st, ports := replacePort s.ports port }

/-- The levels of the binding go first, then the postcommit hook runs. -/
def unbindOp (s : State) (portId : String) : Option State := do
  let original ← fetchPortObject s.ports portId
  if original.vnicType ≠ .baremetal ∨ original.vifType ≠ .other then none
  let topLevel ← portBindingLevelByPortId s.store portId original.host
  let st ← tenantNetworkPortCleanup s
    (dropLevels s.store (BindingLevel.isOf portId original.host)) original topLevel.segmentId
  let port := { original with
    vifType := .unbound, host := "",
    profile := original.profile.filter fun kv => kv.1 ≠ "physical_network" }
  return { s with store := st, ports := replacePort s.ports port }

/-- Neutron refuses to delete a port that is a subport of a trunk. -/
def deleteOp (config : Config) (s : State) (portId : String) : Option State := do
  let port ← fetchPortObject s.ports portId
  if port.vnicType ≠ .baremetal then none
  if s.trunks.any fun t => t.subPorts.any fun sp => sp.portId = portId then none
  return { s with
    store := deletePortBaremetal config (dropLevels s.store fun l => l.portId = portId) port
    ports := s.ports.filter fun p => p.id ≠ portId }

/-- `_handle_tenant_vlan_id_and_switchport_config`. -/
def handleTenantVlanIdAndSwitchportConfig (config : Config) (s : State)
    (trunkId parentId : String) (subports : List SubPort) : Option Store := do
  if ¬ checkSubportsSegmentationId config trunkId subports then none
  let parent ← fetchPortObject s.ports parentId
  if parentPortIsBound parent then
    addSubportsNetworksToParentPortSwitchport s.ports parent s.store subports
  else some s.store

def trunkCreated (config : Config) (s : State) (trunk : Trunk) : Option Store :=
  if trunk.subPorts = [] then some s.store
  else handleTenantVlanIdAndSwitchportConfig config s trunk.id trunk.portId trunk.subPorts

/-- A port is the parent of at most one trunk. -/
def createTrunkOp (config : Config) (s : State) (trunk : Trunk) : Option State := do
  if s.trunks.any fun t => t.id = trunk.id ∨ t.portId = trunk.portId then none
  let st ← trunkCreated config s trunk
  return { s with store := st, trunks := s.trunks ++ [trunk] }

def addSubportsOp (config : Config) (s : State) (trunkId : String) (subports : List SubPort) :
    Option State := do
  let trunk ← s.trunks.find? fun t => t.id = trunkId
  let st ← handleTenantVlanIdAndSwitchportConfig config s trunk.id trunk.portId subports
  return { s with
    store := st
    trunks := replaceTrunk s.trunks { trunk with subPorts := trunk.subPorts ++ subports } }

/-- The precommit check of the parent, then the cleanup after the rows are gone. -/
def cleanParentPortSwitchportConfig (s : State) (trunk : Trunk) (subports : List SubPort) :
    Option Store := do
  let parent ← fetchPortObject s.ports trunk.portId
  if ¬ parentPortIsBound parent then some s.store
  else if parent.physicalNetwork = none then none
  else handleSegmentDeallocation parent.host s.store subports

def removeSubportsOp (s : State) (trunkId : String) (portIds : List String) : Option State := do
  let trunk ← s.trunks.find? fun t => t.id = trunkId
  let removed := trunk.subPorts.filter fun sp => sp.portId ∈ portIds
  let st ← cleanParentPortSwitchportConfig s trunk removed
  return { s with
    store := st
    trunks := replaceTrunk s.trunks
      { trunk with subPorts := trunk.subPorts.filter fun sp => sp.portId ∉ portIds } }

def trunkDeleted (s : State) (trunk : Trunk) : Option Store :=
  if trunk.subPorts = [] then some s.store
  else cleanParentPortSwitchportConfig s trunk trunk.subPorts

def deleteTrunkOp (s : State) (trunkId : String) : Option State := do
  let trunk ← s.trunks.find? fun t => t.id = trunkId
  let st ← trunkDeleted s trunk
  return { s with store := st, trunks := s.trunks.filter fun t => t.id ≠ trunkId }

/-- The state after a completed operation; `none` where it is refused or raises. -/
def tryOp (config : Config) (s : State) : BindingOp → Option State
  | .bind portId host profile => bindOp s portId host profile
  | .unbind portId => unbindOp s portId
  | .delete portId => deleteOp config s portId
  | .createTrunk trunk => createTrunkOp config s trunk
  | .addSubports trunkId subports => addSubportsOp config s trunkId subports
  | .removeSubports trunkId portIds => removeSubportsOp s trunkId portIds
  | .deleteTrunk trunkId => deleteTrunkOp s trunkId

def applyOp (config : Config) (s : State) (op : BindingOp) : State := (tryOp config s op).getD s

/-- The selected levels are the only ones on some dynamic segment. -/
def OnlyUser (st : Store) (mine : BindingLevel → Bool) : Prop :=
  ∃ seg ∈ st.segments, seg.isDynamic = true ∧
    (∃ l ∈ st.levels, mine l = true ∧ l.segmentId = seg.id) ∧
    ∀ l ∈ st.levels, l.segmentId = seg.id → mine l = true

instance (st : Store) (mine : BindingLevel → Bool) : Decidable (OnlyUser st mine) := by
  unfold OnlyUser
  infer_instance

/-- The port is the last user of its dynamic segment and leaves it by unbinding, or by a direct
delete on the provisioning network. -/
def LeaksSegment (config : Config) (s : State) : BindingOp → Prop
  | .unbind portId => ∃ port ∈ fetchPortObject s.ports portId,
      OnlyUser s.store (BindingLevel.isOf portId port.host)
  | .delete portId => ∃ port ∈ fetchPortObject s.ports portId,
      port.networkId = config.provisioningNetwork ∧
        OnlyUser s.store fun l => l.portId = portId
  | _ => False

instance (config : Config) (s : State) (op : BindingOp) :
    Decidable (LeaksSegment config s op) := by
  unfold LeaksSegment
  split <;> infer_instance

/-- A dynamic VLAN segment exists exactly while a binding level references it. -/
structure SegmentContract (s : State) : Prop where
  allocated_used : ∀ seg ∈ s.store.segments, seg.isDynamic = true → seg.networkType = .vlan →
    Used s.store seg.id
  used_allocated : ∀ l ∈ s.store.levels, ∃ seg ∈ s.store.segments, seg.id = l.segmentId

/-- Unbound ports, trunks on them and static segments only. -/
structure Initial (s : State) : Prop where
  noLevels : s.store.levels = []
  static : ∀ seg ∈ s.store.segments, seg.isDynamic = false
  segmentIds : (s.store.segments.map Segment.id).Nodup
  fresh : ∀ seg ∈ s.store.segments, seg.id < s.store.nextId
  unbound : ∀ p ∈ s.ports, p.vifType = .unbound ∧ p.physicalNetwork = none
  portIds : (s.ports.map Port.id).Nodup
  trunkIds : (s.trunks.map Trunk.id).Nodup
  trunkParents : (s.trunks.map Trunk.portId).Nodup

end Understack.Neutron.Segments
