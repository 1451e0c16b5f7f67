import Understack.Workflows.NetdevConvergence

/-! `enroll_fw`: a firewall is enrolled as a netdev node, or, where it is in service, has its
metadata updated in place. -/
namespace Understack.Workflows.Firewall

open PyText Json Calls Netdev

structure FirewallRequest (F : Type) where
  name : Text
  physicalNetwork : Text
  ports : List (Value F)
  resourceClass : Option Text
  externalCmdbId : Scalar
  managementIp : Text
  managementSwitch : Text
  managementSwitchPort : Text
  mateSerial : Text

inductive FirewallError (F : Type) where
  | genericResourceClass (got : Option Text)
  | notNetdev (name uuid driver : Text)
  | otherResourceClass (uuid : Text) (nodeResourceClass : Value F) (resourceClass : Text)
  | structuralDrift (uuid portName kind : Text)
  | engine (error : EnrollError F)

def active : ProvisionState := .other "active".toList

/-! `firewall_metadata`. -/

/-- The fields with a value. -/
def nonEmpty (fields : List (Text × Text)) : List (Text × Scalar) :=
  (fields.filter fun e => e.2 ≠ []).map fun e => (e.1, .str e.2)

theorem nodup_keys_nonEmpty {fields : List (Text × Text)} (h : (fields.map Prod.fst).Nodup) :
    ((nonEmpty fields).map Prod.fst).Nodup := by
  have hsub : ((fields.filter fun e => e.2 ≠ []).map Prod.fst).Sublist (fields.map Prod.fst) :=
    List.filter_sublist.map Prod.fst
  rw [nonEmpty, List.map_map]
  exact hsub.nodup h

section
variable {F : Type}

def FirewallRequest.driverInfo (req : FirewallRequest F) : Fields :=
  ⟨nonEmpty [("management_ip".toList, req.managementIp),
      ("management_switch".toList, req.managementSwitch),
      ("management_switch_port".toList, req.managementSwitchPort)],
    nodup_keys_nonEmpty (by
      show (["management_ip".toList, "management_switch".toList,
        "management_switch_port".toList] : List Text).Nodup
      decide)⟩

def FirewallRequest.extra (req : FirewallRequest F) : Fields :=
  ⟨nonEmpty [("mate_serial".toList, req.mateSerial)], nodup_keys_nonEmpty (List.nodup_singleton _)⟩

def FirewallRequest.activeExtra (req : FirewallRequest F) : Fields :=
  if hasCmdbId req.externalCmdbId then
    req.extra.put "external_cmdb_id".toList req.externalCmdbId
  else req.extra

/-- What the shared engine is asked for. -/
def FirewallRequest.engineRequest (req : FirewallRequest F) (resourceClass : Text) : Request F :=
  ⟨req.name, req.physicalNetwork, req.ports, req.externalCmdbId, some resourceClass,
    req.driverInfo, req.extra⟩

def requireSpecificResourceClass (lower : Text → Text) (resourceClass : Option Text) :
    Except (FirewallError F) Text :=
  let normalized := strip (resourceClass.getD [])
  if normalized = [] ∨ lower normalized = defaultResourceClass then
    .error (.genericResourceClass resourceClass)
  else .ok normalized

def planKind : Plan → Text
  | .create _ => "create".toList
  | .update _ _ => "update".toList

/-- The plan of one requested port against the ports of the node. -/
def planAgainst (lower : Text → Text) (name physicalNetwork : Text) (nodePorts : List Port)
    (port : NetdevPort) : Except PlanError (Option Plan) :=
  planNetdevPort lower name physicalNetwork port (portsByName nodePorts (portName name port.label))
    (portsByMac lower nodePorts (lower port.mac))

/-- The loop of `_reject_structural_drift`. -/
def rejectDrift (lower : Text → Text) (uuid name physicalNetwork : Text) (nodePorts : List Port) :
    List NetdevPort → Except (FirewallError F) Unit
  | [] => .ok ()
  | port :: rest =>
    match planAgainst lower name physicalNetwork nodePorts port with
    | .error e => .error (.engine (.plan e))
    | .ok (some plan) => .error (.structuralDrift uuid (portName name port.label) (planKind plan))
    | .ok none => rejectDrift lower uuid name physicalNetwork nodePorts rest

end

section
variable {F : Type} [FloatOps F] (A : Api (Option (Node F)) (Call F) (EnrollError F))

def getNodeOrNone (name : Text) :
    Client (Option (Node F)) (Call F) (FirewallError F) (Option (Node F)) := do
  mapError .engine (A.call (.getNode name))
  current

def rejectStructuralDrift (lower : Text → Text) (node : Node F) (name physicalNetwork : Text)
    (netdevPorts : List NetdevPort) :
    Client (Option (Node F)) (Call F) (FirewallError F) Unit := do
  let nodePorts ← mapError .engine (listPorts A)
  ofExcept (rejectDrift lower node.uuid name physicalNetwork nodePorts.1 netdevPorts)

def applyNodeMetadata (node : Node F) (driverInfo extra : Fields) :
    Client (Option (Node F)) (Call F) (EnrollError F) Unit :=
  let updates := fieldUpdates "driver_info".toList node.driverInfo driverInfo ++
    fieldUpdates "extra".toList node.extra extra
  if updates = [] then return ()
  else match argsArrayToPatch updates with
    | none => raise (.badAttribute updates)
    | some patch => A.call (.updateNode patch)

def updateActiveFirewall (lower : Text → Text) (node : Node F) (req : FirewallRequest F)
    (resourceClass : Text) : Client (Option (Node F)) (Call F) (FirewallError F) Unit :=
  if node.driver ≠ "netdev".toList then raise (.notNetdev req.name node.uuid node.driver)
  else if !equals (some node.resourceClass) (.str resourceClass) then
    raise (.otherResourceClass node.uuid node.resourceClass resourceClass)
  else do
    let netdevPorts ← ofExcept ((buildNetdevPorts lower req.ports).mapError fun e =>
      .engine (.ports e))
    rejectStructuralDrift A lower node req.name req.physicalNetwork netdevPorts
    mapError .engine (applyNodeMetadata A node req.driverInfo req.activeExtra)

def enrollFw (lower : Text → Text) (req : FirewallRequest F) :
    Client (Option (Node F)) (Call F) (FirewallError F) Unit := do
  let resourceClass ← ofExcept (requireSpecificResourceClass lower req.resourceClass)
  match ← getNodeOrNone A req.name with
  | some node =>
    if node.provisionState = active then updateActiveFirewall A lower node req resourceClass
    else mapError .engine (enroll A lower (req.engineRequest resourceClass))
  | none => mapError .engine (enroll A lower (req.engineRequest resourceClass))

end

end Understack.Workflows.Firewall
