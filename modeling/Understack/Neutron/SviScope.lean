import Understack.Lib.Runs
import Understack.Neutron.Ports

/-! The address scope rule of SVI routers (`l3_router/svi.py`) and the port writes that
enforce it (`neutron_understack_mech.py`). -/
namespace Understack.Neutron.Svi

inductive IpVersion where
  | v4
  | v6
  deriving DecidableEq, Repr

def IpVersion.number : IpVersion → String
  | .v4 => "4"
  | .v6 => "6"

structure FixedIp where
  subnetId : Option String
  ipAddress : String
  deriving DecidableEq, Repr

structure Port where
  id : String
  deviceOwner : DeviceOwner
  deviceId : String
  fixedIps : List FixedIp
  deriving DecidableEq, Repr

structure Subnet where
  ipVersion : IpVersion
  subnetpoolId : Option String

/-- What the core, L3 and flavor plugins answer; `none` is their not-found exception. -/
structure Plugins where
  getSubnet : String → Option Subnet
  getSubnetpoolScope : String → Option (Option String)
  getRouterFlavor : String → Option FlavorId
  flavorDriver : String → Option String
  no_empty_id : getRouterFlavor "" = none

inductive SviError where
  | ipv6Subnet (subnetId : String)
  | noAddressScope (subnetId : String)
  | requestConflict (subnetIds : List String) (version : IpVersion) (scope previous : String)
  | existingNoScope (subnetId routerId : String)
  | existingConflict (subnetIds : List String) (version : IpVersion) (scope existing : String)
      (routerId : String)
  | notFound (id : String)
  deriving DecidableEq, Repr

def quoted (s : String) : String := "'" ++ s ++ "'"

def quotedList (ids : List String) : String :=
  "[" ++ String.intercalate ", " (ids.map quoted) ++ "]"

/-- The `msg` of the `BadRequest` on the resource `router`. -/
def SviError.msg : SviError → String
  | .ipv6Subnet s => "IPv6 subnet " ++ s ++ " cannot be attached to an " ++
      "SVI router. SVI routers currently support IPv4 subnets only."
  | .noAddressScope s => "Subnet " ++ s ++ " must belong to an address scope " ++
      "to attach to an SVI router."
  | .requestConflict ids v scope previous => "Cannot attach subnets " ++ quotedList ids ++
      ": IPv" ++ v.number ++ " address scope " ++ quoted scope ++ " differs from scope " ++
      quoted previous ++ " in the same request."
  | .existingNoScope s r => "Existing subnet " ++ s ++ " on router " ++ r ++
      " must belong to an address scope before attaching more subnets to an SVI router."
  | .existingConflict ids v scope existing r => "Cannot attach subnet " ++ quotedList ids ++
      ": its IPv" ++ v.number ++ " address scope " ++ quoted scope ++ " differs from scope " ++
      quoted existing ++ " already in use on router " ++ r ++ "."
  | .notFound i => i ++ " could not be found"

/-- `svi._svi_provider_driver()`. -/
def sviProviderDriver : String := "neutron_understack.l3_router.svi.Svi"

/-- The truth value of an id that may be missing. -/
def truthy : Option String → Option String
  | some "" => none
  | s => s

def orNotFound {β : Type} (i : String) : Option β → Except SviError β
  | some b => .ok b
  | none => .error (.notFound i)

def isSviRouter (env : Plugins) : FlavorId → Except SviError Bool
  | .notSpecified => .ok false
  | .null => .ok false
  | .value "" => .ok false
  | .value flavorId => do
    let driver ← orNotFound flavorId (env.flavorDriver flavorId)
    return driver = sviProviderDriver

def getSubnetAddressScope (env : Plugins) (subnetId : String) :
    Except SviError (IpVersion × Option String) := do
  let subnet ← orNotFound subnetId (env.getSubnet subnetId)
  match truthy subnet.subnetpoolId with
  | none => return (subnet.ipVersion, none)
  | some subnetpoolId =>
    let scopeId ← orNotFound subnetpoolId (env.getSubnetpoolScope subnetpoolId)
    return (subnet.ipVersion, scopeId)

def Port.subnetIds (p : Port) : List String := p.fixedIps.filterMap fun ip => truthy ip.subnetId

/-- The `get_ports` filter: internal interfaces of the router. -/
def Port.interfaceOf (routerId : String) (p : Port) : Bool :=
  p.deviceId = routerId ∧ p.deviceOwner = .routerInterface

def getExistingRouterSubnetIds (ports : List Port) (routerId : String) : List String :=
  (ports.filter (Port.interfaceOf routerId)).flatMap Port.subnetIds

/-- The dict `{ip_version: scope_id}`. -/
abbrev Scopes := IpVersion → Option String

/-- Rule 1: every new subnet belongs to an address scope, one per IP version. -/
def collectNewScopes (env : Plugins) (newSubnetIds : List String) :
    Scopes → List String → Except SviError Scopes
  | scopes, [] => .ok scopes
  | scopes, subnetId :: rest => do
    let (ipVersion, scope) ← getSubnetAddressScope env subnetId
    if ipVersion = .v6 then throw (.ipv6Subnet subnetId)
    match truthy scope with
    | none => throw (.noAddressScope subnetId)
    | some scopeId =>
      match scopes ipVersion with
      | some previous =>
        if previous ≠ scopeId then
          throw (.requestConflict newSubnetIds ipVersion scopeId previous)
        collectNewScopes env newSubnetIds (Function.update scopes ipVersion (some scopeId)) rest
      | none =>
        collectNewScopes env newSubnetIds (Function.update scopes ipVersion (some scopeId)) rest

/-- Rule 2: no conflict with the interfaces already on the router, per IP version. -/
def checkExistingScopes (env : Plugins) (routerId : String) (newSubnetIds : List String)
    (newScopes : Scopes) : List String → Except SviError Unit
  | [] => .ok ()
  | existing :: rest => do
    let (ipVersion, scope) ← getSubnetAddressScope env existing
    match newScopes ipVersion with
    | none => checkExistingScopes env routerId newSubnetIds newScopes rest
    | some newScope =>
      match truthy scope with
      | none => throw (.existingNoScope existing routerId)
      | some existingScope =>
        if existingScope ≠ newScope then
          throw (.existingConflict newSubnetIds ipVersion newScope existingScope routerId)
        checkExistingScopes env routerId newSubnetIds newScopes rest

def validateAddressScopeRules (env : Plugins) (ports : List Port) (routerId : String)
    (newSubnetIds : List String) : Except SviError Scopes := do
  let newScopes ← collectNewScopes env newSubnetIds (fun _ => none) newSubnetIds
  checkExistingScopes env routerId newSubnetIds newScopes
    (getExistingRouterSubnetIds ports routerId)
  return newScopes

/-- `ports` is what `get_ports` sees while the port is being written. -/
def validateSviRouterPort (env : Plugins) (ports : List Port) (port : Port) :
    Except SviError Bool := do
  if port.deviceOwner ≠ .routerInterface then return false
  if port.deviceId = "" then return false
  let flavor ← orNotFound port.deviceId (env.getRouterFlavor port.deviceId)
  if ¬ (← isSviRouter env flavor) then return false
  let _ ← validateAddressScopeRules env ports port.deviceId port.subnetIds
  return true

def isRouterInterfacePort (port : Port) : Bool :=
  port.deviceOwner.isRouter

def createPortPrecommit (env : Plugins) (ports : List Port) (current : Port) :
    Except SviError Unit := do
  if isRouterInterfacePort current then
    let _ ← validateSviRouterPort env ports current

def updatePortPrecommit (env : Plugins) (ports : List Port) (original current : Port) :
    Except SviError Unit := do
  if ¬ isRouterInterfacePort current then return
  let becameRouterInterface := !isRouterInterfacePort original && isRouterInterfacePort current
  let fixedIpsChanged := original.fixedIps ≠ current.fixedIps
  if ¬ (becameRouterInterface ∨ fixedIpsChanged) then return
  let _ ← validateSviRouterPort env ports current

/-- A port write; `flushed` says whether `get_ports` sees the row being written. -/
inductive PortOp where
  | create (port : Port) (flushed : Bool)
  | update (port : Port) (flushed : Bool)
  | delete (id : String)
  deriving DecidableEq, Repr

def replacePort (ports : List Port) (current : Port) : List Port :=
  ports.map fun p => if p.id = current.id then current else p

/-- The ports after a create: unchanged where the id is taken or the driver rejects it. -/
def createPort (env : Plugins) (ports : List Port) (port : Port) (flushed : Bool) : List Port :=
  if ports.any fun p => p.id = port.id then ports
  else
    match createPortPrecommit env (if flushed then ports ++ [port] else ports) port with
    | .ok () => ports ++ [port]
    | .error _ => ports

/-- The ports after an update: unchanged where there is no such port or the driver rejects it. -/
def updatePort (env : Plugins) (ports : List Port) (port : Port) (flushed : Bool) : List Port :=
  match ports.find? fun p => p.id = port.id with
  | none => ports
  | some original =>
    match updatePortPrecommit env (if flushed then replacePort ports port else ports)
      original port with
    | .ok () => replacePort ports port
    | .error _ => ports

def applyOp (env : Plugins) (ports : List Port) : PortOp → List Port
  | .create port flushed => createPort env ports port flushed
  | .update port flushed => updatePort env ports port flushed
  | .delete id => ports.filter fun p => p.id ≠ id

/-- The routers that the rule is about: their flavor resolves to the SVI provider. -/
def IsSvi (env : Plugins) (routerId : String) : Prop :=
  match env.getRouterFlavor routerId with
  | some flavor => (isSviRouter env flavor).toOption = some true
  | none => False

instance (env : Plugins) (routerId : String) : Decidable (IsSvi env routerId) := by
  unfold IsSvi
  split <;> infer_instance

/-- The subnets on the internal interfaces of the router are IPv4 subnets of one scope. -/
def SingleScope (env : Plugins) (ports : List Port) (routerId : String) : Prop :=
  ∃ scope, scope ≠ "" ∧ ∀ s ∈ getExistingRouterSubnetIds ports routerId,
    getSubnetAddressScope env s = .ok (.v4, some scope)

/-- The rule over the whole deployment. -/
def AllSingleScope (env : Plugins) (ports : List Port) : Prop :=
  ∀ routerId, IsSvi env routerId → SingleScope env ports routerId

/-- A port that already belongs to a router becomes an internal interface of another one with
its addresses unchanged: the one update that brings subnets onto a router unchecked. -/
def Reattaches (env : Plugins) (ports : List Port) : PortOp → Prop
  | .update port _ =>
    match ports.find? fun p => p.id = port.id with
    | some original => isRouterInterfacePort original = true ∧ port.subnetIds ≠ [] ∧
        port.deviceOwner = .routerInterface ∧ IsSvi env port.deviceId ∧
        original.fixedIps = port.fixedIps ∧ original.interfaceOf port.deviceId = false
    | none => False
  | _ => False

instance (env : Plugins) (ports : List Port) (op : PortOp) :
    Decidable (Reattaches env ports op) := by
  unfold Reattaches
  split
  · split <;> infer_instance
  · infer_instance

end Understack.Neutron.Svi
