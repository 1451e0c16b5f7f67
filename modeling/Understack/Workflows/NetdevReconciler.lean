import Understack.Lib.Calls
import Understack.Lib.JsonPatch
import Understack.Workflows.NetdevPorts

/-! `enroll` of `netdev_reconciler.py`: find or create the node, plan its ports, step it out
of the pool, patch its metadata, apply the plans and make it available. -/
namespace Understack.Workflows.Netdev

open PyText Json Calls

def defaultResourceClass : Text := "generic".toList

/-- A provision state of a node; only the first three are re-enrollable. -/
inductive ProvisionState where
  | enroll
  | manageable
  | available
  | other (name : Text)
  deriving DecidableEq, Repr

def reenrollableStates : List ProvisionState := [.enroll, .manageable, .available]

inductive Target where
  | manage
  | provide
  deriving DecidableEq, Repr

/-- The values a caller gives for `driver_info`, `extra` and `external_cmdb_id`. -/
inductive Scalar where
  | null
  | int (z : ℤ)
  | str (s : Text)
  deriving DecidableEq, Repr

/-- A dictionary of the request. -/
def Fields := {d : List (Text × Scalar) // (d.map Prod.fst).Nodup}

def Fields.put (k : Text) (v : Scalar) (d : Fields) : Fields :=
  ⟨PyDict.put k v d.1, PyDict.nodup_keys_put k v d.2⟩

structure Request (F : Type) where
  name : Text
  physicalNetwork : Text
  ports : List (Value F)
  externalCmdbId : Scalar
  resourceClass : Option Text
  driverInfo : Fields
  extra : Fields

structure Node (F : Type) where
  uuid : Text
  driver : Text
  provisionState : ProvisionState
  resourceClass : Value F
  driverInfo : List (Text × Value F)
  extra : List (Text × Value F)
  ports : PortTable

/-- The body of `create_node`. -/
structure NodeData where
  automatedClean : Bool
  driver : Text
  name : Text
  resourceClass : Text
  driverInfo : Fields
  extra : Fields

abbrev Patch (F : Type) := List (Text × Value F)

inductive Call (F : Type) where
  | getNode (name : Text)
  | createNode (data : NodeData)
  | listPorts
  | updateNode (patch : Patch F)
  | setProvisionState (target : Target)
  | waitForProvisionState (expected : ProvisionState)
  | port (call : PortCall)

inductive EnrollError (F : Type) where
  | ports (error : PortsError F)
  | wrongDriver (name uuid driver : Text)
  | cannotEnroll (uuid : Text) (state : ProvisionState)
  | plan (error : PlanError)
  | cannotMakeAvailable (uuid : Text) (state : ProvisionState)
  | badAttribute (attributes : List Text)
  | failed (call : Call F)

def hasCmdbId : Scalar → Bool
  | .null => false
  | .int _ => true
  | .str s => s ≠ []

def Scalar.toJson {F : Type} : Scalar → Value F
  | .null => .null
  | .int z => .int z
  | .str s => .str s

/-- The value in an f-string. -/
def Scalar.format : Scalar → Text
  | .null => "None".toList
  | .int z => ofInt z
  | .str s => s

section
variable {F : Type} [FloatOps F]

def Request.effectiveResourceClass (req : Request F) : Text :=
  match req.resourceClass with
  | some (c :: cs) => c :: cs
  | _ => defaultResourceClass

def Request.nodeExtra (req : Request F) : Fields :=
  if hasCmdbId req.externalCmdbId then
    req.extra.put "external_cmdb_id".toList req.externalCmdbId
  else req.extra

def Request.nodeData (req : Request F) : NodeData :=
  ⟨false, "netdev".toList, req.name, req.effectiveResourceClass, req.driverInfo, req.nodeExtra⟩

/-! The Ironic API, for the one node found under the requested name. -/

def storeFields (d : Fields) : List (Text × Value F) := d.1.map fun e => (e.1, e.2.toJson)

def Node.addOperation (node : Node F) (path : List Text) (value : Value F) : Option (Node F) :=
  match path with
  | [] => none
  | field :: rest =>
    if field = "resource_class".toList then
      if rest = [] then some { node with resourceClass := value } else none
    else if field = "driver_info".toList then
      (addMember value rest node.driverInfo).map fun ms => { node with driverInfo := ms }
    else if field = "extra".toList then
      (addMember value rest node.extra).map fun ms => { node with extra := ms }
    else none

def Node.patch (node : Node F) (patch : Patch F) : Option (Node F) :=
  patch.foldlM (fun node op => (pointer op.1).bind fun path => node.addOperation path op.2) node

end

/-- Ironic, with what it may choose: the UUID of a new node, and the state of a node while a
requested transition is under way. -/
structure Ironic (lower : Text → Text) extends PortServer lower where
  nodeUuid : Text
  transit : ProvisionState → Target → ProvisionState
  transit_manage : ∀ s, transit s .manage ≠ .available

/-- An Ironic that carries out every transition at once. -/
def Ironic.prompt (lower : Text → Text) : Ironic lower where
  toPortServer := PortServer.verbatim lower
  nodeUuid := ['n']
  transit _ target := match target with
    | .manage => .manageable
    | .provide => .available
  transit_manage _ := by simp

section
variable {lower : Text → Text} {F : Type} [FloatOps F]

def Ironic.newNode (I : Ironic lower) (data : NodeData) : Node F where
  uuid := I.nodeUuid
  driver := data.driver
  provisionState := .enroll
  resourceClass := .str data.resourceClass
  driverInfo := storeFields data.driverInfo
  extra := storeFields data.extra
  ports := ⟨[], List.nodup_nil⟩

def Ironic.serveNode (I : Ironic lower) (node : Node F) : Call F → Option (Node F)
  | .getNode _ => some node
  | .createNode _ => none
  | .listPorts => some node
  | .updateNode patch => node.patch patch
  | .setProvisionState target =>
    some { node with provisionState := I.transit node.provisionState target }
  | .waitForProvisionState expected => some { node with provisionState := expected }
  | .port c => some { node with ports := I.serve c node.ports }

def Ironic.serveCall (I : Ironic lower) (c : Call F) : Option (Node F) → Option (Option (Node F))
  | some node => (I.serveNode node c).map some
  | none =>
    match c with
    | .getNode _ => some none
    | .createNode data => some (some (I.newNode data))
    | _ => none

def Ironic.api (I : Ironic lower) (outcome : ℕ → Outcome) :
    Api (Option (Node F)) (Call F) (EnrollError F) :=
  ⟨I.serveCall, outcome, .failed⟩

end

/-! Node metadata. -/

section
variable {F : Type} [FloatOps F]

/-- Python's `d.get(key) == value`. -/
def equals : Option (Value F) → Scalar → Bool
  | none, .null => true
  | some .null, .null => true
  | some (.int a), .int z => a = z
  | some (.bool b), .int z => (if b then 1 else 0) = z
  | some (.float x), .int z => FloatOps.eqInt x z
  | some (.str s), .str t => s = t
  | _, _ => false

def fieldUpdates (field : Text) (stored : List (Text × Value F)) (wanted : Fields) : List Text :=
  (wanted.1.filter fun e => !equals (stored.lookup e.1) e.2).map fun e =>
    field ++ '/' :: (e.1 ++ '=' :: e.2.format)

def metadataUpdates (node : Node F) (resourceClass : Text) (driverInfo extra : Fields) :
    List Text :=
  (if equals (some node.resourceClass) (.str resourceClass) then []
    else ["resource_class=".toList ++ resourceClass]) ++
  fieldUpdates "driver_info".toList node.driverInfo driverInfo ++
  fieldUpdates "extra".toList node.extra extra

def deserialize (s : Text) : Value F := (loads s).getD (.str s)

/-- One attribute of `args_array_to_patch`; `none` where it has no `=`. -/
def attributeToOperation (attr : Text) : Option (Text × Value F) :=
  (splitOnce '=' (if attr.head? = some '/' then attr else '/' :: attr)).map fun p =>
    (p.1, deserialize p.2)

/-- `args_array_to_patch("add", attributes)`. -/
def argsArrayToPatch (attributes : List Text) : Option (Patch F) :=
  attributes.mapM attributeToOperation

variable (A : Api (Option (Node F)) (Call F) (EnrollError F))

def updateNodeMetadata (node : Node F) (resourceClass : Text) (driverInfo extra : Fields) :
    Client (Option (Node F)) (Call F) (EnrollError F) Bool :=
  let updates := metadataUpdates node resourceClass driverInfo extra
  if updates = [] then pure false
  else match argsArrayToPatch updates with
    | none => raise (.badAttribute updates)
    | some patch => do
      A.call (.updateNode patch)
      return true

/-! The workflow. -/

/-- The node that the last answer was about. -/
def readNode (c : Call F) : Client (Option (Node F)) (Call F) (EnrollError F) (Node F) := do
  match ← current with
  | some node => return node
  | none => raise (.failed c)

def createNetdevNode (data : NodeData) :
    Client (Option (Node F)) (Call F) (EnrollError F) (Node F) := do
  A.call (.createNode data)
  readNode (.createNode data)

def findOrCreateNetdevNode (req : Request F) :
    Client (Option (Node F)) (Call F) (EnrollError F) (Node F × Bool) := do
  A.call (.getNode req.name)
  match ← current with
  | none => do
    let node ← createNetdevNode A req.nodeData
    return (node, true)
  | some node =>
    if node.driver ≠ "netdev".toList then
      raise (.wrongDriver req.name node.uuid node.driver)
    else if node.provisionState ∉ reenrollableStates then
      raise (.cannotEnroll node.uuid node.provisionState)
    else return (node, false)

def listPorts : Client (Option (Node F)) (Call F) (EnrollError F) PortTable := do
  A.call .listPorts
  let node ← readNode .listPorts
  return node.ports

/-- `ironic_node.transition`. -/
def transition (target : Target) (expected : ProvisionState) :
    Client (Option (Node F)) (Call F) (EnrollError F) Unit := do
  A.call (.setProvisionState target)
  A.call (.waitForProvisionState expected)

/-- An available node leaves the pool before its ports change; the result is the local state
variable. -/
def stepDown (pending : List Plan) (state : ProvisionState) :
    Client (Option (Node F)) (Call F) (EnrollError F) ProvisionState :=
  if pending ≠ [] ∧ state = .available then do
    transition A .manage .manageable
    return .manageable
  else return state

def makeAvailable (node : Node F) (state : ProvisionState) :
    Client (Option (Node F)) (Call F) (EnrollError F) Unit :=
  match state with
  | .available => return ()
  | .enroll => do
    transition A .manage .manageable
    transition A .provide .available
  | .manageable => transition A .provide .available
  | .other _ => raise (.cannotMakeAvailable node.uuid state)

def portCalls (req : Request F) (pending : List Plan) : List (Call F) :=
  pending.map fun plan => .port (applyPortPlan req.name req.physicalNetwork plan)

/-- `enroll` after planning. -/
def applyPending (req : Request F) (node : Node F) (created : Bool) (pending : List Plan) :
    Client (Option (Node F)) (Call F) (EnrollError F) Unit := do
  let state ← stepDown A pending node.provisionState
  let _metadataChanged ← (if created then pure false
    else updateNodeMetadata A node req.effectiveResourceClass req.driverInfo req.nodeExtra)
  if pending = [] ∧ state = .available then return ()
  else do
    A.callAll (portCalls req pending)
    makeAvailable A node state

/-- `enroll` once the node is found or created. -/
def reconcile (lower : Text → Text) (req : Request F) (netdevPorts : List NetdevPort)
    (node : Node F) (created : Bool) : Client (Option (Node F)) (Call F) (EnrollError F) Unit := do
  let nodePorts ← listPorts A
  let plans ← ofExcept
    ((planPorts lower req.name req.physicalNetwork nodePorts.1 netdevPorts).mapError .plan)
  applyPending A req node created plans.reduceOption

def enroll (lower : Text → Text) (req : Request F) :
    Client (Option (Node F)) (Call F) (EnrollError F) Unit := do
  let netdevPorts ← ofExcept ((buildNetdevPorts lower req.ports).mapError .ports)
  let (node, created) ← findOrCreateNetdevNode A req
  reconcile A lower req netdevPorts node created

end

end Understack.Workflows.Netdev
