import Mathlib.Data.List.Nodup
import Mathlib.Data.Int.Notation
import Mathlib.Logic.Function.Basic
import Understack.Lib.Runs

/-! Concurrent adoption and release of netdev nodes for routers (`ironic.py`). Every API call is
one atomic step on the pool of Ironic nodes; between two calls of a worker any other worker may
run. -/
namespace Understack.Neutron.Netdev

inductive ProvisionState where
  | available
  | manageable
  | active
  | other (name : String)
  deriving DecidableEq, Repr

structure Node where
  id : String
  driver : String
  resourceClass : String
  isMaintenance : Bool
  provisionState : ProvisionState
  lessee : Option String
  instanceUuid : Option String
  instanceName : Option String
  deriving DecidableEq, Repr

/-- The fields that `update_node` is called with. -/
structure Stamp where
  lessee : Option String
  instanceUuid : Option String
  instanceName : Option String
  deriving DecidableEq, Repr

inductive Verb where
  | manage
  | adopt
  | provide
  | deleted
  deriving DecidableEq, Repr

inductive Call where
  | provision (verb : Verb)
  | update (stamp : Stamp)
  deriving DecidableEq, Repr

/-- A verb is accepted only from its source state. Undeploy tears down the instance but not the
lessee. -/
def setNodeProvisionState : Verb → Node → Option Node
  | .manage, node =>
    if node.provisionState = .available then some { node with provisionState := .manageable }
    else none
  | .adopt, node =>
    if node.provisionState = .manageable then some { node with provisionState := .active }
    else none
  | .provide, node =>
    if node.provisionState = .manageable then some { node with provisionState := .available }
    else none
  | .deleted, node =>
    if node.provisionState = .active then
      some { node with provisionState := .available, instanceUuid := none, instanceName := none }
    else none

/-- An instance uuid conflicts with a different one that the node carries. -/
def updateNode (stamp : Stamp) (node : Node) : Option Node :=
  if stamp.instanceUuid ≠ none ∧ node.instanceUuid ≠ none ∧
      node.instanceUuid ≠ stamp.instanceUuid then none
  else some { node with lessee := stamp.lessee, instanceUuid := stamp.instanceUuid,
                        instanceName := stamp.instanceName }

def Call.apply : Call → Node → Option Node
  | .provision verb => setNodeProvisionState verb
  | .update stamp => updateNode stamp

/-- How a call ends that Ironic would accept: it returns, it raises without effect, or it raises
after its effect (the wait for the new state times out). -/
inductive Outcome where
  | returned
  | lost
  | broken
  deriving DecidableEq, Repr

def getNode (pool : List Node) (nodeId : String) : Option Node :=
  pool.find? fun node => node.id = nodeId

def replaceNode (pool : List Node) (node : Node) : List Node :=
  pool.map fun n => if n.id = node.id then node else n

/-- The pool after a call, and whether the call returned. -/
def attempt (pool : List Node) (nodeId : String) (call : Call) (outcome : Outcome) :
    List Node × Bool :=
  match (getNode pool nodeId).bind call.apply with
  | none => (pool, false)
  | some node =>
    match outcome with
    | .returned => (replaceNode pool node, true)
    | .lost => (pool, false)
    | .broken => (replaceNode pool node, false)

def cleared : Stamp := { lessee := none, instanceUuid := none, instanceName := none }

/-- Where `_return_node_to_available` stands. -/
inductive ReturnPhase where
  | getNode
  | clear
  | clearThenProvide
  | provide
  | undeploy
  | finished
  deriving DecidableEq, Repr

/-- One call of `_return_node_to_available`; failures of its writes are only logged. -/
def returnStep (pool : List Node) (nodeId : String) (outcome : Outcome) :
    ReturnPhase → List Node × ReturnPhase
  | .getNode =>
    match outcome, getNode pool nodeId with
    | .returned, some node =>
      match node.provisionState with
      | .available => (pool, .clear)
      | .manageable => (pool, .clearThenProvide)
      | .active => (pool, .undeploy)
      | .other _ => (pool, .finished)
    | _, _ => (pool, .finished)
  | .clear => ((attempt pool nodeId (.update cleared) outcome).1, .finished)
  | .clearThenProvide => ((attempt pool nodeId (.update cleared) outcome).1, .provide)
  | .provide => ((attempt pool nodeId (.provision .provide) outcome).1, .finished)
  | .undeploy => ((attempt pool nodeId (.provision .deleted) outcome).1, .clear)
  | .finished => (pool, .finished)

structure Request where
  routerId : String
  projectId : Option String
  routerName : String
  resourceClass : String
  deriving DecidableEq, Repr

def Request.stamp (request : Request) : Stamp :=
  { lessee := request.projectId, instanceUuid := some request.routerId,
    instanceName := some request.routerName }

inductive CreatePhase where
  | idle
  | select
  | manage
  | stamp
  | adopt
  | wait
  | rollback (phase : ReturnPhase)
  | noNode
  | bound
  deriving DecidableEq, Repr

structure Create where
  request : Request
  nodeId : String
  phase : CreatePhase
  deriving DecidableEq, Repr

/-- The server-side filter, first match. -/
def availableNodeForResourceClass (pool : List Node) (resourceClass : String) : Option Node :=
  pool.find? fun node => node.driver = "netdev" ∧ node.resourceClass = resourceClass ∧
    node.provisionState = .available ∧ node.isMaintenance = false

/-- The next call of a create once the previous one of the `try` block returned. -/
def Create.advance (c : Create) (returned : Bool) (next : CreatePhase) : Create :=
  { c with phase := if returned then next else .rollback .getNode }

/-- One call of a router create: the selection, then `adopt_node_for_router`. -/
def createStep (pool : List Node) (c : Create) (outcome : Outcome) : List Node × Create :=
  match c.phase with
  | .select =>
    match outcome, availableNodeForResourceClass pool c.request.resourceClass with
    | .returned, some node => (pool, { c with nodeId := node.id, phase := .manage })
    | _, _ => (pool, { c with phase := .noNode })
  | .manage =>
    let result := attempt pool c.nodeId (.provision .manage) outcome
    (result.1, c.advance result.2 .stamp)
  | .stamp =>
    let result := attempt pool c.nodeId (.update c.request.stamp) outcome
    (result.1, c.advance result.2 .adopt)
  | .adopt =>
    let result := attempt pool c.nodeId (.provision .adopt) outcome
    (result.1, c.advance result.2 .wait)
  | .wait =>
    -- A poll that does not see the state is repeated until the timeout.
    match outcome, (getNode pool c.nodeId).map Node.provisionState with
    | .returned, some .active => (pool, { c with phase := .bound })
    | .returned, some _ => (pool, c)
    | _, _ => (pool, { c with phase := .rollback .getNode })
  | .rollback phase =>
    let result := returnStep pool c.nodeId outcome phase
    (result.1, { c with phase := .rollback result.2 })
  | _ => (pool, c)

inductive DeletePhase where
  | idle
  | find
  | returning (phase : ReturnPhase)
  deriving DecidableEq, Repr

structure Delete where
  routerId : String
  nodeId : String
  phase : DeletePhase
  deriving DecidableEq, Repr

def nodeByInstanceUuid (pool : List Node) (routerId : String) : Option Node :=
  pool.find? fun node => node.instanceUuid = some routerId

/-- One call of `release_node_for_router`. -/
def deleteStep (pool : List Node) (d : Delete) (outcome : Outcome) : List Node × Delete :=
  match d.phase with
  | .idle => (pool, d)
  | .find =>
    match outcome, nodeByInstanceUuid pool d.routerId with
    | .returned, some node => (pool, { d with nodeId := node.id, phase := .returning .getNode })
    | _, _ => (pool, { d with phase := .returning .finished })
  | .returning phase =>
    let result := returnStep pool d.nodeId outcome phase
    (result.1, { d with phase := .returning result.2 })

/-- The pool, the create of each router and the delete workers. -/
structure World where
  pool : List Node
  creates : String → Create
  deletes : ℕ → Delete

inductive Action where
  | create (request : Request)
  | stepCreate (routerId : String) (outcome : Outcome)
  | delete (worker : ℕ) (routerId : String)
  | stepDelete (worker : ℕ) (outcome : Outcome)
  deriving DecidableEq, Repr

def idleCreate : Create :=
  { request := { routerId := "", projectId := none, routerName := "", resourceClass := "" }
    nodeId := "", phase := .idle }

def idleDelete : Delete := { routerId := "", nodeId := "", phase := .idle }

def World.start (pool : List Node) : World :=
  { pool := pool, creates := fun _ => idleCreate, deletes := fun _ => idleDelete }

/-- A create starts with a router id that is new, also among the instances of the nodes. -/
def step (w : World) : Action → World
  | .create request =>
    if (w.creates request.routerId).phase = .idle ∧
        ∀ node ∈ w.pool, node.instanceUuid ≠ some request.routerId then
      { w with creates := Function.update w.creates request.routerId
                { request := request, nodeId := "", phase := .select } }
    else w
  | .stepCreate routerId outcome =>
    let result := createStep w.pool (w.creates routerId) outcome
    { w with pool := result.1, creates := Function.update w.creates routerId result.2 }
  | .delete worker routerId =>
    if (w.deletes worker).phase = .idle then
      { w with deletes := Function.update w.deletes worker
                { routerId := routerId, nodeId := "", phase := .find } }
    else w
  | .stepDelete worker outcome =>
    let result := deleteStep w.pool (w.deletes worker) outcome
    { w with pool := result.1, deletes := Function.update w.deletes worker result.2 }

def DeleteStarted (w : World) (routerId : String) : Prop :=
  ∃ worker, (w.deletes worker).phase ≠ .idle ∧ (w.deletes worker).routerId = routerId

/-- The create returned and no delete has started. -/
def Live (w : World) (routerId : String) : Prop :=
  (w.creates routerId).phase = .bound ∧ ¬ DeleteStarted w routerId

def Carries (node : Node) (request : Request) : Prop :=
  node.instanceUuid = some request.routerId ∧ node.lessee = request.projectId ∧
    node.instanceName = some request.routerName

/-- Every live router is bound to exactly one node, which is active and carries its stamps, and
no node is bound to two routers. -/
structure Exclusive (w : World) : Prop where
  bound : ∀ r, Live w r → (w.creates r).request.routerId = r ∧
    ∃ node ∈ w.pool, node.id = (w.creates r).nodeId ∧ node.provisionState = .active ∧
      Carries node (w.creates r).request ∧
      ∀ other ∈ w.pool, other.instanceUuid = some r → other = node
  distinct : ∀ r r', Live w r → Live w r' → (w.creates r).nodeId = (w.creates r').nodeId → r = r'

/-- The next call takes stamps off the node. -/
def ReturnPhase.clears : ReturnPhase → Bool
  | .clear => true
  | .clearThenProvide => true
  | .undeploy => true
  | _ => false

def carriesOther (pool : List Node) (nodeId routerId : String) : Bool :=
  pool.any fun node =>
    node.id = nodeId ∧ node.instanceUuid ≠ none ∧ node.instanceUuid ≠ some routerId

/-- A rollback or a release is about to take stamps off a node that carries the instance uuid of
another router. -/
def Trespasses (w : World) : Action → Prop
  | .stepCreate routerId _ =>
    match (w.creates routerId).phase with
    | .rollback phase => phase.clears = true ∧
        carriesOther w.pool (w.creates routerId).nodeId routerId = true
    | _ => False
  | .stepDelete worker _ =>
    match (w.deletes worker).phase with
    | .returning phase => phase.clears = true ∧
        carriesOther w.pool (w.deletes worker).nodeId (w.deletes worker).routerId = true
    | _ => False
  | _ => False

instance (w : World) (action : Action) : Decidable (Trespasses w action) := by
  unfold Trespasses
  split
  · split <;> infer_instance
  · split <;> infer_instance
  · infer_instance

end Understack.Neutron.Netdev
