import Understack.Neutron.NetdevCalls
import Understack.Neutron.RouterVniModes

/-! Routers of the Palo Alto flavor (`l3_router/palo_alto.py`). The node is adopted before the
transaction that creates the router, in which the VNI plugin may still refuse it, and released
after the router is deleted. Ironic answers every call. -/
namespace Understack.Neutron.PaloAlto
open PyText Json
open Vni (FlavorPlugin Metainfo RouterId RequestedVni RouterError getFlavor getServiceProfile)
open Netdev (Node Stamp Call Create Delete getNode replaceNode availableNodeForResourceClass
  nodeByInstanceUuid createStep deleteStep attempt)

variable {F : Type} [FloatOps F]

def anchorNetworkName : Text := "palo_alto_router_anchor_network".toList

def paloAltoProvider : Text := "neutron_understack.l3_router.palo_alto.PaloAlto".toList

/-- What a create request says of a router; `asQuery` below is how the client writes a value of the
metainfo into a query. -/
structure Router where
  id : RouterId
  name : Option String
  projectId : Option String
  flavorId : Option Text
  evpnVni : RequestedVni
  deriving DecidableEq

inductive CreateError where
  | flavors (e : RouterError)
  | noProvider (flavorId : Text)
  | flavorMisconfigured (routerId : RouterId) (flavorId : Text)
  | noNetdevNodeAvailable (resourceClass : String) (routerId : RouterId)
  | adoptionFailed (nodeId : String)
  deriving DecidableEq

omit [FloatOps F] in
def isPaloAltoProvider (plugin : FlavorPlugin F) : Option Text → Except CreateError Bool
  | none => .ok false
  | some flavorId =>
    match getFlavor plugin flavorId, plugin.nextDriver flavorId with
    | .error e, _ => .error (.flavors e)
    | .ok _, none => .error (.noProvider flavorId)
    | .ok _, some driver => .ok (driver = paloAltoProvider)

def parseMetainfo : Metainfo F → List (Text × Value F)
  | .null | .raw [] => []
  | .dict members => members
  | .raw s =>
    match loads s with
    | some (.obj members) => members
    | _ => []

/-- `bool(value)`. -/
def truthy : Value F → Bool
  | .null => false
  | .bool b => b
  | .int z => z ≠ 0
  | .float x => !FloatOps.eqInt x 0
  | .str s => !s.isEmpty
  | .arr elems => !elems.isEmpty
  | .obj members => !members.isEmpty

/-- The first profile with a resource class. -/
def firstResourceClass (plugin : FlavorPlugin F) : List Text → Except RouterError (Option (Value F))
  | [] => .ok none
  | spId :: spIds => do
    let metainfo ← getServiceProfile plugin spId
    match (parseMetainfo metainfo).lookup "resource_class".toList with
    | some resourceClass =>
      if truthy resourceClass then return some resourceClass else firstResourceClass plugin spIds
    | none => firstResourceClass plugin spIds

def resourceClassForRouter (plugin : FlavorPlugin F) (routerId : RouterId) (flavorId : Text) :
    Except CreateError (Value F) :=
  match (getFlavor plugin flavorId).bind (firstResourceClass plugin) with
  | .error e => .error (.flavors e)
  | .ok none => .error (.flavorMisconfigured routerId flavorId)
  | .ok (some resourceClass) => .ok resourceClass

/-- `router.get("name") or router["id"]`. -/
def Router.routerName (router : Router) : String :=
  match router.name with
  | some name => if name = "" then router.id else name
  | none => router.id

def Router.request (router : Router) (resourceClass : String) : Netdev.Request :=
  { routerId := router.id, projectId := router.projectId, routerName := router.routerName,
    resourceClass := resourceClass }

/-- `adopt_node_for_router`, with its rollback: at most six calls. -/
def adoptNodeForRouter (pool : List Node) (nodeId : String) (request : Netdev.Request) :
    List Node × Create :=
  (List.replicate 6 Netdev.Outcome.returned).foldl (fun p o => createStep p.1 p.2 o)
    (pool, { request := request, nodeId := nodeId, phase := .manage })

/-- `release_node_for_router`: at most four calls. -/
def releaseNodeForRouter (pool : List Node) (routerId : RouterId) : List Node :=
  ((List.replicate 4 Netdev.Outcome.returned).foldl (fun p o => deleteStep p.1 p.2 o)
    (pool, { routerId := routerId, nodeId := "", phase := .find })).1

/-- A router that was created, and whether a node was adopted for it. -/
structure Row where
  router : Router
  adopted : Bool
  deriving DecidableEq

structure World (F : Type) where
  plugin : FlavorPlugin F
  networks : List Text
  pool : List Node
  routers : List Row
  table : Vni.Table
  used : List RouterId

omit [FloatOps F] in
def ensureAnchorNetwork (w : World F) : World F :=
  if anchorNetworkName ∈ w.networks then w
  else { w with networks := anchorNetworkName :: w.networks }

/-- The hook of `BEFORE_CREATE`, and whether it adopted a node. -/
def processRouterCreate (asQuery : Value F → String) (w : World F) (router : Router) :
    World F × Except CreateError Bool :=
  match isPaloAltoProvider w.plugin router.flavorId, router.flavorId with
  | .error e, _ => (w, .error e)
  | .ok true, some flavorId =>
    match resourceClassForRouter w.plugin router.id flavorId with
    | .error e => (w, .error e)
    | .ok value =>
      match availableNodeForResourceClass w.pool (asQuery value) with
      | none => (w, .error (.noNetdevNodeAvailable (asQuery value) router.id))
      | some node =>
        let result := adoptNodeForRouter w.pool node.id (router.request (asQuery value))
        ({ ensureAnchorNetwork w with pool := result.1 },
          if result.2.phase = .bound then .ok true else .error (.adoptionFailed node.id))
  | .ok _, _ => (w, .ok false)

/-- The hook of `AFTER_DELETE`, whose errors are only logged. -/
def processRouterDelete (plugin : FlavorPlugin F) (pool : List Node) (router : Router) : List Node :=
  match isPaloAltoProvider plugin router.flavorId with
  | .ok true => releaseNodeForRouter pool router.id
  | _ => pool

inductive Action (F : Type) where
  | configure (plugin : FlavorPlugin F)
  | enroll (node : Node)
  | create (router : Router)
  | delete (routerId : RouterId) (now : ℤ)

/-- The serialized requests. The ids of routers and nodes are new ones. -/
def step (vniRanges : List Text) (asQuery : Value F → String) (w : World F) : Action F → World F
  | .configure plugin => { w with plugin }
  | .enroll node =>
    if node.id ∈ w.pool.map Node.id ∨ node.instanceUuid ≠ none then w
    else { w with pool := w.pool ++ [node] }
  | .create router =>
    if router.id ∈ w.used then w
    else
      let result := processRouterCreate asQuery { w with used := router.id :: w.used } router
      match result.2, Vni.processRouterCreate vniRanges w.plugin w.table router.id
        ⟨router.flavorId, router.evpnVni⟩ with
      | .ok adopted, .ok (table, _) =>
        { result.1 with routers := ⟨router, adopted⟩ :: w.routers, table }
      | _, _ => result.1
  | .delete routerId now =>
    match w.routers.find? fun x => x.router.id = routerId with
    | none => w
    | some x =>
      { w with routers := w.routers.filter fun x => x.router.id ≠ routerId
               table := Vni.processRouterDelete w.table routerId now
               pool := processRouterDelete w.plugin w.pool x.router }

def start (plugin : FlavorPlugin F) (pool : List Node) : World F := ⟨plugin, [], pool, [], [], []⟩

/-! What the calls do to a node. -/

variable {pool : List Node} {node : Node}

theorem getNode_of_mem (hids : (pool.map Node.id).Nodup) (hn : node ∈ pool) :
    getNode pool node.id = some node := by
  cases hget : getNode pool node.id with
  | none =>
    have hne := List.find?_eq_none.mp hget node hn
    exact absurd (decide_eq_true rfl) hne
  | some m =>
    obtain ⟨hm, hid⟩ := Netdev.getNode_some hget
    rw [List.inj_on_of_nodup_map hids hm hn hid]

theorem attempt_of_apply (hids : (pool.map Node.id).Nodup) (hn : node ∈ pool) {call : Call}
    {node' : Node} (h : call.apply node = some node') :
    attempt pool node.id call .returned = (replaceNode pool node', true) := by
  rw [attempt, getNode_of_mem hids hn, Option.bind_some, h]

@[simp] theorem map_id_replaceNode (pool : List Node) (node : Node) :
    (replaceNode pool node).map Node.id = pool.map Node.id := by
  rw [replaceNode, List.map_map]
  refine List.map_congr_left fun n _ => ?_
  rw [Function.comp_apply]
  split_ifs with heq
  · exact heq.symm
  · rfl

theorem replaceNode_replaceNode (pool : List Node) {node node' : Node} (h : node.id = node'.id) :
    replaceNode (replaceNode pool node) node' = replaceNode pool node' := by
  rw [replaceNode, replaceNode, replaceNode, List.map_map]
  refine List.map_congr_left fun n _ => ?_
  rw [Function.comp_apply]
  by_cases heq : n.id = node.id
  · rw [if_pos heq, if_pos h, if_pos (heq.trans h)]
  · rw [if_neg heq]

theorem mem_replaceNode (hids : (pool.map Node.id).Nodup) (hn : node ∈ pool) (node' : Node)
    (hid : node'.id = node.id) {n : Node} :
    n ∈ replaceNode pool node' ↔ n = node' ∨ n ∈ pool ∧ n ≠ node := by
  rw [replaceNode, List.mem_map]
  constructor
  · rintro ⟨m, hm, rfl⟩
    split_ifs with heq
    · exact Or.inl rfl
    · exact Or.inr ⟨hm, fun h => heq (h ▸ hid.symm)⟩
  · rintro (rfl | ⟨hn', hne⟩)
    · exact ⟨node, hn, if_pos hid.symm⟩
    · refine ⟨n, hn', if_neg fun heq => hne ?_⟩
      exact List.inj_on_of_nodup_map hids hn' hn (heq.trans hid)

/-- A call for the node after others. -/
theorem attempt_replaceNode (hids : (pool.map Node.id).Nodup) (hn : node ∈ pool) {call : Call}
    {m m' : Node} (hm : m.id = node.id) (hm' : m'.id = node.id) (h : call.apply m = some m') :
    attempt (replaceNode pool m) node.id call .returned = (replaceNode pool m', true) := by
  have hids' : ((replaceNode pool m).map Node.id).Nodup := by rwa [map_id_replaceNode]
  have hcall := attempt_of_apply hids' ((mem_replaceNode hids hn m hm).mpr (Or.inl rfl)) h
  rwa [hm, replaceNode_replaceNode pool (hm.trans hm'.symm)] at hcall

def managedNode (node : Node) : Node := { node with provisionState := .manageable }

def stampedNode (request : Netdev.Request) (node : Node) : Node :=
  { node with provisionState := .manageable, lessee := request.projectId,
              instanceUuid := some request.routerId, instanceName := some request.routerName }

/-- The node of a router. -/
def adoptedNode (request : Netdev.Request) (node : Node) : Node :=
  { node with provisionState := .active, lessee := request.projectId,
              instanceUuid := some request.routerId, instanceName := some request.routerName }

def undeployedNode (node : Node) : Node :=
  { node with provisionState := .available, instanceUuid := none, instanceName := none }

def freedNode (node : Node) : Node :=
  { node with provisionState := .available, lessee := none, instanceUuid := none,
              instanceName := none }

/-- A free node is adopted. -/
theorem adoptNodeForRouter_eq (hids : (pool.map Node.id).Nodup) (hn : node ∈ pool)
    (hstate : node.provisionState = .available) (hfree : node.instanceUuid = none)
    (request : Netdev.Request) :
    adoptNodeForRouter pool node.id request =
      (replaceNode pool (adoptedNode request node), ⟨request, node.id, .bound⟩) := by
  have hmanage : attempt pool node.id (.provision .manage) .returned =
      (replaceNode pool (managedNode node), true) :=
    attempt_of_apply hids hn (by simp [Call.apply, Netdev.setNodeProvisionState, hstate, managedNode])
  have hstamp : attempt (replaceNode pool (managedNode node)) node.id (.update request.stamp)
      .returned = (replaceNode pool (stampedNode request node), true) :=
    attempt_replaceNode hids hn rfl rfl
      (by simp [Call.apply, Netdev.updateNode, managedNode, stampedNode, hfree, Netdev.Request.stamp])
  have hadopt : attempt (replaceNode pool (stampedNode request node)) node.id (.provision .adopt)
      .returned = (replaceNode pool (adoptedNode request node), true) :=
    attempt_replaceNode hids hn rfl rfl
      (by simp [Call.apply, Netdev.setNodeProvisionState, stampedNode, adoptedNode])
  have hget : getNode (replaceNode pool (adoptedNode request node)) node.id =
      some (adoptedNode request node) := by
    have hids' : ((replaceNode pool (adoptedNode request node)).map Node.id).Nodup := by
      rwa [map_id_replaceNode]
    have hmem : adoptedNode request node ∈ replaceNode pool (adoptedNode request node) :=
      (mem_replaceNode hids hn (adoptedNode request node) rfl).mpr (Or.inl rfl)
    exact getNode_of_mem hids' hmem
  have hactive : (adoptedNode request node).provisionState = .active := rfl
  simp [adoptNodeForRouter, createStep, hmanage, hstamp, hadopt, hget, hactive,
    Netdev.Create.advance]

/-- The node of a router is set free. -/
theorem releaseNodeForRouter_eq (hids : (pool.map Node.id).Nodup) {r : RouterId}
    (hfind : nodeByInstanceUuid pool r = some node) (hstate : node.provisionState = .active) :
    releaseNodeForRouter pool r = replaceNode pool (freedNode node) := by
  have hn : node ∈ pool := List.mem_of_find?_eq_some hfind
  have hundeploy : attempt pool node.id (.provision .deleted) .returned =
      (replaceNode pool (undeployedNode node), true) :=
    attempt_of_apply hids hn
      (by simp [Call.apply, Netdev.setNodeProvisionState, hstate, undeployedNode])
  have hclear : attempt (replaceNode pool (undeployedNode node)) node.id (.update Netdev.cleared)
      .returned = (replaceNode pool (freedNode node), true) :=
    attempt_replaceNode hids hn rfl rfl
      (by simp [Call.apply, Netdev.updateNode, undeployedNode, freedNode, Netdev.cleared])
  simp [releaseNodeForRouter, deleteStep, hfind, Netdev.returnStep, getNode_of_mem hids hn, hstate,
    hundeploy, hclear]

/-- Without a node of the router nothing is released. -/
theorem releaseNodeForRouter_none {r : RouterId} (hfind : nodeByInstanceUuid pool r = none) :
    releaseNodeForRouter pool r = pool := by
  simp [releaseNodeForRouter, deleteStep, hfind, Netdev.returnStep]

/-! What holds of the nodes in every state. -/

/-- Nodes that are bound are active, each to another router that there was. -/
structure PoolSound (pool : List Node) (used : List RouterId) : Prop where
  ids : (pool.map Node.id).Nodup
  bound : ∀ n ∈ pool, n.instanceUuid = none ∨ n.provisionState = .active
  used : ∀ n ∈ pool, ∀ r, n.instanceUuid = some r → r ∈ used
  once : ∀ n ∈ pool, ∀ m ∈ pool, ∀ r, n.instanceUuid = some r → m.instanceUuid = some r → n = m

/-- The nodes of the router are the same. -/
def SameNodes (r : RouterId) (pool pool' : List Node) : Prop :=
  ∀ n : Node, n.instanceUuid = some r → (n ∈ pool' ↔ n ∈ pool)

/-- A row whose router has a node just where one was adopted, under its stamps. -/
structure Backed (pool : List Node) (x : Row) : Prop where
  node : x.adopted = true ↔ ∃ n ∈ pool, n.instanceUuid = some x.router.id
  stamps : ∀ n ∈ pool, n.instanceUuid = some x.router.id →
    n.lessee = x.router.projectId ∧ n.instanceName = some x.router.routerName

variable {pool' : List Node} {used used' : List RouterId} {r : RouterId} {x : Row}

theorem Backed.congr (h : Backed pool x) (hsame : SameNodes x.router.id pool pool') :
    Backed pool' x := by
  refine ⟨h.node.trans ⟨?_, ?_⟩, fun n hn hr => h.stamps n ((hsame n hr).mp hn) hr⟩
  · rintro ⟨n, hn, hr⟩
    exact ⟨n, (hsame n hr).mpr hn, hr⟩
  · rintro ⟨n, hn, hr⟩
    exact ⟨n, (hsame n hr).mp hn, hr⟩

theorem PoolSound.mono (h : PoolSound pool used) (hsub : used ⊆ used') : PoolSound pool used' :=
  ⟨h.ids, h.bound, fun n hn r hr => hsub (h.used n hn r hr), h.once⟩

theorem PoolSound.enroll (h : PoolSound pool used) (hid : node.id ∉ pool.map Node.id)
    (hnone : node.instanceUuid = none) :
    PoolSound (pool ++ [node]) used ∧ ∀ r, SameNodes r pool (pool ++ [node]) := by
  have hmem {n : Node} {r : RouterId} (hr : n.instanceUuid = some r) :
      n ∈ pool ++ [node] ↔ n ∈ pool := by
    rw [List.mem_append, List.mem_singleton, or_iff_left]
    rintro rfl
    cases hnone.symm.trans hr
  refine ⟨⟨?_, fun n hn => ?_, fun n hn r hr => h.used n ((hmem hr).mp hn) r hr,
    fun n hn m hm r hr hr' => h.once n ((hmem hr).mp hn) m ((hmem hr').mp hm) r hr hr'⟩,
    fun r n hr => hmem hr⟩
  · rw [List.map_append, List.nodup_append]
    refine ⟨h.ids, List.nodup_singleton _, ?_⟩
    rintro a ha b hb rfl
    exact hid (List.mem_singleton.mp hb ▸ ha)
  · rcases List.mem_append.mp hn with hn | hn
    · exact h.bound n hn
    · exact Or.inl (List.mem_singleton.mp hn ▸ hnone)

theorem PoolSound.adopt (h : PoolSound pool used) (hn : node ∈ pool)
    (hnone : node.instanceUuid = none) (request : Netdev.Request)
    (hfresh : request.routerId ∉ used) :
    PoolSound (replaceNode pool (adoptedNode request node)) (request.routerId :: used) ∧
      ∀ r ≠ request.routerId, SameNodes r pool (replaceNode pool (adoptedNode request node)) := by
  have hmem (n : Node) := mem_replaceNode h.ids hn (adoptedNode request node) rfl (n := n)
  have hold {n : Node} {r : RouterId} (hr : n.instanceUuid = some r) (hne : r ≠ request.routerId) :
      n ∈ replaceNode pool (adoptedNode request node) ↔ n ∈ pool := by
    rw [hmem]
    constructor
    · rintro (rfl | ⟨hn, -⟩)
      · exact absurd (Option.some.inj hr).symm hne
      · exact hn
    · intro hn
      refine Or.inr ⟨hn, ?_⟩
      rintro rfl
      cases hnone.symm.trans hr
  -- the only node of the new router
  have hnew {n : Node} (hin : n ∈ replaceNode pool (adoptedNode request node))
      (hr : n.instanceUuid = some request.routerId) : n = adoptedNode request node := by
    rcases (hmem n).mp hin with heq | ⟨hin, -⟩
    · exact heq
    · exact absurd (h.used n hin _ hr) hfresh
  refine ⟨⟨by rw [map_id_replaceNode]; exact h.ids, fun n hin => ?_, fun n hin r hr => ?_,
    fun n hin m hm r hr hr' => ?_⟩, fun r hne n hr => hold hr hne⟩
  · rcases (hmem n).mp hin with rfl | ⟨hin, -⟩
    · exact Or.inr rfl
    · exact h.bound n hin
  · by_cases hne : r = request.routerId
    · exact hne ▸ List.mem_cons_self
    · exact List.mem_cons_of_mem _ (h.used n ((hold hr hne).mp hin) r hr)
  · by_cases hne : r = request.routerId
    · subst hne
      exact (hnew hin hr).trans (hnew hm hr').symm
    · exact h.once n ((hold hr hne).mp hin) m ((hold hr' hne).mp hm) r hr hr'

theorem PoolSound.free (h : PoolSound pool used) (hn : node ∈ pool)
    (hr : node.instanceUuid = some r) :
    PoolSound (replaceNode pool (freedNode node)) used ∧
      (∀ q ≠ r, SameNodes q pool (replaceNode pool (freedNode node))) ∧
      ∀ n ∈ replaceNode pool (freedNode node), n.instanceUuid ≠ some r := by
  have hmem (n : Node) := mem_replaceNode h.ids hn (freedNode node) rfl (n := n)
  have hold {n : Node} {q : RouterId} (hq : n.instanceUuid = some q)
      (hin : n ∈ replaceNode pool (freedNode node)) : n ∈ pool ∧ n ≠ node := by
    rcases (hmem n).mp hin with rfl | hin
    · cases hq
    · exact hin
  refine ⟨⟨by rw [map_id_replaceNode]; exact h.ids, fun n hin => ?_,
    fun n hin q hq => h.used n (hold hq hin).1 q hq,
    fun n hin m hm q hq hq' => h.once n (hold hq hin).1 m (hold hq' hm).1 q hq hq'⟩,
    fun q hne n hq => ⟨fun hin => (hold hq hin).1, fun hin => (hmem n).mpr (Or.inr ⟨hin, ?_⟩)⟩,
    fun n hin hq => ?_⟩
  · rcases (hmem n).mp hin with rfl | ⟨hin, -⟩
    · exact Or.inl rfl
    · exact h.bound n hin
  · rintro rfl
    exact hne (Option.some.inj (hq.symm.trans hr))
  · obtain ⟨hin, hne⟩ := hold hq hin
    exact hne (h.once n hin node hn r hq hr)

/-! Runs of requests. -/

/-- A create adopts a node only where the VNI plugin then takes the router, and a delete of a router
with a node still finds the flavor to be a Palo Alto one. -/
def Clean (vniRanges : List Text) (asQuery : Value F → String) (w : World F) : Action F → Prop
  | .create router => router.id ∉ w.used → (processRouterCreate asQuery w router).2 = .ok true →
      ∃ res, Vni.processRouterCreate vniRanges w.plugin w.table router.id
        ⟨router.flavorId, router.evpnVni⟩ = .ok res
  | .delete routerId _ => ∀ x ∈ w.routers, x.router.id = routerId → x.adopted = true →
      isPaloAltoProvider w.plugin x.router.flavorId = .ok true
  | .configure _ | .enroll _ => True

/-- Every bound node belongs to a router that is there. -/
def NoStranded (w : World F) : Prop :=
  ∀ n ∈ w.pool, ∀ r, n.instanceUuid = some r → ∃ x ∈ w.routers, x.router.id = r

structure Sound (w : World F) : Prop where
  pool : PoolSound w.pool w.used
  backed : ∀ x ∈ w.routers, Backed w.pool x
  used : ∀ x ∈ w.routers, x.router.id ∈ w.used
  ids : (w.routers.map fun x => x.router.id).Nodup

variable {vniRanges : List Text} {asQuery : Value F → String} {w : World F}

theorem available_spec {resourceClass : String}
    (h : availableNodeForResourceClass pool resourceClass = some node) :
    node ∈ pool ∧ node.provisionState = .available := by
  have hcond := List.find?_some h
  exact ⟨List.mem_of_find?_eq_some h, (of_decide_eq_true hcond).2.2.1⟩

/-- What the hook of a create does to the pool. -/
inductive Adopts (pool : List Node) (router : Router) : Bool → List Node → Prop
  | adopted {node : Node} (hn : node ∈ pool) (hnone : node.instanceUuid = none)
      (resourceClass : String) :
      Adopts pool router true (replaceNode pool (adoptedNode (router.request resourceClass) node))
  | none : Adopts pool router false pool

/-- The hook adopts a free node, or leaves the pool alone. -/
theorem processRouterCreate_cases (asQuery : Value F → String) (h : PoolSound w.pool w.used)
    (router : Router) (used : List RouterId) :
    ∃ networks pool, (processRouterCreate asQuery { w with used } router).1 =
        { w with networks, pool, used } ∧
      ((∃ adopted, (processRouterCreate asQuery { w with used } router).2 = .ok adopted ∧
        (processRouterCreate asQuery w router).2 = .ok adopted ∧ Adopts w.pool router adopted pool) ∨
      (∃ e, (processRouterCreate asQuery { w with used } router).2 = .error e ∧
        (processRouterCreate asQuery w router).2 = .error e ∧ pool = w.pool)) := by
  unfold processRouterCreate
  dsimp only
  cases isPaloAltoProvider w.plugin router.flavorId with
  | error e => exact ⟨w.networks, w.pool, rfl, Or.inr ⟨e, rfl, rfl, rfl⟩⟩
  | ok palo =>
    cases hflavor : router.flavorId with
    | none => cases palo <;> exact ⟨w.networks, w.pool, rfl, Or.inl ⟨false, rfl, rfl, .none⟩⟩
    | some flavorId =>
      cases palo with
      | false => exact ⟨w.networks, w.pool, rfl, Or.inl ⟨false, rfl, rfl, .none⟩⟩
      | true =>
        dsimp only
        cases resourceClassForRouter w.plugin router.id flavorId with
        | error e => exact ⟨w.networks, w.pool, rfl, Or.inr ⟨e, rfl, rfl, rfl⟩⟩
        | ok value =>
          dsimp only
          cases havailable : availableNodeForResourceClass w.pool (asQuery value) with
          | none => exact ⟨w.networks, w.pool, rfl, Or.inr ⟨_, rfl, rfl, rfl⟩⟩
          | some node =>
            obtain ⟨hn, hstate⟩ := available_spec havailable
            have hnone : node.instanceUuid = none := by
              refine (h.bound node hn).resolve_right fun hactive => ?_
              cases hstate.symm.trans hactive
            dsimp only
            rw [adoptNodeForRouter_eq h.ids hn hstate hnone]
            refine ⟨(ensureAnchorNetwork w).networks, _, ?_,
              Or.inl ⟨true, rfl, rfl, .adopted hn hnone (asQuery value)⟩⟩
            unfold ensureAnchorNetwork
            dsimp only
            split_ifs <;> rfl

/-- What a request can do to the world. -/
inductive Effect (vniRanges : List Text) (asQuery : Value F → String) (w : World F) :
    Action F → World F → Prop
  | idle {a : Action F} (hclean : Clean vniRanges asQuery w a) (plugin : FlavorPlugin F)
      (networks : List Text) {used : List RouterId} (hused : w.used ⊆ used) :
      Effect vniRanges asQuery w a { w with plugin, networks, used }
  | enrolled {node : Node} (hid : node.id ∉ w.pool.map Node.id) (hnone : node.instanceUuid = none) :
      Effect vniRanges asQuery w (.enroll node) { w with pool := w.pool ++ [node] }
  | created {router : Router} {adopted : Bool} {pool : List Node} (hfresh : router.id ∉ w.used)
      (hclean : Clean vniRanges asQuery w (.create router))
      (hadopts : Adopts w.pool router adopted pool) (networks : List Text) (table : Vni.Table) :
      Effect vniRanges asQuery w (.create router)
        { w with routers := ⟨router, adopted⟩ :: w.routers, networks, pool, table,
                 used := router.id :: w.used }
  | refused {router : Router} {pool : List Node} (hfresh : router.id ∉ w.used)
      (hclean : ¬Clean vniRanges asQuery w (.create router))
      (hadopts : Adopts w.pool router true pool) (networks : List Text) :
      Effect vniRanges asQuery w (.create router)
        { w with networks, pool, used := router.id :: w.used }
  | freed {x : Row} {now : ℤ} (hx : x ∈ w.routers)
      (hclean : Clean vniRanges asQuery w (.delete x.router.id now)) {node : Node}
      (hn : node ∈ w.pool) (hr : node.instanceUuid = some x.router.id) (table : Vni.Table) :
      Effect vniRanges asQuery w (.delete x.router.id now)
        { w with routers := w.routers.filter fun y => y.router.id ≠ x.router.id, table,
                 pool := replaceNode w.pool (freedNode node) }
  | kept {x : Row} {now : ℤ} (hx : x ∈ w.routers)
      (hclean : Clean vniRanges asQuery w (.delete x.router.id now) ↔ x.adopted = false)
      (table : Vni.Table) :
      Effect vniRanges asQuery w (.delete x.router.id now)
        { w with routers := w.routers.filter fun y => y.router.id ≠ x.router.id, table }

/-- The delete of a router without a node, or under another provider, keeps the pool. -/
theorem effect_delete (h : Sound w) (hx : x ∈ w.routers) (now : ℤ) :
    Effect vniRanges asQuery w (.delete x.router.id now)
      { w with routers := w.routers.filter fun y => y.router.id ≠ x.router.id
               table := Vni.processRouterDelete w.table x.router.id now
               pool := processRouterDelete w.plugin w.pool x.router } := by
  have hself {y : Row} (hy : y ∈ w.routers) (hid : y.router.id = x.router.id) : y = x :=
    List.inj_on_of_nodup_map h.ids hy hx hid
  by_cases hpalo : isPaloAltoProvider w.plugin x.router.flavorId = .ok true
  · have hclean : Clean vniRanges asQuery w (.delete x.router.id now) := fun y hy hid _ =>
      hself hy hid ▸ hpalo
    simp only [processRouterDelete, hpalo]
    cases hfind : nodeByInstanceUuid w.pool x.router.id with
    | none =>
      rw [releaseNodeForRouter_none hfind]
      refine .kept hx (iff_of_true hclean ?_) _
      rw [← Bool.not_eq_true, (h.backed x hx).node]
      rintro ⟨n, hn, hr⟩
      exact List.find?_eq_none.mp hfind n hn (decide_eq_true hr)
    | some node =>
      have hn : node ∈ w.pool := List.mem_of_find?_eq_some hfind
      have hr : node.instanceUuid = some x.router.id := by simpa using List.find?_some hfind
      have hstate : node.provisionState = .active :=
        (h.pool.bound node hn).resolve_left fun hnone => by cases hnone.symm.trans hr
      rw [releaseNodeForRouter_eq h.pool.ids hfind hstate]
      exact .freed hx hclean hn hr _
  · have hpool : processRouterDelete w.plugin w.pool x.router = w.pool := by
      unfold processRouterDelete
      split
      · exact absurd ‹_› hpalo
      · rfl
    rw [hpool]
    refine .kept hx ⟨fun hclean => ?_, fun hplain y hy hid hadopted => ?_⟩ _
    · exact Bool.eq_false_iff.mpr fun hadopted => hpalo (hclean x hx rfl hadopted)
    · rw [hself hy hid, hplain] at hadopted
      cases hadopted

theorem effect_create (h : Sound w) (router : Router) (hfresh : router.id ∉ w.used) :
    Effect vniRanges asQuery w (.create router) (step vniRanges asQuery w (.create router)) := by
  obtain ⟨networks, pool, hworld, hresult⟩ :=
    processRouterCreate_cases asQuery h.pool router (router.id :: w.used)
  have hidle (hne : (processRouterCreate asQuery w router).2 ≠ .ok true) :
      Effect vniRanges asQuery w (.create router) { w with networks, used := router.id :: w.used } :=
    .idle (show Clean vniRanges asQuery w (.create router) from fun _ htrue => absurd htrue hne)
      w.plugin networks (List.subset_cons_self _ _)
  rw [step, if_neg hfresh]
  dsimp only
  rcases hresult with ⟨adopted, hresult, hhook, hadopts⟩ | ⟨e, hresult, hhook, rfl⟩
  · rw [hresult, hworld]
    cases hvni : Vni.processRouterCreate vniRanges w.plugin w.table router.id
      ⟨router.flavorId, router.evpnVni⟩ with
    | ok res => exact .created hfresh (fun _ _ => ⟨res, hvni⟩) hadopts networks res.1
    | error e =>
      cases adopted with
      | true =>
        refine .refused hfresh (fun hclean => ?_) hadopts networks
        obtain ⟨res, hres⟩ := hclean hfresh hhook
        cases hvni.symm.trans hres
      | false =>
        cases hadopts
        exact hidle (by simp [hhook])
  · rw [hresult, hworld]
    exact hidle (by simp [hhook])

theorem step_effect (h : Sound w) (a : Action F) :
    Effect vniRanges asQuery w a (step vniRanges asQuery w a) := by
  have hsame {a : Action F} (hclean : Clean vniRanges asQuery w a) : Effect vniRanges asQuery w a w :=
    .idle hclean w.plugin w.networks (List.Subset.refl _)
  cases a with
  | configure plugin =>
    have hclean : Clean vniRanges asQuery w (.configure plugin) := trivial
    exact .idle hclean plugin w.networks (List.Subset.refl _)
  | enroll node =>
    rw [step]
    split_ifs with hguard
    · exact hsame trivial
    · obtain ⟨hid, hnone⟩ := not_or.mp hguard
      exact .enrolled hid (not_not.mp hnone)
  | create router =>
    by_cases hused : router.id ∈ w.used
    · rw [step, if_pos hused]
      exact hsame fun hfresh => absurd hused hfresh
    · exact effect_create h router hused
  | delete routerId now =>
    rw [step]
    cases hfind : w.routers.find? fun x => x.router.id = routerId with
    | none =>
      refine hsame fun x hx hid => ?_
      exact absurd (decide_eq_true hid) (List.find?_eq_none.mp hfind x hx)
    | some x =>
      obtain rfl : x.router.id = routerId := by simpa using List.find?_some hfind
      exact effect_delete h (List.mem_of_find?_eq_some hfind) now

/-- The rows other than the one of a deleted router. -/
theorem mem_others {rows : List Row} {y : Row} :
    y ∈ rows.filter (fun y => y.router.id ≠ r) ↔ y ∈ rows ∧ y.router.id ≠ r := by
  simp

theorem Adopts.sound {router : Router} {adopted : Bool} (hadopts : Adopts pool router adopted pool')
    (h : PoolSound pool used) (hfresh : router.id ∉ used) :
    PoolSound pool' (router.id :: used) ∧ (∀ r ≠ router.id, SameNodes r pool pool') ∧
      Backed pool' ⟨router, adopted⟩ := by
  have hunbound : ∀ n ∈ pool, n.instanceUuid ≠ some router.id := fun n hn hr =>
    hfresh (h.used n hn router.id hr)
  cases hadopts with
  | none =>
    refine ⟨h.mono (List.subset_cons_self _ _), fun r _ n _ => Iff.rfl, ⟨?_, fun n hn hr => ?_⟩⟩
    · simpa using hunbound
    · exact absurd hr (hunbound n hn)
  | @adopted node hn hnone resourceClass =>
    obtain ⟨hsound, hsame⟩ := h.adopt hn hnone (router.request resourceClass) hfresh
    have hmem (n : Node) :=
      mem_replaceNode h.ids hn (adoptedNode (router.request resourceClass) node) rfl (n := n)
    refine ⟨hsound, hsame, ⟨iff_of_true rfl ⟨_, (hmem _).mpr (Or.inl rfl), rfl⟩, fun n hin hr => ?_⟩⟩
    rcases (hmem n).mp hin with rfl | ⟨hin, -⟩
    · exact ⟨rfl, rfl⟩
    · exact absurd hr (hunbound n hin)

theorem Sound.step (h : Sound w) (a : Action F) : Sound (step vniRanges asQuery w a) := by
  have heffect : Effect vniRanges asQuery w a _ := step_effect h a
  generalize PaloAlto.step vniRanges asQuery w a = w' at heffect
  have hbacked {pool' : List Node} (hsame : ∀ y ∈ w.routers, SameNodes y.router.id w.pool pool') :
      ∀ y ∈ w.routers, Backed pool' y := fun y hy => (h.backed y hy).congr (hsame y hy)
  have hnew {router : Router} (hfresh : router.id ∉ w.used) :
      ∀ y ∈ w.routers, y.router.id ≠ router.id := fun y hy heq => hfresh (heq ▸ h.used y hy)
  cases heffect with
  | idle hclean plugin networks hused =>
    exact ⟨h.pool.mono hused, h.backed, fun y hy => hused (h.used y hy), h.ids⟩
  | enrolled hid hnone =>
    obtain ⟨hpool, hsame⟩ := h.pool.enroll hid hnone
    exact ⟨hpool, hbacked fun y _ => hsame y.router.id, h.used, h.ids⟩
  | @created router adopted pool hfresh hclean hadopts networks table =>
    obtain ⟨hpool, hsame, hrow⟩ := hadopts.sound h.pool hfresh
    refine ⟨hpool, ?_, ?_, ?_⟩
    · exact List.forall_mem_cons.mpr ⟨hrow, hbacked fun y hy => hsame _ (hnew hfresh y hy)⟩
    · exact List.forall_mem_cons.mpr ⟨List.mem_cons_self, fun y hy =>
        List.mem_cons_of_mem _ (h.used y hy)⟩
    · refine List.nodup_cons.mpr ⟨fun hmem => ?_, h.ids⟩
      obtain ⟨y, hy, hid⟩ := List.mem_map.mp hmem
      exact hnew hfresh y hy hid
  | refused hfresh hclean hadopts networks =>
    obtain ⟨hpool, hsame, -⟩ := hadopts.sound h.pool hfresh
    exact ⟨hpool, hbacked fun y hy => hsame _ (hnew hfresh y hy),
      fun y hy => List.mem_cons_of_mem _ (h.used y hy), h.ids⟩
  | freed hx hclean hn hr table =>
    obtain ⟨hpool, hsame, -⟩ := h.pool.free hn hr
    refine ⟨hpool, fun y hy => ?_, fun y hy => h.used y (mem_others.mp hy).1,
      (List.filter_sublist.map _).nodup h.ids⟩
    obtain ⟨hy, hne⟩ := mem_others.mp hy
    exact (h.backed y hy).congr (hsame _ hne)
  | kept hx hclean table =>
    exact ⟨h.pool, fun y hy => h.backed y (mem_others.mp hy).1,
      fun y hy => h.used y (mem_others.mp hy).1, (List.filter_sublist.map _).nodup h.ids⟩

/-- A request leaves a node stranded just where it is not a clean one. -/
theorem noStranded_step_iff (h : Sound w) (hno : NoStranded w) (a : Action F) :
    NoStranded (step vniRanges asQuery w a) ↔ Clean vniRanges asQuery w a := by
  have heffect : Effect vniRanges asQuery w a _ := step_effect h a
  generalize PaloAlto.step vniRanges asQuery w a = w' at heffect
  cases heffect with
  | idle hclean plugin networks hused => exact iff_of_true hno hclean
  | @enrolled node hid hnone =>
    have hclean : Clean vniRanges asQuery w (.enroll node) := trivial
    refine iff_of_true (fun n hn r hr => hno n ?_ r hr) hclean
    exact ((h.pool.enroll hid hnone).2 r n hr).mp hn
  | @created router adopted pool hfresh hclean hadopts networks table =>
    obtain ⟨-, hsame, -⟩ := hadopts.sound h.pool hfresh
    refine iff_of_true (fun n hn r hr => ?_) hclean
    by_cases hne : r = router.id
    · exact ⟨_, List.mem_cons_self, hne.symm⟩
    · obtain ⟨y, hy, hid⟩ := hno n ((hsame r hne n hr).mp hn) r hr
      exact ⟨y, List.mem_cons_of_mem _ hy, hid⟩
  | @refused router pool hfresh hclean hadopts networks =>
    obtain ⟨-, -, hrow⟩ := hadopts.sound h.pool hfresh
    refine iff_of_false (fun hno => ?_) hclean
    obtain ⟨n, hn, hr⟩ := hrow.node.mp rfl
    obtain ⟨y, hy, hid⟩ := hno n hn _ hr
    exact hfresh (hid ▸ h.used y hy)
  | @freed x now hx hclean node hn hr table =>
    obtain ⟨-, hsame, hgone⟩ := h.pool.free hn hr
    refine iff_of_true (fun n hin q hq => ?_) hclean
    have hne : q ≠ x.router.id := fun heq => hgone n hin (heq ▸ hq)
    obtain ⟨y, hy, rfl⟩ := hno n ((hsame q hne n hq).mp hin) q hq
    exact ⟨y, mem_others.mpr ⟨hy, hne⟩, rfl⟩
  | @kept x now hx hclean table =>
    rw [hclean, ← Bool.not_eq_true, (h.backed x hx).node]
    constructor
    · rintro hno ⟨n, hn, hr⟩
      obtain ⟨y, hy, hid⟩ := hno n hn _ hr
      exact (mem_others.mp hy).2 hid
    · intro hnone n hn q hq
      obtain ⟨y, hy, rfl⟩ := hno n hn q hq
      refine ⟨y, mem_others.mpr ⟨hy, fun heq => hnone ⟨n, hn, heq ▸ hq⟩⟩, rfl⟩

/-- The node of a router that is gone is left alone. -/
theorem stranded_step (h : Sound w) (hused : r ∈ w.used) (hgone : ∀ x ∈ w.routers, x.router.id ≠ r)
    (a : Action F) :
    r ∈ (step vniRanges asQuery w a).used ∧
      (∀ x ∈ (step vniRanges asQuery w a).routers, x.router.id ≠ r) ∧
        SameNodes r w.pool (step vniRanges asQuery w a).pool := by
  have heffect : Effect vniRanges asQuery w a _ := step_effect h a
  generalize PaloAlto.step vniRanges asQuery w a = w' at heffect
  have hother {router : Router} (hfresh : router.id ∉ w.used) : r ≠ router.id :=
    fun heq => hfresh (heq ▸ hused)
  cases heffect with
  | idle hclean plugin networks hsub => exact ⟨hsub hused, hgone, fun n _ => Iff.rfl⟩
  | enrolled hid hnone => exact ⟨hused, hgone, (h.pool.enroll hid hnone).2 r⟩
  | created hfresh hclean hadopts networks table =>
    obtain ⟨-, hsame, -⟩ := hadopts.sound h.pool hfresh
    exact ⟨List.mem_cons_of_mem _ hused,
      List.forall_mem_cons.mpr ⟨(hother hfresh).symm, hgone⟩, hsame r (hother hfresh)⟩
  | refused hfresh hclean hadopts networks =>
    obtain ⟨-, hsame, -⟩ := hadopts.sound h.pool hfresh
    exact ⟨List.mem_cons_of_mem _ hused, hgone, hsame r (hother hfresh)⟩
  | freed hx hclean hn hr table =>
    obtain ⟨-, hsame, -⟩ := h.pool.free hn hr
    exact ⟨hused, fun y hy => hgone y (mem_others.mp hy).1, hsame r (hgone _ hx).symm⟩
  | kept hx hclean table =>
    exact ⟨hused, fun y hy => hgone y (mem_others.mp hy).1, fun n _ => Iff.rfl⟩

theorem stranded_foldl (h : Sound w) (hused : r ∈ w.used)
    (hgone : ∀ x ∈ w.routers, x.router.id ≠ r) (as : List (Action F)) :
    SameNodes r w.pool (as.foldl (step vniRanges asQuery) w).pool := by
  induction as generalizing w with
  | nil => exact fun n _ => Iff.rfl
  | cons a as ih =>
    obtain ⟨hused', hgone', hsame⟩ := stranded_step h hused hgone a
    exact fun n hn => (ih (h.step a) hused' hgone' n hn).trans (hsame n hn)

omit [FloatOps F] in
theorem sound_start (plugin : FlavorPlugin F) (hids : (pool.map Node.id).Nodup)
    (hfree : ∀ n ∈ pool, n.instanceUuid = none) : Sound (start plugin pool) := by
  have hbound {n : Node} (hn : n ∈ pool) {q : RouterId} : n.instanceUuid ≠ some q := by
    simp [hfree n hn]
  refine ⟨⟨hids, fun n hn => Or.inl (hfree n hn), fun n hn q hq => absurd hq (hbound hn),
    fun n hn _ _ q hq => absurd hq (hbound hn)⟩, ?_, ?_, List.nodup_nil⟩ <;>
    exact fun x hx => by cases hx

/-- Every router that a node was adopted for has its node; a node is left to no router just in the
runs with a create or a delete that is not clean; and such a node is never set free again. -/
theorem palo_alto_nodes_accounted (vniRanges : List Text) (asQuery : Value F → String)
    (plugin : FlavorPlugin F) {pool : List Node} (hids : (pool.map Node.id).Nodup)
    (hfree : ∀ n ∈ pool, n.instanceUuid = none) (as : List (Action F)) :
    (∀ x ∈ (as.foldl (step vniRanges asQuery) (start plugin pool)).routers, x.adopted = true →
      ∃! n, n ∈ (as.foldl (step vniRanges asQuery) (start plugin pool)).pool ∧
        n.instanceUuid = some x.router.id ∧ n.provisionState = .active ∧
          n.lessee = x.router.projectId ∧ n.instanceName = some x.router.routerName) ∧
    ((∀ pre, pre <+: as → NoStranded (pre.foldl (step vniRanges asQuery) (start plugin pool))) ↔
      Runs.Along (step vniRanges asQuery) (Clean vniRanges asQuery) (start plugin pool) as) ∧
    ∀ pre, pre <+: as → ∀ n ∈ (pre.foldl (step vniRanges asQuery) (start plugin pool)).pool, ∀ r,
      n.instanceUuid = some r →
        (∀ x ∈ (pre.foldl (step vniRanges asQuery) (start plugin pool)).routers,
          x.router.id ≠ r) →
          n ∈ (as.foldl (step vniRanges asQuery) (start plugin pool)).pool := by
  have hstart := sound_start plugin hids hfree
  have hsound (as : List (Action F)) :
      Sound (as.foldl (step vniRanges asQuery) (start plugin pool)) :=
    List.foldlRecOn as (motive := Sound) _ hstart fun w hw a _ => hw.step a
  refine ⟨fun x hx hadopted => ?_, ?_, ?_⟩
  · have h := hsound as
    obtain ⟨n, hn, hr⟩ := (h.backed x hx).node.mp hadopted
    obtain ⟨hlessee, hname⟩ := (h.backed x hx).stamps n hn hr
    have hactive := (h.pool.bound n hn).resolve_left (by simp [hr])
    exact ⟨n, ⟨hn, hr, hactive, hlessee, hname⟩, fun m ⟨hm, hr', _⟩ =>
      h.pool.once m hm n hn _ hr' hr⟩
  · have hnone : NoStranded (start plugin pool) := fun n hn r hr => by
      cases (hfree n hn).symm.trans hr
    rw [← Runs.Along.iff_invariant (I := fun w => Sound w ∧ NoStranded w)
      (fun w a ⟨hw, hno⟩ => (and_iff_right (hw.step a)).trans (noStranded_step_iff hw hno a))
      ⟨hstart, hnone⟩ as]
    exact forall₂_congr fun pre _ => (and_iff_right (hsound pre)).symm
  · rintro pre ⟨rest, rfl⟩ n hn r hr hgone
    rw [List.foldl_append]
    have h := hsound pre
    exact (stranded_foldl h (h.pool.used n hn r hr) hgone rest n hr).mpr hn

/-- A string is written into a query as it is. -/
def strQuery : Value Text → String
  | .str s => String.ofList s
  | _ => ""

def firewallFlavor : FlavorPlugin Text where
  serviceProfiles flavorId := some [flavorId]
  metainfo _ := some (.raw "\x7b\"resource_class\": \"fw\"\x7d".toList)
  nextDriver _ := some paloAltoProvider

def firewallNode : Node :=
  { id := "n1", driver := "netdev", resourceClass := "fw", isMaintenance := false,
    provisionState := .available, lessee := none, instanceUuid := none, instanceName := none }

/-- The first router is refused for its VNI after the only node is adopted for it. -/
def refusedThenPlain : List (Action Text) :=
  [.create ⟨"r1", some "edge", some "p1", some "pa".toList, .number 7⟩,
    .create ⟨"r2", none, some "p1", some "pa".toList, .notSpecified⟩]

theorem palo_alto_nodes_accounted_refused :
    { firewallNode with provisionState := .active, lessee := some "p1", instanceUuid := some "r1",
                        instanceName := some "edge" } ∈
      (refusedThenPlain.foldl (step ["7".toList] strQuery)
        (start firewallFlavor [firewallNode])).pool :=
  (palo_alto_nodes_accounted ["7".toList] strQuery firewallFlavor (by decide) (by decide)
    refusedThenPlain).2.2 (refusedThenPlain.take 1) (List.take_prefix 1 _) _ (by decide +kernel) "r1"
    rfl (by decide +kernel)

end Understack.Neutron.PaloAlto
