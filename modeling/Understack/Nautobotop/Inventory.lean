import Mathlib.Data.Fintype.OfMap
import Understack.Lib.KeyedTable
import Understack.Lib.PostOrder
import Understack.Nautobotop.Reconcile
import Understack.Nautobotop.SyncById

/-! What the passes of `internal/nautobot/sync` do together: objects of all kinds with the
references between them, the pass of each kind, and `Reconcile` over all of them. Attributes that hold no
reference are values of an arbitrary type. Calls succeed, but Nautobot refuses to destroy what
another object refers to. -/
namespace Understack.Nautobotop.Inventory
open PyText Reconcile

/-- A kind for each resource, and the statuses, which no pass writes. -/
inductive Kind where
  | locationTypes | rir | role | deviceType | tenantGroup | clusterType | clusterGroup | location
  | tenant | rackGroup | vlanGroup | rack | ipamNamespace | device | vlan | cluster | ipPrefix
  | permissionGroup | status
  deriving DecidableEq

def Kind.resource : Kind → Text
  | .locationTypes => "locationTypes".toList
  | .rir => "rir".toList
  | .role => "role".toList
  | .deviceType => "deviceType".toList
  | .tenantGroup => "tenantGroup".toList
  | .clusterType => "clusterType".toList
  | .clusterGroup => "clusterGroup".toList
  | .location => "location".toList
  | .tenant => "tenant".toList
  | .rackGroup => "rackGroup".toList
  | .vlanGroup => "vlanGroup".toList
  | .rack => "rack".toList
  | .ipamNamespace => "namespace".toList
  | .device => "device".toList
  | .vlan => "vlan".toList
  | .cluster => "cluster".toList
  | .ipPrefix => "prefix".toList
  | .permissionGroup => "permissionGroup".toList
  | .status => "status".toList

/-- The kinds in the order in which they are synced. -/
def Kind.order : List Kind :=
  [.clusterGroup, .clusterType, .deviceType, .locationTypes, .location, .permissionGroup,
    .rackGroup, .rack, .rir, .role, .tenantGroup, .tenant, .device, .cluster, .ipamNamespace,
    .vlanGroup, .vlan, .ipPrefix]

instance : Fintype Kind := Fintype.ofList (.status :: Kind.order) fun k => by cases k <;> decide

/-- Entries of these kinds nest. -/
def Kind.isTree (k : Kind) : Bool := k = .locationTypes ∨ k = .location ∨ k = .rackGroup

variable {A : Type}

/-- The ids that an object refers to, one for each kind; its parent is of its own kind, and a device
refers to its cluster. -/
structure Object (A : Type) where
  kind : Kind
  id : Text
  name : Text
  refs : Kind → Option Text
  attrs : A

def Object.key (v : Object A) : Kind × Text := (v.kind, v.id)

/-- The objects with the ids of those that the operator's user created. -/
structure Nautobot (A : Type) where
  objects : List (Object A)
  createdBy : List Text

/-- An entry of the YAML with the names that it gives for references; of a list of locations that is
the first. The devices are those of a cluster. The other attributes of the request may rest on
lookups, and there are none where a date does not parse. -/
structure Entry (A : Type) where
  id : Text
  name : Text
  refers : Kind → Option Text
  devices : List Text
  attrs : (Kind → Text → Option Text) → Option A

inductive Tree (A : Type) where
  | node (entry : Entry A) (children : List (Tree A))

def Tree.entry : Tree A → Entry A
  | .node e _ => e

def Tree.children : Tree A → List (Tree A)
  | .node _ children => children

/-- `yaml.Unmarshal` of the files of a kind, all of which decode. Permissions have no ids; those
without a name or without actions, which are skipped, are left out. -/
structure Decoder (A : Type) where
  forest : Kind → Data → List (Tree A)
  empty : ∀ k, forest k [] = []
  flat : ∀ k data, k.isTree = false → ∀ tree ∈ forest k data, tree.children = []
  noId : ∀ data, ∀ tree ∈ forest .permissionGroup data, tree.entry.id = []

/-- What Nautobot and the ranges over maps decide: which object of a name a lookup answers, the
order of listings, files and keys, how much of a list of devices fits on its first page, the ids and
attributes of what is stored, and whether attributes compare equal. -/
structure Env (A : Type) where
  found : List (Object A) → Kind → Text → Option (Object A)
  found_some : ∀ objects k name v, found objects k name = some v →
    v ∈ objects ∧ v.kind = k ∧ v.name = name
  found_none : ∀ objects k name, found objects k name = none →
    ∀ v ∈ objects, v.kind = k → v.name ≠ name
  listing : List (Object A) → List (Object A)
  listing_perm : ∀ objects, (listing objects).Perm objects
  firstPage : List (Object A) → List (Object A)
  firstPage_subset : ∀ objects, firstPage objects ⊆ objects
  ranged : List Text → List Text
  ranged_perm : ∀ keys, (ranged keys).Perm keys
  files : List (Tree A) → List (Tree A)
  files_perm : ∀ forest, (files forest).Perm forest
  newId : List (Object A) → Text
  newId_fresh : ∀ objects, ∀ v ∈ objects, v.id ≠ newId objects
  sameAttrs : A → A → Bool
  storedAttrs : Option A → A → A

/-- How the name of a reference is used: without an object of that name the pass stops, or the
reference is left out; an empty name is looked up all the same, or not. -/
inductive Need where
  | required
  | requiredIfNamed
  | requiredFirst
  | optional
  | optionalIfNamed
  deriving DecidableEq

/-- The references that `syncSingle` looks up for each kind, the parents in a tree apart. -/
def references : Kind → List (Kind × Need)
  | .location => [(.locationTypes, .required), (.status, .required)]
  | .rackGroup => [(.location, .required)]
  | .rack => [(.location, .required), (.status, .required), (.rackGroup, .requiredIfNamed)]
  | .device => [(.deviceType, .required), (.status, .required), (.role, .required),
      (.location, .required), (.rack, .requiredIfNamed), (.tenant, .requiredIfNamed),
      (.vlanGroup, .optionalIfNamed)]
  | .cluster => [(.clusterType, .required), (.clusterGroup, .requiredIfNamed),
      (.location, .optionalIfNamed)]
  | .tenantGroup => [(.tenantGroup, .optionalIfNamed)]
  | .tenant => [(.tenantGroup, .optionalIfNamed)]
  | .vlanGroup => [(.location, .optional)]
  | .ipamNamespace => [(.location, .optionalIfNamed), (.tenant, .optionalIfNamed)]
  | .vlan => [(.status, .required), (.role, .requiredIfNamed), (.location, .requiredFirst),
      (.vlanGroup, .optionalIfNamed), (.tenant, .optionalIfNamed)]
  | .ipPrefix => [(.status, .required), (.ipamNamespace, .requiredIfNamed),
      (.role, .requiredIfNamed), (.rir, .requiredIfNamed), (.location, .requiredFirst),
      (.vlan, .optionalIfNamed), (.tenant, .optionalIfNamed)]
  | .locationTypes | .rir | .role | .deviceType | .clusterType | .clusterGroup | .permissionGroup
  | .status => []

def Entry.named (e : Entry A) (t : Kind) : Option Text := (e.refers t).filter (· ≠ [])

/-- The name that is looked up for a reference, and whether it has to be found. -/
def wanted (k : Kind) (e : Entry A) (t : Kind) : Option (Text × Bool) :=
  match (references k).lookup t with
  | none => none
  | some .required => some ((e.refers t).getD [], true)
  | some .requiredIfNamed => (e.named t).map (·, true)
  | some .requiredFirst => (e.refers t).map (·, true)
  | some .optional => some ((e.refers t).getD [], false)
  | some .optionalIfNamed => (e.named t).map (·, false)

structure Request (A : Type) where
  id : Option Text
  refs : Kind → Option Text
  attrs : A

section Pass

variable (env : Env A) (k : Kind)

def lookup (s : Nautobot A) (t : Kind) (name : Text) : Option Text :=
  (env.found s.objects t name).map Object.id

/-- A name that has to be found is not. -/
def missing (s : Nautobot A) (e : Entry A) (t : Kind) : Bool :=
  match wanted k e t with
  | some (name, true) => (lookup env s t name).isNone
  | _ => false

/-- The request for an entry below `parent`. -/
def request (parent : Option Text) (s : Nautobot A) (e : Entry A) : Option (Request A) :=
  if ∃ t, missing env k s e t then none
  else
    (e.attrs (lookup env s)).map fun attrs =>
      ⟨SyncPass.optionalID e.id,
        fun t => (if t = k then parent else none).or
          ((wanted k e t).bind fun w => lookup env s t w.1),
        attrs⟩

/-- Permissions are found by their name, and a prefix without an id by its text. -/
def existing (s : Nautobot A) (e : Entry A) : Option (Object A) :=
  if k = .permissionGroup ∨ k = .ipPrefix ∧ e.id = [] then env.found s.objects k e.name
  else if e.id = [] then none
  else s.objects.find? fun v => v.key = (k, e.id)

/-- A device without a name has none in its request. -/
def unnamed (e : Entry A) : Bool := k = .device ∧ e.name = []

/-- Relationships are not compared. -/
def compared (t : Kind) : Bool := ¬(k = .device ∧ t = .vlanGroup)

/-- `CompareJSONFields`, which is not called for permissions. -/
def unchanged (e : Entry A) (req : Request A) (v : Object A) : Bool :=
  k ≠ .permissionGroup ∧ (unnamed k e ∨ v.name = e.name) ∧
    (∀ t, compared k t → req.refs t = none ∨ v.refs t = req.refs t) ∧
    env.sameAttrs v.attrs req.attrs

def updated (e : Entry A) (req : Request A) (v : Object A) : Object A :=
  { v with
    name := if unnamed k e then v.name else e.name
    refs := fun t => (req.refs t).or (v.refs t)
    attrs := env.storedAttrs (some v.attrs) req.attrs }

def created (e : Entry A) (req : Request A) (id : Text) : Object A :=
  ⟨k, id, e.name, req.refs, env.storedAttrs none req.attrs⟩

/-- The id of the object that an entry finds or makes. -/
def store (e : Entry A) (req : Request A) (s : Nautobot A) : Text × Nautobot A :=
  match existing env k s e with
  | some v =>
    if unchanged env k e req v then (v.id, s)
    else
      (v.id, { s with
        objects := KeyedTable.replace Object.key (updated env k e req v) s.objects })
  | none =>
    let id := req.id.getD (env.newId s.objects)
    (id, ⟨s.objects ++ [created env k e req id], id :: s.createdBy⟩)

def assignToCluster (cluster : Option Text) (s : Nautobot A) (id : Text) : Nautobot A :=
  { s with objects := s.objects.map fun v =>
      if v.key = (.device, id) then { v with refs := Function.update v.refs .cluster cluster }
      else v }

/-- Two maps from names to ids. -/
def syncClusterDevices (clusterID : Text) (desiredDeviceNames : List Text) (s : Nautobot A) :
    Nautobot A :=
  let desiredDeviceIDs := (desiredDeviceNames.filterMap fun name =>
    (lookup env s .device name).map (name, ·)).foldl (fun m d => PyDict.put d.1 d.2 m) []
  let currentDeviceIDs := (env.firstPage (s.objects.filter fun v =>
    v.kind = .device ∧ v.refs .cluster = some clusterID)).foldl
      (fun m v => PyDict.put v.name v.id m) []
  let assigned := ((env.ranged (desiredDeviceIDs.map Prod.fst)).filter
    (· ∉ currentDeviceIDs.map Prod.fst)).filterMap fun name => desiredDeviceIDs.lookup name
  let unassigned := ((env.ranged (currentDeviceIDs.map Prod.fst)).filter
    (· ∉ desiredDeviceIDs.map Prod.fst)).filterMap fun name => currentDeviceIDs.lookup name
  unassigned.foldl (assignToCluster none)
    (assigned.foldl (assignToCluster (some clusterID)) s)

/-- The id of the entry's object, or none where the pass stops. -/
def syncSingle (parent : Option Text) (s : Nautobot A) (e : Entry A) :
    Option Text × Nautobot A :=
  match request env k parent s e with
  | none => (none, s)
  | some req =>
    let (id, s) := store env k e req s
    (some id, if k = .cluster ∧ e.devices ≠ [] then syncClusterDevices env id e.devices s else s)

mutual

/-- The ids of the objects that the entries of a tree found or made. -/
def syncRecursive (parent : Option Text) (s : Nautobot A) :
    Tree A → Option (List Text) × Nautobot A
  | .node e children =>
    match syncSingle env k parent s e with
    | (none, s) => (none, s)
    | (some id, s) =>
      let (ids, s) := syncForest (some id) s children
      (ids.map (id :: ·), s)
termination_by structural tree => tree

def syncForest (parent : Option Text) (s : Nautobot A) :
    List (Tree A) → Option (List Text) × Nautobot A
  | [] => (some [], s)
  | tree :: forest =>
    match syncRecursive parent s tree with
    | (none, s) => (none, s)
    | (some ids, s) =>
      let (ids', s) := syncForest parent s forest
      (ids'.map (ids ++ ·), s)
termination_by structural forest => forest

end

/-- Another object refers to this one. -/
def Nautobot.referenced (s : Nautobot A) (id : Text) : Bool :=
  s.objects.any fun v => v.refs k = some id ∧ v.key ≠ (k, id)

/-- What another user created is kept, and Nautobot's refusal is ignored. -/
def destroy (s : Nautobot A) (id : Text) : Nautobot A :=
  if id ∈ s.createdBy ∧ s.referenced k id = false then
    { s with objects := s.objects.filter fun v => v.key ≠ (k, id) }
  else s

def resource : CachedService.Resource (Object A) (Request A) :=
  ⟨Object.id, Object.name, Request.id⟩

/-- The last listed object of each name that no entry has. -/
abbrev Obsolete (A : Type) := List (Text × Object A)

def idToName (obsolete : Obsolete A) (id : Text) : Option Text :=
  (obsolete.find? fun e => e.2.id = id).map Prod.fst

def childrenMap (obsolete : Obsolete A) (name : Text) : List Text :=
  (env.ranged (obsolete.map Prod.fst)).filter fun child =>
    (obsolete.lookup child).bind (fun v => (v.refs k).bind (idToName obsolete)) = some name

/-- The names in the order of their removal; none where the recursion over a tree does not end. -/
def removalOrder (obsolete : Obsolete A) : Option (List Text) :=
  let names := env.ranged (obsolete.map Prod.fst)
  if k.isTree then
    (PostOrder.visitAll (childrenMap env k obsolete) (obsolete.length + 1) names).map List.reverse
  else some names

/-- Prefixes are removed by the ids of those that no entry found or made, permissions never. -/
def deleteObsolete (names synced : List Text) (s : Nautobot A) : Option (Nautobot A) :=
  let existing := env.listing (s.objects.filter fun v => v.kind = k)
  if k = .permissionGroup then some s
  else if k = .ipPrefix then
    some (((existing.map Object.id).filter (· ∉ synced)).foldl (destroy k) s)
  else
    let obsolete := SyncById.obsolete resource existing names
    (removalOrder env k obsolete).map fun order =>
      (order.filterMap fun name => (obsolete.lookup name).map Object.id).foldl (destroy k) s

end Pass

mutual

/-- The entries of a tree with those that they are below, in the order of the recursion. -/
def Tree.placed (parent : Option (Entry A)) : Tree A → List (Entry A × Option (Entry A))
  | .node e children => (e, parent) :: placedAll (some e) children
termination_by structural tree => tree

def placedAll (parent : Option (Entry A)) : List (Tree A) → List (Entry A × Option (Entry A))
  | [] => []
  | tree :: forest => tree.placed parent ++ placedAll parent forest
termination_by structural forest => forest

end

def entries (forest : List (Tree A)) : List (Entry A) := (placedAll none forest).map Prod.fst

/-- Whether the pass of a kind succeeds, and what it leaves; none where it does not return. -/
def syncAll (dec : Decoder A) (env : Env A) (k : Kind) (data : Data) (s : Nautobot A) :
    Option (Bool × Nautobot A) :=
  if data = [] then some (true, s)
  else
    match syncForest env k none s (env.files (dec.forest k data)) with
    | (none, s) => some (false, s)
    | (some ids, s) =>
      (deleteObsolete env k ((entries (dec.forest k data)).map Entry.name) ids s).map (true, ·)

def syncFunc (dec : Decoder A) (env : Env A) (name : Text) (data : Data) (s : Nautobot A) :
    Option (Bool × Nautobot A) :=
  match Kind.order.find? fun k => k.resource = name with
  | some k => syncAll dec env k data s
  | none => some (true, s)

/-- The sync functions are called in turn up to one that fails, whose resource is the result. -/
def runCalls (dec : Decoder A) (env : Env A) :
    List SyncCall → Nautobot A → Option (Option Text × Nautobot A)
  | [], s => some (none, s)
  | c :: calls, s =>
    match syncFunc dec env c.resource c.data s with
    | none => none
    | some (false, s) => some (some c.resource, s)
    | some (true, s) => runCalls dec env calls s

/-- The other inputs of a run of `Reconcile`; its sync functions succeed as they do here. -/
structure Run (A : Type) where
  inputs : Inputs
  env : Env A

def withSyncFunc (inp : Inputs) (syncFunc : Text → Data → Bool) : Inputs := { inp with syncFunc }

/-- `Reconcile` with the inventory that its sync functions change. -/
def reconcile (sha : Sha256) (dec : Decoder A) (st : Status) (s : Nautobot A) (run : Run A) :
    Option (Report × Nautobot A) :=
  let planned := Reconcile.reconcile sha st (withSyncFunc run.inputs fun _ _ => true)
  (runCalls dec run.env planned.calls s).map fun (failed, s) =>
    (Reconcile.reconcile sha st (withSyncFunc run.inputs fun name _ => some name ≠ failed), s)

/-- `Reconcile` again and again. -/
def reconcileAll (sha : Sha256) (dec : Decoder A) :
    List (Run A) → Status → Nautobot A → Option (Status × Nautobot A)
  | [], st, s => some (st, s)
  | run :: runs, st, s =>
    (reconcile sha dec st s run).bind fun r => reconcileAll sha dec runs r.1.status r.2

end Understack.Nautobotop.Inventory
