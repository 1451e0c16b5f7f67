import Understack.Lib.GoCalls
import Understack.Nautobotop.SyncPass

/-! The services of `internal/nautobot` as calls that Nautobot answers in whatever way it does: a
call may fail, and a lookup that finds nothing answers an object whose id is nil. -/
namespace Understack.Nautobotop.ServiceCalls
open PyText CachedService CompareJson SyncPass GoCalls

/-- The types of objects that the passes write or look up. -/
inductive Kind where
  | locationType | location | rackGroup | rack | tenant | device | cluster
  | status | tenantGroup | tag | deviceType | role | vlanGroup | clusterType | clusterGroup
  deriving DecidableEq

/-- An object as the client has it, with the text of the id of its parent and what its JSON has. -/
structure Object where
  id : Option Text
  name : Text
  parent : Option Text
  json : Members ℤ

/-- `nb.Location{}` and the like. -/
def Object.empty : Object := ⟨none, [], none, []⟩

/-- The JSON of a request. -/
abbrev Request := Members ℤ

inductive Filter where
  | name (name : Text)
  | id (id : Text)
  | cluster (id : Text)

/-- The answers to the calls, none where a call fails, by the number of calls and of accesses to the
cache before; before which accesses the cache expires; the order in which a map is ranged over; the
values of `nb.RackFace`. What is listed has ids, and parents that come before their children. -/
structure Nautobot where
  list : ℕ → Kind → Filter → Option (List Object)
  list_ids : ∀ n k filter objects, list n k filter = some objects → ∀ o ∈ objects, o.id ≠ none
  listAll : ℕ → Kind → List Object
  listAll_ids : ∀ n k, ∀ o ∈ listAll n k, o.id ≠ none
  listAll_acyclic : ∀ n k, ∃ depth : Text → ℕ, ∀ o ∈ listAll n k, ∀ id parent,
    o.id = some id → o.parent = some parent → depth parent < depth id
  write : ℕ → Kind → Option Text → Request → Option Object
  createdByUser : ℕ → Text → Option Bool
  destroys : ℕ → Kind → Text → Bool
  assigns : ℕ → Text → Option Text → Bool
  expires : ℕ → Bool
  ranged : List Text → List Text
  ranged_perm : ∀ names, (ranged names).Perm names
  rackFace : Text → Bool

/-- The client's cache, and how much has happened. -/
structure World where
  cache : Kind → Collection Object
  ticks : ℕ

abbrev Sync (α : Type) := Go World SyncError α

variable (nb : Nautobot) (k : Kind)

def tick (w : World) : World := { w with ticks := w.ticks + 1 }

def setCollection (w : World) (c : Collection Object) : World :=
  { w with cache := Function.update w.cache k c }

def getCollection (w : World) : World :=
  tick (if nb.expires w.ticks then setCollection k w none else w)

/-- The first result of a list call, unless it has no id. -/
def firstListed : Option (List Object) → Object
  | some (o :: _) => if o.id = none then .empty else o
  | _ => .empty

/-- What `GetByName` answers, and the world after it. -/
def lookupName (name : Text) (w : World) : Object × World :=
  let w := getCollection nb k w
  match findByName Object.name (w.cache k) name with
  | some o => (o, w)
  | none => (firstListed (nb.list w.ticks k (.name name)), tick w)

def lookupID (id : Text) (w : World) : Object × World :=
  if id = [] then (.empty, w)
  else
    let w := getCollection nb k w
    match (w.cache k).bind fun items => items.find? fun o => o.id = some id with
    | some o => (o, w)
    | none => (firstListed (nb.list w.ticks k (.id id)), tick w)

def getByName (name : Text) : Sync Object := lift (lookupName nb k name)

def getByID (id : Text) : Sync Object := lift (lookupID nb k id)

def create (req : Request) : Sync Object := attempt fun w =>
  match nb.write w.ticks k none req with
  | none => (.error .createFailed, tick w)
  | some o =>
    let w := getCollection nb k (tick w)
    (.ok o, setCollection k w (addToCollection (w.cache k) o))

def update (id : Text) (req : Request) : Sync Object := attempt fun w =>
  match nb.write w.ticks k (some id) req with
  | none => (.error .updateFailed, tick w)
  | some o =>
    let w := getCollection nb k (tick w)
    (.ok o, setCollection k w (updateInCollection (w.cache k) o fun old => old.id = some id))

def listAll : Sync (List Object) := lift fun w => (nb.listAll w.ticks k, tick w)

/-- The end of `Destroy`, for an object of the operator's user. -/
def destroyOwned (id : Text) (w : World) : World :=
  if nb.destroys w.ticks k id then
    let w := getCollection nb k (tick w)
    setCollection k w (removeFromCollection (w.cache k) fun o => o.id = some id)
  else tick w

/-- The errors are ignored. -/
def destroy (id : Text) : Sync Unit := lift fun w =>
  match nb.createdByUser w.ticks id with
  | some true => ((), destroyOwned nb k id (tick w))
  | _ => ((), tick w)

/-- The devices of a cluster. -/
def listByCluster (clusterID : Text) : Sync (List Object) := lift fun w =>
  ((nb.list w.ticks .device (.cluster clusterID)).getD [], tick w)

/-- The errors are ignored. -/
def assignToCluster (deviceID : Text) (clusterID : Option Text) : Sync Bool := lift fun w =>
  (nb.assigns w.ticks deviceID clusterID, tick w)

/-- What is listed for a cluster has ids. -/
theorem safe_listByCluster (clusterID : Text) (w : World) :
    Safe (listByCluster nb clusterID) (fun devices _ => ∀ d ∈ devices, d.id ≠ none) w := by
  rw [listByCluster, safe_lift]
  cases h : nb.list w.ticks .device (.cluster clusterID) with
  | none => simp
  | some devices => exact nb.list_ids _ _ _ _ h

theorem safe_listAll (w : World) :
    Safe (listAll nb k) (fun objects _ => ∃ n, objects = nb.listAll n k) w := ⟨w.ticks, rfl⟩

end Understack.Nautobotop.ServiceCalls
