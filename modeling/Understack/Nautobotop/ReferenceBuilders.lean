import Understack.Lib.PostOrder
import Understack.Nautobotop.ClusterSync
import Understack.Nautobotop.LocationTypeSync
import Understack.Nautobotop.ServiceCalls

/-! `SyncAll` of location types, locations, rack groups, racks, tenants, devices and clusters, with
every nil check and every dereference of an id that the source makes. -/
namespace Understack.Nautobotop.ServiceCalls
open PyText CompareJson SyncPass GoCalls
open Clusters (Cluster)
open Devices (Device DeviceRequest)

variable (nb : Nautobot)

/-! What the builders share. -/

/-- A reference without which the pass stops. -/
def requiredReference (k : Kind) (what : String) (name : Text) : Sync Text := do
  let object ← getByName nb k name
  if object.id = none then fail (.notFound what.toList name)
  else deref object.id

/-- A reference that is left out where nothing is found. -/
def optionalReference (k : Kind) (name : Text) : Sync (Option Text) := do
  let object ← getByName nb k name
  if object.id = none then pure none
  else some <$> deref object.id

/-- A builder that is only called for a name. -/
def ifNamed (name : Text) (build : Text → Sync (Option Text)) : Sync (Option Text) :=
  if name = [] then pure none else build name

def buildParentReference (parentID : Option Text) : Sync (Option Text) :=
  if parentID = none then pure none else some <$> deref parentID

/-- Create what does not exist, and update what compares unequal. -/
def syncObject (k : Kind) (existing : Object) (req : Request) : Sync (Option Text) := do
  if existing.id = none then
    let created ← create nb k req
    pure created.id
  else if compareJSONFields existing.json req = false then
    let updated ← update nb k (← deref existing.id) req
    pure updated.id
  else pure existing.id

/-! The removal of what is not declared. -/

def objects : CachedService.Resource Object Request :=
  ⟨fun o => o.id.getD [], Object.name, fun _ => none⟩

def destroyNamed (k : Kind) (obsolete : List (Text × Object)) (name : Text) : Sync Unit :=
  match obsolete.lookup name with
  | none => pure ()
  | some o => if o.id = none then pure () else do destroy nb k (← deref o.id)

def deleteObsolete (k : Kind) (names : List Text) : Sync Unit := do
  let existing ← listAll nb k
  let obsolete := SyncById.obsolete objects existing names
  (nb.ranged (obsolete.map Prod.fst)).forM (destroyNamed nb k obsolete)

def idToName (obsolete : List (Text × Object)) (id : Text) : Option Text :=
  (obsolete.find? fun e => e.2.id = some id).map Prod.fst

def childrenMap (obsolete : List (Text × Object)) (name : Text) : List Text :=
  (nb.ranged (obsolete.map Prod.fst)).filter fun child =>
    (obsolete.lookup child).bind (fun o => o.parent.bind (idToName obsolete)) = some name

/-- Children first; a recursion that does not end overflows the stack. The calls have no influence
on the order. -/
def deleteObsoleteTrees (k : Kind) (names : List Text) : Sync Unit := do
  let existing ← listAll nb k
  let obsolete := SyncById.obsolete objects existing names
  match PostOrder.visitAll (childrenMap nb obsolete) (obsolete.length + 1)
      (nb.ranged (obsolete.map Prod.fst)) with
  | none => panic
  | some deleted => deleted.reverse.forM (destroyNamed nb k obsolete)

mutual

/-- The names in a tree. -/
def treeNames {E : Type} (name : E → Text) : Nested E → List Text
  | .node e children => name e :: forestNames name children
termination_by structural tree => tree

def forestNames {E : Type} (name : E → Text) : List (Nested E) → List Text
  | [] => []
  | tree :: forest => treeNames name tree ++ forestNames name forest
termination_by structural forest => forest

end

/-! Location types. -/

namespace LocationTypeSync
open LocationTypes (Fields)

def syncSingleLocationType (e : Fields) (parentID : Option Text) : Sync (Option Text) := do
  let existing ← getByID nb .locationType e.id
  let parent ← buildParentReference parentID
  syncObject nb .locationType existing ([
    member "id" ((optionalID e.id).map .string),
    member "content_types" (e.contentTypes.map fun types => .array (types.map .string)),
    member "name" (some (.string e.name)),
    member "description" (some (.string e.description)),
    member "nestable" (some (.bool e.nestable)),
    member "parent" (parent.map refJson)] : List Request).flatten

def syncAll (forest : List (Nested Fields)) : Sync Unit := do
  walkAll (syncSingleLocationType nb) none forest
  deleteObsoleteTrees nb .locationType (forestNames Fields.name forest)

end LocationTypeSync

/-! Locations. -/

/-- `models.Location` without its children. -/
structure Location where
  id : Text
  name : Text
  description : Text
  locationType : Text
  status : Text

namespace LocationSync

def buildStatusReference (name : Text) : Sync Text := requiredReference nb .status "status" name

def buildLocationTypeReference (name : Text) : Sync Text :=
  requiredReference nb .locationType "location type" name

def syncSingleLocation (e : Location) (parentID : Option Text) : Sync (Option Text) := do
  let existing ← getByID nb .location e.id
  let locationType ← buildLocationTypeReference nb e.locationType
  let status ← buildStatusReference nb e.status
  let parent ← buildParentReference parentID
  syncObject nb .location existing ([
    member "id" ((optionalID e.id).map .string),
    member "name" (some (.string e.name)),
    member "description" (some (.string e.description)),
    member "parent" (parent.map refJson),
    member "location_type" (some (refJson locationType)),
    member "status" (some (refJson status))] : List Request).flatten

def syncAll (forest : List (Nested Location)) : Sync Unit := do
  walkAll (syncSingleLocation nb) none forest
  deleteObsoleteTrees nb .location (forestNames Location.name forest)

end LocationSync

/-! Rack groups. -/

/-- `models.RackGroup` without its children. -/
structure RackGroup where
  id : Text
  name : Text
  description : Text
  location : Text

namespace RackGroupSync

/-- The one builder that does not look whether anything was found. -/
def buildLocationReference (name : Text) : Sync Text := do
  let location ← getByName nb .location name
  deref location.id

def syncSingleRackGroup (e : RackGroup) (parentID : Option Text) : Sync (Option Text) := do
  let existing ← getByID nb .rackGroup e.id
  let parent ← buildParentReference parentID
  let location ← buildLocationReference nb e.location
  syncObject nb .rackGroup existing ([
    member "id" ((optionalID e.id).map .string),
    member "name" (some (.string e.name)),
    member "description" (some (.string e.description)),
    member "parent" (parent.map refJson),
    member "location" (some (refJson location))] : List Request).flatten

def syncAll (forest : List (Nested RackGroup)) : Sync Unit := do
  walkAll (syncSingleRackGroup nb) none forest
  deleteObsoleteTrees nb .rackGroup (forestNames RackGroup.name forest)

end RackGroupSync

/-! Racks. -/

/-- `models.Rack`. -/
structure Rack where
  id : Text
  name : Text
  facility : Text
  description : Text
  location : Text
  rackGroup : Text
  status : Text
  uHeight : ℤ

namespace RackSync

def buildLocationReference (name : Text) : Sync Text :=
  requiredReference nb .location "location" name

def buildRackGroupReference (name : Text) : Sync Text :=
  requiredReference nb .rackGroup "rack group" name

def buildStatusReference (name : Text) : Sync Text := requiredReference nb .status "status" name

def syncSingleRack (e : Rack) : Sync Unit := do
  let existing ← getByID nb .rack e.id
  let location ← buildLocationReference nb e.location
  let status ← buildStatusReference nb e.status
  let rackGroup ← ifNamed e.rackGroup fun name => some <$> buildRackGroupReference nb name
  discard (syncObject nb .rack existing ([
    member "id" ((optionalID e.id).map .string),
    member "name" (some (.string e.name)),
    member "comments" (some (.string e.description)),
    member "location" (some (refJson location)),
    member "status" (some (refJson status)),
    member "u_height" (some (.number (Int.bmod e.uHeight (2 ^ 32)))),
    Devices.textMember "facility_id" e.facility,
    member "rack_group" (rackGroup.map refJson)] : List Request).flatten)

def syncAll (racks : List Rack) : Sync Unit := do
  racks.forM (syncSingleRack nb)
  deleteObsolete nb .rack (racks.map Rack.name)

end RackSync

/-! Tenants. -/

/-- `models.Tenant`. -/
structure Tenant where
  id : Text
  name : Text
  description : Text
  comments : Text
  tenantGroup : Text
  tags : List Text

namespace TenantSync

def buildTenantGroupReference (name : Text) : Sync (Option Text) :=
  optionalReference nb .tenantGroup name

def buildTagReferences (tagNames : List Text) : Sync (List Text) :=
  tagNames.foldlM (fun tags name => do
    let tag ← getByName nb .tag name
    if tag.id ≠ none then pure (tags ++ [← deref tag.id]) else pure tags) []

def syncSingleTenant (e : Tenant) : Sync Unit := do
  let existing ← getByID nb .tenant e.id
  let tenantGroup ← ifNamed e.tenantGroup (buildTenantGroupReference nb)
  let tags ← buildTagReferences nb e.tags
  discard (syncObject nb .tenant existing ([
    member "id" ((optionalID e.id).map .string),
    member "name" (some (.string e.name)),
    Devices.textMember "description" e.description,
    Devices.textMember "comments" e.comments,
    member "tenant_group" (tenantGroup.map refJson),
    member "tags" (if tags = [] then none else some (.array (tags.map refJson)))] :
      List Request).flatten)

def syncAll (tenants : List Tenant) : Sync Unit := do
  tenants.forM (syncSingleTenant nb)
  deleteObsolete nb .tenant (tenants.map Tenant.name)

end TenantSync

/-! Devices. -/

namespace DeviceSync

def buildDeviceTypeReference (name : Text) : Sync Text :=
  requiredReference nb .deviceType "device type" name

def buildStatusReference (name : Text) : Sync Text := requiredReference nb .status "status" name

def buildRoleReference (name : Text) : Sync Text := requiredReference nb .role "role" name

def buildLocationReference (name : Text) : Sync Text :=
  requiredReference nb .location "location" name

def buildRackReference (name : Text) : Sync Text := requiredReference nb .rack "rack" name

def buildTenantReference (name : Text) : Sync Text := requiredReference nb .tenant "tenant" name

def buildVlanGroupID (name : Text) : Sync (Option Text) := optionalReference nb .vlanGroup name

/-- A position that is not positive and a face that is no `nb.RackFace` are left out. -/
def syncSingleDevice (e : Device) : Sync Unit := do
  let existing ← getByID nb .device e.id
  let deviceType ← buildDeviceTypeReference nb e.deviceType
  let status ← buildStatusReference nb e.status
  let role ← buildRoleReference nb e.role
  let location ← buildLocationReference nb e.location
  let rack ← ifNamed e.rack fun name => some <$> buildRackReference nb name
  let tenant ← ifNamed e.tenant fun name => some <$> buildTenantReference nb name
  let vlanGroup ← ifNamed e.vlanGroup (buildVlanGroupID nb)
  let request : DeviceRequest := {
    id := optionalID e.id
    deviceType := deviceType
    status := status
    role := role
    location := location
    comments := e.comments
    name := e.name
    serial := e.serial
    assetTag := e.assetTag
    rack := rack
    position := if 0 < e.position then some (Int.bmod e.position (2 ^ 32)) else none
    face := if nb.rackFace e.face then e.face else []
    tenant := tenant
    platform := optionalID e.platform
    chassisMacAddress := e.chassisMacAddress
    externalCmdbID := e.externalCmdbID
    vlanGroup := vlanGroup }
  discard (syncObject nb .device existing request.json)

def syncAll (devices : List Device) : Sync Unit := do
  devices.forM (syncSingleDevice nb)
  deleteObsolete nb .device (devices.map Device.name)

end DeviceSync

/-! Clusters. -/

namespace ClusterSync

def buildClusterTypeReference (name : Text) : Sync Text :=
  requiredReference nb .clusterType "cluster type" name

def buildClusterGroupReference (name : Text) : Sync Text :=
  requiredReference nb .clusterGroup "cluster group" name

def buildLocationReference (name : Text) : Sync (Option Text) :=
  optionalReference nb .location name

/-- The ids of the devices that are found, by name. -/
def resolveDevices (names : List Text) : Sync (List (Text × Text)) :=
  names.foldlM (fun ids name => do
    let device ← getByName nb .device name
    if device.id = none then pure ids
    else pure (PyDict.put name (← deref device.id) ids)) []

/-- The ids of listed devices, without a look whether they have any. -/
def currentDevices (devices : List Object) : Sync (List (Text × Text)) :=
  devices.foldlM (fun ids device => do pure (PyDict.put device.name (← deref device.id) ids)) []

/-- The devices of one map that the other does not name are given a cluster. -/
def assignMissing (ids others : List (Text × Text)) (clusterID : Option Text) : Sync Unit :=
  (nb.ranged (ids.map Prod.fst)).forM fun name =>
    if (others.lookup name).isSome then pure ()
    else match ids.lookup name with
      | some id => discard (assignToCluster nb id clusterID)
      | none => pure ()

def syncClusterDevices (clusterID : Text) (desiredDeviceNames : List Text) : Sync Unit := do
  let desiredDeviceIDs ← resolveDevices nb desiredDeviceNames
  let devices ← listByCluster nb clusterID
  let currentDeviceIDs ← currentDevices devices
  assignMissing nb desiredDeviceIDs currentDeviceIDs (some clusterID)
  assignMissing nb currentDeviceIDs desiredDeviceIDs none

def syncSingleCluster (e : Cluster) : Sync Unit := do
  let existing ← getByID nb .cluster e.id
  let clusterType ← buildClusterTypeReference nb e.clusterType
  let clusterGroup ← ifNamed e.clusterGroup fun name => some <$> buildClusterGroupReference nb name
  let location ← ifNamed e.location (buildLocationReference nb)
  let clusterID ← syncObject nb .cluster existing ([
    member "id" ((optionalID e.id).map .string),
    member "name" (some (.string e.name)),
    member "comments" (some (.string e.comments)),
    member "cluster_type" (some (refJson clusterType)),
    member "cluster_group" (clusterGroup.map refJson),
    member "location" (location.map refJson)] : List Request).flatten
  if clusterID ≠ none ∧ e.devices ≠ [] then syncClusterDevices nb (← deref clusterID) e.devices
  else pure ()

def syncAll (clusters : List Cluster) : Sync Unit := do
  clusters.forM (syncSingleCluster nb)
  deleteObsolete nb .cluster (clusters.map Cluster.name)

end ClusterSync

/-- The entries that the YAML of a resource declares. -/
inductive Declared where
  | locationTypes (forest : List (Nested LocationTypes.Fields))
  | locations (forest : List (Nested Location))
  | rackGroups (forest : List (Nested RackGroup))
  | racks (racks : List Rack)
  | tenants (tenants : List Tenant)
  | devices (devices : List Device)
  | clusters (clusters : List Cluster)

def syncAll : Declared → Sync Unit
  | .locationTypes forest => LocationTypeSync.syncAll nb forest
  | .locations forest => LocationSync.syncAll nb forest
  | .rackGroups forest => RackGroupSync.syncAll nb forest
  | .racks racks => RackSync.syncAll nb racks
  | .tenants tenants => TenantSync.syncAll nb tenants
  | .devices devices => DeviceSync.syncAll nb devices
  | .clusters clusters => ClusterSync.syncAll nb clusters

end Understack.Nautobotop.ServiceCalls
