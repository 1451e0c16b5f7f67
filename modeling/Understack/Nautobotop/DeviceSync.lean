import Mathlib.Algebra.Group.Nat.Defs
import Understack.Nautobotop.SyncById

/-! `DeviceSync.SyncAll`: which values of a declared device enter the request, and what the
comparison with the device in Nautobot looks at. -/
namespace Understack.Nautobotop.Devices
open PyText CachedService CompareJson SyncPass

/-- `models.Device`, an entry of the YAML. -/
structure Device where
  id : Text
  name : Text
  deviceType : Text
  role : Text
  serial : Text
  assetTag : Text
  status : Text
  location : Text
  rack : Text
  position : ℤ
  face : Text
  tenant : Text
  platform : Text
  comments : Text
  chassisMacAddress : Text
  externalCmdbID : Text
  vlanGroup : Text

/-- `nb.Device`, as far as a request can set it. Texts that are null are empty here; the VLAN group
is the source of the relationship `vlan_group_to_devices`. -/
@[ext] structure NbDevice where
  id : Text
  deviceType : Text
  status : Text
  role : Text
  location : Text
  comments : Text
  name : Text
  serial : Text
  assetTag : Text
  rack : Option Text
  position : Option ℤ
  face : Text
  tenant : Option Text
  platform : Option Text
  chassisMacAddress : Text
  externalCmdbID : Text
  vlanGroup : Option Text
  deriving DecidableEq

/-- `nb.WritableDeviceRequest`; texts that are empty are left out, the comments apart. -/
structure DeviceRequest where
  id : Option Text
  deviceType : Text
  status : Text
  role : Text
  location : Text
  comments : Text
  name : Text
  serial : Text
  assetTag : Text
  rack : Option Text
  position : Option ℤ
  face : Text
  tenant : Option Text
  platform : Option Text
  chassisMacAddress : Text
  externalCmdbID : Text
  vlanGroup : Option Text

/-- The ids that the lookups by name answer, and the values of `nb.RackFace`. -/
structure DeviceReferences where
  deviceType : Text → Option Text
  status : Text → Option Text
  role : Text → Option Text
  location : Text → Option Text
  rack : Text → Option Text
  tenant : Text → Option Text
  vlanGroup : Text → Option Text
  rackFace : Text → Bool

def devices : Resource NbDevice DeviceRequest := ⟨NbDevice.id, NbDevice.name, DeviceRequest.id⟩

/-- The only number of a device is its position, which a `float64` represents exactly. -/
abbrev DeviceJson := Members ℤ

def nullableText (text : Text) : Any ℤ := if text = [] then .null else .string text

def nullableRef (id : Option Text) : Any ℤ := (id.map refJson).getD .null

def NbDevice.json (v : NbDevice) : DeviceJson :=
  [("id".toList, .string v.id),
    ("device_type".toList, refJson v.deviceType),
    ("status".toList, refJson v.status),
    ("role".toList, refJson v.role),
    ("location".toList, refJson v.location),
    ("comments".toList, .string v.comments),
    ("name".toList, nullableText v.name),
    ("serial".toList, .string v.serial),
    ("asset_tag".toList, nullableText v.assetTag),
    ("rack".toList, nullableRef v.rack),
    ("position".toList, (v.position.map .number).getD .null),
    ("face".toList, if v.face = [] then .null else .object [("value".toList, .string v.face)]),
    ("tenant".toList, nullableRef v.tenant),
    ("platform".toList, nullableRef v.platform),
    ("custom_fields".toList, .object
      [("chassis_mac_address".toList, nullableText v.chassisMacAddress),
        ("external_cmdb_id".toList, nullableText v.externalCmdbID)])]

/-- A text of a request, left out where it is empty. -/
def textMember (key : String) (text : Text) : DeviceJson :=
  member key (if text = [] then none else some (.string text))

def DeviceRequest.customFields (r : DeviceRequest) : DeviceJson :=
  [textMember "chassis_mac_address" r.chassisMacAddress,
    textMember "external_cmdb_id" r.externalCmdbID].flatten

/-- `BuildRelationshipSource` under the relationship's key. -/
def relationshipsJson (vlanGroup : Text) : Any ℤ :=
  .object [("vlan_group_to_devices".toList, .object [("source".toList, .object
    [("objects".toList, .array [refJson vlanGroup])])])]

def DeviceRequest.json (r : DeviceRequest) : DeviceJson :=
  ([member "id" (r.id.map .string),
    member "device_type" (some (refJson r.deviceType)),
    member "status" (some (refJson r.status)),
    member "role" (some (refJson r.role)),
    member "location" (some (refJson r.location)),
    member "comments" (some (.string r.comments)),
    textMember "name" r.name,
    textMember "serial" r.serial,
    textMember "asset_tag" r.assetTag,
    member "rack" (r.rack.map refJson),
    member "position" (r.position.map .number),
    textMember "face" r.face,
    member "tenant" (r.tenant.map refJson),
    member "platform" (r.platform.map refJson),
    member "custom_fields"
      (if r.customFields = [] then none else some (.object r.customFields)),
    member "relationships" (r.vlanGroup.map relationshipsJson)] : List DeviceJson).flatten

/-- A position that is not positive and a face that is no `nb.RackFace` are left out, as is a VLAN
group that is not found; the position is an `int32`. -/
def deviceRequest (refs : DeviceReferences) (device : Device) : Except SyncError DeviceRequest := do
  let deviceType ← required "device type".toList refs.deviceType device.deviceType
  let status ← required "status".toList refs.status device.status
  let role ← required "role".toList refs.role device.role
  let location ← required "location".toList refs.location device.location
  let rack ← requiredIfNamed "rack".toList refs.rack device.rack
  let tenant ← requiredIfNamed "tenant".toList refs.tenant device.tenant
  .ok {
    id := optionalID device.id
    deviceType := deviceType
    status := status
    role := role
    location := location
    comments := device.comments
    name := device.name
    serial := device.serial
    assetTag := device.assetTag
    rack := rack
    position := if 0 < device.position then some (Int.bmod device.position (2 ^ 32)) else none
    face := if refs.rackFace device.face then device.face else []
    tenant := tenant
    platform := optionalID device.platform
    chassisMacAddress := device.chassisMacAddress
    externalCmdbID := device.externalCmdbID
    vlanGroup := optional refs.vlanGroup device.vlanGroup }

def compareDevice (existing : NbDevice) (req : DeviceRequest) : Bool :=
  compareJSONFields existing.json req.json

/-- The loop and `deleteObsoleteDevices`; the source returns no ids. -/
def syncAll (api : Api devices) (refs : DeviceReferences) (w : World NbDevice)
    (desired : List Device) : Except SyncError (List Text) × World NbDevice :=
  SyncById.pass api compareDevice Device.id (deviceRequest refs) (desired.map Device.name) w desired

/-! What an update stores, and what the comparison covers of it. -/

def textOr (new old : Text) : Text := if new = [] then old else new

/-- The fields of a request that are present, on top of a device. -/
def DeviceRequest.onto (r : DeviceRequest) (old : NbDevice) : NbDevice where
  id := old.id
  deviceType := r.deviceType
  status := r.status
  role := r.role
  location := r.location
  comments := r.comments
  name := textOr r.name old.name
  serial := textOr r.serial old.serial
  assetTag := textOr r.assetTag old.assetTag
  rack := r.rack.or old.rack
  position := r.position.or old.position
  face := textOr r.face old.face
  tenant := r.tenant.or old.tenant
  platform := r.platform.or old.platform
  chassisMacAddress := textOr r.chassisMacAddress old.chassisMacAddress
  externalCmdbID := textOr r.externalCmdbID old.externalCmdbID
  vlanGroup := r.vlanGroup.or old.vlanGroup

theorem textOr_eq_self {new old : Text} : textOr new old = old ↔ (new ≠ [] → new = old) := by
  unfold textOr
  split_ifs with hnew
  · simp [hnew]
  · simp [hnew]

theorem or_eq_self {α : Type} {new old : Option α} :
    new.or old = old ↔ ∀ a, new = some a → old = some a := by
  cases new with
  | none => simp
  | some a => simp [eq_comm]

theorem compareJSONValues_nullableText {text new : Text} (hnew : new ≠ []) :
    compareJSONValues (nullableText text) (.string new) = true ↔ new = text := by
  unfold nullableText
  split_ifs with htext
  · simp [compareJSONValues, comparePrimitiveValues, htext, hnew]
  · rw [compareJSONValues_string, eq_comm]

section Members

variable {existing : DeviceJson} {key : String} {value : Any ℤ}
  (hlookup : existing.lookup key.toList = some value)
  (hkey : key.toList ≠ "relationships".toList)

include hlookup hkey

/-- A text that is compared where it is not empty. -/
theorem compared_textMember {new old : Text}
    (hvalue : new ≠ [] → (compareJSONValues value (.string new) = true ↔ new = old)) :
    compareJSONFields existing (textMember key new) = true ↔ textOr new old = old := by
  rw [textMember, compareJSONFields_member hlookup hkey, textOr_eq_self]
  split_ifs with hnew
  · simp [hnew]
  · simp [hnew, hvalue hnew]

theorem compared_some {desired : Any ℤ} :
    compareJSONFields existing (member key (some desired)) = true ↔
      compareJSONValues value desired = true := by
  rw [compareJSONFields_member hlookup hkey]
  simp

theorem compared_map {α : Type} {f : α → Any ℤ} {new old : Option α}
    (hvalue : ∀ a, compareJSONValues value (f a) = true ↔ old = some a) :
    compareJSONFields existing (member key (new.map f)) = true ↔ new.or old = old := by
  rw [compareJSONFields_member hlookup hkey, or_eq_self]
  simp [hvalue]

end Members

theorem compareJSONValues_refJson_iff {a b : Text} :
    compareJSONValues (refJson a : Any ℤ) (refJson b) = true ↔ b = a := by
  have h := @compareJSONValues_nullableRef ℤ _ (some a) b
  rwa [Option.some.injEq, eq_comm (a := a)] at h

theorem compareJSONValues_face {old new : Text} (hnew : new ≠ []) :
    compareJSONValues (if old = [] then .null else .object [("value".toList, .string old)] : Any ℤ)
      (.string new) = true ↔ new = old := by
  split_ifs with hold
  · simp [compareJSONValues, comparePrimitiveValues, hold, hnew]
  · have hvalue : compareJSONValues (.object [("value".toList, .string old)] : Any ℤ)
        (.string new) = decide (old = new) := rfl
    rw [hvalue, decide_eq_true_iff, eq_comm]

theorem compareJSONValues_position {old : Option ℤ} (new : ℤ) :
    compareJSONValues ((old.map .number).getD .null : Any ℤ) (.number new) = true ↔
      old = some new := by
  cases old with
  | none => simp [compareJSONValues, comparePrimitiveValues]
  | some old => simp [compareJSONValues, comparePrimitiveValues]

theorem compared_relationships {existing : DeviceJson} {value : Option (Any ℤ)} :
    compareJSONFields existing (member "relationships" value) = true := by
  cases value with
  | none => rfl
  | some value => rfl

/-- Custom fields are compared one by one. -/
theorem compareJSONValues_customFields {v : NbDevice} {req : DeviceRequest} :
    compareJSONValues (.object [("chassis_mac_address".toList, nullableText v.chassisMacAddress),
        ("external_cmdb_id".toList, nullableText v.externalCmdbID)] : Any ℤ)
      (.object req.customFields) = true ↔
      textOr req.chassisMacAddress v.chassisMacAddress = v.chassisMacAddress ∧
        textOr req.externalCmdbID v.externalCmdbID = v.externalCmdbID := by
  let fields : DeviceJson := [("chassis_mac_address".toList, nullableText v.chassisMacAddress),
    ("external_cmdb_id".toList, nullableText v.externalCmdbID)]
  have hmac : fields.lookup "chassis_mac_address".toList =
    some (nullableText v.chassisMacAddress) := rfl
  have hcmdb : fields.lookup "external_cmdb_id".toList = some (nullableText v.externalCmdbID) := rfl
  have hfields : compareJSONValues (.object fields) (.object req.customFields) =
      compareJSONFields fields req.customFields := by
    have hfilter : req.customFields.filter (fun m => m.1 ≠ "relationships".toList) =
        req.customFields := by
      unfold DeviceRequest.customFields textMember
      split_ifs <;> rfl
    rw [compareJSONFields, hfilter]
    simp only [compareJSONValues]
  rw [hfields, DeviceRequest.customFields, compareJSONFields_flatten]
  simp only [List.forall_mem_cons, List.not_mem_nil, false_implies, implies_true, and_true]
  rw [compared_textMember hmac (by decide) compareJSONValues_nullableText,
    compared_textMember hcmdb (by decide) compareJSONValues_nullableText]

theorem compared_customFields {v : NbDevice} {req : DeviceRequest} :
    compareJSONFields v.json (member "custom_fields"
        (if req.customFields = [] then none else some (.object req.customFields))) = true ↔
      textOr req.chassisMacAddress v.chassisMacAddress = v.chassisMacAddress ∧
        textOr req.externalCmdbID v.externalCmdbID = v.externalCmdbID := by
  have hlookup : v.json.lookup "custom_fields".toList = some (.object
    [("chassis_mac_address".toList, nullableText v.chassisMacAddress),
      ("external_cmdb_id".toList, nullableText v.externalCmdbID)]) := rfl
  rw [compareJSONFields_member hlookup (by decide), ← compareJSONValues_customFields]
  split_ifs with hnone
  · simp [hnone, compareJSONValues, compareJSONMaps]
  · simp

/-- The comparison covers what an update would change, but for the VLAN group. -/
theorem compareDevice_iff {v : NbDevice} {req : DeviceRequest} :
    compareDevice v req = true ↔ (∀ id, req.id = some id → v.id = id) ∧
      { req.onto v with vlanGroup := v.vlanGroup } = v := by
  have hid : v.json.lookup "id".toList = some (.string v.id) := rfl
  have htype : v.json.lookup "device_type".toList = some (refJson v.deviceType) := rfl
  have hstatus : v.json.lookup "status".toList = some (refJson v.status) := rfl
  have hrole : v.json.lookup "role".toList = some (refJson v.role) := rfl
  have hlocation : v.json.lookup "location".toList = some (refJson v.location) := rfl
  have hcomments : v.json.lookup "comments".toList = some (.string v.comments) := rfl
  have hname : v.json.lookup "name".toList = some (nullableText v.name) := rfl
  have hserial : v.json.lookup "serial".toList = some (.string v.serial) := rfl
  have htag : v.json.lookup "asset_tag".toList = some (nullableText v.assetTag) := rfl
  have hrack : v.json.lookup "rack".toList = some (nullableRef v.rack) := rfl
  have hposition : v.json.lookup "position".toList =
    some ((v.position.map .number).getD .null) := rfl
  have hface : v.json.lookup "face".toList =
    some (if v.face = [] then .null else .object [("value".toList, .string v.face)]) := rfl
  have htenant : v.json.lookup "tenant".toList = some (nullableRef v.tenant) := rfl
  have hplatform : v.json.lookup "platform".toList = some (nullableRef v.platform) := rfl
  rw [compareDevice, DeviceRequest.json, compareJSONFields_flatten]
  simp only [List.forall_mem_cons, List.not_mem_nil, false_implies, implies_true, and_true]
  rw [compareJSONFields_member hid (by decide), compared_some htype (by decide),
    compared_some hstatus (by decide), compared_some hrole (by decide),
    compared_some hlocation (by decide), compared_some hcomments (by decide),
    compared_textMember hname (by decide) compareJSONValues_nullableText,
    compared_textMember hserial (by decide) fun _ => compareJSONValues_string.trans eq_comm,
    compared_textMember htag (by decide) compareJSONValues_nullableText,
    compared_map hrack (by decide) fun _ => compareJSONValues_nullableRef,
    compared_map hposition (by decide) compareJSONValues_position,
    compared_textMember hface (by decide) compareJSONValues_face,
    compared_map htenant (by decide) fun _ => compareJSONValues_nullableRef,
    compared_map hplatform (by decide) fun _ => compareJSONValues_nullableRef,
    compared_customFields, compareJSONValues_refJson_iff, compareJSONValues_refJson_iff,
    compareJSONValues_refJson_iff, compareJSONValues_refJson_iff, compareJSONValues_string]
  simp only [compared_relationships, and_true, Option.map_eq_some_iff, forall_exists_index,
    and_imp, forall_apply_eq_imp_iff₂, compareJSONValues_string, NbDevice.ext_iff,
    DeviceRequest.onto, true_and]
  rw [eq_comm (a := v.comments)]

end Understack.Nautobotop.Devices
