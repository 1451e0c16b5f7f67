import Mathlib.Algebra.Group.Nat.Defs
import Understack.Nautobotop.SyncById

/-! `VlanSync.SyncAll`: entries are matched with VLANs by id alone, and VLANs are removed by
name. -/
namespace Understack.Nautobotop.VlanSync
open PyText CachedService CompareJson SyncPass

/-- `models.Vlan`, an entry of the YAML. -/
structure Vlan where
  id : Text
  name : Text
  vid : ℤ
  status : Text
  role : Text
  description : Text
  locations : List Text
  vlanGroup : Text
  tenantGroup : Text
  tenant : Text
  dynamicGroups : List Text
  tags : List Text

/-- `nb.VLAN`, with the members of its JSON besides id and name. -/
structure VLAN (F : Type) where
  id : Text
  name : Text
  other : Members F

structure VLANRequest (F : Type) where
  id : Option Text
  vid : ℤ
  name : Text
  description : Option Text
  status : Text
  role : Option Text
  location : Option Text
  vlanGroup : Option Text
  tenant : Option Text
  customFields : Members F
  tags : List Text

variable {F : Type}

def vlans : Resource (VLAN F) (VLANRequest F) := ⟨VLAN.id, VLAN.name, VLANRequest.id⟩

def VLAN.json (v : VLAN F) : Members F :=
  ("id".toList, .string v.id) :: ("name".toList, .string v.name) :: v.other

def VLANRequest.json [IntCast F] (r : VLANRequest F) : Members F :=
  ([member "id" (r.id.map .string),
    member "vid" (some (.number r.vid)),
    member "name" (some (.string r.name)),
    member "description" (r.description.map .string),
    member "status" (some (refJson r.status)),
    member "role" (r.role.map refJson),
    member "location" (r.location.map refJson),
    member "vlan_group" (r.vlanGroup.map refJson),
    member "tenant" (r.tenant.map refJson),
    member "custom_fields" (if r.customFields.isEmpty then none else some (.object r.customFields)),
    member "tags" (if r.tags = [] then none else some (.array (r.tags.map refJson)))] :
    List (Members F)).flatten

/-- The custom fields of a request: without the group, without groups and with a single location
respectively, a field is left out. -/
def vlanCustomFields (refs : References) (vlan : Vlan) : Members F :=
  (if vlan.tenantGroup = [] then []
    else [("tenant_group".toList, .string ((refs.tenantGroup vlan.tenantGroup).getD []))]) ++
  (if vlan.dynamicGroups = [] then []
    else [("dynamic_groups".toList, textsJson vlan.dynamicGroups)]) ++
  (if vlan.locations.length ≤ 1 then []
    else [("locations".toList, textsJson (vlan.locations.tail.filterMap refs.location))])

/-- The vid as an `int32`. -/
def vlanRequest (refs : References) (vlan : Vlan) : Except SyncError (VLANRequest F) := do
  let status ← required "status".toList refs.status vlan.status
  let role ← requiredIfNamed "role".toList refs.role vlan.role
  let location ← requiredFirst "location".toList refs.location vlan.locations
  .ok {
    id := optionalID vlan.id
    vid := Int.bmod vlan.vid (2 ^ 32)
    name := vlan.name
    description := if vlan.description = [] then none else some vlan.description
    status := status
    role := role
    location := location
    vlanGroup := optional refs.vlanGroup vlan.vlanGroup
    tenant := optional refs.tenant vlan.tenant
    customFields := vlanCustomFields refs vlan
    tags := vlan.tags.filterMap refs.tag }

variable [IntCast F] [DecidableEq F]

def compareVlan (existing : VLAN F) (req : VLANRequest F) : Bool :=
  compareJSONFields existing.json req.json

variable (api : Api (vlans (F := F))) (refs : References)

/-- The source returns no id; it tells which VLAN was matched, updated or created. -/
def syncSingleVlan (w : World (VLAN F)) (vlan : Vlan) : Except SyncError Text × World (VLAN F) :=
  syncSingle api compareVlan (fun w vlan => getByID api w vlan.id) (vlanRequest refs) w vlan

/-- The last VLAN of each name that no entry has. -/
def obsoleteVlans (existing : List (VLAN F)) (desired : List Vlan) : List (VLAN F) :=
  let existingMap := existing.foldl (fun m v => PyDict.put v.name v m) []
  (existingMap.filter fun e => e.1 ∉ desired.map Vlan.name).map Prod.snd

def deleteObsoleteVlans (w : World (VLAN F)) (desired : List Vlan) : World (VLAN F) :=
  let (existing, w) := listAll api w
  destroyAll api w (api.ranged ((obsoleteVlans existing desired).map VLAN.id))

def syncAll (w : World (VLAN F)) (desired : List Vlan) :
    Except SyncError (List Text) × World (VLAN F) :=
  syncPass (syncSingleVlan api refs) (fun w _ => deleteObsoleteVlans api w desired) w desired

omit [DecidableEq F] in
theorem name_mem_json (req : VLANRequest F) :
    ("name".toList, Any.string req.name) ∈ req.json := by
  simp [VLANRequest.json, member]

theorem name_of_compareVlan {v : VLAN F} {req : VLANRequest F} (h : compareVlan v req = true) :
    v.name = req.name := by
  obtain ⟨value, hlookup, hvalue⟩ := compared_of_mem h (name_mem_json req) (by decide)
  have hname : v.json.lookup "name".toList = some (.string v.name) := rfl
  rw [hname] at hlookup
  cases hlookup
  exact compareJSONValues_string.mp hvalue

variable {api refs}

/-- The VLAN that a lookup by id finds. -/
def found (objects : List (VLAN F)) (vlan : Vlan) : Option (VLAN F) :=
  if vlan.id = [] then none else objects.find? fun v => v.id = vlan.id

/-- One turn of the loop. -/
def Turn (api : Api (vlans (F := F))) (request : Vlan → VLANRequest F) :
    World (VLAN F) → Vlan → Text → World (VLAN F) → Prop :=
  Step api compareVlan (fun objects vlan existing => existing = found objects vlan) request

omit [IntCast F] [DecidableEq F] in
theorem obsoleteVlans_eq (existing : List (VLAN F)) (desired : List Vlan) :
    obsoleteVlans existing desired =
      (SyncById.obsolete vlans existing (desired.map Vlan.name)).map Prod.snd := rfl

omit [IntCast F] [DecidableEq F] in
theorem mem_obsoleteVlans {existing : List (VLAN F)} {desired : List Vlan} {v : VLAN F} :
    v ∈ obsoleteVlans existing desired ↔
      (existing.reverse.find? fun u => u.name = v.name) = some v ∧
        v.name ∉ desired.map Vlan.name := by
  rw [obsoleteVlans_eq, List.mem_map]
  constructor
  · rintro ⟨⟨name, u⟩, hu, rfl⟩
    have hname : u.name = name := SyncById.name_of_obsolete hu
    subst hname
    exact SyncById.mem_obsolete.mp hu
  · exact fun h => ⟨(v.name, v), SyncById.mem_obsolete.mpr h, rfl⟩

/-- What an entry finds or makes in Nautobot. -/
def settledVlan (api : Api (vlans (F := F))) (request : Vlan → VLANRequest F)
    (objects : List (VLAN F)) (vlan : Vlan) : VLAN F :=
  match found objects vlan with
  | none => api.created vlan.id (request vlan)
  | some v => if compareVlan v (request vlan) then v else api.updated v (request vlan)

/-- What an entry finds or makes is that of any pass by id. -/
theorem settledVlan_eq (request : Vlan → VLANRequest F) (objects : List (VLAN F)) (vlan : Vlan) :
    settledVlan api request objects vlan =
      SyncById.settled api compareVlan request Vlan.id objects vlan := by
  have hfound : SyncById.found vlans Vlan.id objects vlan = found objects vlan := rfl
  rw [settledVlan, SyncById.settled, hfound]
  cases found objects vlan with
  | none => rfl
  | some v => rfl

theorem id_settledVlan {request : Vlan → VLANRequest F} {objects : List (VLAN F)}
    (hids : (objects.map VLAN.id).Nodup) (vlan : Vlan) :
    (settledVlan api request objects vlan).id = vlan.id := by
  rw [settledVlan_eq]
  exact @SyncById.id_settled _ _ _ vlans api compareVlan request Vlan.id objects hids vlan

/-! The loop over entries with ids of their own. -/

/-- The loop leaves a VLAN for every entry and the VLANs under other ids. -/
theorem objects_of_entries {request : Vlan → VLANRequest F} {w w' : World (VLAN F)}
    {desired : List Vlan} {ids : List Text} (h : Entries (Turn api request) w desired ids w')
    (hw : Consistent vlans w) (hdistinct : (desired.map Vlan.id).Nodup)
    (hrequest : ∀ e ∈ desired, (request e).id = some e.id) :
    ids = desired.map Vlan.id ∧ ∀ v, v ∈ w'.objects ↔
      (v ∈ w.objects ∧ v.id ∉ desired.map Vlan.id) ∨
        ∃ e ∈ desired, v = settledVlan api request w.objects e := by
  simp only [settledVlan_eq]
  exact SyncById.objects_of_entries h hw hdistinct hrequest

/-! The whole pass. -/

theorem syncAll_eq (w : World (VLAN F)) (desired : List Vlan) :
    syncAll api refs w desired = SyncById.pass api compareVlan Vlan.id (vlanRequest refs)
      (desired.map Vlan.name) w desired := by
  have hdelete : ∀ w, deleteObsoleteVlans api w desired =
      SyncById.deleteObsolete api (desired.map Vlan.name) w := by
    intro w
    rw [deleteObsoleteVlans, SyncById.deleteObsolete]
    simp only [obsoleteVlans_eq, List.map_map]
    rfl
  simp only [syncAll, hdelete]
  rfl

theorem failed_before_syncAll {w : World (VLAN F)} {desired : List Vlan}
    (h : (syncAll api refs w desired).2.failed = false) : w.failed = false := by
  rw [syncAll_eq] at h
  exact SyncById.failed_before_pass h

/-- A pass without failures is a loop and a sweep. -/
theorem syncAll_of_success {request : Vlan → VLANRequest F} {w : World (VLAN F)}
    {desired : List Vlan} (hrequest : ∀ e ∈ desired, vlanRequest refs e = .ok (request e))
    (hw : Consistent vlans w) (h : (syncAll api refs w desired).2.failed = false) :
    ∃ ids w', (syncAll api refs w desired).1 = .ok ids ∧
      Entries (Turn api request) w desired ids w' ∧ Consistent vlans w' ∧
      Swept vlans w' (syncAll api refs w desired).2
        (api.ranged ((obsoleteVlans (api.listing w'.objects) desired).map VLAN.id)) := by
  rw [syncAll_eq] at h ⊢
  simp only [obsoleteVlans_eq, List.map_map]
  exact SyncById.swept_of_pass hrequest hw h

end Understack.Nautobotop.VlanSync
