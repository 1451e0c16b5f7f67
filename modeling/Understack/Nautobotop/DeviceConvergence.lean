import Mathlib.Algebra.Group.Int.Defs
import Understack.Nautobotop.DeviceSync

/-! When two passes of `DeviceSync.SyncAll` reach the declared devices: which values a request cannot
unset, and where the VLAN group, which the comparison ignores, is written. -/
namespace Understack.Nautobotop.Devices
open PyText CachedService SyncPass

/-- The names that a device refers to are found. -/
structure Resolves (refs : DeviceReferences) (d : Device) : Prop where
  deviceType : (refs.deviceType d.deviceType).isSome
  status : (refs.status d.status).isSome
  role : (refs.role d.role).isSome
  location : (refs.location d.location).isSome
  rack : d.rack ≠ [] → (refs.rack d.rack).isSome
  tenant : d.tenant ≠ [] → (refs.tenant d.tenant).isSome
  vlanGroup : d.vlanGroup ≠ [] → (refs.vlanGroup d.vlanGroup).isSome

/-- The request of a device whose names are found. -/
def resolved (refs : DeviceReferences) (d : Device) : DeviceRequest where
  id := optionalID d.id
  deviceType := (refs.deviceType d.deviceType).getD []
  status := (refs.status d.status).getD []
  role := (refs.role d.role).getD []
  location := (refs.location d.location).getD []
  comments := d.comments
  name := d.name
  serial := d.serial
  assetTag := d.assetTag
  rack := optional refs.rack d.rack
  position := if 0 < d.position then some (Int.bmod d.position (2 ^ 32)) else none
  face := if refs.rackFace d.face then d.face else []
  tenant := optional refs.tenant d.tenant
  platform := optionalID d.platform
  chassisMacAddress := d.chassisMacAddress
  externalCmdbID := d.externalCmdbID
  vlanGroup := optional refs.vlanGroup d.vlanGroup

/-- A position of zero is one that the YAML does not have. -/
def declaredPosition (d : Device) : Option ℤ := if d.position = 0 then none else some d.position

/-- The device is the declared one; what the declaration omits is not set. -/
structure Declares (refs : DeviceReferences) (d : Device) (v : NbDevice) : Prop where
  id : d.id ≠ [] → v.id = d.id
  name : v.name = d.name
  deviceType : refs.deviceType d.deviceType = some v.deviceType
  status : refs.status d.status = some v.status
  role : refs.role d.role = some v.role
  location : refs.location d.location = some v.location
  serial : v.serial = d.serial
  assetTag : v.assetTag = d.assetTag
  rack : v.rack = optional refs.rack d.rack
  position : v.position = declaredPosition d
  tenant : v.tenant = optional refs.tenant d.tenant
  platform : v.platform = optionalID d.platform
  chassisMacAddress : v.chassisMacAddress = d.chassisMacAddress
  externalCmdbID : v.externalCmdbID = d.externalCmdbID
  vlanGroup : v.vlanGroup = optional refs.vlanGroup d.vlanGroup

/-- A new device before its request is read. -/
def blank (id : Text) : NbDevice :=
  ⟨id, [], [], [], [], [], [], [], [], none, none, [], none, none, [], [], none⟩

/-- A create and an update set the fields of the request and leave the others. -/
structure Stores (api : Api devices) : Prop where
  created : ∀ id req, api.created id req = req.onto (blank id)
  updated : ∀ v req, api.updated v req = req.onto v

/-- After a pass every declared device is as declared, and a second pass writes nothing. -/
structure Converges (api : Api devices) (refs : DeviceReferences) (w : World NbDevice)
    (desired : List Device) : Prop where
  returns : ∃ ids, (syncAll api refs w desired).1 = .ok ids
  declared : ∀ d ∈ desired, ∃ v ∈ (syncAll api refs w desired).2.objects, Declares refs d v
  still : (syncAll api refs (syncAll api refs w desired).2 desired).2.writes =
    (syncAll api refs w desired).2.writes

/-- The device under the id of a declaration, or a new one. -/
def before (objects : List NbDevice) (d : Device) : NbDevice :=
  (SyncById.found devices Device.id objects d).getD (blank d.id)

/-- What the declaration omits is not set, the VLAN group aside. -/
structure Unset (d : Device) (old : NbDevice) : Prop where
  name : d.name = [] → old.name = []
  serial : d.serial = [] → old.serial = []
  assetTag : d.assetTag = [] → old.assetTag = []
  rack : d.rack = [] → old.rack = none
  position : d.position ≤ 0 → old.position = declaredPosition d
  tenant : d.tenant = [] → old.tenant = none
  platform : d.platform = [] → old.platform = none
  chassisMacAddress : d.chassisMacAddress = [] → old.chassisMacAddress = []
  externalCmdbID : d.externalCmdbID = [] → old.externalCmdbID = []

/-- Every device has an id and a position within an `int32`, what it omits is not set, and a VLAN
group that has to change goes along with something that the comparison sees. -/
structure Settleable (refs : DeviceReferences) (objects : List NbDevice) (desired : List Device) :
    Prop where
  ids : ∀ d ∈ desired, d.id ≠ []
  positions : ∀ d ∈ desired, d.position < 2 ^ 31
  unset : ∀ d ∈ desired, Unset d (before objects d)
  vlanGroup_unset : ∀ d ∈ desired, d.vlanGroup = [] → (before objects d).vlanGroup = none
  vlanGroup : ∀ d ∈ desired, d.vlanGroup ≠ [] → ∀ v ∈ objects, v.id = d.id →
    compareDevice v (resolved refs d) = true → v.vlanGroup = refs.vlanGroup d.vlanGroup

/-- A device of the operator's that is to go shares its name with no other that is not declared. -/
def Unshared (w : World NbDevice) (desired : List Device) : Prop :=
  ∀ v ∈ w.objects, v.id ∈ w.createdBy → v.id ∉ desired.map Device.id →
    v.name ∉ desired.map Device.name →
      ∀ u ∈ w.objects, u.id ∉ desired.map Device.id → u.name = v.name → u = v

/-! The values of one device. -/

theorem deviceRequest_of_resolves {refs : DeviceReferences} {d : Device} (h : Resolves refs d) :
    deviceRequest refs d = .ok (resolved refs d) := by
  obtain ⟨deviceType, hdeviceType⟩ := Option.isSome_iff_exists.mp h.deviceType
  obtain ⟨status, hstatus⟩ := Option.isSome_iff_exists.mp h.status
  obtain ⟨role, hrole⟩ := Option.isSome_iff_exists.mp h.role
  obtain ⟨location, hlocation⟩ := Option.isSome_iff_exists.mp h.location
  have hnamed {kind : Text} {lookup : Text → Option Text} {name : Text}
      (hfound : name ≠ [] → (lookup name).isSome) :
      requiredIfNamed kind lookup name = .ok (optional lookup name) := by
    unfold requiredIfNamed SyncPass.optional required
    split_ifs with hname
    · rfl
    · obtain ⟨id, hid⟩ := Option.isSome_iff_exists.mp (hfound hname)
      rw [hid]
      rfl
  simp only [deviceRequest, required, resolved, hdeviceType, hstatus, hrole, hlocation,
    hnamed h.rack, hnamed h.tenant, Option.getD_some]
  rfl

theorem textOr_eq_left {new old : Text} : textOr new old = new ↔ (new = [] → old = []) := by
  unfold textOr
  split_ifs with hnew
  · simp [hnew]
  · simp [hnew]

/-- A reference that is named and found, or was not set. -/
theorem optional_or_eq_left {lookup : Text → Option Text} {name : Text} {old : Option Text}
    (hfound : name ≠ [] → (lookup name).isSome) :
    (optional lookup name).or old = optional lookup name ↔ (name = [] → old = none) := by
  unfold SyncPass.optional
  split_ifs with hname
  · simp [hname]
  · obtain ⟨id, hid⟩ := Option.isSome_iff_exists.mp (hfound hname)
    simp [hid, hname]

theorem optionalID_or_eq_left {id : Text} {old : Option Text} :
    (optionalID id).or old = optionalID id ↔ (id = [] → old = none) := by
  unfold optionalID
  split_ifs with hid
  · simp [hid]
  · simp [hid]

theorem position_or_eq_declared {d : Device} {old : Option ℤ} :
    (if 0 < d.position then some (Int.bmod d.position (2 ^ 32)) else none).or old =
        declaredPosition d ↔
      d.position < 2 ^ 31 ∧ (d.position ≤ 0 → old = declaredPosition d) := by
  split_ifs with hpos
  · have hdeclared : declaredPosition d = some d.position := if_neg (by omega)
    rw [hdeclared, Option.some_or, Option.some.injEq]
    constructor
    · intro heq
      refine ⟨?_, fun hle => by omega⟩
      rw [← heq]
      exact Int.bmod_lt (by decide)
    · rintro ⟨hlt, -⟩
      exact Int.bmod_eq_of_le (by omega) (by omega)
  · rw [Option.none_or]
    exact ⟨fun h => ⟨by omega, fun _ => h⟩, fun h => h.2 (by omega)⟩

/-- A request on top of a device, with any VLAN group. -/
theorem declares_onto_iff {refs : DeviceReferences} {d : Device} (hresolves : Resolves refs d)
    {old : NbDevice} {vlanGroup : Option Text} :
    Declares refs d { (resolved refs d).onto old with vlanGroup := vlanGroup } ↔
      (d.id ≠ [] → old.id = d.id) ∧ d.position < 2 ^ 31 ∧ Unset d old ∧
        vlanGroup = optional refs.vlanGroup d.vlanGroup := by
  have hsome {lookup : Text → Option Text} {name : Text} (hfound : (lookup name).isSome) :
      lookup name = some ((lookup name).getD []) := by
    obtain ⟨id, hid⟩ := Option.isSome_iff_exists.mp hfound
    rw [hid, Option.getD_some]
  constructor
  · intro h
    have hposition := position_or_eq_declared.mp h.position
    exact ⟨h.id, hposition.1, ⟨textOr_eq_left.mp h.name, textOr_eq_left.mp h.serial,
      textOr_eq_left.mp h.assetTag, (optional_or_eq_left hresolves.rack).mp h.rack, hposition.2,
      (optional_or_eq_left hresolves.tenant).mp h.tenant, optionalID_or_eq_left.mp h.platform,
      textOr_eq_left.mp h.chassisMacAddress, textOr_eq_left.mp h.externalCmdbID⟩, h.vlanGroup⟩
  · rintro ⟨hid, hposition, hunset, hgroup⟩
    exact {
      id := hid
      name := textOr_eq_left.mpr hunset.name
      deviceType := hsome hresolves.deviceType
      status := hsome hresolves.status
      role := hsome hresolves.role
      location := hsome hresolves.location
      serial := textOr_eq_left.mpr hunset.serial
      assetTag := textOr_eq_left.mpr hunset.assetTag
      rack := (optional_or_eq_left hresolves.rack).mpr hunset.rack
      position := position_or_eq_declared.mpr ⟨hposition, hunset.position⟩
      tenant := (optional_or_eq_left hresolves.tenant).mpr hunset.tenant
      platform := optionalID_or_eq_left.mpr hunset.platform
      chassisMacAddress := textOr_eq_left.mpr hunset.chassisMacAddress
      externalCmdbID := textOr_eq_left.mpr hunset.externalCmdbID
      vlanGroup := hgroup }

/-! What a device finds or makes. -/

/-- What a device finds or makes in Nautobot. -/
abbrev settledDevice (api : Api devices) (refs : DeviceReferences) (objects : List NbDevice)
    (d : Device) : NbDevice :=
  SyncById.settled api compareDevice (resolved refs) Device.id objects d

section Settled

variable {api : Api devices} {refs : DeviceReferences} {objects : List NbDevice} {d : Device}

theorem id_settledDevice (hids : (objects.map NbDevice.id).Nodup) (d : Device) :
    (settledDevice api refs objects d).id = d.id :=
  @SyncById.id_settled _ _ _ devices api compareDevice (resolved refs) Device.id objects hids d

theorem before_of_mem (hids : (objects.map NbDevice.id).Nodup) (hne : d.id ≠ []) {v : NbDevice}
    (hv : v ∈ objects) (hid : v.id = d.id) : before objects d = v := by
  have hfound : SyncById.found devices Device.id objects d = some v :=
    (SyncById.found_eq_some hids).mpr ⟨hne, hv, hid⟩
  rw [before, hfound, Option.getD_some]

theorem before_of_none (hids : (objects.map NbDevice.id).Nodup)
    (hnone : ∀ v ∈ objects, v.id ≠ d.id) : before objects d = blank d.id := by
  have hfound : SyncById.found devices Device.id objects d = none := by
    rw [Option.eq_none_iff_forall_ne_some]
    intro v hv
    obtain ⟨-, hmem, hid⟩ := (SyncById.found_eq_some hids).mp hv
    exact hnone v hmem hid
  rw [before, hfound, Option.getD_none]

/-- What a device finds or makes is what its request makes of what was there, but that the VLAN group
stays where nothing else differs. -/
theorem settledDevice_eq (hstores : Stores api) (hids : (objects.map NbDevice.id).Nodup)
    (hne : d.id ≠ []) :
    settledDevice api refs objects d = (resolved refs d).onto (before objects d) ∧
        (∀ v ∈ objects, v.id = d.id → compareDevice v (resolved refs d) = false) ∨
      before objects d ∈ objects ∧ (before objects d).id = d.id ∧
        compareDevice (before objects d) (resolved refs d) = true ∧
        settledDevice api refs objects d =
          { (resolved refs d).onto (before objects d) with
            vlanGroup := (before objects d).vlanGroup } := by
  rcases @SyncById.settled_cases _ _ _ _ api compareDevice (resolved refs) Device.id objects hids d
    with ⟨hcreated, hnone⟩ | ⟨v, hv, hid, ⟨hsame, hcompare⟩ | ⟨hupdated, hchanged⟩⟩
  · have hnone' : ∀ v ∈ objects, v.id ≠ d.id := fun v hv hid => hne (hnone v hv hid)
    refine Or.inl ⟨?_, fun v hv hid => absurd hid (hnone' v hv)⟩
    rw [before_of_none hids hnone', settledDevice, hcreated, hstores.created]
  · rw [before_of_mem hids hne hv hid]
    refine Or.inr ⟨hv, hid, hcompare, ?_⟩
    rw [settledDevice, hsame]
    exact (compareDevice_iff.mp hcompare).2.symm
  · rw [before_of_mem hids hne hv hid]
    refine Or.inl ⟨?_, fun u hu huid => ?_⟩
    · rw [settledDevice, hupdated, hstores.updated]
    · rw [Excerpts.unique_of_nodup hids u hu v hv (huid.trans hid.symm)]
      exact hchanged

theorem id_before (hids : (objects.map NbDevice.id).Nodup) (d : Device) :
    (before objects d).id = d.id := by
  unfold before
  cases hfound : SyncById.found devices Device.id objects d with
  | none => rfl
  | some v => exact ((SyncById.found_eq_some hids).mp hfound).2.2

/-- When a device finds or makes what it declares. -/
theorem declares_settledDevice_iff (hstores : Stores api)
    (hids : (objects.map NbDevice.id).Nodup) (hresolves : Resolves refs d) (hne : d.id ≠ []) :
    Declares refs d (settledDevice api refs objects d) ↔
      d.position < 2 ^ 31 ∧ Unset d (before objects d) ∧
        (d.vlanGroup = [] → (before objects d).vlanGroup = none) ∧
        (d.vlanGroup ≠ [] → ∀ v ∈ objects, v.id = d.id →
          compareDevice v (resolved refs d) = true → v.vlanGroup = refs.vlanGroup d.vlanGroup) := by
  have hid : d.id ≠ [] → (before objects d).id = d.id := fun _ => id_before hids d
  have hiff (group : Option Text) := @declares_onto_iff refs d hresolves (before objects d) group
  rcases settledDevice_eq hstores hids hne with ⟨hsettled, hchanged⟩ | ⟨hmem, hmemid, hsame, hsettled⟩
  · have hgroup : (resolved refs d).vlanGroup.or (before objects d).vlanGroup =
        optional refs.vlanGroup d.vlanGroup ↔
          (d.vlanGroup = [] → (before objects d).vlanGroup = none) :=
      optional_or_eq_left hresolves.vlanGroup
    have honto := hiff ((resolved refs d).onto (before objects d)).vlanGroup
    have hvacuous : ∀ v ∈ objects, v.id = d.id → compareDevice v (resolved refs d) = true →
        v.vlanGroup = refs.vlanGroup d.vlanGroup := fun v hv hvid hcompare => by
      cases (hchanged v hv hvid).symm.trans hcompare
    rw [hsettled]
    refine honto.trans ?_
    rw [and_iff_right hid, and_iff_left fun _ => hvacuous]
    exact and_congr_right fun _ => and_congr_right fun _ => hgroup
  · rw [hsettled, hiff, and_iff_right hid]
    refine and_congr_right fun _ => and_congr_right fun _ => ?_
    unfold SyncPass.optional
    split_ifs with hnamed
    · simp [hnamed]
    · constructor
      · refine fun h => ⟨fun hempty => absurd hempty hnamed, fun _ v hv hvid _ => ?_⟩
        rw [Excerpts.unique_of_nodup hids v hv _ hmem (hvid.trans hmemid.symm)]
        exact h
      · exact fun h => h.2 hnamed _ hmem hmemid hsame

/-- What a request makes compares equal with it. -/
theorem compareDevice_onto {old : NbDevice} (hid : old.id = d.id) :
    compareDevice ((resolved refs d).onto old) (resolved refs d) = true := by
  have htext (new text : Text) : textOr new (textOr new text) = textOr new text := by
    unfold textOr
    split_ifs <;> rfl
  have hor {α : Type} (new old : Option α) : new.or (new.or old) = new.or old := by
    rw [← Option.or_assoc, Option.or_self]
  refine compareDevice_iff.mpr ⟨fun id hsome => ?_, ?_⟩
  · have hopt : optionalID d.id = some id := hsome
    unfold optionalID at hopt
    split_ifs at hopt
    exact hid.trans (Option.some.inj hopt)
  · simp only [DeviceRequest.onto, htext, hor]

theorem compareDevice_settledDevice (hstores : Stores api)
    (hids : (objects.map NbDevice.id).Nodup) :
    compareDevice (settledDevice api refs objects d) (resolved refs d) = true := by
  rcases @SyncById.settled_cases _ _ _ _ api compareDevice (resolved refs) Device.id objects hids d
    with ⟨hcreated, -⟩ | ⟨v, -, hid, ⟨hsame, hcompare⟩ | ⟨hupdated, -⟩⟩
  · rw [settledDevice, hcreated, hstores.created]
    exact compareDevice_onto rfl
  · rw [settledDevice, hsame]
    exact hcompare
  · rw [settledDevice, hupdated, hstores.updated]
    exact compareDevice_onto hid

end Settled

/-! Examples. -/

/-- A Nautobot that stores what a request has. -/
def keepingApi : Api devices where
  listing objects := objects
  listing_perm := List.Perm.refl
  normalize name := name
  newId objects := List.replicate (objects.flatMap NbDevice.id).length.succ '0'
  created i req := req.onto (blank i)
  id_created _ _ := rfl
  updated v req := req.onto v
  id_updated _ _ := rfl
  accepts _ _ := true
  fails _ := false
  expires n := n = 3
  ranged ids := ids
  ranged_perm := List.Perm.refl

theorem stores_keepingApi : Stores keepingApi := ⟨fun _ _ => rfl, fun _ _ => rfl⟩

/-- Every name is found, under itself as the id. -/
def namedRefs : DeviceReferences :=
  ⟨some, some, some, some, some, some, some, fun face => face = "front".toList⟩

theorem resolves_namedRefs (d : Device) : Resolves namedRefs d :=
  ⟨rfl, rfl, rfl, rfl, fun _ => rfl, fun _ => rfl, fun _ => rfl⟩

/-- A device in rack `r`, with a serial, a position and a VLAN group. -/
def racked (id name serial : String) (position : ℤ) (vlanGroup : String) : Device where
  id := id.toList
  name := name.toList
  deviceType := ['t']
  role := ['o']
  serial := serial.toList
  assetTag := []
  status := ['s']
  location := ['l']
  rack := ['r']
  position := position
  face := []
  tenant := []
  platform := []
  comments := []
  chassisMacAddress := []
  externalCmdbID := []
  vlanGroup := vlanGroup.toList

def holding (objects : List NbDevice) : World NbDevice :=
  ⟨objects, objects.map NbDevice.id, none, 0, [], false⟩

/-- The device that a declaration makes anew. -/
def made (d : Device) : NbDevice := (resolved namedRefs d).onto (blank d.id)

/-! The passes. -/

section Passes

variable {api : Api devices} {refs : DeviceReferences} {w : World NbDevice} {desired : List Device}

theorem failed_before_syncAll (h : (syncAll api refs w desired).2.failed = false) :
    w.failed = false := SyncById.failed_before_pass h

theorem swept_of_syncAll (hresolves : ∀ d ∈ desired, Resolves refs d) (hw : Consistent devices w)
    (h : (syncAll api refs w desired).2.failed = false) :
    ∃ ids w', (syncAll api refs w desired).1 = .ok ids ∧
      Entries (SyncById.Turn api compareDevice (resolved refs) Device.id) w desired ids w' ∧
      Consistent devices w' ∧ Swept devices w' (syncAll api refs w desired).2
        (api.ranged ((SyncById.obsolete devices (api.listing w'.objects)
          (desired.map Device.name)).map fun e => e.2.id)) :=
  SyncById.swept_of_pass (fun d hd => deviceRequest_of_resolves (hresolves d hd)) hw h

theorem consistent_syncAll (hresolves : ∀ d ∈ desired, Resolves refs d) (hw : Consistent devices w)
    (h : (syncAll api refs w desired).2.failed = false) :
    Consistent devices (syncAll api refs w desired).2 := by
  obtain ⟨ids, w', -, -, hw', hswept⟩ := swept_of_syncAll hresolves hw h
  exact hswept.consistent hw'

/-- The devices between the loop and the removal of what is obsolete. -/
theorem objects_of_loop {ids : List Text} {w' : World NbDevice} (hw : Consistent devices w)
    (hne : ∀ d ∈ desired, d.id ≠ []) (hdistinct : (desired.map Device.id).Nodup)
    (h : Entries (SyncById.Turn api compareDevice (resolved refs) Device.id) w desired ids w') :
    ids = desired.map Device.id ∧ ∀ v, v ∈ w'.objects ↔
      (v ∈ w.objects ∧ v.id ∉ desired.map Device.id) ∨
        ∃ d ∈ desired, v = settledDevice api refs w.objects d :=
  SyncById.objects_of_entries h hw hdistinct fun d hd => if_neg (hne d hd)

/-- Two passes that settle had nothing to unset. -/
theorem Converges.settleable (h : Converges api refs w desired) (hstores : Stores api)
    (hresolves : ∀ d ∈ desired, Resolves refs d) (hdistinct : (desired.map Device.id).Nodup)
    (hw : Consistent devices w)
    (hok : (syncAll api refs (syncAll api refs w desired).2 desired).2.failed = false) :
    Settleable refs w.objects desired := by
  have hok' := failed_before_syncAll hok
  have hfirst := consistent_syncAll hresolves hw hok'
  have hne : ∀ d ∈ desired, d.id ≠ [] := by
    obtain ⟨ids, w', -, hentries, -, hswept⟩ := swept_of_syncAll hresolves hfirst hok
    exact SyncById.ids_of_still hentries hfirst (hswept.still hentries h.still).1
  obtain ⟨ids, w', -, hentries, -, hswept⟩ := swept_of_syncAll hresolves hw hok'
  obtain ⟨-, hobjects⟩ := objects_of_loop hw hne hdistinct hentries
  have hdeclares : ∀ d ∈ desired, Declares refs d (settledDevice api refs w.objects d) := by
    intro d hd
    obtain ⟨v, hv, hdeclares⟩ := h.declared d hd
    rw [hswept.objects] at hv
    have hid := hdeclares.id (hne d hd)
    rcases (hobjects v).mp (List.mem_filter.mp hv).1 with ⟨-, hother⟩ | ⟨d', hd', rfl⟩
    · exact absurd (hid ▸ List.mem_map_of_mem hd) hother
    · have heq : d'.id = d.id := (id_settledDevice hw.ids d').symm.trans hid
      rwa [List.inj_on_of_nodup_map hdistinct hd' hd heq] at hdeclares
  have hsettle := fun d hd =>
    (declares_settledDevice_iff hstores hw.ids (hresolves d hd) (hne d hd)).mp (hdeclares d hd)
  exact ⟨hne, fun d hd => (hsettle d hd).1, fun d hd => (hsettle d hd).2.1,
    fun d hd => (hsettle d hd).2.2.1, fun d hd => (hsettle d hd).2.2.2⟩

theorem Settleable.declares (h : Settleable refs w.objects desired) (hstores : Stores api)
    (hresolves : ∀ d ∈ desired, Resolves refs d) (hw : Consistent devices w) {d : Device}
    (hd : d ∈ desired) : Declares refs d (settledDevice api refs w.objects d) :=
  (declares_settledDevice_iff hstores hw.ids (hresolves d hd) (h.ids d hd)).mpr
    ⟨h.positions d hd, h.unset d hd, h.vlanGroup_unset d hd, h.vlanGroup d hd⟩

theorem Settleable.name_mem (h : Settleable refs w.objects desired) (hstores : Stores api)
    (hresolves : ∀ d ∈ desired, Resolves refs d) (hw : Consistent devices w) {d : Device}
    (hd : d ∈ desired) :
    (settledDevice api refs w.objects d).name ∈ desired.map Device.name := by
  rw [(h.declares hstores hresolves hw hd).name]
  exact List.mem_map_of_mem hd

/-- What is declared is not swept. -/
theorem Settleable.mem_objects (h : Settleable refs w.objects desired) (hstores : Stores api)
    (hresolves : ∀ d ∈ desired, Resolves refs d) (hdistinct : (desired.map Device.id).Nodup)
    (hw : Consistent devices w) (hok : (syncAll api refs w desired).2.failed = false) {d : Device}
    (hd : d ∈ desired) :
    settledDevice api refs w.objects d ∈ (syncAll api refs w desired).2.objects := by
  obtain ⟨ids, w', -, hentries, hw', hswept⟩ := swept_of_syncAll hresolves hw hok
  obtain ⟨-, hobjects⟩ := objects_of_loop hw h.ids hdistinct hentries
  have hmem := (hobjects _).mpr (Or.inr ⟨d, hd, rfl⟩)
  rw [hswept.objects, List.mem_filter, decide_eq_true_eq]
  refine ⟨hmem, fun hgone => ?_⟩
  have hobsolete := (SyncById.mem_swept_iff hw'.ids hmem).mp hgone.1
  exact (SyncById.mem_of_obsolete hobsolete).2.2 (h.name_mem hstores hresolves hw hd)

/-- After a pass no device of the operator's has an undeclared name. -/
theorem Settleable.name_of_owned (h : Settleable refs w.objects desired) (hstores : Stores api)
    (hresolves : ∀ d ∈ desired, Resolves refs d) (hdistinct : (desired.map Device.id).Nodup)
    (hw : Consistent devices w) (hunshared : Unshared w desired)
    (hok : (syncAll api refs w desired).2.failed = false) {v : NbDevice}
    (hv : v ∈ (syncAll api refs w desired).2.objects)
    (howned : v.id ∈ (syncAll api refs w desired).2.createdBy) :
    v.name ∈ desired.map Device.name := by
  obtain ⟨ids, w', -, hentries, hw', hswept⟩ := swept_of_syncAll hresolves hw hok
  obtain ⟨rfl, hobjects⟩ := objects_of_loop hw h.ids hdistinct hentries
  rw [hswept.objects, List.mem_filter, decide_eq_true_eq] at hv
  rw [hswept.createdBy] at howned
  by_contra hname
  obtain ⟨hmem, hstays⟩ := hv
  rcases (hobjects v).mp hmem with ⟨hold, hother⟩ | ⟨d, hd, rfl⟩
  · have howned' : v.id ∈ w.createdBy :=
      (createdBy_of_entries hentries v.id howned).resolve_right hother
    refine hstays ⟨(SyncById.mem_swept_iff hw'.ids hmem).mpr ?_, howned⟩
    refine SyncById.mem_obsolete_of_alone hmem hname fun u hu hun => ?_
    rcases (hobjects u).mp hu with ⟨huold, huother⟩ | ⟨d, hd, rfl⟩
    · exact hunshared v hold howned' hother hname u huold huother hun
    · have hun' : (settledDevice api refs w.objects d).name = v.name := hun
      exact absurd (hun' ▸ h.name_mem hstores hresolves hw hd) hname
  · exact hname (h.name_mem hstores hresolves hw hd)

theorem Settleable.converges (h : Settleable refs w.objects desired) (hstores : Stores api)
    (hresolves : ∀ d ∈ desired, Resolves refs d) (hdistinct : (desired.map Device.id).Nodup)
    (hw : Consistent devices w) (hunshared : Unshared w desired)
    (hok : (syncAll api refs (syncAll api refs w desired).2 desired).2.failed = false) :
    Converges api refs w desired := by
  have hok' := failed_before_syncAll hok
  have hfirst := consistent_syncAll hresolves hw hok'
  have hmem := fun d hd => h.mem_objects hstores hresolves hdistinct hw hok' (d := d) hd
  obtain ⟨ids, -, hreturns, -⟩ := swept_of_syncAll hresolves hw hok'
  refine ⟨⟨ids, hreturns⟩, fun d hd => ⟨_, hmem d hd, h.declares hstores hresolves hw hd⟩, ?_⟩
  obtain ⟨ids', w', -, hentries, hw', hswept⟩ := swept_of_syncAll hresolves hfirst hok
  have hkept : Kept devices (syncAll api refs w desired).2 w' :=
    SyncById.kept_of_settled hentries hfirst fun d hd => ⟨h.ids d hd, _, hmem d hd,
      id_settledDevice hw.ids d, compareDevice_settledDevice hstores hw.ids⟩
  have hnone : ∀ id ∈ api.ranged ((SyncById.obsolete devices (api.listing w'.objects)
      (desired.map Device.name)).map fun e => e.2.id), id ∉ w'.createdBy := by
    intro id hid howned
    rw [(api.ranged_perm _).mem_iff] at hid
    obtain ⟨⟨name, v⟩, hv, rfl⟩ := List.mem_map.mp hid
    obtain ⟨hv', hname, hnot⟩ := SyncById.mem_of_obsolete hv
    rw [hkept.objects] at hv'
    rw [hkept.createdBy] at howned
    refine hnot (hname ▸ ?_)
    exact h.name_of_owned hstores hresolves hdistinct hw hunshared hok' hv' howned
  rw [hswept.writes, hkept.writes, List.filter_eq_nil_iff.mpr fun id hid => by
    simpa using hnone id hid]
  simp

/-- Where no call fails and no two devices to go share a name, two passes reach the declared devices
exactly under the condition. -/
theorem devices_converge_iff (hids : (w.objects.map NbDevice.id).Nodup)
    (hcache : ∀ items, w.cache = some items → items.Subperm w.objects) (hstores : Stores api)
    (hresolves : ∀ d ∈ desired, Resolves refs d) (hdistinct : (desired.map Device.id).Nodup)
    (hunshared : Unshared w desired)
    (hok : (syncAll api refs (syncAll api refs w desired).2 desired).2.failed = false) :
    Converges api refs w desired ↔ Settleable refs w.objects desired := by
  have hw : Consistent devices w := consistent_of_subperm hids hcache
  exact ⟨fun h => h.settleable hstores hresolves hdistinct hw hok,
    fun h => h.converges hstores hresolves hdistinct hw hunshared hok⟩

end Passes

/-- A device changes its serial and its VLAN group, one is new and one is to go. -/
theorem devices_converge_iff_changed :
    Converges keepingApi namedRefs
      (holding [made (racked "a" "x" "1" 3 ""), made (racked "b" "y" "2" 5 "")])
      [racked "a" "x" "7" 4 "g", racked "c" "z" "9" 6 "h"] := by
  refine (devices_converge_iff (by decide) (fun items hitems => by cases hitems) stores_keepingApi
    (fun d _ => resolves_namedRefs d) (by decide) ?_ (by decide)).mpr
    ⟨by decide, by decide, fun d hd => ?_, by decide, by decide⟩
  · unfold Unshared
    decide
  · rcases List.mem_pair.mp hd with rfl | rfl
    · exact ⟨by decide, by decide, by decide, by decide, by decide, by decide, by decide,
        by decide, by decide⟩
    · exact ⟨by decide, by decide, by decide, by decide, by decide, by decide, by decide,
        by decide, by decide⟩

/-- A VLAN group that alone has to change stays as it was. -/
theorem vlan_group_ignored :
    let w := holding [made (racked "a" "x" "1" 3 "")]
    let desired := [racked "a" "x" "1" 3 "g"]
    (w.objects.map NbDevice.id).Nodup ∧ Stores keepingApi ∧
      (∀ d ∈ desired, Resolves namedRefs d) ∧ (desired.map Device.id).Nodup ∧
      (desired.map Device.name).Nodup ∧
      (syncAll keepingApi namedRefs (syncAll keepingApi namedRefs w desired).2
        desired).2.failed = false ∧ ¬Converges keepingApi namedRefs w desired := by
  intro w desired
  refine ⟨by decide, stores_keepingApi, fun d _ => resolves_namedRefs d, by decide, by decide,
    by decide, fun h => ?_⟩
  obtain ⟨v, hv, hdeclares⟩ := h.declared _ List.mem_cons_self
  have hobjects : (syncAll keepingApi namedRefs w desired).2.objects = w.objects := by decide
  rw [hobjects] at hv
  rw [List.mem_singleton.mp hv] at hdeclares
  exact absurd hdeclares.vlanGroup (by decide)

end Understack.Nautobotop.Devices
