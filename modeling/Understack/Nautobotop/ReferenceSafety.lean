import Understack.Nautobotop.ReferenceBuilders

/-! Which passes can dereference a nil id: that of the rack groups alone, where a location is not
found. -/
namespace Understack.Nautobotop.ServiceCalls
open PyText SyncPass GoCalls
open Clusters (Cluster)
open Devices (Device)

variable (nb : Nautobot) (k : Kind)

/-! The calls and the builders that look before they dereference. -/

theorem noPanic_getByName (name : Text) : NoPanic (getByName nb k name) := noPanic_lift _

theorem noPanic_getByID (id : Text) : NoPanic (getByID nb k id) := noPanic_lift _

theorem noPanic_requiredReference (what : String) (name : Text) :
    NoPanic (requiredReference nb k what name) :=
  (noPanic_getByName nb k name).bind fun _ =>
    noPanic_ite (fun _ => noPanic_fail _) fun h => noPanic_deref h

theorem noPanic_optionalReference (name : Text) : NoPanic (optionalReference nb k name) :=
  (noPanic_getByName nb k name).bind fun _ =>
    noPanic_ite (fun _ => noPanic_pure _) fun h => (noPanic_deref h).map _

variable {k} in
theorem noPanic_ifNamed {name : Text} {build : Text → Sync (Option Text)}
    (h : NoPanic (build name)) : NoPanic (ifNamed name build) :=
  noPanic_ite (fun _ => noPanic_pure _) fun _ => h

theorem noPanic_buildParentReference (parentID : Option Text) :
    NoPanic (buildParentReference parentID) :=
  noPanic_ite (fun _ => noPanic_pure _) fun h => (noPanic_deref h).map _

theorem noPanic_syncObject (existing : Object) (req : Request) :
    NoPanic (syncObject nb k existing req) := by
  refine noPanic_ite (fun _ => ?_) fun h => noPanic_ite (fun _ => ?_) fun _ => noPanic_pure _
  · exact (noPanic_attempt _).bind fun _ => noPanic_pure _
  · exact (noPanic_deref h).bind fun _ => (noPanic_attempt _).bind fun _ => noPanic_pure _

/-! The removals. -/

theorem noPanic_destroyNamed (obsolete : List (Text × Object)) (name : Text) :
    NoPanic (destroyNamed nb k obsolete name) := by
  rw [destroyNamed]
  cases obsolete.lookup name with
  | none => exact noPanic_pure _
  | some o =>
    exact noPanic_ite (fun _ => noPanic_pure _) fun h =>
      (noPanic_deref h).bind fun _ => noPanic_lift _

theorem noPanic_deleteObsolete (names : List Text) : NoPanic (deleteObsolete nb k names) :=
  (noPanic_lift _).bind fun _ => noPanic_forM fun _ _ => noPanic_destroyNamed nb k _ _

/-- A child that is removed lies below the object that is removed under the name. -/
theorem mem_childrenMap {obsolete : List (Text × Object)} (hkeys : (obsolete.map Prod.fst).Nodup)
    {name child : Text} (h : child ∈ childrenMap nb obsolete name) :
    ∃ o o' id, obsolete.lookup child = some o ∧ obsolete.lookup name = some o' ∧
      o'.id = some id ∧ o.parent = some id := by
  obtain ⟨-, hparent⟩ := List.mem_filter.mp h
  obtain ⟨o, ho, hbind⟩ := Option.bind_eq_some_iff.mp (of_decide_eq_true hparent)
  obtain ⟨id, hid, hname⟩ := Option.bind_eq_some_iff.mp hbind
  obtain ⟨⟨name', o'⟩, hfind, rfl⟩ := Option.map_eq_some_iff.mp hname
  refine ⟨o, o', id, ho, PyDict.lookup_of_mem hkeys (List.mem_of_find?_eq_some hfind), ?_, hid⟩
  simpa using List.find?_some hfind

/-- The recursion ends, since parents come before their children. -/
theorem visitAll_obsolete (n : ℕ) (names roots : List Text) :
    ∃ deleted, PostOrder.visitAll
      (childrenMap nb (SyncById.obsolete objects (nb.listAll n k) names))
      ((SyncById.obsolete objects (nb.listAll n k) names).length + 1) roots = some deleted := by
  generalize hobsolete : SyncById.obsolete objects (nb.listAll n k) names = obsolete
  have hkeys : (obsolete.map Prod.fst).Nodup := hobsolete ▸ SyncById.nodup_keys_obsolete
  have hmem {name : Text} {o : Object} (h : obsolete.lookup name = some o) :
      o ∈ nb.listAll n k := by
    have hentry := PyDict.mem_of_lookup h
    rw [← hobsolete] at hentry
    exact List.mem_reverse.mp (List.mem_of_find?_eq_some (SyncById.mem_obsolete.mp hentry).1)
  obtain ⟨depth, hdepth⟩ := nb.listAll_acyclic n k
  let rank (name : Text) : ℕ := (((obsolete.lookup name).bind Object.id).map depth).getD 0
  have hrank : ∀ name, ∀ child ∈ childrenMap nb obsolete name, rank name < rank child := by
    intro name child hchild
    obtain ⟨o, o', id, ho, ho', hid, hparent⟩ := mem_childrenMap nb hkeys hchild
    obtain ⟨id', hid'⟩ := Option.ne_none_iff_exists'.mp (nb.listAll_ids n k o (hmem ho))
    simp only [rank, ho, ho', hid, hid', Option.bind_some, Option.map_some, Option.getD_some]
    exact hdepth o (hmem ho) id' id hid' hparent
  rw [← List.length_map Prod.fst]
  refine PostOrder.visitAll_returns hrank (fun name child hchild => ?_) roots
  exact (nb.ranged_perm _).mem_iff.mp (List.mem_filter.mp hchild).1

theorem noPanic_deleteObsoleteTrees (names : List Text) :
    NoPanic (deleteObsoleteTrees nb k names) := by
  intro w
  rw [deleteObsoleteTrees, returns_iff, safe_bind]
  refine (safe_listAll nb k w).mono ?_
  rintro _ w' ⟨n, rfl⟩
  obtain ⟨deleted, hdeleted⟩ := visitAll_obsolete nb k n names
    (nb.ranged ((SyncById.obsolete objects (nb.listAll n k) names).map Prod.fst))
  dsimp only
  rw [hdeleted]
  exact (noPanic_forM fun _ _ => noPanic_destroyNamed nb k _ _).safe w'

/-! The passes. -/

theorem noPanic_syncSingleLocationType (e : LocationTypes.Fields) (parentID : Option Text) :
    NoPanic (LocationTypeSync.syncSingleLocationType nb e parentID) :=
  (noPanic_getByID nb _ _).bind fun _ => (noPanic_buildParentReference parentID).bind fun _ =>
    noPanic_syncObject nb _ _ _

theorem noPanic_syncSingleLocation (e : Location) (parentID : Option Text) :
    NoPanic (LocationSync.syncSingleLocation nb e parentID) :=
  (noPanic_getByID nb _ _).bind fun _ => (noPanic_requiredReference nb _ _ _).bind fun _ =>
    (noPanic_requiredReference nb _ _ _).bind fun _ =>
      (noPanic_buildParentReference parentID).bind fun _ => noPanic_syncObject nb _ _ _

theorem noPanic_syncSingleRack (e : Rack) : NoPanic (RackSync.syncSingleRack nb e) :=
  (noPanic_getByID nb _ _).bind fun _ => (noPanic_requiredReference nb _ _ _).bind fun _ =>
    (noPanic_requiredReference nb _ _ _).bind fun _ =>
      (noPanic_ifNamed ((noPanic_requiredReference nb _ _ _).map _)).bind fun _ =>
        (noPanic_syncObject nb _ _ _).map _

theorem noPanic_buildTagReferences (tagNames : List Text) :
    NoPanic (TenantSync.buildTagReferences nb tagNames) := by
  refine noPanic_foldlM (fun tags name _ => ?_) []
  refine (noPanic_getByName nb _ name).bind fun tag => noPanic_ite (fun h => ?_) fun _ => ?_
  · exact (noPanic_deref h).bind fun _ => noPanic_pure _
  · exact noPanic_pure _

theorem noPanic_syncSingleTenant (e : Tenant) : NoPanic (TenantSync.syncSingleTenant nb e) :=
  (noPanic_getByID nb _ _).bind fun _ =>
    (noPanic_ifNamed (noPanic_optionalReference nb _ _)).bind fun _ =>
      (noPanic_buildTagReferences nb e.tags).bind fun _ => (noPanic_syncObject nb _ _ _).map _

theorem noPanic_syncSingleDevice (e : Device) : NoPanic (DeviceSync.syncSingleDevice nb e) :=
  (noPanic_getByID nb _ _).bind fun _ => (noPanic_requiredReference nb _ _ _).bind fun _ =>
    (noPanic_requiredReference nb _ _ _).bind fun _ =>
      (noPanic_requiredReference nb _ _ _).bind fun _ =>
        (noPanic_requiredReference nb _ _ _).bind fun _ =>
          (noPanic_ifNamed ((noPanic_requiredReference nb _ _ _).map _)).bind fun _ =>
            (noPanic_ifNamed ((noPanic_requiredReference nb _ _ _).map _)).bind fun _ =>
              (noPanic_ifNamed (noPanic_optionalReference nb _ _)).bind fun _ =>
                (noPanic_syncObject nb _ _ _).map _

theorem noPanic_syncClusterDevices (clusterID : Text) (names : List Text) :
    NoPanic (ClusterSync.syncClusterDevices nb clusterID names) := by
  have hresolve : NoPanic (ClusterSync.resolveDevices nb names) := by
    refine noPanic_foldlM (fun ids name _ => ?_) []
    refine (noPanic_getByName nb _ name).bind fun device => noPanic_ite (fun _ => noPanic_pure _) ?_
    exact fun h => (noPanic_deref h).bind fun _ => noPanic_pure _
  have hassign (ids others : List (Text × Text)) (clusterID : Option Text) :
      NoPanic (ClusterSync.assignMissing nb ids others clusterID) := by
    refine noPanic_forM fun name _ => noPanic_ite (fun _ => noPanic_pure _) fun _ => ?_
    cases ids.lookup name with
    | none => exact noPanic_pure _
    | some id => exact (noPanic_lift _).map _
  refine hresolve.bind fun desired w => ?_
  rw [returns_iff, safe_bind]
  refine (safe_listByCluster nb clusterID w).mono fun devices w' hids => ?_
  -- the ids that are dereferenced are those of listed devices
  have hcurrent : NoPanic (ClusterSync.currentDevices devices) :=
    noPanic_foldlM (fun _ d hd => (noPanic_deref (hids d hd)).bind fun _ => noPanic_pure _) []
  exact (hcurrent.bind fun current => (hassign desired current (some clusterID)).bind fun _ =>
    hassign current desired none).safe w'

theorem noPanic_syncSingleCluster (e : Cluster) : NoPanic (ClusterSync.syncSingleCluster nb e) :=
  (noPanic_getByID nb _ _).bind fun _ => (noPanic_requiredReference nb _ _ _).bind fun _ =>
    (noPanic_ifNamed ((noPanic_requiredReference nb _ _ _).map _)).bind fun _ =>
      (noPanic_ifNamed (noPanic_optionalReference nb _ _)).bind fun _ =>
        (noPanic_syncObject nb _ _ _).bind fun _ =>
          noPanic_ite (fun h => (noPanic_deref h.1).bind fun _ => noPanic_syncClusterDevices nb _ _)
            fun _ => noPanic_pure _

/-- What the lookup of the location of a rack group answers, after that of the group itself. -/
def locationOf (e : RackGroup) (w : World) : Object :=
  (lookupName nb .location e.location (lookupID nb .rackGroup e.id w).2).1

theorem returns_syncSingleRackGroup (e : RackGroup) (parentID : Option Text) (w : World) :
    Returns (RackGroupSync.syncSingleRackGroup nb e parentID) w ↔
      (locationOf nb e w).id ≠ none := by
  have hparent : ∃ parent, buildParentReference parentID = pure parent := by
    cases parentID with
    | none => exact ⟨none, rfl⟩
    | some id => exact ⟨some id, rfl⟩
  obtain ⟨parent, hparent⟩ := hparent
  rw [returns_iff, RackGroupSync.syncSingleRackGroup, safe_bind, getByID, safe_lift, hparent,
    safe_bind, safe_pure, safe_bind, RackGroupSync.buildLocationReference, safe_bind, getByName,
    safe_lift, safe_deref]
  constructor
  · rintro ⟨id, hid, -⟩ hnone
    rw [locationOf, hid] at hnone
    cases hnone
  · intro hsome
    obtain ⟨id, hid⟩ := Option.ne_none_iff_exists'.mp hsome
    exact ⟨id, hid, (noPanic_syncObject nb .rackGroup _ _).safe _⟩

/-- A run of the pass in which the lookups that matter find something. -/
def LocationsFound (nb : Nautobot) : Declared → World → Prop
  | .rackGroups forest => AlongAll (RackGroupSync.syncSingleRackGroup nb)
      (fun e w => (locationOf nb e w).id ≠ none) none forest
  | _ => fun _ => True

theorem returns_rackGroups (forest : List (Nested RackGroup)) (w : World) :
    Returns (RackGroupSync.syncAll nb forest) w ↔ LocationsFound nb (.rackGroups forest) w := by
  rw [RackGroupSync.syncAll, returns_iff, safe_bind, safe_iff_returned, LocationsFound,
    returns_walkAll (returns_syncSingleRackGroup nb) none w forest, and_iff_left_iff_imp]
  exact fun _ _ w' _ => (noPanic_deleteObsoleteTrees nb _ _).safe w'

/-- A pass comes to its end, or to an error, exactly when it is not that of the rack groups, or the
location of every rack group that it comes to is found. -/
theorem syncAll_returns_iff (nb : Nautobot) (declared : Declared) (w : World) :
    Returns (syncAll nb declared) w ↔ LocationsFound nb declared w := by
  have hflat {E : Type} {single : E → Sync Unit} {entries : List E} {k : Kind} {names : List Text}
      (h : ∀ e, NoPanic (single e)) :
      NoPanic (do entries.forM single; deleteObsolete nb k names) :=
    (noPanic_forM fun e _ => h e).bind fun _ => noPanic_deleteObsolete nb k names
  cases declared with
  | rackGroups forest => exact returns_rackGroups nb forest w
  | locationTypes forest =>
    exact iff_of_true ((noPanic_walkAll (noPanic_syncSingleLocationType nb) none forest).bind
      (fun _ => noPanic_deleteObsoleteTrees nb _ _) w) trivial
  | locations forest =>
    exact iff_of_true ((noPanic_walkAll (noPanic_syncSingleLocation nb) none forest).bind
      (fun _ => noPanic_deleteObsoleteTrees nb _ _) w) trivial
  | racks racks => exact iff_of_true (hflat (noPanic_syncSingleRack nb) w) trivial
  | tenants tenants => exact iff_of_true (hflat (noPanic_syncSingleTenant nb) w) trivial
  | devices devices => exact iff_of_true (hflat (noPanic_syncSingleDevice nb) w) trivial
  | clusters clusters => exact iff_of_true (hflat (noPanic_syncSingleCluster nb) w) trivial

/-- A Nautobot without objects. -/
def emptyNautobot : Nautobot where
  list _ _ _ := some []
  list_ids := by simp
  listAll _ _ := []
  listAll_ids := by simp
  listAll_acyclic _ _ := ⟨fun _ => 0, by simp⟩
  write _ _ _ _ := none
  createdByUser _ _ := some false
  destroys _ _ _ := false
  assigns _ _ _ := false
  expires _ := false
  ranged names := names
  ranged_perm names := List.Perm.refl names
  rackFace _ := false

/-- One rack group in a location that does not exist. -/
def oneRackGroup : Declared :=
  .rackGroups [.node ⟨[], "row 1".toList, [], "nowhere".toList⟩ []]

theorem missing_location_panics :
    ¬ Returns (syncAll emptyNautobot oneRackGroup) ⟨fun _ => none, 0⟩ := by
  rw [oneRackGroup, syncAll, returns_rackGroups, LocationsFound, AlongAll, Along]
  exact fun h => h.1.1 rfl

end Understack.Nautobotop.ServiceCalls
