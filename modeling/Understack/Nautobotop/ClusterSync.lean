import Mathlib.Logic.Function.Basic
import Understack.Nautobotop.DeviceSync

/-! `ClusterSync.SyncAll`: the clusters are synced by id, and after each its devices are assigned to
it and others, as far as one request lists them, removed from it. -/
namespace Understack.Nautobotop.Clusters
open PyText CachedService CompareJson SyncPass
open Devices (NbDevice devices)

/-- `models.Cluster`, an entry of the YAML. -/
structure Cluster where
  id : Text
  name : Text
  comments : Text
  clusterType : Text
  clusterGroup : Text
  location : Text
  devices : List Text

/-- `nb.Cluster`, as far as a request can set it. -/
structure NbCluster where
  id : Text
  name : Text
  comments : Text
  clusterType : Text
  clusterGroup : Option Text
  location : Option Text
  deriving DecidableEq

structure ClusterRequest where
  id : Option Text
  name : Text
  comments : Text
  clusterType : Text
  clusterGroup : Option Text
  location : Option Text

/-- The ids that the lookups by name answer. -/
structure ClusterReferences where
  clusterType : Text → Option Text
  clusterGroup : Text → Option Text
  location : Text → Option Text

def clusters : Resource NbCluster ClusterRequest := ⟨NbCluster.id, NbCluster.name, ClusterRequest.id⟩

abbrev ClusterJson := Members Unit

def NbCluster.json (v : NbCluster) : ClusterJson :=
  [("id".toList, .string v.id),
    ("name".toList, .string v.name),
    ("comments".toList, .string v.comments),
    ("cluster_type".toList, refJson v.clusterType),
    ("cluster_group".toList, (v.clusterGroup.map refJson).getD .null),
    ("location".toList, (v.location.map refJson).getD .null)]

def ClusterRequest.json (r : ClusterRequest) : ClusterJson :=
  ([member "id" (r.id.map .string),
    member "name" (some (.string r.name)),
    member "comments" (some (.string r.comments)),
    member "cluster_type" (some (refJson r.clusterType)),
    member "cluster_group" (r.clusterGroup.map refJson),
    member "location" (r.location.map refJson)] : List ClusterJson).flatten

def compareCluster (existing : NbCluster) (req : ClusterRequest) : Bool :=
  compareJSONFields existing.json req.json

def clusterRequest (refs : ClusterReferences) (cluster : Cluster) :
    Except SyncError ClusterRequest := do
  let clusterType ← required "cluster type".toList refs.clusterType cluster.clusterType
  let clusterGroup ← requiredIfNamed "cluster group".toList refs.clusterGroup cluster.clusterGroup
  .ok {
    id := optionalID cluster.id
    name := cluster.name
    comments := cluster.comments
    clusterType := clusterType
    clusterGroup := clusterGroup
    location := optional refs.location cluster.location }

/-- What is decided outside, for each of the two services, and how many results a request without
paging arguments lists. -/
structure Services where
  clusters : Api clusters
  devices : Api devices
  pageSize : ℕ

/-- The clusters and the devices, with the cluster of the device under an id and the calls of
`AssignToCluster` that succeeded. -/
structure State where
  clusters : World NbCluster
  devices : World NbDevice
  cluster : Text → Option Text
  assignments : List (Text × Option Text)

section Operations

variable (api : Services)

/-- No cluster unassigns the device. An unknown device or cluster is refused. -/
def assignToCluster (s : State) (deviceID : Text) (clusterID : Option Text) : State :=
  if api.devices.fails s.devices.ticks || !(s.devices.objects.map NbDevice.id).contains deviceID ||
      !clusterID.all (s.clusters.objects.map NbCluster.id).contains then
    { s with devices := call s.devices false }
  else
    { s with
      devices := call s.devices true
      cluster := Function.update s.cluster deviceID clusterID
      assignments := s.assignments ++ [(deviceID, clusterID)] }

/-- The first page of the devices of a cluster. -/
def pageOf (s : State) (clusterID : Text) : List NbDevice :=
  ((api.devices.listing s.devices.objects).filter fun d => s.cluster d.id = some clusterID).take
    api.pageSize

def listByCluster (s : State) (clusterID : Text) : List NbDevice × State :=
  if api.devices.fails s.devices.ticks then ([], { s with devices := call s.devices false })
  else (pageOf api s clusterID, { s with devices := call s.devices true })

/-- The map from the desired names to ids; a device that is not found is left out. -/
def resolveDevices : World NbDevice → List (Text × Text) → List Text →
    List (Text × Text) × World NbDevice
  | w, desired, [] => (desired, w)
  | w, desired, name :: names =>
    match getByName api.devices w name with
    | (none, w) => resolveDevices w desired names
    | (some d, w) => resolveDevices w (PyDict.put name d.id desired) names

/-- The ids under the names that the other map does not have. -/
def missing (a b : List (Text × Text)) : List Text :=
  (a.filter fun e => e.1 ∉ b.map Prod.fst).map Prod.snd

/-- The errors of `AssignToCluster` are ignored. -/
def assignAll (s : State) (clusterID : Option Text) (ids : List Text) : State :=
  ids.foldl (fun s id => assignToCluster api s id clusterID) s

def syncClusterDevices (s : State) (clusterID : Text) (desiredDeviceNames : List Text) : State :=
  let (desired, w) := resolveDevices api s.devices [] desiredDeviceNames
  let (listed, s) := listByCluster api { s with devices := w } clusterID
  let current := listed.foldl (fun m d => PyDict.put d.name d.id m) []
  let s := assignAll api s (some clusterID) (api.devices.ranged (missing desired current))
  assignAll api s none (api.devices.ranged (missing current desired))

variable (refs : ClusterReferences)

/-- The part that concerns the cluster itself. -/
def applyCluster (w : World NbCluster) (cluster : Cluster) :
    Except SyncError Text × World NbCluster :=
  syncSingle api.clusters compareCluster (fun w c => getByID api.clusters w c.id)
    (clusterRequest refs) w cluster

/-- No error is `nil`. -/
def syncSingleCluster (s : State) (cluster : Cluster) : Option SyncError × State :=
  match applyCluster api refs s.clusters cluster with
  | (.error e, w) => (some e, { s with clusters := w })
  | (.ok id, w) =>
    let s := { s with clusters := w }
    (none, if cluster.devices = [] then s else syncClusterDevices api s id cluster.devices)

def syncClusters : State → List Cluster → Option SyncError × State
  | s, [] => (none, s)
  | s, cluster :: rest =>
    match syncSingleCluster api refs s cluster with
    | (some e, s) => (some e, s)
    | (none, s) => syncClusters s rest

/-- Nautobot unassigns the devices of a cluster that is destroyed. -/
def released (before after : List NbCluster) (cluster : Text → Option Text) : Text → Option Text :=
  fun d => (cluster d).filter fun c => c ∉ before.map NbCluster.id ∨ c ∈ after.map NbCluster.id

def syncAll (s : State) (desired : List Cluster) : Option SyncError × State :=
  match syncClusters api refs s desired with
  | (some e, s) => (some e, s)
  | (none, s) =>
    let w := SyncById.deleteObsolete api.clusters (desired.map Cluster.name) s.clusters
    (none, { s with
      clusters := w
      cluster := released s.clusters.objects w.objects s.cluster })

end Operations

/-! The clusters themselves. -/

theorem name_of_compareCluster {v : NbCluster} {req : ClusterRequest}
    (h : compareCluster v req = true) : v.name = req.name := by
  have hmem : ("name".toList, Any.string req.name) ∈ req.json := by
    simp [ClusterRequest.json, member]
  obtain ⟨value, hlookup, hvalue⟩ := compared_of_mem h hmem (by decide)
  have hname : v.json.lookup "name".toList = some (.string v.name) := rfl
  rw [hname] at hlookup
  cases hlookup
  exact compareJSONValues_string.mp hvalue

/-- The request of a cluster whose names are found. -/
def resolved (refs : ClusterReferences) (c : Cluster) : ClusterRequest where
  id := optionalID c.id
  name := c.name
  comments := c.comments
  clusterType := (refs.clusterType c.clusterType).getD []
  clusterGroup := optional refs.clusterGroup c.clusterGroup
  location := optional refs.location c.location

theorem eq_resolved {refs : ClusterReferences} {c : Cluster} {req : ClusterRequest}
    (h : clusterRequest refs c = .ok req) : req = resolved refs c := by
  obtain ⟨clusterType, htype, h⟩ := Runs.bind_eq_ok h
  obtain ⟨clusterGroup, hgroup, h⟩ := Runs.bind_eq_ok h
  cases h
  have htype' : (refs.clusterType c.clusterType).getD [] = clusterType := by
    unfold required at htype
    split at htype
    · rename_i id hid
      cases htype
      rw [hid, Option.getD_some]
    · cases htype
  have hgroup' : optional refs.clusterGroup c.clusterGroup = clusterGroup := by
    unfold requiredIfNamed required at hgroup
    unfold SyncPass.optional
    split_ifs at hgroup ⊢
    · cases hgroup
      rfl
    · split at hgroup
      · rename_i id hid
        cases hgroup
        exact hid
      · cases hgroup
  rw [resolved, htype', hgroup']

/-! The maps from names to ids. -/

/-- The map has the devices' names, each with the id of its device. -/
def Indexes (m : List (Text × Text)) (listed : List NbDevice) : Prop :=
  ∀ name id, (name, id) ∈ m ↔ ∃ d ∈ listed, d.name = name ∧ d.id = id

theorem indexes_of_names {m : List (Text × Text)} {listed objects : List NbDevice}
    (hnames : (objects.map NbDevice.name).Nodup) (hlisted : ∀ d ∈ listed, d ∈ objects)
    (hfrom : ∀ e ∈ m, ∃ d ∈ listed, d.name = e.1 ∧ d.id = e.2)
    (hkeys : ∀ d ∈ listed, d.name ∈ m.map Prod.fst) : Indexes m listed := by
  intro name id
  constructor
  · exact fun h => hfrom (name, id) h
  · rintro ⟨d, hd, rfl, rfl⟩
    obtain ⟨⟨name, id⟩, hmem, hname⟩ := List.mem_map.mp (hkeys d hd)
    obtain ⟨u, hu, hun, hid⟩ := hfrom (name, id) hmem
    have heq : u = d :=
      Excerpts.unique_of_nodup hnames u (hlisted u hu) d (hlisted d hd) (hun.trans hname)
    rw [← heq, hid, show u.name = name from hun]
    exact hmem

/-- What one map has and the other misses, where both are of devices with names of their own. -/
theorem mem_missing {a b : List (Text × Text)} {xs ys objects : List NbDevice}
    (hnames : (objects.map NbDevice.name).Nodup) (hxs : ∀ d ∈ xs, d ∈ objects)
    (hys : ∀ d ∈ ys, d ∈ objects) (ha : Indexes a xs) (hb : Indexes b ys) (id : Text) :
    id ∈ missing a b ↔ ∃ d ∈ xs, d ∉ ys ∧ d.id = id := by
  have hkey : ∀ d ∈ objects, d.name ∈ b.map Prod.fst ↔ d ∈ ys := by
    intro d hd
    constructor
    · intro h
      obtain ⟨⟨name, i⟩, hmem, hname⟩ := List.mem_map.mp h
      obtain ⟨u, hu, hun, -⟩ := (hb name i).mp hmem
      have heq := Excerpts.unique_of_nodup hnames u (hys u hu) d hd (hun.trans hname)
      exact heq ▸ hu
    · intro h
      exact List.mem_map.mpr ⟨(d.name, d.id), (hb d.name d.id).mpr ⟨d, h, rfl, rfl⟩, rfl⟩
  rw [missing, List.mem_map]
  constructor
  · rintro ⟨⟨name, i⟩, hfilter, rfl⟩
    obtain ⟨hmem, hnot⟩ := List.mem_filter.mp hfilter
    obtain ⟨d, hd, rfl, rfl⟩ := (ha name i).mp hmem
    exact ⟨d, hd, fun h => of_decide_eq_true hnot ((hkey d (hxs d hd)).mpr h), rfl⟩
  · rintro ⟨d, hd, hnot, rfl⟩
    have hmem := (ha d.name d.id).mpr ⟨d, hd, rfl, rfl⟩
    refine ⟨(d.name, d.id), List.mem_filter.mpr ⟨hmem, ?_⟩, rfl⟩
    exact decide_eq_true fun h => hnot ((hkey d (hxs d hd)).mp h)

theorem indexes_current {listed objects : List NbDevice}
    (hnames : (objects.map NbDevice.name).Nodup) (hlisted : ∀ d ∈ listed, d ∈ objects) :
    Indexes (listed.foldl (fun m d => PyDict.put d.name d.id m) []) listed := by
  have hkeys := PyDict.nodup_keys_foldl_put NbDevice.name NbDevice.id listed
    (d := ([] : List (Text × Text))) List.nodup_nil
  have hlookup := PyDict.lookup_foldl_put NbDevice.name NbDevice.id listed
    (d := ([] : List (Text × Text)))
  apply indexes_of_names hnames hlisted
  · intro e he
    have hfind := PyDict.lookup_of_mem hkeys (k := e.1) (v := e.2) he
    rw [hlookup, List.lookup_nil, Option.or_none, Option.map_eq_some_iff] at hfind
    obtain ⟨d, hd, hid⟩ := hfind
    have hname : d.name = e.1 := by simpa using List.find?_some hd
    exact ⟨d, List.mem_reverse.mp (List.mem_of_find?_eq_some hd), hname, hid⟩
  · intro d hd
    cases hfind : listed.reverse.find? fun u => u.name = d.name with
    | none =>
      have hnot := List.find?_eq_none.mp hfind d (List.mem_reverse.mpr hd)
      simp at hnot
    | some u =>
      have hmem := PyDict.mem_of_lookup (k := d.name) (v := u.id)
        (show _ = some u.id by rw [hlookup, hfind]; rfl)
      exact List.mem_map_of_mem hmem

/-! The calls for one cluster. -/

section Calls

variable {api : Services}

/-- The devices under the ids are in the cluster, or in none, and the others where they were. -/
structure Assigned (s s' : State) (clusterID : Option Text) (ids : List Text) : Prop where
  devices : Kept devices s.devices s'.devices
  cluster : ∀ id, s'.cluster id = if id ∈ ids then clusterID else s.cluster id
  assignments : s'.assignments = s.assignments ++ ids.map fun id => (id, clusterID)

theorem Assigned.cons {s s₁ s' : State} {clusterID : Option Text} {id : Text} {ids : List Text}
    (h : Assigned s s₁ clusterID [id]) (h' : Assigned s₁ s' clusterID ids) :
    Assigned s s' clusterID (id :: ids) := by
  refine ⟨h.devices.trans h'.devices, fun i => ?_, ?_⟩
  · rw [h'.cluster, h.cluster]
    by_cases hi : i ∈ ids
    · simp [hi]
    · simp [hi]
  · rw [h'.assignments, h.assignments, List.append_assoc]
    rfl

theorem assigned_assignToCluster {clusterID : Option Text} {id : Text} {s : State}
    (h : (assignToCluster api s id clusterID).devices.failed = false) :
    Assigned s (assignToCluster api s id clusterID) clusterID [id] := by
  unfold assignToCluster at h ⊢
  split_ifs at h ⊢
  · rw [failed_call_false] at h
    cases h
  · refine ⟨kept_call s.devices true, fun i => ?_, rfl⟩
    by_cases hi : i = id
    · subst hi
      simp
    · simp [hi]

theorem clusters_assignAll (s : State) (clusterID : Option Text) (ids : List Text) :
    (assignAll api s clusterID ids).clusters = s.clusters := by
  induction ids generalizing s with
  | nil => rfl
  | cons id ids ih =>
    apply (ih _).trans
    dsimp only [assignToCluster]
    split_ifs
    · rfl
    · rfl

theorem failed_of_assignAll {clusterID : Option Text} {ids : List Text} {s : State}
    (h : (assignAll api s clusterID ids).devices.failed = false) : s.devices.failed = false := by
  induction ids generalizing s with
  | nil => exact h
  | cons id ids ih => exact (assigned_assignToCluster (ih h)).devices.failed (ih h)

theorem assigned_assignAll {clusterID : Option Text} {ids : List Text} {s : State}
    (h : (assignAll api s clusterID ids).devices.failed = false) :
    Assigned s (assignAll api s clusterID ids) clusterID ids := by
  induction ids generalizing s with
  | nil => exact ⟨Kept.refl s.devices, fun id => by simp [assignAll], by simp [assignAll]⟩
  | cons id ids ih => exact (assigned_assignToCluster (failed_of_assignAll h)).cons (ih h)

/-- The first page lists devices of the cluster. -/
theorem mem_of_pageOf {s : State} {clusterID : Text} {d : NbDevice}
    (h : d ∈ pageOf api s clusterID) :
    d ∈ s.devices.objects ∧ s.cluster d.id = some clusterID := by
  have hmem := List.mem_filter.mp (List.mem_of_mem_take h)
  exact ⟨(api.devices.listing_perm _).mem_iff.mp hmem.1, of_decide_eq_true hmem.2⟩

theorem failed_of_resolveDevices {names : List Text} {desired : List (Text × Text)}
    {w : World NbDevice} (h : (resolveDevices api w desired names).2.failed = false) :
    w.failed = false := by
  induction names generalizing w desired with
  | nil => exact h
  | cons name names ih =>
    have hkept := kept_getByName api.devices w name
    unfold resolveDevices at h
    generalize getByName api.devices w name = r at h hkept
    obtain ⟨_ | d, w'⟩ := r
    · exact hkept.failed (ih h)
    · exact hkept.failed (ih h)

/-- The devices that are looked up enter the map, with others that were there. -/
theorem resolveDevices_of_success (hexact : ∀ name, api.devices.normalize name = name)
    {names : List Text} {desired : List (Text × Text)} {w : World NbDevice}
    (hw : Consistent devices w) (hexist : ∀ name ∈ names, ∃ d ∈ w.objects, d.name = name)
    (hdesired : ∀ e ∈ desired, ∃ d ∈ w.objects, d.name = e.1 ∧ d.id = e.2)
    (h : (resolveDevices api w desired names).2.failed = false) :
    Kept devices w (resolveDevices api w desired names).2 ∧
      (∀ e ∈ (resolveDevices api w desired names).1, ∃ d ∈ w.objects, d.name = e.1 ∧ d.id = e.2) ∧
      ∀ name, name ∈ (resolveDevices api w desired names).1.map Prod.fst ↔
        name ∈ desired.map Prod.fst ∨ name ∈ names := by
  induction names generalizing w desired with
  | nil => exact ⟨Kept.refl w, hdesired, fun name => by simp [resolveDevices]⟩
  | cons name names ih =>
    have hkept := kept_getByName api.devices w name
    have hfound := @getByName_found _ _ devices api.devices w hw name
    unfold resolveDevices at h ⊢
    generalize getByName api.devices w name = r at h hkept hfound ⊢
    obtain ⟨_ | d, w'⟩ := r
    · obtain ⟨u, hu, hun⟩ := hexist name List.mem_cons_self
      have hnone := (hfound (failed_of_resolveDevices h)).2 rfl u hu
      exact absurd (hun.trans (hexact name).symm) hnone
    · obtain ⟨hd, hname⟩ := (hfound (failed_of_resolveDevices h)).1 d rfl
      rw [hexact, or_self] at hname
      have hobjects : w'.objects = w.objects := hkept.objects
      have hrest := ih (hkept.consistent hw)
        (fun n hn => hobjects ▸ hexist n (List.mem_cons_of_mem name hn))
        (fun e he => by
          rw [hobjects]
          rcases PyDict.mem_put he with rfl | he
          · exact ⟨d, hd, hname, rfl⟩
          · exact hdesired e he) h
      rw [hobjects] at hrest
      refine ⟨hkept.trans hrest.1, hrest.2.1, fun n => (hrest.2.2 n).trans ?_⟩
      rw [PyDict.mem_keys_put, List.mem_cons, or_assoc, or_left_comm]

/-- The devices that a turn takes to be in the cluster; it does not ask for a cluster without
declared devices. -/
def membersSeen (api : Services) (c : Cluster) (s : State) : List NbDevice :=
  if c.devices = [] then [] else pageOf api s c.id

/-- A turn puts the declared devices into the cluster and removes the others that it sees in it. -/
structure Turned (api : Services) (c : Cluster) (s s' : State) : Prop where
  devices : Kept devices s.devices s'.devices
  cluster : ∀ d ∈ s.devices.objects, s'.cluster d.id =
    if d.name ∈ c.devices then some c.id
    else if d ∈ membersSeen api c s then none else s.cluster d.id
  assignments : ∃ more, s'.assignments = s.assignments ++ more
  still : s'.assignments = s.assignments ↔
    ∀ d ∈ s.devices.objects, d.name ∈ c.devices ↔ d ∈ membersSeen api c s

/-- Names and ids are unique, and the cache is an excerpt. -/
structure Known (w : World NbDevice) : Prop where
  consistent : Consistent devices w
  names : (w.objects.map NbDevice.name).Nodup

theorem Known.of_kept {w w' : World NbDevice} (h : Known w) (hk : Kept devices w w') : Known w' :=
  ⟨hk.consistent h.consistent, by rw [hk.objects]; exact h.names⟩

theorem listByCluster_of_success {s : State} {clusterID : Text}
    (h : (listByCluster api s clusterID).2.devices.failed = false) :
    listByCluster api s clusterID =
      (pageOf api s clusterID, { s with devices := call s.devices true }) := by
  unfold listByCluster at h ⊢
  split_ifs at h ⊢
  · rw [failed_call_false] at h
    cases h
  · rfl

theorem failed_of_listByCluster {s : State} {clusterID : Text}
    (h : (listByCluster api s clusterID).2.devices.failed = false) :
    s.devices.failed = false := by
  rw [listByCluster_of_success h] at h
  exact (kept_call (R := devices) s.devices true).failed h

/-- The device under an id among those that a map indexes. -/
theorem id_mem_ranged {s : State} (hw : Known s.devices) {ids : List Text} {p : NbDevice → Prop}
    (hids : ∀ id, id ∈ ids ↔ ∃ d ∈ s.devices.objects, p d ∧ d.id = id) {d : NbDevice}
    (hd : d ∈ s.devices.objects) : d.id ∈ api.devices.ranged ids ↔ p d := by
  rw [(api.devices.ranged_perm ids).mem_iff, hids]
  constructor
  · rintro ⟨u, hu, hp, heq⟩
    exact Excerpts.unique_of_nodup hw.consistent.ids u hu d hd heq ▸ hp
  · exact fun hp => ⟨d, hd, hp, rfl⟩

theorem ranged_eq_nil {s : State} {ids : List Text} {p : NbDevice → Prop}
    (hids : ∀ id, id ∈ ids ↔ ∃ d ∈ s.devices.objects, p d ∧ d.id = id) :
    api.devices.ranged ids = [] ↔ ∀ d ∈ s.devices.objects, ¬ p d := by
  rw [List.eq_nil_iff_forall_not_mem]
  simp only [(api.devices.ranged_perm ids).mem_iff, hids]
  constructor
  · exact fun h d hd hp => h d.id ⟨d, hd, hp, rfl⟩
  · rintro h id ⟨d, hd, hp, -⟩
    exact h d hd hp

theorem turned_syncClusterDevices (hexact : ∀ name, api.devices.normalize name = name)
    {s : State} {c : Cluster} (hw : Known s.devices) (hne : c.devices ≠ [])
    (hexist : ∀ name ∈ c.devices, ∃ d ∈ s.devices.objects, d.name = name)
    (h : (syncClusterDevices api s c.id c.devices).devices.failed = false) :
    Turned api c s (syncClusterDevices api s c.id c.devices) := by
  have hseen : membersSeen api c s = pageOf api s c.id := if_neg hne
  have hresolve := @resolveDevices_of_success api hexact c.devices [] s.devices hw.consistent hexist
    fun e he => by cases he
  unfold syncClusterDevices at h ⊢
  generalize resolveDevices api s.devices [] c.devices = r at h hresolve ⊢
  obtain ⟨desired, w⟩ := r
  dsimp only at h hresolve ⊢
  -- the calls before the last ones succeed as well
  have hlist := failed_of_assignAll (failed_of_assignAll h)
  have hlisted := listByCluster_of_success hlist
  rw [hlisted] at h hlist ⊢
  dsimp only at h hlist ⊢
  have hcall := (kept_call (R := devices) w true).failed hlist
  obtain ⟨hkept, hfrom, hkeys⟩ := hresolve hcall
  have hobjects : w.objects = s.devices.objects := hkept.objects
  have hpage : pageOf api { s with devices := w } c.id = pageOf api s c.id := by
    simp only [pageOf, hobjects]
  rw [hpage] at h ⊢
  -- what the two maps index
  have hcurrent : Indexes _ (pageOf api s c.id) :=
    indexes_current hw.names fun d hd => (mem_of_pageOf hd).1
  generalize (pageOf api s c.id).foldl (fun m d => PyDict.put d.name d.id m) [] = current
    at h hcurrent ⊢
  have hdesired : Indexes desired (s.devices.objects.filter fun d => d.name ∈ c.devices) := by
    apply indexes_of_names hw.names
    · exact fun d hd => (List.mem_filter.mp hd).1
    · intro e he
      obtain ⟨d, hd, hname, hid⟩ := hfrom e he
      have hmem := (hkeys e.1).mp (List.mem_map_of_mem he)
      rw [List.map_nil, List.mem_nil_iff, false_or] at hmem
      exact ⟨d, List.mem_filter.mpr ⟨hd, decide_eq_true (hname ▸ hmem)⟩, hname, hid⟩
    · intro d hd
      exact (hkeys d.name).mpr (Or.inr (of_decide_eq_true (List.mem_filter.mp hd).2))
  have hassign : ∀ id, id ∈ missing desired current ↔ ∃ d ∈ s.devices.objects,
      (d.name ∈ c.devices ∧ d ∉ pageOf api s c.id) ∧ d.id = id := by
    intro id
    rw [mem_missing hw.names (fun d hd => (List.mem_filter.mp hd).1)
      (fun d hd => (mem_of_pageOf hd).1) hdesired hcurrent]
    simp only [List.mem_filter, decide_eq_true_eq, and_assoc]
  have hunassign : ∀ id, id ∈ missing current desired ↔ ∃ d ∈ s.devices.objects,
      (d ∈ pageOf api s c.id ∧ d.name ∉ c.devices) ∧ d.id = id := by
    intro id
    rw [mem_missing hw.names (fun d hd => (mem_of_pageOf hd).1)
      (fun d hd => (List.mem_filter.mp hd).1) hcurrent hdesired]
    constructor
    · rintro ⟨d, hd, hnot, hid⟩
      have hmem := (mem_of_pageOf hd).1
      exact ⟨d, hmem, ⟨hd, fun hn => hnot (List.mem_filter.mpr ⟨hmem, decide_eq_true hn⟩)⟩, hid⟩
    · rintro ⟨d, -, ⟨hd, hnot⟩, hid⟩
      exact ⟨d, hd, fun hf => hnot (of_decide_eq_true (List.mem_filter.mp hf).2), hid⟩
  have hin := assigned_assignAll (failed_of_assignAll h)
  have hout := assigned_assignAll h
  refine ⟨(hkept.trans (kept_call w true)).trans (hin.devices.trans hout.devices),
    fun d hd => ?_, ?_, ?_⟩
  · rw [hout.cluster, hin.cluster, hseen]
    simp only [id_mem_ranged hw hassign hd, id_mem_ranged hw hunassign hd]
    by_cases hname : d.name ∈ c.devices
    · by_cases hmem : d ∈ pageOf api s c.id
      · simp [hname, hmem, (mem_of_pageOf hmem).2]
      · simp [hname, hmem]
    · by_cases hmem : d ∈ pageOf api s c.id
      · simp [hname, hmem]
      · simp [hname, hmem]
  · exact ⟨_, by rw [hout.assignments, hin.assignments, List.append_assoc]⟩
  · rw [hout.assignments, hin.assignments, List.append_assoc, List.append_right_eq_self,
      List.append_eq_nil_iff, List.map_eq_nil_iff, List.map_eq_nil_iff, ranged_eq_nil hassign,
      ranged_eq_nil hunassign, hseen]
    constructor
    · rintro ⟨hnone, hnone'⟩ d hd
      by_contra hdiff
      have := hnone d hd
      have := hnone' d hd
      tauto
    · exact fun hsame => ⟨fun d hd hp => hp.2 ((hsame d hd).mp hp.1),
        fun d hd hp => hp.2 ((hsame d hd).mpr hp.1)⟩

theorem clusters_syncClusterDevices (s : State) (clusterID : Text) (names : List Text) :
    (syncClusterDevices api s clusterID names).clusters = s.clusters := by
  simp only [syncClusterDevices, clusters_assignAll]
  unfold listByCluster
  split_ifs
  · rfl
  · rfl

theorem failed_of_syncClusterDevices {s : State} {clusterID : Text} {names : List Text}
    (h : (syncClusterDevices api s clusterID names).devices.failed = false) :
    s.devices.failed = false := by
  unfold syncClusterDevices at h
  exact failed_of_resolveDevices
    (failed_of_listByCluster (failed_of_assignAll (failed_of_assignAll h)))

/-! The loop. -/

variable {refs : ClusterReferences}

theorem syncSingleCluster_of_none {s : State} {c : Cluster}
    (h : (syncSingleCluster api refs s c).1 = none) :
    ∃ id, applyCluster api refs s.clusters c =
        (.ok id, (syncSingleCluster api refs s c).2.clusters) ∧
      clusterRequest refs c = .ok (resolved refs c) ∧
      (syncSingleCluster api refs s c).2 =
        if c.devices = [] then { s with clusters := (syncSingleCluster api refs s c).2.clusters }
        else syncClusterDevices api
          { s with clusters := (syncSingleCluster api refs s c).2.clusters } id c.devices := by
  have hrequest : ∀ id, (applyCluster api refs s.clusters c).1 = .ok id →
      clusterRequest refs c = .ok (resolved refs c) := by
    intro id hid
    unfold applyCluster syncSingle at hid
    cases hreq : clusterRequest refs c with
    | error e =>
      simp only [hreq] at hid
      cases hid
    | ok req => rw [eq_resolved hreq]
  unfold syncSingleCluster at h ⊢
  generalize applyCluster api refs s.clusters c = r at h hrequest ⊢
  obtain ⟨e | id, w⟩ := r
  · cases h
  · have hclusters : (if c.devices = [] then { s with clusters := w }
        else syncClusterDevices api { s with clusters := w } id c.devices).clusters = w := by
      split_ifs
      · rfl
      · exact clusters_syncClusterDevices _ id c.devices
    dsimp only
    rw [hclusters]
    exact ⟨id, rfl, hrequest id rfl, rfl⟩

theorem syncClusters_cons {s : State} {c : Cluster} {rest : List Cluster}
    (h : (syncClusters api refs s (c :: rest)).1 = none) :
    (syncSingleCluster api refs s c).1 = none ∧
      syncClusters api refs s (c :: rest) =
        syncClusters api refs (syncSingleCluster api refs s c).2 rest := by
  unfold syncClusters at h
  rw [syncClusters]
  generalize syncSingleCluster api refs s c = r at h ⊢
  obtain ⟨_ | e, s'⟩ := r
  · exact ⟨rfl, rfl⟩
  · cases h

end Calls

end Understack.Nautobotop.Clusters
