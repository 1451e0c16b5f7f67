import Mathlib.Data.List.Dedup
import Mathlib.Data.List.Perm.Lattice
import Understack.Nautobotop.ClusterSync
import Understack.Nautobotop.DeviceConvergence

/-! Which devices are in which cluster after `ClusterSync.SyncAll`: devices move between clusters
turn by turn, and a cluster loses a device only where its own turn sees it. -/
namespace Understack.Nautobotop.Clusters
open PyText CachedService SyncPass
open Devices (NbDevice devices)

/-- The loop over the clusters, as far as the devices go. -/
inductive Turns (api : Services) : State → List Cluster → State → Prop
  | nil (s : State) : Turns api s [] s
  | cons {s s₁ s' : State} {c : Cluster} {rest : List Cluster} (hturn : Turned api c s s₁)
      (hrest : Turns api s₁ rest s') : Turns api s (c :: rest) s'

section Turns

variable {api : Services} {s s' : State} {c : Cluster} {d : NbDevice} {l : List Cluster}

theorem Turns.devices (h : Turns api s l s') : Kept devices s.devices s'.devices := by
  induction h with
  | nil s => exact Kept.refl s.devices
  | cons hturn hrest ih => exact hturn.devices.trans ih

theorem Turns.split {pre rest : List Cluster} (h : Turns api s (pre ++ c :: rest) s') :
    ∃ s₁ s₂, Turns api s pre s₁ ∧ Turned api c s₁ s₂ ∧ Turns api s₂ rest s' := by
  induction pre generalizing s with
  | nil =>
    cases h with
    | cons hturn hrest => exact ⟨s, _, .nil s, hturn, hrest⟩
  | cons c' pre ih =>
    cases h with
    | cons hturn hrest =>
      obtain ⟨s₁, s₂, hpre, hown, hlater⟩ := ih hrest
      exact ⟨s₁, s₂, .cons hturn hpre, hown, hlater⟩

theorem mem_of_membersSeen (h : d ∈ membersSeen api c s) :
    d ∈ s.devices.objects ∧ s.cluster d.id = some c.id := by
  unfold membersSeen at h
  split_ifs at h
  · cases h
  · exact mem_of_pageOf h

/-- The cluster's own turn takes in what is declared and keeps what it does not see. -/
theorem Turned.own (h : Turned api c s s') (hd : d ∈ s.devices.objects) :
    s'.cluster d.id = some c.id ↔
      d.name ∈ c.devices ∨ s.cluster d.id = some c.id ∧ d ∉ membersSeen api c s := by
  rw [h.cluster d hd]
  split_ifs with hname hseen
  · simp [hname]
  · simp [hname, hseen]
  · simp [hname, hseen]

/-- The turn of another cluster takes from this one what that one declares. -/
theorem Turned.other (h : Turned api c s s') (hd : d ∈ s.devices.objects) {clusterID : Text}
    (hne : clusterID ≠ c.id) :
    s'.cluster d.id = some clusterID ↔ s.cluster d.id = some clusterID ∧ d.name ∉ c.devices := by
  rw [h.cluster d hd]
  split_ifs with hname hseen
  · simp [hname, hne.symm]
  · have hin := (mem_of_membersSeen hseen).2
    simp [hin, hne.symm]
  · simp [hname]

theorem Turns.other (h : Turns api s l s') (hd : d ∈ s.devices.objects) {clusterID : Text}
    (hne : clusterID ∉ l.map Cluster.id) :
    s'.cluster d.id = some clusterID ↔
      s.cluster d.id = some clusterID ∧ d.name ∉ l.flatMap Cluster.devices := by
  induction h with
  | nil s => simp
  | cons hturn hrest ih =>
    rw [List.map_cons, List.mem_cons, not_or] at hne
    rw [ih (hturn.devices.objects ▸ hd) hne.2, hturn.other hd hne.1, List.flatMap_cons,
      List.mem_append, not_or, and_assoc]

/-- What the turn of a cluster sees once the turns before it took what they declare. -/
def seenAfter (api : Services) (s : State) (earlier : List Cluster) (c : Cluster) :
    List NbDevice :=
  if c.devices = [] then []
  else ((api.devices.listing s.devices.objects).filter fun d =>
    s.cluster d.id = some c.id ∧ d.name ∉ earlier.flatMap Cluster.devices).take api.pageSize

theorem membersSeen_of_turns (h : Turns api s l s') (hne : c.id ∉ l.map Cluster.id) :
    membersSeen api c s' = seenAfter api s l c := by
  have hobjects : s'.devices.objects = s.devices.objects := h.devices.objects
  unfold membersSeen seenAfter
  split_ifs
  · rfl
  · rw [pageOf, hobjects]
    congr 1
    apply List.filter_congr
    intro d hd
    have hmem := (api.devices.listing_perm _).mem_iff.mp hd
    exact decide_eq_decide.mpr (h.other hmem hne)

/-- The cluster has the devices that it lists. -/
def HasMembers (s : State) (c : Cluster) : Prop :=
  ∀ d ∈ s.devices.objects, s.cluster d.id = some c.id ↔ d.name ∈ c.devices

/-- A loop leaves a cluster with the devices that it lists where its turn sees all others that no
list names. -/
theorem Turns.hasMembers_iff {earlier later : List Cluster} (h : Turns api s l s')
    (hl : l = earlier ++ c :: later) (hids : (l.map Cluster.id).Nodup)
    (hdisjoint : l.Pairwise fun c c' => c.devices.Disjoint c'.devices) :
    HasMembers s' c ↔ ∀ d ∈ s.devices.objects, s.cluster d.id = some c.id →
      d.name ∉ l.flatMap Cluster.devices → d ∈ seenAfter api s earlier c := by
  subst hl
  have hapart := (List.pairwise_cons.mp (List.pairwise_append.mp hdisjoint).2.1).1
  obtain ⟨s₁, s₂, hearlier, hturn, hlater⟩ := h.split
  rw [List.map_append, List.map_cons, List.nodup_middle, List.nodup_cons, List.mem_append,
    not_or] at hids
  obtain ⟨⟨hfresh, hfresh'⟩, -⟩ := hids
  have hobjects₁ : s₁.devices.objects = s.devices.objects := hearlier.devices.objects
  have hobjects₂ : s₂.devices.objects = s.devices.objects :=
    hturn.devices.objects.trans hobjects₁
  have hobjects : s'.devices.objects = s.devices.objects := h.devices.objects
  -- where a device is in the end
  have hfinal : ∀ d ∈ s.devices.objects, s'.cluster d.id = some c.id ↔
      (d.name ∈ c.devices ∨ (s.cluster d.id = some c.id ∧
        d.name ∉ earlier.flatMap Cluster.devices) ∧ d ∉ seenAfter api s earlier c) ∧
      d.name ∉ later.flatMap Cluster.devices := by
    intro d hd
    rw [hlater.other (hobjects₂ ▸ hd) hfresh', hturn.own (hobjects₁ ▸ hd),
      hearlier.other hd hfresh, membersSeen_of_turns hearlier hfresh]
  unfold HasMembers
  rw [hobjects]
  refine forall₂_congr fun d hd => ?_
  rw [hfinal d hd, List.flatMap_append, List.flatMap_cons, List.mem_append, List.mem_append,
    not_or, not_or]
  by_cases hname : d.name ∈ c.devices
  · have hlate : d.name ∉ later.flatMap Cluster.devices := by
      intro hmem
      obtain ⟨c', hc', hname'⟩ := List.mem_flatMap.mp hmem
      exact hapart c' hc' hname hname'
    tauto
  · tauto

/-- A turn changes nothing in a cluster that has the devices it lists, provided they fit a page. -/
theorem seen_iff_fits (hw : Known s.devices)
    (hexist : ∀ name ∈ c.devices, ∃ d ∈ s.devices.objects, d.name = name)
    (hmembers : HasMembers s c) :
    (∀ d ∈ s.devices.objects, d.name ∈ c.devices ↔ d ∈ membersSeen api c s) ↔
      c.devices.dedup.length ≤ api.pageSize := by
  unfold membersSeen
  split_ifs with hnone
  · simp [hnone]
  let listed := (api.devices.listing s.devices.objects).filter fun d => s.cluster d.id = some c.id
  have hperm := api.devices.listing_perm s.devices.objects
  have hmem : ∀ d, d ∈ listed ↔ d ∈ s.devices.objects ∧ d.name ∈ c.devices := by
    intro d
    rw [List.mem_filter, decide_eq_true_eq, hperm.mem_iff]
    exact and_congr_right fun hd => hmembers d hd
  have hnames : (listed.map NbDevice.name).Nodup :=
    (List.filter_sublist.map NbDevice.name).nodup ((hperm.map NbDevice.name).nodup_iff.mpr hw.names)
  have hlength : listed.length = c.devices.dedup.length := by
    rw [← List.length_map (f := NbDevice.name)]
    apply List.Perm.length_eq
    apply (List.perm_ext_iff_of_nodup hnames (List.nodup_dedup c.devices)).mpr
    intro name
    rw [List.mem_map, List.mem_dedup]
    constructor
    · rintro ⟨d, hd, rfl⟩
      exact ((hmem d).mp hd).2
    · intro hname
      obtain ⟨d, hd, rfl⟩ := hexist name hname
      exact ⟨d, (hmem d).mpr ⟨hd, hname⟩, rfl⟩
  change (∀ d ∈ s.devices.objects, d.name ∈ c.devices ↔ d ∈ listed.take api.pageSize) ↔ _
  rw [← hlength]
  constructor
  · intro hsame
    have hsub : listed ⊆ listed.take api.pageSize := fun d hd =>
      (hsame d ((hmem d).mp hd).1).mp ((hmem d).mp hd).2
    have hle := (List.subperm_of_subset hnames.of_map hsub).length_le
    rw [List.length_take] at hle
    omega
  · intro hfits d hd
    rw [List.take_of_length_le hfits, hmem]
    exact (and_iff_right hd).symm

theorem Turns.assignments (h : Turns api s l s') :
    ∃ more, s'.assignments = s.assignments ++ more := by
  induction h with
  | nil s => exact ⟨[], (List.append_nil _).symm⟩
  | cons hturn hrest ih =>
    obtain ⟨first, hfirst⟩ := hturn.assignments
    obtain ⟨more, hmore⟩ := ih
    exact ⟨first ++ more, by rw [hmore, hfirst, List.append_assoc]⟩

/-- A loop over clusters that have the devices they list assigns nothing exactly where every list
fits a page. -/
theorem Turns.still_iff (h : Turns api s l s') (hw : Known s.devices)
    (hexist : ∀ c ∈ l, ∀ name ∈ c.devices, ∃ d ∈ s.devices.objects, d.name = name)
    (hmembers : ∀ c ∈ l, HasMembers s c) :
    s'.assignments = s.assignments ↔ ∀ c ∈ l, c.devices.dedup.length ≤ api.pageSize := by
  induction h with
  | nil s => simp
  | @cons s s₁ s' c rest hturn hrest ih =>
    have hobjects : s₁.devices.objects = s.devices.objects := hturn.devices.objects
    have hown := hmembers c List.mem_cons_self
    have hfits := hturn.still.trans
      (seen_iff_fits hw (hexist c List.mem_cons_self) hown)
    rw [List.forall_mem_cons, ← hfits]
    -- a turn that assigns nothing leaves every device where it is
    have hrest' : s₁.assignments = s.assignments →
        (s'.assignments = s.assignments ↔ ∀ c ∈ rest, c.devices.dedup.length ≤ api.pageSize) := by
      intro hstill
      have hsame := hturn.still.mp hstill
      have hcluster : ∀ d ∈ s.devices.objects, s₁.cluster d.id = s.cluster d.id := by
        intro d hd
        rw [hturn.cluster d hd]
        split_ifs with hname hseen
        · exact ((hown d hd).mpr hname).symm
        · exact absurd ((hsame d hd).mpr hseen) hname
        · rfl
      rw [← hstill]
      apply ih (hw.of_kept hturn.devices)
      · intro c hc name hname
        rw [hobjects]
        exact hexist c (List.mem_cons_of_mem _ hc) name hname
      · intro c hc d hd
        rw [hobjects] at hd
        rw [hcluster d hd]
        exact hmembers c (List.mem_cons_of_mem _ hc) d hd
    constructor
    · intro hstill
      obtain ⟨first, hfirst⟩ := hturn.assignments
      obtain ⟨more, hmore⟩ := hrest.assignments
      have hempty : first = [] ∧ more = [] := by
        rw [hmore, hfirst, List.append_assoc] at hstill
        simpa using hstill
      have hstill₁ : s₁.assignments = s.assignments := by rw [hfirst, hempty.1, List.append_nil]
      exact ⟨hstill₁, (hrest' hstill₁).mp hstill⟩
    · exact fun ⟨hstill, hall⟩ => (hrest' hstill).mpr hall

end Turns

/-! The loop as the code runs it. -/

section Loop

variable {api : Services} {refs : ClusterReferences} {s : State} {desired : List Cluster}

theorem failed_of_syncSingleCluster {c : Cluster}
    (h : (syncSingleCluster api refs s c).1 = none) :
    ((syncSingleCluster api refs s c).2.clusters.failed = false → s.clusters.failed = false) ∧
      ((syncSingleCluster api refs s c).2.devices.failed = false → s.devices.failed = false) := by
  obtain ⟨id, happly, -, hstate⟩ := syncSingleCluster_of_none h
  constructor
  · intro hf
    apply failed_before_syncSingle
      (fun w (c : Cluster) => kept_getByID api.clusters w c.id) s.clusters c
    show (applyCluster api refs s.clusters c).2.failed = false
    rw [happly]
    exact hf
  · intro hf
    rw [hstate] at hf
    split_ifs at hf
    · exact hf
    · have hbefore := failed_of_syncClusterDevices hf
      exact hbefore

theorem failed_of_syncClusters (h : (syncClusters api refs s desired).1 = none) :
    ((syncClusters api refs s desired).2.clusters.failed = false → s.clusters.failed = false) ∧
      ((syncClusters api refs s desired).2.devices.failed = false →
        s.devices.failed = false) := by
  induction desired generalizing s with
  | nil => exact ⟨id, id⟩
  | cons c rest ih =>
    obtain ⟨hsingle, hloop⟩ := syncClusters_cons h
    rw [hloop] at h ⊢
    have hfirst := failed_of_syncSingleCluster hsingle
    exact ⟨fun hf => hfirst.1 ((ih h).1 hf), fun hf => hfirst.2 ((ih h).2 hf)⟩

/-- The clusters of the loop are those of a loop over clusters alone. -/
theorem syncEntries_of_syncClusters (h : (syncClusters api refs s desired).1 = none) :
    (∀ c ∈ desired, clusterRequest refs c = .ok (resolved refs c)) ∧
      ∃ ids, syncEntries (applyCluster api refs) s.clusters desired =
        (.ok ids, (syncClusters api refs s desired).2.clusters) := by
  induction desired generalizing s with
  | nil => exact ⟨by simp, [], rfl⟩
  | cons c rest ih =>
    obtain ⟨hsingle, hloop⟩ := syncClusters_cons h
    obtain ⟨id, happly, hrequest, -⟩ := syncSingleCluster_of_none hsingle
    rw [hloop] at h ⊢
    obtain ⟨hrequests, ids, hids⟩ := ih h
    refine ⟨List.forall_mem_cons.mpr ⟨hrequest, hrequests⟩, id :: ids, ?_⟩
    rw [syncEntries_cons happly, hids]
    rfl

/-- One turn of the loop over the clusters. -/
abbrev ClusterTurn (api : Services) (refs : ClusterReferences) :
    World NbCluster → Cluster → Text → World NbCluster → Prop :=
  SyncById.Turn api.clusters compareCluster (resolved refs) Cluster.id

theorem clusterTurn_of_success {w : World NbCluster} {c : Cluster} (hw : Consistent clusters w)
    (hrequest : clusterRequest refs c = .ok (resolved refs c))
    (h : (applyCluster api refs w c).2.failed = false) :
    ∃ id, (applyCluster api refs w c).1 = .ok id ∧
      ClusterTurn api refs w c id (applyCluster api refs w c).2 :=
  step_of_success (fun w (c : Cluster) => kept_getByID api.clusters w c.id)
    (fun _ _ hw hf => SyncById.getByID_eq_found hw hf) hrequest hw h

theorem turned_of_state (hexact : ∀ name, api.devices.normalize name = name) {s' : State}
    {c : Cluster} {w : World NbCluster} (hw : Known s.devices)
    (hexist : ∀ name ∈ c.devices, ∃ d ∈ s.devices.objects, d.name = name)
    (hstate : s' = if c.devices = [] then { s with clusters := w }
      else syncClusterDevices api { s with clusters := w } c.id c.devices)
    (hf : s'.devices.failed = false) : Turned api c s s' := by
  split_ifs at hstate with hnone
  · subst hstate
    have hseen : membersSeen api c s = [] := if_pos hnone
    refine ⟨Kept.refl s.devices, fun d hd => ?_, ⟨[], (List.append_nil _).symm⟩, ?_⟩
    · simp [hnone, hseen]
    · simp [hnone, hseen]
  · subst hstate
    have hturn := turned_syncClusterDevices (s := { s with clusters := w }) hexact hw hnone hexist hf
    exact ⟨hturn.devices, hturn.cluster, hturn.assignments, hturn.still⟩

theorem turns_of_success (hexact : ∀ name, api.devices.normalize name = name)
    (hclusters : Consistent clusters s.clusters) (hw : Known s.devices)
    (hne : ∀ c ∈ desired, c.id ≠ [])
    (hexist : ∀ c ∈ desired, ∀ name ∈ c.devices, ∃ d ∈ s.devices.objects, d.name = name)
    (h : (syncClusters api refs s desired).1 = none)
    (hf : (syncClusters api refs s desired).2.clusters.failed = false)
    (hf' : (syncClusters api refs s desired).2.devices.failed = false) :
    Turns api s desired (syncClusters api refs s desired).2 := by
  induction desired generalizing s with
  | nil => exact .nil s
  | cons c rest ih =>
    obtain ⟨hsingle, hloop⟩ := syncClusters_cons h
    rw [hloop] at h hf hf' ⊢
    have hfailed := failed_of_syncClusters h
    obtain ⟨id, happly, hrequest, hstate⟩ := syncSingleCluster_of_none hsingle
    have hsuccess : (applyCluster api refs s.clusters c).2.failed = false := by
      rw [happly]
      exact hfailed.1 hf
    obtain ⟨id', hid', hcluster⟩ := clusterTurn_of_success hclusters hrequest hsuccess
    rw [happly] at hid' hcluster
    cases hid'
    have hown : (resolved refs c).id = some c.id := if_neg (hne c List.mem_cons_self)
    obtain ⟨rfl, -⟩ := SyncById.Turn.objects hcluster hclusters hown
    have hturn : Turned api c s (syncSingleCluster api refs s c).2 :=
      turned_of_state hexact hw (hexist c List.mem_cons_self) hstate (hfailed.2 hf')
    refine .cons hturn (ih (Step.consistent hcluster hclusters) (hw.of_kept hturn.devices)
      (fun c' hc => hne c' (List.mem_cons_of_mem c hc)) (fun c' hc name hname => ?_) h hf hf')
    obtain ⟨d, hd, hdn⟩ := hexist c' (List.mem_cons_of_mem c hc) name hname
    exact ⟨d, hturn.devices.objects ▸ hd, hdn⟩

theorem entries_of_success (hclusters : Consistent clusters s.clusters)
    (h : (syncClusters api refs s desired).1 = none)
    (hf : (syncClusters api refs s desired).2.clusters.failed = false) :
    ∃ ids, Entries (ClusterTurn api refs) s.clusters desired ids
      (syncClusters api refs s desired).2.clusters := by
  obtain ⟨hrequests, ids, hids⟩ := syncEntries_of_syncClusters h
  have hmono : ∀ w c, (applyCluster api refs w c).2.failed = false → w.failed = false :=
    failed_before_syncSingle fun w (c : Cluster) => kept_getByID api.clusters w c.id
  obtain ⟨ids', -, hentries⟩ := SyncPass.entries_of_success hmono
    (fun w c hc hw hf => clusterTurn_of_success hw (hrequests c hc) hf)
    (fun w c id w' hstep hw => Step.consistent hstep hw) hclusters (by rw [hids]; exact hf)
  rw [hids] at hentries
  exact ⟨ids', hentries⟩

/-- A run that returns no error is the loop and the removal of what is obsolete. -/
theorem syncAll_of_none (h : (syncAll api refs s desired).1 = none) :
    (syncClusters api refs s desired).1 = none ∧
      (syncAll api refs s desired).2 =
        let s' := (syncClusters api refs s desired).2
        let w := SyncById.deleteObsolete api.clusters (desired.map Cluster.name) s'.clusters
        { s' with
          clusters := w
          cluster := released s'.clusters.objects w.objects s'.cluster } := by
  unfold syncAll at h ⊢
  generalize syncClusters api refs s desired = r at h ⊢
  obtain ⟨_ | e, s'⟩ := r
  · exact ⟨rfl, rfl⟩
  · cases h

end Loop

/-! Two runs. -/

/-- What is relied on: Nautobot filters devices by their exact name, gives a cluster the name of its
request, keeps the names of clusters unique, and makes no id up that is declared. -/
structure Serves (api : Services) (declared : List Text) : Prop where
  exact : ∀ name, api.devices.normalize name = name
  created : ∀ id req, (api.clusters.created id req).name = req.name
  updated : ∀ v req, (api.clusters.updated v req).name = req.name
  unique : ∀ others v, api.clusters.accepts others v = true → ∀ u ∈ others, u.name ≠ v.name
  fresh : ∀ objects, api.clusters.newId objects ∉ declared

/-- No call failed and there was no error. -/
structure Done (r : Option SyncError × State) : Prop where
  error : r.1 = none
  clusters : r.2.clusters.failed = false
  devices : r.2.devices.failed = false

section Runs

variable {api : Services} {refs : ClusterReferences} {s : State} {desired : List Cluster}

theorem name_settledCluster (hserves : Serves api (desired.map Cluster.id))
    {objects : List NbCluster} (hids : (objects.map NbCluster.id).Nodup) (c : Cluster) :
    (SyncById.settled api.clusters compareCluster (resolved refs) Cluster.id objects c).name =
      c.name := by
  rcases @SyncById.settled_cases _ _ _ _ api.clusters compareCluster (resolved refs) Cluster.id
    objects hids c with ⟨hcreated, -⟩ | ⟨v, -, -, ⟨hsame, hcompare⟩ | ⟨hupdated, -⟩⟩
  · rw [hcreated, hserves.created]
    rfl
  · rw [hsame, name_of_compareCluster hcompare]
    rfl
  · rw [hupdated, hserves.updated]
    rfl

/-- A run, with the loop over the clusters and the removal of others. -/
structure Ran (api : Services) (refs : ClusterReferences) (s s' : State) (desired : List Cluster)
    (loop : State) : Prop where
  entries : ∃ ids, Entries (ClusterTurn api refs) s.clusters desired ids loop.clusters
  consistent : Consistent clusters loop.clusters
  swept : Swept clusters loop.clusters s'.clusters (api.clusters.ranged
    ((SyncById.obsolete clusters (api.clusters.listing loop.clusters.objects)
      (desired.map Cluster.name)).map fun e => e.2.id))
  devices : s'.devices = loop.devices
  cluster : s'.cluster = released loop.clusters.objects s'.clusters.objects loop.cluster
  assignments : s'.assignments = loop.assignments

theorem ran_of_done (hclusters : Consistent clusters s.clusters)
    (hdone : Done (syncAll api refs s desired)) :
    Ran api refs s (syncAll api refs s desired).2 desired (syncClusters api refs s desired).2 := by
  obtain ⟨hnone, hstate⟩ := syncAll_of_none hdone.error
  have hfailed := hdone.clusters
  rw [hstate] at hfailed ⊢
  have hloop := SyncById.failed_before_deleteObsolete hfailed
  obtain ⟨ids, hentries⟩ := entries_of_success hclusters hnone hloop
  exact ⟨⟨ids, hentries⟩,
    hentries.invariant (fun _ _ _ _ hstep hw => Step.consistent hstep hw) hclusters,
    SyncById.swept_deleteObsolete hfailed, rfl, rfl, rfl⟩

theorem Ran.turns (h : Ran api refs s (syncAll api refs s desired).2 desired
      (syncClusters api refs s desired).2) {declared : List Text} (hserves : Serves api declared)
    (hclusters : Consistent clusters s.clusters) (hdevices : Known s.devices)
    (hne : ∀ c ∈ desired, c.id ≠ [])
    (hexist : ∀ c ∈ desired, ∀ name ∈ c.devices, ∃ d ∈ s.devices.objects, d.name = name)
    (hdone : Done (syncAll api refs s desired)) :
    Turns api s desired (syncClusters api refs s desired).2 := by
  obtain ⟨hnone, hstate⟩ := syncAll_of_none hdone.error
  have hfailed := hdone.clusters
  rw [hstate] at hfailed
  exact turns_of_success hserves.exact hclusters hdevices hne hexist hnone
    (SyncById.failed_before_deleteObsolete hfailed) (h.devices ▸ hdone.devices)

/-- A cluster of a declared name is not removed. -/
theorem Ran.mem_objects {s' loop : State} (h : Ran api refs s s' desired loop) {v : NbCluster}
    (hv : v ∈ loop.clusters.objects) (hname : v.name ∈ desired.map Cluster.name) :
    v ∈ s'.clusters.objects := by
  rw [h.swept.objects, List.mem_filter, decide_eq_true_eq]
  refine ⟨hv, fun hgone => ?_⟩
  have hobsolete := (SyncById.mem_swept_iff h.consistent.ids hv).mp hgone.1
  exact (SyncById.mem_of_obsolete hobsolete).2.2 hname

/-- A declared cluster is there after a run. -/
theorem Ran.id_mem {s' loop : State} (h : Ran api refs s s' desired loop)
    (hserves : Serves api (desired.map Cluster.id)) (hclusters : Consistent clusters s.clusters)
    (hids : (desired.map Cluster.id).Nodup) (hne : ∀ c ∈ desired, c.id ≠ []) {c : Cluster}
    (hc : c ∈ desired) : c.id ∈ s'.clusters.objects.map NbCluster.id := by
  obtain ⟨ids, hentries⟩ := h.entries
  obtain ⟨-, hobjects⟩ := SyncById.objects_of_entries hentries hclusters hids
    fun c hc => if_neg (hne c hc)
  have hsettled := (hobjects _).mpr (Or.inr ⟨c, hc, rfl⟩)
  have hname := @name_settledCluster api refs desired hserves s.clusters.objects hclusters.ids c
  have hid := @SyncById.id_settled _ _ _ _ api.clusters compareCluster (resolved refs) Cluster.id
    s.clusters.objects hclusters.ids c
  have hmem := h.mem_objects hsettled (by rw [hname]; exact List.mem_map_of_mem hc)
  exact List.mem_map.mpr ⟨_, hmem, hid⟩

/-- A second run would have to create a cluster without an id once more. -/
theorem id_ne_nil {api' : Services} {refs' : ClusterReferences} {s₁ s₂ loop loop' : State}
    {desired' : List Cluster} (hrun : Ran api refs s s₁ desired loop)
    (hrun' : Ran api' refs' s₁ s₂ desired' loop')
    (hserves : Serves api (desired.map Cluster.id))
    (hserves' : Serves api' (desired.map Cluster.id))
    (hclusters : Consistent clusters s.clusters) (hperm : desired'.Perm desired) {c : Cluster}
    (hc : c ∈ desired) : c.id ≠ [] := by
  intro hnone
  obtain ⟨ids, hentries⟩ := hrun.entries
  obtain ⟨ids', hentries'⟩ := hrun'.entries
  have hcreated : ∀ id c, (api.clusters.created id (resolved refs c)).name = c.name := fun id c =>
    hserves.created id (resolved refs c)
  have hcreated' : ∀ id c, (api'.clusters.created id (resolved refs' c)).name = c.name :=
    fun id c => hserves'.created id (resolved refs' c)
  obtain ⟨v, hv, hname, hid⟩ := SyncById.exists_created_of_entries hcreated hserves.fresh hentries
    hclusters (fun c hc => List.mem_map_of_mem hc) hc hnone (if_pos hnone)
  have hmem := hrun.mem_objects hv (by
    rw [show v.name = c.name from hname]
    exact List.mem_map_of_mem hc)
  refine SyncById.entryId_ne_nil_of_entries hcreated' hserves'.unique hentries'
    (hrun.swept.consistent hrun.consistent) (hperm.mem_iff.mpr hc) hmem hname ?_ hnone
  rwa [(hperm.map Cluster.id).mem_iff]

/-- What the removal of other clusters releases is in no declared cluster. -/
theorem Ran.hasMembers_iff {s' loop : State} (h : Ran api refs s s' desired loop) {c : Cluster}
    (hid : c.id ∈ s'.clusters.objects.map NbCluster.id) : HasMembers s' c ↔ HasMembers loop c := by
  unfold HasMembers
  rw [h.devices]
  refine forall₂_congr fun d hd => ?_
  rw [h.cluster, released, Option.filter_eq_some_iff]
  simp [hid]

end Runs

/-! Examples. -/

/-- A Nautobot that returns what it was given and keeps the names of clusters unique. -/
def keepingClusters : Api clusters where
  listing objects := objects
  listing_perm := List.Perm.refl
  normalize name := name
  newId objects := List.replicate (objects.flatMap NbCluster.id).length.succ '0'
  created i req := ⟨i, req.name, req.comments, req.clusterType, req.clusterGroup, req.location⟩
  id_created _ _ := rfl
  updated v req := ⟨v.id, req.name, req.comments, req.clusterType, req.clusterGroup, req.location⟩
  id_updated _ _ := rfl
  accepts others v := v.name ∉ others.map NbCluster.name
  fails _ := false
  expires _ := false
  ranged ids := ids
  ranged_perm := List.Perm.refl

def keeping (pageSize : ℕ) : Services := ⟨keepingClusters, Devices.keepingApi, pageSize⟩

/-- The maps are ranged over and the devices listed in reverse. -/
def reversing (pageSize : ℕ) : Services where
  clusters := keepingClusters
  devices := { Devices.keepingApi with
    listing := List.reverse
    listing_perm := List.reverse_perm
    ranged := List.reverse
    ranged_perm := List.reverse_perm }
  pageSize := pageSize

/-- Every name is found, under itself as the id. -/
def namedClusters : ClusterReferences := ⟨some, some, some⟩

theorem fresh_replicate (n : ℕ) : List.replicate n.succ '0' ∉ [['1'], ['2']] := by
  simp [List.replicate_succ]

theorem serves_keeping (pageSize : ℕ) : Serves (keeping pageSize) [['1'], ['2']] where
  exact _ := rfl
  created _ _ := rfl
  updated _ _ := rfl
  unique _ _ h _ hu heq := of_decide_eq_true h (heq ▸ List.mem_map_of_mem hu)
  fresh _ := fresh_replicate _

theorem serves_reversing (pageSize : ℕ) : Serves (reversing pageSize) [['1'], ['2']] where
  exact _ := rfl
  created _ _ := rfl
  updated _ _ := rfl
  unique _ _ h _ hu heq := of_decide_eq_true h (heq ▸ List.mem_map_of_mem hu)
  fresh _ := fresh_replicate _

def cluster (id name : Char) (devices : List Char) : Cluster :=
  ⟨[id], [name], [], ['t'], [], [], devices.map fun c => [c]⟩

def siteClusters : List NbCluster :=
  [⟨['1'], ['x'], [], ['t'], none, none⟩, ⟨['3'], ['z'], [], ['t'], none, none⟩]

/-- Devices under their names as ids. -/
def siteDevices : List NbDevice :=
  ['a', 'b', 'c', 'd', 'e'].map fun c => { Devices.blank [c] with name := [c] }

/-- Each device is in the cluster that is given for it. -/
def site (members : Char → Option Char) : State where
  clusters := ⟨siteClusters, siteClusters.map NbCluster.id, none, 0, [], false⟩
  devices := Devices.holding siteDevices
  cluster id := id.head?.bind fun c => (members c).map fun k => [k]
  assignments := []

theorem consistent_site (members : Char → Option Char) :
    Consistent clusters (site members).clusters := by
  have hids : (siteClusters.map NbCluster.id).Nodup := by decide
  exact ⟨hids, fun items hitems => by cases hitems⟩

theorem known_site (members : Char → Option Char) : Known (site members).devices := by
  have hids : (siteDevices.map NbDevice.id).Nodup := by decide
  have hnames : (siteDevices.map NbDevice.name).Nodup := by decide
  exact ⟨⟨hids, fun items hitems => by cases hitems⟩, hnames⟩

theorem exists_site {members : Char → Option Char} {desired : List Cluster}
    (h : ∀ c ∈ desired, ∀ name ∈ c.devices, name ∈ siteDevices.map NbDevice.name) :
    ∀ c ∈ desired, ∀ name ∈ c.devices, ∃ d ∈ (site members).devices.objects, d.name = name :=
  fun c hc name hname => List.mem_map.mp (h c hc name hname)

/-- After a first run every declared cluster has the devices it lists, and a second run assigns
none. -/
structure Converges (first second : State) (desired : List Cluster) : Prop where
  members : ∀ c ∈ desired, HasMembers first c
  still : second.assignments = first.assignments

/-- Every list fits a page, and a device that leaves its cluster for none is in a cluster with a
list, among the first page of what the earlier turns left of it. -/
structure Manageable (api : Services) (s : State) (desired : List Cluster) : Prop where
  fits : ∀ c ∈ desired, c.devices.dedup.length ≤ api.pageSize
  seen : ∀ earlier c later, desired = earlier ++ c :: later → ∀ d ∈ s.devices.objects,
    s.cluster d.id = some c.id → d.name ∉ desired.flatMap Cluster.devices →
      d ∈ seenAfter api s earlier c

/-- The second run may see the clusters in another order, as may the maps of either be ranged over
and Nautobot's listings be. -/
theorem cluster_membership_converges_iff {api api' : Services} {refs refs' : ClusterReferences}
    {s : State} {desired desired' : List Cluster} (hclusters : Consistent clusters s.clusters)
    (hdevices : Known s.devices) (hserves : Serves api (desired.map Cluster.id))
    (hserves' : Serves api' (desired.map Cluster.id)) (hpage : api'.pageSize = api.pageSize)
    (hperm : desired'.Perm desired) (hids : (desired.map Cluster.id).Nodup)
    (hdisjoint : desired.Pairwise fun c c' => c.devices.Disjoint c'.devices)
    (hexist : ∀ c ∈ desired, ∀ name ∈ c.devices, ∃ d ∈ s.devices.objects, d.name = name)
    (hdone : Done (syncAll api refs s desired))
    (hdone' : Done (syncAll api' refs' (syncAll api refs s desired).2 desired')) :
    Converges (syncAll api refs s desired).2
        (syncAll api' refs' (syncAll api refs s desired).2 desired').2 desired ↔
      Manageable api s desired := by
  have hrun := ran_of_done hclusters hdone
  have hclusters₁ := hrun.swept.consistent hrun.consistent
  have hrun' := ran_of_done hclusters₁ hdone'
  have hne : ∀ c ∈ desired, c.id ≠ [] := fun c hc =>
    id_ne_nil hrun hrun' hserves hserves' hclusters hperm hc
  have hturns : Turns api s desired (syncClusters api refs s desired).2 :=
    hrun.turns hserves hclusters hdevices hne hexist hdone
  have hobjects : (syncAll api refs s desired).2.devices.objects = s.devices.objects := by
    rw [hrun.devices]
    exact hturns.devices.objects
  have hdevices₁ : Known (syncAll api refs s desired).2.devices := by
    rw [hrun.devices]
    exact hdevices.of_kept hturns.devices
  have hexist₁ : ∀ c ∈ desired', ∀ name ∈ c.devices,
      ∃ d ∈ (syncAll api refs s desired).2.devices.objects, d.name = name := by
    rw [hobjects]
    exact fun c hc => hexist c (hperm.mem_iff.mp hc)
  have hturns' : Turns api' (syncAll api refs s desired).2 desired'
      (syncClusters api' refs' (syncAll api refs s desired).2 desired').2 :=
    hrun'.turns hserves' hclusters₁ hdevices₁ (fun c hc => hne c (hperm.mem_iff.mp hc)) hexist₁
      hdone'
  have hmembers : ∀ c ∈ desired, HasMembers (syncAll api refs s desired).2 c ↔
      HasMembers (syncClusters api refs s desired).2 c := fun c hc =>
    hrun.hasMembers_iff (hrun.id_mem hserves hclusters hids hne hc)
  have hfits : (∀ c ∈ desired, HasMembers (syncAll api refs s desired).2 c) →
      ((syncAll api' refs' (syncAll api refs s desired).2 desired').2.assignments =
          (syncAll api refs s desired).2.assignments ↔
        ∀ c ∈ desired, c.devices.dedup.length ≤ api.pageSize) := by
    intro hhas
    rw [hrun'.assignments, hturns'.still_iff hdevices₁ hexist₁
      fun c hc => hhas c (hperm.mem_iff.mp hc), hpage]
    exact forall_congr' fun c => imp_congr_left hperm.mem_iff
  constructor
  · intro h
    refine ⟨(hfits h.members).mp h.still, fun earlier c later hsplit => ?_⟩
    have hc : c ∈ desired := hsplit ▸ by simp
    exact (hturns.hasMembers_iff hsplit hids hdisjoint).mp ((hmembers c hc).mp (h.members c hc))
  · intro h
    have hhas : ∀ c ∈ desired, HasMembers (syncAll api refs s desired).2 c := by
      intro c hc
      obtain ⟨earlier, later, hsplit⟩ := List.append_of_mem hc
      exact (hmembers c hc).mpr
        ((hturns.hasMembers_iff hsplit hids hdisjoint).mpr (h.seen earlier c later hsplit))
    exact ⟨hhas, (hfits hhas).mpr h.fits⟩

/-- Cluster `1` exchanges its device, `2` is new and `3` is to go. -/
theorem cluster_membership_converges_iff_moved :
    let s := site fun c => if c = 'a' then some '1' else if c = 'e' then some '3' else none
    let desired := [cluster '1' 'x' ['b'], cluster '2' 'y' ['d', 'a']]
    let first := (syncAll (keeping 2) namedClusters s desired).2
    Converges first (syncAll (reversing 2) namedClusters first desired.reverse).2 desired := by
  intro s desired first
  have hdone : Done (syncAll (keeping 2) namedClusters s desired) :=
    ⟨by decide +kernel, by decide +kernel, by decide +kernel⟩
  have hdone' : Done (syncAll (reversing 2) namedClusters first desired.reverse) :=
    ⟨by decide +kernel, by decide +kernel, by decide +kernel⟩
  have hiff := @cluster_membership_converges_iff (keeping 2) (reversing 2) namedClusters
    namedClusters s desired desired.reverse (consistent_site _) (known_site _) (serves_keeping 2)
    (serves_reversing 2) rfl desired.reverse_perm (by decide) (by simp [desired, cluster])
    (exists_site (by decide)) hdone hdone'
  refine hiff.mpr ⟨by decide, ?_⟩
  intro earlier c later hsplit
  cases earlier with
  | nil =>
    obtain ⟨rfl, -⟩ := List.cons.inj hsplit
    decide +kernel
  | cons c' earlier =>
    obtain ⟨rfl, hrest⟩ := List.cons.inj hsplit
    cases earlier with
    | nil =>
      obtain ⟨rfl, -⟩ := List.cons.inj hrest
      decide +kernel
    | cons c'' earlier => simp [desired] at hsplit

/-- A cluster with an empty list keeps its device, and one with more devices than a page keeps
those beyond it. -/
theorem emptied_and_large_clusters_keep :
    let s := site fun c => if c = 'a' then some '1' else if c = 'b' then none else some '2'
    let desired := [cluster '1' 'x' [], cluster '2' 'y' ['b']]
    let first := (syncAll (keeping 2) namedClusters s desired).2
    Consistent clusters s.clusters ∧ Known s.devices ∧
      (∀ d ∈ s.devices.objects, d.name ≠ []) ∧
      Serves (keeping 2) (desired.map Cluster.id) ∧ (desired.map Cluster.id).Nodup ∧
      (desired.map Cluster.name).Nodup ∧
      (desired.Pairwise fun c c' => c.devices.Disjoint c'.devices) ∧
      (∀ c ∈ desired, ∀ name ∈ c.devices, ∃ d ∈ s.devices.objects, d.name = name) ∧
      Done (syncAll (keeping 2) namedClusters s desired) ∧
      Done (syncAll (keeping 2) namedClusters first desired) ∧
      ¬ HasMembers first (cluster '1' 'x' []) ∧ ¬ HasMembers first (cluster '2' 'y' ['b']) := by
  intro s desired first
  refine ⟨consistent_site _, known_site _, by decide, serves_keeping 2, by decide, by decide,
    by simp [desired, cluster], exists_site (by decide),
    ⟨by decide +kernel, by decide +kernel, by decide +kernel⟩,
    ⟨by decide +kernel, by decide +kernel, by decide +kernel⟩, ?_, ?_⟩
  · unfold HasMembers
    decide +kernel
  · unfold HasMembers
    decide +kernel

end Understack.Nautobotop.Clusters
