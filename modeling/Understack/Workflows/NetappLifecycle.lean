import Understack.Lib.Runs
import Understack.Workflows.NetappCleanup

/-! Histories of volume type access and project deletion events, with no failing calls: whose
volumes they delete. -/
namespace Understack.Workflows.Netapp
open PyText Runs

inductive Event where
  | accessAdded (projectId volumeTypeId : Text)
  | accessRemoved (projectId volumeTypeId : Text)
  | projectDeleted (projectId : Text)
  deriving DecidableEq, Repr

/-- A volume that an access event has created, with its cluster. -/
structure Created where
  projectId : Text
  volumeTypeId : Text
  cluster : Text
  deriving DecidableEq, Repr

/-- The clusters, and the history; no handler reads this. -/
structure Storage where
  worlds : Clusters
  created : List Created
  deleted : List Text

instance (w : World) (projectId : Text) : Decidable (w.Holds projectId) :=
  inferInstanceAs (Decidable (svmName projectId ∈ w.cluster.svms))

/-- A backend on which every call succeeds. -/
def healthy (hostname : Text) : Backend := ⟨hostname, true, none, Faults.none⟩

/-- The clusters that the managers of one handler reach. -/
def Sdk.visited (sdk : Sdk) : Option Text → List Text → List Text
  | _, [] => []
  | connection, host :: hosts =>
    sdk.reached connection host :: visited sdk (some (sdk.connected connection host)) hosts

section History

variable (sdk : Sdk) (o : Lookup) (hosts : List Text)

/-- The cluster on which a handler finds the SVM of the project. -/
def firstHolder (projectId : Text) (ws : Clusters) : Option Text :=
  (sdk.visited none hosts).find? fun c => decide ((ws c).Holds projectId)

def added (projectId volumeTypeId : Text) (s : Storage) : Option ℕ × Clusters :=
  handleVolumeTypeAccessAdded sdk projectId volumeTypeId (hosts.map healthy) s.worlds

def removed (projectId volumeTypeId : Text) (s : Storage) : ℕ × Clusters :=
  handleVolumeTypeAccessRemoved sdk o projectId volumeTypeId (hosts.map healthy) s.worlds

def cleaned (projectId : Text) (s : Storage) : ℕ × Clusters :=
  handleProjectDeleted sdk o projectDeletedEvent projectId true (hosts.map healthy) s.worlds

def step (s : Storage) : Event → Storage
  | .accessAdded p t =>
    ⟨(added sdk hosts p t s).2,
      if (added sdk hosts p t s).1 = some 0 then
        ((firstHolder sdk hosts p s.worlds).map (Created.mk p t)).toList ++ s.created
      else s.created, s.deleted⟩
  | .accessRemoved p t => ⟨(removed sdk o hosts p t s).2, s.created, s.deleted⟩
  | .projectDeleted p => ⟨(cleaned sdk o hosts p s).2, s.created, p :: s.deleted⟩

/-- No volume outside the SVM of the project is deleted. -/
def Spares (projectId : Text) (before after : Clusters) : Prop :=
  ∀ c, ∀ v ∈ (before c).cluster.volumes, v.svm ≠ svmName projectId →
    v ∈ (after c).cluster.volumes

/-- No configured backend has the SVM of the project or a volume in it. -/
def Gone (projectId : Text) (ws : Clusters) : Prop :=
  ∀ host ∈ hosts, ¬ (ws (sdk.cluster host)).Holds projectId ∧
    ∀ v ∈ (ws (sdk.cluster host)).cluster.volumes, v.svm ≠ svmName projectId

/-- What the event must do in the state in which it is handled. -/
def EventSound (s : Storage) : Event → Prop
  | .accessAdded _ _ => True
  | .accessRemoved p t =>
    Spares p s.worlds (removed sdk o hosts p t s).2 ∧
      ((removed sdk o hosts p t s).1 = 0 →
        ∀ r ∈ s.created, r.projectId = p → r.volumeTypeId = t →
          ⟨svmName p, volumeName t⟩ ∉
            ((removed sdk o hosts p t s).2 r.cluster).cluster.volumes)
  | .projectDeleted p =>
    Spares p s.worlds (cleaned sdk o hosts p s).2 ∧ Gone sdk hosts p (cleaned sdk o hosts p s).2

/-- On the cluster every volume of that name lies in the SVM of the project. -/
def NameOwned (name projectId : Text) (c : Cluster) : Prop :=
  ∀ v ∈ c.volumes, v.name = name → v.svm = svmName projectId

/-- Cleanup meets the SVM with no volume but the one that it looks for, and if this one is there, no
other SVM has one of its name. -/
def OnlyProjectVolume (projectId : Text) (c : Cluster) : Prop :=
  (∀ v ∈ c.volumes, v.svm = svmName projectId → v.name = volumeName projectId) ∧
    (projectVolume projectId ∈ c.volumes → NameOwned (volumeName projectId) projectId c)

/-- An access removal meets no volume of that name in another SVM of the cluster on which it finds
the SVM of the project; a project deletion finds the SVM on the only cluster of a backend that holds
it, and meets no volume there but the one that cleanup looks for. -/
def Allowed (s : Storage) : Event → Prop
  | .accessAdded _ _ => True
  | .accessRemoved p t =>
    ∀ c ∈ firstHolder sdk hosts p s.worlds, NameOwned (volumeName t) p (s.worlds c).cluster
  | .projectDeleted p =>
    ∀ host ∈ hosts, (s.worlds (sdk.cluster host)).Holds p →
      firstHolder sdk hosts p s.worlds = some (sdk.cluster host) ∧
        OnlyProjectVolume p (s.worlds (sdk.cluster host)).cluster

instance (name projectId : Text) (c : Cluster) : Decidable (NameOwned name projectId c) :=
  inferInstanceAs (Decidable (∀ v ∈ c.volumes, v.name = name → v.svm = svmName projectId))

instance (projectId : Text) (c : Cluster) : Decidable (OnlyProjectVolume projectId c) :=
  inferInstanceAs (Decidable (
    (∀ v ∈ c.volumes, v.svm = svmName projectId → v.name = volumeName projectId) ∧
      (projectVolume projectId ∈ c.volumes → NameOwned (volumeName projectId) projectId c)))

instance (s : Storage) : ∀ e, Decidable (Allowed sdk hosts s e)
  | .accessAdded _ _ => instDecidableTrue
  | .accessRemoved p t =>
    inferInstanceAs (Decidable (∀ c ∈ firstHolder sdk hosts p s.worlds,
      NameOwned (volumeName t) p (s.worlds c).cluster))
  | .projectDeleted p =>
    inferInstanceAs (Decidable (∀ host ∈ hosts, (s.worlds (sdk.cluster host)).Holds p →
      firstHolder sdk hosts p s.worlds = some (sdk.cluster host) ∧
        OnlyProjectVolume p (s.worlds (sdk.cluster host)).cluster))

end History

variable {sdk : Sdk} {o : Lookup} {hosts : List Text} {p t : Text}

theorem svmFound_healthy {w : World} {host projectId : Text} :
    (healthy host).svmFound projectId w.cluster = true ↔ w.Holds projectId := by
  rw [svmFound_iff]
  exact ⟨fun h => h.2, fun h => ⟨rfl, h⟩⟩

theorem not_aborts_healthy (ws : Clusters) (connection : Option Text) (hosts : List Text) :
    ¬ Aborts sdk p ws connection (hosts.map healthy) := by
  induction hosts generalizing connection with
  | nil => exact id
  | cons host hosts ih =>
    rintro (⟨-, hconnect⟩ | ⟨-, hrest⟩)
    · cases hconnect
    · exact ih _ hrest

theorem stopsAt_healthy (sdk : Sdk) (projectId : Text) (ws : Clusters) (connection : Option Text)
    (hosts : List Text) :
    (∃ host c,
      (sdk.visited connection hosts).find? (fun c => decide ((ws c).Holds projectId)) = some c ∧
      stopsAt sdk projectId ws connection (hosts.map healthy) = some (healthy host, c)) ∨
    ((sdk.visited connection hosts).find? (fun c => decide ((ws c).Holds projectId)) = none ∧
      stopsAt sdk projectId ws connection (hosts.map healthy) = none) := by
  induction hosts generalizing connection with
  | nil => exact Or.inr ⟨rfl, rfl⟩
  | cons host hosts ih =>
    have hname : (healthy host).hostname = host := rfl
    rw [List.map_cons, stopsAt, hname, Sdk.visited, List.find?_cons]
    by_cases hw : (ws (sdk.reached connection host)).Holds projectId
    · left
      use host, sdk.reached connection host
      rw [decide_eq_true hw]
      exact ⟨rfl, if_pos (svmFound_healthy.mpr hw)⟩
    · rw [decide_eq_false hw, if_neg (mt svmFound_healthy.mp hw)]
      exact ih _

/-- The loop of a handler acts on the cluster on which it finds the SVM and leaves the others. -/
theorem onFirst_healthy {α : Type} (sdk : Sdk) (hosts : List Text) (projectId : Text)
    (missing aborted : α)
    (act : Backend → World → α × World) (ws : Clusters) :
    (∃ host c, firstHolder sdk hosts projectId ws = some c ∧
      onFirst sdk projectId missing aborted act none (hosts.map healthy) ws =
        ((act (healthy host) (ws c)).1, Function.update ws c (act (healthy host) (ws c)).2)) ∨
    (firstHolder sdk hosts projectId ws = none ∧
      onFirst sdk projectId missing aborted act none (hosts.map healthy) ws = (missing, ws)) := by
  rw [onFirst_eq (not_aborts_healthy ws none hosts)]
  rcases stopsAt_healthy sdk projectId ws none hosts with ⟨host, c, hfirst, hstop⟩ | ⟨hfirst, hstop⟩
  · rw [hstop]
    exact Or.inl ⟨host, c, hfirst, rfl⟩
  · rw [hstop]
    exact Or.inr ⟨hfirst, rfl⟩

/-- A connection leads to the cluster of some backend. -/
theorem visited_subset {connection : Option Text} {hosts : List Text} {c : Text}
    (hc : c ∈ sdk.visited connection hosts) :
    (∃ host ∈ hosts, c = sdk.cluster host) ∨ ∃ host ∈ connection, c = sdk.cluster host := by
  induction hosts generalizing connection with
  | nil => cases hc
  | cons host hosts ih =>
    have hconnected : sdk.connected connection host = host ∨
        sdk.connected connection host ∈ connection := by
      unfold Sdk.connected
      split_ifs with hneeds
      · exact Or.inl rfl
      · cases connection with
        | none => exact absurd rfl hneeds
        | some h => exact Or.inr rfl
    have hreached : ∀ h, h = sdk.connected connection host →
        (∃ h' ∈ host :: hosts, sdk.cluster h = sdk.cluster h') ∨
          ∃ h' ∈ connection, sdk.cluster h = sdk.cluster h' := by
      rintro h rfl
      rcases hconnected with heq | hmem
      · exact Or.inl ⟨host, List.mem_cons_self, by rw [heq]⟩
      · exact Or.inr ⟨_, hmem, rfl⟩
    rcases List.mem_cons.mp hc with rfl | hc
    · exact hreached _ rfl
    · rcases ih hc with ⟨h, hh, rfl⟩ | ⟨h, hh, rfl⟩
      · exact Or.inl ⟨h, List.mem_cons_of_mem host hh, rfl⟩
      · exact hreached h (Option.some.inj hh).symm

theorem firstHolder_spec {ws : Clusters} {c : Text} (h : firstHolder sdk hosts p ws = some c) :
    (ws c).Holds p ∧ ∃ host ∈ hosts, c = sdk.cluster host := by
  refine ⟨by simpa using List.find?_some h, ?_⟩
  rcases visited_subset (List.mem_of_find?_eq_some h) with hhost | ⟨host, hhost, -⟩
  · exact hhost
  · cases hhost

/-- Where SVMs only vanish, a cluster that still has the SVM is still the first one. -/
theorem firstHolder_mono {ws ws' : Clusters} (hsub : ∀ c, (ws' c).Holds p → (ws c).Holds p)
    {c : Text} (h : firstHolder sdk hosts p ws = some c) (hc : (ws' c).Holds p) :
    firstHolder sdk hosts p ws' = some c := by
  obtain ⟨-, pre, post, hsplit, hpre⟩ := List.find?_eq_some_iff_append.mp h
  refine List.find?_eq_some_iff_append.mpr ⟨by simpa using hc, pre, post, hsplit, fun a ha => ?_⟩
  have hnot : ¬ (ws a).Holds p := by simpa using hpre a ha
  simpa using mt (hsub a) hnot

theorem volumeName_filter (volumeTypeId : Text) :
    volumeName (volumeTypeId.filter (· ≠ '-')) = volumeName volumeTypeId := by
  simp [volumeName, List.filter_filter]

/-- The manager takes a volume name apart and puts it together again. -/
theorem managerDeleteVolume_eq (faults : Faults) (w : World) :
    Manager.deleteVolume o faults (volumeName t) w =
      Client.deleteVolume o faults (volumeName t) w := by
  have hdrop : (volumeName t).drop 4 = t.filter (· ≠ '-') := rfl
  have hvol : "vol_".toList.isPrefixOf (volumeName t) = true := by
    rw [List.isPrefixOf_iff_prefix]
    exact List.prefix_append _ _
  rw [Manager.deleteVolume, if_pos hvol, hdrop, deleteVolume, volumeName_filter]

theorem deleteOn_cases (o : Lookup) (t host : Text) (w : World) :
    (∃ v, o.pick (Client.named (volumeName t) w.cluster) = some v ∧
      (deleteOn o t (healthy host) w).2.cluster = w.cluster.eraseVolume v) ∨
    ((deleteOn o t (healthy host) w).1 = 1 ∧ (deleteOn o t (healthy host) w).2 = w) := by
  simp only [deleteOn, managerDeleteVolume_eq]
  rcases clientDeleteVolume_cases o (healthy host).cleanup (volumeName t) w with
    ⟨v, -, -, hv, hdel⟩ | ⟨-, hdel⟩
  · left
    rw [hdel]
    exact ⟨v, hv, rfl⟩
  · right
    rw [hdel]
    exact ⟨rfl, rfl⟩

theorem createOn_svms (p t : Text) (b : Backend) (w : World) :
    (createOn p t b w).2.cluster.svms = w.cluster.svms := by
  unfold createOn
  cases hc : Client.createVolume ⟨svmName p, volumeName t⟩ w with
  | none => rfl
  | some w' =>
    unfold Client.createVolume at hc
    split_ifs at hc
    obtain rfl := Option.some.inj hc
    rfl

/-- The volumes that cleanup deletes are those named as the project asks. -/
theorem cleanup_keeps {w : World} {v : Volume} (hv : v ∈ w.cluster.volumes)
    (ho : projectVolume p ∈ w.cluster.volumes → NameOwned (volumeName p) p w.cluster)
    (hsvm : v.svm ≠ svmName p) :
    v ∈ (Manager.cleanupProject o Faults.none p w).2.cluster.volumes := by
  rw [cleanupProject_eq, (svmStep_spec Faults.none p _ volumeStep_svms).1]
  rcases volumeStep_cases o Faults.none p w with
    ⟨-, heq⟩ | ⟨-, hmem, ⟨u, -, -, hu, heq⟩ | ⟨-, heq⟩⟩ <;> rw [heq]
  · exact hv
  · refine mem_eraseVolume.mpr ⟨hv, ?_⟩
    rintro rfl
    obtain ⟨hm, hname⟩ := mem_named.mp (o.mem _ _ hu)
    exact hsvm (ho hmem v hm hname)
  · exact hv

theorem cleanup_svms (o : Lookup) (faults : Faults) (p : Text) (w : World) :
    (Manager.cleanupProject o faults p w).2.cluster.svms ⊆ w.cluster.svms := by
  rw [cleanupProject_eq, svmStep]
  split_ifs with h1 h2
  · rcases clientDeleteSvm_cases faults (svmName p) (volumeStep o faults p w).2 with
      ⟨-, -, -, hfree, heq⟩ | ⟨-, log, -, heq⟩ <;> rw [heq]
    · intro x hx
      rw [← volumeStep_svms]
      exact ((mem_eraseSvm hfree).mp hx).1
    · simp [volumeStep_svms]
  · simp [volumeStep_svms]
  · simp [volumeStep_svms]

/-! Frames. -/

/-- A handler relates the clusters before and after it as its action does on the one that it acts
on. -/
theorem onFirst_frame {α : Type} (projectId : Text) (missing aborted : α)
    (act : Backend → World → α × World) (ws : Clusters) {R : World → World → Prop}
    (hrefl : ∀ w, R w w) (hact : ∀ host c, firstHolder sdk hosts projectId ws = some c →
      R (ws c) (act (healthy host) (ws c)).2) (c : Text) :
    R (ws c) ((onFirst sdk projectId missing aborted act none (hosts.map healthy) ws).2 c) := by
  rcases onFirst_healthy sdk hosts projectId missing aborted act ws with
    ⟨host, c', hfirst, heq⟩ | ⟨-, heq⟩
  · rw [heq]
    by_cases hc : c = c'
    · subst hc
      dsimp only
      rw [Function.update_self]
      exact hact host c hfirst
    · dsimp only
      rw [Function.update_of_ne hc]
      exact hrefl _
  · rw [heq]
    exact hrefl _

theorem cleaned_eq (s : Storage) :
    cleaned sdk o hosts p s = cleanupFirst sdk o p (hosts.map healthy) s.worlds := by
  rw [cleaned, handleProjectDeleted, if_neg (by simp), if_pos rfl]

/-- No event creates an SVM. -/
theorem step_svms (sdk : Sdk) (o : Lookup) (hosts : List Text) (s : Storage) (e : Event)
    (c : Text) :
    ((step sdk o hosts s e).worlds c).cluster.svms ⊆ (s.worlds c).cluster.svms := by
  -- the relation that the frame lemma carries
  let R (w w' : World) : Prop := w'.cluster.svms ⊆ w.cluster.svms
  have hrefl (w : World) : R w w := List.Subset.refl _
  cases e with
  | accessAdded p t =>
    refine onFirst_frame (R := R) p (some 1) none (createOn p t) s.worlds hrefl ?_ c
    intro host c _
    show (createOn p t (healthy host) (s.worlds c)).2.cluster.svms ⊆ _
    rw [createOn_svms]
    exact hrefl _
  | accessRemoved p t =>
    refine onFirst_frame (R := R) p 1 1 (deleteOn o t) s.worlds hrefl ?_ c
    intro host c _
    show (deleteOn o t (healthy host) (s.worlds c)).2.cluster.svms ⊆ _
    rcases deleteOn_cases o t host (s.worlds c) with ⟨v, -, hw⟩ | ⟨-, hw⟩ <;> rw [hw]
    · exact List.Subset.refl _
    · exact hrefl _
  | projectDeleted p =>
    show R (s.worlds c) ((cleaned sdk o hosts p s).2 c)
    rw [cleaned_eq]
    refine onFirst_frame (R := R) p 0 1 _ s.worlds hrefl ?_ c
    intro host c _
    exact cleanup_svms o Faults.none p (s.worlds c)

/-- What the history says of a state: a volume was created where a handler finds the SVM as long as
it is there, and deleted projects have left nothing. -/
structure Recorded (sdk : Sdk) (hosts : List Text) (s : Storage) : Prop where
  created : ∀ r ∈ s.created, (s.worlds r.cluster).Holds r.projectId →
    firstHolder sdk hosts r.projectId s.worlds = some r.cluster
  deleted : ∀ p ∈ s.deleted, Gone sdk hosts p s.worlds

theorem gone_of_svms {ws : Clusters} (h : ∀ host ∈ hosts, ¬ (ws (sdk.cluster host)).Holds p) :
    Gone sdk hosts p ws := by
  intro host hhost
  refine ⟨h host hhost, fun v hv hsvm => ?_⟩
  have hm := (ws (sdk.cluster host)).cluster.housed v hv
  rw [hsvm] at hm
  exact h host hhost hm

/-- The volume that a removal gets by its name is the one of the project. -/
theorem pick_eq_of_nameOwned {w : World} (ho : NameOwned (volumeName t) p w.cluster) {v : Volume}
    (hv : o.pick (Client.named (volumeName t) w.cluster) = some v) :
    v = ⟨svmName p, volumeName t⟩ := by
  obtain ⟨hm, hname⟩ := mem_named.mp (o.mem _ _ hv)
  obtain ⟨svm, name⟩ := v
  simp only at hname
  subst hname
  have hsvm := ho _ hm rfl
  simp only at hsvm
  rw [hsvm]

theorem removed_spares {s : Storage} (ha : Allowed sdk hosts s (.accessRemoved p t)) :
    Spares p s.worlds (removed sdk o hosts p t s).2 := by
  intro c
  refine onFirst_frame (R := fun w w' => ∀ v ∈ w.cluster.volumes, v.svm ≠ svmName p →
    v ∈ w'.cluster.volumes) p 1 1 (deleteOn o t) s.worlds (fun _ _ hv _ => hv) ?_ c
  intro host c hfirst v hv hsvm
  rcases deleteOn_cases o t host (s.worlds c) with ⟨u, hu, hw'⟩ | ⟨-, hw'⟩ <;> rw [hw']
  · refine mem_eraseVolume.mpr ⟨hv, ?_⟩
    rintro rfl
    rw [pick_eq_of_nameOwned (ha c hfirst) hu] at hsvm
    exact hsvm rfl
  · exact hv

theorem removed_sound {s : Storage} (hr : Recorded sdk hosts s)
    (ha : Allowed sdk hosts s (.accessRemoved p t)) :
    EventSound sdk o hosts s (.accessRemoved p t) := by
  refine ⟨removed_spares ha, ?_⟩
  rintro hcode r hrec rfl rfl hmem
  -- the volume is still there, and so is its SVM
  have hholds : (s.worlds r.cluster).Holds r.projectId :=
    step_svms sdk o hosts s (.accessRemoved r.projectId r.volumeTypeId) r.cluster
      (Cluster.housed _ _ hmem)
  have hfirst := hr.created r hrec hholds
  unfold removed handleVolumeTypeAccessRemoved at hcode hmem
  rcases onFirst_healthy sdk hosts r.projectId 1 1 (deleteOn o r.volumeTypeId) s.worlds with
    ⟨host, c, hc, heq⟩ | ⟨hnone, -⟩
  · obtain rfl : r.cluster = c := Option.some.inj (hfirst.symm.trans hc)
    rw [heq] at hcode hmem
    dsimp only at hcode hmem
    rw [Function.update_self] at hmem
    rcases deleteOn_cases o r.volumeTypeId host (s.worlds r.cluster) with ⟨u, hu, hw'⟩ | ⟨hone, -⟩
    · rw [hw', pick_eq_of_nameOwned (ha _ hfirst) hu] at hmem
      exact (mem_eraseVolume.mp hmem).2 rfl
    · rw [hone] at hcode
      cases hcode
  · rw [hfirst] at hnone
    cases hnone

theorem removable_of_onlyProjectVolume {c : Cluster} (h : OnlyProjectVolume p c) :
    Removable o Faults.none p c := by
  obtain ⟨hnames, howned⟩ := h
  refine ⟨⟨rfl, rfl, rfl⟩, ?_, fun hm => ⟨rfl, rfl, rfl, ?_⟩⟩
  · rintro ⟨svm, name⟩ hv hsvm
    have hname := hnames _ hv hsvm
    simp only at hsvm hname
    rw [hsvm, hname]
    rfl
  · have hmem : projectVolume p ∈ Client.named (volumeName p) c := mem_named.mpr ⟨hm, rfl⟩
    obtain ⟨v, hv⟩ := Option.ne_none_iff_exists'.mp (o.total _ (List.ne_nil_of_mem hmem))
    rw [hv, pick_eq_of_nameOwned (w := ⟨c, []⟩) (howned hm) hv]
    rfl

theorem oneRemovable_of_allowed {s : Storage} (ha : Allowed sdk hosts s (.projectDeleted p)) :
    OneRemovable sdk o p (hosts.map healthy) s.worlds := by
  intro b hb hholds
  obtain ⟨host, hhost, rfl⟩ := List.mem_map.mp hb
  obtain ⟨hfirst, honly⟩ := ha host hhost hholds
  rcases stopsAt_healthy sdk p s.worlds none hosts with ⟨host', c, hc, hstop⟩ | ⟨hnone, -⟩
  · obtain rfl : sdk.cluster host = c := Option.some.inj (hfirst.symm.trans hc)
    exact ⟨healthy host', hstop, removable_of_onlyProjectVolume honly⟩
  · rw [firstHolder, hnone] at hfirst
    cases hfirst

theorem cleaned_sound {s : Storage} (ha : Allowed sdk hosts s (.projectDeleted p)) :
    EventSound sdk o hosts s (.projectDeleted p) := by
  show Spares p s.worlds (cleaned sdk o hosts p s).2 ∧ Gone sdk hosts p (cleaned sdk o hosts p s).2
  rw [cleaned_eq]
  constructor
  · intro c
    refine onFirst_frame (R := fun w w' => ∀ v ∈ w.cluster.volumes, v.svm ≠ svmName p →
      v ∈ w'.cluster.volumes) p 0 1 _ s.worlds (fun _ _ hv _ => hv) ?_ c
    intro host' c hfirst v hv hsvm
    obtain ⟨hholds, host, hhost, rfl⟩ := firstHolder_spec hfirst
    exact cleanup_keeps hv (ha host hhost hholds).2.2 hsvm
  · apply gone_of_svms
    intro host hhost
    have hclears := (cleanupFirst_clears_iff (not_aborts_healthy s.worlds none hosts)).mpr
      (oneRemovable_of_allowed (o := o) ha)
    exact hclears (healthy host) (List.mem_map_of_mem hhost)

theorem eventSound_of_allowed {s : Storage} {e : Event} (hr : Recorded sdk hosts s)
    (ha : Allowed sdk hosts s e) : EventSound sdk o hosts s e := by
  cases e with
  | accessAdded p t => trivial
  | accessRemoved p t => exact removed_sound hr ha
  | projectDeleted p => exact cleaned_sound ha

theorem step_recorded {s : Storage} {e : Event} (hr : Recorded sdk hosts s)
    (ha : Allowed sdk hosts s e) : Recorded sdk hosts (step sdk o hosts s e) := by
  have hsub (q c : Text) (h : ((step sdk o hosts s e).worlds c).Holds q) : (s.worlds c).Holds q :=
    step_svms sdk o hosts s e c h
  have hgone (q : Text) (hq : q ∈ s.deleted) :
      Gone sdk hosts q (step sdk o hosts s e).worlds :=
    gone_of_svms fun host hhost h => (hr.deleted q hq host hhost).1 (hsub q _ h)
  have hold (r : Created) (hrec : r ∈ s.created)
      (h : ((step sdk o hosts s e).worlds r.cluster).Holds r.projectId) :
      firstHolder sdk hosts r.projectId (step sdk o hosts s e).worlds = some r.cluster :=
    firstHolder_mono (hsub r.projectId) (hr.created r hrec (hsub _ _ h)) h
  cases e with
  | accessAdded p t =>
    refine ⟨fun r hrec h => ?_, hgone⟩
    have hcases : firstHolder sdk hosts p s.worlds = some r.cluster ∧ r.projectId = p ∨
        r ∈ s.created := by
      simp only [step] at hrec
      split_ifs at hrec
      · rcases List.mem_append.mp hrec with hnew | hrec
        · obtain ⟨c, hc, rfl⟩ := Option.map_eq_some_iff.mp (Option.mem_toList.mp hnew)
          exact Or.inl ⟨hc, rfl⟩
        · exact Or.inr hrec
      · exact Or.inr hrec
    rcases hcases with ⟨hfirst, rfl⟩ | hrec
    · exact firstHolder_mono (hsub r.projectId) hfirst h
    · exact hold r hrec h
  | accessRemoved p t => exact ⟨hold, hgone⟩
  | projectDeleted p =>
    refine ⟨hold, fun q hq => ?_⟩
    rcases List.mem_cons.mp hq with rfl | hq
    · exact (cleaned_sound ha).2
    · exact hgone q hq

/-- In every history whose events meet the condition where they are handled, access removals and
project deletions spare the volumes of other SVMs, a removal that reports success removes the
volume created for it, and a deleted project leaves neither its SVM nor a volume in it, then or
later. -/
theorem lifecycle_sound {ws : Clusters} {events : List Event}
    (h : Along (step sdk o hosts) (Allowed sdk hosts) ⟨ws, [], []⟩ events) :
    (∀ pre e, pre ++ [e] <+: events →
      EventSound sdk o hosts (pre.foldl (step sdk o hosts) ⟨ws, [], []⟩) e) ∧
    ∀ pre, pre <+: events → ∀ p ∈ (pre.foldl (step sdk o hosts) ⟨ws, [], []⟩).deleted,
      Gone sdk hosts p (pre.foldl (step sdk o hosts) ⟨ws, [], []⟩).worlds := by
  have hstart : Recorded sdk hosts ⟨ws, [], []⟩ := ⟨by simp, by simp⟩
  have hrec (pre : List Event) (hp : pre <+: events) :
      Recorded sdk hosts (pre.foldl (step sdk o hosts) ⟨ws, [], []⟩) :=
    h.invariant (fun _ _ hs ha => step_recorded hs ha) hstart hp
  constructor
  · intro pre e hp
    exact eventSound_of_allowed (hrec pre ((List.prefix_append pre [e]).trans hp))
      (h.condition hp)
  · intro pre hp
    exact (hrec pre hp).deleted

/-- Host names are clusters, and connections show no `_host`. -/
def plainSdk : Sdk := ⟨fun _ => none, id⟩

/-- The SVMs of two projects. -/
def exampleClusters : Clusters :=
  fun _ => ⟨⟨[svmName "p1".toList, svmName "p2".toList], [], by simp⟩, []⟩

def exampleHosts : List Text := ["netapp".toList]

/-- A volume type shared by two projects, one of which gives it back before it is deleted. -/
def exampleEvents : List Event :=
  [.accessAdded "p1".toList "t1".toList, .accessRemoved "p1".toList "t1".toList,
    .accessAdded "p2".toList "t1".toList, .projectDeleted "p1".toList]

theorem lifecycle_sound_shared_type :
    Along (step plainSdk .first exampleHosts) (Allowed plainSdk exampleHosts)
      ⟨exampleClusters, [], []⟩ exampleEvents ∧
    Gone plainSdk exampleHosts "p1".toList
      (exampleEvents.foldl (step plainSdk .first exampleHosts)
        ⟨exampleClusters, [], []⟩).worlds := by
  have h : Along (step plainSdk .first exampleHosts) (Allowed plainSdk exampleHosts)
      ⟨exampleClusters, [], []⟩ exampleEvents := by decide
  exact ⟨h, (lifecycle_sound h).2 _ (List.prefix_refl _) _ (by decide)⟩

/-- A project that is deleted while it has a volume of a type keeps its SVM. -/
theorem project_deleted_keeps_svm :
    ¬ ∀ (sdk : Sdk) (o : Lookup) (hosts : List Text) (ws : Clusters) (events pre : List Event)
      (e : Event), pre ++ [e] <+: events →
        EventSound sdk o hosts (pre.foldl (step sdk o hosts) ⟨ws, [], []⟩) e := by
  intro h
  have hsound := h plainSdk .first exampleHosts exampleClusters _
    [.accessAdded "p1".toList "t1".toList] (.projectDeleted "p1".toList) (List.prefix_refl _)
  have hleft : ((cleaned plainSdk .first exampleHosts "p1".toList
      (step plainSdk .first exampleHosts ⟨exampleClusters, [], []⟩
        (.accessAdded "p1".toList "t1".toList))).2 "netapp".toList).Holds "p1".toList := by
    decide
  exact (hsound.2 "netapp".toList List.mem_cons_self).1 hleft

end Understack.Workflows.Netapp
