import Understack.Workflows.Netapp

/-! What project cleanup reports under failing ONTAP calls, and what its handler returns. -/
namespace Understack.Workflows.Netapp
open PyText

/-- The volume that cleanup looks for. -/
def projectVolume (projectId : Text) : Volume := ⟨svmName projectId, volumeName projectId⟩

variable {o : Lookup} {faults : Faults} {projectId : Text} {w : World}

theorem mem_named {name : Text} {c : Cluster} {v : Volume} :
    v ∈ Client.named name c ↔ v ∈ c.volumes ∧ v.name = name := by
  simp [Client.named]

theorem mem_eraseVolume {c : Cluster} {u v : Volume} :
    u ∈ (c.eraseVolume v).volumes ↔ u ∈ c.volumes ∧ u ≠ v := by
  simp [Cluster.eraseVolume]

theorem mem_eraseSvm {c : Cluster} {name : Text} (h : ∀ v ∈ c.volumes, v.svm ≠ name)
    {svm : Text} : svm ∈ (c.eraseSvm name h).svms ↔ svm ∈ c.svms ∧ svm ≠ name := by
  simp [Cluster.eraseSvm]

@[simp] theorem svmExists_eq (fault : Option Fault) (c : Cluster) :
    svmExists fault projectId c =
      .ok (fault.isNone && decide (svmName projectId ∈ c.svms)) := by
  unfold svmExists Client.findSvm
  cases fault with
  | none => by_cases h : svmName projectId ∈ c.svms <;> simp [h]
  | some f => cases f <;> rfl

@[simp] theorem volumeExists_eq (c : Cluster) :
    volumeExists faults projectId c =
      .ok (faults.volumeFind.isNone && decide (projectVolume projectId ∈ c.volumes)) := by
  unfold volumeExists Client.findVolume
  cases faults.volumeFind with
  | none =>
    by_cases h : projectVolume projectId ∈ c.volumes
    · simp only [projectVolume] at h
      simp [projectVolume, h]
    · simp only [projectVolume] at h
      simp [projectVolume, h]
  | some f => rfl

theorem clientDeleteVolume_cases (o : Lookup) (faults : Faults) (name : Text) (w : World) :
    (∃ v, faults.volumeGet = none ∧ faults.volumeDelete = none ∧
        o.pick (Client.named name w.cluster) = some v ∧
        Client.deleteVolume o faults name w =
          (true, { w with cluster := w.cluster.eraseVolume v })) ∨
      ((faults.volumeGet = none → faults.volumeDelete = none →
          o.pick (Client.named name w.cluster) = none) ∧
        Client.deleteVolume o faults name w = (false, w)) := by
  unfold Client.deleteVolume
  cases hg : faults.volumeGet with
  | some f => exact Or.inr ⟨by simp, rfl⟩
  | none =>
    cases hp : o.pick (Client.named name w.cluster) with
    | none => exact Or.inr ⟨by simp, rfl⟩
    | some v =>
      cases hd : faults.volumeDelete with
      | some f => exact Or.inr ⟨by simp, rfl⟩
      | none => exact Or.inl ⟨v, rfl, rfl, rfl, rfl⟩

theorem clientDeleteSvm_cases (faults : Faults) (name : Text) (w : World) :
    (faults.svmGet = none ∧ faults.svmDelete = none ∧ name ∈ w.cluster.svms ∧
      ∃ h : ∀ v ∈ w.cluster.volumes, v.svm ≠ name, Client.deleteSvm faults name w =
        (true, ⟨w.cluster.eraseSvm name h, w.svmDeletes ++ [(name, w.cluster)]⟩)) ∨
      ((faults.svmGet = none → faults.svmDelete = none → name ∈ w.cluster.svms →
          ∃ v ∈ w.cluster.volumes, v.svm = name) ∧
        ∃ log, (log = [] ∨ log = [(name, w.cluster)]) ∧
          Client.deleteSvm faults name w = (false, ⟨w.cluster, w.svmDeletes ++ log⟩)) := by
  unfold Client.deleteSvm
  cases hg : faults.svmGet with
  | some f => exact Or.inr ⟨by simp, [], Or.inl rfl, by simp⟩
  | none =>
    by_cases hn : name ∈ w.cluster.svms
    · cases hd : faults.svmDelete with
      | some f => exact Or.inr ⟨by simp, _, Or.inr rfl, by simp [hn]⟩
      | none =>
        by_cases h : ∀ v ∈ w.cluster.volumes, v.svm ≠ name
        · exact Or.inl ⟨rfl, rfl, hn, h, by simp only [if_pos hn]; rw [dif_pos h]⟩
        · have hex : ∃ v ∈ w.cluster.volumes, v.svm = name := by simpa using h
          exact Or.inr ⟨fun _ _ _ => hex, _, Or.inr rfl, by simp [hn, h]⟩
    · exact Or.inr ⟨fun _ _ hm => absurd hm hn, [], Or.inl rfl, by simp [hn]⟩

/-- The first step of cleanup. -/
def volumeStep (o : Lookup) (faults : Faults) (projectId : Text) (w : World) : Bool × World :=
  if faults.volumeFind = none ∧ projectVolume projectId ∈ w.cluster.volumes then
    Client.deleteVolume o faults (volumeName projectId) w
  else (true, w)

/-- The second step; it is only reached with a missing or deleted volume. -/
def svmStep (faults : Faults) (projectId : Text) (c : Cluster) (vol : Bool × World) :
    Bool × World :=
  if faults.svmFind = none ∧ svmName projectId ∈ c.svms then
    if vol.1 then Client.deleteSvm faults (svmName projectId) vol.2 else (false, vol.2)
  else (true, vol.2)

theorem cleanupProject_eq :
    Manager.cleanupProject o faults projectId w =
      (⟨(volumeStep o faults projectId w).1,
          (svmStep faults projectId w.cluster (volumeStep o faults projectId w)).1⟩,
        (svmStep faults projectId w.cluster (volumeStep o faults projectId w)).2) := by
  simp only [Manager.cleanupProject, volumeExists_eq, svmExists_eq, Bool.and_eq_true,
    Option.isNone_iff_eq_none, decide_eq_true_eq, deleteVolume, deleteSvm]
  have hvol : (if faults.volumeFind = none ∧ projectVolume projectId ∈ w.cluster.volumes then
      Client.deleteVolume o faults (volumeName projectId) w else (true, w)) =
      volumeStep o faults projectId w := rfl
  rw [hvol]
  -- where the volume was taken for missing, its step has succeeded
  have hflag : ((volumeStep o faults projectId w).1 ||
      !(faults.volumeFind.isNone && decide (projectVolume projectId ∈ w.cluster.volumes))) =
      (volumeStep o faults projectId w).1 := by
    by_cases h : faults.volumeFind = none ∧ projectVolume projectId ∈ w.cluster.volumes
    · simp [h.1, h.2]
    · simp [volumeStep, h]
  rw [hflag]
  rfl

theorem volumeStep_cases (o : Lookup) (faults : Faults) (projectId : Text) (w : World) :
    ((faults.volumeFind = none → projectVolume projectId ∉ w.cluster.volumes) ∧
      volumeStep o faults projectId w = (true, w)) ∨
    (faults.volumeFind = none ∧ projectVolume projectId ∈ w.cluster.volumes ∧
      ((∃ v, faults.volumeGet = none ∧ faults.volumeDelete = none ∧
          o.pick (Client.named (volumeName projectId) w.cluster) = some v ∧
          volumeStep o faults projectId w =
            (true, { w with cluster := w.cluster.eraseVolume v })) ∨
        (¬ (faults.volumeGet = none ∧ faults.volumeDelete = none) ∧
          volumeStep o faults projectId w = (false, w)))) := by
  unfold volumeStep
  by_cases h : faults.volumeFind = none ∧ projectVolume projectId ∈ w.cluster.volumes
  · right
    rw [if_pos h]
    use h.1, h.2
    rcases clientDeleteVolume_cases o faults (volumeName projectId) w with
      ⟨v, hg, hd, hp, heq⟩ | ⟨hnone, heq⟩
    · exact Or.inl ⟨v, hg, hd, hp, heq⟩
    · right
      use ?_, heq
      rintro ⟨hg, hd⟩
      have hmem : projectVolume projectId ∈ Client.named (volumeName projectId) w.cluster :=
        mem_named.mpr ⟨h.2, rfl⟩
      exact o.total _ (List.ne_nil_of_mem hmem) (hnone hg hd)
  · left
    rw [if_neg h]
    exact ⟨fun hf hm => h ⟨hf, hm⟩, rfl⟩

theorem volumeStep_log : (volumeStep o faults projectId w).2.svmDeletes = w.svmDeletes := by
  rcases volumeStep_cases o faults projectId w with
    ⟨-, heq⟩ | ⟨-, -, ⟨v, -, -, -, heq⟩ | ⟨-, heq⟩⟩ <;> rw [heq]

theorem volumeStep_svms :
    (volumeStep o faults projectId w).2.cluster.svms = w.cluster.svms := by
  rcases volumeStep_cases o faults projectId w with
    ⟨-, heq⟩ | ⟨-, -, ⟨v, -, -, -, heq⟩ | ⟨-, heq⟩⟩ <;> rw [heq]
  rfl

/-- What the second step does: it keeps the volumes, it succeeds and leaves the SVM only where
the lookup failed, and a deletion it issues meets the volumes that the first step left. -/
theorem svmStep_spec (faults : Faults) (projectId : Text) {c : Cluster} (vol : Bool × World)
    (hsvms : vol.2.cluster.svms = c.svms) :
    (svmStep faults projectId c vol).2.cluster.volumes = vol.2.cluster.volumes ∧
    ((svmStep faults projectId c vol).1 = true ∧
        svmName projectId ∈ (svmStep faults projectId c vol).2.cluster.svms ↔
      svmName projectId ∈ c.svms ∧ faults.svmFind ≠ none) ∧
    ∃ log, (log = [] ∨ vol.1 = true ∧ log = [(svmName projectId, vol.2.cluster)]) ∧
      (svmStep faults projectId c vol).2.svmDeletes = vol.2.svmDeletes ++ log := by
  unfold svmStep
  by_cases hfound : faults.svmFind = none ∧ svmName projectId ∈ c.svms
  · rw [if_pos hfound]
    cases hv : vol.1 with
    | false => exact ⟨rfl, by simp [hfound.1], [], Or.inl rfl, by simp⟩
    | true =>
      rw [if_pos rfl]
      rcases clientDeleteSvm_cases faults (svmName projectId) vol.2 with
        ⟨-, -, -, hfree, heq⟩ | ⟨-, log, hlog, heq⟩ <;> rw [heq]
      · exact ⟨rfl, by simp [mem_eraseSvm hfree, hfound.1], _, Or.inr ⟨rfl, rfl⟩, rfl⟩
      · exact ⟨rfl, by simp [hfound.1], log, hlog.imp_right fun h => ⟨rfl, h⟩, rfl⟩
  · rw [if_neg hfound]
    refine ⟨rfl, ?_, [], Or.inl rfl, by simp⟩
    simp only [true_and, hsvms]
    constructor
    · intro hm
      exact ⟨hm, fun hf => hfound ⟨hf, hm⟩⟩
    · rintro ⟨hm, -⟩
      exact hm

/-- What cleanup must not report or do, from the cluster `c` on. -/
structure CleanupSound (o : Lookup) (faults : Faults) (projectId : Text) (c : Cluster) : Prop where
  volume : (Manager.cleanupProject o faults projectId ⟨c, []⟩).1.volume = true →
    projectVolume projectId ∉ (Manager.cleanupProject o faults projectId ⟨c, []⟩).2.cluster.volumes
  svm : (Manager.cleanupProject o faults projectId ⟨c, []⟩).1.svm = true →
    svmName projectId ∉ (Manager.cleanupProject o faults projectId ⟨c, []⟩).2.cluster.svms
  order : ∀ e ∈ (Manager.cleanupProject o faults projectId ⟨c, []⟩).2.svmDeletes,
    projectVolume projectId ∉ e.2.volumes

/-- The volume step reaches the right volume: if the volume is there, the lookup sees it, and
what is then got and deleted by its name is this volume and not one of another SVM. -/
def VolumeReached (o : Lookup) (faults : Faults) (projectId : Text) (c : Cluster) : Prop :=
  projectVolume projectId ∈ c.volumes → faults.volumeFind = none ∧
    (faults.volumeGet = none → faults.volumeDelete = none →
      o.pick (Client.named (volumeName projectId) c) = some (projectVolume projectId))

theorem volumeStep_sound_iff (o : Lookup) (faults : Faults) (projectId : Text) (w : World) :
    ((volumeStep o faults projectId w).1 = true → projectVolume projectId ∉
        (volumeStep o faults projectId w).2.cluster.volumes) ↔
      VolumeReached o faults projectId w.cluster := by
  rcases volumeStep_cases o faults projectId w with
    ⟨hmiss, heq⟩ | ⟨hfind, hmem, ⟨v, hg, hd, hp, heq⟩ | ⟨hfault, heq⟩⟩ <;> rw [heq]
  · constructor
    · intro h hm
      exact absurd hm (h rfl)
    · intro h _ hm
      exact hmiss (h hm).1 hm
  · constructor
    · intro h _
      use hfind
      intro _ _
      by_contra hne
      have hother : projectVolume projectId ≠ v := by
        rintro rfl
        exact hne hp
      exact h rfl (mem_eraseVolume.mpr ⟨hmem, hother⟩)
    · intro h _ hm
      have hsame : v = projectVolume projectId :=
        Option.some.inj (hp.symm.trans ((h hmem).2 hg hd))
      exact (mem_eraseVolume.mp hm).2 hsame.symm
  · constructor
    · intro _ _
      exact ⟨hfind, fun hg hd => absurd ⟨hg, hd⟩ hfault⟩
    · intro _ h
      cases h

theorem cleanupSound_iff {c : Cluster} :
    CleanupSound o faults projectId c ↔
      VolumeReached o faults projectId c ∧
        (svmName projectId ∈ c.svms → faults.svmFind = none) := by
  have hreach := volumeStep_sound_iff o faults projectId ⟨c, []⟩
  have hlog0 : (volumeStep o faults projectId ⟨c, []⟩).2.svmDeletes = [] := volumeStep_log
  obtain ⟨hvols, hleft, log, hlog, hdel⟩ :=
    svmStep_spec faults projectId (volumeStep o faults projectId ⟨c, []⟩) volumeStep_svms
  rw [hlog0, List.nil_append] at hdel
  constructor
  · intro h
    have hv := h.volume
    have hs := h.svm
    rw [cleanupProject_eq] at hv hs
    constructor
    · rw [← hreach]
      simpa only [hvols] using hv
    · intro hm
      by_contra hf
      obtain ⟨htrue, hstill⟩ := hleft.mpr ⟨hm, hf⟩
      exact hs htrue hstill
  · rintro ⟨hr, hf⟩
    have hgone := hreach.mpr hr
    constructor
    · rw [cleanupProject_eq]
      simpa only [hvols] using hgone
    · rw [cleanupProject_eq]
      intro htrue hstill
      obtain ⟨hm, hne⟩ := hleft.mp ⟨htrue, hstill⟩
      exact hne (hf hm)
    · rw [cleanupProject_eq]
      simp only [hdel]
      rcases hlog with rfl | ⟨htrue, rfl⟩
      · simp
      · simpa using hgone htrue

theorem svmStep_removes_iff {c : Cluster} {vol : Bool × World}
    (hsvms : vol.2.cluster.svms = c.svms) (hm : svmName projectId ∈ c.svms) :
    svmName projectId ∉ (svmStep faults projectId c vol).2.cluster.svms ↔
      vol.1 = true ∧ (faults.svmFind = none ∧ faults.svmGet = none ∧ faults.svmDelete = none) ∧
        ∀ v ∈ vol.2.cluster.volumes, v.svm ≠ svmName projectId := by
  unfold svmStep
  by_cases hf : faults.svmFind = none
  · rw [if_pos ⟨hf, hm⟩]
    cases hv : vol.1 with
    | false => simp [hsvms, hm]
    | true =>
      rw [if_pos rfl]
      rcases clientDeleteSvm_cases faults (svmName projectId) vol.2 with
        ⟨hg, hd, -, hfree, heq⟩ | ⟨hwhy, log, -, heq⟩ <;> rw [heq]
      · simp [mem_eraseSvm hfree, hf, hg, hd]
        exact hfree
      · constructor
        · intro h
          exact absurd (hsvms ▸ hm) h
        · rintro ⟨-, ⟨-, hg, hd⟩, hfree⟩
          obtain ⟨v, hv, hsvm⟩ := hwhy hg hd (hsvms ▸ hm)
          exact absurd hsvm (hfree v hv)
  · rw [if_neg fun h => hf h.1]
    simp [hsvms, hm, hf]

/-- Cleanup can take the SVM away: no call fails, its volumes are at most the one that cleanup
looks for, and this one is the volume got by its name. -/
structure Removable (o : Lookup) (faults : Faults) (projectId : Text) (c : Cluster) : Prop where
  svmCalls : faults.svmFind = none ∧ faults.svmGet = none ∧ faults.svmDelete = none
  only : ∀ v ∈ c.volumes, v.svm = svmName projectId → v = projectVolume projectId
  volumeCalls : projectVolume projectId ∈ c.volumes → faults.volumeFind = none ∧
    faults.volumeGet = none ∧ faults.volumeDelete = none ∧
      o.pick (Client.named (volumeName projectId) c) = some (projectVolume projectId)

theorem cleanupProject_removes_iff (hm : svmName projectId ∈ w.cluster.svms) :
    svmName projectId ∉ (Manager.cleanupProject o faults projectId w).2.cluster.svms ↔
      Removable o faults projectId w.cluster := by
  rw [cleanupProject_eq, svmStep_removes_iff volumeStep_svms hm]
  rcases volumeStep_cases o faults projectId w with
    ⟨hmiss, heq⟩ | ⟨hfind, hmem, ⟨v, hg, hd, hp, heq⟩ | ⟨hfault, heq⟩⟩ <;> rw [heq]
  · constructor
    · rintro ⟨-, hsvm, hfree⟩
      have habsent : projectVolume projectId ∉ w.cluster.volumes := fun h => hfree _ h rfl
      exact ⟨hsvm, fun v hv hs => absurd hs (hfree v hv), fun h => absurd h habsent⟩
    · intro h
      refine ⟨rfl, h.svmCalls, fun v hv hs => ?_⟩
      rw [h.only v hv hs] at hv
      exact hmiss (h.volumeCalls hv).1 hv
  · constructor
    · rintro ⟨-, hsvm, hfree⟩
      -- nothing of the SVM is left, so the volume deleted is the one looked for
      have hsame (u : Volume) (hu : u ∈ w.cluster.volumes) (hs : u.svm = svmName projectId) :
          u = v := by
        by_contra hne
        exact hfree u (mem_eraseVolume.mpr ⟨hu, hne⟩) hs
      have hv := hsame _ hmem rfl
      refine ⟨hsvm, fun u hu hs => (hsame u hu hs).trans hv.symm, fun _ => ⟨hfind, hg, hd, ?_⟩⟩
      rw [hp, hv]
    · intro h
      obtain ⟨-, -, -, hp'⟩ := h.volumeCalls hmem
      obtain rfl : v = projectVolume projectId := Option.some.inj (hp.symm.trans hp')
      refine ⟨rfl, h.svmCalls, fun u hu hs => ?_⟩
      obtain ⟨hu, hne⟩ := mem_eraseVolume.mp hu
      exact hne (h.only u hu hs)
  · constructor
    · rintro ⟨h, -⟩
      cases h
    · intro h
      obtain ⟨-, hg, hd, -⟩ := h.volumeCalls hmem
      exact absurd ⟨hg, hd⟩ hfault

/-! The handler. -/

def World.Holds (w : World) (projectId : Text) : Prop := svmName projectId ∈ w.cluster.svms

theorem svmFound_iff {b : Backend} :
    b.svmFound projectId w.cluster = true ↔ b.check = none ∧ w.Holds projectId := by
  simp [Backend.svmFound, World.Holds]

/-- A manager cannot be built before the SVM is found. -/
def Aborts (sdk : Sdk) (projectId : Text) (ws : Clusters) : Option Text → List Backend → Prop
  | _, [] => False
  | connection, b :: bs =>
    (sdk.needsConnection connection b.hostname = true ∧ b.connect = false) ∨
      b.svmFound projectId (ws (sdk.reached connection b.hostname)).cluster = false ∧
        Aborts sdk projectId ws (some (sdk.connected connection b.hostname)) bs

/-- The backend whose manager finds the SVM, with the cluster that this manager has reached. -/
def stopsAt (sdk : Sdk) (projectId : Text) (ws : Clusters) :
    Option Text → List Backend → Option (Backend × Text)
  | _, [] => none
  | connection, b :: bs =>
    if b.svmFound projectId (ws (sdk.reached connection b.hostname)).cluster then
      some (b, sdk.reached connection b.hostname)
    else stopsAt sdk projectId ws (some (sdk.connected connection b.hostname)) bs

section Loop

variable {sdk : Sdk} {ws : Clusters}

/-- The SVM is on the cluster at which the loop stops. -/
theorem stopsAt_found {connection : Option Text} {backends : List Backend} {b : Backend}
    {cluster : Text} (h : stopsAt sdk projectId ws connection backends = some (b, cluster)) :
    b ∈ backends ∧ b.check = none ∧ (ws cluster).Holds projectId := by
  induction backends generalizing connection with
  | nil => cases h
  | cons b' bs ih =>
    unfold stopsAt at h
    split_ifs at h with hfound
    · cases h
      exact ⟨List.mem_cons_self, svmFound_iff.mp hfound⟩
    · obtain ⟨hmem, hrest⟩ := ih h
      exact ⟨List.mem_cons_of_mem b' hmem, hrest⟩

theorem onFirst_of_aborts {α : Type} {missing aborted : α} {act : Backend → World → α × World}
    {connection : Option Text} {backends : List Backend}
    (h : Aborts sdk projectId ws connection backends) :
    onFirst sdk projectId missing aborted act connection backends ws = (aborted, ws) := by
  induction backends generalizing connection with
  | nil => cases h
  | cons b bs ih =>
    unfold onFirst
    rcases h with ⟨hneeds, hconnect⟩ | ⟨hfound, hrest⟩
    · rw [hneeds, hconnect]
      rfl
    · split_ifs with hfail
      · rfl
      · dsimp only
        rw [hfound]
        exact ih hrest

/-- The loop acts on one cluster at most. -/
theorem onFirst_eq {α : Type} {missing aborted : α} {act : Backend → World → α × World}
    {connection : Option Text} {backends : List Backend}
    (h : ¬ Aborts sdk projectId ws connection backends) :
    onFirst sdk projectId missing aborted act connection backends ws =
      (stopsAt sdk projectId ws connection backends).elim (missing, ws) fun s =>
        ((act s.1 (ws s.2)).1, Function.update ws s.2 (act s.1 (ws s.2)).2) := by
  induction backends generalizing connection with
  | nil => rfl
  | cons b bs ih =>
    unfold Aborts at h
    rw [not_or, not_and, not_and, Bool.not_eq_false] at h
    have hconnect : (sdk.needsConnection connection b.hostname && !b.connect) = false := by
      rw [Bool.and_eq_false_imp]
      intro hneeds
      rw [h.1 hneeds]
      rfl
    unfold onFirst stopsAt
    rw [hconnect]
    by_cases hfound :
        b.svmFound projectId (ws (sdk.reached connection b.hostname)).cluster = true
    · rw [if_pos hfound, if_pos hfound]
      rfl
    · rw [if_neg hfound, if_neg hfound]
      exact ih (h.2 (by simpa using hfound))

theorem cleanupFirst_code {backends : List Backend} :
    (cleanupFirst sdk o projectId backends ws).1 = 0 ↔
      ¬ Aborts sdk projectId ws none backends := by
  unfold cleanupFirst
  by_cases ha : Aborts sdk projectId ws none backends
  · rw [onFirst_of_aborts ha]
    simp [ha]
  · rw [onFirst_eq ha]
    cases stopsAt sdk projectId ws none backends <;> simp [ha]

/-- Every backend that holds the SVM is the cluster on which the loop finds it, and there cleanup
can take it away. -/
def OneRemovable (sdk : Sdk) (o : Lookup) (projectId : Text) (backends : List Backend)
    (ws : Clusters) : Prop :=
  ∀ b ∈ backends, (ws (sdk.cluster b.hostname)).Holds projectId →
    ∃ s, stopsAt sdk projectId ws none backends = some (s, sdk.cluster b.hostname) ∧
      Removable o s.cleanup projectId (ws (sdk.cluster b.hostname)).cluster

/-- No configured backend holds the SVM. -/
def Clears (sdk : Sdk) (projectId : Text) (backends : List Backend) (ws : Clusters) : Prop :=
  ∀ b ∈ backends, ¬ (ws (sdk.cluster b.hostname)).Holds projectId

theorem cleanupFirst_clears_iff {backends : List Backend}
    (ha : ¬ Aborts sdk projectId ws none backends) :
    Clears sdk projectId backends (cleanupFirst sdk o projectId backends ws).2 ↔
      OneRemovable sdk o projectId backends ws := by
  unfold cleanupFirst
  rw [onFirst_eq ha]
  refine forall₂_congr fun b _ => ?_
  cases hstop : stopsAt sdk projectId ws none backends with
  | none =>
    constructor
    · intro hnot hholds
      exact absurd hholds hnot
    · intro h hholds
      obtain ⟨s, hs, -⟩ := h hholds
      cases hs
  | some s =>
    obtain ⟨s, cluster⟩ := s
    obtain ⟨-, -, hfound⟩ := stopsAt_found hstop
    by_cases hc : sdk.cluster b.hostname = cluster
    · have hremoves : ¬ World.Holds (Manager.cleanupProject o s.cleanup projectId (ws cluster)).2
          projectId ↔ Removable o s.cleanup projectId (ws cluster).cluster :=
        cleanupProject_removes_iff hfound
      rw [hc, Option.elim_some]
      dsimp only
      rw [Function.update_self, hremoves]
      constructor
      · intro hr _
        exact ⟨s, rfl, hr⟩
      · intro h
        obtain ⟨s', hs', hr⟩ := h hfound
        cases hs'
        exact hr
    · rw [Option.elim_some]
      dsimp only
      rw [Function.update_of_ne hc]
      constructor
      · intro hnot hholds
        exact absurd hholds hnot
      · intro h hholds
        obtain ⟨s', hs', -⟩ := h hholds
        cases hs'
        exact hc rfl

end Loop

/-- The handler returns 0 only with the SVM gone from every backend. -/
def HandlerSound (sdk : Sdk) (o : Lookup) (eventType projectId : Text) (configured : Bool)
    (backends : List Backend) (ws : Clusters) : Prop :=
  (handleProjectDeleted sdk o eventType projectId configured backends ws).1 = 0 →
    Clears sdk projectId backends
      (handleProjectDeleted sdk o eventType projectId configured backends ws).2

/-- Cleanup reports only what it did exactly where the volume lookup does not fail on a present
volume, the volume then deleted is not one of another SVM, and the SVM lookup does not fail on a
present SVM; and the handler's 0 is right exactly where the handler gives up, or the backends that
hold the SVM are the cluster on which it finds the SVM and cleanup can take it away. -/
theorem cleanup_reports_sound_iff (sdk : Sdk) (o : Lookup) (faults : Faults)
    (eventType projectId : Text) (configured : Bool) (c : Cluster) (backends : List Backend)
    (ws : Clusters) :
    (CleanupSound o faults projectId c ↔
      VolumeReached o faults projectId c ∧
        (svmName projectId ∈ c.svms → faults.svmFind = none)) ∧
    (HandlerSound sdk o eventType projectId configured backends ws ↔
      eventType ≠ projectDeletedEvent ∨ configured = false ∨
        Aborts sdk projectId ws none backends ∨ OneRemovable sdk o projectId backends ws) := by
  constructor
  · exact cleanupSound_iff
  · unfold HandlerSound handleProjectDeleted
    by_cases he : eventType = projectDeletedEvent
    · rw [if_neg (by simpa using he)]
      cases configured with
      | false => simp
      | true =>
        rw [if_pos rfl, cleanupFirst_code]
        by_cases ha : Aborts sdk projectId ws none backends
        · simp [ha]
        · simp [ha, he, cleanupFirst_clears_iff ha]
    · rw [if_pos he]
      simp [he]

/-- A cluster with the SVM of one project. -/
def exampleCluster : Cluster where
  svms := [svmName "p1".toList]
  volumes := []
  housed := by simp

/-- An SVM lookup that fails on the project's SVM makes cleanup report it gone. -/
theorem cleanup_reports_unsound :
    ¬ ((∀ (o : Lookup) (faults : Faults) (projectId : Text) (c : Cluster),
        CleanupSound o faults projectId c) ∧
      ∀ (sdk : Sdk) (o : Lookup) (eventType projectId : Text) (configured : Bool)
        (backends : List Backend) (ws : Clusters),
        HandlerSound sdk o eventType projectId configured backends ws) := by
  rintro ⟨h, -⟩
  have hs := (h .first { Faults.none with svmFind := some .rest } "p1".toList exampleCluster).svm
  exact hs (by decide) (by decide)

end Understack.Workflows.Netapp
