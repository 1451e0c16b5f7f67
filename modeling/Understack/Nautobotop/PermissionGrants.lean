import Mathlib.Data.List.Induction
import Understack.Nautobotop.PermissionSync

/-! What the permissions in Nautobot grant after runs over changing declarations. A permission that
is declared no more, or without actions, stays as it is, and constraints that are no JSON are
dropped. -/
namespace Understack.Nautobotop.Permissions
open PyText Json

variable {F : Type} {env : Env F}

namespace Env

/-- What the run has looked up is in Nautobot. -/
def Lookups.Valid (l : Lookups) : Prop :=
  ∀ name id, l.groupNameToID.lookup name = some id → (id, name) ∈ l.groups

theorem getOrCreate_spec (env : Env F) (name : Text) (groups : List (ℕ × Text)) :
    ((env.getOrCreate name groups).1, name) ∈ (env.getOrCreate name groups).2 ∧
      groups ⊆ (env.getOrCreate name groups).2 := by
  unfold getOrCreate
  cases hfind : groups.find? fun g => g.2 = name with
  | some g =>
    have hname : g.2 = name := by simpa using List.find?_some hfind
    refine ⟨?_, List.Subset.refl _⟩
    rw [← hname]
    exact List.mem_of_find?_eq_some hfind
  | none => exact ⟨List.mem_append_right _ (List.mem_singleton_self _), List.subset_append_left ..⟩

theorem resolveGroupID_spec (env : Env F) {l : Lookups} (h : l.Valid) (name : Text) :
    ((env.resolveGroupID name l).1, name) ∈ (env.resolveGroupID name l).2.groups ∧
      l.groups ⊆ (env.resolveGroupID name l).2.groups ∧ (env.resolveGroupID name l).2.Valid := by
  unfold resolveGroupID
  cases hcache : l.groupNameToID.lookup name with
  | some id => exact ⟨h name id hcache, List.Subset.refl _, h⟩
  | none =>
    obtain ⟨hmem, hsub⟩ := env.getOrCreate_spec name l.groups
    refine ⟨hmem, hsub, fun name' id hid => ?_⟩
    by_cases hname : name' = name
    · subst hname
      rw [PyDict.lookup_put_self] at hid
      cases hid
      exact hmem
    · rw [PyDict.lookup_put_of_ne _ _ hname] at hid
      exact hsub (h name' id hid)

/-- Each id that is resolved is of a group of the list. -/
theorem resolveGroupIDs_spec (env : Env F) (names : List Text) {l : Lookups} (h : l.Valid) :
    (∀ id ∈ (env.resolveGroupIDs names l).1, ∃ name ∈ names,
        (id, name) ∈ (env.resolveGroupIDs names l).2.groups) ∧
      l.groups ⊆ (env.resolveGroupIDs names l).2.groups ∧ (env.resolveGroupIDs names l).2.Valid := by
  induction names generalizing l with
  | nil => exact ⟨by simp [resolveGroupIDs], List.Subset.refl _, h⟩
  | cons name names ih =>
    obtain ⟨hid, hsub, hvalid⟩ := env.resolveGroupID_spec h name
    obtain ⟨hids, hsub', hvalid'⟩ := ih hvalid
    refine ⟨fun id hmem => ?_, fun g hg => hsub' (hsub hg), hvalid'⟩
    rcases List.mem_cons.mp hmem with rfl | hmem
    · exact ⟨name, List.mem_cons_self, hsub' hid⟩
    · obtain ⟨n, hn, hg⟩ := hids id hmem
      exact ⟨n, List.mem_cons_of_mem name hn, hg⟩

end Env

/-- The permissions that runs leave: told apart by id and by name, with a name and actions. -/
structure Good (s : Nautobot F) : Prop where
  ids : (s.permissions.map ObjectPermission.id).Nodup
  names : (s.permissions.map ObjectPermission.name).Nodup
  named : ∀ p ∈ s.permissions, p.name ≠ []
  acting : ∀ p ∈ s.permissions, p.actions ≠ []

/-- The permission is what a run writes for the declared one. -/
structure Written (env : Env F) (groups : List (ℕ × Text)) (d : Permission)
    (p : ObjectPermission F) : Prop where
  name : p.name = d.name
  actions : p.actions = d.buildActions
  objectTypes : p.objectTypes = d.objectTypes
  enabled : p.enabled = d.isEnabled
  constraints : p.constraints = env.parseConstraints d
  groups : ∀ g ∈ p.groups, ∃ name ∈ d.groups, (g, name) ∈ groups

theorem Written.mono {groups groups' : List (ℕ × Text)} {d : Permission} {p : ObjectPermission F}
    (h : Written env groups d p) (hsub : groups ⊆ groups') : Written env groups' d p :=
  { h with
    groups := fun g hg => by
      obtain ⟨name, hn, hmem⟩ := h.groups g hg
      exact ⟨name, hn, hsub hmem⟩ }

/-- A declared permission that a run does not skip. -/
def Permission.Applied (d : Permission) : Prop := d.name ≠ [] ∧ d.buildActions ≠ []

/-- What a turn of one declared permission does to the store. -/
structure Turned (env : Env F) (d : Permission) (s s' : Nautobot F) : Prop where
  good : Good s'
  groups : s.groups ⊆ s'.groups
  written : ∃ p ∈ s'.permissions, Written env s'.groups d p
  after : ∀ p ∈ s'.permissions, Written env s'.groups d p ∨ p ∈ s.permissions ∧ p.name ≠ d.name
  before : ∀ p ∈ s.permissions, p.name ≠ d.name → p ∈ s'.permissions

theorem Good.turned_update {s : Nautobot F} (h : Good s) {d : Permission} (hd : d.Applied)
    {groups : List (ℕ × Text)} (hsub : s.groups ⊆ groups) {ids : List ℕ}
    (hids : ∀ g ∈ ids, ∃ name ∈ d.groups, (g, name) ∈ groups) {old : ObjectPermission F}
    (hold : old ∈ s.permissions) (hname : old.name = d.name) :
    Turned env d s ⟨groups, s.permissions.map fun p =>
      if p.id = old.id then env.update d ids p else p⟩ := by
  have hwritten (p : ObjectPermission F) : Written env groups d (env.update d ids p) :=
    ⟨rfl, rfl, rfl, rfl, rfl, hids⟩
  -- the permission with the id is the one with the name
  have hsame {p : ObjectPermission F} (hp : p ∈ s.permissions) : p.id = old.id ↔ p.name = d.name := by
    constructor
    · intro hid
      rw [List.inj_on_of_nodup_map h.ids hp hold hid, hname]
    · intro hn
      rw [List.inj_on_of_nodup_map h.names hp hold (hn.trans hname.symm)]
  have hmap {β : Type} (f : ObjectPermission F → β)
      (hf : ∀ p ∈ s.permissions, p.id = old.id → f (env.update d ids p) = f p) :
      (s.permissions.map fun p => if p.id = old.id then env.update d ids p else p).map f =
        s.permissions.map f := by
    rw [List.map_map]
    refine List.map_congr_left fun p hp => ?_
    rw [Function.comp_apply]
    split_ifs with hid
    · exact hf p hp hid
    · rfl
  have hcases {p : ObjectPermission F} (hp : p ∈ s.permissions.map fun p =>
      if p.id = old.id then env.update d ids p else p) :
      (∃ q, p = env.update d ids q) ∨ p ∈ s.permissions ∧ p.name ≠ d.name := by
    obtain ⟨q, hq, rfl⟩ := List.mem_map.mp hp
    split_ifs with hid
    · exact Or.inl ⟨q, rfl⟩
    · exact Or.inr ⟨hq, fun hn => hid ((hsame hq).mpr hn)⟩
  refine ⟨⟨?_, ?_, fun p hp => ?_, fun p hp => ?_⟩, hsub, ?_, fun p hp => ?_, fun p hp hne => ?_⟩
  · rw [hmap _ fun p _ _ => rfl]
    exact h.ids
  · rw [hmap _ fun p hp hid => ((hsame hp).mp hid).symm]
    exact h.names
  · rcases hcases hp with ⟨q, rfl⟩ | ⟨hp, -⟩
    · exact hd.1
    · exact h.named p hp
  · rcases hcases hp with ⟨q, rfl⟩ | ⟨hp, -⟩
    · exact hd.2
    · exact h.acting p hp
  · exact ⟨_, List.mem_map.mpr ⟨old, hold, if_pos rfl⟩, hwritten old⟩
  · rcases hcases hp with ⟨q, rfl⟩ | hp
    · exact Or.inl (hwritten q)
    · exact Or.inr hp
  · exact List.mem_map.mpr ⟨p, hp, if_neg fun hid => hne ((hsame hp).mp hid)⟩

theorem Good.turned_create {s : Nautobot F} (h : Good s) {d : Permission} (hd : d.Applied)
    {groups : List (ℕ × Text)} (hsub : s.groups ⊆ groups) {ids : List ℕ}
    (hids : ∀ g ∈ ids, ∃ name ∈ d.groups, (g, name) ∈ groups)
    (hnew : ∀ p ∈ s.permissions, p.name ≠ d.name) :
    Turned env d s ⟨groups, s.permissions ++ [env.create d ids s.permissions]⟩ := by
  have hwritten : Written env groups d (env.create d ids s.permissions) :=
    ⟨rfl, rfl, rfl, rfl, rfl, hids⟩
  have hnodup {β : Type} {f : ObjectPermission F → β} (hf : (s.permissions.map f).Nodup)
      (hfresh : ∀ p ∈ s.permissions, f p ≠ f (env.create d ids s.permissions)) :
      ((s.permissions ++ [env.create d ids s.permissions]).map f).Nodup := by
    rw [List.map_append, List.map_singleton]
    refine List.nodup_append.mpr ⟨hf, List.nodup_singleton _, ?_⟩
    rintro a ha b hb rfl
    obtain ⟨p, hp, heq⟩ := List.mem_map.mp ha
    exact hfresh p hp (heq.trans (List.mem_singleton.mp hb))
  refine ⟨⟨hnodup h.ids fun p hp => ?_, hnodup h.names hnew, fun p hp => ?_, fun p hp => ?_⟩, hsub,
    ⟨_, List.mem_append_right _ (List.mem_singleton_self _), hwritten⟩, fun p hp => ?_,
    fun p hp _ => List.mem_append_left _ hp⟩
  · exact env.newPermissionId_fresh _ p hp
  · rcases List.mem_append.mp hp with hp | hp
    · exact h.named p hp
    · rw [List.mem_singleton.mp hp]
      exact hd.1
  · rcases List.mem_append.mp hp with hp | hp
    · exact h.acting p hp
    · rw [List.mem_singleton.mp hp]
      exact hd.2
  · rcases List.mem_append.mp hp with hp | hp
    · exact Or.inr ⟨hp, hnew p hp⟩
    · rw [List.mem_singleton.mp hp]
      exact Or.inl hwritten

/-- What the run has looked up so far is in Nautobot. -/
def Env.Progress.Valid (r : Env.Progress F) : Prop :=
  Env.Lookups.Valid ⟨r.nautobot.groups, r.groupNameToID⟩

theorem Good.turned {r : Env.Progress F} (h : Good r.nautobot) (env : Env F) {d : Permission}
    (hd : d.Applied) (hcache : r.Valid) :
    Turned env d r.nautobot (env.syncSinglePermission d r).nautobot ∧
      (env.syncSinglePermission d r).Valid := by
  obtain ⟨hids, hsub, hvalid⟩ := env.resolveGroupIDs_spec d.groups hcache
  unfold Env.syncSinglePermission
  rw [if_neg hd.1, if_neg hd.2]
  refine ⟨?_, hvalid⟩
  cases hfind : Env.getByName d.name r.nautobot.permissions with
  | some old =>
    have hname : old.name = d.name := by simpa using List.find?_some hfind
    exact h.turned_update hd hsub hids (List.mem_of_find?_eq_some hfind) hname
  | none =>
    refine h.turned_create hd hsub hids fun p hp hn => ?_
    have := List.find?_eq_none.mp hfind p hp
    simp [hn] at this

/-- What a run has done after the turns of the declared permissions `done`. -/
structure Synced (env : Env F) (s₀ : Nautobot F) (done : List Permission) (s : Nautobot F) : Prop where
  good : Good s
  written : ∀ d ∈ done, d.Applied → ∃ p ∈ s.permissions, Written env s.groups d p
  after : ∀ p ∈ s.permissions, (∃ d ∈ done, d.Applied ∧ Written env s.groups d p) ∨
    p ∈ s₀.permissions ∧ ∀ d ∈ done, d.Applied → d.name ≠ p.name
  before : ∀ p ∈ s₀.permissions, (∀ d ∈ done, d.Applied → d.name ≠ p.name) → p ∈ s.permissions

theorem Synced.turn {s₀ s s' : Nautobot F} {done : List Permission} {d : Permission}
    (h : Synced env s₀ done s) (hd : d.Applied) (hnew : d.name ∉ done.map Permission.name)
    (ht : Turned env d s s') : Synced env s₀ (done ++ [d]) s' := by
  refine ⟨ht.good, fun e he hea => ?_, fun p hp => ?_, fun p hp hno => ?_⟩
  · rcases List.mem_append.mp he with he | he
    · obtain ⟨p, hp, hw⟩ := h.written e he hea
      refine ⟨p, ht.before p hp fun hn => hnew ?_, hw.mono ht.groups⟩
      exact List.mem_map.mpr ⟨e, he, hw.name.symm.trans hn⟩
    · rw [List.mem_singleton.mp he]
      exact ht.written
  · rcases ht.after p hp with hw | ⟨hp, hne⟩
    · exact Or.inl ⟨d, List.mem_append_right _ (List.mem_singleton_self d), hd, hw⟩
    · rcases h.after p hp with ⟨e, he, hea, hw⟩ | ⟨hp₀, hno⟩
      · exact Or.inl ⟨e, List.mem_append_left _ he, hea, hw.mono ht.groups⟩
      · refine Or.inr ⟨hp₀, fun e he hea => ?_⟩
        rcases List.mem_append.mp he with he | he
        · exact hno e he hea
        · rw [List.mem_singleton.mp he]
          exact hne.symm
  · have hp' := h.before p hp fun e he => hno e (List.mem_append_left _ he)
    refine ht.before p hp' fun hn => ?_
    exact hno d (List.mem_append_right _ (List.mem_singleton_self d)) hd hn.symm

theorem Synced.skip {s₀ s : Nautobot F} {done : List Permission} {d : Permission}
    (h : Synced env s₀ done s) (hd : ¬ d.Applied) : Synced env s₀ (done ++ [d]) s := by
  have hmem {e : Permission} (he : e ∈ done ++ [d]) (hea : e.Applied) : e ∈ done := by
    rcases List.mem_append.mp he with he | he
    · exact he
    · rw [List.mem_singleton.mp he] at hea
      exact absurd hea hd
  refine ⟨h.good, fun e he hea => h.written e (hmem he hea) hea, fun p hp => ?_, fun p hp hno => ?_⟩
  · rcases h.after p hp with ⟨e, he, hrest⟩ | ⟨hp₀, hno⟩
    · exact Or.inl ⟨e, List.mem_append_left _ he, hrest⟩
    · exact Or.inr ⟨hp₀, fun e he hea => hno e (hmem he hea) hea⟩
  · exact h.before p hp fun e he => hno e (List.mem_append_left _ he)

/-- A permission without a name or actions is only reported. -/
theorem Env.nautobot_syncSinglePermission_of_not (env : Env F) {d : Permission} (hd : ¬ d.Applied)
    (r : Env.Progress F) : (env.syncSinglePermission d r).nautobot = r.nautobot ∧
      (env.syncSinglePermission d r).groupNameToID = r.groupNameToID := by
  unfold Env.syncSinglePermission
  rw [Permission.Applied, not_and_or, not_not, not_not] at hd
  rcases hd with hn | ha
  · rw [if_pos hn]
    exact ⟨rfl, rfl⟩
  · split_ifs
    · exact ⟨rfl, rfl⟩
    · exact ⟨rfl, rfl⟩

theorem synced_syncPermissions {s₀ : Nautobot F} {r : Env.Progress F} {done perms : List Permission}
    (h : Synced env s₀ done r.nautobot) (hcache : r.Valid)
    (hnames : ((done ++ perms).map Permission.name).Nodup) :
    Synced env s₀ (done ++ perms) (env.syncPermissions perms r).nautobot := by
  induction perms generalizing done r with
  | nil => simpa [Env.syncPermissions] using h
  | cons d perms ih =>
    have happend : done ++ d :: perms = done ++ [d] ++ perms := by simp
    rw [happend] at hnames ⊢
    by_cases hd : d.Applied
    · have hnew : d.name ∉ done.map Permission.name := by
        rw [List.map_append, List.map_append, List.map_singleton] at hnames
        have hdone := (List.nodup_append.mp hnames).1
        intro hmem
        exact (List.nodup_append.mp hdone).2.2 d.name hmem d.name (List.mem_singleton_self _) rfl
      obtain ⟨ht, hvalid⟩ := h.good.turned env hd hcache
      exact ih (h.turn hd hnew ht) hvalid hnames
    · obtain ⟨hnautobot, hids⟩ := env.nautobot_syncSinglePermission_of_not hd r
      have hsynced := h.skip hd
      rw [← hnautobot] at hsynced
      refine ih hsynced ?_ hnames
      rw [Env.Progress.Valid, hnautobot, hids]
      exact hcache

theorem Reports.logged_addReport (key : Text) (line : List Text) (r : Reports) :
    (r.addReport key line).Logged key line :=
  List.mem_append_right _ (List.mem_singleton_self _)

theorem Reports.log_subset_addReport (key : Text) (line : List Text) (r : Reports) :
    r.log ⊆ (r.addReport key line).log := List.subset_append_left ..

/-- What is logged of a declared permission: that it has no name, that it has no actions, or the
error of its constraints. -/
structure Told (env : Env F) (d : Permission) (r : Reports) : Prop where
  unnamed : d.name = [] →
    r.Logged "permissionInvalid".toList ["permission has no name, skipping".toList]
  idle : d.name ≠ [] → d.buildActions = [] →
    r.Logged "permissionInvalid".toList
      ["permission has no actions, skipping".toList, "name".toList, d.name]
  broken : d.Applied → d.constraints ≠ [] → ∀ err, env.unmarshalJson d.constraints = .error err →
    r.Logged "constraintsInvalid".toList
      ["invalid JSON constraints".toList, "name".toList, d.name, "error".toList, err]

theorem Told.mono {d : Permission} {r r' : Reports} (h : Told env d r) (hsub : r.log ⊆ r'.log) :
    Told env d r' where
  unnamed hn := hsub (h.unnamed hn)
  idle hn ha := hsub (h.idle hn ha)
  broken hd hc err herr := hsub (h.broken hd hc err herr)

theorem log_subset_reportConstraints (env : Env F) (d : Permission) (r : Reports) :
    r.log ⊆ (env.reportConstraints d r).log := by
  unfold Env.reportConstraints
  split_ifs
  · exact List.Subset.refl _
  · cases env.unmarshalJson d.constraints with
    | ok v => exact List.Subset.refl _
    | error err => exact Reports.log_subset_addReport ..

theorem log_subset_syncSinglePermission (env : Env F) (d : Permission) (r : Env.Progress F) :
    r.reports.log ⊆ (env.syncSinglePermission d r).reports.log := by
  unfold Env.syncSinglePermission
  split_ifs
  · exact Reports.log_subset_addReport ..
  · exact Reports.log_subset_addReport ..
  · exact log_subset_reportConstraints env d r.reports

theorem log_subset_syncPermissions (env : Env F) (perms : List Permission) (r : Env.Progress F) :
    r.reports.log ⊆ (env.syncPermissions perms r).reports.log := by
  induction perms generalizing r with
  | nil => exact List.Subset.refl _
  | cons d perms ih =>
    exact List.Subset.trans (log_subset_syncSinglePermission env d r)
      (ih (env.syncSinglePermission d r))

theorem told_syncSinglePermission (env : Env F) (d : Permission) (r : Env.Progress F) :
    Told env d (env.syncSinglePermission d r).reports := by
  unfold Env.syncSinglePermission
  refine ⟨fun hn => ?_, fun hn ha => ?_, fun hd hc err herr => ?_⟩
  · rw [if_pos hn]
    exact Reports.logged_addReport ..
  · rw [if_neg hn, if_pos ha]
    exact Reports.logged_addReport ..
  · rw [if_neg hd.1, if_neg hd.2]
    unfold Env.reportConstraints
    rw [if_neg hc, herr]
    exact Reports.logged_addReport ..

/-- A run reports every declared permission that it skips or writes without its constraints. -/
theorem told_syncPermissions (env : Env F) {perms : List Permission} (r : Env.Progress F)
    {d : Permission} (hd : d ∈ perms) : Told env d (env.syncPermissions perms r).reports := by
  induction perms generalizing r with
  | nil => cases hd
  | cons e perms ih =>
    rcases List.mem_cons.mp hd with rfl | hd
    · exact (told_syncSinglePermission env d r).mono (log_subset_syncPermissions env perms _)
    · exact ih (env.syncSinglePermission e r) hd

/-- A declaration: files with distinct permission names; and what the client that syncs it has
reported before. -/
structure Declaration (env : Env F) where
  data : List (Text × Text)
  reported : Reports
  permissions : List Permission
  loaded : env.loadPermissions data = .ok permissions
  names : (permissions.map Permission.name).Nodup

/-- The declared constraints: none, or those that the text says. -/
def Carries (env : Env F) (d : Permission) (p : ObjectPermission F) : Prop :=
  (d.constraints = [] ∨ ∃ v, env.unmarshalJson d.constraints = .ok v) ∧
    p.constraints = env.parseConstraints d

/-- The permission is declared, and grants no more than that. -/
structure Within (env : Env F) (groups : List (ℕ × Text)) (d : Permission)
    (p : ObjectPermission F) : Prop where
  name : p.name = d.name
  actions : p.actions ⊆ d.buildActions
  objectTypes : p.objectTypes ⊆ d.objectTypes
  groups : ∀ g ∈ p.groups, ∃ name ∈ d.groups, (g, name) ∈ groups
  enabled : p.enabled = true → d.isEnabled = true
  constraints : Carries env d p

def GrantsDeclared (env : Env F) (latest : List Permission) (s : Nautobot F) : Prop :=
  ∀ p ∈ s.permissions, ∃ d ∈ latest, Within env s.groups d p

/-- The declared permissions of the last run, with Nautobot and the client's reports after it. -/
structure State (F : Type) where
  latest : List Permission
  nautobot : Nautobot F
  reports : Reports

/-- Before the first run: there are no permissions. -/
def State.start (groups : List (ℕ × Text)) : State F := ⟨[], ⟨groups, []⟩, ⟨[], []⟩⟩

def State.run (env : Env F) (st : State F) (d : Declaration env) : State F :=
  let (_, r) := env.syncAll d.data st.nautobot d.reported
  ⟨d.permissions, r.nautobot, r.reports⟩

theorem State.run_eq (st : State F) (d : Declaration env) : st.run env d =
    ⟨d.permissions, (env.syncPermissions d.permissions ⟨st.nautobot, [], d.reported⟩).nautobot,
      (env.syncPermissions d.permissions ⟨st.nautobot, [], d.reported⟩).reports⟩ := by
  unfold State.run Env.syncAll
  rw [d.loaded]

/-- Every permission in Nautobot is declared with some action, and every declared permission that is
written has constraints that are empty or JSON. -/
def Covers (st : State F) (d : Declaration env) : Prop :=
  (∀ p ∈ st.nautobot.permissions, ∃ e ∈ d.permissions, e.name = p.name ∧ e.buildActions ≠ []) ∧
    ∀ e ∈ d.permissions, e.Applied →
      e.constraints = [] ∨ ∃ v, env.unmarshalJson e.constraints = .ok v

theorem synced_run (st : State F) (d : Declaration env) (h : Good st.nautobot) :
    Synced env st.nautobot d.permissions (st.run env d).nautobot := by
  rw [State.run_eq]
  have hstart : Synced env st.nautobot [] st.nautobot :=
    ⟨h, by simp, fun p hp => Or.inr ⟨hp, by simp⟩, fun p hp _ => hp⟩
  refine synced_syncPermissions (r := ⟨st.nautobot, [], d.reported⟩) hstart ?_ d.names
  simp [Env.Progress.Valid, Env.Lookups.Valid]

/-- A run leaves no more than the declaration grants exactly if it covers what is there. -/
theorem Synced.grants_iff {st : State F} {d : Declaration env} {s : Nautobot F}
    (hgood : Good st.nautobot) (h : Synced env st.nautobot d.permissions s) :
    GrantsDeclared env d.permissions s ↔ Covers st d := by
  constructor
  · intro hg
    refine ⟨fun p hp => ?_, fun e he hea => ?_⟩
    · by_contra hno
      have hp' : p ∈ s.permissions := by
        refine h.before p hp fun e he hea hn => ?_
        exact hno ⟨e, he, hn, hea.2⟩
      obtain ⟨e, he, hw⟩ := hg p hp'
      refine hno ⟨e, he, hw.name.symm, fun hnil => hgood.acting p hp ?_⟩
      exact List.subset_nil.mp (hnil ▸ hw.actions)
    · obtain ⟨p, hp, hw⟩ := h.written e he hea
      obtain ⟨e', he', hw'⟩ := hg p hp
      have heq : e' = e :=
        List.inj_on_of_nodup_map d.names he' he (hw'.name.symm.trans hw.name)
      exact heq ▸ hw'.constraints.1
  · rintro ⟨hcover, hjson⟩ p hp
    rcases h.after p hp with ⟨e, he, hea, hw⟩ | ⟨hp₀, hno⟩
    · refine ⟨e, he, hw.name, ?_, ?_, hw.groups, fun hen => ?_, hjson e he hea, hw.constraints⟩
      · rw [hw.actions]
        exact List.Subset.refl _
      · rw [hw.objectTypes]
        exact List.Subset.refl _
      · rw [← hw.enabled, hen]
    · obtain ⟨e, he, hn, ha⟩ := hcover p hp₀
      refine absurd hn (hno e he ⟨?_, ha⟩)
      rw [hn]
      exact hgood.named p hp₀

/-- Nautobot after runs, from a state without permissions. -/
def after (env : Env F) (groups : List (ℕ × Text)) (ds : List (Declaration env)) : State F :=
  ds.foldl (State.run env) (State.start groups)

theorem after_append (env : Env F) (groups : List (ℕ × Text)) (ds : List (Declaration env))
    (d : Declaration env) : after env groups (ds ++ [d]) = (after env groups ds).run env d := by
  rw [after, List.foldl_append]
  rfl

theorem good_after (env : Env F) (groups : List (ℕ × Text)) (ds : List (Declaration env)) :
    Good (after env groups ds).nautobot := by
  induction ds using List.reverseRecOn with
  | nil => exact ⟨List.nodup_nil, List.nodup_nil, by simp [after, State.start],
      by simp [after, State.start]⟩
  | append_singleton ds d ih =>
    rw [after_append]
    exact (synced_run _ d ih).good

/-- In a sequence of runs that starts without permissions, every state grants only what its
declaration lists exactly if every declaration covers what is in Nautobot before it. -/
theorem grants_declared_iff (env : Env F) (groups : List (ℕ × Text)) (ds : List (Declaration env)) :
    (∀ pre, pre <+: ds →
      GrantsDeclared env (after env groups pre).latest (after env groups pre).nautobot) ↔
      Runs.Along (State.run env) Covers (State.start groups) ds := by
  have hstep (st : State F) (d : Declaration env)
      (h : Good st.nautobot ∧ GrantsDeclared env st.latest st.nautobot) :
      (Good (st.run env d).nautobot ∧
        GrantsDeclared env (st.run env d).latest (st.run env d).nautobot) ↔ Covers st d := by
    have hsynced := synced_run st d h.1
    have hlatest : (st.run env d).latest = d.permissions := by rw [State.run_eq]
    rw [hlatest]
    exact (and_iff_right hsynced.good).trans (hsynced.grants_iff h.1)
  have hstart : Good (State.start groups : State F).nautobot ∧
      GrantsDeclared env [] (State.start groups : State F).nautobot :=
    ⟨good_after env groups [], by simp [GrantsDeclared, State.start]⟩
  rw [← Runs.Along.iff_invariant (I := fun st : State F => Good st.nautobot ∧
    GrantsDeclared env st.latest st.nautobot) hstep hstart ds]
  refine forall_congr' fun pre => imp_congr_right fun _ => (and_iff_right ?_).symm
  exact good_after env groups pre

/-- What a run does to the permissions that its declaration names. One that is declared with actions
is written as declared, without constraints where the text is no JSON; one that is declared without
actions stays as it was. Both are reported. -/
structure NamedWritten (env : Env F) (d : Declaration env) (s : Nautobot F) (st : State F) :
    Prop where
  written : ∀ p ∈ st.nautobot.permissions, ∀ e ∈ d.permissions, e.name = p.name →
    e.buildActions ≠ [] → Written env st.nautobot.groups e p
  skipped : ∀ p ∈ st.nautobot.permissions, ∀ e ∈ d.permissions, e.name = p.name →
    e.buildActions = [] → p ∈ s.permissions
  present : ∀ e ∈ d.permissions, e.name ≠ [] → e.buildActions ≠ [] →
    ∃ p ∈ st.nautobot.permissions, p.name = e.name
  reported : ∀ e ∈ d.permissions, Told env e st.reports

/-- After every sequence of runs from a state without permissions, a further run has written the
permissions that it names. -/
theorem named_permissions_written (env : Env F) (groups : List (ℕ × Text))
    (ds : List (Declaration env)) (d : Declaration env) :
    NamedWritten env d (after env groups ds).nautobot (after env groups (ds ++ [d])) := by
  have hgood := good_after env groups ds
  have hsynced := synced_run _ d hgood
  rw [← after_append] at hsynced
  refine ⟨fun p hp e he hn ha => ?_, fun p hp e he hn ha => ?_, fun e he hn ha => ?_,
    fun e he => ?_⟩
  · rcases hsynced.after p hp with ⟨e', he', -, hw⟩ | ⟨hp₀, hno⟩
    · have heq : e' = e := List.inj_on_of_nodup_map d.names he' he (hw.name.symm.trans hn.symm)
      exact heq ▸ hw
    · refine absurd hn (hno e he ⟨?_, ha⟩)
      rw [hn]
      exact hgood.named p hp₀
  · rcases hsynced.after p hp with ⟨e', he', hea, hw⟩ | ⟨hp₀, -⟩
    · have heq : e' = e := List.inj_on_of_nodup_map d.names he' he (hw.name.symm.trans hn.symm)
      rw [heq] at hea
      exact absurd ha hea.2
    · exact hp₀
  · obtain ⟨p, hp, hw⟩ := hsynced.written e he ⟨hn, ha⟩
    exact ⟨p, hp, hw.name⟩
  · rw [after_append, State.run_eq]
    exact told_syncPermissions env _ he

/-! Declarations of one permission: with the action to view, without actions, with constraints that
are no JSON, and of another name. -/

/-- A file that starts with a comment of one letter. -/
def file (letter : Char) (body : String) : Text := '#' :: letter :: '\n' :: body.toList

def viewFile : Text := file 'v' "permissions:\n- name: a\n  can_view: true\n"

def emptyFile : Text := file 'e' "permissions:\n- name: a\n"

def brokenFile : Text :=
  file 'b' "permissions:\n- name: a\n  can_view: true\n  constraints: '['\n"

def otherFile : Text := file 'o' "permissions:\n- name: b\n  can_view: true\n"

def demoPermission (name : Text) (canView : Bool) (constraints : Text) : Permission :=
  ⟨name, [], none, canView, false, false, false, [], [], [], constraints⟩

/-- An id above all others. -/
def nextId (ids : List ℕ) : ℕ := ids.foldr max 0 + 1

theorem ne_nextId {ids : List ℕ} {n : ℕ} (h : n ∈ ids) : n ≠ nextId ids := by
  have hle : n ≤ ids.foldr max 0 := by
    induction ids with
    | nil => cases h
    | cons i ids ih =>
      rw [List.foldr_cons]
      rcases List.mem_cons.mp h with rfl | h
      · exact Nat.le_max_left _ _
      · exact (ih h).trans (Nat.le_max_right _ _)
  exact Nat.ne_of_lt (Nat.lt_succ_of_le hle)

def demoEnv : Env ℤ where
  unmarshalYaml
    | '#' :: 'v' :: _ => .ok [demoPermission ['a'] true []]
    | '#' :: 'e' :: _ => .ok [demoPermission ['a'] false []]
    | '#' :: 'b' :: _ => .ok [demoPermission ['a'] true ['[']]
    | '#' :: 'o' :: _ => .ok [demoPermission ['b'] true []]
    | _ => .error "yaml: no permissions".toList
  unmarshalJson _ := .error "unexpected end of JSON input".toList
  newGroupId rows := nextId (rows.map Prod.fst)
  newGroupId_fresh _ _ h := ne_nextId (List.mem_map_of_mem h)
  newPermissionId rows := nextId (rows.map ObjectPermission.id)
  newPermissionId_fresh _ _ h := ne_nextId (List.mem_map_of_mem h)

def declare (file : Text) (perm : Permission)
    (h : demoEnv.loadPermissions [([], file)] = .ok [perm]) : Declaration demoEnv :=
  ⟨[([], file)], ⟨[], []⟩, [perm], h, List.nodup_singleton _⟩

def declareView : Declaration demoEnv := declare viewFile (demoPermission ['a'] true []) rfl

/-- The latest declaration and what is in Nautobot, after declarations. -/
def GrantsLatest (ds : List (Declaration demoEnv)) : Prop :=
  GrantsDeclared demoEnv (after demoEnv [] ds).latest (after demoEnv [] ds).nautobot

/-- Constraints that are no JSON, actions that are taken away, and a permission that is declared no
more each leave a permission that grants more than the latest declaration. -/
theorem more_than_declared :
    ¬ GrantsLatest [declare brokenFile (demoPermission ['a'] true ['[']) rfl] ∧
      ¬ GrantsLatest [declareView, declare emptyFile (demoPermission ['a'] false []) rfl] ∧
      ¬ GrantsLatest [declareView, declare otherFile (demoPermission ['b'] true []) rfl] := by
  refine ⟨fun h => ?_, fun h => ?_, fun h => ?_⟩
  · obtain ⟨d, hd, hw⟩ := h _ List.mem_cons_self
    cases List.mem_singleton.mp hd
    rcases hw.constraints.1 with hc | ⟨v, hc⟩
    · cases hc
    · cases hc
  · obtain ⟨d, hd, hw⟩ := h _ List.mem_cons_self
    cases List.mem_singleton.mp hd
    cases hw.actions List.mem_cons_self
  · obtain ⟨d, hd, hw⟩ := h _ List.mem_cons_self
    cases List.mem_singleton.mp hd
    have hname : ['a'] = ['b'] := hw.name
    cases hname

end Understack.Nautobotop.Permissions
