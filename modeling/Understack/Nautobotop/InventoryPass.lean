import Understack.Nautobotop.Inventory

/-! What an entry, a whole pass and a run of `Reconcile` can do to the inventory. -/
namespace Understack.Nautobotop.Inventory
open PyText Reconcile

variable {A : Type} {env : Env A} {k : Kind} {s s' : Nautobot A} {e : Entry A}

/-! One entry. -/

theorem existing_some {v : Object A} (h : existing env k s e = some v) :
    v ∈ s.objects ∧ v.kind = k ∧ (e.id ≠ [] ∧ k ≠ .permissionGroup ∧ v.id = e.id ∨
      v.name = e.name ∧ (k = .permissionGroup ∨ k = .ipPrefix ∧ e.id = [])) := by
  unfold existing at h
  split_ifs at h with hname hid
  · obtain ⟨hv, hkind, hvname⟩ := env.found_some _ _ _ _ h
    exact ⟨hv, hkind, Or.inr ⟨hvname, hname⟩⟩
  · have hkey : v.key = (k, e.id) := by simpa using List.find?_some h
    refine ⟨List.mem_of_find?_eq_some h, congrArg Prod.fst hkey, Or.inl ⟨hid, ?_, ?_⟩⟩
    · exact fun hk => hname (Or.inl hk)
    · exact congrArg Prod.snd hkey

theorem existing_none (h : existing env k s e = none) (hk : k ≠ .permissionGroup)
    (hid : e.id ≠ []) : ∀ v ∈ s.objects, v.key ≠ (k, e.id) := by
  unfold existing at h
  rw [if_neg (by simp [hk, hid]), if_neg hid] at h
  simpa using h

/-- What an entry leaves under its object's key: a new object, or the one that was there, as it was
or with the request on top. -/
structure Stored (env : Env A) (k : Kind) (s : Nautobot A) (e : Entry A) (req : Request A)
    (s' : Nautobot A) (v : Object A) : Prop where
  kind : v.kind = k
  objects : ∀ u, u ∈ s'.objects ↔ (u ∈ s.objects ∧ u.key ≠ v.key) ∨ u = v
  source : (v = created env k e req v.id ∧ v.id = req.id.getD (env.newId s.objects) ∧
      existing env k s e = none ∧ (∀ u ∈ s.objects, u.key ≠ v.key) ∧
      s'.createdBy = v.id :: s.createdBy) ∨
    ∃ old, existing env k s e = some old ∧ old ∈ s.objects ∧ old.key = v.key ∧
      s'.createdBy = s.createdBy ∧
      (v = old ∧ unchanged env k e req old = true ∨ v = updated env k e req old)

/-- An id that a request has is that of the entry. -/
theorem id_request {parent : Option Text} {req : Request A}
    (h : request env k parent s e = some req) : req.id = SyncPass.optionalID e.id := by
  unfold request at h
  split_ifs at h
  obtain ⟨attrs, -, rfl⟩ := Option.map_eq_some_iff.mp h
  rfl

theorem refs_request {parent : Option Text} {req : Request A}
    (h : request env k parent s e = some req) (t : Kind) :
    req.refs t = (if t = k then parent else none).or
      ((wanted k e t).bind fun w => lookup env s t w.1) := by
  unfold request at h
  split_ifs at h
  obtain ⟨attrs, -, rfl⟩ := Option.map_eq_some_iff.mp h
  rfl

theorem stored_store {parent : Option Text} {req : Request A}
    (h : request env k parent s e = some req) (hkeys : KeyedTable.Unique Object.key s.objects)
    (hpermission : k = .permissionGroup → e.id = []) :
    ∃ v, (store env k e req s).1 = v.id ∧ Stored env k s e req (store env k e req s).2 v := by
  unfold store
  cases hexisting : existing env k s e with
  | none =>
    have hfresh : ∀ u ∈ s.objects, u.key ≠ (k, req.id.getD (env.newId s.objects)) := by
      intro u hu heq
      rw [id_request h, SyncPass.optionalID] at heq
      split_ifs at heq with hid
      · exact env.newId_fresh s.objects u hu (congrArg Prod.snd heq)
      · exact existing_none hexisting (fun hk => hid (hpermission hk)) hid u hu heq
    refine ⟨created env k e req (req.id.getD (env.newId s.objects)), rfl, rfl, fun u => ?_, ?_⟩
    · simp only [List.mem_append, List.mem_singleton]
      exact or_congr_left (iff_self_and.mpr (hfresh u))
    · exact Or.inl ⟨rfl, rfl, hexisting, hfresh, rfl⟩
  | some old =>
    obtain ⟨hold, hkind, -⟩ := existing_some hexisting
    dsimp only
    split_ifs with hsame
    · refine ⟨old, rfl, hkind, fun u => ?_,
        Or.inr ⟨old, hexisting, hold, rfl, rfl, Or.inl ⟨rfl, hsame⟩⟩⟩
      constructor
      · intro hu
        by_cases hkey : u.key = old.key
        · exact Or.inr (hkeys u hu old hold hkey)
        · exact Or.inl ⟨hu, hkey⟩
      · rintro (⟨hu, -⟩ | rfl)
        · exact hu
        · exact hold
    · refine ⟨updated env k e req old, rfl, hkind, fun u => ?_,
        Or.inr ⟨old, hexisting, hold, rfl, rfl, Or.inr rfl⟩⟩
      rw [KeyedTable.mem_replace, or_comm]
      exact or_congr_right ⟨fun h => h.1, fun h => ⟨h, old, hold, rfl⟩⟩

section Stored

variable {req : Request A} {v : Object A}

theorem Stored.mem (h : Stored env k s e req s' v) : v ∈ s'.objects :=
  (h.objects v).mpr (Or.inr rfl)

theorem Stored.keys (h : Stored env k s e req s' v)
    (hkeys : KeyedTable.Unique Object.key s.objects) :
    KeyedTable.Unique Object.key s'.objects := by
  intro a ha b hb heq
  rcases (h.objects a).mp ha with ⟨ha, hav⟩ | rfl <;>
    rcases (h.objects b).mp hb with ⟨hb, hbv⟩ | rfl
  · exact hkeys a ha b hb heq
  · exact absurd heq hav
  · exact absurd heq.symm hbv
  · rfl

/-- A reference of the request that is compared is set. -/
theorem Stored.refs (h : Stored env k s e req s' v) {t : Kind} {id : Text}
    (ht : req.refs t = some id) (hcompared : compared k t = true) : v.refs t = some id := by
  rcases h.source with ⟨hv, -⟩ | ⟨old, -, -, -, -, ⟨rfl, hsame⟩ | hv⟩
  · rw [hv]
    exact ht
  · have hall := (of_decide_eq_true hsame).2.2.1 t hcompared
    rw [ht] at hall
    exact hall.resolve_left (by simp)
  · rw [hv]
    simp [updated, ht]

theorem Stored.name (h : Stored env k s e req s' v)
    (hunnamed : ∀ old ∈ s.objects, old.key = v.key → unnamed k e = true → old.name = e.name) :
    v.name = e.name := by
  rcases h.source with ⟨hv, -⟩ | ⟨old, -, hold, hkey, -, ⟨rfl, hsame⟩ | hv⟩
  · rw [hv]
    rfl
  · rcases (of_decide_eq_true hsame).2.1 with hnone | hname
    · exact hunnamed v hold rfl hnone
    · exact hname
  · rw [hv]
    simp only [updated]
    split_ifs with hnone
    · exact hunnamed old hold hkey hnone
    · rfl

theorem Stored.createdBy (h : Stored env k s e req s' v) :
    s'.createdBy = s.createdBy ∨
      s'.createdBy = v.id :: s.createdBy ∧ ∀ u ∈ s.objects, u.key ≠ v.key := by
  rcases h.source with ⟨-, -, -, hnew, hcreated⟩ | ⟨-, -, -, -, hcreated, -⟩
  · exact Or.inr ⟨hcreated, hnew⟩
  · exact Or.inl hcreated

/-- The id is that of the entry, a new one, or that of an object with the entry's name. -/
theorem Stored.id_cases (h : Stored env k s e req s' v) (hid : req.id = SyncPass.optionalID e.id) :
    (e.id ≠ [] ∧ v.id = e.id) ∨
    (e.id = [] ∧ v.id = env.newId s.objects ∧ existing env k s e = none) ∨
    ∃ old ∈ s.objects, old.key = v.key ∧ old.name = e.name ∧
      (k = .permissionGroup ∨ k = .ipPrefix) := by
  rcases h.source with ⟨-, hvid, hnone, -⟩ | ⟨old, hexisting, hold, hkey, -⟩
  · rw [hid, SyncPass.optionalID] at hvid
    split_ifs at hvid with hempty
    · exact Or.inr (Or.inl ⟨hempty, hvid, hnone⟩)
    · exact Or.inl ⟨hempty, hvid⟩
  · obtain ⟨-, -, ⟨hne, -, holdid⟩ | ⟨hname, hk⟩⟩ := existing_some hexisting
    · exact Or.inl ⟨hne, (congrArg Prod.snd hkey).symm.trans holdid⟩
    · exact Or.inr (Or.inr ⟨old, hold, hkey, hname, hk.imp id And.left⟩)

end Stored

/-! The devices of a cluster. -/

/-- A device that is listed in a cluster, or dropped from it. -/
def reassigned (clusterID : Text) (assigned unassigned : List Text) (v : Object A) : Object A :=
  if v.kind = .device ∧ v.id ∈ unassigned then
    { v with refs := Function.update v.refs .cluster none }
  else if v.kind = .device ∧ v.id ∈ assigned then
    { v with refs := Function.update v.refs .cluster (some clusterID) }
  else v

theorem foldl_assignToCluster (cluster : Option Text) (ids : List Text) (s : Nautobot A) :
    ids.foldl (assignToCluster cluster) s =
      { s with objects := s.objects.map fun v =>
          if v.kind = .device ∧ v.id ∈ ids then
            { v with refs := Function.update v.refs .cluster cluster }
          else v } := by
  induction ids generalizing s with
  | nil => simp
  | cons id ids ih =>
    rw [List.foldl_cons, ih]
    simp only [assignToCluster, List.map_map]
    congr 1
    refine List.map_congr_left fun v _ => ?_
    simp only [Function.comp_apply, Object.key, Prod.mk.injEq, List.mem_cons]
    by_cases hkind : v.kind = .device
    · by_cases hid : v.id = id
      · by_cases hids : id ∈ ids
        · simp [hkind, hid, hids]
        · simp [hkind, hid, hids]
      · simp [hkind, hid]
    · simp [hkind]

theorem lookup_some {t : Kind} {name id : Text} (h : lookup env s t name = some id) :
    ∃ v ∈ s.objects, v.kind = t ∧ v.name = name ∧ v.id = id := by
  obtain ⟨v, hv, rfl⟩ := Option.map_eq_some_iff.mp h
  obtain ⟨hmem, hkind, hname⟩ := env.found_some _ _ _ _ hv
  exact ⟨v, hmem, hkind, hname, rfl⟩

theorem lookup_none {t : Kind} {name : Text} (h : lookup env s t name = none) :
    ∀ v ∈ s.objects, v.kind = t → v.name ≠ name :=
  env.found_none _ _ _ (Option.map_eq_none_iff.mp h)

theorem mem_keys_iff {β : Type} {d : List (Text × β)} {name : Text} :
    name ∈ d.map Prod.fst ↔ ∃ b, d.lookup name = some b := by
  rw [← Option.isSome_iff_exists, List.lookup_isSome_iff, List.mem_map]
  constructor
  · rintro ⟨e, he, rfl⟩
    exact ⟨e, he, beq_self_eq_true e.1⟩
  · rintro ⟨e, he, heq⟩
    exact ⟨e, he, (eq_of_beq heq).symm⟩

theorem lookup_desired {names : List Text} {name id : Text} :
    ((names.filterMap fun name => (lookup env s .device name).map (name, ·)).foldl
      (fun m d => PyDict.put d.1 d.2 m) []).lookup name = some id ↔
      name ∈ names ∧ lookup env s .device name = some id := by
  rw [PyDict.lookup_foldl_put (fun d : Text × Text => d.1) (fun d : Text × Text => d.2)]
  simp only [List.lookup_nil, Option.or_none, Option.map_eq_some_iff]
  have hpair {n i : Text} : (n, i) ∈ (names.filterMap fun name =>
      (lookup env s .device name).map (name, ·)) ↔
        n ∈ names ∧ lookup env s .device n = some i := by
    rw [List.mem_filterMap]
    constructor
    · rintro ⟨m, hm, heq⟩
      obtain ⟨j, hj, hmj⟩ := Option.map_eq_some_iff.mp heq
      cases hmj
      exact ⟨hm, hj⟩
    · rintro ⟨hn, hi⟩
      exact ⟨n, hn, by rw [hi]; rfl⟩
  constructor
  · rintro ⟨⟨n, i⟩, hfind, rfl⟩
    have hname : n = name := by simpa using List.find?_some hfind
    subst hname
    exact hpair.mp (List.mem_reverse.mp (List.mem_of_find?_eq_some hfind))
  · rintro ⟨hname, hid⟩
    obtain ⟨⟨n, i⟩, hfind⟩ : ∃ d, (names.filterMap fun name =>
        (lookup env s .device name).map (name, ·)).reverse.find? (fun d => d.1 = name) =
          some d := by
      rw [← Option.isSome_iff_exists, List.find?_isSome]
      exact ⟨(name, id), List.mem_reverse.mpr (hpair.mpr ⟨hname, hid⟩), decide_eq_true rfl⟩
    have hn : n = name := by simpa using List.find?_some hfind
    subst hn
    have hi := (hpair.mp (List.mem_reverse.mp (List.mem_of_find?_eq_some hfind))).2
    exact ⟨(n, i), hfind, Option.some.inj (hi.symm.trans hid)⟩

theorem lookup_current {page : List (Object A)} {name id : Text}
    (h : (page.foldl (fun m v => PyDict.put v.name v.id m) []).lookup name = some id) :
    ∃ v ∈ page, v.name = name ∧ v.id = id := by
  rw [PyDict.lookup_foldl_put Object.name Object.id] at h
  simp only [List.lookup_nil, Option.or_none, Option.map_eq_some_iff] at h
  obtain ⟨v, hfind, hid⟩ := h
  refine ⟨v, List.mem_reverse.mp (List.mem_of_find?_eq_some hfind), ?_, hid⟩
  simpa using List.find?_some hfind

/-- A device is assigned only by a name of the list, and dropped only under another name; what the
list names is in the cluster then. -/
theorem syncClusterDevices_spec (env : Env A) (clusterID : Text) (names : List Text)
    (s : Nautobot A) : ∃ assigned unassigned,
      syncClusterDevices env clusterID names s =
        { s with objects := s.objects.map (reassigned clusterID assigned unassigned) } ∧
      (∀ id ∈ assigned, ∃ name ∈ names, lookup env s .device name = some id) ∧
      (∀ id ∈ unassigned, ∃ v ∈ s.objects, v.key = (.device, id) ∧
        v.refs .cluster = some clusterID ∧
        ∀ name ∈ names, lookup env s .device name ≠ none → v.name ≠ name) ∧
      ∀ name ∈ names, ∀ id, lookup env s .device name = some id → id ∈ assigned ∨
        ∃ v ∈ s.objects, v.kind = .device ∧ v.name = name ∧ v.refs .cluster = some clusterID := by
  unfold syncClusterDevices
  have hdesired {name id : Text} := @lookup_desired A env s names name id
  generalize (names.filterMap fun name => (lookup env s .device name).map (name, ·)).foldl
    (fun m d => PyDict.put d.1 d.2 m) [] = desired at hdesired
  have hpage : ∀ v ∈ env.firstPage (s.objects.filter fun v =>
      v.kind = .device ∧ v.refs .cluster = some clusterID),
      v ∈ s.objects ∧ v.kind = .device ∧ v.refs .cluster = some clusterID := by
    intro v hv
    obtain ⟨hmem, hin⟩ := List.mem_filter.mp (env.firstPage_subset _ hv)
    exact ⟨hmem, of_decide_eq_true hin⟩
  generalize env.firstPage (s.objects.filter fun v =>
    v.kind = .device ∧ v.refs .cluster = some clusterID) = page at hpage
  have hcurrent {name id : Text} := @lookup_current A page name id
  generalize page.foldl (fun m v => PyDict.put v.name v.id m) [] = current at hcurrent
  have hkeys {d : List (Text × Text)} {name : Text} :
      name ∈ env.ranged (d.map Prod.fst) ↔ ∃ b, d.lookup name = some b :=
    (env.ranged_perm _).mem_iff.trans mem_keys_iff
  dsimp only
  refine ⟨((env.ranged (desired.map Prod.fst)).filter (· ∉ current.map Prod.fst)).filterMap
      fun name => desired.lookup name,
    ((env.ranged (current.map Prod.fst)).filter (· ∉ desired.map Prod.fst)).filterMap
      fun name => current.lookup name, ?_, ?_, ?_, ?_⟩
  · rw [foldl_assignToCluster, foldl_assignToCluster]
    simp only [List.map_map]
    congr 1
    refine List.map_congr_left fun v _ => ?_
    simp only [Function.comp_apply, reassigned]
    split_ifs <;> simp_all
  · intro id hid
    obtain ⟨name, -, hlookup⟩ := List.mem_filterMap.mp hid
    exact ⟨name, hdesired.mp hlookup⟩
  · intro id hid
    obtain ⟨name, hname, hlookup⟩ := List.mem_filterMap.mp hid
    obtain ⟨v, hv, hvname, rfl⟩ := hcurrent hlookup
    obtain ⟨hmem, hkind, hcluster⟩ := hpage v hv
    refine ⟨v, hmem, by rw [Object.key, hkind], hcluster, fun n hn hfound heq => ?_⟩
    have hnot := of_decide_eq_true (List.mem_filter.mp hname).2
    obtain ⟨j, hj⟩ := Option.ne_none_iff_exists'.mp hfound
    exact hnot (mem_keys_iff.mpr ⟨j, hdesired.mpr ⟨by rwa [← hvname, heq], by
      rwa [← hvname, heq]⟩⟩)
  · intro name hname id hid
    have hin := hdesired.mpr ⟨hname, hid⟩
    by_cases hassigned : name ∈ current.map Prod.fst
    · obtain ⟨j, hj⟩ := mem_keys_iff.mp hassigned
      obtain ⟨v, hv, hvname, -⟩ := hcurrent hj
      obtain ⟨hmem, hkind, hcluster⟩ := hpage v hv
      exact Or.inr ⟨v, hmem, hkind, hvname, hcluster⟩
    · refine Or.inl (List.mem_filterMap.mpr ⟨name, ?_, hin⟩)
      exact List.mem_filter.mpr ⟨hkeys.mpr ⟨id, hin⟩, decide_eq_true hassigned⟩

variable (env e) in
/-- An entry stops the pass, or leaves its object and, for a cluster, the assignments. -/
theorem syncSingle_cases (parent : Option Text) (hkeys : KeyedTable.Unique Object.key s.objects)
    (hpermission : k = .permissionGroup → e.id = []) :
    (request env k parent s e = none ∧ syncSingle env k parent s e = (none, s)) ∨
    ∃ req v mid, request env k parent s e = some req ∧ Stored env k s e req mid v ∧
      (syncSingle env k parent s e).1 = some v.id ∧
      ((¬(k = .cluster ∧ e.devices ≠ []) ∧ (syncSingle env k parent s e).2 = mid) ∨
        (k = .cluster ∧
          (syncSingle env k parent s e).2 = syncClusterDevices env v.id e.devices mid)) := by
  unfold syncSingle
  cases hrequest : request env k parent s e with
  | none => exact Or.inl ⟨rfl, rfl⟩
  | some req =>
    obtain ⟨v, hid, hstored⟩ := stored_store hrequest hkeys hpermission
    refine Or.inr ⟨req, v, (store env k e req s).2, rfl, hstored, congrArg some hid, ?_⟩
    dsimp only
    split_ifs with hcluster
    · exact Or.inr ⟨hcluster.1, by rw [hid]⟩
    · exact Or.inl ⟨hcluster, rfl⟩

/-! All the entries of a kind. -/

/-- What holds after a part of a forest, where every entry keeps `I`: what was true before stays
true, the entries are done, or the pass stopped. -/
structure Walked (I : Nautobot A → Prop) (Keeps : Nautobot A → Nautobot A → Prop)
    (Done : Nautobot A → Entry A × Option (Entry A) → Prop) (Synced : Text → Prop) (Stop : Prop)
    (s : Nautobot A) (desired : List (Entry A × Option (Entry A)))
    (result : Option (List Text) × Nautobot A) : Prop where
  inv : I result.2
  keeps : Keeps s result.2
  stop : result.1 = none → Stop
  done : ∀ ids, result.1 = some ids → (∀ x ∈ desired, Done result.2 x) ∧ ∀ id ∈ ids, Synced id

/-- The entries of a pass keep `I`; what `Keeps` says of two states carries over what is known of
parents and of entries that are done. -/
structure Walks (env : Env A) (k : Kind) (I : Nautobot A → Prop)
    (Keeps : Nautobot A → Nautobot A → Prop)
    (Below : Nautobot A → Option (Entry A) → Option Text → Prop)
    (Done : Nautobot A → Entry A × Option (Entry A) → Prop) (Synced : Text → Prop) (Stop : Prop)
    (desired : List (Entry A × Option (Entry A))) : Prop where
  refl : ∀ s, Keeps s s
  trans : ∀ s s' s'', Keeps s s' → Keeps s' s'' → Keeps s s''
  below : ∀ s s' x parent, Keeps s s' → Below s x parent → Below s' x parent
  done : ∀ s s' x, Keeps s s' → Done s x → Done s' x
  single : ∀ s, ∀ x ∈ desired, ∀ parent, I s → Below s x.2 parent →
    I (syncSingle env k parent s x.1).2 ∧ Keeps s (syncSingle env k parent s x.1).2 ∧
    ((syncSingle env k parent s x.1).1 = none → Stop) ∧
    ∀ id, (syncSingle env k parent s x.1).1 = some id →
      Below (syncSingle env k parent s x.1).2 (some x.1) (some id) ∧
      Done (syncSingle env k parent s x.1).2 x ∧ Synced id

section Forest

variable {I : Nautobot A → Prop} {Keeps : Nautobot A → Nautobot A → Prop}
  {Below : Nautobot A → Option (Entry A) → Option Text → Prop}
  {Done : Nautobot A → Entry A × Option (Entry A) → Prop} {Synced : Text → Prop} {Stop : Prop}
  {desired : List (Entry A × Option (Entry A))}

mutual

theorem walked_syncRecursive (h : Walks env k I Keeps Below Done Synced Stop desired)
    (above : Option (Entry A)) (parent : Option Text) (s : Nautobot A)
    (hI : I s) (hB : Below s above parent) :
    ∀ tree : Tree A, tree.placed above ⊆ desired →
      Walked I Keeps Done Synced Stop s (tree.placed above) (syncRecursive env k parent s tree)
  | .node e children => by
    intro hsub
    rw [Tree.placed] at hsub ⊢
    rw [syncRecursive]
    obtain ⟨hI₁, hK₁, hstop, hid⟩ := h.single s (e, above) (hsub List.mem_cons_self) parent hI hB
    generalize syncSingle env k parent s e = r at hI₁ hK₁ hstop hid ⊢
    obtain ⟨_ | id, s₁⟩ := r
    · exact ⟨hI₁, hK₁, fun _ => hstop rfl, fun ids hsome => by cases hsome⟩
    · obtain ⟨hB₁, hD₁, hS₁⟩ := hid id rfl
      have hrest := walked_syncForest h (some e) (some id) s₁ hI₁ hB₁ children
        fun x hx => hsub (List.mem_cons_of_mem _ hx)
      dsimp only
      generalize syncForest env k (some id) s₁ children = r at hrest ⊢
      obtain ⟨ids, s₂⟩ := r
      refine ⟨hrest.inv, h.trans _ _ _ hK₁ hrest.keeps, fun hnone => ?_, fun all hsome => ?_⟩
      · exact hrest.stop (Option.map_eq_none_iff.mp hnone)
      · obtain ⟨ids, rfl, rfl⟩ := Option.map_eq_some_iff.mp hsome
        obtain ⟨hall, hids⟩ := hrest.done ids rfl
        exact ⟨List.forall_mem_cons.mpr ⟨h.done _ _ _ hrest.keeps hD₁, hall⟩,
          List.forall_mem_cons.mpr ⟨hS₁, hids⟩⟩
termination_by structural tree => tree

theorem walked_syncForest (h : Walks env k I Keeps Below Done Synced Stop desired)
    (above : Option (Entry A)) (parent : Option Text) (s : Nautobot A)
    (hI : I s) (hB : Below s above parent) :
    ∀ forest : List (Tree A), placedAll above forest ⊆ desired →
      Walked I Keeps Done Synced Stop s (placedAll above forest)
        (syncForest env k parent s forest)
  | [] => by
    intro hsub
    rw [syncForest, placedAll]
    refine ⟨hI, h.refl s, fun hnone => (Option.some_ne_none _ hnone).elim, fun ids hsome => ?_⟩
    cases hsome
    simp
  | tree :: forest => by
    intro hsub
    rw [placedAll] at hsub ⊢
    rw [syncForest]
    have hfirst := walked_syncRecursive h above parent s hI hB tree
      fun x hx => hsub (List.mem_append_left _ hx)
    generalize syncRecursive env k parent s tree = r at hfirst ⊢
    obtain ⟨_ | ids, s₁⟩ := r
    · exact ⟨hfirst.inv, hfirst.keeps, fun _ => hfirst.stop rfl, fun ids hsome => by cases hsome⟩
    · have hrest := walked_syncForest h above parent s₁ hfirst.inv
        (h.below _ _ _ _ hfirst.keeps hB) forest fun x hx => hsub (List.mem_append_right _ hx)
      obtain ⟨hall₁, hids₁⟩ := hfirst.done ids rfl
      dsimp only
      generalize syncForest env k parent s₁ forest = r at hrest ⊢
      obtain ⟨ids', s₂⟩ := r
      refine ⟨hrest.inv, h.trans _ _ _ hfirst.keeps hrest.keeps, fun hnone => ?_,
        fun all hsome => ?_⟩
      · exact hrest.stop (Option.map_eq_none_iff.mp hnone)
      · obtain ⟨ids', rfl, rfl⟩ := Option.map_eq_some_iff.mp hsome
        obtain ⟨hall, hids⟩ := hrest.done ids' rfl
        refine ⟨List.forall_mem_append.mpr ⟨fun x hx => ?_, hall⟩,
          List.forall_mem_append.mpr ⟨hids₁, hids⟩⟩
        exact h.done _ _ _ hrest.keeps (hall₁ x hx)
termination_by structural forest => forest

end

end Forest

theorem mem_placedAll {above : Option (Entry A)} {forest : List (Tree A)}
    {x : Entry A × Option (Entry A)} :
    x ∈ placedAll above forest ↔ ∃ tree ∈ forest, x ∈ tree.placed above := by
  induction forest with
  | nil => simp [placedAll]
  | cons tree forest ih => simp [placedAll, ih]

/-- The order of the files does not matter for which entries there are. -/
theorem mem_placedAll_files {forest : List (Tree A)} {x : Entry A × Option (Entry A)} :
    x ∈ placedAll none (env.files forest) ↔ x ∈ placedAll none forest := by
  simp only [mem_placedAll, (env.files_perm forest).mem_iff]

/-- Without trees every entry is at the top. -/
theorem placedAll_flat {forest : List (Tree A)} (h : ∀ tree ∈ forest, tree.children = [])
    {x : Entry A × Option (Entry A)} (hx : x ∈ placedAll none forest) :
    x.2 = none ∧ ∃ tree ∈ forest, x.1 = tree.entry := by
  obtain ⟨tree, htree, hx⟩ := mem_placedAll.mp hx
  have hchildren := h tree htree
  obtain ⟨e, children⟩ := tree
  cases hchildren
  rw [Tree.placed, placedAll, List.mem_singleton] at hx
  cases hx
  exact ⟨rfl, _, htree, rfl⟩

/-! Removal. -/

theorem createdBy_destroy (k : Kind) (s : Nautobot A) (id : Text) :
    (destroy k s id).createdBy = s.createdBy := by
  unfold destroy
  split_ifs <;> rfl

theorem mem_destroy {id : Text} {v : Object A} :
    v ∈ (destroy k s id).objects ↔ v ∈ s.objects ∧
      (v.key = (k, id) → ¬(id ∈ s.createdBy ∧ s.referenced k id = false)) := by
  unfold destroy
  split_ifs with howned
  · simp [howned]
  · simp [howned]

theorem createdBy_foldl_destroy (ids : List Text) (s : Nautobot A) :
    (ids.foldl (destroy k) s).createdBy = s.createdBy := by
  induction ids generalizing s with
  | nil => rfl
  | cons id ids ih => rw [List.foldl_cons, ih, createdBy_destroy]

theorem mem_of_foldl_destroy {ids : List Text} {v : Object A}
    (h : v ∈ (ids.foldl (destroy k) s).objects) : v ∈ s.objects := by
  induction ids generalizing s with
  | nil => exact h
  | cons id ids ih => exact (mem_destroy.mp (ih h)).1

/-- An object is kept whose id is not among those to remove, or that another user created. -/
theorem mem_foldl_destroy {ids : List Text} {v : Object A} (hv : v ∈ s.objects)
    (h : v.id ∈ s.createdBy → ∀ id ∈ ids, v.key ≠ (k, id)) :
    v ∈ (ids.foldl (destroy k) s).objects := by
  induction ids generalizing s with
  | nil => exact hv
  | cons id ids ih =>
    refine ih (mem_destroy.mpr ⟨hv, fun hkey howned => ?_⟩) fun hcreated => ?_
    · have hid : v.id = id := congrArg Prod.snd hkey
      exact h (hid ▸ howned.1) id List.mem_cons_self hkey
    · rw [createdBy_destroy] at hcreated
      exact fun j hj => h hcreated j (List.mem_cons_of_mem id hj)

/-- The obsolete objects of a kind are among the objects, under names that no entry has. -/
theorem mem_obsolete {names : List Text} {name : Text} {v : Object A}
    (h : (SyncById.obsolete resource (env.listing (s.objects.filter fun v => v.kind = k))
      names).lookup name = some v) :
    v ∈ s.objects ∧ v.kind = k ∧ v.name = name ∧ v.name ∉ names := by
  have hentry := PyDict.mem_of_lookup h
  obtain ⟨hfind, hnot⟩ := SyncById.mem_obsolete.mp hentry
  have hname : v.name = name := SyncById.name_of_obsolete hentry
  have hmem := (env.listing_perm _).mem_iff.mp
    (List.mem_reverse.mp (List.mem_of_find?_eq_some hfind))
  obtain ⟨hv, hkind⟩ := List.mem_filter.mp hmem
  exact ⟨hv, of_decide_eq_true hkind, hname, hname ▸ hnot⟩

/-- The removal at the end of a pass takes objects of its kind that no entry declares. -/
theorem deleteObsolete_removes {names synced : List Text}
    (h : deleteObsolete env k names synced s = some s') :
    ∃ ids : List Text, s' = ids.foldl (destroy k) s ∧ ∀ id ∈ ids, ∃ v ∈ s.objects, v.key = (k, id) ∧
      (k ≠ .ipPrefix → v.name ∉ names) := by
  unfold deleteObsolete at h
  dsimp only at h
  split_ifs at h with hpermission hpre
  · cases h
    exact ⟨[], rfl, fun id hid => by cases hid⟩
  · cases h
    refine ⟨_, rfl, fun id hid => ?_⟩
    obtain ⟨hlisted, -⟩ := List.mem_filter.mp hid
    obtain ⟨v, hv, rfl⟩ := List.mem_map.mp hlisted
    obtain ⟨hv, hkind⟩ := List.mem_filter.mp ((env.listing_perm _).mem_iff.mp hv)
    refine ⟨v, hv, ?_, fun hne => absurd hpre hne⟩
    rw [Object.key, of_decide_eq_true hkind]
  · obtain ⟨order, -, rfl⟩ := Option.map_eq_some_iff.mp h
    refine ⟨_, rfl, fun id hid => ?_⟩
    obtain ⟨name, -, hname⟩ := List.mem_filterMap.mp hid
    obtain ⟨v, hv, rfl⟩ := Option.map_eq_some_iff.mp hname
    obtain ⟨hmem, hkind, -, hnot⟩ := mem_obsolete hv
    exact ⟨v, hmem, by rw [Object.key, hkind], fun _ => hnot⟩

end Understack.Nautobotop.Inventory
