import Mathlib.Data.Char
import Mathlib.Data.List.Lex
import Understack.Lib.Json
import Understack.Lib.Runs
import Understack.Nautobotop.Dag

/-! `Reconcile` of `internal/controller/nautobot_controller.go`: it merges the ConfigMaps of every
resource, decides by hash and time which resources to sync, syncs them in dependency order and
writes hashes and time back at its end. -/
namespace Understack.Nautobotop.Reconcile
open PyText Dag

/-- A `map[string]string`. -/
abbrev Data := List (Text × Text)

structure ConfigMap where
  data : Data
  keys : (data.map Prod.fst).Nodup

structure ConfigMapRef where
  name : Text
  namespaceName : Option Text

inductive AggregateError where
  | missingNamespace (name : Text)
  | fetch (namespaceName name : Text)
  deriving DecidableEq

/-- The ConfigMaps by namespace and name, as far as they can be fetched. -/
abbrev ConfigMaps := Text → Text → Option ConfigMap

def fetchConfigMap (cluster : ConfigMaps) (ref : ConfigMapRef) :
    Except AggregateError ConfigMap :=
  match ref.namespaceName with
  | none => .error (.missingNamespace ref.name)
  | some ns =>
    if ns = [] then .error (.missingNamespace ref.name)
    else
      match cluster ns ref.name with
      | some configMap => .ok configMap
      | none => .error (.fetch ns ref.name)

/-- `maps.Copy(dst, src)`. -/
def copyInto (dst src : Data) : Data := src.foldl (fun d e => PyDict.put e.1 e.2 d) dst

def aggregateDataFromConfigMap (cluster : ConfigMaps) (refs : List ConfigMapRef) :
    Except AggregateError Data := do
  let configMaps ← refs.mapM (fetchConfigMap cluster)
  .ok (configMaps.foldl (fun d configMap => copyInto d configMap.data) [])

/-- The hexadecimal SHA-256 of a text. -/
structure Sha256 where
  hex : Text → Text
  length : ∀ s, (hex s).length = 64

def emptyHash : Text :=
  ("e3b0c44298fc1c149afbf4c8996fb924" ++ "27ae41e4649b934ca495991b7852b855").toList

/-- `key1=value1\nkey2=value2` with the keys in order. -/
def canonicalText (m : Data) : Text :=
  join '\n' ((sortStrings (m.map Prod.fst)).map fun k => k ++ '=' :: (m.lookup k).getD [])

def computeHash (sha : Sha256) (m : Data) : Text :=
  if m = [] then emptyHash else sha.hex (canonicalText m)

/-- Times and intervals in nanoseconds; no time before the first sync. -/
def shouldSync (lastSyncedAt : Option ℤ) (syncInterval now : ℤ) (currentHash previousHash : Text) :
    Bool :=
  if currentHash ≠ previousHash then true
  else
    match lastSyncedAt with
    | some last => if now - last < syncInterval then false else true
    | none => true

/-- The resources with the resources that they depend on. -/
def resources : List (ResourceNode Text) :=
  [⟨"locationTypes".toList, []⟩, ⟨"rir".toList, []⟩, ⟨"role".toList, []⟩, ⟨"deviceType".toList, []⟩,
    ⟨"tenantGroup".toList, []⟩, ⟨"clusterType".toList, []⟩, ⟨"clusterGroup".toList, []⟩,
    ⟨"location".toList, ["locationTypes".toList]⟩, ⟨"tenant".toList, ["tenantGroup".toList]⟩,
    ⟨"rackGroup".toList, ["location".toList]⟩, ⟨"vlanGroup".toList, ["location".toList]⟩,
    ⟨"rack".toList, ["location".toList, "rackGroup".toList]⟩,
    ⟨"namespace".toList, ["location".toList, "tenant".toList]⟩,
    ⟨"device".toList, ["deviceType".toList, "location".toList, "rack".toList, "role".toList,
      "tenant".toList]⟩,
    ⟨"vlan".toList, ["vlanGroup".toList, "location".toList, "tenant".toList, "role".toList]⟩,
    ⟨"cluster".toList, ["clusterType".toList, "clusterGroup".toList, "location".toList,
      "device".toList]⟩,
    ⟨"prefix".toList, ["namespace".toList, "rir".toList, "location".toList, "vlan".toList,
      "tenant".toList, "role".toList]⟩,
    ⟨"permissionGroup".toList, []⟩]

def resourceNames : List Text := resources.map ResourceNode.name

/-- The part of the status that `Reconcile` reads back; a resource without a hash has the empty
one. -/
structure Status where
  lastSyncedAt : Option ℤ
  syncHash : Text → Text

/-- What one run meets: the resource and its spec, the ConfigMaps, the time, and which of its steps
succeed. -/
structure Inputs where
  found : Bool
  isEnabled : Bool
  syncIntervalSeconds : ℤ
  configRefs : Text → List ConfigMapRef
  cluster : ConfigMaps
  now : ℤ
  authToken : Bool
  newClient : Bool
  syncFunc : Text → Data → Bool
  statusUpdate : Bool

inductive Stage where
  | order
  | aggregate (e : AggregateError)
  | authToken
  | newClient
  | sync
  | statusUpdate
  deriving DecidableEq

inductive Outcome where
  | notFound
  | disabled
  | failed (stage : Stage)
  | unchanged
  | synced
  deriving DecidableEq

/-- A call of a resource's sync function, with whether it returned success. -/
structure SyncCall where
  resource : Text
  data : Data
  ok : Bool
  deriving DecidableEq

structure Report where
  status : Status
  calls : List SyncCall
  outcome : Outcome

/-- The loop over the ordered resources, which ends at the first failure. -/
def syncLoop (syncFunc : Text → Data → Bool) (toSync : List (Text × Data)) :
    List Text → List SyncCall
  | [] => []
  | name :: order =>
    match toSync.lookup name with
    | some data =>
      if syncFunc name data then ⟨name, data, true⟩ :: syncLoop syncFunc toSync order
      else [⟨name, data, false⟩]
    | none => syncLoop syncFunc toSync order

def syncInterval (inp : Inputs) : ℤ := inp.syncIntervalSeconds * 10 ^ 9

/-- The time as it is read back from the stored status, in whole seconds. -/
def storedTime (t : ℤ) : ℤ := t / 10 ^ 9 * 10 ^ 9

def aggregateAll (inp : Inputs) : Except AggregateError (List (Text × Data)) :=
  resourceNames.mapM fun name => do
    let data ← aggregateDataFromConfigMap inp.cluster (inp.configRefs name)
    .ok (name, data)

def resourcesToSync (sha : Sha256) (inp : Inputs) (st : Status) (dataMaps : List (Text × Data)) :
    List (Text × Data) :=
  dataMaps.filter fun p =>
    shouldSync st.lastSyncedAt (syncInterval inp) inp.now (computeHash sha p.2) (st.syncHash p.1)

/-- The status after a sync, with the hash of each synced resource. -/
def recordSync (sha : Sha256) (now : ℤ) (calls : List SyncCall) (st : Status) : Status where
  lastSyncedAt := some (storedTime now)
  syncHash := calls.foldl
    (fun h c => Function.update h c.resource (computeHash sha c.data)) st.syncHash

/-- The part of `Reconcile` that needs a client; what it sets is lost unless the status update at
its end succeeds. -/
def syncResources (sha : Sha256) (inp : Inputs) (order : List Text) (toSync : List (Text × Data))
    (st : Status) : Report :=
  if !inp.authToken then ⟨st, [], .failed .authToken⟩
  else if !inp.newClient then ⟨st, [], .failed .newClient⟩
  else
    let calls := syncLoop inp.syncFunc toSync order
    if calls.any (!·.ok) then ⟨st, calls, .failed .sync⟩
    else if !inp.statusUpdate then ⟨st, calls, .failed .statusUpdate⟩
    else ⟨recordSync sha inp.now calls st, calls, .synced⟩

def reconcile (sha : Sha256) (st : Status) (inp : Inputs) : Report :=
  if !inp.found then ⟨st, [], .notFound⟩
  else if !inp.isEnabled then ⟨st, [], .disabled⟩
  else
    match topologicalSort resources.length resources with
    | some (.ok order) =>
      match aggregateAll inp with
      | .error e => ⟨st, [], .failed (.aggregate e)⟩
      | .ok dataMaps =>
        let toSync := resourcesToSync sha inp st dataMaps
        if toSync = [] then
          if inp.statusUpdate then ⟨st, [], .unchanged⟩ else ⟨st, [], .failed .statusUpdate⟩
        else syncResources sha inp order toSync st
    | _ => ⟨st, [], .failed .order⟩

/-! The resources have an order. -/

theorem resourceNames_nodup : resourceNames.Nodup := by decide

theorem resources_earlier : ∀ node ∈ resources, ∀ dep ∈ node.dependsOn,
    dep ∈ resourceNames ∧ resourceNames.idxOf dep < resourceNames.idxOf node.name := by
  decide

/-- The names of the nodes that can come next. -/
def readyNames (nodes : List (ResourceNode Text)) (done : List Text) : List Text :=
  (nodes.filter fun node => node.name ∉ done ∧ ∀ dep ∈ node.dependsOn, dep ∈ done).map
    ResourceNode.name

/-- Every name is the least of those that can come next. -/
def LeastAfter (nodes : List (ResourceNode Text)) : List Text → List Text → Prop
  | _, [] => True
  | done, name :: order =>
    (name ∈ readyNames nodes done ∧ ∀ other ∈ readyNames nodes done, name ≤ other) ∧
      LeastAfter nodes (name :: done) order

instance LeastAfter.decidable (nodes : List (ResourceNode Text)) :
    ∀ done order, Decidable (LeastAfter nodes done order)
  | _, [] => instDecidableTrue
  | done, name :: order =>
    have := LeastAfter.decidable nodes (name :: done) order
    inferInstanceAs (Decidable ((name ∈ readyNames nodes done ∧
      ∀ other ∈ readyNames nodes done, name ≤ other) ∧ LeastAfter nodes (name :: done) order))

theorem mem_readyNames {nodes : List (ResourceNode Text)}
    (hn : (nodes.map ResourceNode.name).Nodup) {done : List Text} {name : Text} :
    name ∈ readyNames nodes done ↔
      TopoOrder.Ready (nameSet nodes) (DependsOn nodes) {z | z ∈ done} name := by
  rw [readyNames, List.mem_map]
  constructor
  · rintro ⟨node, hnode, rfl⟩
    obtain ⟨hmem, hready⟩ := List.mem_filter.mp hnode
    obtain ⟨hnot, hdeps⟩ := of_decide_eq_true hready
    refine ⟨List.mem_map_of_mem hmem, hnot, fun dep hdep => hdeps dep ?_⟩
    exact (dependsOn_name hn hmem).mp hdep
  · rintro ⟨hname, hnot, hdeps⟩
    obtain ⟨node, hmem, rfl⟩ := List.mem_map.mp hname
    refine ⟨node, List.mem_filter.mpr ⟨hmem, decide_eq_true ⟨hnot, fun dep hdep => ?_⟩⟩, rfl⟩
    exact hdeps dep ((dependsOn_name hn hmem).mpr hdep)

theorem LeastAfter.leastOrder {nodes : List (ResourceNode Text)}
    (hn : (nodes.map ResourceNode.name).Nodup) {done order : List Text}
    (h : LeastAfter nodes done order) :
    TopoOrder.LeastOrder (nameSet nodes) (DependsOn nodes) {z | z ∈ done} order := by
  induction order generalizing done with
  | nil => trivial
  | cons name order ih =>
    obtain ⟨⟨hready, hleast⟩, hrest⟩ := h
    refine ⟨⟨(mem_readyNames hn).mp hready, fun other hother => ?_⟩, ?_⟩
    · exact hleast other ((mem_readyNames hn).mpr hother)
    · have hset : insert name {z | z ∈ done} = {z | z ∈ name :: done} := by
        ext z
        simp
      rw [hset]
      exact ih hrest

/-- The order in which `Reconcile` syncs the resources. -/
def syncOrder : List Text :=
  ["clusterGroup".toList, "clusterType".toList, "deviceType".toList, "locationTypes".toList,
    "location".toList, "permissionGroup".toList, "rackGroup".toList, "rack".toList, "rir".toList,
    "role".toList, "tenantGroup".toList, "tenant".toList, "device".toList, "cluster".toList,
    "namespace".toList, "vlanGroup".toList, "vlan".toList, "prefix".toList]

theorem syncOrder_perm : syncOrder.Perm resourceNames := by decide +kernel

theorem leastAfter_syncOrder : LeastAfter resources [] syncOrder := by decide +kernel

/-- The sort of the resources, found by its specification: it is the least order, and `syncOrder` is
a least order too. -/
theorem topologicalSort_resources :
    topologicalSort resources.length resources = some (.ok syncOrder) := by
  obtain ⟨out, hout, houtcome⟩ :=
    @topologicalSort_outcome Text _ resources resources.length le_rfl
  have hleast : TopoOrder.LeastOrder (nameSet resources) (DependsOn resources) ∅ syncOrder := by
    simpa using leastAfter_syncOrder.leastOrder resourceNames_nodup
  have hall : ∀ a b, DependsOn resources a b → a ∈ syncOrder := by
    rintro a b ⟨node, hnode, rfl, -⟩
    exact syncOrder_perm.mem_iff.mpr (List.mem_map_of_mem hnode)
  cases houtcome with
  | duplicate name hd => exact absurd resourceNames_nodup hd
  | missing node dep hd hm =>
    obtain ⟨node, hnode, dep, hdep, hnot⟩ := hm
    exact absurd (resources_earlier node hnode dep hdep).1 hnot
  | cycle names hd hm hc =>
    obtain ⟨a, ha⟩ := hc
    exact absurd ha (hleast.readyOrder.acyclic hall a)
  | sorted order hd hm hc hperm hl =>
    have hlength : order.length = syncOrder.length := (hperm.trans syncOrder_perm.symm).length_eq
    rw [hout, le_antisymm (hl.le hleast.readyOrder hlength)
      (hleast.le hl.readyOrder hlength.symm)]

/-! What the merge of ConfigMaps holds: for each key the entry of the last one that has it. -/

theorem lookup_copyInto {src : Data} (hsrc : (src.map Prod.fst).Nodup) (dst : Data) (k : Text) :
    (copyInto dst src).lookup k = (src.lookup k).or (dst.lookup k) := by
  unfold copyInto
  induction src generalizing dst with
  | nil => rfl
  | cons e src ih =>
    obtain ⟨hnot, hrest⟩ := List.nodup_cons.mp hsrc
    rw [List.foldl_cons, ih hrest]
    by_cases hk : k = e.1
    · have hnone : src.lookup k = none := by
        rw [List.lookup_eq_none_iff]
        intro p hp
        have hne : k ≠ p.1 := fun heq => hnot (hk ▸ heq ▸ List.mem_map_of_mem hp)
        simpa using hne
      subst hk
      rw [hnone, PyDict.lookup_put_self, List.lookup_cons_self]
      rfl
    · rw [PyDict.lookup_put_of_ne _ _ hk, List.lookup_cons, beq_eq_false_iff_ne.mpr hk]

theorem lookup_merge (configMaps : List ConfigMap) (d : Data) (k : Text) :
    (configMaps.foldl (fun d configMap => copyInto d configMap.data) d).lookup k =
      (configMaps.reverse.findSome? fun configMap => configMap.data.lookup k).or (d.lookup k) := by
  induction configMaps generalizing d with
  | nil => rfl
  | cons configMap configMaps ih =>
    rw [List.foldl_cons, ih, lookup_copyInto configMap.keys, List.reverse_cons,
      List.findSome?_append, Option.or_assoc]
    simp

theorem mem_data_iff (configMap : ConfigMap) {k v : Text} :
    (k, v) ∈ configMap.data ↔ configMap.data.lookup k = some v := by
  constructor
  · exact PyDict.lookup_of_mem configMap.keys
  · intro h
    obtain ⟨l, r, hsplit, -⟩ := List.lookup_eq_some_iff.mp h
    rw [hsplit]
    exact List.mem_append_right l List.mem_cons_self

/-- Two of the ConfigMaps never give one key different values. -/
def NoClash (cluster : ConfigMaps) (refs : List ConfigMapRef) : Prop :=
  ∀ r₁ ∈ refs, ∀ r₂ ∈ refs, ∀ c₁ c₂, fetchConfigMap cluster r₁ = .ok c₁ →
    fetchConfigMap cluster r₂ = .ok c₂ → ∀ k v w, (k, v) ∈ c₁.data → (k, w) ∈ c₂.data → v = w

/-- Every entry of every referenced ConfigMap is in the data. -/
def Complete (cluster : ConfigMaps) (refs : List ConfigMapRef) (data : Data) : Prop :=
  ∀ ref ∈ refs, ∃ configMap, fetchConfigMap cluster ref = .ok configMap ∧
    ∀ k v, (k, v) ∈ configMap.data → data.lookup k = some v

theorem complete_iff_noClash {cluster : ConfigMaps} {refs : List ConfigMapRef} {data : Data}
    (h : aggregateDataFromConfigMap cluster refs = .ok data) :
    Complete cluster refs data ↔ NoClash cluster refs := by
  obtain ⟨configMaps, hfetch, hdata⟩ := Runs.bind_eq_ok h
  cases hdata
  constructor
  · intro hcomplete r₁ hr₁ r₂ hr₂ c₁ c₂ h₁ h₂ k v w hv hw
    obtain ⟨c₁', h₁', hall₁⟩ := hcomplete r₁ hr₁
    obtain ⟨c₂', h₂', hall₂⟩ := hcomplete r₂ hr₂
    rw [h₁] at h₁'
    rw [h₂] at h₂'
    cases h₁'
    cases h₂'
    exact Option.some.inj ((hall₁ k v hv).symm.trans (hall₂ k w hw))
  · intro hclash ref href
    obtain ⟨configMap, hmem, hok⟩ := Runs.exists_of_mapM_ok hfetch href
    refine ⟨configMap, hok, fun k v hv => ?_⟩
    rw [lookup_merge, List.lookup_nil, Option.or_none]
    cases hfound : configMaps.reverse.findSome? fun configMap => configMap.data.lookup k with
    | none =>
      have hnone := List.findSome?_eq_none_iff.mp hfound configMap (List.mem_reverse.mpr hmem)
      rw [(mem_data_iff configMap).mp hv] at hnone
      cases hnone
    | some w =>
      -- the entry that won belongs to a ConfigMap of the list, which agrees with this one
      obtain ⟨other, hother, hw⟩ := List.exists_of_findSome?_eq_some hfound
      obtain ⟨ref', href', hok'⟩ := Runs.mem_of_mapM_ok hfetch (List.mem_reverse.mp hother)
      rw [hclash ref href ref' href' configMap other hok hok' k v w hv
        ((mem_data_iff other).mpr hw)]

theorem mem_syncLoop {syncFunc : Text → Data → Bool} {toSync : List (Text × Data)}
    {order : List Text} {c : SyncCall} (hc : c ∈ syncLoop syncFunc toSync order) :
    toSync.lookup c.resource = some c.data := by
  induction order with
  | nil => cases hc
  | cons name order ih =>
    unfold syncLoop at hc
    split at hc
    · next data hdata =>
      split_ifs at hc
      · rcases List.mem_cons.mp hc with rfl | hc
        · exact hdata
        · exact ih hc
      · rw [List.mem_singleton.mp hc]
        exact hdata
    · exact ih hc

theorem mem_syncLoop_of_all_ok {syncFunc : Text → Data → Bool} {toSync : List (Text × Data)}
    {order : List Text} (hok : ∀ c ∈ syncLoop syncFunc toSync order, c.ok = true) {name : Text}
    {data : Data} (hname : name ∈ order) (hdata : toSync.lookup name = some data) :
    ⟨name, data, true⟩ ∈ syncLoop syncFunc toSync order := by
  induction order with
  | nil => cases hname
  | cons head order ih =>
    unfold syncLoop at hok ⊢
    rcases List.mem_cons.mp hname with rfl | hname
    · simp only [hdata] at hok ⊢
      split_ifs at hok ⊢ with hcall
      · exact List.mem_cons_self
      · cases hok _ List.mem_cons_self
    · cases hhead : toSync.lookup head with
      | none =>
        simp only [hhead] at hok ⊢
        exact ih hok hname
      | some d =>
        simp only [hhead] at hok ⊢
        split_ifs at hok ⊢ with hcall
        · exact List.mem_cons_of_mem _ (ih (fun c hc => hok c (List.mem_cons_of_mem _ hc)) hname)
        · cases hok _ List.mem_cons_self

/-- A run that calls no sync function and leaves the status as it is. -/
structure Idle (sha : Sha256) (st : Status) (inp : Inputs) (r : Report) : Prop where
  status : r.status = st
  calls : r.calls = []
  outcome : r.outcome ≠ .synced
  unchanged : r.outcome = .unchanged → ∃ dataMaps, aggregateAll inp = .ok dataMaps ∧
    resourcesToSync sha inp st dataMaps = []

/-- A run that calls the sync functions of the resources to sync, up to the first that fails, and
records them all or none. -/
structure Active (sha : Sha256) (st : Status) (inp : Inputs) (r : Report) (order : List Text)
    (dataMaps : List (Text × Data)) : Prop where
  perm : order.Perm resourceNames
  aggregated : aggregateAll inp = .ok dataMaps
  nonempty : resourcesToSync sha inp st dataMaps ≠ []
  calls : r.calls = syncLoop inp.syncFunc (resourcesToSync sha inp st dataMaps) order
  recorded : (r.status = st ∧ ∃ stage, r.outcome = .failed stage) ∨
    (r.status = recordSync sha inp.now r.calls st ∧ r.outcome = .synced ∧
      ∀ c ∈ r.calls, c.ok = true)

theorem syncResources_cases (sha : Sha256) (st : Status) {inp : Inputs} {order : List Text}
    {dataMaps : List (Text × Data)} (horder : order.Perm resourceNames)
    (hdata : aggregateAll inp = .ok dataMaps) (hne : resourcesToSync sha inp st dataMaps ≠ []) :
    let r := syncResources sha inp order (resourcesToSync sha inp st dataMaps) st
    Idle sha st inp r ∨ Active sha st inp r order dataMaps := by
  simp only [syncResources]
  split_ifs with hauth hclient hfailed hstatus
  · exact Or.inl ⟨rfl, rfl, by simp, by simp⟩
  · exact Or.inl ⟨rfl, rfl, by simp, by simp⟩
  · exact Or.inr ⟨horder, hdata, hne, rfl, Or.inl ⟨rfl, _, rfl⟩⟩
  · exact Or.inr ⟨horder, hdata, hne, rfl, Or.inl ⟨rfl, _, rfl⟩⟩
  · refine Or.inr ⟨horder, hdata, hne, rfl, Or.inr ⟨rfl, rfl, fun c hc => ?_⟩⟩
    by_contra hnot
    exact hfailed (List.any_eq_true.mpr ⟨c, hc, by simpa using hnot⟩)

theorem reconcile_cases (sha : Sha256) (st : Status) (inp : Inputs) :
    Idle sha st inp (reconcile sha st inp) ∨
      ∃ dataMaps, Active sha st inp (reconcile sha st inp) syncOrder dataMaps := by
  unfold reconcile
  by_cases hfound : (!inp.found) = true
  · rw [if_pos hfound]
    exact Or.inl ⟨rfl, rfl, by simp, by simp⟩
  rw [if_neg hfound]
  by_cases henabled : (!inp.isEnabled) = true
  · rw [if_pos henabled]
    exact Or.inl ⟨rfl, rfl, by simp, by simp⟩
  rw [if_neg henabled, topologicalSort_resources]
  cases hdata : aggregateAll inp with
  | error e => exact Or.inl ⟨rfl, rfl, by simp, by simp⟩
  | ok dataMaps =>
    by_cases hnone : resourcesToSync sha inp st dataMaps = []
    · simp only [hnone, if_true]
      split_ifs with hstatus
      · exact Or.inl ⟨rfl, rfl, by simp, fun _ => ⟨dataMaps, hdata, hnone⟩⟩
      · exact Or.inl ⟨rfl, rfl, by simp, by simp⟩
    · simp only [hnone, if_false]
      rcases syncResources_cases sha st syncOrder_perm hdata hnone with hidle | hactive
      · exact Or.inl hidle
      · exact Or.inr ⟨dataMaps, hactive⟩

theorem aggregate_of_mem_aggregateAll {inp : Inputs} {dataMaps : List (Text × Data)}
    (h : aggregateAll inp = .ok dataMaps) {name : Text} {data : Data}
    (hm : (name, data) ∈ dataMaps) :
    aggregateDataFromConfigMap inp.cluster (inp.configRefs name) = .ok data := by
  obtain ⟨name', -, hpair⟩ := Runs.mem_of_mapM_ok h hm
  obtain ⟨data', hdata, heq⟩ := Runs.bind_eq_ok hpair
  cases heq
  exact hdata

/-- What each sync function is called with is the merge of its resource's ConfigMaps. -/
theorem aggregate_of_mem_calls {sha : Sha256} {st : Status} {inp : Inputs} {c : SyncCall}
    (hc : c ∈ (reconcile sha st inp).calls) :
    aggregateDataFromConfigMap inp.cluster (inp.configRefs c.resource) = .ok c.data := by
  rcases reconcile_cases sha st inp with hidle | ⟨dataMaps, hactive⟩
  · rw [hidle.calls] at hc
    cases hc
  · rw [hactive.calls] at hc
    obtain ⟨l, r, hsplit, -⟩ := List.lookup_eq_some_iff.mp (mem_syncLoop hc)
    have hmem : (c.resource, c.data) ∈ resourcesToSync sha inp st dataMaps := by
      rw [hsplit]
      exact List.mem_append_right l List.mem_cons_self
    exact aggregate_of_mem_aggregateAll hactive.aggregated (List.mem_filter.mp hmem).1

/-! Runs in which everything succeeds. -/

theorem computeHash_ne_nil (sha : Sha256) (m : Data) : computeHash sha m ≠ [] := by
  unfold computeHash
  split_ifs with hm
  · decide
  · intro hnil
    have hlen := sha.length (canonicalText m)
    rw [hnil] at hlen
    cases hlen

theorem syncLoop_true_ok (toSync : List (Text × Data)) (order : List Text) :
    ∀ c ∈ syncLoop (fun _ _ => true) toSync order, c.ok = true := by
  induction order with
  | nil => simp [syncLoop]
  | cons name order ih =>
    unfold syncLoop
    cases toSync.lookup name with
    | none => exact ih
    | some d => simpa using ih

/-- A run in which nothing fails; only the resource `rir` has ConfigMaps. -/
def smoothInputs (rirRefs : List ConfigMapRef) (cluster : ConfigMaps) (now : ℤ) : Inputs where
  found := true
  isEnabled := true
  syncIntervalSeconds := 100
  configRefs name := if name = "rir".toList then rirRefs else []
  cluster := cluster
  now := now
  authToken := true
  newClient := true
  syncFunc _ _ := true
  statusUpdate := true

def smoothData (data : Data) : List (Text × Data) :=
  resourceNames.map fun name => (name, if name = "rir".toList then data else [])

theorem aggregateAll_smooth {rirRefs : List ConfigMapRef} {cluster : ConfigMaps} {data : Data}
    (now : ℤ) (h : aggregateDataFromConfigMap cluster rirRefs = .ok data) :
    aggregateAll (smoothInputs rirRefs cluster now) = .ok (smoothData data) := by
  have hone (name : Text) : (do
      let data ← aggregateDataFromConfigMap cluster
        ((smoothInputs rirRefs cluster now).configRefs name)
      (.ok (name, data) : Except AggregateError (Text × Data))) =
      .ok (name, if name = "rir".toList then data else []) := by
    by_cases hname : name = "rir".toList
    · simp only [smoothInputs, if_pos hname, h]
      rfl
    · simp only [smoothInputs, if_neg hname]
      rfl
  have hall (names : List Text) : names.mapM (fun name => do
      let data ← aggregateDataFromConfigMap cluster
        ((smoothInputs rirRefs cluster now).configRefs name)
      (.ok (name, data) : Except AggregateError (Text × Data))) =
      .ok (names.map fun name => (name, if name = "rir".toList then data else [])) := by
    induction names with
    | nil => rfl
    | cons name names ih =>
      rw [List.mapM_cons, hone, ih]
      rfl
  exact hall resourceNames

theorem reconcile_smooth (sha : Sha256) (st : Status) {rirRefs : List ConfigMapRef}
    {cluster : ConfigMaps} {data : Data} (now : ℤ)
    (h : aggregateDataFromConfigMap cluster rirRefs = .ok data) :
    ∃ order, order.Perm resourceNames ∧
      let inp := smoothInputs rirRefs cluster now
      let toSync := resourcesToSync sha inp st (smoothData data)
      reconcile sha st inp =
        if toSync = [] then ⟨st, [], .unchanged⟩
        else ⟨recordSync sha now (syncLoop (fun _ _ => true) toSync order) st,
          syncLoop (fun _ _ => true) toSync order, .synced⟩ := by
  refine ⟨syncOrder, syncOrder_perm, ?_⟩
  have hok (toSync : List (Text × Data)) :
      (syncLoop (fun _ _ => true) toSync syncOrder).any (!·.ok) = false := by
    rw [List.any_eq_false]
    intro c hc
    simp [syncLoop_true_ok toSync syncOrder c hc]
  by_cases hnil : resourcesToSync sha (smoothInputs rirRefs cluster now) st (smoothData data) = []
  · simp only [reconcile, topologicalSort_resources, aggregateAll_smooth now h, hnil, if_true]
    rfl
  · simp only [reconcile, topologicalSort_resources, aggregateAll_smooth now h, hnil, if_false, syncResources]
    simp only [smoothInputs, hok]
    rfl

/-- The status of a resource that was never synced. -/
def freshStatus : Status := ⟨none, fun _ => []⟩

theorem resourcesToSync_fresh (sha : Sha256) (inp : Inputs) (dataMaps : List (Text × Data)) :
    resourcesToSync sha inp freshStatus dataMaps = dataMaps := by
  rw [resourcesToSync, List.filter_eq_self]
  intro p _
  simp [shouldSync, freshStatus, computeHash_ne_nil]

theorem lookup_smoothData (data : Data) : (smoothData data).lookup "rir".toList = some data := rfl

theorem rir_called_first (sha : Sha256) {rirRefs : List ConfigMapRef} {cluster : ConfigMaps}
    {data : Data} (now : ℤ) (h : aggregateDataFromConfigMap cluster rirRefs = .ok data) :
    ⟨"rir".toList, data, true⟩ ∈
      (reconcile sha freshStatus (smoothInputs rirRefs cluster now)).calls := by
  obtain ⟨order, hperm, hrun⟩ := reconcile_smooth sha freshStatus now h
  have hne : smoothData data ≠ [] := by simp [smoothData, resourceNames, resources]
  have hmem : "rir".toList ∈ order := hperm.mem_iff.mpr (by decide)
  rw [hrun]
  simp only [resourcesToSync_fresh, hne, if_false]
  exact mem_syncLoop_of_all_ok (syncLoop_true_ok _ order) hmem (lookup_smoothData data)

/-- The hashes of the texts in the examples. -/
def knownHashes : List (Text × Text) :=
  [("data=x".toList, ("d6d7fdb3dc2cece2d6f47a81d97990c5" ++ "f7703b6121a84c52d5833e3ecd3b89d7").toList),
    ("data=y".toList, ("e2d75df5ac8614314fcc04ac91951f09" ++ "1146fdaf5c37eae9be11006ae3e96e7b").toList),
    ("data=x\nmore=y".toList, ("0b999e050064c5b8b0aa7332b7048c4d" ++ "4c0142baed0b540092ecb7008387cd70").toList)]

def knownSha : Sha256 where
  hex s :=
    match knownHashes.find? fun e => e.1 = s with
    | some e => if e.2.length = 64 then e.2 else List.replicate 64 '0'
    | none => List.replicate 64 '0'
  length := by
    intro s
    split
    · split_ifs with hlen
      · exact hlen
      · rfl
    · rfl

def configMapRef (name : Text) : ConfigMapRef := ⟨name, some "nautobot".toList⟩

/-- ConfigMaps by name alone, all in one namespace. -/
def configMapsOf (maps : List (Text × ConfigMap)) : ConfigMaps := fun _ name => maps.lookup name

def oneEntry (k v : Text) : ConfigMap := ⟨[(k, v)], by simp⟩

/-- A sync function is given every entry of every referenced ConfigMap exactly when no two of them
give one key different values. -/
theorem sync_data_complete_iff {sha : Sha256} {st : Status} {inp : Inputs} {c : SyncCall}
    (hc : c ∈ (reconcile sha st inp).calls) :
    Complete inp.cluster (inp.configRefs c.resource) c.data ↔
      NoClash inp.cluster (inp.configRefs c.resource) :=
  complete_iff_noClash (aggregate_of_mem_calls hc)

theorem sync_data_complete_iff_two_maps :
    let cluster := configMapsOf [("a".toList, oneEntry "data".toList "x".toList),
      ("b".toList, oneEntry "more".toList "y".toList)]
    let refs := [configMapRef "a".toList, configMapRef "b".toList]
    ∃ c ∈ (reconcile knownSha freshStatus (smoothInputs refs cluster 0)).calls,
      c.resource = "rir".toList ∧ Complete cluster refs c.data := by
  intro cluster refs
  have hcall := rir_called_first knownSha 0 (show aggregateDataFromConfigMap cluster refs =
    .ok [("data".toList, "x".toList), ("more".toList, "y".toList)] from rfl)
  have hentry (r : ConfigMapRef) (hr : r ∈ refs) (c : ConfigMap)
      (hfetch : fetchConfigMap cluster r = .ok c) (k v : Text) (hv : (k, v) ∈ c.data) :
      k = "data".toList ∧ v = "x".toList ∨ k = "more".toList ∧ v = "y".toList := by
    rcases List.mem_cons.mp hr with rfl | hr
    · cases hfetch
      cases List.mem_singleton.mp hv
      exact Or.inl ⟨rfl, rfl⟩
    · rw [List.mem_singleton.mp hr] at hfetch
      cases hfetch
      cases List.mem_singleton.mp hv
      exact Or.inr ⟨rfl, rfl⟩
  refine ⟨_, hcall, rfl, (sync_data_complete_iff hcall).mpr ?_⟩
  intro r₁ hr₁ r₂ hr₂ c₁ c₂ h₁ h₂ k v w hv hw
  rcases hentry r₁ hr₁ c₁ h₁ k v hv with ⟨hk, rfl⟩ | ⟨hk, rfl⟩ <;>
    rcases hentry r₂ hr₂ c₂ h₂ k w hw with ⟨hk', rfl⟩ | ⟨hk', rfl⟩
  · rfl
  · exact absurd (hk.symm.trans hk') (by decide)
  · exact absurd (hk.symm.trans hk') (by decide)
  · rfl

/-- Two ConfigMaps under one key: the value of the first is not passed on. -/
theorem sync_data_lost :
    let cluster := configMapsOf [("a".toList, oneEntry "data".toList "x".toList),
      ("b".toList, oneEntry "data".toList "y".toList)]
    let refs := [configMapRef "a".toList, configMapRef "b".toList]
    ∃ c ∈ (reconcile knownSha freshStatus (smoothInputs refs cluster 0)).calls,
      c.resource = "rir".toList ∧ ¬Complete cluster refs c.data := by
  intro cluster refs
  have hcall := rir_called_first knownSha 0 (show aggregateDataFromConfigMap cluster refs =
    .ok [("data".toList, "y".toList)] from rfl)
  refine ⟨_, hcall, rfl, fun hcomplete => ?_⟩
  obtain ⟨configMap, hfetch, hall⟩ := hcomplete (configMapRef "a".toList) List.mem_cons_self
  cases hfetch
  exact absurd (hall "data".toList "x".toList List.mem_cons_self) (by decide)

end Understack.Nautobotop.Reconcile
