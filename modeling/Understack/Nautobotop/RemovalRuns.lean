import Understack.Nautobotop.Removals

/-! Entries deleted from a configuration that is fully synced, over runs of `Reconcile`: a hash is
recorded at the end of a run, and by then the objects of the deleted entries are gone, if each was
referred to only by objects that are removed before it. -/
namespace Understack.Nautobotop.Inventory
open PyText Reconcile

variable {A : Type} {dec : Decoder A} {dataMaps old new : List (Text × Data)} {env : Env A}
  {k : Kind} {s s' : Nautobot A} {D : Object A → Prop} {sha : Sha256} {st : Status}

/-! A pass. -/

theorem syncAll_removes (hdoomed : Doomed dec dataMaps D) (hclears : Clears env D)
    (hs : Removing D s) (hearlier : ∀ t : Kind, t.turn < k.turn → Cleared D t s) {ok : Bool}
    (h : syncAll dec env k (dataOf dataMaps k) s = some (ok, s')) :
    Removing D s' ∧ StaysGone D s s' ∧ (ok = true → Cleared D k s') := by
  unfold syncAll at h
  split_ifs at h with hdata
  · cases h
    refine ⟨hs, fun _ _ hgone => hgone, fun _ v hv hkind => ?_⟩
    subst hkind
    exact (hdoomed.data v hv hdata).elim
  · have hwalked := walked_syncForest (walks_removing hdoomed hclears k) none none s hs
      (fun _ _ _ heq => by cases heq) (env.files (dec.forest k (dataOf dataMaps k)))
      (fun x hx => mem_placedAll_files.mp hx)
    generalize syncForest env k none s (env.files (dec.forest k (dataOf dataMaps k))) = r
      at hwalked h
    obtain ⟨_ | ids, mid⟩ := r
    · cases h
      exact ⟨hwalked.inv, hwalked.keeps, fun hok => by cases hok⟩
    · obtain ⟨s'', hdelete, heq⟩ := Option.map_eq_some_iff.mp h
      cases heq
      rw [names_entries] at hdelete
      have hcleared := cleared_deleteObsolete hdoomed hclears hwalked.inv
        (fun t ht => (hearlier t ht).stays hwalked.keeps) (hwalked.done ids rfl).2 hdelete
      obtain ⟨removed, rfl, -⟩ := deleteObsolete_removes hdelete
      refine ⟨removing_foldl_destroy hwalked.inv removed, fun d hd hgone => ?_, fun _ => hcleared⟩
      exact (hwalked.keeps d hd hgone).of_subset fun u hu => mem_of_foldl_destroy hu

/-! The passes of a run. -/

theorem mem_of_turn_lt {before after : List Kind} (h : before ++ k :: after = Kind.order)
    {t : Kind} (hlt : t.turn < k.turn) : t ∈ before := by
  by_contra hnot
  have ht : before.length ≤ t.turn := by
    rw [Kind.turn, ← h, List.idxOf_append_of_notMem hnot]
    exact Nat.le_add_right _ _
  have hk : k.turn ≤ before.length := by
    rw [Kind.turn, ← h]
    by_cases hmem : k ∈ before
    · rw [List.idxOf_append_of_mem hmem]
      exact List.idxOf_le_length
    · rw [List.idxOf_append_of_notMem hmem, List.idxOf_cons_self]
      exact le_rfl
  omega

/-- The passes of the kinds that are due, where those that are not are cleared already. -/
theorem runCalls_removes (hdoomed : Doomed dec dataMaps D) (hclears : Clears env D)
    {due : Kind → Bool} (before : List Kind) {ks : List Kind} (horder : before ++ ks = Kind.order)
    (hs : Removing D s) (hbefore : ∀ t ∈ before, Cleared D t s)
    (hskip : ∀ t ∈ ks, due t = false → Cleared D t s) {failed : Option Text}
    (h : runCalls dec env ((ks.filter due).map (callOf dataMaps)) s = some (failed, s')) :
    Removing D s' ∧ StaysGone D s s' ∧ (failed = none → ∀ t ∈ Kind.order, Cleared D t s') := by
  induction ks generalizing before s with
  | nil =>
    cases h
    refine ⟨hs, fun _ _ hgone => hgone, fun _ t ht => hbefore t ?_⟩
    rwa [← horder, List.append_nil] at ht
  | cons k ks ih =>
    have hnext : (before ++ [k]) ++ ks = Kind.order := by rw [← horder]; simp
    by_cases hdue : due k = true
    · have hk : k ∈ Kind.order := by rw [← horder]; simp
      rw [List.filter_cons_of_pos hdue, List.map_cons, runCalls] at h
      simp only [callOf, syncFunc_resource hk] at h
      cases hsync : syncAll dec env k (dataOf dataMaps k) s with
      | none =>
        rw [hsync] at h
        cases h
      | some r =>
        rw [hsync] at h
        obtain ⟨ok, mid⟩ := r
        obtain ⟨hmid, hstays, hcleared⟩ := syncAll_removes hdoomed hclears hs
          (fun t ht => hbefore t (mem_of_turn_lt horder ht)) hsync
        cases ok with
        | false =>
          cases h
          exact ⟨hmid, hstays, fun hnone => by cases hnone⟩
        | true =>
          obtain ⟨hs', hstays', hall⟩ := ih _ hnext hmid (fun t ht => by
            rcases List.mem_append.mp ht with ht | ht
            · exact (hbefore t ht).stays hstays
            · exact List.mem_singleton.mp ht ▸ hcleared rfl)
            (fun t ht hnot => (hskip t (List.mem_cons_of_mem k ht) hnot).stays hstays) h
          exact ⟨hs', fun d hd hgone => hstays' d hd (hstays d hd hgone), hall⟩
    · rw [List.filter_cons_of_neg hdue] at h
      refine ih _ hnext hs (fun t ht => ?_) (fun t ht => hskip t (List.mem_cons_of_mem k ht)) h
      rcases List.mem_append.mp ht with ht | ht
      · exact hbefore t ht
      · exact List.mem_singleton.mp ht ▸ hskip k List.mem_cons_self (by simpa using hdue)

/-- A pass that fails is one of the calls. -/
theorem mem_of_runCalls_failed {calls : List SyncCall} {name : Text}
    (h : runCalls dec env calls s = some (some name, s')) : ∃ c ∈ calls, c.resource = name := by
  induction calls generalizing s with
  | nil => cases h
  | cons c calls ih =>
    rw [runCalls] at h
    cases hsync : syncFunc dec env c.resource c.data s with
    | none =>
      rw [hsync] at h
      cases h
    | some r =>
      rw [hsync] at h
      obtain ⟨ok, mid⟩ := r
      cases ok with
      | false =>
        cases h
        exact ⟨c, List.mem_cons_self, rfl⟩
      | true =>
        obtain ⟨c', hc', hname⟩ := ih h
        exact ⟨c', List.mem_cons_of_mem c hc', hname⟩

/-! A run. -/

/-- A resource that is not due has the hash of its data on record. -/
theorem hash_of_not_due {inp : Inputs} (h : aggregateAll inp = .ok dataMaps)
    (hk : k ∈ Kind.order)
    (hnot : (resourcesToSync sha inp st dataMaps).lookup k.resource = none) :
    st.syncHash k.resource = computeHash sha (dataOf dataMaps k) := by
  have hname : k.resource ∈ dataMaps.map Prod.fst := by
    have horder : syncOrder = Kind.order.map Kind.resource := rfl
    rw [keys_aggregateAll h, ← syncOrder_perm.mem_iff, horder]
    exact List.mem_map_of_mem hk
  obtain ⟨data, hdata⟩ := mem_keys_iff.mp hname
  rw [dataOf, hdata, Option.getD_some]
  by_contra hne
  have hdue : shouldSync st.lastSyncedAt (syncInterval inp) inp.now (computeHash sha data)
      (st.syncHash k.resource) = true := if_pos (Ne.symm hne)
  have hmem : (k.resource, data) ∈ resourcesToSync sha inp st dataMaps :=
    List.mem_filter.mpr ⟨PyDict.mem_of_lookup hdata, hdue⟩
  have hkeys : k.resource ∈ (resourcesToSync sha inp st dataMaps).map Prod.fst :=
    List.mem_map_of_mem hmem
  obtain ⟨d, hd⟩ := mem_keys_iff.mp hkeys
  rw [hnot] at hd
  cases hd

theorem ok_of_mem_syncLoop {f : Text → Data → Bool} {toSync : List (Text × Data)}
    {order : List Text} {c : SyncCall} (h : c ∈ syncLoop f toSync order) :
    c.ok = f c.resource c.data := by
  induction order with
  | nil => cases h
  | cons name order ih =>
    unfold syncLoop at h
    split at h
    · split_ifs at h with hf
      · rcases List.mem_cons.mp h with rfl | h
        · exact hf.symm
        · exact ih h
      · rw [List.mem_singleton.mp h]
        exact (Bool.eq_false_iff.mpr hf).symm
    · exact ih h

/-- A run one of whose passes fails records nothing. -/
theorem reconcile_of_failed {inp : Inputs} {name : Text} {c : SyncCall}
    (hactive : Active sha st (withSyncFunc inp fun _ _ => true)
      (Reconcile.reconcile sha st (withSyncFunc inp fun _ _ => true)) syncOrder dataMaps)
    (hc : c ∈ (Reconcile.reconcile sha st (withSyncFunc inp fun _ _ => true)).calls)
    (hname : c.resource = name) :
    let report := Reconcile.reconcile sha st (withSyncFunc inp fun n _ => some n ≠ some name)
    report.status = st ∧ report.outcome ≠ .synced ∧ report.outcome ≠ .unchanged := by
  dsimp only
  rcases reconcile_cases sha st (withSyncFunc inp fun n _ => some n ≠ some name) with
    hidle | ⟨dataMaps', hactive'⟩
  · refine ⟨hidle.status, hidle.outcome, fun hunchanged => ?_⟩
    obtain ⟨dataMaps', haggregated, hnone⟩ := hidle.unchanged hunchanged
    have hsame : dataMaps' = dataMaps := Except.ok.inj (haggregated.symm.trans hactive.aggregated)
    exact hactive.nonempty (hsame ▸ hnone)
  · rcases hactive'.recorded with ⟨hstatus, stage, hfailed⟩ | ⟨-, -, hok⟩
    · rw [hfailed]
      exact ⟨hstatus, by simp, by simp⟩
    · -- the call that failed is among those that all succeeded
      have hsame : dataMaps' = dataMaps :=
        Except.ok.inj (hactive'.aggregated.symm.trans hactive.aggregated)
      subst hsame
      rw [hactive.calls] at hc
      rw [hactive'.calls] at hok
      have hdata := mem_syncLoop hc
      have hin : c.resource ∈ syncOrder := by
        rw [syncOrder_perm.mem_iff, ← keys_aggregateAll hactive.aggregated]
        have hmem := (List.mem_filter.mp (PyDict.mem_of_lookup hdata)).1
        exact List.mem_map_of_mem hmem
      have hcall := ok_of_mem_syncLoop (mem_syncLoop_of_all_ok hok hin hdata)
      rw [hname] at hcall
      simp [withSyncFunc] at hcall

/-- A recorded hash of a kind's data says that what is to be removed of the kind is gone. -/
def Recorded (sha : Sha256) (dataMaps : List (Text × Data)) (D : Object A → Prop) (st : Status)
    (s : Nautobot A) : Prop :=
  ∀ v, D v → st.syncHash v.kind.resource = computeHash sha (dataOf dataMaps v.kind) → Gone v s

theorem reconcile_removes (hdoomed : Doomed dec dataMaps D) {run : Run A}
    (hclears : Clears run.env D) (haggregated : aggregateAll run.inputs = .ok dataMaps)
    (hs : Removing D s) (hrecorded : Recorded sha dataMaps D st s) {report : Report}
    (h : reconcile sha dec st s run = some (report, s')) :
    Removing D s' ∧ Recorded sha dataMaps D report.status s' ∧
      (report.outcome = .synced ∨ report.outcome = .unchanged → ∀ v, D v → Gone v s') := by
  have hskip {t : Kind} (ht : t ∈ Kind.order)
      (hnot : (resourcesToSync sha run.inputs st dataMaps).lookup t.resource = none) :
      Cleared D t s := by
    intro v hv hkind
    subst hkind
    exact hrecorded v hv (hash_of_not_due haggregated ht hnot)
  obtain ⟨⟨failed, s''⟩, hcalls, heq⟩ := Option.map_eq_some_iff.mp h
  cases heq
  rcases reconcile_cases sha st (withSyncFunc run.inputs fun _ _ => true) with
    hidle | ⟨dataMaps', hactive⟩
  · rw [hidle.calls] at hcalls
    cases hcalls
    have hsame : (withSyncFunc run.inputs fun name _ => some name ≠ none) =
        withSyncFunc run.inputs fun _ _ => true := by simp [withSyncFunc]
    rw [hsame]
    refine ⟨hs, ?_, ?_⟩
    · rw [hidle.status]
      exact hrecorded
    · rintro (hsynced | hunchanged) v hv
      · exact (hidle.outcome hsynced).elim
      · obtain ⟨dataMaps', haggregated', hnone⟩ := hidle.unchanged hunchanged
        have hdata : dataMaps' = dataMaps :=
          Except.ok.inj (haggregated'.symm.trans haggregated)
        subst hdata
        refine hskip (hdoomed.kind v hv).1 ?_ v hv rfl
        exact congrArg (List.lookup v.kind.resource) hnone
  · have hdata : dataMaps' = dataMaps := Except.ok.inj (hactive.aggregated.symm.trans haggregated)
    subst hdata
    have hplanned := hactive.calls.trans
      (calls_of_toSync fun _ _ _ hlookup => dataOf_of_toSync hactive.aggregated hlookup)
    obtain ⟨hs', hstays, hall⟩ := runCalls_removes hdoomed hclears [] rfl hs
      (fun t ht => by cases ht)
      (fun t ht hnot => hskip ht (Option.not_isSome_iff_eq_none.mp (Bool.eq_false_iff.mp hnot)))
      (hplanned ▸ hcalls)
    cases failed with
    | none =>
      have hgone : ∀ v, D v → Gone v s' :=
        fun v hv => hall rfl v.kind (hdoomed.kind v hv).1 v hv rfl
      exact ⟨hs', fun v hv _ => hgone v hv, fun _ => hgone⟩
    | some name =>
      obtain ⟨c, hc, hname⟩ := mem_of_runCalls_failed hcalls
      obtain ⟨hstatus, hsynced, hunchanged⟩ := reconcile_of_failed hactive hc hname
      refine ⟨hs', ?_, fun houtcome => ?_⟩
      · rw [hstatus]
        exact fun v hv hhash => hstays v hv (hrecorded v hv hhash)
      · rcases houtcome with h | h
        · exact (hsynced h).elim
        · exact (hunchanged h).elim

/-! Runs after entries were deleted. -/

/-- Nautobot has the objects of the configuration and no others of the synced kinds, all created by
the operator's user, and the hashes are on record. -/
structure FullySynced (sha : Sha256) (dec : Decoder A) (dataMaps : List (Text × Data)) (st : Status)
    (s : Nautobot A) : Prop where
  hashes : ∀ k ∈ Kind.order, st.syncHash k.resource = computeHash sha (dataOf dataMaps k)
  keys : KeyedTable.Unique Object.key s.objects
  resolved : ∀ k, ∀ x ∈ declared dec dataMaps k, Resolved s k x
  declares : ∀ v ∈ s.objects, v.kind ≠ .status →
    ∃ x ∈ declared dec dataMaps v.kind, Made s v.kind x.1 v
  createdBy : ∀ v ∈ s.objects, v.kind ≠ .status → v.id ∈ s.createdBy

/-- An object of a synced kind whose entry the configuration does not have. -/
structure Deleted (dec : Decoder A) (dataMaps : List (Text × Data)) (s : Nautobot A)
    (v : Object A) : Prop where
  mem : v ∈ s.objects
  kind : v.kind ≠ .status
  undeclared : ∀ x ∈ declared dec dataMaps v.kind, ¬Made s v.kind x.1 v

/-- The new configuration has some of the entries of the old one, at least one of each kind that had
any; none of them refers to a deleted object, and the hash of each kind with a deletion is new. -/
structure Deletion (sha : Sha256) (dec : Decoder A) (old new : List (Text × Data))
    (s : Nautobot A) : Prop where
  subset : ∀ k, declared dec new k ⊆ declared dec old k
  closed : ∀ k, ∀ x ∈ declared dec new k, ∀ v, Deleted dec new s v → ∀ name required,
    wanted k x.1 v.kind = some (name, required) → name ≠ v.name
  nonempty : ∀ k, declared dec old k ≠ [] → declared dec new k ≠ []
  hashes : ∀ v, Deleted dec new s v →
    computeHash sha (dataOf new v.kind) ≠ computeHash sha (dataOf old v.kind)

/-- Deleted objects are no permissions, share their names with none of their kind, and only other
deleted objects refer to them. -/
structure Removable (dec : Decoder A) (new : List (Text × Data)) (s : Nautobot A) : Prop where
  kind : ∀ v, Deleted dec new s v → v.kind ≠ .permissionGroup
  alone : ∀ v, Deleted dec new s v → v.kind ≠ .ipPrefix → ∀ u ∈ s.objects, u.kind = v.kind →
    u.name = v.name → u = v
  text : ∀ v, Deleted dec new s v → v.kind = .ipPrefix → ∀ x ∈ declared dec new .ipPrefix,
    x.1.id = [] → x.1.name ≠ v.name
  referrers : ∀ v, Deleted dec new s v → ∀ u ∈ s.objects, u.refs v.kind = some v.id →
    u.key ≠ v.key → Deleted dec new s u

/-- A run with the new configuration, whose passes remove a deleted object after those that refer to
it. -/
structure Removes (dec : Decoder A) (new : List (Text × Data)) (s : Nautobot A) (run : Run A) :
    Prop where
  aggregated : aggregateAll run.inputs = .ok new
  newId : ∀ v, Deleted dec new s v → ∀ objects, run.env.newId objects ≠ v.id
  first : ∀ u v, Deleted dec new s u → Deleted dec new s v → u.refs v.kind = some v.id →
    u.key ≠ v.key → RemovedFirst run.env u v

theorem doomed_deleted (hsynced : FullySynced sha dec old st s)
    (hdeletion : Deletion sha dec old new s) (hremovable : Removable dec new s) :
    Doomed dec new (Deleted dec new s) where
  kind := fun v hv => ⟨mem_order hv.kind, hremovable.kind v hv⟩
  id := by
    intro v hv x hx hne hid
    obtain ⟨u, hu, -⟩ := hsynced.resolved v.kind x (hdeletion.subset v.kind hx)
    have heq : u = v := hsynced.keys u hu.mem v hv.mem (by
      rw [Object.key, Object.key, hu.kind, hu.id hne, hid])
    exact hv.undeclared x hx (heq ▸ hu)
  name := by
    intro v hv hpre hname
    obtain ⟨x, hx, hxname⟩ := List.mem_map.mp hname
    obtain ⟨u, hu, -⟩ := hsynced.resolved v.kind x (hdeletion.subset v.kind hx)
    have heq : u = v := hremovable.alone v hv hpre u hu.mem hu.kind (hu.name.trans hxname)
    exact hv.undeclared x hx (heq ▸ hu)
  text := hremovable.text
  wanted := fun v hv k x hx name required hwanted =>
    hdeletion.closed k x hx v hv name required hwanted
  data := by
    intro v hv hdata
    obtain ⟨x, hx, -⟩ := hsynced.declares v hv.mem hv.kind
    refine hdeletion.nonempty v.kind (List.ne_nil_of_mem hx) ?_
    rw [declared, hdata, dec.empty, placedAll]

theorem removing_deleted (hsynced : FullySynced sha dec old st s)
    (hremovable : Removable dec new s) : Removing (Deleted dec new s) s where
  keys := hsynced.keys
  createdBy := fun v hv => hsynced.createdBy v hv.mem hv.kind
  name := fun v hv u hu hkey => by rw [hsynced.keys u hu v hv.mem hkey]
  alone := fun v hv hpre u hu hkind hname => by rw [hremovable.alone v hv hpre u hu hkind hname]
  referrers := fun v hv u hu hrefs hkey =>
    ⟨u, hremovable.referrers v hv u hu hrefs hkey, rfl, hrefs⟩

theorem reconcileAll_removes (hdoomed : Doomed dec dataMaps D) {runs : List (Run A)}
    (hruns : ∀ run ∈ runs, aggregateAll run.inputs = .ok dataMaps ∧ Clears run.env D)
    (hs : Removing D s) (hrecorded : Recorded sha dataMaps D st s) {st' : Status}
    (h : reconcileAll sha dec runs st s = some (st', s')) :
    Removing D s' ∧ Recorded sha dataMaps D st' s' := by
  induction runs generalizing st s with
  | nil =>
    cases h
    exact ⟨hs, hrecorded⟩
  | cons run runs ih =>
    obtain ⟨⟨report, mid⟩, hrun, hrest⟩ := Option.bind_eq_some_iff.mp h
    obtain ⟨haggregated, hclears⟩ := hruns run List.mem_cons_self
    obtain ⟨hmid, hrecorded', -⟩ := reconcile_removes hdoomed hclears haggregated hs hrecorded hrun
    exact ih (fun r hr => hruns r (List.mem_cons_of_mem run hr)) hmid hrecorded' hrest

theorem reconcile_synced {inp : Inputs} (haggregated : aggregateAll inp = .ok dataMaps)
    (hfound : inp.found = true) (henabled : inp.isEnabled = true) (hauth : inp.authToken = true)
    (hclient : inp.newClient = true) (hstatus : inp.statusUpdate = true)
    (hsync : inp.syncFunc = fun _ _ => true) (hne : resourcesToSync sha inp st dataMaps ≠ []) :
    let calls := syncLoop (fun _ _ => true) (resourcesToSync sha inp st dataMaps) syncOrder
    Reconcile.reconcile sha st inp = ⟨recordSync sha inp.now calls st, calls, .synced⟩ := by
  have hok : (syncLoop (fun _ _ => true) (resourcesToSync sha inp st dataMaps) syncOrder).any
      (!·.ok) = false := by
    rw [List.any_eq_false]
    intro c hc
    simp [syncLoop_true_ok _ syncOrder c hc]
  simp only [Reconcile.reconcile, hfound, henabled, topologicalSort_resources, haggregated, hne,
    syncResources, hauth, hclient, hsync, hok, hstatus, Bool.not_true, Bool.false_eq_true, if_false]

/-! Every kind has an object; a second cluster is of a second cluster type. -/

def pairNames (k : Kind) : List Text :=
  if k = .clusterType ∨ k = .cluster then ["a".toList, "b".toList] else ["a".toList]

def pairEntry (k : Kind) (name : Text) : Entry Unit where
  id := if k = .permissionGroup then [] else name
  name := name
  refers t := if t = k then none else some (if t = .clusterType then name else "a".toList)
  devices := []
  attrs _ := some ()

def oldData : Data := [("data".toList, "x".toList)]

def newData : Data := [("data".toList, "y".toList)]

/-- The new data of a kind have the first entry alone. -/
def pairDecoder : Decoder Unit where
  forest k data :=
    (if data = oldData then pairNames k else if data = newData then ["a".toList] else []).map
      fun name => .node (pairEntry k name) []
  empty _ := rfl
  flat k data _ tree htree := by
    obtain ⟨name, -, rfl⟩ := List.mem_map.mp htree
    rfl
  noId data tree htree := by
    obtain ⟨name, -, rfl⟩ := List.mem_map.mp htree
    rfl

def pairObject (k : Kind) (name : Text) : Object Unit :=
  ⟨k, name, name, fun t => (wanted k (pairEntry k name) t).map Prod.fst, ()⟩

def pairNautobot (names : Kind → List Text) : Nautobot Unit where
  objects := (.status :: Kind.order).flatMap fun k => (names k).map (pairObject k)
  createdBy := ["a".toList, "b".toList]

def pairMaps (changed : List Kind) : List (Text × Data) :=
  resourceNames.map fun name =>
    (name, if name ∈ changed.map Kind.resource then newData else oldData)

def pairStatus : Status := ⟨some 0, fun _ => computeHash knownSha oldData⟩

def pairRun (changed : List Kind) : Run Unit where
  inputs :=
    { found := true
      isEnabled := true
      syncIntervalSeconds := 100
      configRefs := fun name => [configMapRef name]
      cluster := fun _ name => some (oneEntry "data".toList
        (if name ∈ changed.map Kind.resource then "y".toList else "x".toList))
      now := 0
      authToken := true
      newClient := true
      syncFunc := fun _ _ => true
      statusUpdate := true }
  env := firstEnv

/-- The names of the entries when the data of some kinds changed. -/
def pairDeclared (changed : List Kind) (k : Kind) : List Text :=
  if k = .status then [] else if k ∈ changed then ["a".toList] else pairNames k

theorem placedAll_leaves (e : Text → Entry A) (names : List Text) :
    placedAll none (names.map fun name => .node (e name) []) = names.map fun name =>
      (e name, none) := by
  induction names with
  | nil => rfl
  | cons name names ih =>
    rw [List.map_cons, placedAll, Tree.placed, placedAll, ih]
    rfl

def pairChanges : List (List Kind) := [[], [.cluster], [.clusterType, .cluster]]

theorem dataOf_pair {changed : List Kind} (h : changed ∈ pairChanges) (k : Kind) :
    dataOf (pairMaps changed) k =
      if k = .status then [] else if k ∈ changed then newData else oldData := by
  have hall : ∀ changed ∈ pairChanges, ∀ k, dataOf (pairMaps changed) k =
      if k = .status then [] else if k ∈ changed then newData else oldData := by decide
  exact hall changed h k

theorem declared_pair {changed : List Kind} (h : changed ∈ pairChanges) (k : Kind) :
    declared pairDecoder (pairMaps changed) k =
      (pairDeclared changed k).map fun name => (pairEntry k name, none) := by
  rw [declared, dataOf_pair h, ← placedAll_leaves]
  congr 1
  unfold pairDeclared
  split_ifs <;> rfl

theorem mem_pairNautobot {names : Kind → List Text} {v : Object Unit} :
    v ∈ (pairNautobot names).objects ↔ ∃ k, ∃ name ∈ names k, v = pairObject k name := by
  simp only [pairNautobot, List.mem_flatMap, List.mem_map]
  constructor
  · rintro ⟨k, -, name, hname, rfl⟩
    exact ⟨k, name, hname, rfl⟩
  · rintro ⟨k, name, hname, rfl⟩
    refine ⟨k, ?_, name, hname, rfl⟩
    by_cases hk : k = .status
    · exact hk ▸ List.mem_cons_self
    · exact List.mem_cons_of_mem _ (mem_order hk)

theorem made_pair (k : Kind) {name : Text} (hname : name ∈ pairNames k) :
    Made (pairNautobot pairNames) k (pairEntry k name) (pairObject k name) where
  mem := mem_pairNautobot.mpr ⟨k, name, hname, rfl⟩
  kind := rfl
  name := rfl
  id := by
    intro hid
    simp only [pairEntry, pairObject] at hid ⊢
    split_ifs at hid ⊢ with hk
    · exact (hid rfl).elim
    · rfl

theorem pairDeclared_subset (changed : List Kind) (k : Kind) :
    pairDeclared changed k ⊆ pairNames k := by
  unfold pairDeclared pairNames
  split_ifs <;> simp

/-- What an entry names is there. -/
theorem wanted_pair {k t : Kind} {name n : Text} {required : Bool} (hname : name ∈ pairNames k)
    (h : wanted k (pairEntry k name) t = some (n, required)) : n ∈ pairNames t := by
  have hall : ∀ k, ∀ name ∈ pairNames k, ∀ t,
      ∀ w ∈ wanted k (pairEntry k name) t, w.1 ∈ pairNames t := by decide
  exact hall k name hname t (n, required) h

theorem fullySynced_pair :
    FullySynced knownSha pairDecoder (pairMaps []) pairStatus (pairNautobot pairNames) where
  hashes := by
    intro k hk
    have hne : k ≠ .status := by
      rintro rfl
      exact absurd hk (by decide)
    rw [dataOf_pair (by decide), if_neg hne]
    rfl
  keys := by
    have hnodup : ((pairNautobot pairNames).objects.map Object.key).Nodup := by decide
    exact fun a ha b hb => List.inj_on_of_nodup_map hnodup ha hb
  resolved := by
    intro k x hx
    rw [declared_pair (by decide)] at hx
    obtain ⟨name, hname, rfl⟩ := List.mem_map.mp hx
    have hmem := pairDeclared_subset [] k hname
    refine ⟨pairObject k name, made_pair k hmem, fun t n href => ?_, fun p hp => ?_, ?_⟩
    · obtain ⟨required, hwanted, -⟩ := href
      refine ⟨pairObject t n, mem_pairNautobot.mpr ⟨t, n, wanted_pair hmem hwanted, rfl⟩, rfl, rfl,
        ?_⟩
      simp only [pairObject, hwanted, Option.map_some]
    · cases hp
    · intro _ n hn
      cases hn
  declares := by
    intro v hv hkind
    obtain ⟨k, name, hname, rfl⟩ := mem_pairNautobot.mp hv
    refine ⟨(pairEntry k name, none), ?_, made_pair k hname⟩
    have hk : k ≠ .status := hkind
    rw [declared_pair (by decide)]
    refine List.mem_map.mpr ⟨name, ?_, rfl⟩
    simpa [pairDeclared, pairObject, hk] using hname
  createdBy := by
    intro v hv _
    obtain ⟨k, name, hname, rfl⟩ := mem_pairNautobot.mp hv
    have hall : ∀ k, ∀ name ∈ pairNames k, name ∈ ["a".toList, "b".toList] := by decide
    exact hall k name hname

/-- The deleted objects are the second ones of the changed kinds. -/
theorem deleted_pair {changed : List Kind} (h : changed ∈ pairChanges) {v : Object Unit} :
    Deleted pairDecoder (pairMaps changed) (pairNautobot pairNames) v ↔
      ∃ k ∈ changed, v = pairObject k "b".toList := by
  constructor
  · rintro ⟨hv, hkind, hundeclared⟩
    obtain ⟨k, name, hname, rfl⟩ := mem_pairNautobot.mp hv
    have hnot : name ∉ pairDeclared changed k := fun hin => by
      refine hundeclared (pairEntry k name, none) ?_ (made_pair k hname)
      rw [declared_pair h]
      exact List.mem_map.mpr ⟨name, hin, rfl⟩
    have hall : ∀ changed ∈ pairChanges, ∀ k ≠ .status, ∀ name ∈ pairNames k,
        name ∉ pairDeclared changed k → k ∈ changed ∧ name = "b".toList := by decide
    obtain ⟨hk, rfl⟩ := hall changed h k hkind name hname hnot
    exact ⟨k, hk, rfl⟩
  · rintro ⟨k, hk, rfl⟩
    have hall : ∀ changed ∈ pairChanges, ∀ k ∈ changed, k ≠ .status ∧ "b".toList ∈ pairNames k ∧
        "b".toList ∉ pairDeclared changed k := by decide
    obtain ⟨hne, hmem, hnot⟩ := hall changed h k hk
    refine ⟨mem_pairNautobot.mpr ⟨k, _, hmem, rfl⟩, hne, fun x hx hmade => hnot ?_⟩
    rw [declared_pair h] at hx
    obtain ⟨name, hname, rfl⟩ := List.mem_map.mp hx
    have heq : "b".toList = name := hmade.name
    exact heq ▸ hname

theorem deletion_pair {changed : List Kind} (h : changed ∈ pairChanges) :
    Deletion knownSha pairDecoder (pairMaps []) (pairMaps changed) (pairNautobot pairNames) where
  subset := by
    intro k
    rw [declared_pair h, declared_pair (by decide)]
    refine List.map_subset _ fun name hname => ?_
    have hall : ∀ changed ∈ pairChanges, ∀ k, ∀ name ∈ pairDeclared changed k,
        name ∈ pairDeclared [] k := by decide
    exact hall changed h k name hname
  closed := by
    intro k x hx v hv name required hwanted
    rw [declared_pair h] at hx
    obtain ⟨n, hn, rfl⟩ := List.mem_map.mp hx
    obtain ⟨t, ht, rfl⟩ := (deleted_pair h).mp hv
    have hall : ∀ changed ∈ pairChanges, ∀ k, ∀ n ∈ pairDeclared changed k, ∀ t ∈ changed,
        ∀ w ∈ wanted k (pairEntry k n) t, w.1 ≠ "b".toList := by decide
    exact hall changed h k n hn t ht (name, required) hwanted
  nonempty := by
    intro k
    rw [declared_pair h, declared_pair (by decide)]
    have hall : ∀ changed ∈ pairChanges, ∀ k, pairDeclared [] k ≠ [] →
        pairDeclared changed k ≠ [] := by decide
    simpa using hall changed h k
  hashes := by
    intro v hv
    obtain ⟨k, hk, rfl⟩ := (deleted_pair h).mp hv
    have hne : k ≠ .status := hv.kind
    simp only [pairObject, dataOf_pair h, dataOf_pair (show [] ∈ pairChanges by decide), if_neg hne,
      if_pos hk, if_neg (List.not_mem_nil)]
    exact knownSha_ne

theorem planned_pair {changed : List Kind} (h : changed ∈ pairChanges) (hne : changed ≠ []) :
    let planned := Reconcile.reconcile knownSha pairStatus (pairRun changed).inputs
    planned.calls = changed.map (callOf (pairMaps changed)) ∧ planned.outcome = .synced ∧
      planned.status.lastSyncedAt = some 0 := by
  have haggregated : ∀ changed ∈ pairChanges,
      aggregateAll (pairRun changed).inputs = .ok (pairMaps changed) := by decide
  have hdue : ∀ changed ∈ pairChanges, changed ≠ [] →
      resourcesToSync knownSha (pairRun changed).inputs pairStatus (pairMaps changed) ≠ [] ∧
        syncLoop (fun _ _ => true) (resourcesToSync knownSha (pairRun changed).inputs pairStatus
          (pairMaps changed)) syncOrder = changed.map (callOf (pairMaps changed)) := by
    decide
  obtain ⟨hsome, hcalls⟩ := hdue changed h hne
  dsimp only
  rw [reconcile_synced (haggregated changed h) rfl rfl rfl rfl rfl rfl hsome, hcalls]
  exact ⟨rfl, rfl, rfl⟩

theorem reconcile_pair {changed : List Kind} (h : changed ∈ pairChanges) (hne : changed ≠ [])
    {s' : Nautobot Unit} (hrun : runCalls pairDecoder firstEnv
      (changed.map (callOf (pairMaps changed))) (pairNautobot pairNames) = some (none, s')) :
    ∃ report, reconcile knownSha pairDecoder pairStatus (pairNautobot pairNames)
        (pairRun changed) = some (report, s') ∧ report.outcome = .synced ∧
      report.status.lastSyncedAt = some 0 := by
  obtain ⟨hcalls, houtcome, hclock⟩ := planned_pair h hne
  have hall : withSyncFunc (pairRun changed).inputs (fun _ _ => true) = (pairRun changed).inputs :=
    rfl
  have hsame : withSyncFunc (pairRun changed).inputs (fun name _ => some name ≠ none) =
      (pairRun changed).inputs := by simp [withSyncFunc, pairRun]
  refine ⟨_, ?_, houtcome, hclock⟩
  unfold reconcile
  dsimp only
  rw [hall, hcalls, show (pairRun changed).env = firstEnv from rfl, hrun, Option.map_some, hsame]

/-- A deleted entry's object is gone once the hash of its kind is recorded, and every deleted object
after a run that returns without an error, where each is removed after all that refer to it. -/
theorem deleted_objects_gone (sha : Sha256) {dec : Decoder A} {old new : List (Text × Data)}
    {st : Status} {s : Nautobot A} (hsynced : FullySynced sha dec old st s)
    (hdeletion : Deletion sha dec old new s) (hremovable : Removable dec new s)
    {runs : List (Run A)} (hruns : ∀ run ∈ runs, Removes dec new s run) {st' : Status}
    {s' : Nautobot A} (h : reconcileAll sha dec runs st s = some (st', s')) :
    (∀ v, Deleted dec new s v →
      st'.syncHash v.kind.resource = computeHash sha (dataOf new v.kind) → Gone v s') ∧
    ∀ run, Removes dec new s run → ∀ report s'',
      reconcile sha dec st' s' run = some (report, s'') →
      report.outcome = .synced ∨ report.outcome = .unchanged →
        ∀ v, Deleted dec new s v → Gone v s'' := by
  have hdoomed := doomed_deleted hsynced hdeletion hremovable
  have hstart : Recorded sha new (Deleted dec new s) st s := by
    intro v hv hhash
    rw [hsynced.hashes v.kind (mem_order hv.kind)] at hhash
    exact (hdeletion.hashes v hv hhash.symm).elim
  obtain ⟨hs', hrecorded⟩ := reconcileAll_removes hdoomed
    (fun run hrun => ⟨(hruns run hrun).aggregated, (hruns run hrun).newId, (hruns run hrun).first⟩)
    (removing_deleted hsynced hremovable) hstart h
  refine ⟨hrecorded, fun run hrun report s'' hreport => ?_⟩
  exact (reconcile_removes hdoomed ⟨hrun.newId, hrun.first⟩ hrun.aggregated hs' hrecorded
    hreport).2.2

def afterCluster (k : Kind) : List Text := if k = .cluster then ["a".toList] else pairNames k

/-- The second cluster alone is deleted. -/
theorem deleted_objects_gone_cluster :
    ∃ report s', reconcile knownSha pairDecoder pairStatus (pairNautobot pairNames)
        (pairRun [.cluster]) = some (report, s') ∧ report.outcome = .synced ∧
      Gone (pairObject .cluster "b".toList) s' := by
  have hdeleted {v : Object Unit} (hv : Deleted pairDecoder (pairMaps [.cluster])
      (pairNautobot pairNames) v) : v = pairObject .cluster "b".toList := by
    obtain ⟨k, hk, rfl⟩ := (deleted_pair (by decide)).mp hv
    rw [List.mem_singleton.mp hk]
  -- no object refers to a cluster
  have hrefs {u : Object Unit} (hu : u ∈ (pairNautobot pairNames).objects) {id : Text} :
      u.refs .cluster ≠ some id := by
    obtain ⟨k, name, -, rfl⟩ := mem_pairNautobot.mp hu
    simp [pairObject, wanted_of_lookup (lookup_references_cluster k)]
  have hremovable : Removable pairDecoder (pairMaps [.cluster]) (pairNautobot pairNames) := by
    refine ⟨fun v hv => ?_, fun v hv _ u hu hkind hname => ?_, fun v hv hpre => ?_,
      fun v hv u hu href => ?_⟩
    · rw [hdeleted hv]
      decide
    · obtain ⟨k, name, -, rfl⟩ := mem_pairNautobot.mp hu
      rw [hdeleted hv] at hkind hname ⊢
      change k = .cluster at hkind
      change name = "b".toList at hname
      rw [hkind, hname]
    · rw [hdeleted hv] at hpre
      cases hpre
    · rw [hdeleted hv] at href
      exact (hrefs hu href).elim
  have hremoves : Removes pairDecoder (pairMaps [.cluster]) (pairNautobot pairNames)
      (pairRun [.cluster]) := by
    refine ⟨by decide, fun v hv objects => ?_, fun u v hu hv href => ?_⟩
    · rw [hdeleted hv]
      intro heq
      have hhead : some '-' = some 'b' := congrArg List.head? heq
      exact absurd hhead (by decide)
    · rw [hdeleted hv] at href
      exact (hrefs hu.mem href).elim
  have hcalls : runCalls pairDecoder firstEnv ([.cluster].map (callOf (pairMaps [.cluster])))
      (pairNautobot pairNames) = some (none, pairNautobot afterCluster) := (rfl)
  obtain ⟨report, hreport, houtcome, -⟩ := reconcile_pair (by decide) (by decide) hcalls
  have hstart : reconcileAll knownSha pairDecoder [] pairStatus (pairNautobot pairNames) =
      some (pairStatus, pairNautobot pairNames) := rfl
  refine ⟨report, _, hreport, houtcome, ?_⟩
  exact (deleted_objects_gone knownSha fullySynced_pair (deletion_pair (by decide)) hremovable
    (fun _ hrun => by cases hrun) hstart).2 _ hremoves report _ hreport (Or.inl houtcome) _
    ((deleted_pair (by decide)).mpr ⟨.cluster, List.mem_singleton.mpr rfl, rfl⟩)

end Understack.Nautobotop.Inventory
