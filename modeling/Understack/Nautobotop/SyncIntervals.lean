import Understack.Nautobotop.Reconcile

/-! When a resource is synced again, over sequences of `Reconcile` runs. The hashes are kept for
each resource and the time of the last sync once for all of them, so that a sync of one resource
puts off the next one of the others. -/
namespace Understack.Nautobotop.Reconcile
open PyText

/-- What an observer of the runs knows: the data of each resource's last recorded sync, the time
of its last successful one, every successful call, and the time of the last run. -/
structure Ledger where
  recorded : Text → Option Data
  lastSuccess : Text → Option ℤ
  successes : List (Text × Data)
  clock : Option ℤ

structure World where
  status : Status
  ledger : Ledger

def initialWorld : World := ⟨freshStatus, ⟨fun _ => none, fun _ => none, [], none⟩⟩

def succeeded (r : Report) : List SyncCall := r.calls.filter (·.ok)

def Ledger.after (l : Ledger) (now : ℤ) (r : Report) : Ledger where
  recorded :=
    if r.outcome = .synced then
      r.calls.foldl (fun g c => Function.update g c.resource (some c.data)) l.recorded
    else l.recorded
  lastSuccess := (succeeded r).foldl (fun g c => Function.update g c.resource (some now))
    l.lastSuccess
  successes := l.successes ++ (succeeded r).map fun c => (c.resource, c.data)
  clock := some now

def step (sha : Sha256) (w : World) (inp : Inputs) : World where
  status := (reconcile sha w.status inp).status
  ledger := w.ledger.after inp.now (reconcile sha w.status inp)

/-- The run ends without an error and is not switched off. -/
def Completed (r : Report) : Prop := r.outcome = .unchanged ∨ r.outcome = .synced

/-- Equality of the maps. -/
def SameData (d e : Data) : Prop := ∀ k, d.lookup k = e.lookup k

/-- The data is not that of the resource's last recorded sync, or the interval has passed since
its last successful one. -/
def Due (l : Ledger) (inp : Inputs) (name : Text) (data : Data) : Prop :=
  (∀ d, l.recorded name = some d → ¬SameData d data) ∨
    ∃ t, l.lastSuccess name = some t ∧ syncInterval inp ≤ inp.now - t

/-- A run that completes syncs every resource that is due. -/
def Resyncs (sha : Sha256) (w : World) (inp : Inputs) : Prop :=
  Completed (reconcile sha w.status inp) → ∀ name ∈ resourceNames, ∀ data,
    aggregateDataFromConfigMap inp.cluster (inp.configRefs name) = .ok data →
    Due w.ledger inp name data → ⟨name, data, true⟩ ∈ (reconcile sha w.status inp).calls

/-- The recorded hash is that of data whose sync succeeded. -/
def HashOfSuccess (sha : Sha256) (w : World) (name : Text) : Prop :=
  w.status.syncHash name = [] ∧ w.ledger.recorded name = none ∨
    ∃ d, w.ledger.recorded name = some d ∧ w.status.syncHash name = computeHash sha d ∧
      (name, d) ∈ w.ledger.successes

def Changed (sha : Sha256) (st : Status) (p : Text × Data) : Prop :=
  computeHash sha p.2 ≠ st.syncHash p.1

def Elapsed (st : Status) (inp : Inputs) : Prop :=
  ∀ last, st.lastSyncedAt = some last → syncInterval inp ≤ inp.now - last

/-- New data of a resource has a new hash, and either the data of every resource or of none has
changed, or the interval has passed since the last sync of any. -/
structure Uniform (sha : Sha256) (w : World) (inp : Inputs) (dataMaps : List (Text × Data)) :
    Prop where
  hashes : ∀ p ∈ dataMaps, ∀ d, w.ledger.recorded p.1 = some d → ¬SameData d p.2 →
    computeHash sha p.2 ≠ computeHash sha d
  together : (∀ p ∈ dataMaps, Changed sha w.status p) ∨ (∀ p ∈ dataMaps, ¬Changed sha w.status p) ∨
    Elapsed w.status inp

/-- Times increase, and the run is uniform. -/
def Regular (sha : Sha256) (w : World) (inp : Inputs) : Prop :=
  (∀ t, w.ledger.clock = some t → t ≤ inp.now) ∧
    ∀ dataMaps, aggregateAll inp = .ok dataMaps → Uniform sha w inp dataMaps

section Updates

variable {C β : Type} (key : C → Text) (val : C → β)

/-- The last element with a key decides its value. -/
theorem foldl_update_apply (l : List C) (f : Text → β) (name : Text) :
    l.foldl (fun g c => Function.update g (key c) (val c)) f name =
      ((l.reverse.find? fun c => key c = name).map val).getD (f name) := by
  induction l generalizing f with
  | nil => rfl
  | cons c l ih =>
    rw [List.foldl_cons, ih, List.reverse_cons, List.find?_append]
    cases l.reverse.find? fun c => key c = name with
    | some d => rfl
    | none =>
      by_cases hc : key c = name
      · simp [hc]
      · simp [hc, Function.update_of_ne (Ne.symm hc)]

theorem find?_last_some {l : List C} {name : Text} {c : C}
    (h : (l.reverse.find? fun c => key c = name) = some c) : c ∈ l ∧ key c = name :=
  ⟨List.mem_reverse.mp (List.mem_of_find?_eq_some h), by simpa using List.find?_some h⟩

theorem find?_last_of_mem {l : List C} {c : C} (h : c ∈ l) :
    ∃ d, (l.reverse.find? fun d => key d = key c) = some d := by
  have hsome : (l.reverse.find? fun d => key d = key c).isSome = true := by
    rw [List.find?_isSome]
    exact ⟨c, List.mem_reverse.mpr h, by simp⟩
  exact Option.isSome_iff_exists.mp hsome

end Updates

theorem keys_aggregateAll {inp : Inputs} {dataMaps : List (Text × Data)}
    (h : aggregateAll inp = .ok dataMaps) : dataMaps.map Prod.fst = resourceNames := by
  have hall (names : List Text) (r : List (Text × Data))
      (hr : names.mapM (fun name => do
        let data ← aggregateDataFromConfigMap inp.cluster (inp.configRefs name)
        (.ok (name, data) : Except AggregateError (Text × Data))) = .ok r) :
      r.map Prod.fst = names := by
    induction names generalizing r with
    | nil =>
      cases hr
      rfl
    | cons name names ih =>
      rw [List.mapM_cons] at hr
      obtain ⟨p, hp, hr⟩ := Runs.bind_eq_ok hr
      obtain ⟨ps, hps, hr⟩ := Runs.bind_eq_ok hr
      obtain ⟨data, -, hpair⟩ := Runs.bind_eq_ok hp
      cases hpair
      cases hr
      rw [List.map_cons, ih ps hps]
  exact hall resourceNames dataMaps h

theorem mem_aggregateAll {inp : Inputs} {dataMaps : List (Text × Data)}
    (h : aggregateAll inp = .ok dataMaps) {name : Text} (hname : name ∈ resourceNames)
    {data : Data}
    (hdata : aggregateDataFromConfigMap inp.cluster (inp.configRefs name) = .ok data) :
    (name, data) ∈ dataMaps := by
  obtain ⟨p, hp, hpair⟩ := Runs.exists_of_mapM_ok h hname
  obtain ⟨d, hd, heq⟩ := Runs.bind_eq_ok hpair
  cases heq
  rw [hdata] at hd
  cases hd
  exact hp

theorem lookup_resourcesToSync {sha : Sha256} {st : Status} {inp : Inputs}
    {dataMaps : List (Text × Data)} (h : aggregateAll inp = .ok dataMaps) {p : Text × Data}
    (hp : p ∈ resourcesToSync sha inp st dataMaps) :
    (resourcesToSync sha inp st dataMaps).lookup p.1 = some p.2 := by
  have hnodup : ((resourcesToSync sha inp st dataMaps).map Prod.fst).Nodup := by
    have hsub := (List.filter_sublist (l := dataMaps) (p := fun p => shouldSync st.lastSyncedAt
      (syncInterval inp) inp.now (computeHash sha p.2) (st.syncHash p.1))).map Prod.fst
    rw [keys_aggregateAll h] at hsub
    exact hsub.nodup resourceNames_nodup
  exact PyDict.lookup_of_mem hnodup hp

/-- In a run that is recorded every resource to sync has been synced. -/
theorem Active.mem_calls {sha : Sha256} {st : Status} {inp : Inputs} {r : Report}
    {order : List Text} {dataMaps : List (Text × Data)} (h : Active sha st inp r order dataMaps)
    (hok : ∀ c ∈ r.calls, c.ok = true) {p : Text × Data}
    (hp : p ∈ resourcesToSync sha inp st dataMaps) : ⟨p.1, p.2, true⟩ ∈ r.calls := by
  have hname : p.1 ∈ order := by
    rw [h.perm.mem_iff, ← keys_aggregateAll h.aggregated]
    exact List.mem_map_of_mem (List.mem_filter.mp hp).1
  rw [h.calls] at hok ⊢
  exact mem_syncLoop_of_all_ok hok hname (lookup_resourcesToSync h.aggregated hp)

/-- A run that completes syncs what it decides to sync. -/
theorem called_of_completed {sha : Sha256} {st : Status} {inp : Inputs}
    (h : Completed (reconcile sha st inp)) :
    ∃ dataMaps, aggregateAll inp = .ok dataMaps ∧
      ∀ p ∈ resourcesToSync sha inp st dataMaps,
        ⟨p.1, p.2, true⟩ ∈ (reconcile sha st inp).calls := by
  rcases reconcile_cases sha st inp with hidle | ⟨dataMaps, hactive⟩
  · have hunchanged : (reconcile sha st inp).outcome = .unchanged :=
      h.resolve_right hidle.outcome
    obtain ⟨dataMaps, hdata, hnil⟩ := hidle.unchanged hunchanged
    refine ⟨dataMaps, hdata, fun p hp => ?_⟩
    rw [hnil] at hp
    cases hp
  · rcases hactive.recorded with ⟨-, stage, hfailed⟩ | ⟨-, -, hok⟩
    · rcases h with h | h <;> rw [hfailed] at h <;> cases h
    · exact ⟨dataMaps, hactive.aggregated, fun p hp => hactive.mem_calls hok hp⟩

theorem shouldSync_iff {last : Option ℤ} {interval now : ℤ} {current previous : Text} :
    shouldSync last interval now current previous = true ↔
      current ≠ previous ∨ ∀ t, last = some t → interval ≤ now - t := by
  unfold shouldSync
  split_ifs with hchanged
  · simp [hchanged]
  · cases last with
    | none => simp
    | some t =>
      simp only [hchanged, false_or, Option.some.injEq, forall_eq']
      split_ifs with hlt
      · simp only [false_iff]
        omega
      · simp only [true_iff]
        omega

/-- The invariant of uniform runs: no resource was last synced before the recorded time. -/
structure Settled (w : World) : Prop where
  clock : ∀ name t, w.ledger.lastSuccess name = some t →
    ∃ c, w.ledger.clock = some c ∧ t ≤ c
  times : ∀ last, w.status.lastSyncedAt = some last → ∀ name ∈ resourceNames,
    ∃ t, w.ledger.lastSuccess name = some t ∧ last ≤ t

theorem resyncs_of_settled {sha : Sha256} {w : World} {inp : Inputs} (hw : Settled w)
    (hhash : ∀ name, HashOfSuccess sha w name) (hreg : Regular sha w inp) :
    Resyncs sha w inp := by
  intro hcompleted name hname data hdata hdue
  obtain ⟨dataMaps, haggregate, hcalls⟩ := called_of_completed hcompleted
  have hmem := mem_aggregateAll haggregate hname hdata
  refine hcalls (name, data) (List.mem_filter.mpr ⟨hmem, shouldSync_iff.mpr ?_⟩)
  by_cases hchanged : computeHash sha data ≠ w.status.syncHash name
  · exact Or.inl hchanged
  rw [not_not] at hchanged
  refine Or.inr fun last hlast => ?_
  rcases hdue with hdata' | ⟨t, ht, hinterval⟩
  · rcases hhash name with ⟨hnil, -⟩ | ⟨d, hrecorded, hd, -⟩
    · exact absurd (hchanged.trans hnil) (computeHash_ne_nil sha data)
    · have hne := (hreg.2 dataMaps haggregate).hashes (name, data) hmem d hrecorded
        (hdata' d hrecorded)
      exact absurd (hchanged.trans hd) hne
  · obtain ⟨t', ht', hle⟩ := hw.times last hlast name hname
    rw [ht] at ht'
    cases ht'
    omega

theorem hashOfSuccess_step {sha : Sha256} {w : World}
    (h : ∀ name, HashOfSuccess sha w name) (inp : Inputs) :
    ∀ name, HashOfSuccess sha (step sha w inp) name := by
  intro name
  -- where nothing is recorded, the successes can only grow
  have hkeep (hstatus : (reconcile sha w.status inp).status = w.status)
      (houtcome : (reconcile sha w.status inp).outcome ≠ .synced) :
      HashOfSuccess sha (step sha w inp) name := by
    simp only [HashOfSuccess, step, Ledger.after, hstatus, if_neg houtcome]
    rcases h name with hnone | ⟨d, hrecorded, hhash, hsuccess⟩
    · exact Or.inl hnone
    · exact Or.inr ⟨d, hrecorded, hhash, List.mem_append_left _ hsuccess⟩
  rcases reconcile_cases sha w.status inp with hidle | ⟨dataMaps, hactive⟩
  · exact hkeep hidle.status hidle.outcome
  · rcases hactive.recorded with ⟨hstatus, stage, hfailed⟩ | ⟨hstatus, hsynced, hok⟩
    · exact hkeep hstatus (by rw [hfailed]; simp)
    · have hrecorded : (step sha w inp).ledger.recorded name =
          (((reconcile sha w.status inp).calls.reverse.find? fun c => c.resource = name).map
            fun c => some c.data).getD (w.ledger.recorded name) := by
        simp only [step, Ledger.after, if_pos hsynced]
        exact foldl_update_apply SyncCall.resource (fun c => some c.data) _ _ name
      have hhash : (step sha w inp).status.syncHash name =
          (((reconcile sha w.status inp).calls.reverse.find? fun c => c.resource = name).map
            fun c => computeHash sha c.data).getD (w.status.syncHash name) := by
        simp only [step, hstatus, recordSync]
        exact foldl_update_apply SyncCall.resource (fun c => computeHash sha c.data) _ _ name
      cases hlast : (reconcile sha w.status inp).calls.reverse.find? fun c => c.resource = name with
      | none =>
        rw [hlast] at hrecorded hhash
        rcases h name with hnone | ⟨d, hd, hdhash, hsuccess⟩
        · exact Or.inl ⟨hhash.trans hnone.1, hrecorded.trans hnone.2⟩
        · exact Or.inr ⟨d, hrecorded.trans hd, hhash.trans hdhash,
            List.mem_append_left _ hsuccess⟩
      | some c =>
        rw [hlast] at hrecorded hhash
        obtain ⟨hc, rfl⟩ := find?_last_some SyncCall.resource hlast
        refine Or.inr ⟨c.data, hrecorded, hhash, List.mem_append_right _ ?_⟩
        exact List.mem_map.mpr ⟨c, List.mem_filter.mpr ⟨hc, hok c hc⟩, rfl⟩

theorem lastSuccess_apply (sha : Sha256) (w : World) (inp : Inputs) (name : Text) :
    (step sha w inp).ledger.lastSuccess name =
      (((succeeded (reconcile sha w.status inp)).reverse.find? fun c => c.resource = name).map
        fun _ => some inp.now).getD (w.ledger.lastSuccess name) :=
  foldl_update_apply SyncCall.resource (fun _ => some inp.now) _ _ name

theorem lastSuccess_step (sha : Sha256) (w : World) (inp : Inputs) (name : Text) :
    (∃ c ∈ succeeded (reconcile sha w.status inp), c.resource = name) ∧
      (step sha w inp).ledger.lastSuccess name = some inp.now ∨
    (¬∃ c ∈ succeeded (reconcile sha w.status inp), c.resource = name) ∧
      (step sha w inp).ledger.lastSuccess name = w.ledger.lastSuccess name := by
  have happly := lastSuccess_apply sha w inp name
  cases hlast : (succeeded (reconcile sha w.status inp)).reverse.find?
      fun c => c.resource = name with
  | none =>
    rw [hlast] at happly
    refine Or.inr ⟨?_, happly⟩
    rintro ⟨c, hc, rfl⟩
    obtain ⟨d, hd⟩ := find?_last_of_mem SyncCall.resource hc
    rw [hlast] at hd
    cases hd
  | some c =>
    rw [hlast] at happly
    exact Or.inl ⟨⟨c, find?_last_some SyncCall.resource hlast⟩, happly⟩

/-- A uniform run that is recorded has synced every resource. -/
theorem all_called {sha : Sha256} {w : World} {inp : Inputs} {order : List Text}
    {dataMaps : List (Text × Data)} (hreg : Regular sha w inp)
    (hactive : Active sha w.status inp (reconcile sha w.status inp) order dataMaps)
    (hok : ∀ c ∈ (reconcile sha w.status inp).calls, c.ok = true) :
    ∀ name ∈ resourceNames,
      ∃ c ∈ succeeded (reconcile sha w.status inp), c.resource = name := by
  have hall : ∀ p ∈ dataMaps, p ∈ resourcesToSync sha inp w.status dataMaps := by
    intro p hp
    refine List.mem_filter.mpr ⟨hp, shouldSync_iff.mpr ?_⟩
    rcases (hreg.2 dataMaps hactive.aggregated).together with hevery | hnone | helapsed
    · exact Or.inl (hevery p hp)
    · -- something is to be synced, so without changes the interval has passed
      obtain ⟨q, hq⟩ := List.exists_mem_of_ne_nil _ hactive.nonempty
      obtain ⟨hqmem, hqsync⟩ := List.mem_filter.mp hq
      rcases shouldSync_iff.mp hqsync with hchanged | helapsed
      · exact absurd hchanged (hnone q hqmem)
      · exact Or.inr helapsed
    · exact Or.inr helapsed
  intro name hname
  rw [← keys_aggregateAll hactive.aggregated] at hname
  obtain ⟨p, hp, rfl⟩ := List.mem_map.mp hname
  exact ⟨⟨p.1, p.2, true⟩, List.mem_filter.mpr ⟨hactive.mem_calls hok (hall p hp), rfl⟩, rfl⟩

theorem settled_step {sha : Sha256} {w : World} {inp : Inputs} (hw : Settled w)
    (hreg : Regular sha w inp) : Settled (step sha w inp) := by
  have hpast (name : Text) (t : ℤ) (ht : w.ledger.lastSuccess name = some t) : t ≤ inp.now := by
    obtain ⟨c, hc, hle⟩ := hw.clock name t ht
    exact hle.trans (hreg.1 c hc)
  -- where the status stays, successes are only later than before
  have hkeep (hstatus : (reconcile sha w.status inp).status = w.status) (last : ℤ)
      (hlast : (step sha w inp).status.lastSyncedAt = some last) (name : Text)
      (hname : name ∈ resourceNames) :
      ∃ t, (step sha w inp).ledger.lastSuccess name = some t ∧ last ≤ t := by
    rw [step, hstatus] at hlast
    obtain ⟨t, ht, hle⟩ := hw.times last hlast name hname
    rcases lastSuccess_step sha w inp name with ⟨-, hnow⟩ | ⟨-, hsame⟩
    · exact ⟨inp.now, hnow, hle.trans (hpast name t ht)⟩
    · exact ⟨t, hsame.trans ht, hle⟩
  constructor
  · intro name t ht
    refine ⟨inp.now, rfl, ?_⟩
    rcases lastSuccess_step sha w inp name with ⟨-, hnow⟩ | ⟨-, hsame⟩
    · rw [hnow] at ht
      cases ht
      exact le_rfl
    · exact hpast name t (hsame.symm.trans ht)
  · intro last hlast name hname
    rcases reconcile_cases sha w.status inp with hidle | ⟨dataMaps, hactive⟩
    · exact hkeep hidle.status last hlast name hname
    · rcases hactive.recorded with ⟨hstatus, -⟩ | ⟨hstatus, -, hok⟩
      · exact hkeep hstatus last hlast name hname
      · have hcalled := all_called hreg hactive hok name hname
        rcases lastSuccess_step sha w inp name with ⟨-, hnow⟩ | ⟨hnot, -⟩
        · refine ⟨inp.now, hnow, ?_⟩
          rw [step, hstatus] at hlast
          cases hlast
          exact Int.ediv_mul_le inp.now (by decide)
        · exact absurd hcalled hnot

theorem settled_initial : Settled initialWorld := by
  constructor
  · intro name t ht
    cases ht
  · intro last hlast
    cases hlast

/-! Runs of the examples, in which nothing fails. -/

/-- The last call for a resource in a loop in which nothing fails. -/
theorem last_call_of_true (toSync : List (Text × Data)) {order : List Text} {name : Text}
    (hname : name ∈ order) :
    ((syncLoop (fun _ _ => true) toSync order).reverse.find? fun c => c.resource = name) =
      (toSync.lookup name).map fun d => ⟨name, d, true⟩ := by
  have hok := syncLoop_true_ok toSync order
  cases hlookup : toSync.lookup name with
  | none =>
    rw [Option.map_none, List.find?_eq_none]
    intro c hc hcname
    have hdata := mem_syncLoop (List.mem_reverse.mp hc)
    rw [of_decide_eq_true hcname, hlookup] at hdata
    cases hdata
  | some d =>
    obtain ⟨⟨resource, data, ok⟩, hfound⟩ :=
      find?_last_of_mem SyncCall.resource (mem_syncLoop_of_all_ok hok hname hlookup)
    obtain ⟨hc, rfl⟩ := find?_last_some SyncCall.resource hfound
    have hdata := mem_syncLoop hc
    rw [hlookup] at hdata
    cases hdata
    cases hok _ hc
    exact hfound

/-- What a smooth run leaves of a resource: the new data where it was to be synced, else what there
was. -/
theorem step_smooth (sha : Sha256) (w : World) {rirRefs : List ConfigMapRef}
    {cluster : ConfigMaps} {data : Data} (now : ℤ)
    (h : aggregateDataFromConfigMap cluster rirRefs = .ok data) {toSync : List (Text × Data)}
    (htoSync : resourcesToSync sha (smoothInputs rirRefs cluster now) w.status
      (smoothData data) = toSync) (hne : toSync ≠ []) :
    let w' := step sha w (smoothInputs rirRefs cluster now)
    w'.status.lastSyncedAt = some (storedTime now) ∧ ∀ name ∈ resourceNames,
      (∀ d, toSync.lookup name = some d → w'.ledger.recorded name = some d ∧
        w'.status.syncHash name = computeHash sha d ∧ w'.ledger.lastSuccess name = some now) ∧
      (toSync.lookup name = none → w'.status.syncHash name = w.status.syncHash name ∧
        w'.ledger.lastSuccess name = w.ledger.lastSuccess name) := by
  intro w'
  obtain ⟨order, hperm, hrun⟩ := reconcile_smooth sha w.status now h
  simp only [htoSync, if_neg hne] at hrun
  have hsucceeded : succeeded (reconcile sha w.status (smoothInputs rirRefs cluster now)) =
      syncLoop (fun _ _ => true) toSync order := by
    rw [succeeded, hrun, List.filter_eq_self]
    exact syncLoop_true_ok toSync order
  refine ⟨by simp only [w', step, hrun, recordSync], fun name hname => ?_⟩
  have hcall := last_call_of_true toSync (hperm.mem_iff.mpr hname)
  have hhash : w'.status.syncHash name =
      ((toSync.lookup name).map (computeHash sha)).getD (w.status.syncHash name) := by
    simp only [w', step, hrun, recordSync]
    rw [foldl_update_apply SyncCall.resource (fun c => computeHash sha c.data), hcall,
      Option.map_map]
    rfl
  have hrecorded : w'.ledger.recorded name =
      ((toSync.lookup name).map some).getD (w.ledger.recorded name) := by
    simp only [w', step, Ledger.after, hrun, if_true]
    rw [foldl_update_apply SyncCall.resource (fun c => some c.data), hcall, Option.map_map]
    rfl
  have hlast := lastSuccess_apply sha w (smoothInputs rirRefs cluster now) name
  rw [hsucceeded, hcall, Option.map_map] at hlast
  constructor
  · intro d hlookup
    rw [hlookup] at hhash hrecorded hlast
    exact ⟨hrecorded, hhash, hlast⟩
  · intro hlookup
    rw [hlookup] at hhash hlast
    exact ⟨hhash, hlast⟩

/-- The data of a resource in the examples. -/
def smoothOf (data : Data) (name : Text) : Data := if name = "rir".toList then data else []

theorem lookup_smoothData_of_mem (data : Data) {name : Text} (h : name ∈ resourceNames) :
    (smoothData data).lookup name = some (smoothOf data name) := by
  have hall (names : List Text) (hname : name ∈ names) :
      (names.map fun name => (name, if name = "rir".toList then data else [])).lookup name =
        some (smoothOf data name) := by
    induction names with
    | nil => cases hname
    | cons head names ih =>
      by_cases hhead : name = head
      · subst hhead
        simp [smoothOf]
      · rw [List.map_cons, List.lookup_cons, beq_eq_false_iff_ne.mpr hhead]
        exact ih ((List.mem_cons.mp hname).resolve_left hhead)
  exact hall resourceNames h

def rirInputs (configMap : ConfigMap) (now : ℤ) : Inputs :=
  smoothInputs [configMapRef "a".toList] (configMapsOf [("a".toList, configMap)]) now

/-- The world after a first run with the data. -/
theorem after_first_run (sha : Sha256) {configMap : ConfigMap} {data : Data} (now : ℤ)
    (h : aggregateDataFromConfigMap (configMapsOf [("a".toList, configMap)])
      [configMapRef "a".toList] = .ok data) :
    let w := step sha initialWorld (rirInputs configMap now)
    w.status.lastSyncedAt = some (storedTime now) ∧ ∀ name ∈ resourceNames,
      w.ledger.recorded name = some (smoothOf data name) ∧
      w.status.syncHash name = computeHash sha (smoothOf data name) ∧
      w.ledger.lastSuccess name = some now := by
  unfold rirInputs
  have hne : smoothData data ≠ [] := by simp [smoothData, resourceNames, resources]
  obtain ⟨htime, hall⟩ := step_smooth sha initialWorld now h
    (resourcesToSync_fresh sha _ (smoothData data)) hne
  exact ⟨htime, fun name hname => (hall name hname).1 _ (lookup_smoothData_of_mem data hname)⟩

/-- Nothing is synced while the hashes are the same and the interval has not passed. -/
theorem reconcile_smooth_unchanged (sha : Sha256) (w : World) {configMap : ConfigMap} {data : Data}
    (now last : ℤ) (h : aggregateDataFromConfigMap (configMapsOf [("a".toList, configMap)])
      [configMapRef "a".toList] = .ok data) (hlast : w.status.lastSyncedAt = some last)
    (hnow : now - last < 100 * 10 ^ 9) (hhash : ∀ name ∈ resourceNames,
      w.status.syncHash name = computeHash sha (smoothOf data name)) :
    reconcile sha w.status (rirInputs configMap now) = ⟨w.status, [], .unchanged⟩ := by
  obtain ⟨order, -, hrun⟩ := reconcile_smooth sha w.status now h
  have hnil : resourcesToSync sha (rirInputs configMap now) w.status (smoothData data) = [] := by
    rw [resourcesToSync, List.filter_eq_nil_iff]
    intro p hp hsync
    obtain ⟨name, hname, rfl⟩ := List.mem_map.mp hp
    rcases shouldSync_iff.mp hsync with hchanged | helapsed
    · exact hchanged (hhash name hname).symm
    · have hinterval : 100 * 10 ^ 9 ≤ now - last := helapsed last hlast
      omega
  simp only [rirInputs] at hnil ⊢
  simpa only [hnil, if_true] using hrun

/-- New data of `rir` alone makes it the only resource to sync. -/
theorem resourcesToSync_rir (sha : Sha256) (st : Status) {data data' : Data} (configMap : ConfigMap)
    (now last : ℤ) (hlast : st.lastSyncedAt = some last) (hnow : now - last < 100 * 10 ^ 9)
    (hhash : ∀ name ∈ resourceNames, st.syncHash name = computeHash sha (smoothOf data name))
    (hne : computeHash sha data' ≠ computeHash sha data) :
    resourcesToSync sha (rirInputs configMap now) st (smoothData data') =
      [("rir".toList, data')] := by
  have hcongr : ∀ p ∈ smoothData data',
      shouldSync st.lastSyncedAt (syncInterval (rirInputs configMap now))
        (rirInputs configMap now).now (computeHash sha p.2) (st.syncHash p.1) =
      decide (p.1 = "rir".toList) := by
    intro p hp
    obtain ⟨name, hname, rfl⟩ := List.mem_map.mp hp
    have hlate : ¬∀ t, st.lastSyncedAt = some t → syncInterval (rirInputs configMap now) ≤
        (rirInputs configMap now).now - t := by
      intro helapsed
      have hinterval : 100 * 10 ^ 9 ≤ now - last := helapsed last hlast
      omega
    rw [Bool.eq_iff_iff, shouldSync_iff, decide_eq_true_eq, hhash name hname, or_iff_left hlate]
    by_cases hrir : name = "rir".toList
    · simpa only [smoothOf, hrir, if_true, iff_true] using hne
    · simp only [smoothOf, hrir, if_false, ne_eq, not_true_eq_false]
  rw [resourcesToSync, List.filter_congr hcongr]
  rfl

/-- The world after a run in which only `rir` has new data. -/
theorem after_rir_run (sha : Sha256) (w : World) {configMap : ConfigMap} {data data' : Data}
    (now last : ℤ) (h : aggregateDataFromConfigMap (configMapsOf [("a".toList, configMap)])
      [configMapRef "a".toList] = .ok data') (hlast : w.status.lastSyncedAt = some last)
    (hnow : now - last < 100 * 10 ^ 9) (hhash : ∀ name ∈ resourceNames,
      w.status.syncHash name = computeHash sha (smoothOf data name))
    (hne : computeHash sha data' ≠ computeHash sha data) :
    let w' := step sha w (rirInputs configMap now)
    w'.status.lastSyncedAt = some (storedTime now) ∧
      (∀ name ∈ resourceNames,
        w'.status.syncHash name = computeHash sha (smoothOf data' name)) ∧
      ∀ name ∈ resourceNames, name ≠ "rir".toList →
        w'.ledger.lastSuccess name = w.ledger.lastSuccess name := by
  unfold rirInputs
  obtain ⟨htime, hall⟩ := step_smooth sha w now h
    (resourcesToSync_rir sha w.status configMap now last hlast hnow hhash hne) (by simp)
  have hother (name : Text) (hrir : name ≠ "rir".toList) :
      [("rir".toList, data')].lookup name = none := by
    rw [List.lookup_cons, beq_eq_false_iff_ne.mpr hrir]
    rfl
  refine ⟨htime, fun name hname => ?_, fun name hname hrir => ?_⟩
  · by_cases hrir : name = "rir".toList
    · rw [smoothOf, if_pos hrir]
      exact ((hall name hname).1 data' (by rw [hrir]; exact List.lookup_cons_self)).2.1
    · have hold := hhash name hname
      rw [smoothOf, if_neg hrir] at hold ⊢
      exact ((hall name hname).2 (hother name hrir)).1.trans hold
  · exact ((hall name hname).2 (hother name hrir)).2

theorem aggregate_oneEntry (k v : Text) :
    aggregateDataFromConfigMap (configMapsOf [("a".toList, oneEntry k v)])
      [configMapRef "a".toList] = .ok [(k, v)] := rfl

theorem knownSha_ne : computeHash knownSha [("data".toList, "y".toList)] ≠
    computeHash knownSha [("data".toList, "x".toList)] := by
  decide

/-- A run between two that are an interval apart, in which only `rir` has new data, keeps the last
one from syncing `role`. -/
theorem role_put_off (sha : Sha256) {c₁ c₂ : ConfigMap} {d₁ d₂ : Data} {t₁ t₂ t₃ : ℤ}
    (h₁ : aggregateDataFromConfigMap (configMapsOf [("a".toList, c₁)]) [configMapRef "a".toList] =
      .ok d₁)
    (h₂ : aggregateDataFromConfigMap (configMapsOf [("a".toList, c₂)]) [configMapRef "a".toList] =
      .ok d₂)
    (hne : computeHash sha d₂ ≠ computeHash sha d₁) (htime₂ : t₂ - storedTime t₁ < 100 * 10 ^ 9)
    (htime₃ : t₃ - storedTime t₂ < 100 * 10 ^ 9) (hdue : 100 * 10 ^ 9 ≤ t₃ - t₁) :
    ¬Resyncs sha (step sha (step sha initialWorld (rirInputs c₁ t₁)) (rirInputs c₂ t₂))
      (rirInputs c₂ t₃) := by
  obtain ⟨hlast₁, hall₁⟩ := after_first_run sha t₁ h₁
  generalize step sha initialWorld (rirInputs c₁ t₁) = w₁ at hlast₁ hall₁ ⊢
  obtain ⟨hlast₂, hhash₂, hsuccess₂⟩ := after_rir_run sha w₁ t₂ (storedTime t₁) h₂ hlast₁ htime₂
    (fun name hname => (hall₁ name hname).2.1) hne
  generalize step sha w₁ (rirInputs c₂ t₂) = w₂ at hlast₂ hhash₂ hsuccess₂ ⊢
  have hrun := reconcile_smooth_unchanged sha w₂ t₃ (storedTime t₂) h₂ hlast₂ htime₃ hhash₂
  have hrole : "role".toList ∈ resourceNames := by decide
  have hrir : "role".toList ≠ "rir".toList := by decide
  have hsuccess := (hsuccess₂ "role".toList hrole hrir).trans (hall₁ "role".toList hrole).2.2
  have hrefs : (rirInputs c₂ t₃).configRefs "role".toList = [] := by
    simp only [rirInputs, smoothInputs, if_neg hrir]
  intro hresyncs
  have hcompleted : Completed (reconcile sha w₂.status (rirInputs c₂ t₃)) := by
    rw [hrun]
    exact Or.inl rfl
  have hcall := hresyncs hcompleted "role".toList hrole [] (by rw [hrefs]; rfl)
    (Or.inr ⟨t₁, hsuccess, hdue⟩)
  rw [hrun] at hcall
  cases hcall

theorem storedTime_mul (t : ℤ) : storedTime (t * 10 ^ 9) = t * 10 ^ 9 := by
  rw [storedTime, Int.mul_ediv_cancel t (by decide)]

/-- Two runs with the same data an interval apart are uniform. -/
theorem regular_twice (sha : Sha256) {configMap : ConfigMap} {data : Data} {t₁ t₂ : ℤ}
    (h : aggregateDataFromConfigMap (configMapsOf [("a".toList, configMap)])
      [configMapRef "a".toList] = .ok data) (hle : t₁ ≤ t₂)
    (hdue : 100 * 10 ^ 9 ≤ t₂ - storedTime t₁) :
    Runs.Along (step sha) (Regular sha) initialWorld
      [rirInputs configMap t₁, rirInputs configMap t₂] := by
  have hdata (now : ℤ) {dataMaps : List (Text × Data)}
      (hmaps : aggregateAll (rirInputs configMap now) = .ok dataMaps) :
      dataMaps = smoothData data := by
    have hsmooth := aggregateAll_smooth now h
    rw [← rirInputs, hmaps] at hsmooth
    exact Except.ok.inj hsmooth
  refine ⟨⟨fun t ht => ?_, fun dataMaps _ => ⟨fun p _ d hd => ?_, Or.inl fun p _ => ?_⟩⟩,
    ⟨fun t ht => ?_, fun dataMaps hmaps => ⟨fun p hp d hd hsame => ?_, Or.inr (Or.inr ?_)⟩⟩, trivial⟩
  · cases ht
  · cases hd
  · exact computeHash_ne_nil sha p.2
  · cases ht
    exact hle
  · obtain ⟨-, hall⟩ := after_first_run sha t₁ h
    rw [hdata t₂ hmaps] at hp
    obtain ⟨name, hname, rfl⟩ := List.mem_map.mp hp
    rw [(hall name hname).1] at hd
    cases hd
    exact absurd (fun k => rfl) hsame
  · obtain ⟨hlast₁, -⟩ := after_first_run sha t₁ h
    intro last hlast
    rw [hlast₁] at hlast
    cases hlast
    exact hdue

/-- In every sequence of runs the recorded hashes are those of data whose sync succeeded; and in
every sequence of uniform runs at increasing times each run that completes syncs every resource
that is due. -/
theorem resynced_of_uniform_runs (sha : Sha256) (runs : List Inputs) :
    (∀ pre, pre <+: runs → ∀ name,
      HashOfSuccess sha (pre.foldl (step sha) initialWorld) name) ∧
    (Runs.Along (step sha) (Regular sha) initialWorld runs → ∀ pre inp, pre ++ [inp] <+: runs →
      Resyncs sha (pre.foldl (step sha) initialWorld) inp) := by
  have hhash (pre : List Inputs) :
      ∀ name, HashOfSuccess sha (pre.foldl (step sha) initialWorld) name := by
    induction pre using List.reverseRecOn with
    | nil => exact fun name => Or.inl ⟨rfl, rfl⟩
    | append_singleton pre inp ih =>
      rw [List.foldl_append]
      exact hashOfSuccess_step ih inp
  refine ⟨fun pre _ => hhash pre, fun hruns pre inp hpre => ?_⟩
  have hsettled : Settled (pre.foldl (step sha) initialWorld) :=
    hruns.invariant (fun w inp hw hreg => settled_step hw hreg) settled_initial
      ((List.prefix_append pre [inp]).trans hpre)
  exact resyncs_of_settled hsettled (hhash pre) (hruns.condition hpre)

theorem resynced_of_uniform_runs_twice :
    let first := rirInputs (oneEntry "data".toList "x".toList) (0 * 10 ^ 9)
    let second := rirInputs (oneEntry "data".toList "x".toList) (100 * 10 ^ 9)
    Runs.Along (step knownSha) (Regular knownSha) initialWorld [first, second] ∧
      Resyncs knownSha (step knownSha initialWorld first) second := by
  intro first second
  have hruns : Runs.Along (step knownSha) (Regular knownSha) initialWorld [first, second] :=
    regular_twice knownSha (aggregate_oneEntry "data".toList "x".toList) (by norm_num)
      (by rw [storedTime_mul]; norm_num)
  exact ⟨hruns, (resynced_of_uniform_runs knownSha [first, second]).2 hruns [first] second
    List.prefix_rfl⟩

/-- `role` was synced at the start, `rir` again after half of the interval; at its end a run
completes without syncing `role`. -/
theorem resync_put_off :
    ¬Resyncs knownSha
      ([rirInputs (oneEntry "data".toList "x".toList) (0 * 10 ^ 9),
        rirInputs (oneEntry "data".toList "y".toList) (50 * 10 ^ 9)].foldl
          (step knownSha) initialWorld)
      (rirInputs (oneEntry "data".toList "y".toList) (100 * 10 ^ 9)) := by
  rw [List.foldl_cons, List.foldl_cons, List.foldl_nil]
  apply role_put_off knownSha (aggregate_oneEntry "data".toList "x".toList)
    (aggregate_oneEntry "data".toList "y".toList) knownSha_ne
  · rw [storedTime_mul]
    norm_num
  · rw [storedTime_mul]
    norm_num
  · norm_num

end Understack.Nautobotop.Reconcile
