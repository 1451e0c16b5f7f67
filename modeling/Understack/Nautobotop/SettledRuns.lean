import Understack.Nautobotop.RemovalRuns

/-! What a Reconcile that reports success leaves to the next ones: the hashes of all data are on
record, and until the interval has elapsed no run on the same data does anything. -/
namespace Understack.Nautobotop.Inventory
open PyText Reconcile

variable {A : Type} {dec : Decoder A} {dataMaps : List (Text × Data)} {s : Nautobot A}
  {sha : Sha256} {st : Status}

theorem hashes_of_synced {inp : Inputs} (haggregated : aggregateAll inp = .ok dataMaps)
    (h : (Reconcile.reconcile sha st inp).outcome = .synced) :
    ∀ p ∈ dataMaps, (Reconcile.reconcile sha st inp).status.syncHash p.1 = computeHash sha p.2 := by
  intro p hp
  rcases reconcile_cases sha st inp with hidle | ⟨dataMaps', hactive⟩
  · exact (hidle.outcome h).elim
  have hdata : dataMaps' = dataMaps := Except.ok.inj (hactive.aggregated.symm.trans haggregated)
  subst hdata
  rcases hactive.recorded with ⟨-, stage, hfailed⟩ | ⟨hstatus, -, hok⟩
  · rw [hfailed] at h
    cases h
  rw [hstatus, recordSync]
  dsimp only
  rw [foldl_update_apply SyncCall.resource fun c => computeHash sha c.data]
  cases hfind : (Reconcile.reconcile sha st inp).calls.reverse.find? fun c => c.resource = p.1 with
  | some c =>
    obtain ⟨hc, hname⟩ := find?_last_some SyncCall.resource hfind
    rw [hactive.calls] at hc
    have hmem := (List.mem_filter.mp (PyDict.mem_of_lookup (mem_syncLoop hc))).1
    have hnodup : (dataMaps'.map Prod.fst).Nodup := by
      rw [keys_aggregateAll haggregated]
      exact resourceNames_nodup
    have heq : p.2 = c.data :=
      Option.some.inj ((PyDict.lookup_of_mem hnodup hp).symm.trans
        (hname ▸ PyDict.lookup_of_mem hnodup hmem))
    rw [Option.map_some, Option.getD_some, heq]
  | none =>
    -- it was not due, and so its hash is on record already
    rw [Option.map_none, Option.getD_none]
    by_contra hne
    have hdue : p ∈ resourcesToSync sha inp st dataMaps' :=
      List.mem_filter.mpr ⟨hp, shouldSync_iff.mpr (Or.inl (Ne.symm hne))⟩
    obtain ⟨d, hd⟩ := find?_last_of_mem SyncCall.resource (hactive.mem_calls hok hdue)
    rw [hfind] at hd
    cases hd

/-- A run within the interval of the last one, with the data that it recorded. -/
structure Early (dataMaps : List (Text × Data)) (st : Status) (run : Run A) : Prop where
  aggregated : aggregateAll run.inputs = .ok dataMaps
  interval : ∃ t, st.lastSyncedAt = some t ∧ run.inputs.now - t < syncInterval run.inputs

/-- Such runs find nothing to do. -/
theorem reconcileAll_of_early (hhashes : ∀ p ∈ dataMaps, st.syncHash p.1 = computeHash sha p.2)
    {runs : List (Run A)} (hruns : ∀ run ∈ runs, Early dataMaps st run) :
    reconcileAll sha dec runs st s = some (st, s) := by
  induction runs with
  | nil => rfl
  | cons run runs ih =>
    obtain ⟨haggregated, last, hlast, hinterval⟩ := hruns run List.mem_cons_self
    have hnone : resourcesToSync sha run.inputs st dataMaps = [] := by
      refine List.filter_eq_nil_iff.mpr fun p hp hdue => ?_
      rcases shouldSync_iff.mp hdue with hchanged | helapsed
      · exact hchanged (hhashes p hp).symm
      · have hle := helapsed last hlast
        omega
    have hidle (f : Text → Data → Bool) :
        Idle sha st (withSyncFunc run.inputs f)
          (Reconcile.reconcile sha st (withSyncFunc run.inputs f)) := by
      rcases reconcile_cases sha st (withSyncFunc run.inputs f) with hidle | ⟨dataMaps', hactive⟩
      · exact hidle
      · have hdata : dataMaps' = dataMaps :=
          Except.ok.inj (hactive.aggregated.symm.trans haggregated)
        exact (hactive.nonempty (hdata ▸ hnone)).elim
    have hrun : reconcile sha dec st s run =
        some (Reconcile.reconcile sha st (withSyncFunc run.inputs fun name _ => some name ≠ none),
          s) := by
      unfold reconcile
      dsimp only
      rw [(hidle _).calls]
      rfl
    rw [reconcileAll, hrun, Option.bind_some]
    dsimp only
    rw [(hidle _).status]
    exact ih fun r hr => hruns r (List.mem_cons_of_mem run hr)

end Understack.Nautobotop.Inventory
