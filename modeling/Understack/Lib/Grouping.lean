import Understack.Lib.Json
import Understack.Lib.PySets

/-! Grouping by a key: a dictionary from each key to the list of the elements that have it. -/
namespace Grouping

variable {α κ : Type} [DecidableEq κ] {key : α → κ}

/-- `d.setdefault(key(x), []).append(x)`. -/
def add (key : α → κ) (groups : List (κ × List α)) (x : α) : List (κ × List α) :=
  PyDict.put (key x) ((groups.lookup (key x)).getD [] ++ [x]) groups

def group (key : α → κ) (xs : List α) : List (κ × List α) := xs.foldl (add key) []

/-- The groups hold the elements seen so far, in their order, and no group is empty. -/
structure Grouped (key : α → κ) (xs : List α) (groups : List (κ × List α)) : Prop where
  keys : (groups.map Prod.fst).Nodup
  members : ∀ k, (groups.lookup k).getD [] = xs.filter fun x => key x = k
  nonempty : ∀ g ∈ groups, g.2 ≠ []

theorem Grouped.add {xs : List α} {groups : List (κ × List α)} (h : Grouped key xs groups)
    (x : α) : Grouped key (xs ++ [x]) (add key groups x) where
  keys := PyDict.nodup_keys_put _ _ h.keys
  members k := by
    rw [List.filter_append, ← h.members k, Grouping.add]
    by_cases hk : k = key x
    · subst hk
      simp
    · rw [PyDict.lookup_put_of_ne _ _ hk]
      simp [Ne.symm hk]
  nonempty g hg := by
    rcases PyDict.mem_put hg with rfl | hg
    · simp
    · exact h.nonempty g hg

theorem grouped_group (key : α → κ) (xs : List α) : Grouped key xs (group key xs) := by
  have run (rest done : List α) (groups : List (κ × List α)) (h : Grouped key done groups) :
      Grouped key (done ++ rest) (rest.foldl (add key) groups) := by
    induction rest generalizing done groups with
    | nil => simpa using h
    | cons x rest ih =>
      have := ih _ _ (h.add x)
      simpa using this
  exact run xs [] [] ⟨by simp, by simp, by simp⟩

theorem Grouped.snd_eq {xs : List α} {groups : List (κ × List α)} (h : Grouped key xs groups)
    {g : κ × List α} (hg : g ∈ groups) : g.2 = xs.filter fun x => key x = g.1 := by
  rw [← h.members g.1, PyDict.lookup_of_mem h.keys hg]
  rfl

theorem Grouped.mem_keys {xs : List α} {groups : List (κ × List α)} (h : Grouped key xs groups)
    {k : κ} : k ∈ groups.map Prod.fst ↔ k ∈ xs.map key := by
  constructor
  · intro hk
    obtain ⟨g, hg, rfl⟩ := List.mem_map.mp hk
    obtain ⟨x, hx⟩ := List.exists_mem_of_ne_nil g.2 (h.nonempty g hg)
    rw [h.snd_eq hg, List.mem_filter, decide_eq_true_eq] at hx
    exact List.mem_map.mpr ⟨x, hx⟩
  · intro hk
    obtain ⟨x, hx, rfl⟩ := List.mem_map.mp hk
    have hmem : x ∈ (groups.lookup (key x)).getD [] := by
      rw [h.members]
      simp [hx]
    cases hl : groups.lookup (key x) with
    | none => simp [hl] at hmem
    | some members => exact List.mem_map.mpr ⟨_, PyDict.mem_of_lookup hl, rfl⟩

/-- `sorted(d.items())`: the keys are distinct, so that the lists are never compared. -/
def sortedItems [LinearOrder κ] (groups : List (κ × List α)) : List (κ × List α) :=
  groups.insertionSort fun a b => a.1 ≤ b.1

/-- One group for each key, in the order of the keys. -/
theorem sortedItems_group [LinearOrder κ] (key : α → κ) (xs : List α) :
    sortedItems (group key xs) =
      ((xs.map key).toFinset.sort (· ≤ ·)).map fun k => (k, xs.filter fun x => key x = k) := by
  have h := grouped_group key xs
  have hkeys : (sortedItems (group key xs)).map Prod.fst =
      (xs.map key).toFinset.sort (· ≤ ·) := by
    have hsorted : (sortedItems (group key xs)).map Prod.fst =
        PySets.sorted ((group key xs).map Prod.fst) :=
      List.map_insertionSort (fun a b => a.1 ≤ b.1) (· ≤ ·) Prod.fst _ fun _ _ _ _ => Iff.rfl
    rw [hsorted, ← h.keys.dedup, PySets.sorted_dedup]
    congr 1
    ext k
    simp only [List.mem_toFinset]
    exact h.mem_keys
  rw [← hkeys, List.map_map]
  refine (List.map_id _).symm.trans (List.map_congr_left fun g hg => ?_)
  exact Prod.ext rfl (h.snd_eq ((List.mem_insertionSort _).mp hg))

end Grouping
