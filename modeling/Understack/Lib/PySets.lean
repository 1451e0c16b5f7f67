import Understack.Lib.Runs
import Mathlib.Data.Finset.Sort
import Mathlib.Data.List.Lex

/-! Sets built by a comprehension, as lists whose order carries no meaning, and `sorted` on
them. A comprehension whose element may raise is a `mapM`. -/
namespace PySets
open Runs

variable {ε α β : Type}

/-- `{f(x) for x in xs}`. -/
def collect [DecidableEq β] (f : α → Except ε β) (xs : List α) : Except ε (List β) := do
  let ys ← xs.mapM f
  return ys.dedup

/-- `sorted(s)`. -/
def sorted [LinearOrder β] (s : List β) : List β := s.insertionSort (· ≤ ·)

theorem mapM_eq_ok {f : α → Except ε β} {g : α → β} {xs : List α}
    (h : ∀ x ∈ xs, f x = .ok (g x)) : xs.mapM f = .ok (xs.map g) := by
  induction xs with
  | nil => rfl
  | cons x xs ih =>
    rw [List.mapM_cons, h x (by simp), ih fun y hy => h y (by simp [hy])]
    rfl

theorem mapM_isOk {f : α → Except ε β} {xs : List α} {ys : List β} (h : xs.mapM f = .ok ys) :
    ∀ x ∈ xs, ∃ y, f x = .ok y := by
  induction xs generalizing ys with
  | nil => simp
  | cons x xs ih =>
    rw [List.mapM_cons] at h
    obtain ⟨y, hy, h⟩ := bind_eq_ok h
    obtain ⟨rest, hrest, -⟩ := bind_eq_ok h
    intro z hz
    rcases List.mem_cons.mp hz with rfl | hz
    · exact ⟨y, hy⟩
    · exact ih hrest z hz

theorem mapM_eq_ok_iff {f : α → Except ε β} {xs : List α} {ys : List β} :
    xs.mapM f = .ok ys ↔ xs.map f = ys.map .ok := by
  induction xs generalizing ys with
  | nil => cases ys <;> simp [pure, Except.pure]
  | cons x xs ih =>
    rw [List.mapM_cons]
    constructor
    · intro h
      obtain ⟨y, hy, h⟩ := bind_eq_ok h
      obtain ⟨rest, hrest, h⟩ := bind_eq_ok h
      cases h
      rw [List.map_cons, List.map_cons, hy, ih.mp hrest]
    · intro h
      cases ys with
      | nil => cases h
      | cons y rest =>
        obtain ⟨hy, hrest⟩ := List.cons.inj h
        rw [hy, ih.mpr hrest]
        rfl

theorem mapM_perm {f : α → Except ε β} {xs xs' : List α} {ys : List β} (h : xs.mapM f = .ok ys)
    (hperm : xs'.Perm xs) : ∃ ys', xs'.mapM f = .ok ys' ∧ ys'.Perm ys := by
  obtain ⟨ys', hys'⟩ := mapM_returns fun x hx => mapM_isOk h x (hperm.mem_iff.mp hx)
  use ys', hys'
  have hmap := hperm.map f
  rw [mapM_eq_ok_iff.mp h, mapM_eq_ok_iff.mp hys'] at hmap
  exact (List.map_perm_map_iff (fun _ _ => Except.ok.inj)).mp hmap

variable [DecidableEq β]

theorem collect_eq_ok {f : α → Except ε β} {g : α → β} {xs : List α}
    (h : ∀ x ∈ xs, f x = .ok (g x)) : collect f xs = .ok (xs.map g).dedup := by
  simp only [collect, mapM_eq_ok h]
  rfl

theorem collect_isOk {f : α → Except ε β} {xs : List α} {ys : List β} (h : collect f xs = .ok ys) :
    ∀ x ∈ xs, ∃ y, f x = .ok y := by
  obtain ⟨values, hvalues, -⟩ := bind_eq_ok h
  exact mapM_isOk hvalues

theorem mem_collect {f : α → Except ε β} {xs : List α} {ys : List β} (h : collect f xs = .ok ys)
    {y : β} : y ∈ ys ↔ ∃ x ∈ xs, f x = .ok y := by
  obtain ⟨values, hvalues, h⟩ := bind_eq_ok h
  cases h
  rw [List.mem_dedup]
  refine ⟨mem_of_mapM_ok hvalues, fun ⟨x, hx, hy⟩ => ?_⟩
  obtain ⟨y', hy', hx'⟩ := exists_of_mapM_ok hvalues hx
  cases hy.symm.trans hx'
  exact hy'

theorem collect_returns {f : α → Except ε β} {xs : List α} (h : ∀ x ∈ xs, ∃ y, f x = .ok y) :
    ∃ ys, collect f xs = .ok ys := by
  obtain ⟨values, hvalues⟩ := mapM_returns h
  exact ⟨values.dedup, by simp only [collect, hvalues]; rfl⟩

/-- The number of elements of a comprehension. -/
theorem length_dedup (xs : List β) : xs.dedup.length = xs.toFinset.card := by
  rw [List.card_toFinset]

theorem sorted_dedup [LinearOrder β] (xs : List β) :
    sorted xs.dedup = xs.toFinset.sort (· ≤ ·) := by
  have hnd : (sorted xs.dedup).Nodup := ((List.perm_insertionSort _ _).nodup_iff).mpr
    (List.nodup_dedup xs)
  have hset : (sorted xs.dedup).toFinset = xs.toFinset := by
    ext a
    simp [sorted]
  rw [← hset]
  exact ((List.toFinset_sort _ hnd).mpr (List.pairwise_insertionSort _ _)).symm

end PySets
