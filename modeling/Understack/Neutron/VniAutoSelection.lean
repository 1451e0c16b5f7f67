import Mathlib.Order.Bounds.Basic
import Understack.Neutron.VniAllocation
import Understack.Neutron.VniCanonical

/-! Which VNI an automatic allocation takes from an arbitrary table. -/
namespace Understack.Neutron.Vni
open PyText Intervals

/-- The configured VNIs that no row of the table carries. -/
def neverUsed (vniRanges : List Text) (t : Table) : Set ℤ :=
  {v | Configured vniRanges v ∧ v ∉ t.map Allocation.vni}

def ReleasedInRange (vniRanges : List Text) (t : Table) (a : Allocation) : Prop :=
  a ∈ t ∧ a.routerId = none ∧ Configured vniRanges a.vni

/-- Minimal by `(released_at, vni)`. -/
def FirstReleased (vniRanges : List Text) (t : Table) (a : Allocation) : Prop :=
  ReleasedInRange vniRanges t a ∧ ∀ b, ReleasedInRange vniRanges t b → releasedLe a b = true

theorem scanRange_below {stop candidate vni : ℤ} {rows : List ℤ}
    (h : scanRange stop candidate rows = some vni) :
    ∀ w, candidate ≤ w → w < vni → w ∈ rows := by
  induction rows generalizing candidate with
  | nil =>
    simp only [scanRange, Option.ite_none_right_eq_some, Option.some.injEq] at h
    omega
  | cons v rows ih =>
    intro w hw hlt
    simp only [scanRange] at h
    split at h
    · obtain rfl := Option.some.inj h
      omega
    · obtain ⟨-, h⟩ := Option.ite_none_left_eq_some.mp h
      -- the candidate moves past the row only when the row is the candidate
      by_cases hwv : w = v
      · exact hwv ▸ List.mem_cons_self
      · refine List.mem_cons_of_mem v (ih h w ?_ hlt)
        split <;> omega

theorem scanRange_none {stop candidate : ℤ} {rows : List ℤ}
    (h : scanRange stop candidate rows = none) : ∀ w, candidate ≤ w → w ≤ stop → w ∈ rows := by
  induction rows generalizing candidate with
  | nil =>
    simp only [scanRange, ite_eq_right_iff, reduceCtorEq, imp_false] at h
    omega
  | cons v rows ih =>
    intro w hw hle
    simp only [scanRange] at h
    split at h
    · cases h
    · by_cases hwv : w = v
      · exact hwv ▸ List.mem_cons_self
      · generalize hnext : (if v = candidate then candidate + 1 else candidate) = next at h
        have hw' : next ≤ w := by split at hnext <;> omega
        split at h
        · omega
        · exact List.mem_cons_of_mem v (ih h w hw' hle)

theorem findNeverUsedVni_none {t : Table} {ranges : List Interval}
    (h : findNeverUsedVni t ranges = none) {v : ℤ} (hv : Covers ranges v) :
    v ∈ t.map Allocation.vni := by
  induction ranges with
  | nil => exact absurd hv (covers_nil v)
  | cons r ranges ih =>
    simp only [findNeverUsedVni] at h
    split at h
    · cases h
    next hscan =>
      rcases covers_cons.mp hv with ⟨h1, h2⟩ | hv
      · exact (mem_rowsBetween.mp (scanRange_none hscan v h1 h2)).1
      · exact ih h hv

/-- In canonical ranges the first hit is the least one. -/
theorem findNeverUsedVni_le {t : Table} {ranges : List Interval} (hc : Canonical ranges) {vni : ℤ}
    (h : findNeverUsedVni t ranges = some vni) {v : ℤ} (hv : Covers ranges v)
    (hfree : v ∉ t.map Allocation.vni) : vni ≤ v := by
  induction ranges with
  | nil => exact absurd hv (covers_nil v)
  | cons r ranges ih =>
    simp only [findNeverUsedVni] at h
    split at h
    next candidate hscan =>
      obtain rfl := Option.some.inj h
      obtain ⟨-, hstop, -⟩ := scanRange_spec (List.pairwise_insertionSort _ _)
        (fun v hv => (mem_rowsBetween.mp hv).2.2) hscan
      rcases covers_cons.mp hv with ⟨h1, -⟩ | hv
      · by_contra hlt
        exact hfree (mem_rowsBetween.mp (scanRange_below hscan v h1 (not_le.mp hlt))).1
      · -- the later ranges lie beyond the one that was scanned
        have := hc.lt_of_covers hv
        omega
    next hscan =>
      rcases covers_cons.mp hv with ⟨h1, h2⟩ | hv
      · exact absurd (mem_rowsBetween.mp (scanRange_none hscan v h1 h2)).1 hfree
      · exact ih hc.tail h hv

theorem releasedLe_total (a b : Allocation) : releasedLe a b = true ∨ releasedLe b a = true := by
  unfold releasedLe
  cases a.releasedAt <;> cases b.releasedAt <;> simp <;> omega

theorem releasedLe_trans {a b c : Allocation} (hab : releasedLe a b = true)
    (hbc : releasedLe b c = true) : releasedLe a c = true := by
  revert hab hbc
  unfold releasedLe
  cases a.releasedAt <;> cases b.releasedAt <;> cases c.releasedAt <;> simp <;> omega

theorem vni_eq_of_releasedLe {a b : Allocation} (hab : releasedLe a b = true)
    (hba : releasedLe b a = true) : a.vni = b.vni := by
  revert hab hba
  unfold releasedLe
  cases a.releasedAt <;> cases b.releasedAt <;> simp <;> omega

theorem findReleasedAllocation_le {t : Table} {ranges : List Interval} {a b : Allocation}
    (h : findReleasedAllocation t ranges = some a) (hb : b ∈ t) (hr : b.routerId = none)
    (hc : Covers ranges b.vni) : releasedLe a b = true := by
  have htotal : Std.Total fun a b => releasedLe a b = true := ⟨releasedLe_total⟩
  have htrans : IsTrans Allocation fun a b => releasedLe a b = true :=
    ⟨fun _ _ _ => releasedLe_trans⟩
  have hself : releasedLe a a = true := (releasedLe_total a a).elim id id
  unfold findReleasedAllocation at h
  have hsorted := List.pairwise_insertionSort (fun a b => releasedLe a b = true)
    (t.filter fun a => a.routerId = none ∧ Covers ranges a.vni)
  obtain ⟨rest, hrest⟩ := List.head?_eq_some_iff.mp h
  rw [hrest] at hsorted
  have hmem : b ∈ a :: rest := by
    rw [← hrest, List.mem_insertionSort, List.mem_filter]
    exact ⟨hb, by simp [hr, hc]⟩
  rcases List.mem_cons.mp hmem with rfl | hmem
  · exact hself
  · exact (List.pairwise_cons.mp hsorted).1 b hmem

theorem firstReleased_of_find {vniRanges : List Text} {t : Table} {ranges : List Interval}
    {a : Allocation} (hp : parseVniRanges vniRanges = .ok ranges)
    (h : findReleasedAllocation t ranges = some a) : FirstReleased vniRanges t a := by
  obtain ⟨ham, har, hac⟩ := findReleasedAllocation_spec h
  refine ⟨⟨ham, har, (covers_parseVniRanges hp).mp hac⟩, fun b ⟨hbm, hbr, hbc⟩ => ?_⟩
  exact findReleasedAllocation_le h hbm hbr ((covers_parseVniRanges hp).mpr hbc)

theorem not_released_of_find {vniRanges : List Text} {t : Table} {ranges : List Interval}
    (hp : parseVniRanges vniRanges = .ok ranges) (h : findReleasedAllocation t ranges = none)
    (a : Allocation) : ¬ ReleasedInRange vniRanges t a := by
  rintro ⟨ha, hr, hc⟩
  have hmem : a ∈ (t.filter fun a => a.routerId = none ∧ Covers ranges a.vni).insertionSort
      fun a b => releasedLe a b = true := by
    rw [List.mem_insertionSort, List.mem_filter]
    exact ⟨ha, by simp [hr, (covers_parseVniRanges hp).mpr hc]⟩
  rw [List.head?_eq_none_iff.mp h] at hmem
  cases hmem

theorem FirstReleased.unique {vniRanges : List Text} {t : Table} {a b : Allocation}
    (ht : (t.map Allocation.vni).Nodup) (ha : FirstReleased vniRanges t a)
    (hb : FirstReleased vniRanges t b) : b = a :=
  List.inj_on_of_nodup_map ht hb.1.1 ha.1.1 (vni_eq_of_releasedLe (hb.2 a ha.1) (ha.2 b hb.1))

theorem getRouterAllocation_eq_none {t : Table} {routerId : RouterId}
    (h : ∀ v, ¬ Holds t routerId v) : getRouterAllocation t routerId = none :=
  List.find?_eq_none.mpr fun a ha hr => h a.vni ⟨a, ha, rfl, by simpa using hr⟩

theorem allocateVniForRouter_auto {vniRanges : List Text} {t : Table} {routerId : RouterId}
    {requested : RequestedVni} {ranges : List Interval}
    (hp : parseVniRanges vniRanges = .ok ranges) (hr : ∀ v, ¬ Holds t routerId v)
    (ha : isAutoVni requested = true) :
    allocateVniForRouter vniRanges t routerId requested = allocateAutoVni t routerId ranges := by
  simp only [allocateVniForRouter, hp, getRouterAllocation_eq_none hr, if_pos ha]

theorem allocateAutoVni_exact {vniRanges : List Text} {t : Table} {routerId : RouterId}
    {requested : RequestedVni} {ranges : List Interval}
    (hp : parseVniRanges vniRanges = .ok ranges) (ht : (t.map Allocation.vni).Nodup)
    (hr : ∀ v, ¬ Holds t routerId v) (ha : isAutoVni requested = true) :
    ((neverUsed vniRanges t).Nonempty → ∃ v, IsLeast (neverUsed vniRanges t) v ∧
      allocateVniForRouter vniRanges t routerId requested = (insert t v routerId, .ok v)) ∧
    (neverUsed vniRanges t = ∅ → (∃ a, ReleasedInRange vniRanges t a) →
      ∃ a, FirstReleased vniRanges t a ∧ (∀ b, FirstReleased vniRanges t b → b = a) ∧
        allocateVniForRouter vniRanges t routerId requested =
          (assign t a.vni (some routerId) none, .ok a.vni)) ∧
    ((∃ text, (allocateVniForRouter vniRanges t routerId requested).2 =
        .error (.noAvailable text)) ↔
      ∀ v, Configured vniRanges v → ∃ r, Holds t r v) := by
  have hcovers {v : ℤ} : Covers ranges v ↔ Configured vniRanges v := covers_parseVniRanges hp
  have hcanon := (canonicalRanges_parseVniRanges hp).canonical
  rw [allocateVniForRouter_auto hp hr ha]
  unfold allocateAutoVni
  cases hn : findNeverUsedVni t ranges with
  | some vni =>
    obtain ⟨hc, hfree⟩ := findNeverUsedVni_spec hn
    have hmem : vni ∈ neverUsed vniRanges t := ⟨hcovers.mp hc, hfree⟩
    refine ⟨fun _ => ⟨vni, ⟨hmem, fun v hv => ?_⟩, rfl⟩, fun hempty => ?_, by simp, fun h => ?_⟩
    · exact findNeverUsedVni_le hcanon hn (hcovers.mpr hv.1) hv.2
    · exact absurd (hempty ▸ hmem) (Set.notMem_empty vni)
    · obtain ⟨r, a, ham, hav, -⟩ := h vni hmem.1
      exact absurd (List.mem_map.mpr ⟨a, ham, hav⟩) hfree
  | none =>
    have hused {v : ℤ} (hv : Configured vniRanges v) : v ∈ t.map Allocation.vni :=
      findNeverUsedVni_none hn (hcovers.mpr hv)
    have hempty : ¬ (neverUsed vniRanges t).Nonempty := fun ⟨v, hv, hfree⟩ => hfree (hused hv)
    cases hrel : findReleasedAllocation t ranges with
    | some a =>
      have hfirst := firstReleased_of_find hp hrel
      refine ⟨fun h => absurd h hempty, fun _ _ => ?_, by simp, fun h => ?_⟩
      · exact ⟨a, hfirst, fun b hb => hfirst.unique ht hb, rfl⟩
      · -- the row that holds the VNI would be the released one, since VNIs are distinct
        obtain ⟨r, b, hbm, hbv, hbr⟩ := h a.vni hfirst.1.2.2
        have hab : b = a := List.inj_on_of_nodup_map ht hbm hfirst.1.1 hbv
        rw [hab, hfirst.1.2.1] at hbr
        cases hbr
    | none =>
      have hnone := not_released_of_find hp hrel
      refine ⟨fun h => absurd h hempty, fun _ ⟨a, ha⟩ => absurd ha (hnone a), fun _ v hv => ?_,
        fun _ => ⟨_, rfl⟩⟩
      obtain ⟨a, ham, hav⟩ := List.mem_map.mp (hused hv)
      cases har : a.routerId with
      | none => exact absurd ⟨ham, har, hav ▸ hv⟩ (hnone a)
      | some r => exact ⟨r, a, ham, hav, har⟩

/-- A gap inside the first range, with a row outside the ranges. -/
theorem allocateAutoVni_exact_gap :
    ∃ v, IsLeast (neverUsed ["20".toList, "10:12".toList]
        [⟨12, none, some 7⟩, ⟨10, some "r1", none⟩, ⟨99, some "r2", none⟩]) v ∧
      allocateVniForRouter ["20".toList, "10:12".toList]
        [⟨12, none, some 7⟩, ⟨10, some "r1", none⟩, ⟨99, some "r2", none⟩] "r9" .null =
        (insert [⟨12, none, some 7⟩, ⟨10, some "r1", none⟩, ⟨99, some "r2", none⟩] v "r9", .ok v) := by
  have hp : parseVniRanges ["20".toList, "10:12".toList] = .ok [(10, 12), (20, 20)] := by
    decide +kernel
  have hfree : (11 : ℤ) ∈ neverUsed ["20".toList, "10:12".toList]
      [⟨12, none, some 7⟩, ⟨10, some "r1", none⟩, ⟨99, some "r2", none⟩] :=
    ⟨(covers_parseVniRanges hp).mp (by decide), by decide⟩
  exact (allocateAutoVni_exact hp (by decide) (by simp [Holds]) rfl).1 ⟨11, hfree⟩

end Understack.Neutron.Vni
