import Understack.Lib.Intervals
import Understack.Lib.PyText

/-! The VLAN ids that a tenant may map on a switch (`utils.py`): the default range less the
shared segment ranges, as the trunk driver checks them for new subports. -/
namespace Understack.Neutron.VlanRanges
open Intervals PyText

structure NetworkSegmentRange where
  networkType : String
  shared : Bool
  minimum : ℤ
  maximum : ℤ
  deriving DecidableEq, Repr

/-- `NetworkSegmentRange.get_objects(context, network_type="vlan", shared=True)`. -/
def fetchVlanNetworkSegmentRanges (objects : List NetworkSegmentRange) :
    List NetworkSegmentRange :=
  objects.filter fun vr => vr.networkType = "vlan" ∧ vr.shared

/-- One turn of the loop of `merge_overlapped_ranges`: `merged[-1][1]` is assigned in place. -/
def overlapStep (merged : List Interval) (r : Interval) : List Interval :=
  match merged.getLast? with
  | none => merged ++ [r]
  | some last =>
    if r.1 > last.2 + 1 then merged ++ [r]
    else merged.dropLast ++ [(last.1, max last.2 r.2)]

def mergeOverlappedRanges (ranges : List Interval) : List Interval :=
  (sorted ranges).foldl overlapStep []

/-- The loop of `fetch_gaps_in_ranges` with its `prev_end`, and the gap after the loop. -/
def gapsFrom (stop : ℤ) : ℤ → List Interval → List Interval
  | prevEnd, [] => if prevEnd < stop then [(prevEnd + 1, stop)] else []
  | prevEnd, r :: ranges =>
    (if r.1 > prevEnd + 1 then [(prevEnd + 1, r.1 - 1)] else []) ++ gapsFrom stop r.2 ranges

def fetchGapsInRanges (ranges : List Interval) (defaultRange : Interval) : List Interval :=
  gapsFrom defaultRange.2 (defaultRange.1 - 1) ranges

def segmentationIdInRanges (segmentationId : ℤ) (ranges : List Interval) : Bool :=
  ranges.any fun r => r.1 ≤ segmentationId ∧ segmentationId ≤ r.2

/-- `(vr.minimum, vr.maximum)` of the fetched ranges. -/
def allVlanRanges (objects : List NetworkSegmentRange) : List Interval :=
  (fetchVlanNetworkSegmentRanges objects).map fun vr => (vr.minimum, vr.maximum)

def allowedTenantVlanIdRanges (objects : List NetworkSegmentRange) (defaultRange : Interval) :
    List Interval :=
  fetchGapsInRanges (mergeOverlappedRanges (allVlanRanges objects)) defaultRange

def printableRanges (ranges : List Interval) : Text :=
  join ',' (ranges.map fun r => if r.1 ≠ r.2 then ofInt r.1 ++ '-' :: ofInt r.2 else ofInt r.1)

structure SubPort where
  portId : String
  segmentationId : ℤ
  deriving DecidableEq, Repr

structure SubportSegmentationIDError where
  segId : ℤ
  subportId : String
  networkSegmentRanges : Text
  deriving DecidableEq, Repr

/-- The loop of `_check_subports_segmentation_id` over the ranges it has read. -/
def checkSubports (nsRanges : List Interval) :
    List SubPort → Except SubportSegmentationIDError Unit
  | [] => .ok ()
  | subport :: subports =>
    if segmentationIdInRanges subport.segmentationId nsRanges then checkSubports nsRanges subports
    else .error {
      segId := subport.segmentationId
      subportId := subport.portId
      networkSegmentRanges := printableRanges nsRanges }

def checkSubportsSegmentationId (networkNodeTrunkId : String) (objects : List NetworkSegmentRange)
    (defaultRange : Interval) (subports : List SubPort) (trunkId : String) :
    Except SubportSegmentationIDError Unit :=
  if trunkId = networkNodeTrunkId then .ok ()
  else checkSubports (allowedTenantVlanIdRanges objects defaultRange) subports

/-! Specifications of the two loops. -/

theorem overlapStep_reverse (merged : List Interval) (r : Interval) :
    overlapStep merged.reverse r = (mergeStep merged r).reverse := by
  cases merged with
  | nil => rfl
  | cons last rest =>
    rw [overlapStep, List.reverse_cons, List.getLast?_concat, List.dropLast_concat]
    simp only [mergeStep]
    split <;> simp

theorem foldl_overlapStep (todo merged : List Interval) :
    todo.foldl overlapStep merged.reverse = (todo.foldl mergeStep merged).reverse := by
  induction todo generalizing merged with
  | nil => rfl
  | cons r todo ih => rw [List.foldl_cons, List.foldl_cons, overlapStep_reverse, ih]

/-- The loop that grows the list in place agrees with the loop over a backward accumulator on
every list, ill-formed ranges included. -/
theorem mergeOverlappedRanges_eq (ranges : List Interval) :
    mergeOverlappedRanges ranges = mergeSorted ranges :=
  foldl_overlapStep (sorted ranges) []

@[simp] theorem segmentationIdInRanges_iff {v : ℤ} {ranges : List Interval} :
    segmentationIdInRanges v ranges = true ↔ Covers ranges v := by
  simp [segmentationIdInRanges, Covers]

theorem checkSubports_ok_iff {nsRanges : List Interval} {subports : List SubPort} :
    checkSubports nsRanges subports = .ok () ↔
      ∀ subport ∈ subports, Covers nsRanges subport.segmentationId := by
  induction subports with
  | nil => simp [checkSubports]
  | cons subport subports ih =>
    simp only [checkSubports]
    split
    next h => simp [ih, segmentationIdInRanges_iff.mp h]
    next h =>
      rw [segmentationIdInRanges_iff] at h
      simp [h]

theorem covers_ite {c : Prop} [Decidable c] {a b v : ℤ} (h : ¬ c → b < a) :
    Covers (if c then [(a, b)] else []) v ↔ a ≤ v ∧ v ≤ b := by
  split_ifs with hc
  · simp [Covers]
  · have hlt := h hc
    constructor
    · rintro ⟨r, hr, -⟩
      cases hr
    · intro hv
      omega

/-- The gaps hold the ids outside the ranges, from the first place where a gap can start to
the last one where a gap can end. -/
theorem covers_gapsFrom {stop prevEnd v : ℤ} {ranges : List Interval} (h : Canonical ranges) :
    Covers (gapsFrom stop prevEnd ranges) v ↔
      ¬ Covers ranges v ∧ (prevEnd < v ∨ ∃ r ∈ ranges, r.2 < v) ∧
        (v ≤ stop ∨ ∃ r ∈ ranges, v < r.1) := by
  induction ranges generalizing prevEnd with
  | nil =>
    rw [gapsFrom, covers_ite (fun h => by omega), Int.add_one_le_iff]
    simp [Covers]
  | cons r ranges ih =>
    have hle := h.head_le
    have hafter : ∀ s ∈ ranges, r.2 + 1 < s.1 ∧ s.1 ≤ s.2 := fun s hs =>
      ⟨(List.pairwise_cons.mp h.separated).1 s hs, h.tail.wellFormed s hs⟩
    have hgap : Covers (if r.1 > prevEnd + 1 then [(prevEnd + 1, r.1 - 1)] else []) v ↔
        prevEnd < v ∧ v < r.1 := by
      rw [covers_ite fun h => by omega]
      omega
    rw [gapsFrom, covers_append, hgap, ih h.tail, covers_cons]
    simp only [List.exists_mem_cons_iff]
    rcases lt_or_ge v r.1 with hv | hv
    · -- before the first range the later ones have no say
      have hrest : ¬ Covers ranges v := fun hc => by
        have := h.lt_of_covers hc
        omega
      have hends : ¬ ∃ s ∈ ranges, s.2 < v := by
        rintro ⟨s, hs, hlt⟩
        have := hafter s hs
        omega
      simp only [hrest, hends, hv, not_lt.mpr (hv.le.trans hle), not_le.mpr hv]
      simp
    · simp only [not_lt.mpr hv]
      rcases lt_or_ge r.2 v with hv' | hv'
      · simp [hv', not_le.mpr hv']
      · have hends : ¬ ∃ s ∈ ranges, s.2 < v := by
          rintro ⟨s, hs, hlt⟩
          have := hafter s hs
          omega
        simp [hends, hv, hv', not_lt.mpr hv']

theorem gapsFrom_after {stop prevEnd : ℤ} {ranges : List Interval} (h : Canonical ranges)
    (hp : ∀ r ∈ ranges, prevEnd < r.1) : ∀ g ∈ gapsFrom stop prevEnd ranges, prevEnd < g.1 := by
  induction ranges generalizing prevEnd with
  | nil =>
    intro g hg
    rw [gapsFrom, List.mem_ite_nil_right, List.mem_singleton] at hg
    obtain ⟨-, rfl⟩ := hg
    exact Int.lt_succ prevEnd
  | cons r ranges ih =>
    intro g hg
    rw [gapsFrom] at hg
    have hle := h.head_le
    have hr := hp r (by simp)
    rcases List.mem_append.mp hg with hg | hg
    · rw [List.mem_ite_nil_right, List.mem_singleton] at hg
      obtain ⟨-, rfl⟩ := hg
      exact Int.lt_succ prevEnd
    · have hrest := ih h.tail (fun s hs => by
        have : r.2 + 1 < s.1 := (List.pairwise_cons.mp h.separated).1 s hs
        omega) g hg
      omega

theorem wellFormed_gapsFrom {stop prevEnd : ℤ} {ranges : List Interval} :
    WellFormed (gapsFrom stop prevEnd ranges) := by
  induction ranges generalizing prevEnd with
  | nil =>
    intro g hg
    rw [gapsFrom, List.mem_ite_nil_right, List.mem_singleton] at hg
    obtain ⟨hlt, rfl⟩ := hg
    exact hlt
  | cons r ranges ih =>
    intro g hg
    rw [gapsFrom] at hg
    rcases List.mem_append.mp hg with hg | hg
    · rw [List.mem_ite_nil_right, List.mem_singleton] at hg
      obtain ⟨hlt, rfl⟩ := hg
      exact Int.le_sub_one_of_lt hlt
    · exact ih g hg

theorem pairwise_gapsFrom {stop prevEnd : ℤ} {ranges : List Interval} (h : Canonical ranges) :
    (gapsFrom stop prevEnd ranges).Pairwise fun a b => a.2 < b.1 := by
  induction ranges generalizing prevEnd with
  | nil =>
    simp only [gapsFrom]
    split <;> simp
  | cons r ranges ih =>
    have hle := h.head_le
    have hrest : ∀ g ∈ gapsFrom stop r.2 ranges, r.2 < g.1 := gapsFrom_after h.tail fun s hs => by
      have : r.2 + 1 < s.1 := (List.pairwise_cons.mp h.separated).1 s hs
      omega
    rw [gapsFrom]
    split
    · refine List.pairwise_cons.mpr ⟨fun g hg => ?_, ih h.tail⟩
      have := hrest g hg
      omega
    · exact ih h.tail

/-! The ids outside the default range. A block of segment ranges that lies wholly beyond one of
its ends moves `prev_end` there, and the ids between the block and the default range count as
a gap. -/

/-- Every block of consecutive ids of the ranges reaches the default range, or the id next to
it. -/
def BlocksReach (ranges : List Interval) (defaultRange : Interval) : Prop :=
  ∀ v, Covers ranges v →
    (v < defaultRange.1 - 1 → Covers ranges (v + 1)) ∧
      (defaultRange.2 + 1 < v → Covers ranges (v - 1))

/-- What the allowed ranges are meant to be. -/
structure AllowedExactly (objects : List NetworkSegmentRange) (defaultRange : Interval) :
    Prop where
  ids : ∀ v, segmentationIdInRanges v (allowedTenantVlanIdRanges objects defaultRange) = true ↔
    (defaultRange.1 ≤ v ∧ v ≤ defaultRange.2) ∧
      ¬ ∃ vr ∈ fetchVlanNetworkSegmentRanges objects, vr.minimum ≤ v ∧ v ≤ vr.maximum
  nonempty : WellFormed (allowedTenantVlanIdRanges objects defaultRange)
  sorted : (allowedTenantVlanIdRanges objects defaultRange).Pairwise fun a b => a.2 < b.1

theorem covers_allVlanRanges {objects : List NetworkSegmentRange} {v : ℤ} :
    Covers (allVlanRanges objects) v ↔
      ∃ vr ∈ fetchVlanNetworkSegmentRanges objects, vr.minimum ≤ v ∧ v ≤ vr.maximum := by
  simp [Covers, allVlanRanges]

theorem BlocksReach.block {merged : List Interval} {defaultRange : Interval}
    (h : BlocksReach merged defaultRange) (hm : Canonical merged) {r : Interval}
    (hr : r ∈ merged) : defaultRange.1 - 1 ≤ r.2 ∧ r.1 ≤ defaultRange.2 + 1 := by
  have hle := hm.wellFormed r hr
  obtain ⟨hbefore, hafter⟩ := hm.not_covers_beside hr
  refine ⟨?_, ?_⟩ <;> by_contra hlt
  · exact hafter ((h r.2 ⟨r, hr, hle, le_refl _⟩).1 (by omega))
  · exact hbefore ((h r.1 ⟨r, hr, le_refl _, hle⟩).2 (by omega))

/-- Of canonical ranges the gaps are the default range less the ranges exactly when every
block of ids reaches it. -/
theorem covers_fetchGapsInRanges_iff {merged : List Interval} {defaultRange : Interval}
    (hm : Canonical merged) (hd : defaultRange.1 ≤ defaultRange.2) :
    (∀ v, Covers (fetchGapsInRanges merged defaultRange) v ↔
      (defaultRange.1 ≤ v ∧ v ≤ defaultRange.2) ∧ ¬ Covers merged v) ↔
      BlocksReach merged defaultRange := by
  simp only [fetchGapsInRanges, covers_gapsFrom hm]
  constructor
  · -- an id next to a block that ends too early, or starts too late, counts as a gap
    rintro h v ⟨r, hr, h1, h2⟩
    refine ⟨fun hlt => ?_, fun hlt => ?_⟩ <;> by_contra hc
    · have hend : r.2 < v + 1 := by
        by_contra hge
        exact hc ⟨r, hr, by omega, by omega⟩
      have hgap := (h (v + 1)).mp ⟨hc, Or.inr ⟨r, hr, hend⟩, Or.inl (by omega)⟩
      omega
    · have hstart : v - 1 < r.1 := by
        by_contra hge
        exact hc ⟨r, hr, by omega, by omega⟩
      have hgap := (h (v - 1)).mp ⟨hc, Or.inl (by omega), Or.inr ⟨r, hr, hstart⟩⟩
      omega
  · intro h v
    constructor
    · rintro ⟨hc, hlow, hhigh⟩
      refine ⟨⟨?_, ?_⟩, hc⟩
      · rcases hlow with hlow | ⟨r, hr, hlow⟩
        · omega
        · have := (h.block hm hr).1
          omega
      · rcases hhigh with hhigh | ⟨r, hr, hhigh⟩
        · omega
        · have := (h.block hm hr).2
          omega
    · rintro ⟨⟨h1, h2⟩, hc⟩
      exact ⟨hc, Or.inl (by omega), Or.inl h2⟩

theorem allowedTenantVlanIdRanges_exact_iff {objects : List NetworkSegmentRange}
    {defaultRange : Interval} (hd : defaultRange.1 ≤ defaultRange.2)
    (hw : ∀ vr ∈ fetchVlanNetworkSegmentRanges objects, vr.minimum ≤ vr.maximum) :
    AllowedExactly objects defaultRange ↔ BlocksReach (allVlanRanges objects) defaultRange := by
  have hwf : WellFormed (allVlanRanges objects) := by
    rintro r hr
    obtain ⟨vr, hvr, rfl⟩ := List.mem_map.mp hr
    exact hw vr hvr
  have hm := canonical_mergeSorted hwf
  have hids := covers_fetchGapsInRanges_iff hm hd
  simp only [BlocksReach, covers_mergeSorted] at hids
  have hallowed : allowedTenantVlanIdRanges objects defaultRange =
      fetchGapsInRanges (mergeSorted (allVlanRanges objects)) defaultRange := by
    rw [allowedTenantVlanIdRanges, mergeOverlappedRanges_eq]
  constructor
  · intro h
    refine hids.mp fun v => ?_
    have hv := h.ids v
    rwa [segmentationIdInRanges_iff, hallowed, ← covers_allVlanRanges] at hv
  · intro h
    refine ⟨fun v => ?_, ?_, ?_⟩
    · rw [segmentationIdInRanges_iff, hallowed, ← covers_allVlanRanges]
      exact hids.mpr h v
    · rw [hallowed]
      exact wellFormed_gapsFrom
    · rw [hallowed]
      exact pairwise_gapsFrom hm

/-- Two blocks inside the default range and one that starts right after it. -/
theorem allowedTenantVlanIdRanges_exact_inside :
    (1 : ℤ) ≤ 3799 ∧ AllowedExactly
      [⟨"vlan", true, 900, 1200⟩, ⟨"vlan", true, 500, 700⟩, ⟨"vlan", true, 3800, 4000⟩]
      (1, 3799) := by
  refine ⟨by decide, (allowedTenantVlanIdRanges_exact_iff (by decide) (by decide)).mpr ?_⟩
  intro v hv
  simp only [allVlanRanges, fetchVlanNetworkSegmentRanges, Covers] at hv ⊢
  simp at hv ⊢
  omega

/-- A segment range above the default range lets the ids between the two through. -/
theorem allowed_beyond_default_range :
    ¬ AllowedExactly [⟨"vlan", true, 3900, 4000⟩] (1, 3799) := by
  intro h
  have hv := (h.ids 3850).mp (by decide)
  omega

end Understack.Neutron.VlanRanges
