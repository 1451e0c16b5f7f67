import Mathlib.Data.List.Pairwise
import Mathlib.Data.List.Sort
import Mathlib.Data.Int.Notation
import Mathlib.Order.Interval.Set.Basic
import Mathlib.Tactic.Common

/-! Finite lists of closed integer intervals and the sets of ids they denote. -/
namespace Intervals

/-- `(start, end)`, both ends included. -/
abbrev Interval := ℤ × ℤ

/-- An id lies in some interval of the list. -/
def Covers (rs : List Interval) (v : ℤ) : Prop := ∃ r ∈ rs, r.1 ≤ v ∧ v ≤ r.2

instance (rs : List Interval) (v : ℤ) : Decidable (Covers rs v) :=
  inferInstanceAs (Decidable (∃ r ∈ rs, r.1 ≤ v ∧ v ≤ r.2))

def WellFormed (rs : List Interval) : Prop := ∀ r ∈ rs, r.1 ≤ r.2

@[simp] theorem covers_nil (v : ℤ) : ¬ Covers [] v := by simp [Covers]

@[simp] theorem covers_cons {r : Interval} {rs : List Interval} {v : ℤ} :
    Covers (r :: rs) v ↔ (r.1 ≤ v ∧ v ≤ r.2) ∨ Covers rs v := by simp [Covers]

@[simp] theorem covers_append {rs ss : List Interval} {v : ℤ} :
    Covers (rs ++ ss) v ↔ Covers rs v ∨ Covers ss v := by
  simp only [Covers, List.mem_append, or_and_right, exists_or]

theorem covers_congr {rs ss : List Interval} (h : ∀ r, r ∈ rs ↔ r ∈ ss) (v : ℤ) :
    Covers rs v ↔ Covers ss v := by
  simp only [Covers, h]

/-- The order of Python tuples. -/
def tupleLe (a b : Interval) : Prop := a.1 < b.1 ∨ (a.1 = b.1 ∧ a.2 ≤ b.2)

instance : DecidableRel tupleLe := fun _ _ => inferInstanceAs (Decidable (_ ∨ _))

def sorted (rs : List Interval) : List Interval := rs.insertionSort tupleLe

@[simp] theorem mem_sorted {rs : List Interval} {r : Interval} : r ∈ sorted rs ↔ r ∈ rs :=
  List.mem_insertionSort tupleLe

/-- One turn of the merging loop. The accumulator holds the merged list backwards, so its
head is the last interval of the list. -/
def mergeStep (merged : List Interval) (r : Interval) : List Interval :=
  match merged with
  | [] => [r]
  | last :: rest =>
    if r.1 > last.2 + 1 then r :: last :: rest else (last.1, max last.2 r.2) :: rest

def mergeSorted (rs : List Interval) : List Interval := ((sorted rs).foldl mergeStep []).reverse

theorem covers_of_mergeStep {merged : List Interval} {r : Interval} {v : ℤ}
    (h : Covers (mergeStep merged r) v) : Covers merged v ∨ (r.1 ≤ v ∧ v ≤ r.2) := by
  cases merged with
  | nil => simpa [mergeStep] using h
  | cons last rest =>
    simp only [mergeStep] at h
    split at h
    · rw [covers_cons] at h
      exact h.symm
    · rcases covers_cons.mp h with ⟨h1, h2⟩ | h
      · -- beyond the last interval the id is at least `r.1`, since `r` starts right after it
        have hr : v ≤ last.2 ∨ (r.1 ≤ v ∧ v ≤ r.2) := by simp only at h1 h2; omega
        exact hr.imp_left fun hl => covers_cons.mpr (Or.inl ⟨h1, hl⟩)
      · exact Or.inl (covers_cons.mpr (Or.inr h))

/-- Merging invents no id: an id of the result lies in one of the given intervals. -/
theorem covers_of_mergeSorted {rs : List Interval} {v : ℤ} (h : Covers (mergeSorted rs) v) :
    Covers rs v := by
  have fold (ss merged : List Interval) (hv : Covers (ss.foldl mergeStep merged) v) :
      Covers merged v ∨ Covers ss v := by
    induction ss generalizing merged with
    | nil => exact Or.inl hv
    | cons r ss ih =>
      rcases ih (mergeStep merged r) hv with h | h
      · exact (covers_of_mergeStep h).imp_right fun h => covers_cons.mpr (Or.inl h)
      · exact Or.inr (covers_cons.mpr (Or.inr h))
  rw [mergeSorted, covers_congr (fun r => List.mem_reverse)] at h
  rcases fold (sorted rs) [] h with h | h
  · exact absurd h (covers_nil v)
  · exact (covers_congr (fun r => mem_sorted) v).mp h

/-! Canonical lists. -/

/-- At least one id is missing between the two intervals. -/
def Separated (a b : Interval) : Prop := a.2 + 1 < b.1

/-- Well-formed intervals in increasing order, with a missing id between consecutive ones. -/
structure Canonical (rs : List Interval) : Prop where
  wellFormed : WellFormed rs
  separated : rs.Pairwise Separated

theorem sorted_starts (rs : List Interval) : (sorted rs).Pairwise fun a b => a.1 ≤ b.1 := by
  have htotal : Std.Total tupleLe := ⟨fun a b => by unfold tupleLe; omega⟩
  have htrans : IsTrans Interval tupleLe := ⟨fun a b c => by unfold tupleLe; omega⟩
  refine (List.pairwise_insertionSort tupleLe rs).imp fun {a b} h => ?_
  rcases h with h | h <;> omega

/-- What the merging loop keeps of its backward accumulator. No interval has to be well
formed for the ids and the gaps: only the order of the starts counts. -/
structure Merging (taken merged : List Interval) : Prop where
  starts : ∀ m ∈ merged, ∃ t ∈ taken, m.1 = t.1
  covers : ∀ v, Covers taken v → Covers merged v
  separated : merged.Pairwise fun a b => Separated b a
  wellFormed : WellFormed taken → WellFormed merged

/-- A gap before the next interval: it becomes a new one of the result. -/
theorem Merging.push {taken merged : List Interval} {r : Interval} (h : Merging taken merged)
    (hgap : ∀ m ∈ merged, Separated m r) : Merging (taken ++ [r]) (r :: merged) where
  starts m hm := by
    rcases List.mem_cons.mp hm with rfl | hm
    · exact ⟨m, by simp, rfl⟩
    · obtain ⟨t, ht, he⟩ := h.starts m hm
      exact ⟨t, by simp [ht], he⟩
  covers v hv := by
    rw [covers_cons]
    rcases covers_append.mp hv with hv | hv
    · exact Or.inr (h.covers v hv)
    · exact Or.inl (by simpa using hv)
  separated := List.pairwise_cons.mpr ⟨hgap, h.separated⟩
  wellFormed hall m hm := by
    rcases List.mem_cons.mp hm with rfl | hm
    · exact hall m (by simp)
    · exact h.wellFormed (fun t ht => hall t (by simp [ht])) m hm

/-- No gap: the last interval of the result takes the next one in. -/
theorem Merging.extend {taken rest : List Interval} {last r : Interval}
    (h : Merging taken (last :: rest)) (hstart : last.1 ≤ r.1) :
    Merging (taken ++ [r]) ((last.1, max last.2 r.2) :: rest) where
  starts m hm := by
    rcases List.mem_cons.mp hm with rfl | hm
    · obtain ⟨t, ht, he⟩ := h.starts last (by simp)
      exact ⟨t, by simp [ht], he⟩
    · obtain ⟨t, ht, he⟩ := h.starts m (by simp [hm])
      exact ⟨t, by simp [ht], he⟩
  covers v hv := by
    rw [covers_cons]
    rcases covers_append.mp hv with hv | hv
    · exact (covers_cons.mp (h.covers v hv)).imp_left fun hv => ⟨hv.1, by simp [hv.2]⟩
    · have hv : r.1 ≤ v ∧ v ≤ r.2 := by simpa using hv
      exact Or.inl ⟨hstart.trans hv.1, by simp [hv.2]⟩
  separated :=
    -- the start of the last interval stays
    List.pairwise_cons.mpr (List.pairwise_cons.mp h.separated)
  wellFormed hall m hm := by
    have hold := h.wellFormed fun t ht => hall t (by simp [ht])
    rcases List.mem_cons.mp hm with rfl | hm
    · exact (hold last (by simp)).trans (le_max_left _ _)
    · exact hold m (by simp [hm])

theorem Merging.step {taken merged : List Interval} {r : Interval} (h : Merging taken merged)
    (hle : ∀ t ∈ taken, t.1 ≤ r.1) : Merging (taken ++ [r]) (mergeStep merged r) := by
  cases merged with
  | nil => exact h.push (by simp)
  | cons last rest =>
    obtain ⟨t, ht, hlast⟩ := h.starts last (by simp)
    have hstart : last.1 ≤ r.1 := hlast ▸ hle t ht
    by_cases hgap : r.1 > last.2 + 1
    · rw [mergeStep, if_pos hgap]
      refine h.push fun m hm => ?_
      rcases List.mem_cons.mp hm with rfl | hm
      · exact hgap
      · -- the earlier intervals end before the last one starts
        have hm : m.2 + 1 < last.1 := (List.pairwise_cons.mp h.separated).1 m hm
        exact hm.trans_le hstart
    · rw [mergeStep, if_neg hgap]
      exact h.extend hstart

theorem Merging.run {todo taken merged : List Interval} (h : Merging taken merged)
    (hs : (taken ++ todo).Pairwise fun a b => a.1 ≤ b.1) :
    Merging (taken ++ todo) (todo.foldl mergeStep merged) := by
  induction todo generalizing taken merged with
  | nil => simpa using h
  | cons r todo ih =>
    have hle : ∀ t ∈ taken, t.1 ≤ r.1 := fun t ht =>
      (List.pairwise_append.mp hs).2.2 t ht r (by simp)
    have := ih (h.step hle) (by simpa using hs)
    simpa using this

theorem merging_sorted (rs : List Interval) :
    Merging (sorted rs) ((sorted rs).foldl mergeStep []) := by
  have hnil : Merging [] [] := ⟨by simp, by simp, by simp, id⟩
  exact hnil.run (sorted_starts rs)

theorem covers_mergeSorted {rs : List Interval} {v : ℤ} :
    Covers (mergeSorted rs) v ↔ Covers rs v := by
  refine ⟨covers_of_mergeSorted, fun hv => ?_⟩
  rw [mergeSorted, covers_congr fun r => List.mem_reverse]
  exact (merging_sorted rs).covers v ((covers_congr (fun r => mem_sorted) v).mpr hv)

theorem separated_mergeSorted (rs : List Interval) : (mergeSorted rs).Pairwise Separated :=
  List.pairwise_reverse.mpr (merging_sorted rs).separated

theorem canonical_mergeSorted {rs : List Interval} (h : WellFormed rs) :
    Canonical (mergeSorted rs) where
  wellFormed r hr :=
    (merging_sorted rs).wellFormed (fun t ht => h t (mem_sorted.mp ht)) r (List.mem_reverse.mp hr)
  separated := separated_mergeSorted rs

namespace Canonical
variable {r : Interval} {rs ss : List Interval} {v : ℤ}

theorem tail (h : Canonical (r :: rs)) : Canonical rs :=
  ⟨fun s hs => h.wellFormed s (by simp [hs]), (List.pairwise_cons.mp h.separated).2⟩

theorem head_le (h : Canonical (r :: rs)) : r.1 ≤ r.2 := h.wellFormed r (by simp)

/-- The id after the first interval is missing. -/
theorem lt_of_covers (h : Canonical (r :: rs)) (hv : Covers rs v) : r.2 + 1 < v := by
  obtain ⟨s, hs, h1, -⟩ := hv
  have hsep : r.2 + 1 < s.1 := (List.pairwise_cons.mp h.separated).1 s hs
  omega

/-- The ids on both sides of an interval are missing. -/
theorem not_covers_beside (h : Canonical rs) (hr : r ∈ rs) :
    ¬ Covers rs (r.1 - 1) ∧ ¬ Covers rs (r.2 + 1) := by
  have hle := h.wellFormed r hr
  have hsymm : Std.Symm fun a b => Separated a b ∨ Separated b a := ⟨fun _ _ => Or.symm⟩
  have hpair : rs.Pairwise fun a b => Separated a b ∨ Separated b a :=
    h.separated.imp fun hab => Or.inl hab
  have hapart : ∀ s ∈ rs, r ≠ s → Separated r s ∨ Separated s r := fun s hs => hpair.forall hr hs
  refine ⟨?_, ?_⟩ <;> rintro ⟨s, hs, h1, h2⟩ <;> have hs' := h.wellFormed s hs
  all_goals
    by_cases hrs : r = s
    · subst hrs
      omega
    · rcases hapart s hs hrs with hsep | hsep <;> unfold Separated at hsep <;> omega

theorem head_eq {s : Interval} (hr : Canonical (r :: rs)) (hs : Canonical (s :: ss))
    (h : ∀ v, Covers (r :: rs) v ↔ Covers (s :: ss) v) : r.1 ≤ s.1 ∧ s.2 ≤ r.2 := by
  have hrle := hr.head_le
  have hsle := hs.head_le
  have hstart : r.1 ≤ s.1 := by
    rcases covers_cons.mp ((h s.1).mpr (by simp [hsle])) with h1 | h1
    · exact h1.1
    · have := hr.lt_of_covers h1
      omega
  refine ⟨hstart, ?_⟩
  by_contra hlt
  -- the id after `r` is one of the other list, and lies in none of the intervals after `r`
  have hstart' : s.1 ≤ r.1 := by
    rcases covers_cons.mp ((h r.1).mp (by simp [hrle])) with h1 | h1
    · exact h1.1
    · have := hs.lt_of_covers h1
      omega
  rcases covers_cons.mp ((h (r.2 + 1)).mpr (covers_cons.mpr (Or.inl ⟨by omega, by omega⟩))) with
    h1 | h1
  · omega
  · have := hr.lt_of_covers h1
    omega

/-- A canonical list is determined by the set of its ids. -/
theorem ext (hr : Canonical rs) (hs : Canonical ss) (h : ∀ v, Covers rs v ↔ Covers ss v) :
    rs = ss := by
  induction rs generalizing ss with
  | nil =>
    cases ss with
    | nil => rfl
    | cons s ss => exact absurd ((h s.1).mpr (by simp [hs.head_le])) (covers_nil _)
  | cons r rs ih =>
    cases ss with
    | nil => exact absurd ((h r.1).mp (by simp [hr.head_le])) (covers_nil _)
    | cons s ss =>
      obtain ⟨h1, h2⟩ := head_eq hr hs h
      obtain ⟨h3, h4⟩ := head_eq hs hr fun v => (h v).symm
      obtain rfl : r = s := Prod.ext (le_antisymm h1 h3) (le_antisymm h4 h2)
      -- an id of one tail is beyond the common head, so that the other tail covers it
      have htail {xs ys : List Interval} (hx : Canonical (r :: xs))
          (hxy : ∀ v, Covers (r :: xs) v → Covers (r :: ys) v) {v : ℤ} (hv : Covers xs v) :
          Covers ys v := by
        have hlt := hx.lt_of_covers hv
        rcases covers_cons.mp (hxy v (covers_cons.mpr (Or.inr hv))) with hv | hv
        · omega
        · exact hv
      rw [ih hr.tail hs.tail fun v =>
        ⟨htail hr fun v => (h v).mp, htail hs fun v => (h v).mpr⟩]

theorem mergeSorted_eq (h : Canonical rs) : mergeSorted rs = rs :=
  (canonical_mergeSorted h.wellFormed).ext h fun _ => covers_mergeSorted

end Canonical

/-- The merged list depends on the set of the intervals alone. -/
theorem mergeSorted_congr {rs ss : List Interval} (h : WellFormed rs) (hm : ∀ r, r ∈ rs ↔ r ∈ ss) :
    mergeSorted rs = mergeSorted ss := by
  refine (canonical_mergeSorted h).ext
    (canonical_mergeSorted fun s hs => h s ((hm s).mpr hs)) fun v => ?_
  rw [covers_mergeSorted, covers_mergeSorted, covers_congr hm]

/-! Cutting an interval out of a list. -/

/-- The number of intervals of the list that an id lies in. -/
def coverCount (rs : List Interval) (v : ℤ) : ℕ := rs.countP fun r => r.1 ≤ v ∧ v ≤ r.2

theorem coverCount_append (rs ss : List Interval) (v : ℤ) :
    coverCount (rs ++ ss) v = coverCount rs v + coverCount ss v :=
  List.countP_append

theorem coverCount_singleton (r : Interval) (v : ℤ) :
    coverCount [r] v = if r.1 ≤ v ∧ v ≤ r.2 then 1 else 0 := by
  simp [coverCount, List.countP_singleton]

theorem covers_iff_coverCount {rs : List Interval} {v : ℤ} :
    Covers rs v ↔ 0 < coverCount rs v := by
  simp [coverCount, List.countP_pos_iff, Covers]

/-- What is left of an interval without the ids of another. -/
def cut (remove r : Interval) : List Interval :=
  if r.2 < remove.1 ∨ r.1 > remove.2 then [r]
  else (if r.1 < remove.1 then [(r.1, remove.1 - 1)] else []) ++
    (if r.2 > remove.2 then [(remove.2 + 1, r.2)] else [])

theorem mem_cut {remove r s : Interval} :
    s ∈ cut remove r ↔
      ((r.2 < remove.1 ∨ r.1 > remove.2) ∧ s = r) ∨
        (¬ (r.2 < remove.1 ∨ r.1 > remove.2) ∧
          ((r.1 < remove.1 ∧ s = (r.1, remove.1 - 1)) ∨
            (r.2 > remove.2 ∧ s = (remove.2 + 1, r.2)))) := by
  unfold cut
  split
  next h => simp [h]
  next h => simp [h, List.mem_ite_nil_right]

theorem wellFormed_cut {remove r : Interval} (hr : r.1 ≤ r.2) : WellFormed (cut remove r) := by
  intro s hs
  rcases mem_cut.mp hs with ⟨-, rfl⟩ | ⟨-, ⟨h, rfl⟩ | ⟨h, rfl⟩⟩
  · exact hr
  · exact Int.le_sub_one_of_lt h
  · exact h

theorem coverCount_cut {remove r : Interval} (hremove : remove.1 ≤ remove.2) (v : ℤ) :
    coverCount (cut remove r) v =
      if remove.1 ≤ v ∧ v ≤ remove.2 then 0 else coverCount [r] v := by
  have hnil : coverCount [] v = 0 := rfl
  unfold cut
  split_ifs <;> simp only [coverCount_append, coverCount_singleton, hnil] <;> split_ifs <;> omega

theorem coverCount_flatMap_cut {remove : Interval} (hremove : remove.1 ≤ remove.2)
    (rs : List Interval) (v : ℤ) :
    coverCount (rs.flatMap (cut remove)) v =
      if remove.1 ≤ v ∧ v ≤ remove.2 then 0 else coverCount rs v := by
  induction rs with
  | nil => simp [coverCount]
  | cons r rs ih =>
    have hcons : coverCount (r :: rs) v = coverCount [r] v + coverCount rs v :=
      coverCount_append [r] rs v
    rw [List.flatMap_cons, coverCount_append, coverCount_cut hremove, ih, hcons]
    split <;> rfl

end Intervals
