import Understack.Workflows.UcvniRange

/-! Cutting a segment range out of an arbitrary list of ranges: intervals that overlap, nest or
repeat, in texts of any spelling that `int` reads. -/
namespace Understack.Workflows.Ucvni
open PyText Intervals

/-- The texts read as the intervals, one by one. -/
def Reads (ranges : List Text) (rs : List Interval) : Prop :=
  ranges.map parseRange = rs.map some

theorem Reads.append {ranges ranges' : List Text} {rs rs' : List Interval} (h : Reads ranges rs)
    (h' : Reads ranges' rs') : Reads (ranges ++ ranges') (rs ++ rs') := by
  rw [Reads, List.map_append, List.map_append, h, h']

/-- A minus sign separates the two integers, so that neither of them is negative. -/
theorem parseRange_nonneg {r : Text} {i : Interval} (h : parseRange r = some i) :
    0 ≤ i.1 ∧ 0 ≤ i.2 := by
  unfold parseRange at h
  split at h
  next a b hab =>
    obtain ⟨start, hstart, h⟩ := Option.bind_eq_some_iff.mp h
    obtain ⟨stop, hstop, rfl⟩ := Option.map_eq_some_iff.mp h
    have hdash : ∀ p ∈ [a, b], '-' ∉ p := fun p hp => notMem_of_mem_split (hab ▸ hp)
    exact ⟨nonneg_of_int? hstart (hdash a (by simp)), nonneg_of_int? hstop (hdash b (by simp))⟩
  · cases h

theorem reads_piece {p : Prop} [Decidable p] {i : Interval} (h : p → 0 ≤ i.1 ∧ 0 ≤ i.2) :
    Reads (if p then [formatRange i] else []) (if p then [i] else []) := by
  by_cases hp : p
  · simp [Reads, hp, parseRange_formatRange (h hp).1 (h hp).2]
  · simp [Reads, hp]

/-- The interval that the text reads as has no id in common with the removed one. -/
def avoids (remove : Interval) (r : Text) : Bool :=
  (parseRange r).any fun i => i.2 < remove.1 ∨ i.1 > remove.2

/-- One turn of the loop leaves what is left of the interval, and the text itself where the
interval avoids the removed one. -/
theorem cutRange_spec {remove i : Interval} {r : Text} (hremove : remove.1 ≤ remove.2)
    (hr : parseRange r = some i) (hi : i.1 ≤ i.2) :
    ∃ kept, cutRange remove r = .ok kept ∧ Reads kept (cut remove i) ∧
      (avoids remove r = true → kept = [r]) := by
  obtain ⟨hstart, hstop⟩ := parseRange_nonneg hr
  have havoids : avoids remove r = true ↔ i.2 < remove.1 ∨ i.1 > remove.2 := by
    simp [avoids, hr]
  by_cases hsame : i.1 = remove.1 ∧ i.2 = remove.2
  · refine ⟨[], by simp [cutRange, hr, hsame], ?_, fun hd => ?_⟩
    · simp [Reads, cut, hsame, hremove]
    · rw [havoids] at hd
      omega
  · by_cases hd : i.2 < remove.1 ∨ i.1 > remove.2
    · exact ⟨[r], by simp only [cutRange, hr, if_neg hsame, if_pos hd],
        by simp only [Reads, cut, if_pos hd, List.map_cons, List.map_nil, hr], fun _ => rfl⟩
    · have hcut : cutRange remove r =
          .ok ((if i.1 < remove.1 then [formatRange (i.1, remove.1 - 1)] else []) ++
            (if i.2 > remove.2 then [formatRange (remove.2 + 1, i.2)] else [])) := by
        simp only [cutRange, hr, if_neg hsame, if_neg hd]
      refine ⟨_, hcut, ?_, fun h => absurd (havoids.mp h) hd⟩
      rw [cut, if_neg hd]
      refine Reads.append (reads_piece fun h => ?_) (reads_piece fun h => ?_)
      · show 0 ≤ i.1 ∧ 0 ≤ remove.1 - 1
        omega
      · show 0 ≤ remove.2 + 1 ∧ 0 ≤ i.2
        omega

/-- The loop over the list: the avoiding texts stay, in their order, among the pieces of the
other ones. -/
theorem cutRanges_spec {remove : Interval} {ranges : List Text} {rs : List Interval}
    (hremove : remove.1 ≤ remove.2) (hr : Reads ranges rs) (hw : WellFormed rs) :
    ∃ out, cutRanges remove ranges = .ok out ∧ Reads out (rs.flatMap (cut remove)) ∧
      (ranges.filter (avoids remove)).Sublist out := by
  induction ranges generalizing rs with
  | nil =>
    obtain rfl : rs = [] := by simpa [Reads] using hr.symm
    exact ⟨[], rfl, rfl, List.Sublist.refl []⟩
  | cons r ranges ih =>
    cases rs with
    | nil => simp [Reads] at hr
    | cons i rs =>
      obtain ⟨hi, hrest⟩ : parseRange r = some i ∧ Reads ranges rs := by simpa [Reads] using hr
      obtain ⟨kept, hkept, hreads, havoids⟩ := cutRange_spec hremove hi (hw i (by simp))
      obtain ⟨out, hout, hreads', hsub⟩ := ih hrest fun s hs => hw s (by simp [hs])
      refine ⟨kept ++ out, ?_, ?_, ?_⟩
      · simp only [cutRanges, hkept, hout, bind, Except.bind, pure, Except.pure]
      · rw [List.flatMap_cons]
        exact hreads.append hreads'
      · by_cases h : avoids remove r = true
        · rw [List.filter_cons_of_pos h, havoids h]
          exact hsub.cons_cons r
        · rw [List.filter_cons_of_neg h]
          exact hsub.trans (List.sublist_append_right kept out)

theorem removeSubrange_exact {ranges : List Text} {rs : List Interval} {note : Text}
    {remove : Interval} (hn : parseRange note = some remove) (hremove : remove.1 ≤ remove.2)
    (hr : Reads ranges rs) (hw : WellFormed rs) :
    ∃ out outs, removeSubrange ranges (some note) = .ok out ∧ Reads out outs ∧
      WellFormed outs ∧
      (∀ v, Covers outs v ↔ Covers rs v ∧ ¬ (remove.1 ≤ v ∧ v ≤ remove.2)) ∧
      (∀ v, ¬ (remove.1 ≤ v ∧ v ≤ remove.2) → coverCount outs v = coverCount rs v) ∧
      (ranges.filter (avoids remove)).Sublist out := by
  obtain ⟨out, hout, hreads, hsub⟩ := cutRanges_spec hremove hr hw
  have hne : note ≠ [] := by
    rintro rfl
    have hnil : parseRange [] = none := rfl
    rw [hnil] at hn
    cases hn
  have hcount (v : ℤ) := coverCount_flatMap_cut hremove rs v
  refine ⟨out, rs.flatMap (cut remove), ?_, hreads, fun s hs => ?_, fun v => ?_, fun v hv => ?_,
    hsub⟩
  · simp only [removeSubrange, if_neg hne, hn, hout]
  · obtain ⟨i, hi, hs⟩ := List.mem_flatMap.mp hs
    exact wellFormed_cut (hw i hi) s hs
  · rw [covers_iff_coverCount, covers_iff_coverCount, hcount]
    split <;> simp_all
  · rw [hcount, if_neg hv]

/-- A nested pair, a repeated range, a range written with a sign and one that is split. -/
theorem removeSubrange_exact_overlapping :
    ∃ out outs, removeSubrange ["10-30".toList, "15-20".toList, "+1-4".toList, "18-25".toList,
        "18-25".toList] (some "18-25".toList) = .ok out ∧ Reads out outs ∧ WellFormed outs ∧
      ["+1-4".toList].Sublist out := by
  have hr : Reads ["10-30".toList, "15-20".toList, "+1-4".toList, "18-25".toList, "18-25".toList]
      [(10, 30), (15, 20), (1, 4), (18, 25), (18, 25)] := by
    unfold Reads
    decide +kernel
  have hn : parseRange "18-25".toList = some (18, 25) := by decide +kernel
  have hw : WellFormed [(10, 30), (15, 20), (1, 4), (18, 25), (18, 25)] := by
    unfold WellFormed
    decide
  obtain ⟨out, outs, h, hreads, hwf, -, -, hsub⟩ := removeSubrange_exact hn (by decide) hr hw
  have hfilter : ["10-30".toList, "15-20".toList, "+1-4".toList, "18-25".toList,
      "18-25".toList].filter (avoids (18, 25)) = ["+1-4".toList] := by decide +kernel
  exact ⟨out, outs, h, hreads, hwf, hfilter ▸ hsub⟩

end Understack.Workflows.Ucvni
