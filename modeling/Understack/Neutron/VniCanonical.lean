import Understack.Neutron.VlanRanges
import Understack.Neutron.VniRanges

/-! The canonical form of the configured VNI ranges: what `parse_vni_ranges` returns, and that
`format_vni_ranges` writes it in a way that is read back. -/
namespace Understack.Neutron.Vni
open PyText Intervals VlanRanges

/-- What every accepted configuration is turned into. -/
structure CanonicalRanges (ranges : List Interval) : Prop where
  nonempty : ranges ≠ []
  canonical : Canonical ranges
  within : ∀ r ∈ ranges, minVni ≤ r.1 ∧ r.2 ≤ maxVni

theorem parseVniRange_within {entry : Text} {r : Interval} (h : parseVniRange entry = .ok r) :
    r.1 ≤ r.2 ∧ minVni ≤ r.1 ∧ r.2 ≤ maxVni := by
  simp only [parseVniRange] at h
  split at h
  · cases h
  · split at h
    next start stop _ _ =>
      split at h
      · cases h
      · split at h
        · cases h
        next hle hin =>
          obtain rfl := Except.ok.inj h
          simp only
          omega
    · cases h

theorem parseEntries_ok_iff {entries : List Text} {ranges : List Interval} :
    parseEntries entries = .ok ranges ↔ entries.map parseVniRange = ranges.map .ok := by
  induction entries generalizing ranges with
  | nil => cases ranges <;> simp [parseEntries]
  | cons entry entries ih =>
    cases he : parseVniRange entry with
    | error e => cases ranges <;> simp [parseEntries, he, bind, Except.bind]
    | ok range =>
      cases hrest : parseEntries entries with
      | error e =>
        have hne (rest : List Interval) : entries.map parseVniRange ≠ rest.map .ok := fun heq => by
          simp [ih.mpr heq] at hrest
        cases ranges <;> simp [parseEntries, he, hrest, hne, bind, Except.bind]
      | ok rest =>
        have hmap := ih.mp hrest
        have hinj : Function.Injective (Except.ok : Interval → Except VniError Interval) :=
          fun a b => Except.ok.inj
        cases ranges with
        | nil => simp [parseEntries, he, hrest, bind, Except.bind, pure, Except.pure]
        | cons r ranges =>
          simp [parseEntries, he, hrest, hmap, bind, Except.bind, pure, Except.pure,
            (List.map_injective_iff.mpr hinj).eq_iff]

theorem mem_parseEntries {entries : List Text} {ranges : List Interval}
    (h : parseEntries entries = .ok ranges) {r : Interval} :
    r ∈ ranges ↔ ∃ entry ∈ entries, parseVniRange entry = .ok r := by
  refine ⟨parseEntries_mem h r, fun ⟨entry, hm, hr⟩ => ?_⟩
  have hmem : Except.ok r ∈ entries.map parseVniRange := List.mem_map.mpr ⟨entry, hm, hr⟩
  rw [parseEntries_ok_iff.mp h] at hmem
  obtain ⟨r', hr', heq⟩ := List.mem_map.mp hmem
  exact Except.ok.inj heq ▸ hr'

theorem exists_parseEntries {entries : List Text}
    (h : ∀ entry ∈ entries, ∃ r, parseVniRange entry = .ok r) :
    ∃ ranges, parseEntries entries = .ok ranges := by
  induction entries with
  | nil => exact ⟨[], rfl⟩
  | cons entry entries ih =>
    obtain ⟨r, hr⟩ := h entry (by simp)
    obtain ⟨ranges, hranges⟩ := ih fun e he => h e (by simp [he])
    exact ⟨r :: ranges, by simp [parseEntries_ok_iff, hr, parseEntries_ok_iff.mp hranges]⟩

theorem parseVniRanges_ok_iff {vniRanges : List Text} {ranges : List Interval} :
    parseVniRanges vniRanges = .ok ranges ↔
      ∃ parsed, parseEntries vniRanges = .ok parsed ∧ parsed ≠ [] ∧ mergeRanges parsed = ranges := by
  cases hp : parseEntries vniRanges with
  | error e => simp [parseVniRanges, hp, bind, Except.bind]
  | ok parsed =>
    by_cases hnil : parsed = []
    · simp [parseVniRanges, hp, hnil, bind, Except.bind, throw, throwThe, MonadExceptOf.throw]
    · simp [parseVniRanges, hp, hnil, bind, Except.bind, pure, Except.pure]

theorem wellFormed_parseEntries {entries : List Text} {ranges : List Interval}
    (h : parseEntries entries = .ok ranges) : WellFormed ranges := by
  intro r hr
  obtain ⟨entry, -, hentry⟩ := parseEntries_mem h r hr
  exact (parseVniRange_within hentry).1

theorem covers_parseVniRanges {vniRanges : List Text} {ranges : List Interval}
    (h : parseVniRanges vniRanges = .ok ranges) {vni : ℤ} :
    Covers ranges vni ↔ Configured vniRanges vni := by
  refine ⟨parseVniRanges_configured h, fun ⟨entry, hm, r, hr, hv⟩ => ?_⟩
  obtain ⟨parsed, hp, -, rfl⟩ := parseVniRanges_ok_iff.mp h
  exact covers_mergeSorted.mpr ⟨r, (mem_parseEntries hp).mpr ⟨entry, hm, hr⟩, hv⟩

theorem canonicalRanges_parseVniRanges {vniRanges : List Text} {ranges : List Interval}
    (h : parseVniRanges vniRanges = .ok ranges) : CanonicalRanges ranges := by
  have hcovers {vni : ℤ} : Covers ranges vni ↔ Configured vniRanges vni := covers_parseVniRanges h
  obtain ⟨parsed, hp, hne, rfl⟩ := parseVniRanges_ok_iff.mp h
  have hwf := wellFormed_parseEntries hp
  have hcanon : Canonical (mergeRanges parsed) := canonical_mergeSorted hwf
  -- both ends of an interval of the result lie in intervals of entries
  have hwithin {vni : ℤ} (hv : Covers (mergeRanges parsed) vni) : minVni ≤ vni ∧ vni ≤ maxVni := by
    obtain ⟨entry, -, r, hr, h1, h2⟩ := hcovers.mp hv
    have := parseVniRange_within hr
    omega
  refine ⟨fun hnil => ?_, hcanon, fun r hr => ?_⟩
  · obtain ⟨r, rest, rfl⟩ := List.exists_cons_of_ne_nil hne
    have hr : Covers (mergeRanges (r :: rest)) r.1 :=
      covers_mergeSorted.mpr ⟨r, by simp, le_refl _, hwf r (by simp)⟩
    simp [hnil] at hr
  · have hle := hcanon.wellFormed r hr
    exact ⟨(hwithin ⟨r, hr, le_refl _, hle⟩).1, (hwithin ⟨r, hr, hle, le_refl _⟩).2⟩

/-- Acceptance and result depend on the set of the entries alone. -/
theorem parseVniRanges_congr {vniRanges other : List Text} {ranges : List Interval}
    (h : parseVniRanges vniRanges = .ok ranges) (hm : ∀ entry, entry ∈ other ↔ entry ∈ vniRanges) :
    parseVniRanges other = .ok ranges := by
  obtain ⟨parsed, hp, hne, rfl⟩ := parseVniRanges_ok_iff.mp h
  have hall : ∀ entry ∈ other, ∃ r, parseVniRange entry = .ok r := fun entry he => by
    have hmem : parseVniRange entry ∈ vniRanges.map parseVniRange :=
      List.mem_map_of_mem ((hm entry).mp he)
    rw [parseEntries_ok_iff.mp hp] at hmem
    obtain ⟨r, -, hr⟩ := List.mem_map.mp hmem
    exact ⟨r, hr.symm⟩
  obtain ⟨parsed', hp'⟩ := exists_parseEntries hall
  have hsame : ∀ r, r ∈ parsed' ↔ r ∈ parsed := fun r => by
    simp only [mem_parseEntries hp', mem_parseEntries hp, hm]
  refine parseVniRanges_ok_iff.mpr ⟨parsed', hp', fun hnil => ?_, ?_⟩
  · obtain ⟨r, rest, rfl⟩ := List.exists_cons_of_ne_nil hne
    have := (hsame r).mpr (by simp)
    simp [hnil] at this
  · exact mergeSorted_congr (wellFormed_parseEntries hp') hsame

/-! Reading a written range back. -/

def formatVniRange (r : Interval) : Text := ofInt r.1 ++ ':' :: ofInt r.2

theorem mem_formatVniRange {r : Interval} {c : Char} (h : c ∈ formatVniRange r) :
    c.isDigit = true ∨ c = '-' ∨ c = ':' := by
  rcases List.mem_append.mp h with h | h
  · exact (mem_ofInt h).imp_right Or.inl
  · rcases List.mem_cons.mp h with rfl | h
    · exact Or.inr (Or.inr rfl)
    · exact (mem_ofInt h).imp_right Or.inl

theorem strip_formatVniRange (r : Interval) : strip (formatVniRange r) = formatVniRange r := by
  refine strip_eq_self fun c hc => ?_
  rcases mem_formatVniRange hc with hd | rfl | rfl
  · exact isSpace_of_isDigit hd
  · decide
  · decide

theorem splitOnce_formatVniRange (r : Interval) :
    splitOnce ':' (formatVniRange r) = some (ofInt r.1, ofInt r.2) := by
  refine splitOnce_append fun hc => ?_
  rcases mem_ofInt hc with hd | hd
  · exact absurd hd (by decide)
  · exact absurd hd (by decide)

theorem parseVniRange_format {r : Interval} (hle : r.1 ≤ r.2) (hmin : minVni ≤ r.1)
    (hmax : r.2 ≤ maxVni) : parseVniRange (formatVniRange r) = .ok r := by
  have hne : formatVniRange r ≠ [] := by simp [formatVniRange]
  simp only [parseVniRange, strip_formatVniRange, if_neg hne, splitOnce_formatVniRange,
    Option.getD_some, int?_ofInt, if_neg (not_lt.mpr hle)]
  rw [if_neg (by omega)]

theorem comma_notMem_formatVniRange (r : Interval) : ',' ∉ formatVniRange r := fun h => by
  rcases mem_formatVniRange h with hd | hd | hd
  all_goals exact absurd hd (by decide)

theorem parseVniRanges_format {ranges : List Interval} (h : CanonicalRanges ranges) :
    parseVniRanges (split ',' (formatVniRanges ranges)) = .ok ranges := by
  have htexts : split ',' (formatVniRanges ranges) = ranges.map formatVniRange := by
    refine split_join (by simpa using h.nonempty) ?_
    exact List.forall_mem_map.mpr fun r _ => comma_notMem_formatVniRange r
  have hentries : parseEntries (ranges.map formatVniRange) = .ok ranges := by
    rw [parseEntries_ok_iff, List.map_map]
    refine List.map_congr_left fun r hr => ?_
    obtain ⟨hmin, hmax⟩ := h.within r hr
    exact parseVniRange_format (h.canonical.wellFormed r hr) hmin hmax
  rw [htexts]
  exact parseVniRanges_ok_iff.mpr ⟨ranges, hentries, h.nonempty, h.canonical.mergeSorted_eq⟩

theorem vniRanges_canonical {vniRanges : List Text} {ranges : List Interval}
    (h : parseVniRanges vniRanges = .ok ranges) :
    (∀ vni, Covers ranges vni ↔ Configured vniRanges vni) ∧
      CanonicalRanges ranges ∧
      (∀ other : List Text, (∀ entry, entry ∈ other ↔ entry ∈ vniRanges) →
        parseVniRanges other = .ok ranges) ∧
      (∀ canonical, CanonicalRanges canonical →
        parseVniRanges (split ',' (formatVniRanges canonical)) = .ok canonical) ∧
      ∀ rs, mergeRanges rs = mergeOverlappedRanges rs := by
  refine ⟨fun vni => covers_parseVniRanges h, canonicalRanges_parseVniRanges h, fun other hm => ?_,
    fun canonical hc => parseVniRanges_format hc, fun rs => ?_⟩
  · exact parseVniRanges_congr h hm
  · exact (mergeOverlappedRanges_eq rs).symm

/-- Overlapping and adjacent entries, out of order. -/
theorem vniRanges_canonical_adjacent :
    CanonicalRanges [(5, 30), (40, 40)] ∧
      parseVniRanges (split ',' "5:30,40:40".toList) = .ok [(5, 30), (40, 40)] := by
  have h : parseVniRanges ["40".toList, " 11:30".toList, "5:10".toList, "7:8".toList] =
      .ok [(5, 30), (40, 40)] := by decide +kernel
  obtain ⟨-, hc, -, hr, -⟩ := vniRanges_canonical h
  exact ⟨hc, hr _ hc⟩

end Understack.Neutron.Vni
