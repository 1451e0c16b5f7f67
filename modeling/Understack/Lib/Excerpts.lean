import Mathlib.Data.List.Nodup
import Mathlib.Data.List.Perm.Subperm
import Understack.Lib.KeyedTable

/-! Copies of a part of a collection with unique keys, and lookups that fall through to the
collection where the copy has no answer. -/
namespace Excerpts
open KeyedTable

variable {ρ ι : Type}

/-- A list of some of the rows, each at most once. -/
structure Excerpt (id : ρ → ι) (part whole : List ρ) : Prop where
  subset : ∀ r ∈ part, r ∈ whole
  nodup : (part.map id).Nodup

theorem unique_of_nodup {id : ρ → ι} {rows : List ρ} (h : (rows.map id).Nodup) :
    Unique id rows := fun _ hr _ hs heq => List.inj_on_of_nodup_map h hr hs heq

theorem Excerpt.of_subperm {id : ρ → ι} {part whole : List ρ} (h : part.Subperm whole)
    (hwhole : (whole.map id).Nodup) : Excerpt id part whole := by
  obtain ⟨l, hperm, hsub⟩ := h
  refine ⟨fun r hr => hsub.subset (hperm.mem_iff.mpr hr), ?_⟩
  exact (hperm.map id).nodup_iff.mp ((hsub.map id).nodup hwhole)

theorem Excerpt.append {id : ρ → ι} {part whole : List ρ} (h : Excerpt id part whole) {row : ρ}
    (hrow : id row ∉ whole.map id) : Excerpt id (part ++ [row]) (whole ++ [row]) := by
  constructor
  · intro r hr
    rcases List.mem_append.mp hr with hr | hr
    · exact List.mem_append_left _ (h.subset r hr)
    · exact List.mem_append_right _ hr
  · rw [List.map_append, List.map_singleton, List.nodup_append_comm]
    refine List.nodup_cons.mpr ⟨fun hmem => hrow ?_, h.nodup⟩
    obtain ⟨r, hr, heq⟩ := List.mem_map.mp hmem
    exact heq ▸ List.mem_map_of_mem (h.subset r hr)

theorem Excerpt.filter {id : ρ → ι} {part whole : List ρ} (h : Excerpt id part whole)
    (p : ρ → Bool) : Excerpt id (part.filter p) (whole.filter p) := by
  refine ⟨fun r hr => ?_, (List.filter_sublist.map id).nodup h.nodup⟩
  obtain ⟨hmem, hp⟩ := List.mem_filter.mp hr
  exact List.mem_filter.mpr ⟨h.subset r hmem, hp⟩

variable [DecidableEq ι]

theorem map_id_replace (id : ρ → ι) (row : ρ) (rows : List ρ) :
    (replace id row rows).map id = rows.map id := by
  rw [replace, List.map_map]
  apply List.map_congr_left
  intro r _
  simp only [Function.comp_apply]
  split_ifs with hid
  · exact hid.symm
  · rfl

theorem Excerpt.replace {id : ρ → ι} {part whole : List ρ} (h : Excerpt id part whole) (row : ρ) :
    Excerpt id (replace id row part) (replace id row whole) := by
  constructor
  · intro r hr
    rw [mem_replace] at hr ⊢
    rcases hr with ⟨heq, s, hs, hid⟩ | ⟨hmem, hid⟩
    · exact Or.inl ⟨heq, s, h.subset s hs, hid⟩
    · exact Or.inr ⟨h.subset r hmem, hid⟩
  · rw [map_id_replace]
    exact h.nodup

/-- Put the row in the place of the first one that matches. -/
def replaceFirst (p : ρ → Bool) (row : ρ) : List ρ → List ρ
  | [] => []
  | r :: rows => if p r then row :: rows else r :: replaceFirst p row rows

theorem replaceFirst_eq_replace {id : ρ → ι} {row : ρ} {rows : List ρ}
    (h : (rows.map id).Nodup) :
    replaceFirst (fun r => id r = id row) row rows = KeyedTable.replace id row rows := by
  induction rows with
  | nil => rfl
  | cons r rows ih =>
    obtain ⟨hnot, hrows⟩ := List.nodup_cons.mp h
    by_cases hid : id r = id row
    · have hrest : KeyedTable.replace id row rows = rows := by
        have hsame : ∀ s ∈ rows, (if id s = id row then row else s) = s := by
          intro s hs
          rw [if_neg]
          intro heq
          exact hnot (hid.trans heq.symm ▸ List.mem_map_of_mem hs)
        exact (List.map_congr_left hsame).trans (List.map_id' rows)
      simpa [replaceFirst, hid, KeyedTable.replace] using hrest.symm
    · simpa [replaceFirst, hid, KeyedTable.replace] using ih hrows

omit [DecidableEq ι]

theorem find?_eq_some_of_one {whole : List ρ} {q : ρ → Bool}
    (hone : ∀ r ∈ whole, ∀ s ∈ whole, q r = true → q s = true → r = s) {r : ρ} (hr : r ∈ whole)
    (hq : q r = true) : whole.find? q = some r := by
  cases hfound : whole.find? q with
  | none => exact absurd hq (List.find?_eq_none.mp hfound r hr)
  | some s =>
    rw [hone s (List.mem_of_find?_eq_some hfound) r hr (List.find?_some hfound) hq]

/-- Where at most one row matches, the order of a search does not matter. -/
theorem find?_perm {listed whole : List ρ} {q : ρ → Bool}
    (hone : ∀ r ∈ whole, ∀ s ∈ whole, q r = true → q s = true → r = s)
    (hlisted : listed.Perm whole) : listed.find? q = whole.find? q := by
  cases hfound : listed.find? q with
  | none =>
    symm
    rw [List.find?_eq_none] at hfound ⊢
    exact fun r hr => hfound r (hlisted.mem_iff.mpr hr)
  | some r =>
    have hr := hlisted.mem_iff.mp (List.mem_of_find?_eq_some hfound)
    exact (find?_eq_some_of_one hone hr (List.find?_some hfound)).symm

/-- Where at most one row matches, a copy that falls through answers as the collection itself. -/
theorem Excerpt.find?_or {id : ρ → ι} {part whole : List ρ} (h : Excerpt id part whole)
    {p q : ρ → Bool} (hpq : ∀ r ∈ whole, p r = true → q r = true)
    (hone : ∀ r ∈ whole, ∀ s ∈ whole, q r = true → q s = true → r = s) :
    (part.find? p).or (whole.find? q) = whole.find? q := by
  cases hfound : part.find? p with
  | none => rfl
  | some r =>
    have hr := h.subset r (List.mem_of_find?_eq_some hfound)
    rw [Option.some_or, find?_eq_some_of_one hone hr (hpq r hr (List.find?_some hfound))]

end Excerpts
