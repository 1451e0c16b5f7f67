import Understack.Lib.KeyedTable

/-! Rows that other rows refer to by id: what a set of references stands for, and what it stands
for after rows are added, after rows that nothing refers to are collected, and after references to
some of the rows are removed. -/
namespace References
open KeyedTable

variable {ρ ι : Type} [DecidableEq ι] {id : ρ → ι} {rows new : List ρ} {refs : List ι}

/-- The rows that the references stand for. -/
def resolve (id : ρ → ι) (rows : List ρ) (refs : List ι) : List ρ :=
  refs.filterMap fun i => rows.find? (id · = i)

/-- No reference dangles. -/
def Resolves (id : ρ → ι) (rows : List ρ) (refs : List ι) : Prop := ∀ i ∈ refs, ∃ r ∈ rows, id r = i

instance (id : ρ → ι) (rows : List ρ) (refs : List ι) : Decidable (Resolves id rows refs) :=
  inferInstanceAs (Decidable (∀ i ∈ refs, ∃ r ∈ rows, id r = i))

theorem resolve_append (id : ρ → ι) (rows : List ρ) (refs refs' : List ι) :
    resolve id rows (refs ++ refs') = resolve id rows refs ++ resolve id rows refs' :=
  List.filterMap_append

theorem mem_resolve (hu : Unique id rows) {r : ρ} :
    r ∈ resolve id rows refs ↔ r ∈ rows ∧ id r ∈ refs := by
  rw [resolve, List.mem_filterMap]
  constructor
  · rintro ⟨i, hi, hfind⟩
    obtain ⟨hr, rfl⟩ := hu.find?_eq_some_iff.mp hfind
    exact ⟨hr, hi⟩
  · rintro ⟨hr, hi⟩
    exact ⟨id r, hi, hu.find?_eq_some_iff.mpr ⟨hr, rfl⟩⟩

theorem resolve_eq_nil_iff (h : Resolves id rows refs) : resolve id rows refs = [] ↔ refs = [] := by
  constructor
  · intro hnil
    rw [List.eq_nil_iff_forall_not_mem]
    intro i hi
    obtain ⟨r, hr, he⟩ := h i hi
    have hsome : rows.find? (id · = i) = none := List.filterMap_eq_nil_iff.mp hnil i hi
    simpa [he] using List.find?_eq_none.mp hsome r hr
  · rintro rfl
    rfl

theorem resolve_append_rows (h : ∀ r ∈ new, id r ∉ refs) :
    resolve id (rows ++ new) refs = resolve id rows refs := by
  apply List.filterMap_congr
  intro i hi
  have hnone : new.find? (id · = i) = none := by
    rw [List.find?_eq_none]
    intro r hr
    rw [decide_eq_true_iff]
    rintro rfl
    exact h r hr hi
  rw [List.find?_append, hnone, Option.or_none]

omit [DecidableEq ι] in
theorem find?_filter_of {p q : ρ → Bool} (h : ∀ r ∈ rows, q r = true → p r = true) :
    (rows.filter p).find? q = rows.find? q := by
  induction rows with
  | nil => rfl
  | cons r rows ih =>
    have htail := ih fun s hs => h s (List.mem_cons_of_mem r hs)
    rw [List.filter_cons, List.find?_cons]
    by_cases hq : q r = true
    · simp [hq, h r List.mem_cons_self hq]
    · split_ifs <;> simp [hq, htail]

/-- Rows that are not referred to may go. -/
theorem resolve_filter_rows {p : ρ → Bool} (h : ∀ r ∈ rows, id r ∈ refs → p r = true) :
    resolve id (rows.filter p) refs = resolve id rows refs := by
  apply List.filterMap_congr
  intro i hi
  apply find?_filter_of
  intro r hr he
  exact h r hr ((of_decide_eq_true he).symm ▸ hi)

/-- Rows that are not referred to may change. -/
theorem resolve_map_rows {f : ρ → ρ} (hf : ∀ r, id (f r) = id r)
    (h : ∀ r ∈ rows, id r ∈ refs → f r = r) : resolve id (rows.map f) refs = resolve id rows refs := by
  apply List.filterMap_congr
  intro i hi
  have hids : ((fun r => decide (id r = i)) ∘ f) = fun r => decide (id r = i) := by
    funext r
    rw [Function.comp_apply, hf]
  rw [List.find?_map, hids]
  cases hfind : rows.find? (id · = i) with
  | none => rfl
  | some r =>
    have he : id r = i := by simpa using List.find?_some hfind
    rw [Option.map_some, h r (List.mem_of_find?_eq_some hfind) (he ▸ hi)]

omit [DecidableEq ι] in
theorem Resolves.filter_rows {p : ρ → Bool} (h : Resolves id rows refs)
    (hp : ∀ r ∈ rows, id r ∈ refs → p r = true) : Resolves id (rows.filter p) refs := by
  intro i hi
  obtain ⟨r, hr, rfl⟩ := h i hi
  exact ⟨r, List.mem_filter.mpr ⟨hr, hp r hr hi⟩, rfl⟩

/-- Collecting rows, editing the others and collecting again is collecting once, at the end. -/
theorem filter_map_filter {f : ρ → ρ} {p q : ρ → Bool} (hf : ∀ r, p (f r) = p r)
    (hpq : ∀ r, q r = true → p r = true) (rows : List ρ) :
    ((rows.filter p).map f).filter q = (rows.map f).filter q := by
  rw [List.filter_map, List.filter_map, List.filter_filter]
  congr 1
  apply List.filter_congr
  intro r _
  cases hq : q (f r) with
  | false => simp [hq]
  | true => simp [hq, ← hf r, hpq (f r) hq]

/-- Removing the references to the rows that do not meet a condition leaves the rows that do. -/
theorem resolve_filter_refs (hu : Unique id rows) (p : ρ → Bool) :
    resolve id rows (refs.filter fun i => i ∉ (rows.filter fun r => ¬p r).map id) =
      (resolve id rows refs).filter p := by
  rw [resolve, resolve, List.filterMap_filter, List.filter_filterMap]
  apply List.filterMap_congr
  intro i _
  cases hfind : rows.find? (id · = i) with
  | none => simp
  | some r =>
    obtain ⟨hr, rfl⟩ := hu.find?_eq_some_iff.mp hfind
    have hmem : id r ∈ (rows.filter fun r => ¬p r).map id ↔ ¬p r = true := by
      rw [List.mem_map]
      constructor
      · rintro ⟨s, hs, he⟩
        obtain ⟨hs, hps⟩ := List.mem_filter.mp hs
        obtain rfl := hu s hs r hr he
        exact of_decide_eq_true hps
      · intro hpr
        exact ⟨r, List.mem_filter.mpr ⟨hr, decide_eq_true hpr⟩, rfl⟩
    have hkept : decide (id r ∉ (rows.filter fun r => ¬p r).map id) = p r :=
      Bool.eq_iff_iff.mpr (by rw [decide_eq_true_iff, hmem, not_not])
    rw [hkept, Option.filter_some]

/-- Of the rows that were kept in another form, the ones that came from one of them. -/
theorem filterMap_filter_id {β : Type} {f : ρ → Option β} {key : β → ι}
    (hkey : ∀ r b, f r = some b → key b = id r) (hn : (rows.map id).Nodup) {r : ρ}
    (hr : r ∈ rows) : (rows.filterMap f).filter (key · = id r) = (f r).toList := by
  induction rows with
  | nil => cases hr
  | cons s rows ih =>
    obtain ⟨hs, hrows⟩ := List.nodup_cons.mp hn
    rw [List.filterMap_cons]
    rcases List.mem_cons.mp hr with rfl | hr
    · have hrest : (rows.filterMap f).filter (key · = id r) = [] := by
        rw [List.filter_eq_nil_iff]
        intro b hb hbr
        obtain ⟨x, hx, hf⟩ := List.mem_filterMap.mp hb
        rw [decide_eq_true_iff, hkey x b hf] at hbr
        exact hs (hbr ▸ List.mem_map_of_mem hx)
      cases hf : f r with
      | none => exact hrest
      | some b => simp [hkey r b hf, hrest]
    · have hne : id s ≠ id r := fun he => hs (he ▸ List.mem_map_of_mem hr)
      cases hf : f s with
      | none => exact ih hrows hr
      | some b => simpa [hkey s b hf, hne] using ih hrows hr

end References
