import Understack.Lib.KeyedTable

/-! Rows written to a table one after the other, each saved or, where there is none with its id,
created. A write that fails leaves the table as it was. -/
namespace KeyedTable.Table

variable {ρ ι κ : Type} [DecidableEq ι] [DecidableEq κ] {K : Keys ρ ι κ} {t t' : Table K}
  {row r : ρ} {rows : List (ρ × Bool)}

def upsert (t : Table K) (row : ρ) : Option (Table K) :=
  match t.get (K.id row) with
  | none => t.create row
  | some _ => t.save row

theorem upsert_eq_none_iff :
    t.upsert row = none ↔ ∃ r ∈ t.rows, K.id r ≠ K.id row ∧ K.slot r = K.slot row := by
  unfold upsert
  cases hget : t.get (K.id row) with
  | none =>
    have hnew := get_eq_none_iff.mp hget
    rw [create_eq_none_iff]
    constructor
    · rintro ⟨r, hr, hid | hslot⟩
      · exact (hnew r hr hid).elim
      · exact ⟨r, hr, hnew r hr, hslot⟩
    · rintro ⟨r, hr, -, hslot⟩
      exact ⟨r, hr, Or.inr hslot⟩
  | some old => exact save_eq_none_iff

theorem mem_upsert (h : t.upsert row = some t') :
    r ∈ t'.rows ↔ r = row ∨ (r ∈ t.rows ∧ K.id r ≠ K.id row) := by
  unfold upsert at h
  cases hget : t.get (K.id row) with
  | none =>
    rw [hget] at h
    have hnew := get_eq_none_iff.mp hget
    rw [mem_create h]
    exact or_congr_right ⟨fun hr => ⟨hr, hnew r hr⟩, fun hr => hr.1⟩
  | some old =>
    rw [hget] at h
    obtain ⟨hold, hid⟩ := get_eq_some_iff.mp hget
    rw [mem_save h]
    exact or_congr_left ⟨fun hr => hr.1, fun hr => ⟨hr, old, hold, hid⟩⟩

theorem get_upsert (h : t.upsert row = some t') (i : ι) :
    t'.get i = if i = K.id row then some row else t.get i := by
  split_ifs with hi
  · exact get_eq_some_iff.mpr ⟨(mem_upsert h).mpr (Or.inl rfl), hi.symm⟩
  · ext r
    simp only [get_eq_some_iff, mem_upsert h]
    constructor
    · rintro ⟨rfl | ⟨hr, -⟩, hid⟩
      · exact (hi hid.symm).elim
      · exact ⟨hr, hid⟩
    · rintro ⟨hr, rfl⟩
      exact ⟨Or.inr ⟨hr, hi⟩, rfl⟩

/-- A row that is there is not changed. -/
theorem upsert_of_mem (h : row ∈ t.rows) : t.upsert row = some t := by
  have hget : t.get (K.id row) = some row := get_eq_some_iff.mpr ⟨h, rfl⟩
  have hsave : ∀ r ∈ t.rows, K.id r ≠ K.id row → K.slot r ≠ K.slot row :=
    fun r hr hid hslot => hid (congrArg K.id (t.slots r hr row h hslot))
  have hreplace : replace K.id row t.rows = t.rows := by
    refine (List.map_congr_left fun r hr => ?_).trans (List.map_id t.rows)
    split_ifs with hid
    · exact (t.ids r hr row h hid).symm
    · rfl
  unfold upsert save
  rw [hget]
  dsimp only
  rw [dif_pos hsave]
  simp only [hreplace]

/-- The rows written in turn, each with whether that succeeded; `lost` are the rows whose write may
fail although nothing is in its way. -/
inductive Upserts (lost : ρ → Prop) : Table K → List (ρ × Bool) → Table K → Prop
  | nil (t : Table K) : Upserts lost t [] t
  | written {t mid t' : Table K} {row : ρ} {rows : List (ρ × Bool)}
      (h : t.upsert row = some mid) (hrest : Upserts lost mid rows t') :
      Upserts lost t ((row, true) :: rows) t'
  | failed {t t' : Table K} {row : ρ} {rows : List (ρ × Bool)}
      (h : t.upsert row = none ∨ lost row) (hrest : Upserts lost t rows t') :
      Upserts lost t ((row, false) :: rows) t'

variable {lost : ρ → Prop}

/-- Rows with other ids stay. -/
theorem Upserts.keeps (h : Upserts lost t rows t') (hr : r ∈ t.rows)
    (hid : ∀ row, (row, true) ∈ rows → K.id row ≠ K.id r) : r ∈ t'.rows := by
  induction h with
  | nil => exact hr
  | written hwrite _ ih =>
    refine ih ((mem_upsert hwrite).mpr (Or.inr ⟨hr, ?_⟩)) fun row hrow => ?_
    · exact (hid _ List.mem_cons_self).symm
    · exact hid row (List.mem_cons_of_mem _ hrow)
  | failed _ _ ih => exact ih hr fun row hrow => hid row (List.mem_cons_of_mem _ hrow)

theorem Upserts.source (h : Upserts lost t rows t') (hr : r ∈ t'.rows) :
    r ∈ t.rows ∨ (r, true) ∈ rows := by
  induction h with
  | nil => exact Or.inl hr
  | written hwrite _ ih =>
    rcases ih hr with hr | hrow
    · rcases (mem_upsert hwrite).mp hr with rfl | ⟨hr, -⟩
      · exact Or.inr List.mem_cons_self
      · exact Or.inl hr
    · exact Or.inr (List.mem_cons_of_mem _ hrow)
  | failed _ _ ih => exact (ih hr).imp_right (List.mem_cons_of_mem _)

/-- What is written under an id of its own is there in the end. -/
theorem Upserts.mem (h : Upserts lost t rows t') (hids : (rows.map fun x => K.id x.1).Nodup)
    (hr : (r, true) ∈ rows) : r ∈ t'.rows := by
  induction h with
  | nil => cases hr
  | @written t mid t' row rows hwrite hrest ih =>
    obtain ⟨hhead, htail⟩ := List.nodup_cons.mp hids
    rcases List.mem_cons.mp hr with heq | hr
    · obtain rfl : r = row := congrArg Prod.fst heq
      refine hrest.keeps ((mem_upsert hwrite).mpr (Or.inl rfl)) fun x hx heq => hhead ?_
      exact List.mem_map.mpr ⟨(x, true), hx, heq⟩
    · exact ih htail hr
  | failed _ _ ih =>
    obtain ⟨-, htail⟩ := List.nodup_cons.mp hids
    rcases List.mem_cons.mp hr with heq | hr
    · cases heq
    · exact ih htail hr

/-- A row under an id of its own that was refused is not there in the end. -/
theorem Upserts.not_mem (h : Upserts lost t rows t') (hids : (rows.map fun x => K.id x.1).Nodup)
    (hr : (r, false) ∈ rows) (hlost : ¬lost r) : r ∉ t'.rows := by
  induction h with
  | nil => cases hr
  | written _ _ ih =>
    obtain ⟨-, htail⟩ := List.nodup_cons.mp hids
    rcases List.mem_cons.mp hr with heq | hr
    · cases heq
    · exact ih htail hr
  | @failed t t' row rows hrefused hrest ih =>
    obtain ⟨hhead, htail⟩ := List.nodup_cons.mp hids
    rcases List.mem_cons.mp hr with heq | hr
    · obtain rfl : r = row := congrArg Prod.fst heq
      intro hmem
      rcases hrest.source hmem with hmem | hwritten
      · have hnone := hrefused.resolve_right hlost
        rw [upsert_of_mem hmem] at hnone
        cases hnone
      · exact hhead (List.mem_map.mpr ⟨_, hwritten, rfl⟩)
    · exact ih htail hr

/-- The slot of each of these rows is taken, under another id, by a row that no other of the rows
to write replaces. -/
def Blocked (listed : ρ → Prop) (B : ρ → Prop) (t : Table K) : Prop :=
  ∀ b, B b → ∃ r ∈ t.rows, K.slot r = K.slot b ∧ K.id r ≠ K.id b ∧
    ∀ x, listed x → K.id x = K.id r → B x

/-- Such rows are never written, however often it is tried. -/
theorem Upserts.blocked {listed B : ρ → Prop} (h : Upserts lost t rows t')
    (hlisted : ∀ x ∈ rows, listed x.1) (hB : Blocked listed B t) :
    Blocked listed B t' ∧ ∀ row, (row, true) ∈ rows → ¬B row := by
  induction h with
  | nil => exact ⟨hB, fun row hrow => by cases hrow⟩
  | @written t mid t' row rows hwrite hrest ih =>
    have hrow : ¬B row := by
      intro hb
      obtain ⟨r, hr, hslot, hid, -⟩ := hB row hb
      have hnone := upsert_eq_none_iff.mpr ⟨r, hr, hid, hslot⟩
      rw [hwrite] at hnone
      cases hnone
    have hmid : Blocked listed B mid := by
      intro b hb
      obtain ⟨r, hr, hslot, hid, hlist⟩ := hB b hb
      refine ⟨r, (mem_upsert hwrite).mpr (Or.inr ⟨hr, fun heq => hrow ?_⟩), hslot, hid, hlist⟩
      exact hlist row (hlisted (row, true) List.mem_cons_self) heq.symm
    obtain ⟨hend, hall⟩ := ih (fun x hx => hlisted x (List.mem_cons_of_mem _ hx)) hmid
    refine ⟨hend, fun x hx => ?_⟩
    rcases List.mem_cons.mp hx with heq | hx
    · cases heq
      exact hrow
    · exact hall x hx
  | failed _ _ ih =>
    obtain ⟨hend, hall⟩ := ih (fun x hx => hlisted x (List.mem_cons_of_mem _ hx)) hB
    refine ⟨hend, fun x hx => ?_⟩
    rcases List.mem_cons.mp hx with heq | hx
    · cases heq
    · exact hall x hx

end KeyedTable.Table
