import Mathlib.Data.List.Basic
import Mathlib.Tactic.Common

/-! A table whose rows have two unique keys: an id, and a slot such as a name within an owner.
The server refuses what would break either. -/
namespace KeyedTable

structure Keys (ρ ι κ : Type) where
  id : ρ → ι
  slot : ρ → κ

variable {ρ ι κ β : Type}

def Unique (f : ρ → β) (rows : List ρ) : Prop := ∀ r ∈ rows, ∀ s ∈ rows, f r = f s → r = s

instance [DecidableEq ρ] [DecidableEq β] (f : ρ → β) (rows : List ρ) :
    Decidable (Unique f rows) :=
  inferInstanceAs (Decidable (∀ r ∈ rows, ∀ s ∈ rows, f r = f s → r = s))

theorem Unique.cons {f : ρ → β} {row : ρ} {rows : List ρ} (h : Unique f rows)
    (hn : ∀ r ∈ rows, f r ≠ f row) : Unique f (row :: rows) := by
  intro r hr s hs heq
  rcases List.mem_cons.mp hr with hr' | hr' <;> rcases List.mem_cons.mp hs with hs' | hs'
  · rw [hr', hs']
  · exact absurd (heq.symm.trans (congrArg f hr')) (hn s hs')
  · exact absurd (heq.trans (congrArg f hs')) (hn r hr')
  · exact h r hr' s hs' heq

theorem Unique.filter {f : ρ → β} {rows : List ρ} (h : Unique f rows) (p : ρ → Bool) :
    Unique f (rows.filter p) := fun r hr s hs =>
  h r (List.mem_filter.mp hr).1 s (List.mem_filter.mp hs).1

theorem Unique.find?_eq_some_iff [DecidableEq β] {f : ρ → β} {rows : List ρ} (h : Unique f rows)
    {b : β} {r : ρ} : rows.find? (f · = b) = some r ↔ r ∈ rows ∧ f r = b := by
  constructor
  · intro hf
    exact ⟨List.mem_of_find?_eq_some hf, by simpa using List.find?_some hf⟩
  · rintro ⟨hr, hb⟩
    obtain ⟨s, hf⟩ : ∃ s, rows.find? (f · = b) = some s := by
      rw [← Option.isSome_iff_exists, List.find?_isSome]
      exact ⟨r, hr, by simpa using hb⟩
    have hs : f s = b := by simpa using List.find?_some hf
    rw [hf, h s (List.mem_of_find?_eq_some hf) r hr (hs.trans hb.symm)]

/-- Put the row in the place of the one with its id. -/
def replace [DecidableEq ι] (id : ρ → ι) (row : ρ) (rows : List ρ) : List ρ :=
  rows.map fun r => if id r = id row then row else r

theorem mem_replace [DecidableEq ι] {id : ρ → ι} {row r : ρ} {rows : List ρ} :
    r ∈ replace id row rows ↔
      (r = row ∧ ∃ s ∈ rows, id s = id row) ∨ (r ∈ rows ∧ id r ≠ id row) := by
  simp only [replace, List.mem_map]
  constructor
  · rintro ⟨s, hs, heq⟩
    split_ifs at heq with hid
    · exact Or.inl ⟨heq.symm, s, hs, hid⟩
    · exact Or.inr ⟨heq ▸ hs, heq ▸ hid⟩
  · rintro (⟨rfl, s, hs, hid⟩ | ⟨hr, hid⟩)
    · exact ⟨s, hs, if_pos hid⟩
    · exact ⟨r, hr, if_neg hid⟩

theorem Unique.replace [DecidableEq ι] {id : ρ → ι} {f : ρ → β} {row : ρ} {rows : List ρ}
    (h : Unique f rows) (hn : ∀ r ∈ rows, id r ≠ id row → f r ≠ f row) :
    Unique f (replace id row rows) := by
  intro r hr s hs heq
  rcases mem_replace.mp hr with ⟨hr', -⟩ | ⟨hr', hrid⟩ <;>
    rcases mem_replace.mp hs with ⟨hs', -⟩ | ⟨hs', hsid⟩
  · rw [hr', hs']
  · exact absurd (heq.symm.trans (congrArg f hr')) (hn s hs' hsid)
  · exact absurd (heq.trans (congrArg f hs')) (hn r hr' hrid)
  · exact h r hr' s hs' heq

structure Table (K : Keys ρ ι κ) where
  rows : List ρ
  ids : Unique K.id rows
  slots : Unique K.slot rows

variable [DecidableEq ι] [DecidableEq κ]

namespace Table

variable {K : Keys ρ ι κ}

def empty : Table K := ⟨[], by simp [Unique], by simp [Unique]⟩

def get (t : Table K) (i : ι) : Option ρ := t.rows.find? (K.id · = i)

def getSlot (t : Table K) (k : κ) : Option ρ := t.rows.find? (K.slot · = k)

def create (t : Table K) (row : ρ) : Option (Table K) :=
  if h : (∀ r ∈ t.rows, K.id r ≠ K.id row) ∧ ∀ r ∈ t.rows, K.slot r ≠ K.slot row then
    some ⟨row :: t.rows, t.ids.cons h.1, t.slots.cons h.2⟩
  else none

def save (t : Table K) (row : ρ) : Option (Table K) :=
  if h : ∀ r ∈ t.rows, K.id r ≠ K.id row → K.slot r ≠ K.slot row then
    some ⟨replace K.id row t.rows, t.ids.replace fun _ _ hid => hid, t.slots.replace h⟩
  else none

/-- Delete the rows that do not meet the condition. -/
def keep (t : Table K) (p : ρ → Bool) : Table K :=
  ⟨t.rows.filter p, t.ids.filter p, t.slots.filter p⟩

def delete (t : Table K) (i : ι) : Table K := t.keep fun r => decide (K.id r ≠ i)

variable {t t' : Table K} {row r : ρ} {i : ι} {k : κ}

omit [DecidableEq κ] in
theorem get_eq_some_iff : t.get i = some r ↔ r ∈ t.rows ∧ K.id r = i := t.ids.find?_eq_some_iff

omit [DecidableEq κ] in
theorem get_eq_none_iff : t.get i = none ↔ ∀ r ∈ t.rows, K.id r ≠ i := by simp [get]

omit [DecidableEq ι] in
theorem getSlot_eq_some_iff : t.getSlot k = some r ↔ r ∈ t.rows ∧ K.slot r = k :=
  t.slots.find?_eq_some_iff

omit [DecidableEq ι] in
theorem getSlot_eq_none_iff : t.getSlot k = none ↔ ∀ r ∈ t.rows, K.slot r ≠ k := by
  simp [getSlot]

theorem create_eq_none_iff :
    t.create row = none ↔ ∃ r ∈ t.rows, K.id r = K.id row ∨ K.slot r = K.slot row := by
  unfold create
  by_cases h : (∀ r ∈ t.rows, K.id r ≠ K.id row) ∧ ∀ r ∈ t.rows, K.slot r ≠ K.slot row
  · rw [dif_pos h]
    constructor
    · intro hn
      cases hn
    · rintro ⟨r, hr, hid | hslot⟩
      · exact absurd hid (h.1 r hr)
      · exact absurd hslot (h.2 r hr)
  · rw [dif_neg h]
    constructor
    · intro _
      by_contra hn
      push Not at hn
      exact h ⟨fun r hr => (hn r hr).1, fun r hr => (hn r hr).2⟩
    · intro _
      rfl

theorem mem_create (h : t.create row = some t') : r ∈ t'.rows ↔ r = row ∨ r ∈ t.rows := by
  unfold create at h
  split_ifs at h
  obtain rfl := Option.some.inj h
  exact List.mem_cons

theorem save_eq_none_iff :
    t.save row = none ↔ ∃ r ∈ t.rows, K.id r ≠ K.id row ∧ K.slot r = K.slot row := by
  unfold save
  by_cases h : ∀ r ∈ t.rows, K.id r ≠ K.id row → K.slot r ≠ K.slot row
  · rw [dif_pos h]
    constructor
    · intro hn
      cases hn
    · rintro ⟨r, hr, hid, hslot⟩
      exact absurd hslot (h r hr hid)
  · rw [dif_neg h]
    simpa using h

theorem mem_save (h : t.save row = some t') :
    r ∈ t'.rows ↔
      (r = row ∧ ∃ s ∈ t.rows, K.id s = K.id row) ∨ (r ∈ t.rows ∧ K.id r ≠ K.id row) := by
  unfold save at h
  split_ifs at h
  obtain rfl := Option.some.inj h
  exact mem_replace

omit [DecidableEq ι] [DecidableEq κ] in
@[simp] theorem mem_keep {p : ρ → Bool} : r ∈ (t.keep p).rows ↔ r ∈ t.rows ∧ p r = true :=
  List.mem_filter

omit [DecidableEq κ] in
@[simp] theorem mem_delete : r ∈ (t.delete i).rows ↔ r ∈ t.rows ∧ K.id r ≠ i := by
  simp [delete]

end Table

end KeyedTable
