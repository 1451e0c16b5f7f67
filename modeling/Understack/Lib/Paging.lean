import Mathlib.Data.List.Basic

/-! A list that is read in pages: one page every `stride` items, each of at most `size` items. -/
namespace Paging

variable {α : Type*} {items : List α} {size stride : ℕ}

/-- The items from `offset` on, `size` of them at most. -/
def page (items : List α) (size offset : ℕ) : List α := (items.drop offset).take size

def firstPages (items : List α) (size stride n : ℕ) : List α :=
  (List.range n).flatMap fun i => page items size (stride * i)

@[simp] theorem firstPages_zero : firstPages items size stride 0 = [] := rfl

theorem firstPages_succ (n : ℕ) :
    firstPages items size stride (n + 1) =
      firstPages items size stride n ++ page items size (stride * n) := by
  simp [firstPages, List.range_succ]

@[simp] theorem length_page (offset : ℕ) :
    (page items size offset).length = min size (items.length - offset) := by
  simp [page]

theorem page_eq_nil_iff (hsize : 0 < size) {offset : ℕ} :
    page items size offset = [] ↔ items.length ≤ offset := by
  rw [← List.length_eq_zero_iff, length_page]
  omega

theorem length_firstPages_le (hsize : size ≤ stride) (n : ℕ) :
    (firstPages items size stride n).length ≤ min (stride * n) items.length := by
  induction n with
  | zero => simp
  | succ n ih =>
    rw [firstPages_succ, List.length_append, length_page, Nat.mul_succ]
    omega

/-- Pages smaller than the stride leave items out as soon as the first page does. -/
theorem length_firstPages_lt (hsize : size < stride) (hlen : size < items.length) (n : ℕ) :
    (firstPages items size stride (n + 1)).length < min (stride * (n + 1)) items.length := by
  induction n with
  | zero =>
    rw [firstPages_succ, firstPages_zero, List.nil_append, length_page]
    omega
  | succ n ih =>
    rw [firstPages_succ, List.length_append, length_page, Nat.mul_succ stride (n + 1)]
    omega

/-- Pages as large as the stride lie next to one another. -/
theorem firstPages_self (n : ℕ) : firstPages items stride stride n = items.take (stride * n) := by
  induction n with
  | zero => simp
  | succ n ih => rw [firstPages_succ, ih, page, Nat.mul_succ, List.take_add]

/-- Where the first page is the whole list, the further ones are empty. -/
theorem firstPages_of_length_le (hsize : size ≤ stride) (hlen : items.length ≤ size) (n : ℕ) :
    firstPages items size stride (n + 1) = items := by
  induction n with
  | zero => simp [firstPages_succ, page, List.take_of_length_le hlen]
  | succ n ih =>
    have hoffset : items.length ≤ stride * (n + 1) := by
      rw [Nat.mul_succ]
      omega
    rw [firstPages_succ, ih, page, List.drop_eq_nil_of_le hoffset, List.take_nil, List.append_nil]

/-- Every page is as large as the stride, or the first one is the whole list. -/
def Complete (items : List α) (size stride : ℕ) : Prop := size = stride ∨ items.length ≤ size

theorem Complete.isPrefix (h : Complete items size stride) (hsize : size ≤ stride) (n : ℕ) :
    firstPages items size stride n <+: items := by
  obtain rfl | hlen := h
  · rw [firstPages_self]
    exact List.take_prefix _ _
  · cases n with
    | zero => exact List.nil_prefix
    | succ n => exact ⟨[], by rw [List.append_nil, firstPages_of_length_le hsize hlen]⟩

theorem Complete.eq_of_le (h : Complete items size stride) (hsize : size ≤ stride) {n : ℕ}
    (hn : items.length ≤ stride * n) : firstPages items size stride (n + 1) = items := by
  obtain rfl | hlen := h
  · rw [firstPages_self, Nat.mul_succ]
    exact List.take_of_length_le (by omega)
  · exact firstPages_of_length_le hsize hlen n

/-- Pages that are not complete never give the list. -/
theorem complete_of_eq (hsize : size ≤ stride) {n : ℕ}
    (h : firstPages items size stride (n + 1) = items) : Complete items size stride := by
  rcases Nat.eq_or_lt_of_le hsize with heq | hlt
  · exact Or.inl heq
  · refine Or.inr (Nat.le_of_not_lt fun hlen => ?_)
    have hless := length_firstPages_lt hlt hlen n
    rw [h] at hless
    omega

end Paging
