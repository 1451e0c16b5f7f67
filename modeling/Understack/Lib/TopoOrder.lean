import Mathlib.Data.List.Lex
import Mathlib.Data.Set.Finite.Basic
import Mathlib.Logic.Relation
import Mathlib.Order.WellFounded
import Mathlib.Data.Fintype.Order

/-! Topological orders of a dependency relation and the lexicographically least one.
`dep x y` says that `x` depends on `y`, so `y` has to come first. -/
namespace TopoOrder
open Relation

variable {α : Type*} (nodes : Set α) (dep : α → α → Prop)

/-- `x` can come next once the nodes of `done` have been placed. -/
def Ready (done : Set α) (x : α) : Prop := x ∈ nodes ∧ x ∉ done ∧ ∀ y, dep x y → y ∈ done

/-- Every element is ready after `done` and the elements before it. -/
def ReadyOrder : Set α → List α → Prop
  | _, [] => True
  | done, x :: xs => Ready nodes dep done x ∧ ReadyOrder (insert x done) xs

/-- Every element is the least of those ready after `done` and the elements before it. -/
def LeastOrder [LE α] : Set α → List α → Prop
  | _, [] => True
  | done, x :: xs =>
    (Ready nodes dep done x ∧ ∀ y, Ready nodes dep done y → x ≤ y) ∧ LeastOrder (insert x done) xs

/-- `y` stands before `x` in the list. -/
def Precedes (order : List α) (y x : α) : Prop := ∃ l r, order = l ++ x :: r ∧ y ∈ l

variable {nodes dep}

theorem ReadyOrder.mem {done : Set α} {xs : List α} (h : ReadyOrder nodes dep done xs) {x : α}
    (hx : x ∈ xs) : x ∈ nodes ∧ x ∉ done := by
  induction xs generalizing done with
  | nil => simp at hx
  | cons a xs ih =>
    rcases List.mem_cons.mp hx with rfl | hx
    · exact ⟨h.1.1, h.1.2.1⟩
    · obtain ⟨h1, h2⟩ := ih h.2 hx
      exact ⟨h1, fun hd => h2 (Set.mem_insert_of_mem a hd)⟩

theorem ReadyOrder.nodup {done : Set α} {xs : List α} (h : ReadyOrder nodes dep done xs) :
    xs.Nodup := by
  induction xs generalizing done with
  | nil => exact List.nodup_nil
  | cons x xs ih =>
    refine List.nodup_cons.mpr ⟨fun hx => ?_, ih h.2⟩
    exact (h.2.mem hx).2 (Set.mem_insert x done)

theorem ReadyOrder.precedes {done : Set α} {xs : List α} (h : ReadyOrder nodes dep done xs)
    {x y : α} (hx : x ∈ xs) (hd : dep x y) : y ∈ done ∨ Precedes xs y x := by
  induction xs generalizing done with
  | nil => simp at hx
  | cons a xs ih =>
    rcases List.mem_cons.mp hx with rfl | hxs
    · exact Or.inl (h.1.2.2 y hd)
    · rcases ih h.2 hxs with (rfl | hy) | ⟨l, r, rfl, hy⟩
      · obtain ⟨l, r, rfl⟩ := List.append_of_mem hxs
        exact Or.inr ⟨y :: l, r, rfl, by simp⟩
      · exact Or.inl hy
      · exact Or.inr ⟨a :: l, r, rfl, by simp [hy]⟩

/-- A list without repetitions in which the dependencies come first is a ready order. -/
theorem readyOrder_of_precedes {order : List α} (hn : order.Nodup) (hm : ∀ x ∈ order, x ∈ nodes)
    (hp : ∀ x ∈ order, ∀ y, dep x y → Precedes order y x) : ReadyOrder nodes dep ∅ order := by
  -- the induction is on the rest `s` of the list, with everything before it in `done`
  have key (s p : List α) (h : order = p ++ s) : ReadyOrder nodes dep {z | z ∈ p} s := by
    induction s generalizing p with
    | nil => trivial
    | cons x s ih =>
      have hx : x ∈ order := by simp [h]
      have hxp : x ∉ p := by
        rw [h] at hn
        exact fun hxp => List.disjoint_of_nodup_append hn hxp (by simp)
      refine ⟨⟨hm x hx, hxp, fun y hy => ?_⟩, ?_⟩
      · obtain ⟨l, r, hlr, hyl⟩ := hp x hx y hy
        have hxl : x ∉ l ∧ x ∉ r := by
          rw [hlr, List.nodup_append] at hn
          exact ⟨fun hxl => hn.2.2 x hxl x (by simp) rfl, (List.nodup_cons.mp hn.2.1).1⟩
        obtain rfl : l = p :=
          (List.append_cons_inj_of_notMem hxl.1 hxl.2).mp (hlr.symm.trans h) |>.1
        exact hyl
      · have hset : insert x {z | z ∈ p} = {z | z ∈ p ++ [x]} := by
          ext z
          simp [or_comm]
        rw [hset]
        exact ih (p ++ [x]) (by simp [h])
  simpa using key order [] rfl

section Least
variable [LinearOrder α]

theorem LeastOrder.readyOrder {done : Set α} {xs : List α} (h : LeastOrder nodes dep done xs) :
    ReadyOrder nodes dep done xs := by
  induction xs generalizing done with
  | nil => trivial
  | cons x xs ih => exact ⟨h.1.1, ih h.2⟩

theorem LeastOrder.concat {done : Set α} {xs : List α} {x : α}
    (h : LeastOrder nodes dep done xs) (hx : Ready nodes dep (done ∪ {z | z ∈ xs}) x)
    (hl : ∀ y, Ready nodes dep (done ∪ {z | z ∈ xs}) y → x ≤ y) :
    LeastOrder nodes dep done (xs ++ [x]) := by
  induction xs generalizing done with
  | nil =>
    have hset : done ∪ {z | z ∈ ([] : List α)} = done := by simp
    rw [hset] at hx hl
    exact ⟨⟨hx, hl⟩, trivial⟩
  | cons a xs ih =>
    have hset : insert a done ∪ {z | z ∈ xs} = done ∪ {z | z ∈ a :: xs} := by
      ext z
      simp only [Set.mem_union, Set.mem_insert_iff, Set.mem_ofPred_eq, List.mem_cons]
      tauto
    exact ⟨h.1, ih h.2 (by rwa [hset]) (by rwa [hset])⟩

/-- Taking the least ready element at every turn gives the least ready order. -/
theorem LeastOrder.le {done : Set α} {xs ys : List α} (hx : LeastOrder nodes dep done xs)
    (hy : ReadyOrder nodes dep done ys) (hlen : xs.length = ys.length) : xs ≤ ys := by
  induction xs generalizing done ys with
  | nil =>
    obtain rfl := List.eq_nil_of_length_eq_zero hlen.symm
    exact le_refl _
  | cons x xs ih =>
    cases ys with
    | nil => simp at hlen
    | cons y ys =>
      rcases (hx.1.2 y hy.1).lt_or_eq with hlt | rfl
      · exact le_of_lt (List.Lex.rel hlt)
      · have hrest := ih hx.2 hy.2 (by simpa using hlen)
        exact List.cons_le_cons x hrest

end Least

/-- A finite nonempty set in which everything depends on something of the set has a cycle. -/
theorem exists_cycle {s : Set α} (hfin : s.Finite) (hne : s.Nonempty)
    (h : ∀ x ∈ s, ∃ y ∈ s, dep x y) : ∃ x, TransGen dep x x := by
  by_contra hacyc
  have : Finite s := hfin
  have : IsTrans s fun a b => TransGen dep b.1 a.1 := ⟨fun _ _ _ hab hbc => hbc.trans hab⟩
  have : Std.Irrefl fun a b : s => TransGen dep b.1 a.1 := ⟨fun a ha => hacyc ⟨a.1, ha⟩⟩
  have wf : WellFounded fun a b : s => TransGen dep b.1 a.1 :=
    Finite.wellFounded_of_trans_of_irrefl _
  obtain ⟨x, hx⟩ := hne
  obtain ⟨m, -, hmin⟩ := wf.has_min Set.univ ⟨⟨x, hx⟩, trivial⟩
  obtain ⟨y, hy, hd⟩ := h m.1 m.2
  exact hmin ⟨y, hy⟩ trivial (TransGen.single hd)

/-- A ready order of all nodes leaves no room for a cycle. -/
theorem ReadyOrder.acyclic {order : List α} (h : ReadyOrder nodes dep ∅ order)
    (hall : ∀ x y, dep x y → x ∈ order) (x : α) : ¬ TransGen dep x x := by
  classical
  have hlt (a b : α) (hab : dep a b) : order.idxOf b < order.idxOf a := by
    obtain ⟨l, r, rfl, hb⟩ := (h.precedes (hall a b hab) hab).resolve_left (by simp)
    have hal : a ∉ l := fun hal => List.disjoint_of_nodup_append h.nodup hal (by simp)
    rw [List.idxOf_append_of_mem hb, List.idxOf_append_of_notMem hal, List.idxOf_cons_self]
    have := List.idxOf_lt_length_of_mem hb
    omega
  intro hx
  have : TransGen (fun m n : ℕ => n < m) (order.idxOf x) (order.idxOf x) :=
    hx.lift (order.idxOf ·) hlt
  rw [transGen_eq_self] at this
  omega

end TopoOrder
