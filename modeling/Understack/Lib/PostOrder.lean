import Mathlib.Data.List.Basic
import Mathlib.Logic.Relation
import Understack.Lib.Runs

/-! A depth-first visit of keys that finishes the children of a key before the key itself. -/
namespace PostOrder

variable {κ : Type} (children : κ → List κ)

/-- The children of every key were finished before it. -/
def ChildrenFirst : List κ → Prop
  | [] => True
  | k :: done => (∀ c ∈ children k, c ∈ done) ∧ ChildrenFirst done

/-- What a visit adds to the finished keys, where `S` holds of what it can reach. -/
structure Extends (S : κ → Prop) (done done' : List κ) : Prop where
  subset : done ⊆ done'
  first : ChildrenFirst children done → ChildrenFirst children done'
  reached : ∀ k ∈ done', k ∈ done ∨ S k

section Visits

variable [DecidableEq κ]

/-- The keys that are finished after the visit of one more, the last one first; with fuel for the
depth, and none without enough of it. -/
def visit : ℕ → List κ → κ → Option (List κ)
  | 0, _, _ => none
  | fuel + 1, done, k =>
    if k ∈ done then some done else ((children k).foldlM (visit fuel) done).map (k :: ·)

/-- The keys in the order in which they are finished, the last one first. -/
def visitAll (fuel : ℕ) (roots : List κ) : Option (List κ) := roots.foldlM (visit children fuel) []

end Visits

variable {children} {S : κ → Prop}

theorem Extends.refl (done : List κ) : Extends children S done done :=
  ⟨fun _ h => h, fun h => h, fun _ h => Or.inl h⟩

theorem Extends.trans {done done' done'' : List κ} (h : Extends children S done done')
    (h' : Extends children S done' done'') : Extends children S done done'' where
  subset := fun _ hk => h'.subset (h.subset hk)
  first := fun hfirst => h'.first (h.first hfirst)
  reached := by
    intro k hk
    rcases h'.reached k hk with hk | hk
    · exact h.reached k hk
    · exact Or.inr hk

theorem extends_foldlM {f : List κ → κ → Option (List κ)} {keys : List κ}
    (hkeys : ∀ k ∈ keys, S k)
    (hf : ∀ k, S k → ∀ done done', f done k = some done' →
      Extends children S done done' ∧ k ∈ done') {done done' : List κ}
    (h : keys.foldlM f done = some done') :
    Extends children S done done' ∧ ∀ k ∈ keys, k ∈ done' := by
  refine Runs.foldlM_invariant (P := Extends children S) (Q := fun k done => k ∈ done)
    Extends.refl (fun _ _ _ => Extends.trans) (fun _ _ _ hext hk => hext.subset hk) ?_ h
  exact fun k hk done done' hdone => hf k (hkeys k hk) done done' hdone

section Spec

variable [DecidableEq κ] (hS : ∀ k, S k → ∀ c ∈ children k, S c)

include hS

theorem extends_visit {fuel : ℕ} {k : κ} (hk : S k) {done done' : List κ}
    (h : visit children fuel done k = some done') : Extends children S done done' ∧ k ∈ done' := by
  induction fuel generalizing k done done' with
  | zero => cases h
  | succ fuel ih =>
    rw [visit] at h
    split_ifs at h with hdone
    · cases h
      exact ⟨Extends.refl done, hdone⟩
    · obtain ⟨below, hbelow, rfl⟩ := Option.map_eq_some_iff.mp h
      obtain ⟨hext, hall⟩ := extends_foldlM (hS k hk)
        (fun c hc _ _ hvisit => ih hc hvisit) hbelow
      refine ⟨⟨fun x hx => List.mem_cons_of_mem k (hext.subset hx), ?_, ?_⟩, List.mem_cons_self⟩
      · exact fun hfirst => ⟨hall, hext.first hfirst⟩
      · intro x hx
        rcases List.mem_cons.mp hx with rfl | hx
        · exact Or.inr hk
        · exact hext.reached x hx

/-- A visit of the roots finishes them, and only what they reach, children first. -/
theorem visitAll_spec {fuel : ℕ} {roots done : List κ} (hroots : ∀ k ∈ roots, S k)
    (h : visitAll children fuel roots = some done) :
    ChildrenFirst children done ∧ (∀ k ∈ roots, k ∈ done) ∧ ∀ k ∈ done, S k := by
  obtain ⟨hext, hall⟩ := extends_foldlM hroots
    (fun k hk _ _ hvisit => extends_visit hS hk hvisit) h
  refine ⟨hext.first trivial, hall, fun k hk => ?_⟩
  rcases hext.reached k hk with hnil | hk
  · cases hnil
  · exact hk

end Spec

section Returns

variable [DecidableEq κ]

theorem visit_returns {rank : κ → ℕ} (hrank : ∀ k, ∀ c ∈ children k, rank c < rank k) {fuel : ℕ}
    {k : κ} (hfuel : rank k < fuel) (done : List κ) :
    ∃ done', visit children fuel done k = some done' := by
  induction fuel generalizing k done with
  | zero => omega
  | succ fuel ih =>
    rw [visit]
    split_ifs with hdone
    · exact ⟨done, rfl⟩
    · have hchildren : ∀ c ∈ children k, ∀ done, ∃ done', visit children fuel done c = some done' :=
        fun c hc done => ih (by have := hrank k c hc; omega) done
      obtain ⟨below, hbelow⟩ := Runs.foldlM_returns hchildren done
      exact ⟨k :: below, by rw [hbelow]; rfl⟩

/-- Where children are deeper than their parents, fuel for all the keys is enough. -/
theorem visitAll_returns {depth : κ → ℕ} (hdepth : ∀ k, ∀ c ∈ children k, depth k < depth c)
    {keys : List κ} (hkeys : ∀ k, ∀ c ∈ children k, c ∈ keys) (roots : List κ) :
    ∃ done, visitAll children (keys.length + 1) roots = some done := by
  -- how many of the keys are deeper
  let height (k : κ) : ℕ := (keys.filter fun c => depth k < depth c).length
  have hheight : ∀ k, ∀ c ∈ children k, height c < height k := by
    intro k c hc
    have hlt := hdepth k c hc
    have hbelow : (keys.filter fun x => depth c < depth x) =
        (keys.filter fun x => depth k < depth x).filter fun x => depth c < depth x := by
      rw [List.filter_filter]
      refine List.filter_congr fun x _ => ?_
      simp only [← Bool.decide_and, decide_eq_decide]
      omega
    simp only [height]
    rw [hbelow, List.length_filter_lt_length_iff_exists]
    exact ⟨c, List.mem_filter.mpr ⟨hkeys k c hc, decide_eq_true hlt⟩, by simp⟩
  refine Runs.foldlM_returns (fun k _ done => visit_returns hheight ?_ done) []
  have : height k ≤ keys.length := List.length_filter_le _ keys
  omega

theorem suffix_visit {fuel : ℕ} {k : κ} {done done' : List κ}
    (h : visit children fuel done k = some done') : done <:+ done' := by
  induction fuel generalizing k done done' with
  | zero => cases h
  | succ fuel ih =>
    rw [visit] at h
    split_ifs at h with hdone
    · cases h
      exact List.suffix_refl done
    · obtain ⟨below, hbelow, rfl⟩ := Option.map_eq_some_iff.mp h
      have hsuffix := (Runs.foldlM_invariant (P := fun a b : List κ => a <:+ b)
        (Q := fun _ _ => True) List.suffix_refl (fun _ _ _ h h' => h.trans h')
        (fun _ _ _ _ _ => trivial) (fun _ _ _ _ hvisit => ⟨ih hvisit, trivial⟩) hbelow).1
      exact hsuffix.trans (List.suffix_cons k below)

/-- What the visit of the first root finishes, it finishes before all the others. -/
theorem visitAll_first {fuel : ℕ} {k : κ} {roots done : List κ}
    (h : visitAll children fuel (k :: roots) = some done) :
    ∃ done₁, visit children fuel [] k = some done₁ ∧ done₁ <:+ done := by
  rw [visitAll, List.foldlM_cons] at h
  obtain ⟨done₁, hfirst, hrest⟩ := Option.bind_eq_some_iff.mp h
  refine ⟨done₁, hfirst, ?_⟩
  exact (Runs.foldlM_invariant (P := fun a b : List κ => a <:+ b) (Q := fun _ _ => True)
    List.suffix_refl (fun _ _ _ h h' => h.trans h') (fun _ _ _ _ _ => trivial)
    (fun _ _ _ _ hvisit => ⟨suffix_visit hvisit, trivial⟩) hrest).1

section

variable {depth : κ → ℕ} (hdepth : ∀ k, ∀ c ∈ children k, depth k < depth c)

include hdepth

/-- No key is finished twice. -/
theorem nodup_visit {fuel : ℕ} {k : κ} {done done' : List κ}
    (h : visit children fuel done k = some done') (hnodup : done.Nodup) : done'.Nodup := by
  induction fuel generalizing k done done' with
  | zero => cases h
  | succ fuel ih =>
    rw [visit] at h
    split_ifs at h with hdone
    · cases h
      exact hnodup
    · obtain ⟨below, hbelow, rfl⟩ := Option.map_eq_some_iff.mp h
      have hdeeper : ∀ c, depth k < depth c → ∀ x ∈ children c, depth k < depth x :=
        fun c hc x hx => Nat.lt_trans hc (hdepth c x hx)
      obtain ⟨hext, -⟩ := extends_foldlM (hdepth k)
        (fun c hc _ _ hvisit => extends_visit hdeeper hc hvisit) hbelow
      have hrest := (Runs.foldlM_invariant (P := fun a b : List κ => a.Nodup → b.Nodup)
        (Q := fun _ _ => True) (fun _ h => h) (fun _ _ _ h h' hn => h' (h hn))
        (fun _ _ _ _ _ => trivial) (fun _ _ _ _ hvisit => ⟨ih hvisit, trivial⟩) hbelow).1 hnodup
      refine List.nodup_cons.mpr ⟨fun hk => ?_, hrest⟩
      rcases hext.reached k hk with hold | hlt
      · exact hdone hold
      · exact absurd hlt (Nat.lt_irrefl _)

theorem nodup_visitAll {fuel : ℕ} {roots done : List κ}
    (h : visitAll children fuel roots = some done) : done.Nodup :=
  (Runs.foldlM_invariant (P := fun a b : List κ => a.Nodup → b.Nodup) (Q := fun _ _ => True)
    (fun _ h => h) (fun _ _ _ h h' hn => h' (h hn)) (fun _ _ _ _ _ => trivial)
    (fun _ _ _ _ hvisit => ⟨nodup_visit hdepth hvisit, trivial⟩) h).1 List.nodup_nil

end

end Returns

/-! The order of the finished keys. -/

theorem ChildrenFirst.closed {done : List κ} (h : ChildrenFirst children done) {k c : κ}
    (hk : k ∈ done) (hc : c ∈ children k) : c ∈ done := by
  induction done with
  | nil => cases hk
  | cons x done ih =>
    rcases List.mem_cons.mp hk with rfl | hk
    · exact List.mem_cons_of_mem k (h.1 c hc)
    · exact List.mem_cons_of_mem x (ih h.2 hk)

/-- The children of a key are finished before it. -/
theorem ChildrenFirst.before {later done : List κ} {k : κ}
    (h : ChildrenFirst children (later ++ k :: done)) : ∀ c ∈ children k, c ∈ done := by
  induction later with
  | nil => exact h.1
  | cons x later ih => exact ih h.2

theorem ChildrenFirst.reached {done : List κ} (h : ChildrenFirst children done) {k c : κ}
    (hk : k ∈ done) (hc : Relation.TransGen (fun x y => y ∈ children x) k c) : c ∈ done := by
  induction hc with
  | single hc => exact h.closed hk hc
  | tail _ hc ih => exact h.closed ih hc

/-- What lies below a key is finished before it. -/
theorem ChildrenFirst.pairwise {done : List κ} (h : ChildrenFirst children done)
    (hnodup : done.Nodup) :
    done.Pairwise fun later first =>
      ¬Relation.TransGen (fun x y => y ∈ children x) first later := by
  induction done with
  | nil => exact List.Pairwise.nil
  | cons k done ih =>
    obtain ⟨hnot, hnodup⟩ := List.nodup_cons.mp hnodup
    refine List.pairwise_cons.mpr ⟨fun first hfirst hbelow => hnot ?_, ih h.2 hnodup⟩
    exact h.2.reached hfirst hbelow

end PostOrder
