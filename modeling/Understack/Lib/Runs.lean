import Mathlib.Tactic.Common

/-! Runs of a deterministic transition function under a condition that every step meets in
the state before it, and the inversion of a step that may raise. Scheduling choices, if any,
are part of the actions. -/
namespace Runs

variable {σ α : Type*}

/-- Every action of the run meets `ok` in the state in which it is taken. -/
def Along (step : σ → α → σ) (ok : σ → α → Prop) : σ → List α → Prop
  | _, [] => True
  | s, a :: as => ok s a ∧ Along step ok (step s a) as

variable {step : σ → α → σ} {ok : σ → α → Prop}

instance Along.decidable [∀ s a, Decidable (ok s a)] :
    ∀ s as, Decidable (Along step ok s as)
  | _, [] => instDecidableTrue
  | s, a :: as =>
    have := Along.decidable (step s a) as
    inferInstanceAs (Decidable (ok s a ∧ Along step ok (step s a) as))

/-- A property that holds at the start and that every step meeting the condition keeps holds
in every state of such a run. -/
theorem Along.invariant {I : σ → Prop} (hstep : ∀ s a, I s → ok s a → I (step s a))
    {s : σ} {as pre : List α} (hs : I s) (h : Along step ok s as) (hp : pre <+: as) :
    I (pre.foldl step s) := by
  induction pre generalizing s as with
  | nil => exact hs
  | cons a pre ih =>
    obtain ⟨rest, rfl⟩ := hp
    exact ih (hstep s a hs h.1) h.2 ⟨rest, rfl⟩

/-- Every action of such a run meets the condition in the state it is taken in. -/
theorem Along.condition {s : σ} {as pre : List α} {a : α} (h : Along step ok s as)
    (hp : pre ++ [a] <+: as) : ok (pre.foldl step s) a := by
  induction pre generalizing s as with
  | nil =>
    obtain ⟨rest, rfl⟩ := hp
    exact h.1
  | cons b pre ih =>
    obtain ⟨rest, rfl⟩ := hp
    exact ih h.2 ⟨rest, rfl⟩

/-- Where the condition says exactly when a step keeps the property, the property holds in every
state of exactly the runs along which the condition does. -/
theorem Along.iff_invariant {I : σ → Prop} (hstep : ∀ s a, I s → (I (step s a) ↔ ok s a)) {s : σ}
    (hs : I s) (as : List α) : (∀ pre, pre <+: as → I (pre.foldl step s)) ↔ Along step ok s as := by
  constructor
  · intro h
    induction as generalizing s with
    | nil => trivial
    | cons a as ih =>
      have hnext : I (step s a) := h [a] ⟨as, rfl⟩
      refine ⟨(hstep s a hs).mp hnext, ih hnext fun pre hpre => ?_⟩
      exact h (a :: pre) (List.cons_prefix_cons.mpr ⟨rfl, hpre⟩)
  · intro h pre hpre
    exact Along.invariant (fun s a hi hok => (hstep s a hi).mpr hok) hs h hpre

/-- The same for runs whose steps meet another condition, under which a second property holds. -/
theorem Along.iff_invariant_under {I J : σ → Prop} {given : σ → α → Prop}
    (hkeep : ∀ s a, J s → given s a → J (step s a))
    (hstep : ∀ s a, J s → given s a → I s → (I (step s a) ↔ ok s a)) {s : σ} (hJ : J s) (hI : I s)
    {as : List α} (h : Along step given s as) :
    (∀ pre, pre <+: as → I (pre.foldl step s)) ↔ Along step ok s as := by
  induction as generalizing s with
  | nil => exact ⟨fun _ => trivial, fun _ pre hpre => List.prefix_nil.mp hpre ▸ hI⟩
  | cons a as ih =>
    obtain ⟨hgiven, hrest⟩ := h
    have hiff := hstep s a hJ hgiven hI
    constructor
    · intro hall
      have hnext : I (step s a) := hall [a] ⟨as, rfl⟩
      refine ⟨hiff.mp hnext, (ih (hkeep s a hJ hgiven) hnext hrest).mp fun pre hpre => ?_⟩
      exact hall (a :: pre) (List.cons_prefix_cons.mpr ⟨rfl, hpre⟩)
    · rintro ⟨hok, hoks⟩ pre hpre
      cases pre with
      | nil => exact hI
      | cons b pre =>
        obtain ⟨rfl, htail⟩ := List.cons_prefix_cons.mp hpre
        exact (ih (hkeep s _ hJ hgiven) (hiff.mpr hok) hrest).mpr hoks pre htail

theorem bind_eq_ok {ε β γ : Type} {x : Except ε β} {f : β → Except ε γ} {c : γ}
    (h : (x >>= f) = .ok c) : ∃ b, x = .ok b ∧ f b = .ok c := by
  cases x with
  | error e => cases h
  | ok b => exact ⟨b, rfl, h⟩

theorem mem_of_mapM_ok {ε β γ : Type} {f : β → Except ε γ} {l : List β} {r : List γ}
    (h : l.mapM f = .ok r) {c : γ} (hc : c ∈ r) : ∃ b ∈ l, f b = .ok c := by
  induction l generalizing r with
  | nil =>
    cases h
    cases hc
  | cons b l ih =>
    rw [List.mapM_cons] at h
    obtain ⟨d, hd, h⟩ := bind_eq_ok h
    obtain ⟨ds, hds, h⟩ := bind_eq_ok h
    cases h
    rcases List.mem_cons.mp hc with rfl | hc
    · exact ⟨b, List.mem_cons_self, hd⟩
    · obtain ⟨b', hb', hf⟩ := ih hds hc
      exact ⟨b', List.mem_cons_of_mem b hb', hf⟩

theorem exists_of_mapM_ok {ε β γ : Type} {f : β → Except ε γ} {l : List β} {r : List γ}
    (h : l.mapM f = .ok r) {b : β} (hb : b ∈ l) : ∃ c ∈ r, f b = .ok c := by
  induction l generalizing r with
  | nil => cases hb
  | cons a l ih =>
    rw [List.mapM_cons] at h
    obtain ⟨d, hd, h⟩ := bind_eq_ok h
    obtain ⟨ds, hds, h⟩ := bind_eq_ok h
    cases h
    rcases List.mem_cons.mp hb with rfl | hb
    · exact ⟨d, List.mem_cons_self, hd⟩
    · obtain ⟨c, hc, hf⟩ := ih hds hb
      exact ⟨c, List.mem_cons_of_mem d hc, hf⟩

theorem mapM_returns {ε β γ : Type} {f : β → Except ε γ} {l : List β}
    (h : ∀ b ∈ l, ∃ c, f b = .ok c) : ∃ r, l.mapM f = .ok r := by
  induction l with
  | nil => exact ⟨[], rfl⟩
  | cons b l ih =>
    obtain ⟨c, hc⟩ := h b List.mem_cons_self
    obtain ⟨r, hr⟩ := ih fun b' hb' => h b' (List.mem_cons_of_mem b hb')
    exact ⟨c :: r, by rw [List.mapM_cons, hc, hr]; rfl⟩

/-- A list comprehension whose condition may raise. -/
def select {ε β : Type} (p : β → Except ε Bool) : List β → Except ε (List β)
  | [] => .ok []
  | b :: l => do
    let keep ← p b
    let rest ← select p l
    return if keep then b :: rest else rest

theorem select_eq_filter {ε β : Type} {p : β → Except ε Bool} {q : β → Bool} {l : List β}
    (h : ∀ b ∈ l, p b = .ok (q b)) : select p l = .ok (l.filter q) := by
  induction l with
  | nil => rfl
  | cons b l ih =>
    have hrest := ih fun b' hb' => h b' (List.mem_cons_of_mem b hb')
    rw [select, h b List.mem_cons_self, hrest, List.filter_cons]
    rfl

theorem exists_of_select_ok {ε β : Type} {p : β → Except ε Bool} {l r : List β}
    (h : select p l = .ok r) {b : β} (hb : b ∈ l) : ∃ keep, p b = .ok keep := by
  induction l generalizing r with
  | nil => cases hb
  | cons a l ih =>
    obtain ⟨keep, hkeep, h⟩ := bind_eq_ok h
    obtain ⟨rest, hrest, -⟩ := bind_eq_ok h
    rcases List.mem_cons.mp hb with rfl | hb
    · exact ⟨keep, hkeep⟩
    · exact ih hrest hb

/-- A loop whose turns may not return: what each turn that returns says, all of them say. -/
theorem foldlM_invariant {f : σ → α → Option σ} {P : σ → σ → Prop} {Q : α → σ → Prop}
    (hrefl : ∀ s, P s s) (htrans : ∀ s s' s'', P s s' → P s' s'' → P s s'')
    (hkeep : ∀ a s s', P s s' → Q a s → Q a s') {l : List α}
    (hturn : ∀ a ∈ l, ∀ s s', f s a = some s' → P s s' ∧ Q a s') {s s' : σ}
    (h : l.foldlM f s = some s') : P s s' ∧ ∀ a ∈ l, Q a s' := by
  induction l generalizing s with
  | nil =>
    cases h
    exact ⟨hrefl _, fun a ha => by cases ha⟩
  | cons a l ih =>
    rw [List.foldlM_cons] at h
    obtain ⟨s₁, hfirst, hrest⟩ := Option.bind_eq_some_iff.mp h
    obtain ⟨hP₁, hQ₁⟩ := hturn a List.mem_cons_self s s₁ hfirst
    obtain ⟨hP, hQ⟩ := ih (fun b hb => hturn b (List.mem_cons_of_mem a hb)) hrest
    refine ⟨htrans _ _ _ hP₁ hP, fun b hb => ?_⟩
    rcases List.mem_cons.mp hb with rfl | hb
    · exact hkeep b s₁ s' hP hQ₁
    · exact hQ b hb

/-- A loop over states that stand for others. -/
theorem foldlM_map {τ : Type*} {g : τ → σ} {f : σ → α → Option σ} {f' : τ → α → Option τ}
    {l : List α} (h : ∀ a ∈ l, ∀ t, f (g t) a = (f' t a).map g) {s : τ} :
    l.foldlM f (g s) = (l.foldlM f' s).map g := by
  induction l generalizing s with
  | nil => rfl
  | cons a l ih =>
    obtain ⟨ha, hl⟩ := List.forall_mem_cons.mp h
    rw [List.foldlM_cons, List.foldlM_cons, ha]
    cases f' s a with
    | none => rfl
    | some t => exact ih hl

/-- A loop whose turns all return does. -/
theorem foldlM_returns {f : σ → α → Option σ} {l : List α}
    (hturn : ∀ a ∈ l, ∀ s, ∃ s', f s a = some s') (s : σ) : ∃ s', l.foldlM f s = some s' := by
  induction l generalizing s with
  | nil => exact ⟨s, rfl⟩
  | cons a l ih =>
    obtain ⟨s₁, hfirst⟩ := hturn a List.mem_cons_self s
    rw [List.foldlM_cons, hfirst]
    exact ih (fun b hb => hturn b (List.mem_cons_of_mem a hb)) s₁

/-- A loop none of whose turns raises. -/
theorem foldlM_ok {ε : Type} {σ : Type} {f : σ → α → Except ε σ} {l : List α}
    (hturn : ∀ a ∈ l, ∀ s, ∃ s', f s a = .ok s') (s : σ) : ∃ s', l.foldlM f s = .ok s' := by
  induction l generalizing s with
  | nil => exact ⟨s, rfl⟩
  | cons a l ih =>
    obtain ⟨s₁, hfirst⟩ := hturn a List.mem_cons_self s
    rw [List.foldlM_cons, hfirst]
    exact ih (fun b hb => hturn b (List.mem_cons_of_mem a hb)) s₁

end Runs
