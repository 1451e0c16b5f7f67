import Mathlib.Data.List.TakeWhile
import Mathlib.Tactic.Common

/-! Regular expressions under a backtracking matcher that prefers the leftmost match and, from one
start, the first in the order of its choices: a repetition takes as much as it can, an option is
taken if it can be. The expressions here have no repetition but of classes, and match no empty text
where they are searched for. -/
namespace Regexp

variable {α : Type}

inductive Re (α : Type) where
  | lit (w : List α)
  | plus (p : α → Bool)
  | seq (a b : Re α)
  | opt (a : Re α)

/-- The texts that an expression stands for. -/
def Re.Lang : Re α → List α → Prop
  | .lit w, m => m = w
  | .plus p, m => m ≠ [] ∧ ∀ c ∈ m, p c = true
  | .seq a b, m => ∃ u v, a.Lang u ∧ b.Lang v ∧ m = u ++ v
  | .opt a, m => m = [] ∨ a.Lang m

section

variable [DecidableEq α]

/-- The matches at the start of a text, each with what follows it, in the order of preference. -/
def Re.results : Re α → List α → List (List α × List α)
  | .lit w, s => if w <+: s then [(w, s.drop w.length)] else []
  | .plus p, s => (List.range (s.takeWhile p).length).reverse.map fun n =>
      (s.take (n + 1), s.drop (n + 1))
  | .seq a b, s => (a.results s).flatMap fun u => (b.results u.2).map fun v => (u.1 ++ v.1, v.2)
  | .opt a, s => a.results s ++ [([], s)]

/-- The matches of a sequence whose first part is a group: the group, the rest of the match, and
what follows. -/
def captures (a b : Re α) (s : List α) : List (List α × List α × List α) :=
  (a.results s).flatMap fun u => (b.results u.2).map fun v => (u.1, v)

/-- `FindStringSubmatch`: the group of the leftmost match. -/
def submatch (a b : Re α) : List α → Option (List α)
  | [] => (captures a b []).head?.map Prod.fst
  | c :: s => match (captures a b (c :: s)).head? with
    | some u => some u.1
    | none => submatch a b s

/-- `ReplaceAllStringFunc` with a function that keeps a state, after `n` more characters that are
part of a match. -/
def replaceFrom {σ : Type} (e : Re α) (repl : List α → σ → List α × σ) :
    ℕ → List α → σ → List α × σ
  | _, [], st => ([], st)
  | n + 1, _ :: s, st => replaceFrom e repl n s st
  | 0, c :: s, st => match (e.results (c :: s)).head? with
    | some u =>
      let r := repl u.1 st
      let q := replaceFrom e repl (u.1.length - 1) s r.2
      (r.1 ++ q.1, q.2)
    | none =>
      let q := replaceFrom e repl 0 s st
      (c :: q.1, q.2)

/-- Replacement by a function of the match alone. -/
def substituteFrom (e : Re α) (g : List α → List α) : ℕ → List α → List α
  | _, [] => []
  | n + 1, _ :: s => substituteFrom e g n s
  | 0, c :: s => match (e.results (c :: s)).head? with
    | some u => g u.1 ++ substituteFrom e g (u.1.length - 1) s
    | none => c :: substituteFrom e g 0 s

def substitute (e : Re α) (g : List α → List α) (s : List α) : List α := substituteFrom e g 0 s

/-! One equation for each constructor. -/

theorem Re.results_lit (w s : List α) :
    (Re.lit w).results s = if w <+: s then [(w, s.drop w.length)] else [] := rfl

theorem Re.results_plus (p : α → Bool) (s : List α) :
    (Re.plus p).results s = (List.range (s.takeWhile p).length).reverse.map fun n =>
      (s.take (n + 1), s.drop (n + 1)) := rfl

theorem Re.results_seq (a b : Re α) (s : List α) :
    (Re.seq a b).results s =
      (a.results s).flatMap fun u => (b.results u.2).map fun v => (u.1 ++ v.1, v.2) := rfl

theorem Re.results_opt (a : Re α) (s : List α) :
    (Re.opt a).results s = a.results s ++ [([], s)] := rfl

/-! What a result is. -/

theorem mem_results_plus {p : α → Bool} {s m r : List α} :
    (m, r) ∈ (Re.plus p).results s ↔ (Re.plus p).Lang m ∧ s = m ++ r := by
  rw [Re.results_plus, List.mem_map]
  constructor
  · rintro ⟨n, hn, h⟩
    obtain ⟨rfl, rfl⟩ := Prod.mk.inj h
    have hlt : n < (s.takeWhile p).length := by simpa using hn
    have hpre : s.take (n + 1) <+: s.takeWhile p := by
      refine List.prefix_of_prefix_length_le (List.take_prefix _ _) (List.takeWhile_prefix p) ?_
      rw [List.length_take]
      omega
    refine ⟨⟨fun hnil => ?_, fun c hc => List.mem_takeWhile_imp (hpre.subset hc)⟩,
      (List.take_append_drop _ _).symm⟩
    have hlen := (List.takeWhile_prefix p (l := s)).length_le
    have hzero := congrArg List.length hnil
    rw [List.length_take, List.length_nil] at hzero
    omega
  · rintro ⟨⟨hne, hall⟩, rfl⟩
    have hpos := List.length_pos_iff.mpr hne
    refine ⟨m.length - 1, ?_, ?_⟩
    · rw [List.mem_reverse, List.mem_range, List.takeWhile_append_of_pos hall, List.length_append]
      omega
    · rw [Nat.sub_add_cancel hpos, List.take_left, List.drop_left]

theorem mem_results {e : Re α} {s m r : List α} :
    (m, r) ∈ e.results s ↔ e.Lang m ∧ s = m ++ r := by
  induction e generalizing s m r with
  | lit w =>
    rw [Re.results_lit]
    split
    · next h =>
      obtain ⟨t, rfl⟩ := h
      rw [List.drop_left, List.mem_singleton, Prod.mk.injEq]
      refine and_congr_right fun hm => ?_
      rw [hm, List.append_cancel_left_eq, eq_comm]
    · next h =>
      refine iff_of_false List.not_mem_nil ?_
      rintro ⟨rfl, rfl⟩
      exact h (List.prefix_append _ _)
  | plus p => exact mem_results_plus
  | seq a b iha ihb =>
    rw [Re.results_seq, List.mem_flatMap]
    constructor
    · rintro ⟨u, hu, hv⟩
      obtain ⟨v, hmem, h⟩ := List.mem_map.mp hv
      obtain ⟨rfl, rfl⟩ := Prod.mk.inj h
      obtain ⟨ha, hs⟩ := iha.mp hu
      obtain ⟨hb, hrest⟩ := ihb.mp hmem
      exact ⟨⟨u.1, v.1, ha, hb, rfl⟩, by rw [hs, hrest, List.append_assoc]⟩
    · rintro ⟨⟨u, v, ha, hb, rfl⟩, rfl⟩
      refine ⟨(u, v ++ r), iha.mpr ⟨ha, by rw [List.append_assoc]⟩, ?_⟩
      exact List.mem_map.mpr ⟨(v, r), ihb.mpr ⟨hb, rfl⟩, rfl⟩
  | opt a ih =>
    rw [Re.results_opt, List.mem_append, ih, List.mem_singleton]
    constructor
    · rintro (⟨ha, hs⟩ | h)
      · exact ⟨.inr ha, hs⟩
      · obtain ⟨rfl, rfl⟩ := Prod.mk.inj h
        exact ⟨.inl rfl, rfl⟩
    · rintro ⟨rfl | ha, hs⟩
      · exact .inr (by rw [hs, List.nil_append])
      · exact .inl ⟨ha, hs⟩

theorem results_eq_nil {e : Re α} {s : List α} :
    e.results s = [] ↔ ∀ m, e.Lang m → ¬ m <+: s := by
  rw [List.eq_nil_iff_forall_not_mem]
  constructor
  · rintro h m hm ⟨r, hr⟩
    exact h (m, r) (mem_results.mpr ⟨hm, hr.symm⟩)
  · rintro h ⟨m, r⟩ hmem
    obtain ⟨hm, hs⟩ := mem_results.mp hmem
    exact h m hm ⟨r, hs.symm⟩

instance (e : Re α) (m : List α) : Decidable (e.Lang m) :=
  decidable_of_iff ((m, []) ∈ e.results m) (by simp [mem_results])

theorem mem_captures {a b : Re α} {s u v r : List α} :
    (u, v, r) ∈ captures a b s ↔ a.Lang u ∧ b.Lang v ∧ s = u ++ (v ++ r) := by
  rw [captures, List.mem_flatMap]
  constructor
  · rintro ⟨x, hx, hy⟩
    obtain ⟨y, hmem, h⟩ := List.mem_map.mp hy
    obtain ⟨rfl, rfl⟩ := Prod.mk.inj h
    obtain ⟨ha, hs⟩ := mem_results.mp hx
    obtain ⟨hb, hrest⟩ := mem_results.mp hmem
    exact ⟨ha, hb, hrest ▸ hs⟩
  · rintro ⟨ha, hb, hs⟩
    exact ⟨(u, v ++ r), mem_results.mpr ⟨ha, hs⟩,
      List.mem_map.mpr ⟨(v, r), mem_results.mpr ⟨hb, rfl⟩, rfl⟩⟩

theorem results_seq (a b : Re α) (s : List α) :
    (Re.seq a b).results s = (captures a b s).map fun u => (u.1 ++ u.2.1, u.2.2) := by
  rw [Re.results_seq, captures, List.map_flatMap]
  simp only [List.map_map, Function.comp_def]

theorem captures_seq (a b c : Re α) (s : List α) :
    captures (.seq a b) c s =
      (a.results s).flatMap fun t => (captures b c t.2).map fun u => (t.1 ++ u.1, u.2) := by
  simp only [captures, Re.results_seq, List.flatMap_assoc, List.map_flatMap, List.flatMap_map,
    List.map_map, Function.comp_def]

/-! The preferred result. -/

theorem head?_flatMap {β γ : Type} {l : List β} {f : β → List γ} {x : β} {y : γ}
    (hl : l.head? = some x) (hf : (f x).head? = some y) : (l.flatMap f).head? = some y := by
  obtain ⟨l', rfl⟩ := List.head?_eq_some_iff.mp hl
  obtain ⟨t, ht⟩ := List.head?_eq_some_iff.mp hf
  rw [List.flatMap_cons, ht, List.cons_append, List.head?_cons]

theorem first_lit (w z : List α) : ((Re.lit w).results (w ++ z)).head? = some (w, z) := by
  rw [Re.results_lit, if_pos (List.prefix_append _ _), List.drop_left, List.head?_cons]

theorem first_seq {a b : Re α} {s u t : List α} {v : List α × List α}
    (ha : (a.results s).head? = some (u, t)) (hb : (b.results t).head? = some v) :
    ((Re.seq a b).results s).head? = some (u ++ v.1, v.2) := by
  refine head?_flatMap ha ?_
  rw [List.head?_map, hb, Option.map_some]

theorem first_opt {a : Re α} {s : List α} {u : List α × List α}
    (h : (a.results s).head? = some u) : ((Re.opt a).results s).head? = some u := by
  rw [Re.results_opt, List.head?_append, h, Option.some_or]

theorem first_opt_of_nil {a : Re α} {s : List α} (h : a.results s = []) :
    ((Re.opt a).results s).head? = some ([], s) := by
  rw [Re.results_opt, h, List.nil_append, List.head?_cons]

theorem pairwise_results_plus (p : α → Bool) (s : List α) :
    ((Re.plus p).results s).Pairwise fun u v => v.1.length < u.1.length := by
  rw [Re.results_plus, List.pairwise_map, List.pairwise_reverse]
  refine List.pairwise_lt_range.imp_of_mem fun {m n} _ hn hlt => ?_
  have hlen := (List.takeWhile_prefix p (l := s)).length_le
  have hbound := List.mem_range.mp hn
  rw [List.length_take, List.length_take]
  omega

/-- What is tried first after a repetition that is cut at `t`, when whatever is tried after a longer
one fails or comes to the same. -/
theorem head?_flatMap_plus {γ : Type} {p : α → Bool} {s t r : List α}
    {f : List α × List α → List γ} {v : γ} (hmem : (t, r) ∈ (Re.plus p).results s)
    (ht : (f (t, r)).head? = some v)
    (hlonger : ∀ t' r', (t', r') ∈ (Re.plus p).results s → t.length < t'.length →
      f (t', r') = [] ∨ (f (t', r')).head? = some v) :
    (((Re.plus p).results s).flatMap f).head? = some v := by
  have hsorted := pairwise_results_plus p s
  obtain ⟨l₁, l₂, hl⟩ := List.append_of_mem hmem
  rw [hl] at hsorted hlonger ⊢
  have hbefore : ∀ x ∈ l₁, f x = [] ∨ (f x).head? = some v := fun x hx =>
    hlonger x.1 x.2 (List.mem_append_left _ hx)
      ((List.pairwise_append.mp hsorted).2.2 x hx (t, r) List.mem_cons_self)
  clear hl hmem hsorted hlonger
  induction l₁ with
  | nil => exact head?_flatMap rfl ht
  | cons x l₁ ih =>
    rw [List.cons_append, List.flatMap_cons]
    rcases hbefore x List.mem_cons_self with hx | hx
    · rw [hx, List.nil_append]
      exact ih fun y hy => hbefore y (List.mem_cons_of_mem _ hy)
    · rw [List.head?_append, hx, Option.some_or]

theorem first_plus {p : α → Bool} {u z : List α} (hne : u ≠ []) (hu : ∀ c ∈ u, p c = true)
    (hz : ∀ c ∈ z.head?, p c = false) :
    ((Re.plus p).results (u ++ z)).head? = some (u, z) := by
  have hmem : (u, z) ∈ (Re.plus p).results (u ++ z) := mem_results.mpr ⟨⟨hne, hu⟩, rfl⟩
  rw [← List.flatMap_singleton' ((Re.plus p).results (u ++ z))]
  refine head?_flatMap_plus hmem rfl fun t r ht hlen => ?_
  obtain ⟨⟨-, hall⟩, heq⟩ := mem_results.mp ht
  -- a longer repetition would take the character after `u`
  obtain ⟨w, rfl⟩ : u <+: t :=
    List.prefix_of_prefix_length_le ⟨z, rfl⟩ ⟨r, heq.symm⟩ hlen.le
  rw [List.append_assoc, List.append_cancel_left_eq] at heq
  cases w with
  | nil => simp at hlen
  | cons c w =>
    have hc : p c = true := hall c (by simp)
    rw [hz c (by simp [heq])] at hc
    cases hc

theorem submatch_of_head {a b : Re α} {s : List α} {u : List α × List α × List α}
    (h : (captures a b s).head? = some u) : submatch a b s = some u.1 := by
  cases s with
  | nil => rw [submatch, h, Option.map_some]
  | cons c s => rw [submatch, h]

/-! Replacement. -/

/-- A function whose answers do not depend on its state, as long as the state keeps `I`. -/
theorem replaceFrom_eq {σ : Type} {e : Re α} {repl : List α → σ → List α × σ}
    {g : List α → List α} {I : σ → Prop}
    (h : ∀ m st, I st → (repl m st).1 = g m ∧ I (repl m st).2) {st : σ} (hst : I st) (n : ℕ)
    (s : List α) :
    (replaceFrom e repl n s st).1 = substituteFrom e g n s ∧ I (replaceFrom e repl n s st).2 := by
  induction s generalizing n st with
  | nil => cases n <;> exact ⟨rfl, hst⟩
  | cons c s ih =>
    cases n with
    | succ n => exact ih hst n
    | zero =>
      rw [replaceFrom, substituteFrom]
      cases (e.results (c :: s)).head? with
      | none => exact ⟨congrArg (c :: ·) (ih hst 0).1, (ih hst 0).2⟩
      | some u =>
        obtain ⟨hg, hI⟩ := h u.1 st hst
        obtain ⟨hq, hI'⟩ := ih hI (u.1.length - 1)
        exact ⟨congrArg₂ (· ++ ·) hg hq, hI'⟩

theorem substituteFrom_append (e : Re α) (g : List α → List α) (u s : List α) :
    substituteFrom e g u.length (u ++ s) = substitute e g s := by
  induction u with
  | nil => rfl
  | cons c u ih => exact ih

theorem substitute_match {e : Re α} {s m r : List α} (g : List α → List α)
    (h : (e.results s).head? = some (m, r)) (hne : m ≠ []) :
    substitute e g s = g m ++ substitute e g r := by
  obtain ⟨-, rfl⟩ := mem_results.mp (List.mem_of_head? h)
  cases m with
  | nil => exact absurd rfl hne
  | cons c m =>
    rw [List.cons_append] at h
    rw [substitute, List.cons_append, substituteFrom, h]
    exact congrArg _ (substituteFrom_append e g m r)

theorem substitute_copy {e : Re α} {u z : List α} (g : List α → List α)
    (h : ∀ w, w ≠ [] → w <:+ u → e.results (w ++ z) = []) :
    substitute e g (u ++ z) = u ++ substitute e g z := by
  induction u with
  | nil => rfl
  | cons c u ih =>
    have hnil : e.results (c :: (u ++ z)) = [] := h (c :: u) (List.cons_ne_nil c u) List.suffix_rfl
    rw [List.cons_append, substitute, substituteFrom, hnil, List.head?_nil]
    exact congrArg (c :: ·) (ih fun w hw hsuf => h w hw (hsuf.trans (List.suffix_cons c u)))

end

end Regexp
