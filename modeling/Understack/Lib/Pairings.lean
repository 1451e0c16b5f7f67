import Mathlib.Data.List.Forall2
import Mathlib.Data.List.InsertIdx
import Mathlib.Data.List.Perm.Basic

/-! Pairing the elements of two lists, and the search that gives each element of the second the
first element of the first that is left and fits. -/
namespace Understack.Pairings

variable {α β : Type} {r : α → β → Bool} {R : α → β → Prop} {as as' : List α} {bs bs' : List β}
  {a : α} {b : β}

/-! The search. -/

/-- What is left of the first list when each element of the second has been served. -/
def leftAfter (r : α → β → Bool) : List α → List β → Option (List α)
  | as, [] => some as
  | as, b :: bs =>
    match as.findIdx? fun a => r a b with
    | some i => leftAfter r (as.eraseIdx i) bs
    | none => none

/-- The first element that fits, with what stands before and behind it. -/
structure FirstFit (r : α → β → Bool) (b : β) (as before : List α) (a : α) (after : List α) :
    Prop where
  split : as = before ++ a :: after
  skipped : ∀ x ∈ before, r x b = false
  fits : r a b = true

theorem FirstFit.findIdx? {before after : List α} (h : FirstFit r b as before a after) :
    (as.findIdx? fun a => r a b) = some before.length ∧
      as.eraseIdx before.length = before ++ after := by
  obtain ⟨rfl, hskipped, hfits⟩ := h
  constructor
  · rw [List.findIdx?_append, List.findIdx?_eq_none_iff.mpr hskipped, List.findIdx?_cons, hfits]
    simp
  · rw [List.eraseIdx_append_of_length_le (Nat.le_refl _), Nat.sub_self]
    rfl

/-- Either all elements have the property, or there is a first one without it. -/
theorem forall_or_exists_first (P : α → Prop) (as : List α) :
    (∀ a ∈ as, P a) ∨ ∃ before a after, as = before ++ a :: after ∧ (∀ x ∈ before, P x) ∧ ¬P a := by
  induction as with
  | nil => exact Or.inl (List.forall_mem_nil _)
  | cons x as ih =>
    by_cases hx : P x
    · rcases ih with hall | ⟨before, a, after, hsplit, hbefore, ha⟩
      · exact Or.inl (List.forall_mem_cons.mpr ⟨hx, hall⟩)
      · refine Or.inr ⟨x :: before, a, after, by rw [hsplit]; rfl, ?_, ha⟩
        exact List.forall_mem_cons.mpr ⟨hx, hbefore⟩
    · exact Or.inr ⟨[], x, as, rfl, List.forall_mem_nil _, hx⟩

theorem exists_firstFit (h : ∃ a ∈ as, r a b = true) :
    ∃ before a after, FirstFit r b as before a after := by
  rcases forall_or_exists_first (fun a => r a b = false) as with
    hnone | ⟨before, a, after, hsplit, hskipped, hfits⟩
  · obtain ⟨a, ha, hfits⟩ := h
    rw [hnone a ha] at hfits
    cases hfits
  · exact ⟨before, a, after, hsplit, hskipped, Bool.not_eq_false _ ▸ hfits⟩

theorem leftAfter_of_firstFit {before after : List α} (h : FirstFit r b as before a after) :
    leftAfter r as (b :: bs) = leftAfter r (before ++ after) bs := by
  obtain ⟨hfind, herase⟩ := h.findIdx?
  rw [leftAfter, hfind]
  dsimp only
  rw [herase]

theorem leftAfter_of_none (h : ∀ a ∈ as, r a b = false) : leftAfter r as (b :: bs) = none := by
  rw [leftAfter, List.findIdx?_eq_none_iff.mpr h]

theorem exists_firstFit_of_leftAfter {rest : List α} (h : leftAfter r as (b :: bs) = some rest) :
    ∃ before a after, FirstFit r b as before a after ∧
      leftAfter r (before ++ after) bs = some rest := by
  by_cases hsome : ∃ a ∈ as, r a b = true
  · obtain ⟨before, a, after, hfit⟩ := exists_firstFit hsome
    rw [leftAfter_of_firstFit hfit] at h
    exact ⟨before, a, after, hfit, h⟩
  · have hnone : ∀ a ∈ as, r a b = false := fun a ha =>
      Bool.eq_false_iff.mpr fun hfits => hsome ⟨a, ha, hfits⟩
    rw [leftAfter_of_none hnone] at h
    cases h

theorem leftAfter_append : leftAfter r as (bs ++ bs') =
    (leftAfter r as bs).bind fun rest => leftAfter r rest bs' := by
  induction bs generalizing as with
  | nil => rfl
  | cons b bs ih =>
    by_cases h : ∃ a ∈ as, r a b = true
    · obtain ⟨before, a, after, hfit⟩ := exists_firstFit h
      rw [List.cons_append, leftAfter_of_firstFit hfit, leftAfter_of_firstFit hfit, ih]
    · have hnone : ∀ a ∈ as, r a b = false := fun a ha =>
        Bool.eq_false_iff.mpr fun hfits => h ⟨a, ha, hfits⟩
      rw [List.cons_append, leftAfter_of_none hnone, leftAfter_of_none hnone]
      rfl

theorem leftAfter_subset {rest : List α} (h : leftAfter r as bs = some rest) : rest ⊆ as := by
  induction bs generalizing as with
  | nil => exact (Option.some.inj h) ▸ List.Subset.refl _
  | cons b bs ih =>
    obtain ⟨before, a, after, hfit, hrest⟩ := exists_firstFit_of_leftAfter h
    intro x hx
    rw [hfit.split, List.mem_append, List.mem_cons]
    rcases List.mem_append.mp (ih hrest hx) with hbefore | hafter
    · exact Or.inl hbefore
    · exact Or.inr (Or.inr hafter)

/-- Lists that fit element by element are served in this way. -/
theorem leftAfter_of_forall₂ (h : List.Forall₂ (fun a b => r a b = true) as bs) :
    leftAfter r (as ++ as') bs = some as' := by
  induction h with
  | nil => rfl
  | @cons a b as bs hfits h ih =>
    have hfit : FirstFit r b (a :: (as ++ as')) [] a (as ++ as') :=
      ⟨rfl, List.forall_mem_nil _, hfits⟩
    rw [List.cons_append, leftAfter_of_firstFit hfit]
    exact ih

/-! Pairings of all elements. -/

theorem forall₂_of_forall_exists {as : List α} (h : ∀ a ∈ as, ∃ b, R a b) :
    ∃ bs, List.Forall₂ R as bs := by
  induction as with
  | nil => exact ⟨[], List.Forall₂.nil⟩
  | cons a as ih =>
    obtain ⟨⟨b, hb⟩, hrest⟩ := List.forall_mem_cons.mp h
    obtain ⟨bs, hbs⟩ := ih hrest
    exact ⟨b :: bs, hbs.cons hb⟩

theorem exists_forall₂ {γ : Type} {S : γ → α → Prop} {T : γ → β → Prop} {bs : List β}
    (h : List.Forall₂ (fun a b => ∃ c, S c a ∧ T c b) as bs) :
    ∃ cs, List.Forall₂ S cs as ∧ List.Forall₂ T cs bs := by
  induction h with
  | nil => exact ⟨[], List.Forall₂.nil, List.Forall₂.nil⟩
  | cons hc _ ih =>
    obtain ⟨c, hs, ht⟩ := hc
    obtain ⟨cs, hss, hts⟩ := ih
    exact ⟨c :: cs, hss.cons hs, hts.cons ht⟩

theorem exists_perm_cons {l : List α} (h : a ∈ l) : ∃ rest, l.Perm (a :: rest) := by
  obtain ⟨front, back, rfl⟩ := List.append_of_mem h
  exact ⟨front ++ back, List.perm_middle⟩

def Pairs (R : α → β → Prop) (as : List α) (bs : List β) : Prop :=
  ∃ as', as'.Perm as ∧ List.Forall₂ R as' bs

theorem Pairs.perm_left (h : Pairs R as bs) (hperm : as.Perm as') : Pairs R as' bs := by
  obtain ⟨order, horder, hpairs⟩ := h
  exact ⟨order, horder.trans hperm, hpairs⟩

theorem Pairs.length_eq (h : Pairs R as bs) : as.length = bs.length := by
  obtain ⟨order, horder, hpairs⟩ := h
  rw [← horder.length_eq, hpairs.length_eq]

theorem Pairs.perm_right (h : Pairs R as bs) (hperm : bs.Perm bs') : Pairs R as bs' := by
  obtain ⟨order, horder, hpairs⟩ := h
  have hcomp : Relation.Comp (List.Forall₂ R) List.Perm order bs' := ⟨bs, hpairs, hperm⟩
  rw [List.forall₂_comp_perm_eq_perm_comp_forall₂] at hcomp
  obtain ⟨order', hperm', hpairs'⟩ := hcomp
  exact ⟨order', hperm'.symm.trans horder, hpairs'⟩

theorem Pairs.cons (h : Pairs R as bs) (hfits : R a b) : Pairs R (a :: as) (b :: bs) := by
  obtain ⟨order, horder, hpairs⟩ := h
  exact ⟨a :: order, horder.cons a, hpairs.cons hfits⟩

theorem Pairs.uncons_right (h : Pairs R as (b :: bs)) :
    ∃ a rest, as.Perm (a :: rest) ∧ R a b ∧ Pairs R rest bs := by
  obtain ⟨order, horder, hpairs⟩ := h
  cases hpairs with
  | @cons a _ rest _ hfits hrest =>
    exact ⟨a, rest, horder.symm, hfits, rest, List.Perm.refl _, hrest⟩

theorem Pairs.uncons_left (h : Pairs R (a :: as) bs) :
    ∃ b rest, bs.Perm (b :: rest) ∧ R a b ∧ Pairs R as rest := by
  obtain ⟨order, horder, hpairs⟩ := h
  have hcomp : Relation.Comp List.Perm (List.Forall₂ R) (a :: as) bs := ⟨order, horder.symm, hpairs⟩
  rw [← List.forall₂_comp_perm_eq_perm_comp_forall₂] at hcomp
  obtain ⟨order', hpairs', hperm'⟩ := hcomp
  cases hpairs' with
  | @cons _ b _ rest hfits hrest => exact ⟨b, rest, hperm'.symm, hfits, as, List.Perm.refl _, hrest⟩

theorem Pairs.imp_of_mem {S : α → β → Prop} (h : Pairs R as bs)
    (himp : ∀ a ∈ as, ∀ b ∈ bs, R a b → S a b) : Pairs S as bs := by
  obtain ⟨order, horder, hpairs⟩ := h
  obtain ⟨hlen, hzip⟩ := List.forall₂_iff_zip.mp hpairs
  refine ⟨order, horder, List.forall₂_iff_zip.mpr ⟨hlen, fun hmem => ?_⟩⟩
  obtain ⟨ha, hb⟩ := List.of_mem_zip hmem
  exact himp _ (horder.mem_iff.mp ha) _ hb (hzip hmem)

/-- The search finds a pairing. -/
theorem pairs_of_leftAfter (hlen : as.length = bs.length) {rest : List α}
    (h : leftAfter r as bs = some rest) : Pairs (fun a b => r a b = true) as bs := by
  induction bs generalizing as with
  | nil =>
    rw [List.length_nil, List.length_eq_zero_iff] at hlen
    subst hlen
    exact ⟨[], List.Perm.refl _, List.Forall₂.nil⟩
  | cons b bs ih =>
    obtain ⟨before, a, after, hfit, h⟩ := exists_firstFit_of_leftAfter h
    have hmiddle : as.Perm (a :: (before ++ after)) := hfit.split ▸ List.perm_middle
    have hrest : (before ++ after).length = bs.length := by
      rw [hmiddle.length_eq] at hlen
      exact Nat.succ.inj hlen
    exact ((ih hrest h).cons hfit.fits).perm_left hmiddle.symm

/-! Where the search finds a pairing whatever the order. -/

/-- Elements that fit a common element fit the same ones. -/
def Difunctional (R : α → β → Prop) (as : List α) (bs : List β) : Prop :=
  ∀ a ∈ as, ∀ a' ∈ as, ∀ b ∈ bs, ∀ b' ∈ bs, R a b → R a b' → R a' b → R a' b'

theorem Difunctional.subset (h : Difunctional R as bs) (has : as' ⊆ as) (hbs : bs' ⊆ bs) :
    Difunctional R as' bs' :=
  fun a ha a' ha' b hb b' hb' => h a (has ha) a' (has ha') b (hbs hb) b' (hbs hb')

/-- Any pair that fits can be taken out. -/
theorem Pairs.exchange (h : Pairs R (a :: as) (b :: bs))
    (hdif : Difunctional R (a :: as) (b :: bs)) (hfits : R a b) : Pairs R as bs := by
  obtain ⟨c, rest, hrest, hc, hpairs⟩ := h.uncons_right
  by_cases hac : a = c
  · subst hac
    exact hpairs.perm_left (List.Perm.cons_inv hrest).symm
  · -- the partners of `a` and of `b` make a pair
    have hmem : a ∈ rest :=
      (List.mem_cons.mp (hrest.mem_iff.mp List.mem_cons_self)).resolve_left hac
    obtain ⟨rest', hrest'⟩ := exists_perm_cons hmem
    obtain ⟨d, bs', hbs', hd, hpairs'⟩ := (hpairs.perm_left hrest').uncons_left
    have hcmem : c ∈ a :: as := hrest.mem_iff.mpr List.mem_cons_self
    have hdmem : d ∈ b :: bs := List.mem_cons_of_mem b (hbs'.mem_iff.mpr List.mem_cons_self)
    have hcd : R c d := hdif a List.mem_cons_self c hcmem b List.mem_cons_self d hdmem hfits hd hc
    have has : (c :: rest').Perm as := by
      have hswap := (hrest.trans (hrest'.cons c)).trans (List.Perm.swap a c rest')
      exact (List.Perm.cons_inv hswap).symm
    exact ((hpairs'.cons hcd).perm_left has).perm_right hbs'.symm

theorem leftAfter_of_pairs (h : Pairs (fun a b => r a b = true) as bs)
    (hdif : Difunctional (fun a b => r a b = true) as bs) :
    ∃ rest, leftAfter r as bs = some rest := by
  induction bs generalizing as with
  | nil => exact ⟨as, rfl⟩
  | cons b bs ih =>
    obtain ⟨c, others, hothers, hc, -⟩ := h.uncons_right
    obtain ⟨before, a, after, hfit⟩ :=
      exists_firstFit ⟨c, hothers.mem_iff.mpr List.mem_cons_self, hc⟩
    rw [leftAfter_of_firstFit hfit]
    have hmiddle : as.Perm (a :: (before ++ after)) := hfit.split ▸ List.perm_middle
    have hdif' := hdif.subset hmiddle.symm.subset (List.Subset.refl (b :: bs))
    have hrest := (h.perm_left hmiddle).exchange hdif' hfit.fits
    exact ih hrest (hdif'.subset (List.subset_cons_self _ _) (List.subset_cons_self _ _))

/-- No pairing of some of the elements is stuck. -/
def Extensible (R : α → β → Prop) (as : List α) (bs : List β) : Prop :=
  ∀ as₁ as₂ bs₁ bs₂, as.Perm (as₁ ++ as₂) → bs.Perm (bs₁ ++ bs₂) → List.Forall₂ R as₁ bs₁ →
    bs₂ ≠ [] → ∃ a ∈ as₂, ∃ b ∈ bs₂, R a b

theorem Extensible.extend (h : Extensible R as bs) (hlen : as.length = bs.length)
    {as₁ as₂ : List α} {bs₁ bs₂ : List β} (has : as.Perm (as₁ ++ as₂)) (hbs : bs.Perm (bs₁ ++ bs₂))
    (hpairs : List.Forall₂ R as₁ bs₁) : Pairs R as₂ bs₂ := by
  induction hn : bs₂.length generalizing as₁ as₂ bs₁ bs₂ with
  | zero =>
    rw [List.length_eq_zero_iff] at hn
    subst hn
    have hnone : as₂ = [] := by
      have has' := has.length_eq
      have hbs' := hbs.length_eq
      have hpairs' := hpairs.length_eq
      simp only [List.length_append, List.length_nil] at has' hbs'
      exact List.length_eq_zero_iff.mp (by omega)
    subst hnone
    exact ⟨[], List.Perm.refl _, List.Forall₂.nil⟩
  | succ n ih =>
    have hne : bs₂ ≠ [] := by
      rintro rfl
      cases hn
    obtain ⟨a, ha, b, hb, hfits⟩ := h as₁ as₂ bs₁ bs₂ has hbs hpairs hne
    obtain ⟨as₃, has₃⟩ := exists_perm_cons ha
    obtain ⟨bs₃, hbs₃⟩ := exists_perm_cons hb
    have hrest : Pairs R as₃ bs₃ := by
      refine @ih (a :: as₁) as₃ (b :: bs₁) bs₃ ?_ ?_ (hpairs.cons hfits) ?_
      · exact has.trans ((has₃.append_left as₁).trans List.perm_middle)
      · exact hbs.trans ((hbs₃.append_left bs₁).trans List.perm_middle)
      · rw [hbs₃.length_eq] at hn
        exact Nat.succ.inj hn
    exact ((hrest.cons hfits).perm_left has₃.symm).perm_right hbs₃.symm

theorem Extensible.difunctional (h : Extensible R as bs) (hlen : as.length = bs.length) :
    Difunctional R as bs := by
  intro a ha a' ha' b hb b' hb' hab hab' ha'b
  by_cases haa : a' = a
  · exact haa ▸ hab'
  by_cases hbb : b' = b
  · exact hbb ▸ ha'b
  -- with `a` for `b'` and `a'` for `b` the rest can be paired; `a` for `b` leaves `a'` and `b'`
  obtain ⟨as₁, has₁⟩ := exists_perm_cons ha
  obtain ⟨as₂, has₂⟩ :=
    exists_perm_cons ((List.mem_cons.mp (has₁.mem_iff.mp ha')).resolve_left haa)
  obtain ⟨bs₁, hbs₁⟩ := exists_perm_cons hb
  obtain ⟨bs₂, hbs₂⟩ :=
    exists_perm_cons ((List.mem_cons.mp (hbs₁.mem_iff.mp hb')).resolve_left hbb)
  have has : as.Perm ([a, a'] ++ as₂) := has₁.trans (has₂.cons a)
  have hbs : bs.Perm ([b', b] ++ bs₂) := (hbs₁.trans (hbs₂.cons b)).trans (List.Perm.swap b' b bs₂)
  obtain ⟨order, horder, hpairs⟩ := h.extend hlen has hbs ((List.Forall₂.nil.cons ha'b).cons hab')
  have hstuck := h (a :: order) [a'] (b :: bs₂) [b'] ?_ ?_ (hpairs.cons hab) (List.cons_ne_nil _ _)
  · obtain ⟨x, hx, y, hy, hxy⟩ := hstuck
    rw [List.mem_singleton] at hx hy
    exact hx ▸ hy ▸ hxy
  · refine has.trans (((horder.symm.cons a').cons a).trans ?_)
    exact (List.perm_append_singleton a' order).symm.cons a
  · refine hbs.trans ((List.Perm.swap b b' bs₂).trans ?_)
    exact (List.perm_append_singleton b' bs₂).symm.cons b

end Understack.Pairings
