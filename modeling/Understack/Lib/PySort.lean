import Understack.Lib.PySets

/-! `sorted(xs, key=f)` where computing a key or comparing two keys may raise, and the order of
Python lists. -/
namespace PySort
open Runs

variable {ε α κ : Type} {lt : κ → κ → Except ε Bool}

/-- `xs < ys` for lists, which compares the first elements that differ. -/
def listLt [DecidableEq κ] (lt : κ → κ → Except ε Bool) : List κ → List κ → Except ε Bool
  | _, [] => .ok false
  | [], _ :: _ => .ok true
  | x :: xs, y :: ys => if x = y then listLt lt xs ys else lt x y

/-- Before the first entry that is not less. -/
def insert (lt : κ → κ → Except ε Bool) (entry : κ × α) :
    List (κ × α) → Except ε (List (κ × α))
  | [] => .ok [entry]
  | other :: rest => do
    if ← lt other.1 entry.1 then
      let rest ← insert lt entry rest
      return other :: rest
    else return entry :: other :: rest

def sortEntries (lt : κ → κ → Except ε Bool) : List (κ × α) → Except ε (List (κ × α))
  | [] => .ok []
  | entry :: rest => do
    let rest ← sortEntries lt rest
    insert lt entry rest

def sortedBy (key : α → Except ε κ) (lt : κ → κ → Except ε Bool) (xs : List α) :
    Except ε (List α) := do
  let entries ← xs.mapM fun x => do
    let k ← key x
    return (k, x)
  let entries ← sortEntries lt entries
  return entries.map Prod.snd

/-! Keys that a linear order compares. -/

variable {ν : Type} [LinearOrder ν] {code : κ → ν} {Comparable : κ → Prop}

/-- Comparing keys of a class does not raise, and follows the order of their codes. -/
def Follows (lt : κ → κ → Except ε Bool) (Comparable : κ → Prop) (code : κ → ν) : Prop :=
  ∀ k k', Comparable k → Comparable k' → lt k k' = .ok (decide (code k < code k'))

theorem insert_spec (h : Follows lt Comparable code) {entry : κ × α} {entries : List (κ × α)}
    (hentry : Comparable entry.1) (hentries : ∀ e ∈ entries, Comparable e.1)
    (hsorted : entries.Pairwise fun e f => code e.1 ≤ code f.1) :
    ∃ out, insert lt entry entries = .ok out ∧ out.Perm (entry :: entries) ∧
      out.Pairwise fun e f => code e.1 ≤ code f.1 := by
  induction entries with
  | nil => exact ⟨[entry], rfl, List.Perm.refl _, List.pairwise_singleton _ _⟩
  | cons other rest ih =>
    obtain ⟨hother, hrest⟩ := List.pairwise_cons.mp hsorted
    have hcompare := h other.1 entry.1 (hentries other List.mem_cons_self) hentry
    by_cases hlt : code other.1 < code entry.1
    · obtain ⟨out, hout, hperm, hpairwise⟩ :=
        ih (fun e he => hentries e (List.mem_cons_of_mem other he)) hrest
      use other :: out
      refine ⟨?_, (hperm.cons other).trans (List.Perm.swap entry other rest), ?_⟩
      · simp only [insert, hcompare, hlt, decide_true, hout, bind, Except.bind, if_true]
        rfl
      · refine List.pairwise_cons.mpr ⟨fun e he => ?_, hpairwise⟩
        rcases List.mem_cons.mp (hperm.mem_iff.mp he) with rfl | he
        · exact hlt.le
        · exact hother e he
    · use entry :: other :: rest
      refine ⟨?_, List.Perm.refl _, List.pairwise_cons.mpr ⟨fun e he => ?_, hsorted⟩⟩
      · simp only [insert, hcompare, hlt, decide_false, bind, Except.bind, Bool.false_eq_true,
          if_false]
        rfl
      · rcases List.mem_cons.mp he with rfl | he
        · exact not_lt.mp hlt
        · exact (not_lt.mp hlt).trans (hother e he)

theorem sortEntries_spec (h : Follows lt Comparable code) {entries : List (κ × α)}
    (hentries : ∀ e ∈ entries, Comparable e.1) :
    ∃ out, sortEntries lt entries = .ok out ∧ out.Perm entries ∧
      out.Pairwise fun e f => code e.1 ≤ code f.1 := by
  induction entries with
  | nil => exact ⟨[], rfl, List.Perm.refl _, List.Pairwise.nil⟩
  | cons entry rest ih =>
    obtain ⟨mid, hmid, hperm, hsorted⟩ :=
      ih fun e he => hentries e (List.mem_cons_of_mem entry he)
    obtain ⟨out, hout, hperm', hsorted'⟩ := insert_spec h (hentries entry List.mem_cons_self)
      (fun e he => hentries e (List.mem_cons_of_mem entry (hperm.mem_iff.mp he))) hsorted
    refine ⟨out, ?_, hperm'.trans (hperm.cons entry), hsorted'⟩
    rw [sortEntries, hmid]
    exact hout

theorem sortedBy_spec (h : Follows lt Comparable code) {key : α → Except ε κ} {k : α → κ}
    {xs : List α} (hkey : ∀ x ∈ xs, key x = .ok (k x)) (hxs : ∀ x ∈ xs, Comparable (k x)) :
    ∃ out, sortedBy key lt xs = .ok out ∧ out.Perm xs ∧
      out.Pairwise fun x y => code (k x) ≤ code (k y) := by
  have hentries : (xs.mapM fun x => do let k ← key x; return (k, x)) =
      .ok (xs.map fun x => (k x, x)) := by
    apply PySets.mapM_eq_ok
    intro x hx
    rw [hkey x hx]
    rfl
  have hcomparable : ∀ e ∈ xs.map fun x => (k x, x), Comparable e.1 := by
    intro e he
    obtain ⟨x, hx, rfl⟩ := List.mem_map.mp he
    exact hxs x hx
  obtain ⟨entries, hsorted, hperm, hpairwise⟩ := sortEntries_spec h hcomparable
  have hkeys : ∀ e ∈ entries, e.1 = k e.2 := by
    intro e he
    obtain ⟨x, -, rfl⟩ := List.mem_map.mp (hperm.mem_iff.mp he)
    rfl
  refine ⟨entries.map Prod.snd, ?_, ?_, ?_⟩
  · unfold sortedBy
    rw [hentries]
    simp only [bind, Except.bind, hsorted]
    rfl
  · have hsnd := hperm.map Prod.snd
    rwa [List.map_map, show Prod.snd ∘ (fun x => (k x, x)) = id from rfl, List.map_id] at hsnd
  · rw [List.pairwise_map]
    refine hpairwise.imp_of_mem fun he hf hle => ?_
    rwa [hkeys _ he, hkeys _ hf] at hle

/-- The first element is least. -/
theorem head_sortedBy (h : Follows lt Comparable code) {key : α → Except ε κ} {k : α → κ}
    {xs : List α} (hkey : ∀ x ∈ xs, key x = .ok (k x)) (hxs : ∀ x ∈ xs, Comparable (k x))
    (hne : xs ≠ []) :
    ∃ x rest, sortedBy key lt xs = .ok (x :: rest) ∧ x ∈ xs ∧
      ∀ y ∈ xs, code (k x) ≤ code (k y) := by
  obtain ⟨out, hout, hperm, hsorted⟩ := sortedBy_spec h hkey hxs
  cases out with
  | nil => exact (hne hperm.symm.eq_nil).elim
  | cons x rest =>
    refine ⟨x, rest, hout, hperm.mem_iff.mp List.mem_cons_self, fun y hy => ?_⟩
    rcases List.mem_cons.mp (hperm.mem_iff.mpr hy) with rfl | hy
    · exact le_refl _
    · exact (List.pairwise_cons.mp hsorted).1 y hy

end PySort
