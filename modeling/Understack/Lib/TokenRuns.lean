import Mathlib.Data.List.TakeWhile
import Mathlib.Tactic.Common

/-! The maximal runs of the elements of a class in a list: reading them, rewriting each of them,
and induction over them. -/
namespace TokenRuns

variable {α : Type*} (p : α → Bool)

/-- Each maximal run, with what follows it; `acc` is a run that has begun. -/
def runsFrom (acc : List α) : List α → List (List α × List α)
  | [] => [(acc, [])]
  | c :: s => if p c then runsFrom (acc ++ [c]) s else (acc, c :: s) :: runsFrom [] s

/-- The list with every maximal run rewritten; `acc` is a run that has begun. -/
def mapRunsFrom (g : List α → List α) (acc : List α) : List α → List α
  | [] => g acc
  | c :: s => if p c then mapRunsFrom g (acc ++ [c]) s else g acc ++ c :: mapRunsFrom g [] s

/-- The maximal runs; between two others stands an empty one. -/
def runs (s : List α) : List (List α × List α) := runsFrom p [] s

def mapRuns (g : List α → List α) (s : List α) : List α := mapRunsFrom p g [] s

/-- No run goes on into the list. -/
def Ends (z : List α) : Prop := ∀ c ∈ z.head?, p c = false

variable {p}

@[simp] theorem ends_nil : Ends p ([] : List α) := by simp [Ends]

@[simp] theorem ends_cons {c : α} {z : List α} : Ends p (c :: z) ↔ p c = false := by simp [Ends]

/-- A text of the class that begins before the end of a run ends before it. -/
theorem Ends.prefix_append_iff {k u z : List α} (hz : Ends p z) (hk : ∀ c ∈ k, p c = true) :
    k <+: u ++ z ↔ k <+: u := by
  refine ⟨fun h => ?_, fun h => h.trans (List.prefix_append u z)⟩
  rcases Nat.le_total k.length u.length with hle | hle
  · exact List.prefix_of_prefix_length_le h (List.prefix_append u z) hle
  · obtain ⟨w, rfl⟩ := List.prefix_of_prefix_length_le (List.prefix_append u z) h hle
    cases w with
    | nil => simp
    | cons c w =>
      obtain ⟨z', rfl⟩ := (List.prefix_append_right_inj u).mp h
      have hc := hk c (by simp)
      rw [hz c (by simp)] at hc
      cases hc

theorem runsFrom_append (acc : List α) {u : List α} (hu : ∀ c ∈ u, p c = true) (z : List α) :
    runsFrom p acc (u ++ z) = runsFrom p (acc ++ u) z := by
  induction u generalizing acc with
  | nil => simp
  | cons c u ih =>
    rw [List.cons_append, runsFrom, if_pos (hu c List.mem_cons_self),
      ih (acc ++ [c]) fun d hd => hu d (List.mem_cons_of_mem _ hd), List.append_assoc,
      List.singleton_append]

theorem mapRunsFrom_append (g : List α → List α) (acc : List α) {u : List α}
    (hu : ∀ c ∈ u, p c = true) (z : List α) :
    mapRunsFrom p g acc (u ++ z) = mapRunsFrom p g (acc ++ u) z := by
  induction u generalizing acc with
  | nil => simp
  | cons c u ih =>
    rw [List.cons_append, mapRunsFrom, if_pos (hu c List.mem_cons_self),
      ih (acc ++ [c]) fun d hd => hu d (List.mem_cons_of_mem _ hd), List.append_assoc,
      List.singleton_append]

@[simp] theorem runs_nil : runs p [] = [([], [])] := rfl

@[simp] theorem mapRuns_nil (g : List α → List α) : mapRuns p g [] = g [] := rfl

theorem runs_cons {u : List α} (hu : ∀ c ∈ u, p c = true) {c : α} (hc : p c = false)
    (s : List α) : runs p (u ++ c :: s) = (u, c :: s) :: runs p s := by
  rw [runs, runsFrom_append [] hu, runsFrom, if_neg (by simp [hc]), List.nil_append, runs]

theorem runs_of_all {u : List α} (hu : ∀ c ∈ u, p c = true) : runs p u = [(u, [])] := by
  have h := runsFrom_append [] hu []
  rwa [List.append_nil] at h

theorem mapRuns_cons {g : List α → List α} {u : List α} (hu : ∀ c ∈ u, p c = true) {c : α}
    (hc : p c = false) (s : List α) :
    mapRuns p g (u ++ c :: s) = g u ++ c :: mapRuns p g s := by
  rw [mapRuns, mapRunsFrom_append g [] hu, mapRunsFrom, if_neg (by simp [hc]), List.nil_append,
    mapRuns]

theorem mapRuns_of_all {g : List α → List α} {u : List α} (hu : ∀ c ∈ u, p c = true) :
    mapRuns p g u = g u := by
  have h := mapRunsFrom_append g [] hu []
  rwa [List.append_nil] at h

/-- A list is empty, begins outside the class, or begins with a maximal run. -/
@[elab_as_elim]
theorem runs_induction {motive : List α → Prop} (nil : motive [])
    (cons : ∀ c s, p c = false → motive s → motive (c :: s))
    (run : ∀ u z, (∀ c ∈ u, p c = true) → Ends p z → motive z → motive (u ++ z)) :
    ∀ s, motive s := by
  intro s
  induction hn : s.length using Nat.strongRecOn generalizing s with
  | _ n ih =>
    have hu : ∀ c ∈ s.takeWhile p, p c = true := fun c hc => List.mem_takeWhile_imp hc
    have hs : s.takeWhile p ++ s.dropWhile p = s := List.takeWhile_append_dropWhile
    cases hz : s.dropWhile p with
    | nil =>
      rw [hz] at hs
      exact hs ▸ run _ [] hu ends_nil nil
    | cons c z =>
      have hc : p c = false := by
        have h := List.head_dropWhile_not p (l := s) (by simp [hz])
        simpa [hz] using h
      have hlen : z.length < n := by
        have h := congrArg List.length hs
        rw [hz, List.length_append, List.length_cons, hn] at h
        omega
      rw [hz] at hs
      exact hs ▸ run _ _ hu (ends_cons.mpr hc) (cons c z hc (ih z.length hlen z rfl))

end TokenRuns
