import Mathlib.Data.List.Basic
import Mathlib.Tactic.Common

/-! Go functions that work on a state and return a value, return an error, or panic: what has to
hold for a run not to panic, with one equation for each way to build a function, and walks over
trees whose nodes are given what came of the node above. -/
namespace GoCalls

inductive Outcome (ε α : Type) where
  | returned (a : α)
  | failed (e : ε)
  | panicked

def Go (σ ε α : Type) := σ → Outcome ε α × σ

variable {σ ε α β : Type}

def Go.bind (x : Go σ ε α) (f : α → Go σ ε β) : Go σ ε β := fun s =>
  match x s with
  | (.returned a, s') => f a s'
  | (.failed e, s') => (.failed e, s')
  | (.panicked, s') => (.panicked, s')

instance instMonadGo : Monad (Go σ ε) where
  pure a := fun s => (.returned a, s)
  bind := Go.bind

/-- A call that always returns. -/
def lift (f : σ → α × σ) : Go σ ε α := fun s => (.returned (f s).1, (f s).2)

/-- A call that may return an error. -/
def attempt (f : σ → Except ε α × σ) : Go σ ε α := fun s =>
  match f s with
  | (.ok a, s') => (.returned a, s')
  | (.error e, s') => (.failed e, s')

def fail (e : ε) : Go σ ε α := fun s => (.failed e, s)

def panic : Go σ ε α := fun s => (.panicked, s)

/-- `*p`. -/
def deref : Option α → Go σ ε α
  | some a => pure a
  | none => panic

def Returns (x : Go σ ε α) (s : σ) : Prop := ∀ s', x s ≠ (.panicked, s')

/-- No panic from `s`, and `Q` of what is returned. -/
def Safe (x : Go σ ε α) (Q : α → σ → Prop) (s : σ) : Prop :=
  match x s with
  | (.returned a, s') => Q a s'
  | (.failed _, _) => True
  | (.panicked, _) => False

variable {x : Go σ ε α} {f : α → Go σ ε β} {Q Q' : α → σ → Prop} {s : σ}

theorem returns_iff : Returns x s ↔ Safe x (fun _ _ => True) s := by
  rw [Returns, Safe]
  rcases x s with ⟨_ | _ | _, s'⟩ <;> simp

theorem safe_pure {a : α} : Safe (pure a : Go σ ε α) Q s ↔ Q a s := Iff.rfl

theorem safe_bind {Q : β → σ → Prop} :
    Safe (x >>= f) Q s ↔ Safe x (fun a s' => Safe (f a) Q s') s := by
  change Safe (Go.bind x f) Q s ↔ _
  unfold Safe Go.bind
  rcases x s with ⟨_ | _ | _, s'⟩ <;> rfl

theorem safe_lift {f : σ → α × σ} : Safe (lift f : Go σ ε α) Q s ↔ Q (f s).1 (f s).2 := Iff.rfl

theorem safe_attempt {f : σ → Except ε α × σ} :
    Safe (attempt f) Q s ↔ ∀ a s', f s = (.ok a, s') → Q a s' := by
  rw [Safe, attempt]
  rcases f s with ⟨_ | a, s'⟩ <;> simp

theorem safe_deref {p : Option α} :
    Safe (deref p : Go σ ε α) Q s ↔ ∃ a, p = some a ∧ Q a s := by
  cases p with
  | none => exact ⟨False.elim, fun ⟨_, h, _⟩ => by cases h⟩
  | some a => exact ⟨fun h => ⟨a, rfl, h⟩, fun ⟨_, h, hQ⟩ => Option.some.inj h ▸ hQ⟩

theorem Safe.mono (h : Safe x Q s) (hQ : ∀ a s', Q a s' → Q' a s') : Safe x Q' s := by
  rw [Safe] at h ⊢
  revert h
  rcases x s with ⟨a | _ | _, s'⟩
  · exact hQ a s'
  · exact id
  · exact id

/-! Functions that never panic. -/

def NoPanic (x : Go σ ε α) : Prop := ∀ s, Returns x s

theorem NoPanic.safe (h : NoPanic x) (s : σ) : Safe x (fun _ _ => True) s := returns_iff.mp (h s)

theorem noPanic_pure (a : α) : NoPanic (pure a : Go σ ε α) := fun _ => returns_iff.mpr trivial

theorem noPanic_fail (e : ε) : NoPanic (fail e : Go σ ε α) := fun _ => returns_iff.mpr trivial

theorem noPanic_lift (f : σ → α × σ) : NoPanic (lift f : Go σ ε α) :=
  fun _ => returns_iff.mpr trivial

theorem noPanic_attempt (f : σ → Except ε α × σ) : NoPanic (attempt f) := fun _ =>
  returns_iff.mpr (safe_attempt.mpr fun _ _ _ => trivial)

theorem NoPanic.bind (hx : NoPanic x) (hf : ∀ a, NoPanic (f a)) : NoPanic (x >>= f) := fun s =>
  returns_iff.mpr (safe_bind.mpr ((hx.safe s).mono fun a s' _ => (hf a).safe s'))

theorem NoPanic.map (hx : NoPanic x) (g : α → β) : NoPanic (g <$> x) :=
  hx.bind fun a => noPanic_pure (g a)

theorem noPanic_deref {p : Option α} (h : p ≠ none) : NoPanic (deref p : Go σ ε α) := by
  obtain ⟨a, rfl⟩ := Option.ne_none_iff_exists'.mp h
  exact noPanic_pure a

theorem noPanic_ite {c : Prop} [Decidable c] {y : Go σ ε α} (hx : c → NoPanic x)
    (hy : ¬c → NoPanic y) : NoPanic (if c then x else y) := by
  split
  · next h => exact hx h
  · next h => exact hy h

theorem noPanic_foldlM {g : β → α → Go σ ε β} {l : List α} (h : ∀ b, ∀ a ∈ l, NoPanic (g b a))
    (b : β) : NoPanic (l.foldlM g b) := by
  induction l generalizing b with
  | nil => exact noPanic_pure b
  | cons a l ih =>
    rw [List.foldlM_cons]
    exact (h b a List.mem_cons_self).bind (ih fun b a' ha => h b a' (List.mem_cons_of_mem _ ha))

theorem noPanic_forM {g : α → Go σ ε PUnit} {l : List α} (h : ∀ a ∈ l, NoPanic (g a)) :
    NoPanic (l.forM g) := by
  induction l with
  | nil => exact noPanic_pure _
  | cons a l ih =>
    exact (h a List.mem_cons_self).bind fun _ => ih fun a' ha => h a' (List.mem_cons_of_mem _ ha)

/-! Walks over trees. -/

inductive Nested (E : Type) where
  | node (fields : E) (children : List (Nested E))

variable {E γ : Type}

section Walks

variable (single : E → γ → Go σ ε γ)

mutual

/-- A node, then those below it with what came of it. -/
def walk (above : γ) : Nested E → Go σ ε Unit
  | .node e children => do
    let current ← single e above
    walkAll current children
termination_by structural tree => tree

def walkAll (above : γ) : List (Nested E) → Go σ ε Unit
  | [] => pure ()
  | tree :: forest => do
    walk above tree
    walkAll above forest
termination_by structural forest => forest

end

variable (ok : E → σ → Prop)

mutual

/-- Every node that a walk comes to meets `ok` in the state in which it does. -/
def Along (above : γ) : Nested E → σ → Prop
  | .node e children, s => ok e s ∧
      ∀ current s', single e above s = (.returned current, s') → AlongAll current children s'
termination_by structural tree => tree

def AlongAll (above : γ) : List (Nested E) → σ → Prop
  | [], _ => True
  | tree :: forest, s => Along above tree s ∧
      ∀ s', walk single above tree s = (.returned (), s') → AlongAll above forest s'
termination_by structural forest => forest

end

variable {single ok}

theorem safe_iff_returned {Q : α → σ → Prop} :
    Safe x Q s ↔ Returns x s ∧ ∀ a s', x s = (.returned a, s') → Q a s' := by
  rw [Returns, Safe]
  rcases x s with ⟨_ | _ | _, s'⟩ <;> simp

mutual

theorem returns_walk (h : ∀ e above s, Returns (single e above) s ↔ ok e s) (above : γ) (s : σ) :
    ∀ tree : Nested E, Returns (walk single above tree) s ↔ Along single ok above tree s
  | .node e children => by
    rw [walk, returns_iff, safe_bind, safe_iff_returned, h, Along]
    refine and_congr_right fun _ => forall_congr' fun current => forall_congr' fun s' => ?_
    rw [← returns_iff, returns_walkAll h current s' children]
termination_by structural tree => tree

theorem returns_walkAll (h : ∀ e above s, Returns (single e above) s ↔ ok e s) (above : γ)
    (s : σ) : ∀ forest : List (Nested E),
    Returns (walkAll single above forest) s ↔ AlongAll single ok above forest s
  | [] => iff_of_true (noPanic_pure () s) trivial
  | tree :: forest => by
    rw [walkAll, returns_iff, safe_bind, safe_iff_returned, returns_walk h above s tree, AlongAll]
    refine and_congr_right fun _ => ?_
    constructor
    · intro hrest s' hs'
      exact (returns_walkAll h above s' forest).mp (returns_iff.mpr (hrest () s' hs'))
    · intro hrest u s' hs'
      exact returns_iff.mp ((returns_walkAll h above s' forest).mpr (hrest s' hs'))
termination_by structural forest => forest

end

mutual

theorem along_of_forall (h : ∀ e s, ok e s) (above : γ) (s : σ) :
    ∀ tree : Nested E, Along single ok above tree s
  | .node e children => ⟨h e s, fun current s' _ => alongAll_of_forall h current s' children⟩
termination_by structural tree => tree

theorem alongAll_of_forall (h : ∀ e s, ok e s) (above : γ) (s : σ) :
    ∀ forest : List (Nested E), AlongAll single ok above forest s
  | [] => trivial
  | tree :: forest =>
    ⟨along_of_forall h above s tree, fun s' _ => alongAll_of_forall h above s' forest⟩
termination_by structural forest => forest

end

theorem noPanic_walkAll (h : ∀ e above, NoPanic (single e above)) (above : γ)
    (forest : List (Nested E)) : NoPanic (walkAll single above forest) := fun s =>
  (returns_walkAll (fun e above s => iff_of_true (h e above s) trivial) above s forest).mpr
    (alongAll_of_forall (fun _ _ => trivial) above s forest)

end Walks

end GoCalls
