import Mathlib.Tactic.Common

/-! Programs of calls that may fail, and that are tried again. A call that fails may have taken
effect before its answer was lost. An assertion about a program says what holds where it returns
and what holds where it raises. -/
namespace Attempts

structure Fault (ε : Type) where
  error : ε
  applied : Bool

/-- The state of the servers, with the number of calls before. -/
structure Counted (σ : Type) where
  state : σ
  calls : ℕ

abbrev Program (σ ε α : Type) := EStateM ε (Counted σ) α

variable {σ ε α β : Type}

/-- A call with the number that `serve` and `faults` are asked for. -/
def call (faults : ℕ → Option (Fault ε)) (serve : ℕ → σ → Except ε α × σ) : Program σ ε α := fun w =>
  match faults w.calls, serve w.calls w.state with
  | some f, (_, s) => .error f.error ⟨if f.applied then s else w.state, w.calls + 1⟩
  | none, (.ok a, s) => .ok a ⟨s, w.calls + 1⟩
  | none, (.error e, s) => .error e ⟨s, w.calls + 1⟩

/-- A value drawn at this point of the run. -/
def draw (value : ℕ → Except ε α) : Program σ ε α := fun w =>
  match value w.calls with
  | .ok a => .ok a w
  | .error e => .error e w

/-- A computation without calls. -/
def lift (r : Except ε α) : Program σ ε α := fun w =>
  match r with
  | .ok a => .ok a w
  | .error e => .error e w

/-- The state that a run leaves, whether it returned or raised. -/
def leaves (x : Program σ ε α) (w : Counted σ) : Counted σ :=
  match x w with
  | .ok _ w' => w'
  | .error _ w' => w'

/-- The error of the program as a value. -/
def reify (x : Program σ ε α) : Program σ ε (Except ε α) := fun w =>
  match x w with
  | .ok a w' => .ok (.ok a) w'
  | .error e w' => .ok (.error e) w'

/-- From a state with `P`, the program returns with `Q` or raises with `E`. -/
def Triple (P : σ → Prop) (x : Program σ ε α) (Q : α → σ → Prop) (E : ε → σ → Prop) : Prop :=
  ∀ w : Counted σ, P w.state → match x w with
    | .ok a w' => Q a w'.state
    | .error e w' => E e w'.state

variable {P P' : σ → Prop} {Q Q' : α → σ → Prop} {R : β → σ → Prop} {E E' : ε → σ → Prop}
  {x : Program σ ε α} {f : α → Program σ ε β}

theorem Triple.pure {a : α} (h : ∀ s, P s → Q a s) : Triple P (Pure.pure a : Program σ ε α) Q E :=
  fun w hw => h w.state hw

theorem Triple.throw {e : ε} (h : ∀ s, P s → E e s) :
    Triple P (throw e : Program σ ε α) Q E :=
  fun w hw => h w.state hw

theorem Triple.bind (hx : Triple P x Q E) (hf : ∀ a, Triple (Q a) (f a) R E) :
    Triple P (x >>= f) R E := by
  intro w hw
  have h := hx w hw
  simp only [Bind.bind, EStateM.bind]
  cases hr : x w with
  | ok a w' =>
    rw [hr] at h
    exact hf a w' h
  | error e w' =>
    rw [hr] at h
    exact h

theorem Triple.conseq (h : Triple P x Q E) (hP : ∀ s, P' s → P s) (hQ : ∀ a s, Q a s → Q' a s)
    (hE : ∀ e s, E e s → E' e s) : Triple P' x Q' E' := by
  intro w hw
  have h := h w (hP w.state hw)
  cases hr : x w with
  | ok a w' =>
    rw [hr] at h
    exact hQ a w'.state h
  | error e w' =>
    rw [hr] at h
    exact hE e w'.state h

/-- What an assertion says beside the state may be assumed. -/
theorem Triple.assume {φ : Prop} (h : φ → Triple P x Q E) : Triple (fun s => P s ∧ φ) x Q E :=
  fun w hw => h hw.2 w hw.1

/-- An assertion from each state by itself. -/
theorem Triple.of_state (h : ∀ s₀, P s₀ → Triple (· = s₀) x Q E) : Triple P x Q E :=
  fun w hw => h w.state hw w rfl

theorem Triple.reify (h : Triple P x Q E) :
    Triple P (reify x) (fun r s => match r with
      | .ok a => Q a s
      | .error e => E e s) E' := by
  intro w hw
  have h := h w hw
  unfold Attempts.reify
  cases hr : x w with
  | ok a w' =>
    rw [hr] at h
    exact h
  | error e w' =>
    rw [hr] at h
    exact h

theorem Triple.draw {value : ℕ → Except ε α} (hok : ∀ n a s, value n = .ok a → P s → Q a s)
    (herror : ∀ e s, P s → E e s) : Triple P (draw value) Q E := by
  intro w hw
  unfold Attempts.draw
  cases hv : value w.calls with
  | ok a => exact hok w.calls a w.state hv hw
  | error e => exact herror e w.state hw

theorem Triple.lift {r : Except ε α} (hok : ∀ a s, r = .ok a → P s → Q a s)
    (herror : ∀ e s, r = .error e → P s → E e s) : Triple P (lift r) Q E := by
  intro w hw
  cases r with
  | ok a => exact hok a w.state rfl hw
  | error e => exact herror e w.state rfl hw

/-- A loop over a list, with an assertion for each part of the list that may be done. -/
theorem Triple.forM {l : List α} {f : α → Program σ ε PUnit} {I : List α → σ → Prop}
    (h : ∀ done a rest, l = done ++ a :: rest → Triple (I done) (f a) (fun _ => I (done ++ [a])) E) :
    Triple (I []) (l.forM f) (fun _ => I l) E := by
  suffices ∀ rest done, l = done ++ rest → Triple (I done) (rest.forM f) (fun _ => I l) E from
    this l [] rfl
  intro rest
  induction rest with
  | nil =>
    intro done hl
    rw [List.append_nil] at hl
    exact Triple.pure fun s hs => hl ▸ hs
  | cons a rest ih =>
    intro done hl
    have hnext : l = (done ++ [a]) ++ rest := by rw [hl, List.append_assoc, List.singleton_append]
    exact Triple.bind (h done a rest hl) fun _ => ih (done ++ [a]) hnext

/-- A program that does not raise returns. -/
theorem Triple.returns (h : Triple P x Q fun _ _ => False) {w : Counted σ} (hw : P w.state) :
    ∃ a w', x w = .ok a w' ∧ Q a w'.state := by
  have := h w hw
  cases hr : x w with
  | ok a w' =>
    rw [hr] at this
    exact ⟨a, w', rfl, this⟩
  | error e w' =>
    rw [hr] at this
    exact this.elim

theorem Triple.leaves {G : σ → Prop} (h : Triple P x (fun _ => G) fun _ => G) {w : Counted σ}
    (hw : P w.state) : G (leaves x w).state := by
  have := h w hw
  unfold Attempts.leaves
  cases hr : x w with
  | ok a w' =>
    rw [hr] at this
    exact this
  | error e w' =>
    rw [hr] at this
    exact this

/-- The rule of a call: what the server answers, and the two ways in which the call may fail. -/
theorem Triple.call {faults : ℕ → Option (Fault ε)} {serve : ℕ → σ → Except ε α × σ}
    (hok : ∀ n s a s', P s → serve n s = (.ok a, s') → Q a s')
    (herror : ∀ n s e s', P s → serve n s = (.error e, s') → E e s')
    (hfault : ∀ n s f, P s → faults n = some f → E f.error s ∧ E f.error (serve n s).2) :
    Triple P (call faults serve) Q E := by
  intro w hw
  unfold Attempts.call
  cases hf : faults w.calls with
  | some f =>
    obtain ⟨hrefused, hlost⟩ := hfault w.calls w.state f hw hf
    dsimp only
    split_ifs
    · exact hlost
    · exact hrefused
  | none =>
    rcases hs : serve w.calls w.state with ⟨_ | a, s'⟩
    · exact herror w.calls w.state _ s' hw hs
    · exact hok w.calls w.state a s' hw hs

/-- A call from a known state. -/
theorem Triple.call_eq (faults : ℕ → Option (Fault ε)) (serve : ℕ → σ → Except ε α × σ) (s₀ : σ) :
    Triple (· = s₀) (Attempts.call faults serve) (fun a s => ∃ n, serve n s₀ = (.ok a, s))
      fun e s => (∃ n, serve n s₀ = (.error e, s)) ∨
        ∃ n f, faults n = some f ∧ f.error = e ∧ (s = s₀ ∨ s = (serve n s₀).2) := by
  refine Triple.call ?_ ?_ ?_
  · rintro n s a s' rfl h
    exact ⟨n, h⟩
  · rintro n s e s' rfl h
    exact Or.inl ⟨n, h⟩
  · rintro n s f rfl h
    exact ⟨Or.inr ⟨n, f, h, rfl, Or.inl rfl⟩, Or.inr ⟨n, f, h, rfl, Or.inr rfl⟩⟩

/-- The program is run again as long as it raises. -/
inductive Retried (x : Program σ ε α) : Counted σ → Counted σ → Prop
  | done {w w' : Counted σ} {a : α} (h : x w = .ok a w') : Retried x w w'
  | again {w w' w'' : Counted σ} {e : ε} (h : x w = .error e w') (hr : Retried x w' w'') :
      Retried x w w''

/-- What every attempt that raises keeps gives what the last attempt returns with. -/
theorem Triple.retried {G : σ → Prop} (h : Triple P x (fun _ => G) fun _ => P) {w w' : Counted σ}
    (hr : Retried x w w') (hw : P w.state) : G w'.state := by
  induction hr with
  | done hx =>
    have := h _ hw
    rw [hx] at this
    exact this
  | again hx _ ih =>
    have := h _ hw
    rw [hx] at this
    exact ih this

end Attempts
