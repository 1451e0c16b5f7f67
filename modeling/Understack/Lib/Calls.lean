import Mathlib.Data.List.Basic
import Mathlib.Tactic.Common

/-! Programs that call a server. A call may be refused, or take effect although its answer is
lost; either way the program raises, and the log keeps what was called in which state. -/
namespace Calls

inductive Outcome where
  | done
  | refused
  | lost
  deriving DecidableEq, Repr

structure Event (σ κ : Type) where
  call : κ
  before : σ
  after : σ
  succeeded : Bool

structure World (σ κ : Type) where
  state : σ
  log : List (Event σ κ)

/-- The server: `serve` is `none` where the server rejects the call, and `outcome n` is what
becomes of the call with `n` calls before it. -/
structure Api (σ κ ε : Type) where
  serve : κ → σ → Option σ
  outcome : ℕ → Outcome
  failed : κ → ε

def Client (σ κ ε α : Type) := World σ κ → Except ε α × World σ κ

variable {σ κ ε α β : Type}

instance : Monad (Client σ κ ε) where
  pure a := fun w => (.ok a, w)
  bind m f := fun w => match m w with
    | (.ok a, w') => f a w'
    | (.error e, w') => (.error e, w')

def ofExcept (x : Except ε α) : Client σ κ ε α := fun w => (x, w)

def raise (e : ε) : Client σ κ ε α := ofExcept (.error e)

def current : Client σ κ ε σ := fun w => (.ok w.state, w)

instance : LawfulMonad (Client σ κ ε) :=
  LawfulMonad.mk' _
    (fun m => by
      funext w
      show (match m w with
        | (.ok a, w') => (Except.ok (id a), w')
        | (.error e, w') => (.error e, w')) = m w
      rcases m w with ⟨_ | _, _⟩ <;> rfl)
    (fun _ _ => rfl)
    (fun m f g => by
      funext w
      show (match (match m w with
          | (.ok a, w') => f a w'
          | (.error e, w') => (.error e, w')) with
        | (.ok a, w') => g a w'
        | (.error e, w') => (.error e, w')) = _
      show _ = match m w with
        | (.ok a, w') => (match f a w' with
          | (.ok b, w'') => g b w''
          | (.error e, w'') => (.error e, w''))
        | (.error e, w') => (.error e, w')
      rcases m w with ⟨_ | _, _⟩ <;> rfl)

theorem current_bind (f : σ → Client σ κ ε α) (w : World σ κ) :
    (current >>= f) w = f w.state w := rfl

theorem bind_ok {m : Client σ κ ε α} {f : α → Client σ κ ε β} {w w' : World σ κ} {a : α}
    (h : m w = (.ok a, w')) : (m >>= f) w = f a w' := by
  simp only [bind, h]

theorem bind_error {m : Client σ κ ε α} {f : α → Client σ κ ε β} {w w' : World σ κ} {e : ε}
    (h : m w = (.error e, w')) : (m >>= f) w = (.error e, w') := by
  simp only [bind, h]

theorem eq_ok_of_isOk {x : Except ε Unit × World σ κ} (h : x.1.isOk = true) : x = (.ok (), x.2) := by
  obtain ⟨r, w⟩ := x
  cases r with
  | error e => cases h
  | ok u => rfl

/-- The program with its errors under another name. -/
def mapError {ε' : Type} (f : ε → ε') (m : Client σ κ ε α) : Client σ κ ε' α :=
  fun w => ((m w).1.mapError f, (m w).2)

theorem mapError_bind {ε' : Type} (f : ε → ε') (m : Client σ κ ε α) (g : α → Client σ κ ε β) :
    mapError f (m >>= g) = mapError f m >>= fun a => mapError f (g a) := by
  funext w
  simp only [mapError, bind]
  rcases m w with ⟨_ | _, _⟩ <;> rfl

/-! A prefix that has reached `c` has passed everything before the first place of `c`. -/

theorem isPrefix_of_concat {l xs ys : List κ} {c : κ} (h : l ++ [c] <+: xs ++ ys)
    (hc : c ∉ xs) : xs <+: l := by
  rcases List.prefix_or_prefix_of_prefix (List.prefix_append xs ys) h with hx | hx
  · rcases List.prefix_concat_iff.mp hx with rfl | hx
    · simp at hc
    · exact hx
  · exact absurd (hx.subset (by simp)) hc

theorem concat_isPrefix_of_notMem {l xs ys : List κ} {c : κ} (h : l ++ [c] <+: xs ++ ys)
    (hc : c ∉ ys) : l ++ [c] <+: xs := by
  rcases List.prefix_or_prefix_of_prefix (List.prefix_append xs ys) h with hx | hx
  · rcases List.prefix_concat_iff.mp hx with rfl | ⟨t, rfl⟩
    · exact List.prefix_refl _
    · -- the rest of the prefix would lie in `ys`, with `c` as its last element
      rw [List.append_assoc, List.prefix_append_right_inj] at h
      exact absurd (h.subset (by simp)) hc
  · exact hx

namespace Api

variable (A : Api σ κ ε)

def call (c : κ) : Client σ κ ε Unit := fun w =>
  match A.serve c w.state, A.outcome w.log.length with
  | some s, .done => (.ok (), ⟨s, w.log ++ [⟨c, w.state, s, true⟩]⟩)
  | some s, .lost => (.error (A.failed c), ⟨s, w.log ++ [⟨c, w.state, s, false⟩]⟩)
  | _, _ => (.error (A.failed c), ⟨w.state, w.log ++ [⟨c, w.state, w.state, false⟩]⟩)

def callAll : List κ → Client σ κ ε Unit
  | [] => pure ()
  | c :: cs => do
    A.call c
    callAll cs

/-- The calls in order, then the result. -/
def follow (script : List κ × Except ε Unit) : Client σ κ ε Unit := do
  A.callAll script.1
  ofExcept script.2

@[simp] theorem callAll_nil : A.callAll [] = pure () := rfl

@[simp] theorem callAll_cons (c : κ) (cs : List κ) :
    A.callAll (c :: cs) = A.call c >>= fun _ => A.callAll cs := rfl

def mapError {ε' : Type} (f : ε → ε') : Api σ κ ε' := ⟨A.serve, A.outcome, fun c => f (A.failed c)⟩

theorem mapError_call {ε' : Type} (f : ε → ε') (c : κ) :
    Calls.mapError f (A.call c) = (A.mapError f).call c := by
  funext w
  simp only [Calls.mapError, call, mapError]
  split <;> rfl

theorem callAll_append (cs ds : List κ) :
    A.callAll (cs ++ ds) = A.callAll cs >>= fun _ => A.callAll ds := by
  induction cs with
  | nil => simp
  | cons c cs ih => simp [ih]

@[simp] theorem follow_ok (cs : List κ) : A.follow (cs, .ok ()) = A.callAll cs :=
  bind_pure_unit

theorem follow_append (cs ds : List κ) (r : Except ε Unit) :
    A.follow (cs ++ ds, r) = A.callAll cs >>= fun _ => A.follow (ds, r) := by
  simp [follow, callAll_append]

theorem mapError_callAll {ε' : Type} (f : ε → ε') (cs : List κ) :
    Calls.mapError f (A.callAll cs) = (A.mapError f).callAll cs := by
  induction cs with
  | nil => rfl
  | cons c cs ih => rw [callAll_cons, callAll_cons, mapError_bind, mapError_call, ih]

theorem call_cases (c : κ) (w : World σ κ) :
    (∃ s, A.serve c w.state = some s ∧
        A.call c w = (.ok (), ⟨s, w.log ++ [⟨c, w.state, s, true⟩]⟩)) ∨
      ∃ s, (s = w.state ∨ A.serve c w.state = some s) ∧
        A.call c w = (.error (A.failed c), ⟨s, w.log ++ [⟨c, w.state, s, false⟩]⟩) := by
  unfold call
  split
  · next s hs ho => exact Or.inl ⟨s, hs, rfl⟩
  · next s hs ho => exact Or.inr ⟨s, Or.inr hs, rfl⟩
  · exact Or.inr ⟨w.state, Or.inl rfl, rfl⟩

theorem call_of_done {c : κ} {w : World σ κ} {s : σ} (hs : A.serve c w.state = some s)
    (ho : A.outcome w.log.length = .done) :
    A.call c w = (.ok (), ⟨s, w.log ++ [⟨c, w.state, s, true⟩]⟩) := by
  rw [call, hs, ho]

/-- A call that would not change the state does not either where it fails. -/
theorem call_of_not_done {c : κ} {w : World σ κ} (hs : A.serve c w.state = some w.state)
    (ho : A.outcome w.log.length ≠ .done) :
    A.call c w = (.error (A.failed c), ⟨w.state, w.log ++ [⟨c, w.state, w.state, false⟩]⟩) := by
  rw [call, hs]
  cases h : A.outcome w.log.length with
  | done => exact (ho h).elim
  | _ => rfl

/-- What comes after a call may be read in the state that the call leads to. -/
theorem call_bind_congr {c : κ} {w : World σ κ} {f g : Client σ κ ε α}
    (h : ∀ w' : World σ κ, A.serve c w.state = some w'.state → f w' = g w') :
    (A.call c >>= fun _ => f) w = (A.call c >>= fun _ => g) w := by
  rcases A.call_cases c w with ⟨s, hs, hc⟩ | ⟨s, -, hc⟩
  · rw [bind_ok hc, bind_ok hc]
    exact h _ hs
  · rw [bind_error hc, bind_error hc]

/-- The events of a list of calls, up to the first that fails. -/
inductive Trace : σ → List κ → List (Event σ κ) → Except ε Unit → σ → Prop
  | nil (s : σ) : Trace s [] [] (.ok ()) s
  | failed {s s' : σ} {c : κ} {cs : List κ} (h : s' = s ∨ A.serve c s = some s') :
      Trace s (c :: cs) [⟨c, s, s', false⟩] (.error (A.failed c)) s'
  | step {s s' s'' : σ} {c : κ} {cs : List κ} {es : List (Event σ κ)} {r : Except ε Unit}
      (h : A.serve c s = some s') (ht : Trace s' cs es r s'') :
      Trace s (c :: cs) (⟨c, s, s', true⟩ :: es) r s''

theorem callAll_trace (cs : List κ) (w : World σ κ) :
    ∃ es, (A.callAll cs w).2.log = w.log ++ es ∧
      A.Trace w.state cs es (A.callAll cs w).1 (A.callAll cs w).2.state := by
  induction cs generalizing w with
  | nil => exact ⟨[], by simp [callAll, pure], .nil _⟩
  | cons c cs ih =>
    rw [callAll_cons]
    rcases A.call_cases c w with ⟨s, hs, hc⟩ | ⟨s, hs, hc⟩
    · rw [bind_ok hc]
      obtain ⟨es, hlog, ht⟩ := ih ⟨s, w.log ++ [⟨c, w.state, s, true⟩]⟩
      refine ⟨⟨c, w.state, s, true⟩ :: es, ?_, .step hs ht⟩
      rw [hlog, List.append_assoc]
      rfl
    · rw [bind_error hc]
      exact ⟨[⟨c, w.state, s, false⟩], rfl, .failed hs⟩

theorem Trace.error_failed {s s' : σ} {cs : List κ} {es : List (Event σ κ)} {r : Except ε Unit}
    (h : A.Trace s cs es r s') : r = .ok () ∨ ∃ c, r = .error (A.failed c) := by
  induction h with
  | nil _ => exact Or.inl rfl
  | failed _ => exact Or.inr ⟨_, rfl⟩
  | step _ _ ih => exact ih

/-- A followed script ends in its own result or in the failure of a call. -/
theorem follow_trace (script : List κ × Except ε Unit) (w : World σ κ) :
    ∃ es r, (A.follow script w).2.log = w.log ++ es ∧
      A.Trace w.state script.1 es r (A.follow script w).2.state ∧
      (r = .ok () ∧ (A.follow script w).1 = script.2 ∨
        ∃ c, r = .error (A.failed c) ∧ (A.follow script w).1 = .error (A.failed c)) := by
  obtain ⟨es, hlog, ht⟩ := A.callAll_trace script.1 w
  unfold follow
  rcases hcall : A.callAll script.1 w with ⟨r, w'⟩
  rw [hcall] at hlog ht
  rcases Trace.error_failed A ht with rfl | ⟨c, rfl⟩
  · rw [bind_ok hcall]
    exact ⟨es, _, hlog, ht, Or.inl ⟨rfl, rfl⟩⟩
  · rw [bind_error hcall]
    exact ⟨es, _, hlog, ht, Or.inr ⟨c, rfl, rfl⟩⟩

variable {A} {s s' : σ} {cs ds : List κ} {es : List (Event σ κ)} {r : Except ε Unit}
  {e : ε}

def serveAll (A : Api σ κ ε) (cs : List κ) (s : σ) : Option σ :=
  cs.foldlM (fun s c => A.serve c s) s

theorem serveAll_append (cs ds : List κ) (s : σ) :
    A.serveAll (cs ++ ds) s = (A.serveAll cs s).bind (A.serveAll ds) :=
  List.foldlM_append

theorem Trace.serveAll_of_ok (h : A.Trace s cs es (.ok ()) s') : A.serveAll cs s = some s' := by
  generalize hr : (Except.ok () : Except ε Unit) = r at h
  induction h with
  | nil _ => rfl
  | failed _ => cases hr
  | step hs _ ih =>
    show (A.serve _ _).bind _ = _
    rw [hs]
    exact ih hr

theorem Trace.calls_isPrefix (h : A.Trace s cs es r s') : es.map Event.call <+: cs := by
  induction h with
  | nil _ => exact List.prefix_refl []
  | failed _ => exact List.prefix_append [_] _
  | step _ _ ih => exact List.prefix_cons_inj _ |>.mpr ih

/-- A program that has raised called last what failed. -/
theorem Trace.failed_last (h : A.Trace s cs es (.error e) s') :
    ∃ c pre, e = A.failed c ∧ es.map Event.call = pre ++ [c] := by
  generalize hr : (Except.error e : Except ε Unit) = r at h
  induction h with
  | nil _ => cases hr
  | failed _ =>
    cases hr
    exact ⟨_, [], rfl, rfl⟩
  | step _ _ ih =>
    obtain ⟨c, pre, he, hpre⟩ := ih hr
    exact ⟨c, _ :: pre, he, congrArg (_ :: ·) hpre⟩

theorem Trace.succeeded_before (h : A.Trace s cs es r s') {pre post : List (Event σ κ)}
    {e : Event σ κ} (he : es = pre ++ e :: post) : ∀ x ∈ pre, x.succeeded = true := by
  induction h generalizing pre with
  | nil _ => simp at he
  | failed _ =>
    cases pre with
    | nil => simp
    | cons x pre => simp at he
  | step _ _ ih =>
    cases pre with
    | nil => simp
    | cons x pre =>
      obtain ⟨rfl, hrest⟩ := List.cons.inj he
      intro y hy
      rcases List.mem_cons.mp hy with rfl | hy
      · rfl
      · exact ih hrest y hy

theorem Trace.effect (h : A.Trace s cs es r s') {e : Event σ κ} (he : e ∈ es) :
    e.after = e.before ∨ A.serve e.call e.before = some e.after := by
  induction h with
  | nil _ => cases he
  | failed hs =>
    rw [List.mem_singleton.mp he]
    exact hs
  | step hs _ ih =>
    rcases List.mem_cons.mp he with rfl | he
    · exact Or.inr hs
    · exact ih he

/-- Along the calls, each as the ones before it have left the state, `ok` holds. -/
def Allowed (A : Api σ κ ε) (ok : σ → κ → Prop) : σ → List κ → Prop
  | _, [] => True
  | s, c :: cs => ok s c ∧ ∀ s', A.serve c s = some s' → Allowed A ok s' cs

variable {ok : σ → κ → Prop}

theorem Trace.allowed (h : A.Trace s cs es r s') (ha : A.Allowed ok s cs) :
    ∀ e ∈ es, ok e.before e.call := by
  induction h with
  | nil _ => simp
  | failed _ =>
    intro e he
    rw [List.mem_singleton.mp he]
    exact ha.1
  | step hs _ ih =>
    intro e he
    rcases List.mem_cons.mp he with rfl | he
    · exact ha.1
    · exact ih (ha.2 _ hs) e he

theorem Allowed.append (h : A.Allowed ok s cs)
    (hd : ∀ s', A.serveAll cs s = some s' → A.Allowed ok s' ds) : A.Allowed ok s (cs ++ ds) := by
  induction cs generalizing s with
  | nil => exact hd s rfl
  | cons c cs ih =>
    refine ⟨h.1, fun s₁ hs => ih (h.2 s₁ hs) fun s' hs' => hd s' ?_⟩
    show (A.serve c s).bind _ = _
    rw [hs]
    exact hs'

/-- The invariant rule: what every call of the list keeps holds before each of them. -/
theorem Allowed.of_invariant {I : σ → Prop} (hok : ∀ s, I s → ∀ c ∈ cs, ok s c)
    (hkeep : ∀ s, I s → ∀ c ∈ cs, ∀ s', A.serve c s = some s' → I s') (hs : I s) :
    A.Allowed ok s cs := by
  induction cs generalizing s with
  | nil => trivial
  | cons c cs ih =>
    refine ⟨hok s hs c List.mem_cons_self, fun s' hs' => ?_⟩
    refine ih (fun s h d hd => hok s h d (List.mem_cons_of_mem c hd))
      (fun s h d hd => hkeep s h d (List.mem_cons_of_mem c hd)) ?_
    exact hkeep s hs c List.mem_cons_self s' hs'

end Api

end Calls
