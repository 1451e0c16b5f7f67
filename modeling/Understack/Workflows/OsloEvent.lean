import Understack.Lib.Json
import Mathlib.Data.List.Induction

/-! `main` of `openstack_oslo_event.py`: an event is read, its handlers are run one after the
other, and the last integer that one returns becomes the exit code. -/
namespace Understack.Workflows.OsloEvent

open PyText Json

def exitSuccess : ℤ := 0
def exitParseError : ℤ := 5
def exitNoEventHandler : ℤ := 6
def exitClientError : ℤ := 7
def exitHandlerError : ℤ := 8

/-- The interpreter's own code for an exception that nothing catches. -/
def exitUncaught : ℤ := 1

/-- What becomes of a handler. -/
inductive Outcome where
  | int (z : ℤ)
  | bool (b : Bool)
  | other
  | raised
  deriving DecidableEq, Repr

/-- The return value as an integer; `bool` is a subclass of `int`. -/
def Outcome.asInt : Outcome → Option ℤ
  | .int z => some z
  | .bool b => some (if b then 1 else 0)
  | _ => none

def Outcome.Ok (o : Outcome) : Prop := o ≠ .raised ∧ (o.asInt = none ∨ o.asInt = some 0)

/-- An entry of `_event_handlers`. -/
inductive Entry (H : Type) where
  | single (handler : H)
  | several (handlers : List H)

def Entry.toList {H : Type} : Entry H → List H
  | .single h => [h]
  | .several hs => hs

inductive ValidationError where
  | invalid
  | notADict

section
variable {F H : Type}

/-- `validate_event`; every value that is not a nonempty string is refused. -/
def validateEvent : Value F → Except ValidationError Text
  | .obj event =>
    match event.lookup "event_type".toList with
    | some (.str (c :: cs)) => .ok (c :: cs)
    | _ => .error .invalid
  | _ => .error .notADict

/-- The loop over the handlers; `run n h` is what becomes of the handler `h` in place `n`. -/
def runHandlers (run : ℕ → H → Outcome) : ℕ → List H → ℤ → ℤ
  | _, [], lastRet => lastRet
  | n, h :: hs, lastRet =>
    match run n h with
    | .raised => exitHandlerError
    | ret => runHandlers run (n + 1) hs (ret.asInt.getD lastRet)

/-- `main`: the value returned or given to `sys.exit`. The event is `none` where it cannot be
read, and `clients` tells whether the two clients can be made. -/
def main (eventHandlers : List (Text × Entry H)) (event : Option (Value F)) (clients : Bool)
    (run : ℕ → H → Outcome) : ℤ :=
  match event with
  | none => exitParseError
  | some event =>
    match validateEvent event with
    | .error .notADict => exitUncaught
    | .error .invalid => exitParseError
    | .ok eventType =>
      match eventHandlers.lookup eventType with
      | none => exitNoEventHandler
      | some entry =>
        if clients then runHandlers run 0 entry.toList exitSuccess else exitClientError

/-- The handlers registered for an event. -/
def handlersFor (eventHandlers : List (Text × Entry H)) (event : Option (Value F)) :
    Option (List H) := do
  let eventType ← (validateEvent (← event)).toOption
  return (← eventHandlers.lookup eventType).toList

/-- What becomes of each handler, or would if it were run. -/
def outcomes (run : ℕ → H → Outcome) : ℕ → List H → List Outcome
  | _, [] => []
  | n, h :: hs => run n h :: outcomes run (n + 1) hs

end

/-! The exit code as a function of the outcomes. -/

def lastInteger (lastRet : ℤ) (os : List Outcome) : ℤ :=
  os.foldl (fun last o => o.asInt.getD last) lastRet

theorem runHandlers_eq {H : Type} (run : ℕ → H → Outcome) (n : ℕ) (hs : List H) (lastRet : ℤ) :
    runHandlers run n hs lastRet =
      if .raised ∈ outcomes run n hs then exitHandlerError
      else lastInteger lastRet (outcomes run n hs) := by
  induction hs generalizing n lastRet with
  | nil => rfl
  | cons h hs ih =>
    unfold runHandlers outcomes lastInteger
    cases run n h with
    | raised => simp
    | int z => simp [ih, lastInteger]
    | bool b => simp [ih, lastInteger]
    | other => simp [ih, lastInteger]

/-- A failure that a later integer 0 covers: no integer follows that one, and nothing raises. -/
def Masked (os : List Outcome) : Prop :=
  .raised ∉ os ∧ ∃ before failed between zero after,
    os = before ++ failed :: between ++ zero :: after ∧
      (∃ z, failed.asInt = some z ∧ z ≠ 0) ∧ zero.asInt = some 0 ∧ ∀ o ∈ after, o.asInt = none

theorem lastInteger_of_none {os : List Outcome} (h : ∀ o ∈ os, o.asInt = none) (lastRet : ℤ) :
    lastInteger lastRet os = lastRet := by
  induction os generalizing lastRet with
  | nil => rfl
  | cons o os ih =>
    rw [lastInteger, List.foldl_cons, h o List.mem_cons_self]
    exact ih (fun o ho => h o (List.mem_cons_of_mem _ ho)) lastRet

/-- A nonzero integer under a last integer 0 is followed by that 0. -/
theorem exists_zero_after {os : List Outcome} {lastRet : ℤ} (h : lastInteger lastRet os = 0)
    {o : Outcome} {z : ℤ} (ho : o ∈ os) (hz : o.asInt = some z) (hne : z ≠ 0) :
    ∃ before failed between zero after, os = before ++ failed :: between ++ zero :: after ∧
      (∃ z, failed.asInt = some z ∧ z ≠ 0) ∧ zero.asInt = some 0 ∧
      ∀ o ∈ after, o.asInt = none := by
  induction os using List.reverseRecOn with
  | nil => cases ho
  | append_singleton os last ih =>
    rw [lastInteger, List.foldl_append, List.foldl_cons, List.foldl_nil] at h
    cases hl : last.asInt with
    | some w =>
      -- the last outcome is the integer 0, so the nonzero one is before it
      rw [hl, Option.getD_some] at h
      have hmem : o ∈ os := by
        rcases List.mem_append.mp ho with ho | ho
        · exact ho
        · rw [List.mem_singleton.mp ho, hl] at hz
          exact absurd (Option.some.inj hz ▸ h) hne
      obtain ⟨before, between, rfl⟩ := List.append_of_mem hmem
      exact ⟨before, o, between, last, [], rfl, ⟨z, hz, hne⟩, h ▸ hl, by simp⟩
    | none =>
      rw [hl, Option.getD_none] at h
      have hmem : o ∈ os := by
        rcases List.mem_append.mp ho with ho | ho
        · exact ho
        · rw [List.mem_singleton.mp ho, hl] at hz
          cases hz
      obtain ⟨before, failed, between, zero, after, rfl, hfailed, hzero, hafter⟩ := ih h hmem
      refine ⟨before, failed, between, zero, after ++ [last], by simp, hfailed, hzero, ?_⟩
      intro o ho
      rcases List.mem_append.mp ho with ho | ho
      · exact hafter o ho
      · rw [List.mem_singleton.mp ho, hl]

/-- The outcomes let every failure show exactly when none is masked. -/
theorem visible_iff (os : List Outcome) :
    ((if .raised ∈ os then exitHandlerError else lastInteger exitSuccess os) = 0 →
      ∀ o ∈ os, o.Ok) ↔ ¬ Masked os := by
  by_cases hraised : .raised ∈ os
  · rw [if_pos hraised]
    exact iff_of_true (fun h => by cases h) fun h => h.1 hraised
  · rw [if_neg hraised]
    constructor
    · rintro hok ⟨-, before, failed, between, zero, after, rfl, ⟨z, hz, hne⟩, hzero, hafter⟩
      have hlast : lastInteger exitSuccess (before ++ failed :: between ++ zero :: after) = 0 := by
        rw [lastInteger, List.foldl_append, List.foldl_cons, hzero, Option.getD_some]
        exact lastInteger_of_none hafter 0
      rcases (hok hlast failed (by simp)).2 with hnone | hzero'
      · rw [hz] at hnone
        cases hnone
      · exact hne (Option.some.inj (hz.symm.trans hzero'))
    · intro hmasked hlast o ho
      refine ⟨fun hr => hraised (hr ▸ ho), ?_⟩
      cases hz : o.asInt with
      | none => exact Or.inl rfl
      | some z =>
        by_cases hne : z = 0
        · exact Or.inr (congrArg some hne)
        · exact absurd ⟨hraised, exists_zero_after hlast ho hz hne⟩ hmasked

/-! The dispatcher. -/

section
variable {F H : Type}

def EveryHandlerOk (eventHandlers : List (Text × Entry H)) (event : Option (Value F))
    (run : ℕ → H → Outcome) : Prop :=
  ∃ hs, handlersFor eventHandlers event = some hs ∧ ∀ o ∈ outcomes run 0 hs, o.Ok

theorem main_eq (eventHandlers : List (Text × Entry H)) (event : Option (Value F))
    (clients : Bool) (run : ℕ → H → Outcome) :
    (∃ hs, handlersFor eventHandlers event = some hs ∧ main eventHandlers event clients run =
        if clients then runHandlers run 0 hs exitSuccess else exitClientError) ∨
      (handlersFor eventHandlers event = none ∧ main eventHandlers event clients run ≠ 0) := by
  have hparse : exitParseError ≠ 0 := by decide
  have huncaught : exitUncaught ≠ 0 := by decide
  have hmissing : exitNoEventHandler ≠ 0 := by decide
  cases event with
  | none => exact Or.inr ⟨rfl, hparse⟩
  | some event =>
    unfold main handlersFor
    simp only [Option.bind_eq_bind, Option.bind_some]
    cases validateEvent event with
    | error e =>
      cases e with
      | invalid => exact Or.inr ⟨rfl, hparse⟩
      | notADict => exact Or.inr ⟨rfl, huncaught⟩
    | ok eventType =>
      simp only [Except.toOption, Option.bind_some]
      cases eventHandlers.lookup eventType with
      | none => exact Or.inr ⟨rfl, hmissing⟩
      | some entry => exact Or.inl ⟨entry.toList, rfl, rfl⟩

/-- Exit code 0 means that every handler did its work, unless a failure is masked: an integer
other than 0 with a later 0 as the last integer, and no exception. -/
theorem exit_zero_iff_unmasked (eventHandlers : List (Text × Entry H))
    (event : Option (Value F)) (clients : Bool) (run : ℕ → H → Outcome) :
    (main eventHandlers event clients run = 0 → EveryHandlerOk eventHandlers event run) ↔
      ¬ (clients = true ∧ ∃ hs, handlersFor eventHandlers event = some hs ∧
        Masked (outcomes run 0 hs)) := by
  rcases main_eq eventHandlers event clients run with ⟨hs, hhs, hmain⟩ | ⟨hnone, hne⟩
  · rw [hmain, EveryHandlerOk, hhs]
    cases clients with
    | false => exact iff_of_true (fun h => by cases h) (fun h => Bool.false_ne_true h.1)
    | true =>
      have hvisible := visible_iff (outcomes run 0 hs)
      rw [← runHandlers_eq run 0 hs exitSuccess] at hvisible
      simpa using hvisible
  · rw [hnone]
    refine iff_of_true (fun h => absurd h hne) ?_
    rintro ⟨-, hs, hhs, -⟩
    cases hhs

end

/-- The two handlers of a provision event. -/
def provisionEvent : Value Text :=
  .obj [("event_type".toList, .str "baremetal.node.provision_set.end".toList)]

def provisionHandlers : List (Text × Entry String) :=
  [("baremetal.node.provision_set.end".toList,
    .several ["handle_provision_end", "handle_node_event"])]

/-- The first handler returns 1, the second 0, and the dispatcher exits with 0. -/
theorem first_failure_masked :
    ¬ (main provisionHandlers (some provisionEvent) true
        (fun n _ => if n = 0 then .int 1 else .int 0) = 0 →
      EveryHandlerOk provisionHandlers (some provisionEvent)
        (fun n _ => if n = 0 then .int 1 else .int 0)) := by
  intro h
  obtain ⟨hs, hhs, hok⟩ := h rfl
  cases hhs
  have hfirst := (hok (.int 1) (by decide)).2
  simp [Outcome.asInt] at hfirst

end Understack.Workflows.OsloEvent
