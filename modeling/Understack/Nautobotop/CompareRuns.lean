import Understack.Lib.Json
import Understack.Lib.Pairings
import Understack.Nautobotop.CompareJson

/-! The runs of `CompareJSONFields`: its loops over maps have no order, and `==` on two slices or
on two maps panics. -/
namespace Understack.Nautobotop.CompareJson
open PyText Pairings

inductive Outcome where
  | returned (b : Bool)
  | panicked
  deriving DecidableEq, Repr

variable {F : Type} [DecidableEq F] {o : Outcome}

/-- `existing == desired`, and what follows where it is false. -/
def runPrimitiveValues : Any F → Any F → Outcome
  | .array _, .array _ => .panicked
  | .object _, .object _ => .panicked
  | existing, desired => .returned (comparePrimitiveValues existing desired)

/-- The `id`, else the `value`. -/
def idOrValue (members : Members F) : Option (Any F) :=
  match members.lookup "id".toList with
  | some id => some id
  | none => members.lookup "value".toList

def runNestedObjectWithPrimitive (existingMap : Members F) (desired : Any F) : Outcome :=
  match idOrValue existingMap with
  | some value => runPrimitiveValues value desired
  | none => .returned false

def runPrimitiveWithNestedObject (existing : Any F) (desiredMap : Members F) : Outcome :=
  match idOrValue desiredMap with
  | some value => runPrimitiveValues existing value
  | none => .returned false

mutual

/-- `compareJSONValues` can end so. -/
def RunsValues (existing : Any F) : Any F → Outcome → Prop
  | .null, o =>
    match existing with
    | .null => o = .returned true
    | _ => o = .returned false
  | .object desiredMap, o =>
    match existing with
    | .null => o = .returned false
    | .object existingMap => RunsMaps existingMap desiredMap o
    | existing => o = runPrimitiveWithNestedObject existing desiredMap
  | .array desired, o =>
    match existing with
    | .null => o = .returned false
    | .object existingMap => o = runNestedObjectWithPrimitive existingMap (.array desired)
    | .array existing =>
      if existing.length = desired.length then RunsSlices existing desired o
      else o = .returned false
    | _ => o = .returned false
  | desired, o =>
    match existing with
    | .null => o = .returned false
    | .object existingMap => o = runNestedObjectWithPrimitive existingMap desired
    | .array _ => o = .returned false
    | existing => o = runPrimitiveValues existing desired
termination_by structural d => d

/-- The loop returns true when all members do, and ends with any that does not; every member can
be the first. -/
def RunsMaps (existing : Members F) : Members F → Outcome → Prop
  | [], o => o = .returned true
  | member :: desired, o =>
    (o = .returned true ∧ RunsMember existing member o ∧ RunsMaps existing desired o) ∨
      (o ≠ .returned true ∧ (RunsMember existing member o ∨ RunsMaps existing desired o))
termination_by structural d => d

def RunsMember (existing : Members F) : Text × Any F → Outcome → Prop
  | (key, desiredValue), o =>
    match existing.lookup key with
    | some existingValue => RunsValues existingValue desiredValue o
    | none => o = .returned false
termination_by structural d => d

/-- For each desired element the existing elements that are not matched, in order. -/
def RunsSlices (existing : List (Any F)) : List (Any F) → Outcome → Prop
  | [], o => o = .returned true
  | dVal :: desired, o =>
    (∃ before eVal after, existing = before ++ eVal :: after ∧
      (∀ e ∈ before, RunsValues e dVal (.returned false)) ∧
      ((RunsValues eVal dVal (.returned true) ∧ RunsSlices (before ++ after) desired o) ∨
        (RunsValues eVal dVal .panicked ∧ o = .panicked))) ∨
    ((∀ e ∈ existing, RunsValues e dVal (.returned false)) ∧ o = .returned false)
termination_by structural d => d

end

def RunsFields (existing desired : Members F) (o : Outcome) : Prop :=
  RunsMaps existing (desired.filter fun member => member.1 ≠ "relationships".toList) o

/-! The loop over a map, in the order in which it is taken. -/

/-- A loop that goes on while the outcome is true. -/
def RunsRange {α : Type} (runs : α → Outcome → Prop) : List α → Outcome → Prop
  | [], o => o = .returned true
  | a :: rest, o =>
    (runs a (.returned true) ∧ RunsRange runs rest o) ∨ (o ≠ .returned true ∧ runs a o)

theorem runsMaps_true {existing desired : Members F} : RunsMaps existing desired (.returned true) ↔
    ∀ member ∈ desired, RunsMember existing member (.returned true) := by
  induction desired with
  | nil => simp [RunsMaps]
  | cons member desired ih => simp [RunsMaps, ih]

theorem runsMaps_of_ne {existing desired : Members F} (ho : o ≠ .returned true) :
    RunsMaps existing desired o ↔ ∃ member ∈ desired, RunsMember existing member o := by
  induction desired with
  | nil => simp [RunsMaps, ho]
  | cons member desired ih => simp [RunsMaps, ih, ho]

theorem runsRange_true {α : Type} {runs : α → Outcome → Prop} {order : List α} :
    RunsRange runs order (.returned true) ↔ ∀ a ∈ order, runs a (.returned true) := by
  induction order with
  | nil => simp [RunsRange]
  | cons a rest ih => simp [RunsRange, ih]

theorem exists_of_runsRange {α : Type} {runs : α → Outcome → Prop} {order : List α}
    (ho : o ≠ .returned true) (h : RunsRange runs order o) : ∃ a ∈ order, runs a o := by
  induction order with
  | nil => exact (ho h).elim
  | cons a rest ih =>
    rcases h with ⟨-, hrest⟩ | ⟨-, ha⟩
    · obtain ⟨b, hb, hrun⟩ := ih hrest
      exact ⟨b, List.mem_cons_of_mem a hb, hrun⟩
    · exact ⟨a, List.mem_cons_self, ha⟩

theorem runsMaps_iff_range {existing desired : Members F} : RunsMaps existing desired o ↔
    ∃ order, order.Perm desired ∧ RunsRange (RunsMember existing) order o := by
  by_cases ho : o = .returned true
  · subst ho
    rw [runsMaps_true]
    constructor
    · exact fun h => ⟨desired, List.Perm.refl _, runsRange_true.mpr h⟩
    · rintro ⟨order, hperm, hrun⟩ member hmem
      exact runsRange_true.mp hrun member (hperm.mem_iff.mpr hmem)
  · rw [runsMaps_of_ne ho]
    constructor
    · rintro ⟨member, hmem, hrun⟩
      obtain ⟨rest, hperm⟩ := exists_perm_cons hmem
      exact ⟨member :: rest, hperm.symm, Or.inr ⟨ho, hrun⟩⟩
    · rintro ⟨order, hperm, hrun⟩
      obtain ⟨member, hmem, hmember⟩ := exists_of_runsRange ho hrun
      exact ⟨member, hperm.mem_iff.mp hmem, hmember⟩

/-! What a run returns. -/

omit [DecidableEq F] in
theorem Any.ind {motive : Any F → Prop} (null : motive .null) (bool : ∀ b, motive (.bool b))
    (number : ∀ x, motive (.number x)) (string : ∀ s, motive (.string s))
    (array : ∀ elems, (∀ e ∈ elems, motive e) → motive (.array elems))
    (object : ∀ members : Members F, (∀ m ∈ members, motive m.2) → motive (.object members))
    (value : Any F) : motive value :=
  @Any.rec F motive (fun elems => ∀ e ∈ elems, motive e) (fun members => ∀ m ∈ members, motive m.2)
    (fun member => motive member.2) null bool number string array object (List.forall_mem_nil _)
    (fun _ _ he hes => List.forall_mem_cons.mpr ⟨he, hes⟩) (List.forall_mem_nil _)
    (fun _ _ hm hms => List.forall_mem_cons.mpr ⟨hm, hms⟩) (fun _ _ hvalue => hvalue) value

theorem returned_runPrimitiveValues {existing desired : Any F} {b : Bool}
    (h : .returned b = runPrimitiveValues existing desired) :
    b = comparePrimitiveValues existing desired := by
  unfold runPrimitiveValues at h
  split at h
  · cases h
  · cases h
  · exact Outcome.returned.inj h

theorem compareNestedObjectWithPrimitive_eq {existingMap : Members F} {desired : Any F} :
    compareNestedObjectWithPrimitive existingMap desired =
      match idOrValue existingMap with
      | some value => comparePrimitiveValues value desired
      | none => false := by
  unfold compareNestedObjectWithPrimitive idOrValue
  cases existingMap.lookup "id".toList <;> rfl

theorem comparePrimitiveWithNestedObject_eq {existing : Any F} {desiredMap : Members F} :
    comparePrimitiveWithNestedObject existing desiredMap =
      match idOrValue desiredMap with
      | some value => comparePrimitiveValues existing value
      | none => false := by
  unfold comparePrimitiveWithNestedObject idOrValue
  cases desiredMap.lookup "id".toList <;> rfl

theorem returned_nestedObject {existingMap : Members F} {desired : Any F} {b : Bool}
    (h : .returned b = runNestedObjectWithPrimitive existingMap desired) :
    b = compareNestedObjectWithPrimitive existingMap desired := by
  rw [compareNestedObjectWithPrimitive_eq]
  unfold runNestedObjectWithPrimitive at h
  cases hvalue : idOrValue existingMap with
  | some value =>
    rw [hvalue] at h
    exact returned_runPrimitiveValues h
  | none =>
    rw [hvalue] at h
    exact Outcome.returned.inj h

theorem returned_withNestedObject {existing : Any F} {desiredMap : Members F} {b : Bool}
    (h : .returned b = runPrimitiveWithNestedObject existing desiredMap) :
    b = comparePrimitiveWithNestedObject existing desiredMap := by
  rw [comparePrimitiveWithNestedObject_eq]
  unfold runPrimitiveWithNestedObject at h
  cases hvalue : idOrValue desiredMap with
  | some value =>
    rw [hvalue] at h
    exact returned_runPrimitiveValues h
  | none =>
    rw [hvalue] at h
    exact Outcome.returned.inj h

theorem compareJSONSlices_eq {existing desired : List (Any F)} :
    compareJSONSlices existing desired =
      (leftAfter compareJSONValues existing desired).isSome := by
  induction desired generalizing existing with
  | nil => rfl
  | cons dVal desired ih =>
    rw [compareJSONSlices, leftAfter]
    cases existing.findIdx? fun eVal => compareJSONValues eVal dVal with
    | some i => exact ih
    | none => rfl

/-- A run of the loops over slices, where the elements return what they compare to. -/
theorem returned_runsSlices {existing desired : List (Any F)} {b : Bool}
    (ih : ∀ d ∈ desired, ∀ (e : Any F) (b : Bool), RunsValues e d (.returned b) →
      b = compareJSONValues e d)
    (h : RunsSlices existing desired (.returned b)) : b = compareJSONSlices existing desired := by
  rw [compareJSONSlices_eq]
  induction desired generalizing existing with
  | nil => exact Outcome.returned.inj h
  | cons dVal desired ihs =>
    obtain ⟨ihd, ihrest⟩ := List.forall_mem_cons.mp ih
    rcases h with ⟨before, eVal, after, hsplit, hbefore, ⟨heVal, hrest⟩ | ⟨-, ho⟩⟩ | ⟨hnone, ho⟩
    · have hfit : FirstFit compareJSONValues dVal existing before eVal after :=
        ⟨hsplit, fun e he => (ihd e false (hbefore e he)).symm, (ihd eVal true heVal).symm⟩
      rw [leftAfter_of_firstFit hfit]
      exact ihs ihrest hrest
    · cases ho
    · rw [leftAfter_of_none fun e he => (ihd e false (hnone e he)).symm]
      exact Outcome.returned.inj ho

/-- A run that returns has the result of the comparison in the order of the lists. -/
theorem returned_runsValues (desired : Any F) : ∀ (existing : Any F) (b : Bool),
    RunsValues existing desired (.returned b) → b = compareJSONValues existing desired := by
  induction desired using Any.ind with
  | null =>
    intro existing b h
    cases existing <;> exact Outcome.returned.inj h
  | bool x | number x | string x =>
    intro existing b h
    cases existing with
    | null => exact Outcome.returned.inj h
    | object existingMap => exact returned_nestedObject h
    | array elems => exact Outcome.returned.inj h
    | bool y | number y | string y => exact returned_runPrimitiveValues h
  | array desired ih =>
    intro existing b h
    cases existing with
    | null | bool y | number y | string y => exact Outcome.returned.inj h
    | object existingMap => exact returned_nestedObject h
    | array existing =>
      unfold RunsValues at h
      unfold compareJSONValues
      dsimp only at h ⊢
      split_ifs at h with hlen
      · rw [decide_eq_true hlen, Bool.true_and]
        exact returned_runsSlices ih h
      · rw [decide_eq_false hlen, Bool.false_and]
        exact Outcome.returned.inj h
  | object desired ih =>
    intro existing b h
    cases existing with
    | null => exact Outcome.returned.inj h
    | bool y | number y | string y | array y => exact returned_withNestedObject h
    | object existing =>
      have hmember : ∀ member ∈ desired, ∀ b, RunsMember existing member (.returned b) →
          b = compareJSONMember existing member := by
        rintro ⟨key, value⟩ hmem b hrun
        unfold RunsMember at hrun
        unfold compareJSONMember
        cases hlookup : existing.lookup key with
        | none =>
          rw [hlookup] at hrun
          exact Outcome.returned.inj hrun
        | some existingValue =>
          rw [hlookup] at hrun
          exact ih _ hmem existingValue b hrun
      have hrun : RunsMaps existing desired (.returned b) := h
      show b = compareJSONMaps existing desired
      cases b with
      | true =>
        exact (compareJSONMaps_iff.mpr fun member hmem =>
          (hmember member hmem true (runsMaps_true.mp hrun member hmem)).symm).symm
      | false =>
        obtain ⟨member, hmem, hfalse⟩ := (runsMaps_of_ne (by simp)).mp hrun
        refine (Bool.eq_false_iff.mpr fun htrue => ?_).symm
        have hcompared := compareJSONMaps_iff.mp htrue member hmem
        rw [← hmember member hmem false hfalse] at hcompared
        cases hcompared

/-! There is a run. -/

theorem exists_runsSlices {desired : List (Any F)}
    (ih : ∀ d ∈ desired, ∀ e : Any F, ∃ o, RunsValues e d o) (existing : List (Any F)) :
    ∃ o, RunsSlices existing desired o := by
  induction desired generalizing existing with
  | nil => exact ⟨_, rfl⟩
  | cons dVal desired ihs =>
    obtain ⟨ihd, ihrest⟩ := List.forall_mem_cons.mp ih
    rcases forall_or_exists_first (fun e => RunsValues e dVal (.returned false)) existing with
      hnone | ⟨before, eVal, after, hsplit, hbefore, heVal⟩
    · exact ⟨_, Or.inr ⟨hnone, rfl⟩⟩
    · obtain ⟨o, ho⟩ := ihd eVal
      obtain ⟨rest, hrest⟩ := ihs ihrest (before ++ after)
      cases o with
      | panicked => exact ⟨_, Or.inl ⟨before, eVal, after, hsplit, hbefore, Or.inr ⟨ho, rfl⟩⟩⟩
      | returned b =>
        cases b with
        | false => exact (heVal ho).elim
        | true => exact ⟨rest, Or.inl ⟨before, eVal, after, hsplit, hbefore, Or.inl ⟨ho, hrest⟩⟩⟩

theorem exists_runsMaps {existing desired : Members F}
    (h : ∀ member ∈ desired, ∃ o, RunsMember existing member o) :
    ∃ o, RunsMaps existing desired o := by
  by_cases hall : ∀ member ∈ desired, RunsMember existing member (.returned true)
  · exact ⟨_, runsMaps_true.mpr hall⟩
  · simp only [not_forall] at hall
    obtain ⟨member, hmem, hnot⟩ := hall
    obtain ⟨o, ho⟩ := h member hmem
    have hne : o ≠ .returned true := by
      rintro rfl
      exact hnot ho
    exact ⟨o, (runsMaps_of_ne hne).mpr ⟨member, hmem, ho⟩⟩

theorem exists_runsValues (desired : Any F) : ∀ existing : Any F,
    ∃ o, RunsValues existing desired o := by
  induction desired using Any.ind with
  | null | bool x | number x | string x =>
    intro existing
    cases existing <;> exact ⟨_, rfl⟩
  | array desired ih =>
    intro existing
    cases existing with
    | array existing =>
      unfold RunsValues
      dsimp only
      split_ifs
      · exact exists_runsSlices ih existing
      · exact ⟨_, rfl⟩
    | null | bool y | number y | string y | object y => exact ⟨_, rfl⟩
  | object desired ih =>
    intro existing
    cases existing with
    | object existing =>
      refine exists_runsMaps fun member hmem => ?_
      unfold RunsMember
      split
      · exact ih member hmem _
      · exact ⟨_, rfl⟩
    | null | bool y | number y | string y | array y => exact ⟨_, rfl⟩

theorem runs_of_not_panicked {existing desired : Any F}
    (h : ¬RunsValues existing desired .panicked) :
    RunsValues existing desired (.returned (compareJSONValues existing desired)) := by
  obtain ⟨o, ho⟩ := exists_runsValues desired existing
  cases o with
  | panicked => exact (h ho).elim
  | returned b => exact returned_runsValues desired existing b ho ▸ ho

/-! When a run can panic. -/

/-- The loops over the slices come to compare the elements. -/
def ComesTo (existing desired : List (Any F)) (e d : Any F) : Prop :=
  ∃ front back before after, desired = front ++ d :: back ∧
    leftAfter compareJSONValues existing front = some (before ++ e :: after) ∧
    ∀ x ∈ before, compareJSONValues x d = false

/-- The comparison comes to an array and an object with an array for its `id`, else its `value`. -/
inductive Clashes : Any F → Any F → Prop
  | ofExisting {existingMap : Members F} {elems desired : List (Any F)}
      (hfield : idOrValue existingMap = some (.array elems)) :
      Clashes (.object existingMap) (.array desired)
  | ofDesired {existing elems : List (Any F)} {desiredMap : Members F}
      (hfield : idOrValue desiredMap = some (.array elems)) :
      Clashes (.array existing) (.object desiredMap)
  | member {existing desired : Members F} {key : Text} {existingValue desiredValue : Any F}
      (hmem : (key, desiredValue) ∈ desired) (hlookup : existing.lookup key = some existingValue)
      (hclash : Clashes existingValue desiredValue) : Clashes (.object existing) (.object desired)
  | element {existing desired : List (Any F)} {e d : Any F}
      (hlen : existing.length = desired.length) (hcomes : ComesTo existing desired e d)
      (hclash : Clashes e d) : Clashes (.array existing) (.array desired)

theorem ComesTo.cons {existing desired before after : List (Any F)} {dVal eVal e d : Any F}
    (hfit : FirstFit compareJSONValues dVal existing before eVal after)
    (h : ComesTo (before ++ after) desired e d) : ComesTo existing (dVal :: desired) e d := by
  obtain ⟨front, back, before', after', rfl, hleft, hskipped⟩ := h
  exact ⟨dVal :: front, back, before', after', rfl,
    (leftAfter_of_firstFit hfit).trans hleft, hskipped⟩

theorem comesTo_of_panicked {existing desired : List (Any F)}
    (h : RunsSlices existing desired .panicked) :
    ∃ e, ∃ d ∈ desired, ComesTo existing desired e d ∧ RunsValues e d .panicked := by
  induction desired generalizing existing with
  | nil => cases h
  | cons dVal desired ih =>
    rcases h with ⟨before, eVal, after, hsplit, hbefore, ⟨heVal, hrest⟩ | ⟨heVal, -⟩⟩ | ⟨-, ho⟩
    · have hskipped : ∀ e ∈ before, compareJSONValues e dVal = false := fun e he =>
        (returned_runsValues dVal e false (hbefore e he)).symm
      have hfit : FirstFit compareJSONValues dVal existing before eVal after :=
        ⟨hsplit, hskipped, (returned_runsValues dVal eVal true heVal).symm⟩
      obtain ⟨e, d, hd, hcomes, hpanic⟩ := ih hrest
      exact ⟨e, d, List.mem_cons_of_mem dVal hd, hcomes.cons hfit, hpanic⟩
    · refine ⟨eVal, dVal, List.mem_cons_self, ⟨[], desired, before, after, rfl, ?_, ?_⟩, heVal⟩
      · rw [← hsplit]
        rfl
      · exact fun e he => (returned_runsValues dVal e false (hbefore e he)).symm
    · cases ho

theorem panicked_of_comesTo {existing desired : List (Any F)} {e d : Any F}
    (h : ComesTo existing desired e d) (hpanic : RunsValues e d .panicked) :
    RunsSlices existing desired .panicked := by
  induction desired generalizing existing with
  | nil =>
    obtain ⟨front, back, -, -, hsplit, -⟩ := h
    simp at hsplit
  | cons dVal desired ih =>
    obtain ⟨front, back, before, after, hsplit, hleft, hskipped⟩ := h
    -- the first element that panics or matches
    rcases forall_or_exists_first (fun x => ¬RunsValues x dVal .panicked ∧
        compareJSONValues x dVal = false) existing with
      hnone | ⟨before', x, after', hexisting, hbefore', hx⟩
    · cases front with
      | nil =>
        cases hsplit
        cases hleft
        exact ((hnone e (by simp)).1 hpanic).elim
      | cons c front =>
        cases hsplit
        rw [leftAfter_of_none fun y hy => (hnone y hy).2] at hleft
        cases hleft
    · have hfalse : ∀ y ∈ before', RunsValues y dVal (.returned false) := by
        intro y hy
        have hrun := runs_of_not_panicked (hbefore' y hy).1
        rwa [(hbefore' y hy).2] at hrun
      by_cases hxpanic : RunsValues x dVal .panicked
      · exact Or.inl ⟨before', x, after', hexisting, hfalse, Or.inr ⟨hxpanic, rfl⟩⟩
      · have hxtrue : compareJSONValues x dVal = true := by
          by_contra hfalse'
          exact hx ⟨hxpanic, Bool.not_eq_true _ ▸ hfalse'⟩
        have hxrun := runs_of_not_panicked hxpanic
        rw [hxtrue] at hxrun
        have hfit : FirstFit compareJSONValues dVal existing before' x after' :=
          ⟨hexisting, fun y hy => (hbefore' y hy).2, hxtrue⟩
        refine Or.inl ⟨before', x, after', hexisting, hfalse, Or.inl ⟨hxrun, ?_⟩⟩
        cases front with
        | nil =>
          cases hsplit
          have hsame : before ++ e :: after = before' ++ x :: after' :=
            (Option.some.inj hleft).symm.trans hexisting
          rcases List.append_eq_append_iff.mp hsame with ⟨c, hbefore, hc⟩ | ⟨c, hbefore, hc⟩
          · cases c with
            | nil =>
              cases hc
              exact (hxpanic hpanic).elim
            | cons y c =>
              cases hc
              exact ((hbefore' e (by simp [hbefore])).1 hpanic).elim
          · cases c with
            | nil =>
              cases hc
              exact (hxpanic hpanic).elim
            | cons y c =>
              cases hc
              rw [hskipped x (by simp [hbefore])] at hxtrue
              cases hxtrue
        | cons c front =>
          cases hsplit
          rw [leftAfter_of_firstFit hfit] at hleft
          exact ih ⟨front, back, before, after, rfl, hleft, hskipped⟩

theorem ComesTo.mem {existing desired : List (Any F)} {e d : Any F}
    (h : ComesTo existing desired e d) : d ∈ desired := by
  obtain ⟨front, back, -, -, rfl, -⟩ := h
  exact List.mem_append_right front List.mem_cons_self

theorem runPrimitiveValues_panicked {existing desired : Any F} :
    .panicked = runPrimitiveValues existing desired ↔
      (∃ es ds, existing = .array es ∧ desired = .array ds) ∨
        ∃ es ds, existing = .object es ∧ desired = .object ds := by
  unfold runPrimitiveValues
  split <;> simp_all

theorem nestedObject_panicked {existingMap : Members F} {desired : Any F}
    (hdesired : ∀ ds, desired ≠ .object ds) :
    .panicked = runNestedObjectWithPrimitive existingMap desired ↔
      ∃ es ds, idOrValue existingMap = some (.array es) ∧ desired = .array ds := by
  unfold runNestedObjectWithPrimitive
  cases hvalue : idOrValue existingMap with
  | none => simp
  | some value =>
    dsimp only
    rw [runPrimitiveValues_panicked]
    constructor
    · rintro (⟨es, ds, rfl, rfl⟩ | ⟨es, ds, -, rfl⟩)
      · exact ⟨es, ds, rfl, rfl⟩
      · exact (hdesired ds rfl).elim
    · rintro ⟨es, ds, hes, rfl⟩
      exact Or.inl ⟨es, ds, Option.some.inj hes, rfl⟩

theorem withNestedObject_panicked {existing : Any F} {desiredMap : Members F}
    (hexisting : ∀ es, existing ≠ .object es) :
    .panicked = runPrimitiveWithNestedObject existing desiredMap ↔
      ∃ es ds, existing = .array es ∧ idOrValue desiredMap = some (.array ds) := by
  unfold runPrimitiveWithNestedObject
  cases hvalue : idOrValue desiredMap with
  | none => simp
  | some value =>
    dsimp only
    rw [runPrimitiveValues_panicked]
    constructor
    · rintro (⟨es, ds, rfl, rfl⟩ | ⟨es, ds, rfl, -⟩)
      · exact ⟨es, ds, rfl, rfl⟩
      · exact (hexisting es rfl).elim
    · rintro ⟨es, ds, rfl, hds⟩
      exact Or.inl ⟨es, ds, rfl, Option.some.inj hds⟩

theorem panicked_iff_clashes (desired : Any F) : ∀ existing : Any F,
    RunsValues existing desired .panicked ↔ Clashes existing desired := by
  induction desired using Any.ind with
  | null =>
    intro existing
    constructor
    · intro h
      cases existing <;> cases h
    · intro h
      cases h
  | bool x | number x | string x =>
    intro existing
    constructor
    · intro h
      cases existing with
      | object existingMap =>
        obtain ⟨_, _, _, hds⟩ := (nestedObject_panicked (by simp)).mp h
        cases hds
      | null | bool y | number y | string y | array y => cases h
    · intro h
      cases h
  | array desired ih =>
    intro existing
    constructor
    · intro h
      cases existing with
      | object existingMap =>
        obtain ⟨es, ds, hes, -⟩ := (nestedObject_panicked (by simp)).mp h
        exact .ofExisting hes
      | array existing =>
        unfold RunsValues at h
        dsimp only at h
        split_ifs at h with hlen
        · obtain ⟨e, d, hd, hcomes, hpanic⟩ := comesTo_of_panicked h
          exact .element hlen hcomes ((ih d hd e).mp hpanic)
      | null | bool y | number y | string y => cases h
    · intro h
      cases h with
      | ofExisting hfield =>
        exact (nestedObject_panicked (by simp)).mpr ⟨_, _, hfield, rfl⟩
      | element hlen hcomes hclash =>
        unfold RunsValues
        dsimp only
        rw [if_pos hlen]
        exact panicked_of_comesTo hcomes ((ih _ hcomes.mem _).mpr hclash)
  | object desired ih =>
    intro existing
    constructor
    · intro h
      cases existing with
      | object existing =>
        have hrun : RunsMaps existing desired .panicked := h
        obtain ⟨⟨key, value⟩, hmem, hmember⟩ := (runsMaps_of_ne (by simp)).mp hrun
        unfold RunsMember at hmember
        cases hlookup : existing.lookup key with
        | none =>
          rw [hlookup] at hmember
          cases hmember
        | some existingValue =>
          rw [hlookup] at hmember
          exact .member hmem hlookup ((ih _ hmem existingValue).mp hmember)
      | array es =>
        obtain ⟨_, _, _, hds⟩ := (withNestedObject_panicked (by simp)).mp h
        exact .ofDesired hds
      | bool y | number y | string y =>
        obtain ⟨_, _, hes, _⟩ := (withNestedObject_panicked (by simp)).mp h
        cases hes
      | null => cases h
    · intro h
      cases h with
      | ofDesired hfield =>
        exact (withNestedObject_panicked (by simp)).mpr ⟨_, _, rfl, hfield⟩
      | @member existing _ key existingValue desiredValue hmem hlookup hclash =>
        refine (runsMaps_of_ne (by simp)).mpr ⟨_, hmem, ?_⟩
        unfold RunsMember
        rw [hlookup]
        exact (ih _ hmem existingValue).mpr hclash

/-! A value compared with itself. -/

/-- A Go map has one member for a key. -/
inductive KeysUnique : Any F → Prop
  | null : KeysUnique .null
  | bool (b : Bool) : KeysUnique (.bool b)
  | number (x : F) : KeysUnique (.number x)
  | string (s : Text) : KeysUnique (.string s)
  | array {elems : List (Any F)} (h : ∀ e ∈ elems, KeysUnique e) : KeysUnique (.array elems)
  | object {members : Members F} (hkeys : (members.map Prod.fst).Nodup)
      (h : ∀ member ∈ members, KeysUnique member.2) : KeysUnique (.object members)

/-- The loops over the slices take the elements in pairs: no element takes the partner of a later
one. -/
theorem runsSlices_self {elems : List (Any F)}
    (h : ∀ e ∈ elems, ∀ o, RunsValues e e o ↔ o = .returned true) :
    RunsSlices elems elems o ↔ o = .returned true := by
  induction elems with
  | nil => exact Iff.rfl
  | cons x elems ih =>
    obtain ⟨hx, hrest⟩ := List.forall_mem_cons.mp h
    have hnot : ¬RunsValues x x (.returned false) := fun hfalse => by
      cases (hx _).mp hfalse
    rw [← ih hrest]
    constructor
    · rintro (⟨before, eVal, after, hsplit, hbefore, hrun⟩ | ⟨hnone, -⟩)
      · cases before with
        | nil =>
          cases hsplit
          rcases hrun with ⟨-, hrun⟩ | ⟨hpanic, -⟩
          · exact hrun
          · cases (hx _).mp hpanic
        | cons y before =>
          cases hsplit
          exact (hnot (hbefore x List.mem_cons_self)).elim
      · exact (hnot (hnone x List.mem_cons_self)).elim
    · intro hrun
      exact Or.inl ⟨[], x, elems, rfl, List.forall_mem_nil _, Or.inl ⟨(hx _).mpr rfl, hrun⟩⟩

theorem runsMaps_self {members : Members F} (hkeys : (members.map Prod.fst).Nodup)
    (h : ∀ member ∈ members, ∀ o, RunsValues member.2 member.2 o ↔ o = .returned true) :
    RunsMaps members members o ↔ o = .returned true := by
  have hmember : ∀ member ∈ members, ∀ o, RunsMember members member o ↔ o = .returned true := by
    rintro ⟨key, value⟩ hmem o
    unfold RunsMember
    rw [PyDict.lookup_of_mem hkeys hmem]
    exact h _ hmem o
  constructor
  · intro hrun
    by_contra ho
    obtain ⟨member, hmem, hne⟩ := (runsMaps_of_ne ho).mp hrun
    exact ho ((hmember member hmem o).mp hne)
  · rintro rfl
    exact runsMaps_true.mpr fun member hmem => (hmember member hmem _).mpr rfl

theorem runsValues_self {x : Any F} (h : KeysUnique x) (o : Outcome) :
    RunsValues x x o ↔ o = .returned true := by
  induction h generalizing o with
  | null => exact Iff.rfl
  | bool b | number b | string b => simp [RunsValues, runPrimitiveValues, comparePrimitiveValues]
  | array _ ih =>
    unfold RunsValues
    dsimp only
    rw [if_pos rfl]
    exact runsSlices_self ih
  | object hkeys _ ih => exact runsMaps_self hkeys ih

/-- `CompareJSONFields` does not panic exactly when the comparison does not come to an array and
an object with an array for its `id`, else its `value`; every object compares to itself. -/
theorem compare_safe_iff (existing desired : Members F) :
    (((∃ b, RunsFields existing desired (.returned b)) ∧ ¬RunsFields existing desired .panicked) ∧
      ∀ x : Members F, KeysUnique (.object x) → "relationships".toList ∉ x.map Prod.fst →
        RunsMaps x x (.returned true) ∧ ∀ o, RunsMaps x x o → o = .returned true) ↔
      ¬Clashes (.object existing)
        (.object (desired.filter fun member => member.1 ≠ "relationships".toList)) := by
  have hpanic := panicked_iff_clashes
    (.object (desired.filter fun member => member.1 ≠ "relationships".toList)) (.object existing)
  constructor
  · rintro ⟨⟨-, hnot⟩, -⟩ hclash
    exact hnot (hpanic.mpr hclash)
  · intro hclash
    have hnot : ¬RunsFields existing desired .panicked := fun h => hclash (hpanic.mp h)
    have hreturns := @runs_of_not_panicked F _ (.object existing) (.object _) hnot
    refine ⟨⟨⟨_, hreturns⟩, hnot⟩, fun x hx _ => ?_⟩
    have hself := runsValues_self hx
    exact ⟨(hself _).mpr rfl, fun o => (hself o).mp⟩

def taggedObject : Members ℕ :=
  [("tags".toList, .object [("id".toList, .array [.string "a".toList])])]

def taggedList : Members ℕ := [("tags".toList, .array [.string "a".toList])]

/-- An object that has a list for its `id`, in the place of the list itself. -/
theorem list_for_id_panics :
    ¬((∃ b, RunsFields taggedObject taggedList (.returned b)) ∧
      ¬RunsFields taggedObject taggedList .panicked) := by
  rintro ⟨-, hnot⟩
  refine hnot ((panicked_iff_clashes (.object _) (.object taggedObject)).mpr ?_)
  exact .member List.mem_cons_self rfl (.ofExisting rfl)

end Understack.Nautobotop.CompareJson
