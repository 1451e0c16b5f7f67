import Understack.Nautobotop.CompareRuns
import Mathlib.Logic.Relation

/-! When one JSON value has what another asks for, and that this does not depend on the order of the
elements of arrays. -/
namespace Understack.Nautobotop.CompareJson
open PyText Pairings

variable {F : Type} {through : Any F → Prop} {e e' d d' : Any F}

/-- Neither an array nor an object. -/
def Plain (value : Any F) : Prop :=
  (∀ elems, value ≠ .array elems) ∧ ∀ members, value ≠ .object members

/-- Existing covers desired; `through` says which values an `id` or `value` that is compared with
something else than an object can have. -/
inductive CoversVia (through : Any F → Prop) : Any F → Any F → Prop
  | null : CoversVia through .null .null
  | bool (b : Bool) : CoversVia through (.bool b) (.bool b)
  | number (x : F) : CoversVia through (.number x) (.number x)
  | string (s : Text) : CoversVia through (.string s) (.string s)
  | object {existing desired : Members F}
      (hkeys : ∀ member ∈ desired, existing.lookup member.1 ≠ none)
      (h : ∀ member ∈ desired, ∀ value, existing.lookup member.1 = some value →
        CoversVia through value member.2) : CoversVia through (.object existing) (.object desired)
  | existingField {existing : Members F} {value desired : Any F} (hnull : desired ≠ .null)
      (hobject : ∀ members, desired ≠ .object members) (hfield : idOrValue existing = some value)
      (hthrough : through value) (h : CoversVia through value desired) :
      CoversVia through (.object existing) desired
  | desiredField {desired : Members F} {value existing : Any F} (hnull : existing ≠ .null)
      (hobject : ∀ members, existing ≠ .object members) (hfield : idOrValue desired = some value)
      (hthrough : through value) (h : CoversVia through existing value) :
      CoversVia through existing (.object desired)
  | array {existing desired : List (Any F)} (order : List (Any F)) (horder : order.Perm existing)
      (hlen : order.length = desired.length)
      (h : ∀ p ∈ order.zip desired, CoversVia through p.1 p.2) :
      CoversVia through (.array existing) (.array desired)

/-- Existing covers desired. -/
abbrev Covers : Any F → Any F → Prop := CoversVia fun _ => True

theorem CoversVia.mono {through' : Any F → Prop} (himp : ∀ value, through value → through' value)
    (h : CoversVia through e d) : CoversVia through' e d := by
  induction h with
  | null => exact .null
  | bool b => exact .bool b
  | number x => exact .number x
  | string s => exact .string s
  | object hkeys _ ih => exact .object hkeys ih
  | existingField hnull hobject hfield hthrough _ ih =>
    exact .existingField hnull hobject hfield (himp _ hthrough) ih
  | desiredField hnull hobject hfield hthrough _ ih =>
    exact .desiredField hnull hobject hfield (himp _ hthrough) ih
  | array order horder hlen _ ih => exact .array order horder hlen ih

theorem coversVia_array {existing desired : List (Any F)} :
    CoversVia through (.array existing) (.array desired) ↔
      Pairs (CoversVia through) existing desired := by
  constructor
  · intro h
    cases h with
    | array order horder hlen h =>
      exact ⟨order, horder, List.forall₂_iff_zip.mpr ⟨hlen, fun hmem => h _ hmem⟩⟩
  · rintro ⟨order, horder, hpairs⟩
    obtain ⟨hlen, hzip⟩ := List.forall₂_iff_zip.mp hpairs
    exact .array order horder hlen fun _ hmem => hzip hmem

/-! The order of the elements of arrays. -/

/-- The elements of one array are reordered. -/
inductive Step : Any F → Any F → Prop
  | perm {elems elems' : List (Any F)} (h : elems.Perm elems') : Step (.array elems) (.array elems')
  | elem {front back : List (Any F)} {e e' : Any F} (h : Step e e') :
      Step (.array (front ++ e :: back)) (.array (front ++ e' :: back))
  | member {front back : Members F} {key : Text} {value value' : Any F} (h : Step value value') :
      Step (.object (front ++ (key, value) :: back)) (.object (front ++ (key, value') :: back))

/-- The elements of any arrays are reordered. -/
abbrev Reorders : Any F → Any F → Prop := Relation.ReflTransGen Step

theorem Step.symm (h : Step e e') : Step e' e := by
  induction h with
  | perm h => exact .perm h.symm
  | elem _ ih => exact .elem ih
  | member _ ih => exact .member ih

theorem Reorders.symm (h : Reorders e e') : Reorders e' e :=
  (@Relation.ReflTransGen.stdSymm _ Step ⟨fun _ _ => Step.symm⟩).symm _ _ h

theorem Plain.step (h : Plain e) (hstep : Step e e') : False := by
  cases hstep with
  | perm => exact h.1 _ rfl
  | elem => exact h.1 _ rfl
  | member => exact h.2 _ rfl

/-- A value of the object after the step is one from before it, or comes from one by the step. -/
theorem Step.lookup {existing existing' : Members F}
    (h : Step (.object existing) (.object existing')) {key : Text} {value' : Any F} (hlookup : existing'.lookup key = some value') :
    ∃ value, existing.lookup key = some value ∧ (value = value' ∨ Step value value') := by
  cases h with
  | @member front back name value₀ value₁ h =>
    rw [List.lookup_append] at hlookup ⊢
    cases hfront : front.lookup key with
    | some value =>
      rw [hfront] at hlookup
      exact ⟨value, rfl, Or.inl (Option.some.inj hlookup)⟩
    | none =>
      rw [hfront, Option.none_or, List.lookup_cons] at hlookup
      rw [Option.none_or, List.lookup_cons]
      split at hlookup
      · exact ⟨value₀, rfl, Or.inr (Option.some.inj hlookup ▸ h)⟩
      · exact ⟨value', hlookup, Or.inl rfl⟩

theorem Step.idOrValue {members members' : Members F}
    (h : Step (.object members) (.object members')) {value : Any F} (hfield : CompareJson.idOrValue members = some value) :
    ∃ value', CompareJson.idOrValue members' = some value' ∧
      (value = value' ∨ Step value value') := by
  have hnone {key : Text} (hkey : members.lookup key = none) : members'.lookup key = none := by
    cases hlookup : members'.lookup key with
    | none => rfl
    | some value' =>
      obtain ⟨value, hvalue, -⟩ := h.lookup hlookup
      rw [hkey] at hvalue
      cases hvalue
  have hsome {key : Text} {value : Any F} (hkey : members.lookup key = some value) :
      ∃ value', members'.lookup key = some value' ∧ (value = value' ∨ Step value value') := by
    obtain ⟨value', hvalue', hstep⟩ := h.symm.lookup hkey
    exact ⟨value', hvalue', hstep.imp Eq.symm Step.symm⟩
  unfold CompareJson.idOrValue at hfield ⊢
  cases hid : members.lookup "id".toList with
  | some id =>
    rw [hid] at hfield
    obtain ⟨value', hvalue', hstep⟩ := hsome (hid.trans hfield)
    exact ⟨value', by rw [hvalue'], hstep⟩
  | none =>
    rw [hid] at hfield
    rw [hnone hid]
    exact hsome hfield

/-- Which values an `id` can have does not depend on the order of elements. -/
def Stable (through : Any F → Prop) : Prop :=
  ∀ value value', Step value value' → through value → through value'

theorem stable_true : Stable fun _ : Any F => True := fun _ _ _ _ => trivial

theorem stable_plain : Stable (Plain : Any F → Prop) := fun _ _ hstep h => (h.step hstep).elim

theorem CoversVia.step_left (hstable : Stable through) (h : CoversVia through e d) :
    ∀ e', Step e e' → CoversVia through e' d := by
  induction h with
  | null | bool b | number x | string s =>
    intro e' hstep
    cases hstep
  | @object existing desired hkeys h ih =>
    intro e' hstep
    obtain ⟨existing', rfl⟩ : ∃ existing', e' = .object existing' := by
      cases hstep
      exact ⟨_, rfl⟩
    refine .object (fun member hmem hnone => hkeys member hmem ?_)
      fun member hmem value' hvalue' => ?_
    · cases hlookup : existing.lookup member.1 with
      | none => rfl
      | some value =>
        obtain ⟨value', hvalue', -⟩ := hstep.symm.lookup hlookup
        rw [hnone] at hvalue'
        cases hvalue'
    · obtain ⟨value, hvalue, rfl | hvaluestep⟩ := hstep.lookup hvalue'
      · exact h member hmem value hvalue
      · exact ih member hmem value hvalue value' hvaluestep
  | existingField hnull hobject hfield hthrough h ih =>
    intro e' hstep
    obtain ⟨existing', rfl⟩ : ∃ existing', e' = .object existing' := by
      cases hstep
      exact ⟨_, rfl⟩
    obtain ⟨value', hvalue', rfl | hvaluestep⟩ := hstep.idOrValue hfield
    · exact .existingField hnull hobject hvalue' hthrough h
    · exact .existingField hnull hobject hvalue' (hstable _ _ hvaluestep hthrough)
        (ih value' hvaluestep)
  | desiredField hnull hobject hfield hthrough h ih =>
    intro e' hstep
    refine .desiredField ?_ ?_ hfield hthrough (ih e' hstep)
    · rintro rfl
      cases hstep
    · rintro members rfl
      cases hstep
      exact hobject _ rfl
  | @array existing desired order horder hlen h ih =>
    intro e' hstep
    have hpairs : Pairs
        (fun e d => CoversVia through e d ∧ ∀ e', Step e e' → CoversVia through e' d)
        existing desired :=
      ⟨order, horder, List.forall₂_iff_zip.mpr ⟨hlen, fun hmem => ⟨h _ hmem, ih _ hmem⟩⟩⟩
    cases hstep with
    | perm hperm =>
      exact coversVia_array.mpr ((hpairs.imp_of_mem fun _ _ _ _ h => h.1).perm_left hperm)
    | @elem front back e e' hstep =>
      obtain ⟨d, rest, hrest, hd, hothers⟩ := (hpairs.perm_left List.perm_middle).uncons_left
      have hothers' := hothers.imp_of_mem fun _ _ _ _ h => h.1
      exact coversVia_array.mpr
        (((hothers'.cons (hd.2 e' hstep)).perm_left List.perm_middle.symm).perm_right hrest.symm)

theorem CoversVia.step_right (hstable : Stable through) (h : CoversVia through e d) :
    ∀ d', Step d d' → CoversVia through e d' := by
  induction h with
  | null | bool b | number x | string s =>
    intro d' hstep
    cases hstep
  | @object existing desired hkeys h ih =>
    intro d' hstep
    cases hstep with
    | @member front back key value value' hstep =>
      have hmem {member : Text × Any F} (h : member ∈ front ++ back) :
          member ∈ front ++ (key, value) :: back := by
        rw [List.mem_append, List.mem_cons]
        exact (List.mem_append.mp h).imp_right Or.inr
      have hself : (key, value) ∈ front ++ (key, value) :: back := by simp
      have hcases {member : Text × Any F} (h : member ∈ front ++ (key, value') :: back) :
          member = (key, value') ∨ member ∈ front ++ back := by
        rw [List.mem_append, List.mem_cons] at h
        rw [List.mem_append]
        tauto
      constructor
      · intro member hmember
        rcases hcases hmember with rfl | hother
        · exact hkeys (key, value) hself
        · exact hkeys member (hmem hother)
      · intro member hmember existingValue hlookup
        rcases hcases hmember with rfl | hother
        · exact ih (key, value) hself existingValue hlookup value' hstep
        · exact h member (hmem hother) existingValue hlookup
  | existingField hnull hobject hfield hthrough h ih =>
    intro d' hstep
    refine .existingField ?_ ?_ hfield hthrough (ih d' hstep)
    · rintro rfl
      cases hstep
    · rintro members rfl
      cases hstep
      exact hobject _ rfl
  | desiredField hnull hobject hfield hthrough h ih =>
    intro d' hstep
    obtain ⟨desired', rfl⟩ : ∃ desired', d' = .object desired' := by
      cases hstep
      exact ⟨_, rfl⟩
    obtain ⟨value', hvalue', rfl | hvaluestep⟩ := hstep.idOrValue hfield
    · exact .desiredField hnull hobject hvalue' hthrough h
    · exact .desiredField hnull hobject hvalue' (hstable _ _ hvaluestep hthrough)
        (ih value' hvaluestep)
  | @array existing desired order horder hlen h ih =>
    intro d' hstep
    have hpairs : Pairs
        (fun e d => CoversVia through e d ∧ ∀ d', Step d d' → CoversVia through e d')
        existing desired :=
      ⟨order, horder, List.forall₂_iff_zip.mpr ⟨hlen, fun hmem => ⟨h _ hmem, ih _ hmem⟩⟩⟩
    cases hstep with
    | perm hperm =>
      exact coversVia_array.mpr ((hpairs.imp_of_mem fun _ _ _ _ h => h.1).perm_right hperm)
    | @elem front back d d' hstep =>
      obtain ⟨e, rest, hrest, he, hothers⟩ := (hpairs.perm_right List.perm_middle).uncons_right
      have hothers' := hothers.imp_of_mem fun _ _ _ _ h => h.1
      exact coversVia_array.mpr
        (((hothers'.cons (he.2 d' hstep)).perm_right List.perm_middle.symm).perm_left hrest.symm)

/-- Covering does not depend on the order of the elements of arrays. -/
theorem CoversVia.reorders (hstable : Stable through) (h : CoversVia through e d)
    (he : Reorders e e') (hd : Reorders d d') : CoversVia through e' d' := by
  have hleft : CoversVia through e' d := by
    induction he with
    | refl => exact h
    | tail _ hstep ih => exact ih.step_left hstable _ hstep
  induction hd with
  | refl => exact hleft
  | tail _ hstep ih => exact ih.step_right hstable _ hstep

theorem coversVia_reorders_iff (hstable : Stable through) (he : Reorders e e')
    (hd : Reorders d d') : CoversVia through e' d' ↔ CoversVia through e d :=
  ⟨fun h => h.reorders hstable he.symm hd.symm, fun h => h.reorders hstable he hd⟩

theorem Reorders.of_array {elems : List (Any F)} (h : Reorders (.array elems) e') :
    ∃ elems', e' = .array elems' ∧ elems'.length = elems.length ∧
      ∀ x' ∈ elems', ∃ x ∈ elems, Reorders x x' := by
  induction h with
  | refl => exact ⟨elems, rfl, rfl, fun x hx => ⟨x, hx, .refl⟩⟩
  | tail _ hstep ih =>
    obtain ⟨mid, rfl, hlen, hmid⟩ := ih
    cases hstep with
    | perm hperm =>
      exact ⟨_, rfl, hperm.length_eq.symm.trans hlen, fun x hx => hmid x (hperm.mem_iff.mpr hx)⟩
    | @elem front back y y' hstep =>
      refine ⟨_, rfl, by simpa using hlen, fun x' hx' => ?_⟩
      rw [List.mem_append, List.mem_cons] at hx'
      rcases hx' with hfront | rfl | hback
      · exact hmid x' (by simp [hfront])
      · obtain ⟨x, hx, hreorders⟩ := hmid y (by simp)
        exact ⟨x, hx, hreorders.tail hstep⟩
      · exact hmid x' (by simp [hback])

theorem Reorders.of_object {members : Members F} (h : Reorders (.object members) e') :
    ∃ members', e' = .object members' ∧
      (∀ key value', members'.lookup key = some value' →
        ∃ value, members.lookup key = some value ∧ Reorders value value') ∧
      ∀ m' ∈ members', ∃ m ∈ members, m.1 = m'.1 ∧ Reorders m.2 m'.2 := by
  induction h with
  | refl =>
    exact ⟨members, rfl, fun _ value h => ⟨value, h, .refl⟩, fun m hm => ⟨m, hm, rfl, .refl⟩⟩
  | @tail _ last _ hstep ih =>
    obtain ⟨mid, rfl, hlookup, hmem⟩ := ih
    obtain ⟨members', rfl⟩ : ∃ members', last = .object members' := by
      cases hstep
      exact ⟨_, rfl⟩
    refine ⟨members', rfl, fun key value' hvalue' => ?_, fun m' hm' => ?_⟩
    · obtain ⟨midValue, hmid, hlast⟩ := hstep.lookup hvalue'
      obtain ⟨value, hvalue, hreorders⟩ := hlookup key midValue hmid
      refine ⟨value, hvalue, ?_⟩
      rcases hlast with rfl | hlast
      · exact hreorders
      · exact hreorders.tail hlast
    · cases hstep with
      | @member front back key value value' hstep =>
        rw [List.mem_append, List.mem_cons] at hm'
        rcases hm' with hfront | rfl | hback
        · exact hmem m' (by simp [hfront])
        · obtain ⟨m, hm, hkey, hreorders⟩ := hmem (key, value) (by simp)
          exact ⟨m, hm, hkey, hreorders.tail hstep⟩
        · exact hmem m' (by simp [hback])

theorem Reorders.array_of_forall₂ {elems elems' : List (Any F)}
    (h : List.Forall₂ Reorders elems elems') (front : List (Any F)) :
    Reorders (.array (front ++ elems)) (.array (front ++ elems')) := by
  induction h generalizing front with
  | nil => exact .refl
  | @cons x x' rest rest' hx _ ih =>
    have hfirst : Reorders (.array (front ++ x :: rest)) (.array (front ++ x' :: rest)) :=
      hx.lift (fun y => Any.array (front ++ y :: rest)) fun _ _ hstep => .elem hstep
    refine hfirst.trans ?_
    have hrest := ih (front ++ [x'])
    rwa [List.append_assoc, List.append_assoc] at hrest

theorem Reorders.object_of_forall₂ {members members' : Members F}
    (h : List.Forall₂ (fun m m' => m.1 = m'.1 ∧ Reorders m.2 m'.2) members members')
    (front : Members F) : Reorders (.object (front ++ members)) (.object (front ++ members')) := by
  induction h generalizing front with
  | nil => exact .refl
  | @cons m m' rest rest' hm _ ih =>
    obtain ⟨key, value⟩ := m
    obtain ⟨key', value'⟩ := m'
    obtain ⟨hkey, hvalue⟩ := hm
    cases hkey
    have hfirst : Reorders (.object (front ++ (key, value) :: rest))
        (.object (front ++ (key, value') :: rest)) :=
      hvalue.lift (fun y => Any.object (front ++ (key, y) :: rest)) fun _ _ hstep => .member hstep
    refine hfirst.trans ?_
    have hrest := ih (front ++ [(key, value')])
    rwa [List.append_assoc, List.append_assoc] at hrest

theorem lookup_of_forall₂ {R : Text → Any F → Any F → Prop} {members members' : Members F}
    (h : List.Forall₂ (fun m m' => m.1 = m'.1 ∧ R m.1 m.2 m'.2) members members') {key : Text}
    {value : Any F} (hlookup : members.lookup key = some value) :
    ∃ value', members'.lookup key = some value' ∧ R key value value' := by
  induction h with
  | nil => cases hlookup
  | @cons m m' rest rest' hm _ ih =>
    obtain ⟨name, v⟩ := m
    obtain ⟨name', v'⟩ := m'
    obtain ⟨hkey, hvalue⟩ := hm
    cases hkey
    rw [List.lookup_cons] at hlookup ⊢
    split at hlookup
    · next heq =>
      obtain rfl := eq_of_beq heq
      exact ⟨v', rfl, Option.some.inj hlookup ▸ hvalue⟩
    · exact ih hlookup

theorem Plain.reorders (h : Plain e) (hreorders : Reorders e e') : e' = e := by
  rcases Relation.ReflTransGen.cases_head hreorders with rfl | ⟨mid, hstep, -⟩
  · rfl
  · exact (h.step hstep).elim

theorem Reorders.idOrValue {members : Members F} (h : Reorders (.object members) e')
    {value : Any F} (hfield : CompareJson.idOrValue members = some value) :
    ∃ members' value', e' = .object members' ∧ CompareJson.idOrValue members' = some value' ∧
      Reorders value value' := by
  induction h with
  | refl => exact ⟨members, value, rfl, hfield, .refl⟩
  | @tail _ last _ hstep ih =>
    obtain ⟨mid, midValue, rfl, hmid, hreorders⟩ := ih
    obtain ⟨members', rfl⟩ : ∃ members', last = .object members' := by
      cases hstep
      exact ⟨_, rfl⟩
    obtain ⟨value', hvalue', rfl | hvaluestep⟩ := hstep.idOrValue hmid
    · exact ⟨members', _, rfl, hvalue', hreorders⟩
    · exact ⟨members', value', rfl, hvalue', hreorders.tail hvaluestep⟩

end Understack.Nautobotop.CompareJson
