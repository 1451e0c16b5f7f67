import Understack.Nautobotop.CoversJson

/-! Whether the comparison of two objects decides that the one has what the other asks for. -/
namespace Understack.Nautobotop.CompareJson
open PyText Pairings

variable {F : Type} {through : Any F → Prop} {e e' d d' : Any F}

/-! What the comparison finds, covers. -/

theorem Plain.covers_self (h : Plain e) : CoversVia through e e := by
  cases e with
  | null => exact .null
  | bool b => exact .bool b
  | number x => exact .number x
  | string s => exact .string s
  | array elems => exact (h.1 elems rfl).elim
  | object members => exact (h.2 members rfl).elim

/-- A plain value covers, and is covered by, itself alone among the values that are no objects. -/
theorem Plain.eq_of_covers (h : Plain e) (hobject : ∀ members, d ≠ .object members)
    (hcovers : CoversVia through e d) : e = d := by
  cases hcovers with
  | null | bool b | number x | string s => rfl
  | object => exact (h.2 _ rfl).elim
  | existingField => exact (h.2 _ rfl).elim
  | desiredField => exact (hobject _ rfl).elim
  | array => exact (h.1 _ rfl).elim

theorem Plain.eq_of_covered (h : Plain d) (hobject : ∀ members, e ≠ .object members)
    (hcovers : CoversVia through e d) : e = d := by
  cases hcovers with
  | null | bool b | number x | string s => rfl
  | object => exact (h.2 _ rfl).elim
  | existingField => exact (hobject _ rfl).elim
  | desiredField => exact (h.2 _ rfl).elim
  | array => exact (h.1 _ rfl).elim

variable [DecidableEq F]

theorem comparePrimitiveValues_iff {existing desired : Any F} :
    comparePrimitiveValues existing desired = true ↔ existing = desired ∧ Plain existing := by
  cases existing <;> cases desired <;> simp [comparePrimitiveValues, Plain]

theorem nestedObject_iff {existingMap : Members F} {desired : Any F} :
    compareNestedObjectWithPrimitive existingMap desired = true ↔
      idOrValue existingMap = some desired ∧ Plain desired := by
  rw [compareNestedObjectWithPrimitive_eq]
  cases idOrValue existingMap with
  | none => simp
  | some value =>
    dsimp only
    rw [comparePrimitiveValues_iff, Option.some.injEq]
    exact and_congr_right fun heq => heq ▸ Iff.rfl

theorem withNestedObject_iff {existing : Any F} {desiredMap : Members F} :
    comparePrimitiveWithNestedObject existing desiredMap = true ↔
      idOrValue desiredMap = some existing ∧ Plain existing := by
  rw [comparePrimitiveWithNestedObject_eq]
  cases idOrValue desiredMap with
  | none => simp
  | some value =>
    dsimp only
    rw [comparePrimitiveValues_iff, Option.some.injEq]
    exact and_congr_left fun _ => eq_comm

theorem compareJSONValues_object {existing desired : Members F} :
    compareJSONValues (.object existing) (.object desired) = true ↔
      ∀ member ∈ desired, ∃ value, existing.lookup member.1 = some value ∧
        compareJSONValues value member.2 = true := by
  show compareJSONMaps existing desired = true ↔ _
  rw [compareJSONMaps_iff]
  refine forall₂_congr fun member _ => ?_
  obtain ⟨key, desiredValue⟩ := member
  unfold compareJSONMember
  cases existing.lookup key <;> simp

theorem compareJSONValues_array {existing desired : List (Any F)} :
    compareJSONValues (.array existing) (.array desired) = true ↔
      existing.length = desired.length ∧
        ∃ rest, leftAfter compareJSONValues existing desired = some rest := by
  unfold compareJSONValues
  dsimp only
  rw [Bool.and_eq_true, decide_eq_true_eq, compareJSONSlices_eq, Option.isSome_iff_exists]

theorem compareJSONValues_nested {existingMap : Members F} {desired : Any F}
    (hnull : desired ≠ .null) (hobject : ∀ members, desired ≠ .object members) :
    compareJSONValues (.object existingMap) desired =
      compareNestedObjectWithPrimitive existingMap desired := by
  cases desired with
  | null => exact (hnull rfl).elim
  | object members => exact (hobject members rfl).elim
  | bool x | number x | string x | array x => simp only [compareJSONValues]

theorem compareJSONValues_with {existing : Any F} {desiredMap : Members F}
    (hnull : existing ≠ .null) (hobject : ∀ members, existing ≠ .object members) :
    compareJSONValues existing (.object desiredMap) =
      comparePrimitiveWithNestedObject existing desiredMap := by
  cases existing with
  | null => exact (hnull rfl).elim
  | object members => exact (hobject members rfl).elim
  | bool x | number x | string x | array x => simp only [compareJSONValues]

theorem Plain.compare_self (h : Plain e) : compareJSONValues e e = true := by
  cases e with
  | array elems => exact (h.1 elems rfl).elim
  | object members => exact (h.2 members rfl).elim
  | null | bool b | number b | string b => simp [compareJSONValues, comparePrimitiveValues]

theorem covers_of_compare (desired : Any F) : ∀ existing : Any F,
    compareJSONValues existing desired = true → CoversVia Plain existing desired := by
  have hnested {existingMap : Members F} {desired : Any F} (hnull : desired ≠ .null)
      (hobject : ∀ members, desired ≠ .object members)
      (h : compareNestedObjectWithPrimitive existingMap desired = true) :
      CoversVia Plain (.object existingMap) desired := by
    obtain ⟨hfield, hplain⟩ := nestedObject_iff.mp h
    exact .existingField hnull hobject hfield hplain hplain.covers_self
  have hwith {existing : Any F} {desiredMap : Members F} (hnull : existing ≠ .null)
      (hobject : ∀ members, existing ≠ .object members)
      (h : comparePrimitiveWithNestedObject existing desiredMap = true) :
      CoversVia Plain existing (.object desiredMap) := by
    obtain ⟨hfield, hplain⟩ := withNestedObject_iff.mp h
    exact .desiredField hnull hobject hfield hplain hplain.covers_self
  induction desired using Any.ind with
  | null =>
    intro existing h
    cases existing with
    | null => exact .null
    | bool y | number y | string y | array y | object y => cases h
  | bool x | number x | string x =>
    intro existing h
    cases existing with
    | null | array y => cases h
    | object existingMap => exact hnested (by simp) (by simp) h
    | bool y | number y | string y =>
      simp only [compareJSONValues] at h
      obtain ⟨heq, hplain⟩ := comparePrimitiveValues_iff.mp h
      exact heq ▸ hplain.covers_self
  | array desired ih =>
    intro existing h
    cases existing with
    | null | bool y | number y | string y => cases h
    | object existingMap => exact hnested (by simp) (by simp) h
    | array existing =>
      obtain ⟨hlen, rest, hrest⟩ := compareJSONValues_array.mp h
      exact coversVia_array.mpr
        ((pairs_of_leftAfter hlen hrest).imp_of_mem fun e _ d hd h => ih d hd e h)
  | object desired ih =>
    intro existing h
    cases existing with
    | null => cases h
    | bool y | number y | string y | array y => exact hwith (by simp) (by simp) h
    | object existing =>
      have hmember := compareJSONValues_object.mp h
      constructor
      · intro member hmem hnone
        obtain ⟨value, hvalue, -⟩ := hmember member hmem
        rw [hnone] at hvalue
        cases hvalue
      · intro member hmem value hlookup
        obtain ⟨value', hvalue, hcompared⟩ := hmember member hmem
        rw [hlookup] at hvalue
        cases hvalue
        exact ih member hmem value hcompared

/-! Where what covers is found, in any order. -/

/-- In the arrays that are compared, elements that cover a common element cover the same ones. -/
inductive Uniform : Any F → Any F → Prop
  | array {existing desired : List (Any F)}
      (hdif : Difunctional (CoversVia Plain) existing desired)
      (h : ∀ e ∈ existing, ∀ d ∈ desired, CoversVia Plain e d → Uniform e d) :
      Uniform (.array existing) (.array desired)
  | object {existing desired : Members F}
      (h : ∀ member ∈ desired, ∀ value, existing.lookup member.1 = some value →
        Uniform value member.2) : Uniform (.object existing) (.object desired)
  | other {existing desired : Any F}
      (harrays : ∀ es ds, ¬(existing = .array es ∧ desired = .array ds))
      (hobjects : ∀ es ds, ¬(existing = .object es ∧ desired = .object ds)) :
      Uniform existing desired

theorem compare_of_uniform (h : Uniform e d) : ∀ e' d', Reorders e e' → Reorders d d' →
    CoversVia Plain e d → compareJSONValues e' d' = true := by
  induction h with
  | @array existing desired hdif h ih =>
    intro e' d' he hd hcovers
    have hcovers' := hcovers.reorders stable_plain he hd
    obtain ⟨existing', rfl, -, hexisting⟩ := he.of_array
    obtain ⟨desired', rfl, -, hdesired⟩ := hd.of_array
    have hfound : ∀ e' ∈ existing', ∀ d' ∈ desired',
        (compareJSONValues e' d' = true ↔ CoversVia Plain e' d') := by
      intro e' he' d' hd'
      obtain ⟨e, heMem, hereorders⟩ := hexisting e' he'
      obtain ⟨d, hdMem, hdreorders⟩ := hdesired d' hd'
      refine ⟨covers_of_compare d' e', fun hcovered => ?_⟩
      have hcovered' := (coversVia_reorders_iff stable_plain hereorders hdreorders).mp hcovered
      exact ih e heMem d hdMem hcovered' e' d' hereorders hdreorders hcovered'
    have hdif' : Difunctional (fun e d => compareJSONValues e d = true) existing' desired' := by
      intro a' ha' b' hb' c' hc' d' hd' hac had hbc
      rw [hfound _ ‹_› _ ‹_›] at hac had hbc ⊢
      obtain ⟨a, ha, harr⟩ := hexisting a' ha'
      obtain ⟨b, hb, hbrr⟩ := hexisting b' hb'
      obtain ⟨c, hc, hcrr⟩ := hdesired c' hc'
      obtain ⟨d, hd, hdrr⟩ := hdesired d' hd'
      rw [coversVia_reorders_iff stable_plain ‹_› ‹_›] at hac had hbc ⊢
      exact hdif a ha b hb c hc d hd hac had hbc
    have hpairs := coversVia_array.mp hcovers'
    exact compareJSONValues_array.mpr ⟨hpairs.length_eq, leftAfter_of_pairs
      (hpairs.imp_of_mem fun e he d hd h => (hfound e he d hd).mpr h) hdif'⟩
  | @object existing desired h ih =>
    intro e' d' he hd hcovers
    have hcovers' := hcovers.reorders stable_plain he hd
    obtain ⟨existing', rfl, hexisting, -⟩ := he.of_object
    obtain ⟨desired', rfl, -, hdesired⟩ := hd.of_object
    refine compareJSONValues_object.mpr fun member' hmember' => ?_
    obtain ⟨member, hmember, hkey, hreorders⟩ := hdesired member' hmember'
    cases hcovers' with
    | existingField hnull hobject => exact (hobject _ rfl).elim
    | desiredField hnull hobject => exact (hobject _ rfl).elim
    | object hkeys' _ =>
      obtain ⟨value', hvalue'⟩ := Option.ne_none_iff_exists'.mp (hkeys' member' hmember')
      obtain ⟨value, hvalue, hvalueReorders⟩ := hexisting _ _ hvalue'
      rw [← hkey] at hvalue
      cases hcovers with
      | existingField hnull hobject => exact (hobject _ rfl).elim
      | desiredField hnull hobject => exact (hobject _ rfl).elim
      | object _ hcovered =>
        exact ⟨value', hvalue', ih member hmember value hvalue value' member'.2 hvalueReorders
          hreorders (hcovered member hmember value hvalue)⟩
  | other harrays hobjects =>
    intro e' d' he hd hcovers
    cases hcovers with
    | null | bool b | number b | string b =>
      rw [Plain.reorders (by simp [Plain]) he, Plain.reorders (by simp [Plain]) hd]
      exact Plain.compare_self (by simp [Plain])
    | object => exact (hobjects _ _ ⟨rfl, rfl⟩).elim
    | array => exact (harrays _ _ ⟨rfl, rfl⟩).elim
    | existingField hnull hobject hfield hplain hcovered =>
      obtain rfl := hplain.eq_of_covers hobject hcovered
      obtain ⟨existing', value', rfl, hfield', hsame⟩ := he.idOrValue hfield
      rw [hplain.reorders hsame] at hfield'
      rw [hplain.reorders hd, compareJSONValues_nested hnull hobject]
      exact nestedObject_iff.mpr ⟨hfield', hplain⟩
    | desiredField hnull hobject hfield hplain hcovered =>
      obtain rfl := hplain.eq_of_covered hobject hcovered
      obtain ⟨desired', value', rfl, hfield', hsame⟩ := hd.idOrValue hfield
      rw [hplain.reorders hsame] at hfield'
      rw [hplain.reorders he, compareJSONValues_with hnull hobject]
      exact withNestedObject_iff.mpr ⟨hfield', hplain⟩

/-! An order in which what covers is found. -/

theorem exists_order_of_forall₂ {existing desired : List (Any F)}
    (hfound : ∀ d ∈ desired, ∀ e, CoversVia Plain e d →
      ∃ e', Reorders e e' ∧ compareJSONValues e' d = true)
    (h : List.Forall₂ (CoversVia Plain) existing desired) :
    ∃ order, List.Forall₂ Reorders existing order ∧
      List.Forall₂ (fun e d => compareJSONValues e d = true) order desired := by
  obtain ⟨hlen, hzip⟩ := List.forall₂_iff_zip.mp h
  have hfound' : List.Forall₂ (fun e d => ∃ e', Reorders e e' ∧ compareJSONValues e' d = true)
      existing desired :=
    List.forall₂_iff_zip.mpr ⟨hlen, fun hmem => hfound _ (List.of_mem_zip hmem).2 _ (hzip hmem)⟩
  obtain ⟨order, hreorders, hcompared⟩ :=
    exists_forall₂ (S := fun e' e => Reorders e e')
      (T := fun e' d => compareJSONValues e' d = true) hfound'
  exact ⟨order, hreorders.flip, hcompared⟩

theorem exists_order (h : KeysUnique d) : ∀ e, CoversVia Plain e d →
    ∃ e', Reorders e e' ∧ compareJSONValues e' d = true := by
  have hfields {e d : Any F} (hcovers : CoversVia Plain e d)
      (harrays : ∀ es ds, ¬(e = .array es ∧ d = .array ds))
      (hobjects : ∀ es ds, ¬(e = .object es ∧ d = .object ds)) :
      ∃ e', Reorders e e' ∧ compareJSONValues e' d = true :=
    ⟨e, .refl, compare_of_uniform (.other harrays hobjects) e d .refl .refl hcovers⟩
  induction h with
  | null | bool b | number x | string s =>
    exact fun e hcovers => hfields hcovers (by simp) (by simp)
  | @array desired _ ih =>
    intro e hcovers
    cases e with
    | array existing =>
      obtain ⟨order, horder, hpairs⟩ := coversVia_array.mp hcovers
      obtain ⟨order', hreorders, hcompared⟩ := exists_order_of_forall₂ ih hpairs
      refine ⟨.array order', ?_, ?_⟩
      · exact (Relation.ReflTransGen.single (.perm horder.symm)).trans
          (Reorders.array_of_forall₂ hreorders [])
      · refine compareJSONValues_array.mpr ⟨hcompared.length_eq, [], ?_⟩
        have hleft := @leftAfter_of_forall₂ _ _ _ _ [] _ hcompared
        rwa [List.append_nil] at hleft
    | null | bool y | number y | string y | object y =>
      exact hfields hcovers (by simp) (by simp)
  | @object desired hkeys _ ih =>
    intro e hcovers
    cases e with
    | object existing =>
      cases hcovers with
      | existingField hnull hobject => exact (hobject _ rfl).elim
      | desiredField hnull hobject => exact (hobject _ rfl).elim
      | object hpresent hcovered =>
        -- each value in the order in which the comparison with the desired one of its key finds it
        have hvalue : ∀ m ∈ existing, ∃ m' : Text × Any F, m.1 = m'.1 ∧ Reorders m.2 m'.2 ∧
            ∀ value, (m.1, value) ∈ desired → CoversVia Plain m.2 value →
              compareJSONValues m'.2 value = true := by
          rintro ⟨key, existingValue⟩ -
          by_cases hcov : ∃ value, (key, value) ∈ desired ∧ CoversVia Plain existingValue value
          · obtain ⟨value, hmem, hcov⟩ := hcov
            obtain ⟨e', hreorders, hcompared⟩ := ih _ hmem existingValue hcov
            refine ⟨(key, e'), rfl, hreorders, fun value' hmem' _ => ?_⟩
            have hsame := PyDict.lookup_of_mem hkeys hmem'
            rw [PyDict.lookup_of_mem hkeys hmem] at hsame
            exact Option.some.inj hsame ▸ hcompared
          · exact ⟨(key, existingValue), rfl, .refl, fun value hmem hcov' =>
              (hcov ⟨value, hmem, hcov'⟩).elim⟩
        obtain ⟨existing', hall⟩ := forall₂_of_forall_exists hvalue
        refine ⟨.object existing', ?_, compareJSONValues_object.mpr fun member hmem => ?_⟩
        · exact Reorders.object_of_forall₂ (hall.imp fun m m' hm => ⟨hm.1, hm.2.1⟩) []
        · obtain ⟨value, hlookup⟩ := Option.ne_none_iff_exists'.mp (hpresent member hmem)
          obtain ⟨value', hlookup', -, hcompared⟩ := lookup_of_forall₂
            (R := fun key v v' => Reorders v v' ∧ ∀ value, (key, value) ∈ desired →
              CoversVia Plain v value → compareJSONValues v' value = true) hall hlookup
          exact ⟨value', hlookup', hcompared member.2 hmem (hcovered member hmem value hlookup)⟩
    | null | bool y | number y | string y | array y =>
      exact hfields hcovers (by simp) (by simp)

/-- The search after elements that match the first desired ones. -/
theorem leftAfter_of_compare {matched rest desired desiredRest : List (Any F)}
    (hmatched : List.Forall₂ (fun e d => compareJSONValues e d = true) matched desired)
    (h : compareJSONValues (.array (matched ++ rest)) (.array (desired ++ desiredRest)) = true) :
    ∃ left, leftAfter compareJSONValues rest desiredRest = some left := by
  obtain ⟨-, left, hleft⟩ := compareJSONValues_array.mp h
  rw [leftAfter_append, leftAfter_of_forall₂ hmatched] at hleft
  exact ⟨left, hleft⟩

theorem uniform_of_compare (hkeys : KeysUnique d) : ∀ e,
    (∀ e' d', Reorders e e' → Reorders d d' → compareJSONValues e' d' = true) → Uniform e d := by
  induction hkeys with
  | null | bool b | number x | string s => exact fun e _ => .other (by simp) (by simp)
  | @array desired hkeys ih =>
    intro e h
    cases e with
    | null | bool y | number y | string y | object y => exact .other (by simp) (by simp)
    | array existing =>
      have hpairs := coversVia_array.mp (covers_of_compare _ _ (h _ _ .refl .refl))
      have harrays {es ds : List (Any F)} (hes : existing.Perm es) {es' : List (Any F)}
          (hreorders : Reorders (.array es) (.array es'))
          (hds : Reorders (.array desired) (.array ds)) :
          compareJSONValues (.array es') (.array ds) = true :=
        h _ _ ((Relation.ReflTransGen.single (.perm hes)).trans hreorders) hds
      have hext : Extensible (CoversVia Plain) existing desired := by
        intro as₁ as₂ bs₁ bs₂ has hbs hmatched hne
        by_contra hstuck
        have hfirst : ∀ d ∈ bs₁, ∀ e, CoversVia Plain e d →
            ∃ e', Reorders e e' ∧ compareJSONValues e' d = true := fun d hd =>
          exists_order (hkeys d (hbs.mem_iff.mpr (List.mem_append_left _ hd)))
        obtain ⟨order, horder, hfound⟩ := exists_order_of_forall₂ hfirst hmatched
        have hreorders : Reorders (.array (as₁ ++ as₂)) (.array (order ++ as₂)) :=
          Reorders.array_of_forall₂
            (List.rel_append horder (List.forall₂_same.mpr fun _ _ => .refl)) []
        obtain ⟨left, hleft⟩ :=
          leftAfter_of_compare hfound (harrays has hreorders (.single (.perm hbs)))
        obtain ⟨d, ds, rfl⟩ := List.exists_cons_of_ne_nil hne
        rw [leftAfter_of_none] at hleft
        · cases hleft
        · intro e he
          rw [Bool.eq_false_iff]
          exact fun hfits => hstuck ⟨e, he, d, List.mem_cons_self, covers_of_compare d e hfits⟩
      refine .array (hext.difunctional hpairs.length_eq) fun e he d hd hcovers => ?_
      refine ih d hd e fun e' d' hereorders hdreorders => ?_
      -- the rest can be matched first
      obtain ⟨es, hes⟩ := exists_perm_cons he
      obtain ⟨ds, hds⟩ := exists_perm_cons hd
      obtain ⟨order, horder, hrest⟩ :=
        hext.extend hpairs.length_eq hes hds (List.Forall₂.nil.cons hcovers)
      have hothers : ∀ d ∈ ds, ∀ e, CoversVia Plain e d →
          ∃ e', Reorders e e' ∧ compareJSONValues e' d = true := fun d hd =>
        exists_order (hkeys _ (hds.mem_iff.mpr (List.mem_cons_of_mem _ hd)))
      obtain ⟨order', horder', hfound⟩ := exists_order_of_forall₂ hothers hrest
      have hlast : existing.Perm (order ++ [e]) :=
        hes.trans ((horder.symm.cons e).trans (List.perm_append_singleton e order).symm)
      have hexisting : Reorders (.array (order ++ [e])) (.array (order' ++ [e'])) :=
        Reorders.array_of_forall₂ (List.rel_append horder' (List.Forall₂.nil.cons hereorders)) []
      have hdesired : Reorders (.array desired) (.array (ds ++ [d'])) :=
        (Relation.ReflTransGen.single
          (.perm (hds.trans (List.perm_append_singleton d ds).symm))).trans
          (Reorders.array_of_forall₂ (List.Forall₂.nil.cons hdreorders) ds)
      obtain ⟨left, hleft⟩ := leftAfter_of_compare hfound (harrays hlast hexisting hdesired)
      by_contra hdiffer
      rw [leftAfter_of_none] at hleft
      · cases hleft
      · intro x hx
        rw [List.mem_singleton] at hx
        exact hx ▸ Bool.eq_false_iff.mpr hdiffer
  | @object desired hkeys _ ih =>
    intro e h
    cases e with
    | null | bool y | number y | string y | array y => exact .other (by simp) (by simp)
    | object existing =>
      refine .object fun member hmem value hlookup => ?_
      refine ih member hmem value fun value' desired' hvalue hdesired => ?_
      obtain ⟨key, desiredValue⟩ := member
      obtain ⟨front, back, rfl, hnot⟩ := List.lookup_eq_some_iff.mp hlookup
      obtain ⟨before, after, rfl⟩ := List.append_of_mem hmem
      have hcompared := h (.object (front ++ (key, value') :: back))
        (.object (before ++ (key, desired') :: after))
        (hvalue.lift (fun y => Any.object (front ++ (key, y) :: back)) fun _ _ hs => .member hs)
        (hdesired.lift (fun y => Any.object (before ++ (key, y) :: after)) fun _ _ hs => .member hs)
      obtain ⟨found, hfound, hcompared⟩ :=
        compareJSONValues_object.mp hcompared (key, desired') (by simp)
      rw [List.lookup_eq_some_iff.mpr ⟨front, back, rfl, hnot⟩] at hfound
      exact Option.some.inj hfound ▸ hcompared

/-! When a run panics in some order. -/

/-- In some order of elements the comparison comes to an array and an object with an array for its
`id`, else its `value`. -/
inductive MayClash : Any F → Any F → Prop
  | ofExisting {existingMap : Members F} {elems desired : List (Any F)}
      (hfield : idOrValue existingMap = some (.array elems)) :
      MayClash (.object existingMap) (.array desired)
  | ofDesired {existing elems : List (Any F)} {desiredMap : Members F}
      (hfield : idOrValue desiredMap = some (.array elems)) :
      MayClash (.array existing) (.object desiredMap)
  | member {existing desired : Members F} {key : Text} {existingValue desiredValue : Any F}
      (hmem : (key, desiredValue) ∈ desired) (hlookup : existing.lookup key = some existingValue)
      (hclash : MayClash existingValue desiredValue) : MayClash (.object existing) (.object desired)
  | element {existing desired : List (Any F)} {e d : Any F}
      (hlen : existing.length = desired.length) (he : e ∈ existing) (hd : d ∈ desired)
      (hclash : MayClash e d) : MayClash (.array existing) (.array desired)

theorem mayClash_of_clashes (h : Clashes e d) : MayClash e d := by
  induction h with
  | ofExisting hfield => exact .ofExisting hfield
  | ofDesired hfield => exact .ofDesired hfield
  | member hmem hlookup _ ih => exact .member hmem hlookup ih
  | element hlen hcomes _ ih =>
    have hd := hcomes.mem
    obtain ⟨front, back, before, after, -, hleft, -⟩ := hcomes
    exact .element hlen (leftAfter_subset hleft (by simp)) hd ih

omit [DecidableEq F] in
/-- A clash in some order is one in any other. -/
theorem MayClash.reorders (h : MayClash e d) : ∀ e' d', Reorders e e' → Reorders d d' →
    MayClash e' d' := by
  induction h with
  | ofExisting hfield =>
    intro e' d' he hd
    obtain ⟨existing', value', rfl, hfield', hvalue⟩ := he.idOrValue hfield
    obtain ⟨elems', rfl, -⟩ := hvalue.of_array
    obtain ⟨desired', rfl, -⟩ := hd.of_array
    exact .ofExisting hfield'
  | ofDesired hfield =>
    intro e' d' he hd
    obtain ⟨desired', value', rfl, hfield', hvalue⟩ := hd.idOrValue hfield
    obtain ⟨elems', rfl, -⟩ := hvalue.of_array
    obtain ⟨existing', rfl, -⟩ := he.of_array
    exact .ofDesired hfield'
  | @member existing desired key existingValue desiredValue hmem hlookup _ ih =>
    intro e' d' he hd
    obtain ⟨existing', rfl, -⟩ := he.of_object
    obtain ⟨desired', rfl, -⟩ := hd.of_object
    -- the members from before the reordering are still there
    obtain ⟨existing₀, heq, hlookups, -⟩ := he.symm.of_object
    cases heq
    obtain ⟨desired₀, heq, -, hmembers⟩ := hd.symm.of_object
    cases heq
    obtain ⟨value', hlookup', hvalue⟩ := hlookups key existingValue hlookup
    obtain ⟨⟨name, desiredValue'⟩, hmem', hname, hdesired⟩ := hmembers _ hmem
    cases hname
    exact .member hmem' hlookup' (ih value' desiredValue' hvalue.symm hdesired.symm)
  | @element existing desired e d hlen he hd _ ih =>
    intro e' d' hereorders hdreorders
    obtain ⟨existing', rfl, hexisting', -⟩ := hereorders.of_array
    obtain ⟨desired', rfl, hdesired', -⟩ := hdreorders.of_array
    obtain ⟨existing₀, heq, -, hexisting⟩ := hereorders.symm.of_array
    cases heq
    obtain ⟨desired₀, heq, -, hdesired⟩ := hdreorders.symm.of_array
    cases heq
    obtain ⟨x, hx, hxreorders⟩ := hexisting e he
    obtain ⟨y, hy, hyreorders⟩ := hdesired d hd
    exact .element (by rw [hexisting', hdesired', hlen]) hx hy
      (ih x y hxreorders.symm hyreorders.symm)

theorem exists_clash (h : MayClash e d) :
    ∃ e' d', Reorders e e' ∧ Reorders d d' ∧ Clashes e' d' := by
  induction h with
  | ofExisting hfield => exact ⟨_, _, .refl, .refl, .ofExisting hfield⟩
  | ofDesired hfield => exact ⟨_, _, .refl, .refl, .ofDesired hfield⟩
  | @member existing desired key existingValue desiredValue hmem hlookup _ ih =>
    obtain ⟨e', d', he, hd, hclash⟩ := ih
    obtain ⟨front, back, rfl, hnot⟩ := List.lookup_eq_some_iff.mp hlookup
    obtain ⟨before, after, rfl⟩ := List.append_of_mem hmem
    refine ⟨.object (front ++ (key, e') :: back), .object (before ++ (key, d') :: after),
      he.lift (fun y => Any.object (front ++ (key, y) :: back)) fun _ _ hs => .member hs,
      hd.lift (fun y => Any.object (before ++ (key, y) :: after)) fun _ _ hs => .member hs,
      .member (by simp) (List.lookup_eq_some_iff.mpr ⟨front, back, rfl, hnot⟩) hclash⟩
  | @element existing desired e d hlen he hd _ ih =>
    obtain ⟨e', d', hereorders, hdreorders, hclash⟩ := ih
    obtain ⟨es, hes⟩ := exists_perm_cons he
    obtain ⟨ds, hds⟩ := exists_perm_cons hd
    have hfirst {x x' : Any F} {elems rest : List (Any F)} (hperm : elems.Perm (x :: rest))
        (hx : Reorders x x') : Reorders (.array elems) (.array (x' :: rest)) :=
      (Relation.ReflTransGen.single (.perm hperm)).trans
        (hx.lift (fun y => Any.array ([] ++ y :: rest)) fun _ _ hs => .elem hs)
    refine ⟨.array (e' :: es), .array (d' :: ds), hfirst hes hereorders, hfirst hds hdreorders,
      .element ?_ ⟨[], ds, [], es, rfl, rfl, List.forall_mem_nil _⟩ hclash⟩
    rw [List.length_cons, List.length_cons, ← List.length_cons (a := e), ← hes.length_eq,
      ← List.length_cons (a := d), ← hds.length_eq]
    exact hlen

/-! Coverage. -/

theorem all_runs_true_iff {existing desired : Any F} :
    (∀ o, RunsValues existing desired o → o = .returned true) ↔
      ¬Clashes existing desired ∧ compareJSONValues existing desired = true := by
  rw [← panicked_iff_clashes]
  constructor
  · intro h
    have hnot : ¬RunsValues existing desired .panicked := fun hpanic => by
      cases h _ hpanic
    exact ⟨hnot, Outcome.returned.inj (h _ (runs_of_not_panicked hnot))⟩
  · rintro ⟨hnot, hcompared⟩ o hrun
    cases o with
    | panicked => exact (hnot hrun).elim
    | returned b => rw [returned_runsValues desired existing b hrun, hcompared]

/-- The comparison decides coverage, in whatever order the elements of arrays are, exactly when an
object that covers another has no array that clashes, no array or object for an `id` or `value`
that counts, and in its arrays elements that cover a common element cover the same ones. -/
theorem coverage_decided_iff {existing desired : Members F}
    (hkeys : KeysUnique (.object desired)) :
    (∀ existing' desired' : Members F, Reorders (.object existing) (.object existing') →
      Reorders (.object desired) (.object desired') →
        ((∀ o, RunsMaps existing' desired' o → o = .returned true) ↔
          Covers (.object existing) (.object desired))) ↔
      (Covers (.object existing) (.object desired) →
        ¬MayClash (.object existing) (.object desired) ∧
          CoversVia Plain (.object existing) (.object desired) ∧
          Uniform (.object existing) (.object desired)) := by
  have hruns (existing' desired' : Members F) :
      (∀ o, RunsMaps existing' desired' o → o = .returned true) ↔
        ¬Clashes (.object existing') (.object desired') ∧
          compareJSONValues (.object existing') (.object desired') = true :=
    @all_runs_true_iff F _ (.object existing') (.object desired')
  constructor
  · intro h hcovers
    have hall : ∀ e' d', Reorders (.object existing) e' → Reorders (.object desired) d' →
        ¬Clashes e' d' ∧ compareJSONValues e' d' = true := by
      intro e' d' he hd
      obtain ⟨existing', rfl, -⟩ := he.of_object
      obtain ⟨desired', rfl, -⟩ := hd.of_object
      exact (hruns _ _).mp ((h existing' desired' he hd).mpr hcovers)
    refine ⟨fun hmay => ?_, covers_of_compare _ _ (hall _ _ .refl .refl).2,
      uniform_of_compare hkeys _ fun e' d' he hd => (hall e' d' he hd).2⟩
    obtain ⟨e', d', he, hd, hclash⟩ := exists_clash hmay
    exact (hall e' d' he hd).1 hclash
  · intro h existing' desired' he hd
    rw [hruns]
    constructor
    · rintro ⟨-, hcompared⟩
      have hcovers' := (covers_of_compare _ _ hcompared).mono fun _ _ => trivial
      exact (coversVia_reorders_iff stable_true he hd).mp hcovers'
    · intro hcovers
      obtain ⟨hmay, hplain, huniform⟩ := h hcovers
      refine ⟨fun hclash => hmay ?_, compare_of_uniform huniform _ _ he hd hplain⟩
      exact (mayClash_of_clashes hclash).reorders _ _ he.symm hd.symm

/-! Tags by name. -/

def tags (names : List String) : Members ℕ :=
  [("tags".toList, .array (names.map fun name => .string name.toList))]

theorem keysUnique_tags (names : List String) : KeysUnique (.object (tags names)) := by
  refine .object (List.nodup_singleton _) fun member hmem => ?_
  obtain rfl := List.mem_singleton.mp hmem
  refine .array fun e he => ?_
  obtain ⟨name, -, rfl⟩ := List.mem_map.mp he
  exact .string _

theorem plain_of_mem_tags {names : List String} {e : Any ℕ}
    (he : e ∈ names.map fun name => (.string name.toList : Any ℕ)) :
    Plain e ∧ ∀ members, e ≠ .object members := by
  obtain ⟨name, -, rfl⟩ := List.mem_map.mp he
  exact ⟨by simp [Plain], by simp⟩

theorem coverage_of_tags : Covers (.object (tags ["a", "b"])) (.object (tags ["b", "a"])) ∧
    ∀ existing' desired' : Members ℕ, Reorders (.object (tags ["a", "b"])) (.object existing') →
      Reorders (.object (tags ["b", "a"])) (.object desired') →
        ∀ o, RunsMaps existing' desired' o → o = .returned true := by
  have hcovers : CoversVia Plain (.object (tags ["a", "b"])) (.object (tags ["b", "a"])) :=
    covers_of_compare _ _ (by decide)
  refine ⟨hcovers.mono fun _ _ => trivial, fun existing' desired' hexisting hdesired =>
    ((coverage_decided_iff (keysUnique_tags _)).mpr (fun _ => ⟨fun hclash => ?_, hcovers, ?_⟩)
      existing' desired' hexisting hdesired).mpr (hcovers.mono fun _ _ => trivial)⟩
  · cases hclash with
    | member hmem hlookup hclash =>
      cases List.mem_singleton.mp hmem
      cases hlookup
      cases hclash with
      | element _ _ hd hclash =>
        have hplain := (plain_of_mem_tags hd).1
        cases hclash with
        | element => exact hplain.1 _ rfl
        | member => exact hplain.2 _ rfl
        | ofExisting => exact hplain.1 _ rfl
        | ofDesired => exact hplain.2 _ rfl
  · refine .object fun member hmem value hlookup => ?_
    obtain rfl := List.mem_singleton.mp hmem
    cases hlookup
    have heq {e d : Any ℕ} (he : e ∈ ["a", "b"].map fun name => (.string name.toList : Any ℕ))
        (hd : d ∈ ["b", "a"].map fun name => (.string name.toList : Any ℕ))
        (hcovers : CoversVia Plain e d) : e = d :=
      (plain_of_mem_tags he).1.eq_of_covers (plain_of_mem_tags hd).2 hcovers
    refine .array ?_ fun e he d hd _ => .other ?_ ?_
    · intro a ha a' ha' b hb b' hb' hab hab' ha'b
      obtain rfl := heq ha hb hab
      obtain rfl := heq ha' hb ha'b
      exact hab'
    · rintro es ds ⟨rfl, -⟩
      exact (plain_of_mem_tags he).1.1 _ rfl
    · rintro es ds ⟨rfl, -⟩
      exact (plain_of_mem_tags he).1.2 _ rfl

/-- Two tags, of which the first has what is asked of either. -/
def slugFirst : Members ℕ :=
  [("tags".toList, .array [.object [("name".toList, .string "a".toList),
    ("slug".toList, .string "b".toList)], .object [("name".toList, .string "a".toList)]])]

def slugLast : Members ℕ :=
  [("tags".toList, .array [.object [("name".toList, .string "a".toList)],
    .object [("name".toList, .string "a".toList), ("slug".toList, .string "b".toList)]])]

theorem first_match_is_greedy : ¬((∀ o, RunsMaps slugFirst slugLast o → o = .returned true) ↔
    Covers (.object slugFirst) (.object slugLast)) := by
  intro h
  have hsame : CoversVia Plain (.object slugLast) (.object slugLast) :=
    covers_of_compare _ _ (by decide)
  have hreorders : Reorders (.object slugLast) (.object slugFirst) :=
    .single (@Step.member ℕ [] [] _ _ _ (.perm (List.Perm.swap _ _ _)))
  have hcovers := (hsame.reorders stable_plain hreorders .refl).mono fun _ _ => trivial
  obtain ⟨o, ho⟩ := exists_runsValues (.object slugLast) (.object slugFirst)
  have htrue := h.mpr hcovers o ho
  subst htrue
  have hcompared := returned_runsValues (.object slugLast) (.object slugFirst) true ho
  exact absurd hcompared (by decide)

end Understack.Nautobotop.CompareJson
