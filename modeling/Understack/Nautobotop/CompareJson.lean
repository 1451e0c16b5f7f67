import Understack.Lib.PyText
import Mathlib.Data.List.InsertIdx

/-! `CompareJSONFields` of `internal/nautobot/helpers`: whether an object that Nautobot returned has
what a request asks for. -/
namespace Understack.Nautobotop.CompareJson
open PyText

/-- What `json.Unmarshal` puts into an `any`; every number is a `float64`. -/
inductive Any (F : Type) where
  | null
  | bool (b : Bool)
  | number (x : F)
  | string (s : Text)
  | array (elems : List (Any F))
  | object (members : List (Text × Any F))

abbrev Members (F : Type) := List (Text × Any F)

variable {F : Type} [DecidableEq F]

/-- Arrays and objects are not primitive: Go's `==` on them never holds. -/
def comparePrimitiveValues : Any F → Any F → Bool
  | .null, .null => true
  | .bool a, .bool b => a = b
  | .number a, .number b => a = b
  | .string a, .string b => a = b
  | _, _ => false

def compareNestedObjectWithPrimitive (existingMap : Members F) (desired : Any F) : Bool :=
  match existingMap.lookup "id".toList with
  | some id => comparePrimitiveValues id desired
  | none =>
    match existingMap.lookup "value".toList with
    | some value => comparePrimitiveValues value desired
    | none => false

def comparePrimitiveWithNestedObject (existing : Any F) (desiredMap : Members F) : Bool :=
  match desiredMap.lookup "id".toList with
  | some id => comparePrimitiveValues existing id
  | none =>
    match desiredMap.lookup "value".toList with
    | some value => comparePrimitiveValues existing value
    | none => false

mutual

def compareJSONValues (existing : Any F) : Any F → Bool
  | .null =>
    match existing with
    | .null => true
    | _ => false
  | .object desiredMap =>
    match existing with
    | .null => false
    | .object existingMap => compareJSONMaps existingMap desiredMap
    | existing => comparePrimitiveWithNestedObject existing desiredMap
  | .array desired =>
    match existing with
    | .object existingMap => compareNestedObjectWithPrimitive existingMap (.array desired)
    | .array existing =>
      existing.length = desired.length && compareJSONSlices existing desired
    | _ => false
  | desired =>
    match existing with
    | .object existingMap => compareNestedObjectWithPrimitive existingMap desired
    | existing => comparePrimitiveValues existing desired
termination_by structural d => d

def compareJSONMaps (existing : Members F) : Members F → Bool
  | [] => true
  | member :: desired => compareJSONMember existing member && compareJSONMaps existing desired
termination_by structural d => d

def compareJSONMember (existing : Members F) : Text × Any F → Bool
  | (key, desiredValue) =>
    match existing.lookup key with
    | some existingValue => compareJSONValues existingValue desiredValue
    | none => false
termination_by structural d => d

/-- The desired elements in order, each with the first existing element that is left and matches. -/
def compareJSONSlices (existing : List (Any F)) : List (Any F) → Bool
  | [] => true
  | dVal :: desired =>
    match existing.findIdx? fun eVal => compareJSONValues eVal dVal with
    | some i => compareJSONSlices (existing.eraseIdx i) desired
    | none => false
termination_by structural d => d

end

/-- Both sides as the maps that they marshal to. -/
def compareJSONFields (existing desired : Members F) : Bool :=
  compareJSONMaps existing (desired.filter fun member => member.1 ≠ "relationships".toList)

theorem compareJSONMaps_iff {existing desired : Members F} :
    compareJSONMaps existing desired = true ↔
      ∀ member ∈ desired, compareJSONMember existing member = true := by
  induction desired with
  | nil => simp [compareJSONMaps]
  | cons member desired ih => simp [compareJSONMaps, ih]

/-- Every member of the request is there under its key. -/
theorem compared_of_mem {existing desired : Members F} (h : compareJSONFields existing desired = true)
    {key : Text} {desiredValue : Any F} (hmem : (key, desiredValue) ∈ desired)
    (hkey : key ≠ "relationships".toList) :
    ∃ existingValue, existing.lookup key = some existingValue ∧
      compareJSONValues existingValue desiredValue = true := by
  have hmember := compareJSONMaps_iff.mp h _ (List.mem_filter.mpr ⟨hmem, decide_eq_true hkey⟩)
  unfold compareJSONMember at hmember
  cases hlookup : existing.lookup key with
  | none => simp [hlookup] at hmember
  | some existingValue => exact ⟨existingValue, rfl, by simpa [hlookup] using hmember⟩

theorem compareJSONValues_string {a b : Text} :
    compareJSONValues (.string a : Any F) (.string b) = true ↔ a = b := by
  simp [compareJSONValues, comparePrimitiveValues]

/-- Slices of texts compare as multisets. -/
theorem compareJSONSlices_strings {a b : List Text} (hlen : a.length = b.length) :
    compareJSONSlices (a.map (.string : Text → Any F)) (b.map .string) = true ↔ a.Perm b := by
  induction b generalizing a with
  | nil =>
    rw [List.length_nil, List.length_eq_zero_iff] at hlen
    simp [hlen, compareJSONSlices]
  | cons d b ih =>
    have hfind : ((a.map (.string : Text → Any F)).findIdx? fun e =>
        compareJSONValues e (.string d)) = a.idxOf? d := by
      rw [List.findIdx?_map, List.idxOf?]
      congr 1
      funext e
      exact Bool.eq_iff_iff.mpr ((compareJSONValues_string (F := F)).trans beq_iff_eq.symm)
    have herase := List.erase_eq_eraseIdx a d
    rw [List.map_cons, compareJSONSlices, hfind, List.perm_comm, List.cons_perm_iff_perm_erase]
    cases hidx : a.idxOf? d with
    | none => simp [List.idxOf?_eq_none_iff.mp hidx]
    | some i =>
      have hmem : d ∈ a := by
        by_contra hnot
        rw [List.idxOf?_eq_none_iff.mpr hnot] at hidx
        cases hidx
      rw [hidx] at herase
      simp only [List.eraseIdx_map, ← herase, hmem, true_and]
      rw [ih (by rw [List.length_erase_of_mem hmem, hlen, List.length_cons, Nat.add_sub_cancel]),
        List.perm_comm]

theorem compareJSONValues_strings {a b : List Text} :
    compareJSONValues (.array (a.map .string) : Any F) (.array (b.map .string)) = true ↔
      a.Perm b := by
  simp only [compareJSONValues, List.length_map, Bool.and_eq_true, decide_eq_true_eq]
  exact ⟨fun ⟨hlen, h⟩ => (compareJSONSlices_strings hlen).mp h,
    fun h => ⟨h.length_eq, (compareJSONSlices_strings h.length_eq).mpr h⟩⟩

/-- A request is compared member by member. -/
theorem compareJSONFields_flatten {existing : Members F} {groups : List (Members F)} :
    compareJSONFields existing groups.flatten = true ↔
      ∀ group ∈ groups, compareJSONFields existing group = true := by
  simp only [compareJSONFields, compareJSONMaps_iff, List.mem_filter, List.mem_flatten]
  constructor
  · exact fun h group hgroup m hm => h m ⟨⟨group, hgroup, hm.1⟩, hm.2⟩
  · rintro h m ⟨⟨group, hgroup, hm⟩, hkey⟩
    exact h group hgroup m ⟨hm, hkey⟩

end Understack.Nautobotop.CompareJson
