import Understack.Lib.Json
import Understack.Lib.PostOrder
import Mathlib.Data.Finset.Card

/-! `deleteObsoleteLocations` of `LocationSync`: which locations are destroyed, and in which order,
whatever the order of the loops over maps. -/
namespace Understack.Nautobotop.Locations
open PyText

/-- `models.Location`: its name and its children. -/
inductive LocationYaml where
  | node (name : Text) (children : List LocationYaml)

/-- `nb.Location`. -/
structure Location where
  id : Text
  name : Text
  parent : Option Text
  deriving DecidableEq, Repr

mutual

/-- The keys of `collectAllLocationTypes`. -/
def collectAllLocationTypes : LocationYaml → List Text
  | .node name children => name :: collectAll children
termination_by structural l => l

def collectAll : List LocationYaml → List Text
  | [] => []
  | l :: forest => collectAllLocationTypes l ++ collectAll forest
termination_by structural l => l

end

/-- `map[string]nb.Location`. -/
abbrev LocationMap := List (Text × Location)

def existingMap (existing : List Location) : LocationMap :=
  existing.foldl (fun d l => PyDict.put l.name l d) []

def obsoleteLocations (existing : List Location) (desired : List LocationYaml) : LocationMap :=
  (existingMap existing).filter fun e => e.1 ∉ collectAll desired

/-- Empty without a parent. -/
def getParentID (location : Location) : Text := location.parent.getD []

/-- The orders in which the loops of `deleteLocationWithDependencies` take the locations. -/
structure Ranges (obsolete : LocationMap) where
  ids : LocationMap
  children : LocationMap
  names : LocationMap
  ids_perm : ids.Perm obsolete
  children_perm : children.Perm obsolete
  names_perm : names.Perm obsolete

def idToName (range : LocationMap) : List (Text × Text) :=
  range.foldl (fun d e => PyDict.put e.2.id e.1 d) []

def childrenMap (idToName : List (Text × Text)) (range : LocationMap) (name : Text) : List Text :=
  (range.filter fun e => getParentID e.2 ≠ [] ∧ idToName.lookup (getParentID e.2) = some name).map
    Prod.fst

/-- The ids with which `Destroy` was called, and the names in `deleted`. -/
structure Deletion where
  calls : List Text
  deleted : List Text
  deriving DecidableEq, Repr

/-- With fuel for the depth; none without enough of it. -/
def deleteLocationTypeRecursive (obsolete : LocationMap) (children : Text → List Text) :
    ℕ → Deletion → Text → Option Deletion
  | 0, _, _ => none
  | fuel + 1, s, name =>
    if name ∈ s.deleted then some s
    else
      ((children name).foldlM (deleteLocationTypeRecursive obsolete children fuel) s).map fun s =>
        match obsolete.lookup name with
        | some location => ⟨s.calls ++ [location.id], name :: s.deleted⟩
        | none => s

/-- Enough fuel for a chain of all the obsolete locations. -/
def deleteLocationWithDependencies {obsolete : LocationMap} (ranges : Ranges obsolete) :
    Option (List Text) :=
  let children := childrenMap (idToName ranges.ids) ranges.children
  ((ranges.names.map Prod.fst).foldlM
    (deleteLocationTypeRecursive obsolete children (obsolete.length + 1)) ⟨[], []⟩).map
      Deletion.calls

/-- The ids with which `Destroy` is called, in order. -/
def deleteObsoleteLocations (existing : List Location) (desired : List LocationYaml)
    (ranges : Ranges (obsoleteLocations existing desired)) : Option (List Text) :=
  deleteLocationWithDependencies ranges

/-! The obsolete locations. -/

variable {existing : List Location} {desired : List LocationYaml} {obsolete : LocationMap}

theorem nodup_keys_obsolete : ((obsoleteLocations existing desired).map Prod.fst).Nodup := by
  have hkeys : ((existingMap existing).map Prod.fst).Nodup :=
    PyDict.nodup_keys_foldl_put Location.name (fun l => l) existing (d := []) List.nodup_nil
  exact hkeys.sublist (List.filter_sublist.map _)

theorem lookup_obsolete (name : Text) : (obsoleteLocations existing desired).lookup name =
    if name ∉ collectAll desired then existing.reverse.find? fun l => l.name = name else none := by
  have hlookup : (existingMap existing).lookup name =
      existing.reverse.find? fun l => l.name = name := by
    unfold existingMap
    rw [PyDict.lookup_foldl_put Location.name (fun l => l)]
    simp
  rw [obsoleteLocations, PyDict.lookup_filter_key _ (fun key => key ∉ collectAll desired) name,
    hlookup]
  simp only [decide_eq_true_eq]

/-- A location that the desired tree does not name. -/
def Obsolete (existing : List Location) (desired : List LocationYaml) (l : Location) : Prop :=
  l ∈ existing ∧ l.name ∉ collectAll desired

theorem obsolete_of_mem {name : Text} {l : Location}
    (h : (name, l) ∈ obsoleteLocations existing desired) :
    Obsolete existing desired l ∧ l.name = name := by
  have hlookup := PyDict.lookup_of_mem nodup_keys_obsolete h
  rw [lookup_obsolete] at hlookup
  split_ifs at hlookup with hname
  have hfound : l.name = name := by simpa using List.find?_some hlookup
  exact ⟨⟨List.mem_reverse.mp (List.mem_of_find?_eq_some hlookup), hfound ▸ hname⟩, hfound⟩

/-- Only one of the obsolete locations of a name is in the map. -/
theorem mem_of_obsolete {l : Location} (h : Obsolete existing desired l)
    (hnames : ∀ m, Obsolete existing desired m → m.name = l.name → m = l) :
    (l.name, l) ∈ obsoleteLocations existing desired := by
  apply PyDict.mem_of_lookup
  rw [lookup_obsolete, if_pos h.2]
  cases hfind : existing.reverse.find? fun m => m.name = l.name with
  | none =>
    have hnone := List.find?_eq_none.mp hfind l (List.mem_reverse.mpr h.1)
    simp at hnone
  | some m =>
    have hname : m.name = l.name := by simpa using List.find?_some hfind
    have hmem := List.mem_reverse.mp (List.mem_of_find?_eq_some hfind)
    rw [hnames m ⟨hmem, hname ▸ h.2⟩ hname]

/-! The loops over the map. -/

section Loops

variable (hids : (existing.map Location.id).Nodup)
  {ranges : Ranges (obsoleteLocations existing desired)}

include hids

theorem eq_of_id {name name' : Text} {l l' : Location}
    (h : (name, l) ∈ obsoleteLocations existing desired)
    (h' : (name', l') ∈ obsoleteLocations existing desired) (hid : l.id = l'.id) :
    name = name' ∧ l = l' := by
  obtain ⟨hl, rfl⟩ := obsolete_of_mem h
  obtain ⟨hl', rfl⟩ := obsolete_of_mem h'
  obtain rfl := List.inj_on_of_nodup_map hids hl.1 hl'.1 hid
  exact ⟨rfl, rfl⟩

theorem lookup_idToName {id name : Text} : (idToName ranges.ids).lookup id = some name ↔
    ∃ l, (name, l) ∈ obsoleteLocations existing desired ∧ l.id = id := by
  unfold idToName
  rw [PyDict.lookup_foldl_put (fun e : Text × Location => e.2.id) Prod.fst]
  simp only [List.lookup_nil, Option.or_none, Option.map_eq_some_iff]
  constructor
  · rintro ⟨⟨name', l⟩, hfind, rfl⟩
    have hmem := List.mem_reverse.mp (List.mem_of_find?_eq_some hfind)
    exact ⟨l, ranges.ids_perm.mem_iff.mp hmem, by simpa using List.find?_some hfind⟩
  · rintro ⟨l, hmem, rfl⟩
    cases hfind : ranges.ids.reverse.find? fun e => e.2.id = l.id with
    | none =>
      have hnone := List.find?_eq_none.mp hfind _
        (List.mem_reverse.mpr (ranges.ids_perm.mem_iff.mpr hmem))
      simp at hnone
    | some e =>
      obtain ⟨name', l'⟩ := e
      have hid : l'.id = l.id := by simpa using List.find?_some hfind
      have hmem' := List.mem_reverse.mp (List.mem_of_find?_eq_some hfind)
      exact ⟨_, rfl, (eq_of_id hids (ranges.ids_perm.mem_iff.mp hmem') hmem hid).1⟩

theorem mem_childrenMap {name child : Text} :
    child ∈ childrenMap (idToName ranges.ids) ranges.children name ↔
      ∃ l p, (child, l) ∈ obsoleteLocations existing desired ∧
        (name, p) ∈ obsoleteLocations existing desired ∧ getParentID l = p.id ∧ p.id ≠ [] := by
  rw [childrenMap, List.mem_map]
  constructor
  · rintro ⟨⟨child, l⟩, hmem, rfl⟩
    obtain ⟨hmem, hparent⟩ := List.mem_filter.mp hmem
    obtain ⟨hne, hlookup⟩ := of_decide_eq_true hparent
    obtain ⟨p, hp, hid⟩ := (lookup_idToName hids).mp hlookup
    exact ⟨l, p, ranges.children_perm.mem_iff.mp hmem, hp, hid.symm, hid ▸ hne⟩
  · rintro ⟨l, p, hl, hp, hparent, hne⟩
    refine ⟨(child, l), List.mem_filter.mpr ⟨ranges.children_perm.mem_iff.mpr hl, ?_⟩, rfl⟩
    exact decide_eq_true ⟨hparent ▸ hne, (lookup_idToName hids).mpr ⟨p, hp, hparent.symm⟩⟩

end Loops

/-! The recursion as a visit. -/

/-- The ids of the names of a list, the last one first. -/
def idsOf (obsolete : LocationMap) (deleted : List Text) : List Text :=
  deleted.reverse.filterMap fun name => (obsolete.lookup name).map Location.id

def deletionOf (obsolete : LocationMap) (deleted : List Text) : Deletion :=
  ⟨idsOf obsolete deleted, deleted⟩

theorem deleteLocationTypeRecursive_eq {children : Text → List Text}
    (hchildren : ∀ name, ∀ child ∈ children name, child ∈ obsolete.map Prod.fst) (fuel : ℕ)
    {name : Text} (hname : name ∈ obsolete.map Prod.fst) (deleted : List Text) :
    deleteLocationTypeRecursive obsolete children fuel (deletionOf obsolete deleted) name =
      (PostOrder.visit children fuel deleted name).map (deletionOf obsolete) := by
  induction fuel generalizing name deleted with
  | zero => rfl
  | succ fuel ih =>
    have hloop : (children name).foldlM (deleteLocationTypeRecursive obsolete children fuel)
        (deletionOf obsolete deleted) =
          ((children name).foldlM (PostOrder.visit children fuel) deleted).map
            (deletionOf obsolete) :=
      Runs.foldlM_map fun child hchild deleted => ih (hchildren name child hchild) deleted
    have hlookup : ∃ location, obsolete.lookup name = some location := by
      obtain ⟨e, he, rfl⟩ := List.mem_map.mp hname
      rw [← Option.ne_none_iff_exists']
      intro hnone
      have hne := List.lookup_eq_none_iff.mp hnone e he
      simp at hne
    obtain ⟨location, hlocation⟩ := hlookup
    rw [deleteLocationTypeRecursive, PostOrder.visit]
    have hmem : name ∈ (deletionOf obsolete deleted).deleted ↔ name ∈ deleted := Iff.rfl
    by_cases hdeleted : name ∈ deleted
    · rw [if_pos hdeleted, if_pos (hmem.mpr hdeleted)]
      rfl
    · rw [if_neg hdeleted, if_neg (fun h => hdeleted (hmem.mp h)), hloop, Option.map_map,
        Option.map_map]
      congr 1
      funext below
      rw [Function.comp, Function.comp, hlocation]
      simp [deletionOf, idsOf, hlocation]

theorem deleteObsoleteLocations_eq (hids : (existing.map Location.id).Nodup)
    (ranges : Ranges (obsoleteLocations existing desired)) :
    deleteObsoleteLocations existing desired ranges =
      (PostOrder.visitAll (childrenMap (idToName ranges.ids) ranges.children)
        ((obsoleteLocations existing desired).length + 1) (ranges.names.map Prod.fst)).map
          (idsOf (obsoleteLocations existing desired)) := by
  have hchildren : ∀ name, ∀ child ∈ childrenMap (idToName ranges.ids) ranges.children name,
      child ∈ (obsoleteLocations existing desired).map Prod.fst := by
    intro name child hchild
    obtain ⟨l, -, hl, -⟩ := (mem_childrenMap hids).mp hchild
    exact List.mem_map_of_mem hl
  have hloop := Runs.foldlM_map (l := ranges.names.map Prod.fst)
    (fun name hname deleted => deleteLocationTypeRecursive_eq hchildren
      ((obsoleteLocations existing desired).length + 1)
      ((ranges.names_perm.map Prod.fst).mem_iff.mp hname) deleted) (s := [])
  rw [deleteObsoleteLocations, deleteLocationWithDependencies,
    show (⟨[], []⟩ : Deletion) = deletionOf (obsoleteLocations existing desired) [] from rfl,
    hloop, Option.map_map]
  rfl

/-! What is to be destroyed, and in which order. -/

/-- An empty id is no parent. -/
def IsParent (existing : List Location) (parent child : Text) : Prop :=
  ∃ l ∈ existing, l.id = child ∧ getParentID l = parent ∧ parent ≠ []

/-- The first location is above the second. -/
abbrev Above (existing : List Location) : Text → Text → Prop :=
  Relation.TransGen (IsParent existing)

def Acyclic (existing : List Location) : Prop := ∀ id, ¬Above existing id id

/-- Every obsolete location is destroyed once, after those below it. -/
structure RemovedBottomUp (existing : List Location) (desired : List LocationYaml)
    (calls : List Text) : Prop where
  nodup : calls.Nodup
  mem : ∀ id, id ∈ calls ↔ ∃ l, Obsolete existing desired l ∧ l.id = id
  order : calls.Pairwise fun first later => ¬Above existing first later

/-- Obsolete locations have different names, and no location that stays is between two of them. -/
structure Removable (existing : List Location) (desired : List LocationYaml) : Prop where
  names : ∀ l m, Obsolete existing desired l → Obsolete existing desired m → l.name = m.name → l = m
  between : ∀ l top, Obsolete existing desired l → Obsolete existing desired top →
    ∀ p ∈ existing, IsParent existing p.id l.id → Above existing top.id p.id →
      Obsolete existing desired p

theorem exists_depth (hacyclic : Acyclic existing) : ∃ depth : Text → ℕ, ∀ p c,
    p ∈ existing.map Location.id → IsParent existing p c → depth p < depth c := by
  classical
  refine ⟨fun id => ((existing.map Location.id).toFinset.filter fun a => Above existing a id).card,
    fun p c hp hparent => Finset.card_lt_card ?_⟩
  rw [Finset.ssubset_iff_of_subset]
  · refine ⟨p, Finset.mem_filter.mpr ⟨List.mem_toFinset.mpr hp, .single hparent⟩, fun hmem => ?_⟩
    exact hacyclic p (Finset.mem_filter.mp hmem).2
  · intro a ha
    obtain ⟨hmem, habove⟩ := Finset.mem_filter.mp ha
    exact Finset.mem_filter.mpr ⟨hmem, habove.tail hparent⟩

theorem mem_idsOf {deleted : List Text} {id : Text} : id ∈ idsOf obsolete deleted ↔
    ∃ name ∈ deleted, ∃ l, obsolete.lookup name = some l ∧ l.id = id := by
  simp only [idsOf, List.mem_filterMap, List.mem_reverse, Option.map_eq_some_iff]

theorem idsOf_append (later first : List Text) :
    idsOf obsolete (later ++ first) = idsOf obsolete first ++ idsOf obsolete later := by
  rw [idsOf, List.reverse_append, List.filterMap_append]
  rfl

theorem mem_idsOf_done {done : List Text}
    (hdone : ∀ name, name ∈ done ↔ name ∈ (obsoleteLocations existing desired).map Prod.fst)
    {id : Text} : id ∈ idsOf (obsoleteLocations existing desired) done ↔
      ∃ name l, (name, l) ∈ obsoleteLocations existing desired ∧ l.id = id := by
  rw [mem_idsOf]
  constructor
  · rintro ⟨name, -, l, hlookup, hid⟩
    exact ⟨name, l, PyDict.mem_of_lookup hlookup, hid⟩
  · rintro ⟨name, l, hmem, hid⟩
    exact ⟨name, (hdone name).mpr (List.mem_map_of_mem hmem), l,
      PyDict.lookup_of_mem nodup_keys_obsolete hmem, hid⟩

section Removal

variable (hids : (existing.map Location.id).Nodup)
  {ranges : Ranges (obsoleteLocations existing desired)}

include hids

theorem isParent_iff {name child : Text} {p l : Location}
    (hp : (name, p) ∈ obsoleteLocations existing desired)
    (hl : (child, l) ∈ obsoleteLocations existing desired) :
    child ∈ childrenMap (idToName ranges.ids) ranges.children name ↔
      IsParent existing p.id l.id := by
  rw [mem_childrenMap hids]
  constructor
  · rintro ⟨l', p', hl', hp', hparent, hne⟩
    have hsame {n : Text} {x y : Location} (hx : (n, x) ∈ obsoleteLocations existing desired)
        (hy : (n, y) ∈ obsoleteLocations existing desired) : x = y := by
      have hlookup := PyDict.lookup_of_mem nodup_keys_obsolete hx
      rw [PyDict.lookup_of_mem nodup_keys_obsolete hy] at hlookup
      exact (Option.some.inj hlookup).symm
    obtain rfl := hsame hl hl'
    obtain rfl := hsame hp hp'
    exact ⟨l, (obsolete_of_mem hl).1.1, rfl, hparent, hne⟩
  · rintro ⟨l', hl', hid, hparent, hne⟩
    obtain rfl := List.inj_on_of_nodup_map hids hl' (obsolete_of_mem hl).1.1 hid
    exact ⟨l', p, hl, hp, hparent, hne⟩

/-- Along a line of obsolete locations the names are children. -/
theorem reached_of_above (hrem : Removable existing desired) {top id : Text}
    (habove : Above existing top id) : ∀ name child p l,
    (name, p) ∈ obsoleteLocations existing desired → p.id = top →
      (child, l) ∈ obsoleteLocations existing desired → l.id = id →
        Relation.TransGen (fun x y => y ∈ childrenMap (idToName ranges.ids) ranges.children x)
          name child := by
  induction habove with
  | single hparent =>
    rintro name child p l hp rfl hl rfl
    exact .single ((isParent_iff hids hp hl).mpr hparent)
  | @tail mid id habove hparent ih =>
    rintro name child p l hp rfl hl rfl
    obtain ⟨_, -, m, hm, rfl, -⟩ := Relation.TransGen.tail'_iff.mp habove
    have hobsolete := hrem.between l p (obsolete_of_mem hl).1 (obsolete_of_mem hp).1 m hm hparent
      habove
    have hmem := mem_of_obsolete hobsolete fun n hn hname => hrem.names n m hn hobsolete hname
    exact (ih name m.name p m hp rfl hmem rfl).tail ((isParent_iff hids hmem hl).mpr hparent)

theorem exists_done (hacyclic : Acyclic existing) : ∃ depth : Text → ℕ,
    (∀ name, ∀ child ∈ childrenMap (idToName ranges.ids) ranges.children name,
      depth name < depth child) ∧
    ∃ done, PostOrder.visitAll (childrenMap (idToName ranges.ids) ranges.children)
      ((obsoleteLocations existing desired).length + 1) (ranges.names.map Prod.fst) =
        some done := by
  obtain ⟨depth, hdepth⟩ := exists_depth hacyclic
  let depthOf (name : Text) : ℕ :=
    (((obsoleteLocations existing desired).lookup name).map fun l => depth l.id).getD 0
  have hchild : ∀ name, ∀ child ∈ childrenMap (idToName ranges.ids) ranges.children name,
      depthOf name < depthOf child := by
    intro name child hchild
    obtain ⟨l, p, hl, hp, hparent, hne⟩ := (mem_childrenMap hids).mp hchild
    have hlookup := PyDict.lookup_of_mem nodup_keys_obsolete hl
    have hlookup' := PyDict.lookup_of_mem nodup_keys_obsolete hp
    simp only [depthOf, hlookup, hlookup', Option.map_some, Option.getD_some]
    exact hdepth p.id l.id (List.mem_map_of_mem (obsolete_of_mem hp).1.1)
      ⟨l, (obsolete_of_mem hl).1.1, rfl, hparent, hne⟩
  have hkeys : ∀ name, ∀ child ∈ childrenMap (idToName ranges.ids) ranges.children name,
      child ∈ ranges.names.map Prod.fst := by
    intro name child hchild
    obtain ⟨l, -, hl, -⟩ := (mem_childrenMap hids).mp hchild
    exact List.mem_map_of_mem (ranges.names_perm.mem_iff.mpr hl)
  obtain ⟨done, hdone⟩ := PostOrder.visitAll_returns hchild hkeys (ranges.names.map Prod.fst)
  rw [List.length_map, ranges.names_perm.length_eq] at hdone
  exact ⟨depthOf, hchild, done, hdone⟩

theorem visited_names {done : List Text}
    (h : PostOrder.visitAll (childrenMap (idToName ranges.ids) ranges.children)
      ((obsoleteLocations existing desired).length + 1) (ranges.names.map Prod.fst) =
        some done) :
    PostOrder.ChildrenFirst (childrenMap (idToName ranges.ids) ranges.children) done ∧
      ∀ name, name ∈ done ↔ name ∈ (obsoleteLocations existing desired).map Prod.fst := by
  have hroots : ∀ name, name ∈ ranges.names.map Prod.fst ↔
      name ∈ (obsoleteLocations existing desired).map Prod.fst :=
    fun name => (ranges.names_perm.map Prod.fst).mem_iff
  obtain ⟨hfirst, hall, honly⟩ := PostOrder.visitAll_spec
    (S := fun name => name ∈ (obsoleteLocations existing desired).map Prod.fst)
    (fun name _ child hchild => by
      obtain ⟨l, -, hl, -⟩ := (mem_childrenMap hids).mp hchild
      exact List.mem_map_of_mem hl) (fun name hname => (hroots name).mp hname) h
  exact ⟨hfirst, fun name => ⟨honly name, fun hname => hall name ((hroots name).mpr hname)⟩⟩

theorem Removable.removed (hrem : Removable existing desired) {done : List Text}
    (hnodup : done.Nodup)
    (h : PostOrder.visitAll (childrenMap (idToName ranges.ids) ranges.children)
      ((obsoleteLocations existing desired).length + 1) (ranges.names.map Prod.fst) =
        some done) :
    RemovedBottomUp existing desired (idsOf (obsoleteLocations existing desired) done) := by
  obtain ⟨hfirst, hdone⟩ := visited_names hids h
  constructor
  · refine (List.nodup_reverse.mpr hnodup).filterMap fun name name' id hname hname' => ?_
    obtain ⟨l, hl, rfl⟩ := Option.map_eq_some_iff.mp hname
    obtain ⟨l', hl', hid⟩ := Option.map_eq_some_iff.mp hname'
    exact (eq_of_id hids (PyDict.mem_of_lookup hl) (PyDict.mem_of_lookup hl') hid.symm).1
  · intro id
    rw [mem_idsOf_done hdone]
    constructor
    · rintro ⟨name, l, hmem, hid⟩
      exact ⟨l, (obsolete_of_mem hmem).1, hid⟩
    · rintro ⟨l, hl, hid⟩
      exact ⟨l.name, l, mem_of_obsolete hl fun m hm hname => hrem.names m l hm hl hname, hid⟩
  · rw [idsOf, List.pairwise_filterMap, List.pairwise_reverse]
    refine (hfirst.pairwise hnodup).imp ?_
    rintro later first hnot id hid id' hid' habove
    obtain ⟨p, hp, rfl⟩ := Option.map_eq_some_iff.mp hid
    obtain ⟨l, hl, rfl⟩ := Option.map_eq_some_iff.mp hid'
    exact hnot (reached_of_above hids hrem habove first later p l (PyDict.mem_of_lookup hp) rfl
      (PyDict.mem_of_lookup hl) rfl)

/-- A run that removes bottom-up, whatever its orders. -/
theorem removable_of_removed (hacyclic : Acyclic existing)
    (h : ∀ ranges : Ranges (obsoleteLocations existing desired), ∃ calls,
      deleteObsoleteLocations existing desired ranges = some calls ∧
        RemovedBottomUp existing desired calls) : Removable existing desired := by
  have hrun (ranges : Ranges (obsoleteLocations existing desired)) : ∃ done,
      PostOrder.visitAll (childrenMap (idToName ranges.ids) ranges.children)
        ((obsoleteLocations existing desired).length + 1) (ranges.names.map Prod.fst) =
          some done ∧
      RemovedBottomUp existing desired (idsOf (obsoleteLocations existing desired) done) := by
    obtain ⟨calls, hcalls, hremoved⟩ := h ranges
    rw [deleteObsoleteLocations_eq hids] at hcalls
    obtain ⟨done, hdone, rfl⟩ := Option.map_eq_some_iff.mp hcalls
    exact ⟨done, hdone, hremoved⟩
  -- every obsolete location is in the map, as it is destroyed
  have hmem {l : Location} (hl : Obsolete existing desired l) :
      (l.name, l) ∈ obsoleteLocations existing desired := by
    obtain ⟨done, hdone, hremoved⟩ := hrun ⟨_, _, _, .refl _, .refl _, .refl _⟩
    have hid := (hremoved.mem l.id).mpr ⟨l, hl, rfl⟩
    obtain ⟨name, m, hm, heq⟩ := (mem_idsOf_done (visited_names hids hdone).2).mp hid
    obtain rfl := List.inj_on_of_nodup_map hids (obsolete_of_mem hm).1.1 hl.1 heq
    rwa [(obsolete_of_mem hm).2]
  constructor
  · intro l m hl hm hname
    have hlookup := PyDict.lookup_of_mem nodup_keys_obsolete (hmem hl)
    rw [hname, PyDict.lookup_of_mem nodup_keys_obsolete (hmem hm)] at hlookup
    exact (Option.some.inj hlookup).symm
  · intro l top hl htop p hp hparent habove
    by_contra hkept
    -- a run that takes the upper location first
    obtain ⟨front, back, hsplit⟩ := List.append_of_mem (hmem htop)
    let ranges : Ranges (obsoleteLocations existing desired) :=
      ⟨_, _, (top.name, top) :: (front ++ back), .refl _, .refl _,
        hsplit ▸ List.perm_middle.symm⟩
    obtain ⟨done, hdone, hremoved⟩ := hrun ranges
    obtain ⟨done₁, hvisit, later, hsuffix⟩ := PostOrder.visitAll_first hdone
    have hbelow : ∀ x, (x = top.name ∨ Relation.TransGen
        (fun x y => y ∈ childrenMap (idToName ranges.ids) ranges.children x) top.name x) →
        ∀ c ∈ childrenMap (idToName ranges.ids) ranges.children x,
          c = top.name ∨ Relation.TransGen
            (fun x y => y ∈ childrenMap (idToName ranges.ids) ranges.children x) top.name c := by
      rintro x (rfl | hx) c hc
      · exact Or.inr (.single hc)
      · exact Or.inr (hx.tail hc)
    obtain ⟨hext, htopDone⟩ := PostOrder.extends_visit hbelow (Or.inl rfl) hvisit
    have hnot : l.name ∉ done₁ := by
      intro hlDone
      rcases (hext.reached l.name hlDone).resolve_left List.not_mem_nil with hsame | hreached
      · -- the location would be above itself
        have hlookup := PyDict.lookup_of_mem nodup_keys_obsolete (hmem hl)
        rw [hsame, PyDict.lookup_of_mem nodup_keys_obsolete (hmem htop)] at hlookup
        obtain rfl := Option.some.inj hlookup
        exact hacyclic top.id (habove.tail hparent)
      · -- the parent is not in the map
        obtain ⟨x, -, hchild⟩ := Relation.TransGen.tail'_iff.mp hreached
        obtain ⟨l', p', hl', hp', hparent', -⟩ := (mem_childrenMap hids).mp hchild
        have hlookup := PyDict.lookup_of_mem nodup_keys_obsolete hl'
        rw [PyDict.lookup_of_mem nodup_keys_obsolete (hmem hl)] at hlookup
        obtain rfl := Option.some.inj hlookup
        obtain ⟨l'', hl'', hid, hparent'', -⟩ := hparent
        obtain rfl := List.inj_on_of_nodup_map hids hl'' hl.1 hid
        obtain rfl := List.inj_on_of_nodup_map hids (obsolete_of_mem hp').1.1 hp
          (hparent'.symm.trans hparent'')
        exact hkept (obsolete_of_mem hp').1
    have hlater : l.name ∈ later := by
      have hlDone := ((visited_names hids hdone).2 l.name).mpr (List.mem_map_of_mem (hmem hl))
      rw [← hsuffix] at hlDone
      exact (List.mem_append.mp hlDone).resolve_right hnot
    have horder := hremoved.order
    rw [← hsuffix, idsOf_append, List.pairwise_append] at horder
    refine horder.2.2 top.id ?_ l.id ?_ (habove.tail hparent)
    · exact mem_idsOf.mpr ⟨_, htopDone, top,
        PyDict.lookup_of_mem nodup_keys_obsolete (hmem htop), rfl⟩
    · exact mem_idsOf.mpr ⟨_, hlater, l, PyDict.lookup_of_mem nodup_keys_obsolete (hmem hl), rfl⟩

end Removal

/-- The obsolete locations are destroyed once each and bottom-up, whatever the order of the loops,
exactly when they have different names and none that stays is between two of them. -/
theorem obsolete_locations_removed_iff (existing : List Location) (desired : List LocationYaml)
    (hids : (existing.map Location.id).Nodup) (hacyclic : Acyclic existing) :
    (∀ ranges : Ranges (obsoleteLocations existing desired), ∃ calls,
      deleteObsoleteLocations existing desired ranges = some calls ∧
        RemovedBottomUp existing desired calls) ↔ Removable existing desired := by
  refine ⟨removable_of_removed hids hacyclic, fun hrem ranges => ?_⟩
  obtain ⟨depth, hdepth, done, hdone⟩ := @exists_done existing desired hids ranges hacyclic
  refine ⟨idsOf (obsoleteLocations existing desired) done, ?_,
    hrem.removed hids (PostOrder.nodup_visitAll hdepth hdone) hdone⟩
  rw [deleteObsoleteLocations_eq hids, hdone]
  rfl

/-! Rows of racks in two data centres. -/

theorem acyclic_of_depth {depth : Text → ℕ} (h : ∀ l ∈ existing, getParentID l ≠ [] →
    depth (getParentID l) < depth l.id) : Acyclic existing := by
  have hlt {p c : Text} (habove : Above existing p c) : depth p < depth c := by
    induction habove with
    | single hparent =>
      obtain ⟨l, hl, rfl, rfl, hne⟩ := hparent
      exact h l hl hne
    | tail _ hparent ih =>
      obtain ⟨l, hl, rfl, rfl, hne⟩ := hparent
      exact ih.trans (h l hl hne)
  exact fun id hid => lt_irrefl _ (hlt hid)

def location (id name : String) (parent : Option String) : Location :=
  ⟨id.toList, name.toList, parent.map String.toList⟩

def dataCentre : List Location :=
  [location "1" "dc1" none, location "2" "hall1" (some "1"), location "3" "row1" (some "2")]

theorem removable_dataCentre : Removable dataCentre [.node "dc1".toList []] := by
  have hcases {l : Location} (h : Obsolete dataCentre [.node "dc1".toList []] l) :
      l = location "2" "hall1" (some "1") ∨ l = location "3" "row1" (some "2") := by
    obtain ⟨hmem, hname⟩ := h
    rcases List.mem_cons.mp hmem with rfl | hmem
    · exact (hname (by decide)).elim
    · simpa using hmem
  constructor
  · intro l m hl hm hname
    rcases hcases hl with rfl | rfl <;> rcases hcases hm with rfl | rfl
    · rfl
    · exact absurd hname (by decide)
    · exact absurd hname (by decide)
    · rfl
  · intro l top hl htop p hp hparent habove
    rcases List.mem_cons.mp hp with rfl | hp
    · -- nothing is above the data centre
      obtain ⟨_, -, r, hr, hid, hrparent, hne⟩ := Relation.TransGen.tail'_iff.mp habove
      have hroot : ∀ r ∈ dataCentre, r.id = "1".toList → getParentID r = [] := by decide
      exact (hne (hrparent.symm.trans (hroot r hr hid))).elim
    · have hnames : ∀ p ∈ dataCentre.tail, p.name ∉ collectAll [.node "dc1".toList []] := by decide
      exact ⟨List.mem_cons_of_mem _ hp, hnames p hp⟩

theorem data_centre_removed :
    obsoleteLocations dataCentre [.node "dc1".toList []] ≠ [] ∧
      ∀ ranges : Ranges (obsoleteLocations dataCentre [.node "dc1".toList []]), ∃ calls,
        deleteObsoleteLocations dataCentre [.node "dc1".toList []] ranges = some calls ∧
          RemovedBottomUp dataCentre [.node "dc1".toList []] calls :=
  ⟨by decide, (obsolete_locations_removed_iff dataCentre [.node "dc1".toList []] (by decide)
    (@acyclic_of_depth dataCentre (fun id => if id = ['1'] then 0 else if id = ['2'] then 1 else 2)
      (by decide))).mpr removable_dataCentre⟩

def twoCentres : List Location :=
  [location "1" "dc1" none, location "2" "dc2" none, location "3" "row1" (some "1"),
    location "4" "row1" (some "2")]

/-- Of two rows with one name, one is left. -/
theorem row_of_same_name_stays :
    (twoCentres.map Location.id).Nodup ∧ Acyclic twoCentres ∧
      (∀ l ∈ twoCentres, ∀ m ∈ twoCentres, l.parent = m.parent → l.name = m.name → l = m) ∧
      ¬∀ ranges : Ranges (obsoleteLocations twoCentres
          [.node "dc1".toList [], .node "dc2".toList []]), ∃ calls,
        deleteObsoleteLocations twoCentres [.node "dc1".toList [], .node "dc2".toList []] ranges =
            some calls ∧
          RemovedBottomUp twoCentres [.node "dc1".toList [], .node "dc2".toList []] calls := by
  have hacyclic : Acyclic twoCentres :=
    @acyclic_of_depth twoCentres (fun id => if id = ['1'] ∨ id = ['2'] then 0 else 1) (by decide)
  refine ⟨by decide, hacyclic, by decide, fun h => ?_⟩
  have hrem := removable_of_removed (by decide) hacyclic h
  have hsame := hrem.names (location "3" "row1" (some "1")) (location "4" "row1" (some "2"))
    ⟨by decide, by decide⟩ ⟨by decide, by decide⟩ rfl
  exact absurd hsame (by decide)

end Understack.Nautobotop.Locations
