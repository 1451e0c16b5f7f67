import Understack.Nautobotop.SyncById

/-! `LocationTypeSync.SyncAll`: a forest of location types is written from the roots down, and
location types are removed by name, children first. -/
namespace Understack.Nautobotop.LocationTypes
open PyText CachedService CompareJson SyncPass

/-- `models.LocationType` without its children; content types that the YAML does not have are
nil. -/
structure Fields where
  id : Text
  name : Text
  description : Text
  contentTypes : Option (List Text)
  nestable : Bool
  deriving DecidableEq

/-- `models.LocationType`. -/
inductive LocationTypeYaml where
  | node (fields : Fields) (children : List LocationTypeYaml)

/-- `nb.LocationType`, as far as a request can set it. -/
structure LocationType where
  id : Text
  name : Text
  description : Text
  contentTypes : List Text
  nestable : Bool
  parent : Option Text
  deriving DecidableEq

/-- A nil slice and a parent that is not set are left out. -/
structure LocationTypeRequest where
  id : Option Text
  contentTypes : Option (List Text)
  name : Text
  description : Text
  nestable : Bool
  parent : Option Text

def locationTypes : Resource LocationType LocationTypeRequest :=
  ⟨LocationType.id, LocationType.name, LocationTypeRequest.id⟩

/-- The JSON of a location type has no numbers. -/
def LocationType.json (v : LocationType) : Members Empty :=
  [("id".toList, .string v.id),
    ("content_types".toList, .array (v.contentTypes.map .string)),
    ("name".toList, .string v.name),
    ("description".toList, .string v.description),
    ("nestable".toList, .bool v.nestable),
    ("parent".toList, (v.parent.map refJson).getD .null)]

def LocationTypeRequest.json (r : LocationTypeRequest) : Members Empty :=
  ([member "id" (r.id.map .string),
    member "content_types" (r.contentTypes.map fun types => .array (types.map .string)),
    member "name" (some (.string r.name)),
    member "description" (some (.string r.description)),
    member "nestable" (some (.bool r.nestable)),
    member "parent" (r.parent.map refJson)] : List (Members Empty)).flatten

def compareLocationType (existing : LocationType) (req : LocationTypeRequest) : Bool :=
  compareJSONFields existing.json req.json

/-- A location type with the id of its parent. -/
abbrev Placed := Fields × Option Text

def placedId (e : Placed) : Text := e.1.id

def locationTypeRequest (e : Placed) : LocationTypeRequest where
  id := optionalID e.1.id
  contentTypes := e.1.contentTypes
  name := e.1.name
  description := e.1.description
  nestable := e.1.nestable
  parent := e.2

variable (api : Api locationTypes)

/-- The id that the source returns is that of the location type found, updated or created. -/
def syncSingleLocationType (w : World LocationType) (e : Placed) :
    Except SyncError Text × World LocationType :=
  syncSingle api compareLocationType (fun w e => getByID api w (placedId e))
    (fun e => .ok (locationTypeRequest e)) w e

mutual

def syncLocationTypeRecursive (parentID : Option Text) (w : World LocationType) :
    LocationTypeYaml → Except SyncError Unit × World LocationType
  | .node fields children =>
    match syncSingleLocationType api w (fields, parentID) with
    | (.error e, w) => (.error e, w)
    | (.ok currentID, w) => syncLocationTypes (some currentID) w children
termination_by structural l => l

/-- The loop over the roots, or over the children of one location type. -/
def syncLocationTypes (parentID : Option Text) (w : World LocationType) :
    List LocationTypeYaml → Except SyncError Unit × World LocationType
  | [] => (.ok (), w)
  | l :: forest =>
    match syncLocationTypeRecursive parentID w l with
    | (.error e, w) => (.error e, w)
    | (.ok _, w) => syncLocationTypes parentID w forest
termination_by structural l => l

end

mutual

/-- A location type and those below it, in the order of the recursion. -/
def placed (parent : Option Text) : LocationTypeYaml → List Placed
  | .node fields children => (fields, parent) :: placedAll (some fields.id) children
termination_by structural l => l

def placedAll (parent : Option Text) : List LocationTypeYaml → List Placed
  | [] => []
  | l :: forest => placed parent l ++ placedAll parent forest
termination_by structural l => l

end

mutual

/-- The keys that `collectAllLocationTypes` collects. -/
def collectAllLocationTypes : LocationTypeYaml → List Text
  | .node fields children => fields.name :: collectAll children
termination_by structural l => l

def collectAll : List LocationTypeYaml → List Text
  | [] => []
  | l :: forest => collectAllLocationTypes l ++ collectAll forest
termination_by structural l => l

end

abbrev Obsolete := List (Text × LocationType)

def idToName (obsolete : Obsolete) (id : Text) : Option Text :=
  (obsolete.find? fun e => e.2.id = id).map Prod.fst

/-- The obsolete location types below that of a name, in the order of a range over the map. -/
def childrenMap (obsolete : Obsolete) (name : Text) : List Text :=
  api.ranged ((obsolete.filter fun e => e.2.parent.bind (idToName obsolete) = some name).map
    Prod.fst)

/-- With fuel for the depth; none without enough of it. -/
def deleteLocationTypeRecursive (obsolete : Obsolete) :
    ℕ → World LocationType × List Text → Text → Option (World LocationType × List Text)
  | 0, _, _ => none
  | fuel + 1, (w, deleted), name =>
    if name ∈ deleted then some (w, deleted)
    else
      ((childrenMap api obsolete name).foldlM (deleteLocationTypeRecursive obsolete fuel)
        (w, deleted)).map fun (w, deleted) =>
          match obsolete.lookup name with
          | some v => ((destroy api w v.id).2, name :: deleted)
          | none => (w, deleted)

/-- Enough fuel for a chain of all the obsolete location types. -/
def deleteLocationTypesWithDependencies (w : World LocationType) (obsolete : Obsolete) :
    Option (World LocationType) :=
  ((api.ranged (obsolete.map Prod.fst)).foldlM
    (deleteLocationTypeRecursive api obsolete (obsolete.length + 1)) (w, [])).map Prod.fst

def deleteObsoleteLocationTypes (w : World LocationType) (forest : List LocationTypeYaml) :
    Option (World LocationType) :=
  let (existing, w) := listAll api w
  deleteLocationTypesWithDependencies api w
    (SyncById.obsolete locationTypes existing (collectAll forest))

/-- None where it does not return. -/
def syncAll (w : World LocationType) (forest : List LocationTypeYaml) :
    Option (Except SyncError Unit × World LocationType) :=
  match syncLocationTypes api none w forest with
  | (.error e, w) => some (.error e, w)
  | (.ok _, w) => (deleteObsoleteLocationTypes api w forest).map (.ok (), ·)

/-! What the comparison covers. -/

/-- The fields of a request that are set are those of the object. -/
structure Covers (v : LocationType) (req : LocationTypeRequest) : Prop where
  id : ∀ id, req.id = some id → v.id = id
  contentTypes : ∀ types, req.contentTypes = some types → v.contentTypes.Perm types
  name : v.name = req.name
  description : v.description = req.description
  nestable : v.nestable = req.nestable
  parent : ∀ parent, req.parent = some parent → v.parent = some parent

theorem compareLocationType_iff {v : LocationType} {req : LocationTypeRequest} :
    compareLocationType v req = true ↔ Covers v req := by
  have hid : v.json.lookup "id".toList = some (.string v.id) := rfl
  have htypes : v.json.lookup "content_types".toList =
    some (.array (v.contentTypes.map .string)) := rfl
  have hname : v.json.lookup "name".toList = some (.string v.name) := rfl
  have hdescription : v.json.lookup "description".toList = some (.string v.description) := rfl
  have hnestable : v.json.lookup "nestable".toList = some (.bool v.nestable) := rfl
  have hparent : v.json.lookup "parent".toList = some ((v.parent.map refJson).getD .null) := rfl
  rw [compareLocationType, LocationTypeRequest.json, compareJSONFields_flatten]
  simp only [List.forall_mem_cons, List.not_mem_nil, false_implies, implies_true, and_true]
  rw [compareJSONFields_member hid (by decide), compareJSONFields_member htypes (by decide),
    compareJSONFields_member hname (by decide), compareJSONFields_member hdescription (by decide),
    compareJSONFields_member hnestable (by decide), compareJSONFields_member hparent (by decide)]
  simp only [Option.map_eq_some_iff, forall_exists_index, and_imp, forall_apply_eq_imp_iff₂,
    Option.some.injEq, forall_eq', compareJSONValues_string, compareJSONValues_strings,
    compareJSONValues_nullableRef]
  have hbool : compareJSONValues (.bool v.nestable : Any Empty) (.bool req.nestable) = true ↔
      v.nestable = req.nestable := decide_eq_true_iff
  rw [hbool]
  constructor
  · rintro ⟨hid, htypes, hname, hdescription, hnestable, hparent⟩
    exact ⟨hid, htypes, hname, hdescription, hnestable, hparent⟩
  · exact fun h => ⟨h.id, h.contentTypes, h.name, h.description, h.nestable, h.parent⟩

/-! The recursion as a loop over the location types with their parents. -/

/-- One turn of the loop. -/
abbrev Turn (api : Api locationTypes) :
    World LocationType → Placed → Text → World LocationType → Prop :=
  SyncById.Turn api compareLocationType locationTypeRequest placedId

variable {api}

theorem failed_before_syncSingleLocationType {w : World LocationType} {e : Placed}
    (h : (syncSingleLocationType api w e).2.failed = false) : w.failed = false :=
  failed_before_syncSingle (fun w e => kept_getByID api w (placedId e)) w e h

mutual

theorem failed_before_syncLocationTypeRecursive (parentID : Option Text) (w : World LocationType) :
    ∀ l, (syncLocationTypeRecursive api parentID w l).2.failed = false → w.failed = false
  | .node fields children => by
    intro h
    rw [syncLocationTypeRecursive] at h
    have hsingle := @failed_before_syncSingleLocationType api w (fields, parentID)
    generalize syncSingleLocationType api w (fields, parentID) = r at h hsingle
    obtain ⟨_ | id, w'⟩ := r
    · exact hsingle h
    · exact hsingle (failed_before_syncLocationTypes (some id) w' children h)
termination_by structural l => l

theorem failed_before_syncLocationTypes (parentID : Option Text) (w : World LocationType) :
    ∀ forest, (syncLocationTypes api parentID w forest).2.failed = false → w.failed = false
  | [] => fun h => h
  | l :: forest => by
    intro h
    rw [syncLocationTypes] at h
    have hfirst := failed_before_syncLocationTypeRecursive parentID w l
    generalize syncLocationTypeRecursive api parentID w l = r at h hfirst
    obtain ⟨_ | u, w'⟩ := r
    · exact hfirst h
    · exact hfirst (failed_before_syncLocationTypes parentID w' forest h)
termination_by structural forest => forest

end

theorem map_fst_placedAll (p q : Option Text) (forest : List LocationTypeYaml) :
    (placedAll p forest).map Prod.fst = (placedAll q forest).map Prod.fst := by
  induction forest with
  | nil => rfl
  | cons l forest ih =>
    obtain ⟨fields, children⟩ := l
    rw [placedAll, placedAll, placed, placed, List.map_append, List.map_append, ih]
    rfl

/-- The recursion took one turn for every location type; where all have ids, with the parents that
the forest gives them. -/
def Walked (api : Api locationTypes) (w : World LocationType) (desired : List Placed)
    (result : Except SyncError Unit × World LocationType) : Prop :=
  result.1 = .ok () ∧ ∃ es ids, Entries (Turn api) w es ids result.2 ∧
    es.map Prod.fst = desired.map Prod.fst ∧ ((∀ e ∈ desired, e.1.id ≠ []) → es = desired)

theorem turn_of_success {w : World LocationType} {e : Placed} (hw : Consistent locationTypes w)
    (h : (syncSingleLocationType api w e).2.failed = false) :
    ∃ id, (syncSingleLocationType api w e).1 = .ok id ∧
      Turn api w e id (syncSingleLocationType api w e).2 :=
  step_of_success (fun w e => kept_getByID api w (placedId e))
    (fun _ _ hw hf => SyncById.getByID_eq_found hw hf) rfl hw h

theorem Turn.id_eq {w w' : World LocationType} {e : Placed} {id : Text} (h : Turn api w e id w')
    (hw : Consistent locationTypes w) (hne : e.1.id ≠ []) : id = e.1.id :=
  (SyncById.Turn.objects h hw (if_neg hne)).1

mutual

theorem walked_syncLocationTypeRecursive (parentID : Option Text) (w : World LocationType)
    (hw : Consistent locationTypes w) :
    ∀ l, (syncLocationTypeRecursive api parentID w l).2.failed = false →
      Walked api w (placed parentID l) (syncLocationTypeRecursive api parentID w l)
  | .node fields children => by
    intro h
    rw [syncLocationTypeRecursive] at h ⊢
    have hbefore : (syncSingleLocationType api w (fields, parentID)).2.failed = false := by
      generalize syncSingleLocationType api w (fields, parentID) = r at h
      obtain ⟨_ | id, w'⟩ := r
      · exact h
      · exact failed_before_syncLocationTypes (some id) w' children h
    obtain ⟨id, hok, hturn⟩ := turn_of_success hw hbefore
    generalize syncSingleLocationType api w (fields, parentID) = r at h hok hturn
    obtain ⟨result, w'⟩ := r
    cases hok
    obtain ⟨hresult, es, ids, hentries, hmap, hplaced⟩ :=
      walked_syncLocationTypes (some id) w' (Step.consistent hturn hw) children h
    refine ⟨hresult, (fields, parentID) :: es, id :: ids, .cons hturn hentries, ?_, fun hne => ?_⟩
    · rw [placed, List.map_cons, List.map_cons, hmap, map_fst_placedAll]
    · rw [placed] at hne ⊢
      have hid := Turn.id_eq hturn hw (hne _ List.mem_cons_self)
      rw [hid] at hplaced
      rw [hplaced fun e he => hne e (List.mem_cons_of_mem _ he)]
termination_by structural l => l

theorem walked_syncLocationTypes (parentID : Option Text) (w : World LocationType)
    (hw : Consistent locationTypes w) :
    ∀ forest, (syncLocationTypes api parentID w forest).2.failed = false →
      Walked api w (placedAll parentID forest) (syncLocationTypes api parentID w forest)
  | [] => fun _ => ⟨rfl, [], [], .nil w, rfl, fun _ => rfl⟩
  | l :: forest => by
    intro h
    rw [syncLocationTypes] at h ⊢
    have hbefore : (syncLocationTypeRecursive api parentID w l).2.failed = false := by
      generalize syncLocationTypeRecursive api parentID w l = r at h
      obtain ⟨_ | u, w'⟩ := r
      · exact h
      · exact failed_before_syncLocationTypes parentID w' forest h
    obtain ⟨hok, es, ids, hentries, hmap, hplaced⟩ :=
      walked_syncLocationTypeRecursive parentID w hw l hbefore
    generalize syncLocationTypeRecursive api parentID w l = r at h hok hentries
    obtain ⟨result, w'⟩ := r
    cases hok
    have hw' : Consistent locationTypes w' :=
      hentries.invariant (fun _ _ _ _ hstep hw => Step.consistent hstep hw) hw
    obtain ⟨hresult, es', ids', hentries', hmap', hplaced'⟩ :=
      walked_syncLocationTypes parentID w' hw' forest h
    refine ⟨hresult, es ++ es', ids ++ ids', hentries.append hentries', ?_, fun hne => ?_⟩
    · rw [placedAll, List.map_append, List.map_append, hmap, hmap']
    · rw [placedAll] at hne ⊢
      rw [hplaced fun e he => hne e (List.mem_append_left _ he),
        hplaced' fun e he => hne e (List.mem_append_right _ he)]
termination_by structural forest => forest

end

end Understack.Nautobotop.LocationTypes
