import Understack.Lib.Json
import Understack.Nautobotop.SyncPass

/-! `PrefixSync.SyncAll`: entries are matched with prefixes by id or, without one, by the text of
the prefix alone; every prefix that no entry was matched with is removed. -/
namespace Understack.Nautobotop.PrefixSync
open PyText CachedService CompareJson SyncPass

/-- `models.Prefix`, an entry of the YAML. -/
structure Prefix (F : Type) where
  id : Text
  prefixText : Text
  namespaceName : Text
  type : Text
  status : Text
  role : Text
  rir : Text
  dateAllocated : Text
  description : Text
  vrfs : List Text
  locations : List Text
  vlanGroup : Text
  vlan : Text
  tenantGroup : Text
  tenant : Text
  tags : List Text
  customFields : Members F

/-- `nb.Prefix`, with the members of its JSON besides id, prefix and namespace. -/
structure NbPrefix (F : Type) where
  id : Text
  prefixText : Text
  namespaceId : Text
  namespaceOther : Members F
  other : Members F

structure WritablePrefixRequest (F : Type) where
  id : Option Text
  prefixText : Text
  type : Option Text
  status : Text
  namespaceId : Option Text
  role : Option Text
  rir : Option Text
  dateAllocated : Option Text
  location : Option Text
  vlan : Option Text
  tenant : Option Text
  description : Option Text
  customFields : Members F
  tags : List Text

variable {F : Type}

def prefixes : Resource (NbPrefix F) (WritablePrefixRequest F) :=
  ⟨NbPrefix.id, NbPrefix.prefixText, WritablePrefixRequest.id⟩

def NbPrefix.json (v : NbPrefix F) : Members F :=
  ("id".toList, .string v.id) :: ("prefix".toList, .string v.prefixText) ::
    ("namespace".toList, .object (("id".toList, .string v.namespaceId) :: v.namespaceOther)) ::
    v.other

def WritablePrefixRequest.json (r : WritablePrefixRequest F) : Members F :=
  ([member "id" (r.id.map .string),
    member "prefix" (some (.string r.prefixText)),
    member "type" (r.type.map .string),
    member "status" (some (refJson r.status)),
    member "namespace" (r.namespaceId.map refJson),
    member "role" (r.role.map refJson),
    member "rir" (r.rir.map refJson),
    member "date_allocated" (r.dateAllocated.map .string),
    member "location" (r.location.map refJson),
    member "vlan" (r.vlan.map refJson),
    member "tenant" (r.tenant.map refJson),
    member "description" (r.description.map .string),
    member "custom_fields" (if r.customFields.isEmpty then none else some (.object r.customFields)),
    member "tags" (if r.tags = [] then none else some (.array (r.tags.map refJson)))] :
    List (Members F)).flatten

/-- The custom fields that the sync sets, then those of the entry. -/
def prefixCustomFields (refs : References) (p : Prefix F) : Members F :=
  let set :=
    (if p.tenantGroup = [] then []
      else [("tenant_group".toList, .string ((refs.tenantGroup p.tenantGroup).getD []))]) ++
    (if p.vlanGroup = [] then []
      else [("vlan_group".toList, .string ((refs.vlanGroup p.vlanGroup).getD []))]) ++
    (if p.vrfs = [] then [] else [("vrfs".toList, textsJson (p.vrfs.filterMap refs.vrf))]) ++
    (if p.locations.length ≤ 1 then []
      else [("locations".toList, textsJson (p.locations.tail.filterMap refs.location))])
  p.customFields.foldl (fun m e => PyDict.put e.1 e.2 m) set

/-- `time.Parse` of `2006-01-02 15:04:05` and the text that the time marshals to. -/
abbrev DateParser := Text → Option Text

def parseDateAllocated (parse : DateParser) (date : Text) : Except SyncError (Option Text) :=
  if date = [] then .ok none
  else
    match parse date with
    | some time => .ok (some time)
    | none => .error (.dateAllocated date)

def prefixRequest (refs : References) (parse : DateParser) (p : Prefix F) :
    Except SyncError (WritablePrefixRequest F) := do
  let status ← required "status".toList refs.status p.status
  let namespaceId ← requiredIfNamed "namespace".toList refs.namespaces p.namespaceName
  let role ← requiredIfNamed "role".toList refs.role p.role
  let rir ← requiredIfNamed "rir".toList refs.rir p.rir
  let dateAllocated ← parseDateAllocated parse p.dateAllocated
  let location ← requiredFirst "location".toList refs.location p.locations
  .ok {
    id := optionalID p.id
    prefixText := p.prefixText
    type := if p.type = [] then none else some p.type
    status := status
    namespaceId := namespaceId
    role := role
    rir := rir
    dateAllocated := dateAllocated
    location := location
    vlan := optional refs.vlan p.vlan
    tenant := optional refs.tenant p.tenant
    description := if p.description = [] then none else some p.description
    customFields := prefixCustomFields refs p
    tags := p.tags.filterMap refs.tag }

variable [DecidableEq F]

def comparePrefix (existing : NbPrefix F) (req : WritablePrefixRequest F) : Bool :=
  compareJSONFields existing.json req.json

variable (api : Api (prefixes (F := F))) (refs : References) (parse : DateParser)

/-- The prefix that an entry is matched with. -/
def existingPrefix (w : World (NbPrefix F)) (p : Prefix F) :
    Option (NbPrefix F) × World (NbPrefix F) :=
  match getByID api w p.id with
  | (none, w) => if p.id = [] then getByName api w p.prefixText else (none, w)
  | (some v, w) => (some v, w)

def syncSinglePrefix (w : World (NbPrefix F)) (p : Prefix F) :
    Except SyncError Text × World (NbPrefix F) :=
  syncSingle api comparePrefix (existingPrefix api) (prefixRequest refs parse) w p

def deleteObsoletePrefixes (w : World (NbPrefix F)) (syncedIDs : List Text) :
    World (NbPrefix F) :=
  let (existing, w) := listAll api w
  destroyAll api w ((existing.filter fun v => v.id ∉ syncedIDs).map NbPrefix.id)

def syncAll (w : World (NbPrefix F)) (desired : List (Prefix F)) :
    Except SyncError (List Text) × World (NbPrefix F) :=
  syncPass (syncSinglePrefix api refs parse)
    (fun w ids => deleteObsoletePrefixes api w (ids.filter (· ≠ []))) w desired

theorem text_of_comparePrefix {v : NbPrefix F} {req : WritablePrefixRequest F}
    (h : comparePrefix v req = true) : v.prefixText = req.prefixText := by
  have hmem : ("prefix".toList, Any.string req.prefixText) ∈ req.json := by
    simp [WritablePrefixRequest.json, member]
  obtain ⟨value, hlookup, hvalue⟩ := compared_of_mem h hmem (by decide)
  have htext : v.json.lookup "prefix".toList = some (.string v.prefixText) := rfl
  rw [htext] at hlookup
  cases hlookup
  exact compareJSONValues_string.mp hvalue

theorem namespace_of_comparePrefix {v : NbPrefix F} {req : WritablePrefixRequest F} {ns : Text}
    (h : comparePrefix v req = true) (hns : req.namespaceId = some ns) : v.namespaceId = ns := by
  have hmem : ("namespace".toList, refJson ns) ∈ req.json := by
    simp [WritablePrefixRequest.json, member, hns]
  obtain ⟨value, hlookup, hvalue⟩ := compared_of_mem h hmem (by decide)
  have hobject : v.json.lookup "namespace".toList =
      some (.object (("id".toList, .string v.namespaceId) :: v.namespaceOther)) := rfl
  rw [hobject] at hlookup
  cases hlookup
  exact compareJSONValues_refJson hvalue

omit [DecidableEq F] in
theorem request_fields {refs : References} {parse : DateParser} {p : Prefix F}
    {req : WritablePrefixRequest F} (h : prefixRequest refs parse p = .ok req) :
    req.id = optionalID p.id ∧ req.prefixText = p.prefixText ∧
      (p.namespaceName ≠ [] → ∃ ns, refs.namespaces p.namespaceName = some ns ∧
        req.namespaceId = some ns) := by
  obtain ⟨status, -, h⟩ := Runs.bind_eq_ok h
  obtain ⟨namespaceId, hns, h⟩ := Runs.bind_eq_ok h
  obtain ⟨role, -, h⟩ := Runs.bind_eq_ok h
  obtain ⟨rir, -, h⟩ := Runs.bind_eq_ok h
  obtain ⟨dateAllocated, -, h⟩ := Runs.bind_eq_ok h
  obtain ⟨location, -, h⟩ := Runs.bind_eq_ok h
  cases h
  refine ⟨rfl, rfl, fun hnamed => ?_⟩
  rw [requiredIfNamed, if_neg hnamed, required] at hns
  cases hlookup : refs.namespaces p.namespaceName with
  | none =>
    rw [hlookup] at hns
    cases hns
  | some ns =>
    rw [hlookup] at hns
    cases hns
    exact ⟨ns, rfl, rfl⟩

variable {api refs parse}

/-- What a lookup may find for an entry: under its id, or else any prefix of its text. -/
structure Found (api : Api (prefixes (F := F))) (objects : List (NbPrefix F)) (p : Prefix F)
    (existing : Option (NbPrefix F)) : Prop where
  byID : p.id ≠ [] → existing = objects.find? fun v => v.id = p.id
  byText : p.id = [] → ∀ v, existing = some v → v ∈ objects ∧
    (v.prefixText = p.prefixText ∨ v.prefixText = api.normalize p.prefixText)
  missing : p.id = [] → existing = none →
    ∀ v ∈ objects, v.prefixText ≠ api.normalize p.prefixText

section LookupAndSweep

omit [DecidableEq F]

theorem kept_existingPrefix (w : World (NbPrefix F)) (p : Prefix F) :
    Kept prefixes w (existingPrefix api w p).2 := by
  have hkept := kept_getByID api w p.id
  unfold existingPrefix
  split
  · next w' hget =>
    rw [hget] at hkept
    split_ifs
    · exact hkept.trans (kept_getByName api w' p.prefixText)
    · exact hkept
  · next v w' hget =>
    rw [hget] at hkept
    exact hkept

theorem found_existingPrefix {w : World (NbPrefix F)} (hw : Consistent prefixes w) {p : Prefix F}
    (h : (existingPrefix api w p).2.failed = false) :
    Found api w.objects p (existingPrefix api w p).1 := by
  by_cases hid : p.id = []
  · have hexisting : existingPrefix api w p = getByName api w p.prefixText := by
      simp [existingPrefix, getByID, hid]
    rw [hexisting] at h ⊢
    obtain ⟨hsome, hnone⟩ := getByName_found api hw h
    exact ⟨fun hne => absurd hid hne, fun _ => hsome, fun _ => hnone⟩
  · have hexisting : existingPrefix api w p = getByID api w p.id := by
      unfold existingPrefix
      split
      · next w' hget => rw [if_neg hid, hget]
      · next v w' hget => rw [hget]
    rw [hexisting] at h ⊢
    refine ⟨fun _ => getByID_eq_find? api hw hid (Or.inl h), ?_, ?_⟩
    · exact fun hnil => absurd hnil hid
    · exact fun hnil => absurd hnil hid

theorem failed_of_deleteObsoletePrefixes {w : World (NbPrefix F)} {ids : List Text}
    (h : (deleteObsoletePrefixes api w ids).failed = false) : (listAll api w).2.failed = false :=
  failed_of_destroyAll h

theorem failed_before_deleteObsoletePrefixes {w : World (NbPrefix F)} {ids : List Text}
    (h : (deleteObsoletePrefixes api w ids).failed = false) : w.failed = false :=
  (kept_listAll api w).failed (failed_of_deleteObsoletePrefixes h)

theorem swept_deleteObsoletePrefixes {w : World (NbPrefix F)} {ids : List Text}
    (h : (deleteObsoletePrefixes api w ids).failed = false) :
    Swept prefixes w (deleteObsoletePrefixes api w ids)
      (((api.listing w.objects).filter fun v => v.id ∉ ids).map NbPrefix.id) := by
  have hswept : Swept prefixes (listAll api w).2 (deleteObsoletePrefixes api w ids)
      (((listAll api w).1.filter fun v => v.id ∉ ids).map NbPrefix.id) := swept_destroyAll h
  rw [listAll_of_success api (failed_of_deleteObsoletePrefixes h)] at hswept
  exact hswept.of_kept (kept_listAll api w)

/-- The sweep keeps the prefixes under the ids and those of others. -/
theorem mem_deleteObsoletePrefixes {w : World (NbPrefix F)} {ids : List Text}
    (h : (deleteObsoletePrefixes api w ids).failed = false) (v : NbPrefix F) :
    v ∈ (deleteObsoletePrefixes api w ids).objects ↔
      v ∈ w.objects ∧ (v.id ∈ ids ∨ v.id ∉ w.createdBy) := by
  rw [(swept_deleteObsoletePrefixes h).objects, List.mem_filter, decide_eq_true_eq]
  refine and_congr_right fun hv => ?_
  have hlisted : prefixes.id v ∈ ((api.listing w.objects).filter fun v => v.id ∉ ids).map
      NbPrefix.id ↔ v.id ∉ ids := by
    constructor
    · intro hmem
      obtain ⟨u, hu, heq⟩ := List.mem_map.mp hmem
      have hid : u.id = v.id := heq
      rw [← hid]
      exact of_decide_eq_true (List.mem_filter.mp hu).2
    · intro hnot
      exact List.mem_map.mpr ⟨v, List.mem_filter.mpr
        ⟨(api.listing_perm w.objects).mem_iff.mpr hv, decide_eq_true hnot⟩, rfl⟩
  rw [hlisted, not_and_or, not_not]
  rfl

end LookupAndSweep

/-- One turn of the loop. -/
def Turn (api : Api (prefixes (F := F))) (request : Prefix F → WritablePrefixRequest F) :
    World (NbPrefix F) → Prefix F → Text → World (NbPrefix F) → Prop :=
  Step api comparePrefix (Found api) request

theorem failed_before_syncAll {w : World (NbPrefix F)} {desired : List (Prefix F)}
    (h : (syncAll api refs parse w desired).2.failed = false) : w.failed = false := by
  refine failed_before_syncPass ?_ ?_ h
  · exact kept_existingPrefix
  · exact fun w ids hf => failed_before_deleteObsoletePrefixes hf

/-- A pass without failures is a loop and a sweep. -/
theorem syncAll_of_success {request : Prefix F → WritablePrefixRequest F} {w : World (NbPrefix F)}
    {desired : List (Prefix F)}
    (hrequest : ∀ e ∈ desired, prefixRequest refs parse e = .ok (request e))
    (hw : Consistent prefixes w) (h : (syncAll api refs parse w desired).2.failed = false) :
    ∃ ids w', syncAll api refs parse w desired =
        (.ok ids, deleteObsoletePrefixes api w' (ids.filter (· ≠ []))) ∧
      Entries (Turn api request) w desired ids w' ∧ Consistent prefixes w' := by
  refine pass_of_success ?_ ?_ ?_ hrequest hw h
  · exact kept_existingPrefix
  · exact fun w p hw hf => found_existingPrefix hw hf
  · exact fun w ids hf => failed_before_deleteObsoletePrefixes hf

end Understack.Nautobotop.PrefixSync
