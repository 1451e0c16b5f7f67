import Understack.Nautobotop.CachedService
import Understack.Nautobotop.CompareJson

/-! What the passes of `internal/nautobot/sync` share: the references of a request, the choice
between a create, an update and nothing, the loop over the entries and the removal of objects. -/
namespace Understack.Nautobotop.SyncPass
open PyText CachedService CompareJson

/-- The ids that the lookups by name in the other services answer. -/
structure References where
  status : Text → Option Text
  namespaces : Text → Option Text
  role : Text → Option Text
  rir : Text → Option Text
  location : Text → Option Text
  vlanGroup : Text → Option Text
  vlan : Text → Option Text
  vrf : Text → Option Text
  tenant : Text → Option Text
  tenantGroup : Text → Option Text
  tag : Text → Option Text

inductive SyncError where
  | notFound (kind name : Text)
  | dateAllocated (date : Text)
  | createFailed
  | updateFailed
  deriving DecidableEq

/-- A reference without which the pass stops. -/
def required (kind : Text) (lookup : Text → Option Text) (name : Text) : Except SyncError Text :=
  match lookup name with
  | some id => .ok id
  | none => .error (.notFound kind name)

/-- A reference that is only built for a name, and then required. -/
def requiredIfNamed (kind : Text) (lookup : Text → Option Text) (name : Text) :
    Except SyncError (Option Text) :=
  if name = [] then .ok none else (required kind lookup name).map some

/-- A reference to the first of the names, if there is one. -/
def requiredFirst (kind : Text) (lookup : Text → Option Text) :
    List Text → Except SyncError (Option Text)
  | [] => .ok none
  | name :: _ => (required kind lookup name).map some

/-- A reference that is left out where it is not found. -/
def optional (lookup : Text → Option Text) (name : Text) : Option Text :=
  if name = [] then none else lookup name

def optionalID (id : Text) : Option Text := if id = [] then none else some id

section Json

variable {F : Type}

def refJson (id : Text) : Any F := .object [("id".toList, .string id)]

/-- A member that is left out where the value is not set. -/
def member (key : String) : Option (Any F) → Members F
  | none => []
  | some value => [(key.toList, value)]

/-- A list of texts; a nil slice marshals to `null`. -/
def textsJson : List Text → Any F
  | [] => .null
  | texts => .array (texts.map .string)

theorem compareJSONValues_refJson [DecidableEq F] {a b : Text} {others : Members F}
    (h : compareJSONValues (.object (("id".toList, .string a) :: others)) (refJson b) = true) :
    a = b := by
  simpa [compareJSONValues, compareJSONMaps, compareJSONMember, refJson, comparePrimitiveValues]
    using h

/-- A reference that may be null. -/
theorem compareJSONValues_nullableRef [DecidableEq F] {existing : Option Text} {id : Text} :
    compareJSONValues ((existing.map refJson).getD .null : Any F) (refJson id) = true ↔
      existing = some id := by
  cases existing with
  | none => simp [refJson, compareJSONValues]
  | some id' =>
    constructor
    · exact fun h => congrArg some (compareJSONValues_refJson h)
    · rintro h
      cases h
      simp [refJson, compareJSONValues, compareJSONMaps, compareJSONMember, comparePrimitiveValues]

/-- A member that is left out is not compared. -/
theorem compareJSONFields_member [DecidableEq F] {existing : Members F} {key : String}
    {value : Option (Any F)} {existingValue : Any F}
    (hlookup : existing.lookup key.toList = some existingValue)
    (hkey : key.toList ≠ "relationships".toList) :
    compareJSONFields existing (member key value) = true ↔
      ∀ desired, value = some desired → compareJSONValues existingValue desired = true := by
  cases value with
  | none => exact ⟨fun _ _ hnone => (Option.some_ne_none _ hnone.symm).elim, fun _ => rfl⟩
  | some desired =>
    have hfilter : (member key (some desired)).filter
        (fun m => m.1 ≠ "relationships".toList) = [(key.toList, desired)] :=
      List.filter_cons_of_pos (decide_eq_true hkey)
    rw [compareJSONFields, hfilter]
    simp only [compareJSONMaps, compareJSONMember, hlookup, Bool.and_true, Option.some.injEq,
      forall_eq']

end Json

section Passes

variable {T Req : Type} {R : Resource T Req} (api : Api R)

/-- Create what does not exist and update what compares unequal; the id of the object. -/
def applyRequest (compare : T → Req → Bool) (w : World T) (existing : Option T) (req : Req) :
    Except SyncError Text × World T :=
  match existing with
  | none =>
    match create api w req with
    | (some v, w) => (.ok (R.id v), w)
    | (none, w) => (.error .createFailed, w)
  | some v =>
    if compare v req then (.ok (R.id v), w)
    else
      match update api w (R.id v) req with
      | (some _, w) => (.ok (R.id v), w)
      | (none, w) => (.error .updateFailed, w)

/-- One entry: its object is looked up, then its request built and applied. -/
def syncSingle {E : Type} (compare : T → Req → Bool) (lookup : World T → E → Option T × World T)
    (request : E → Except SyncError Req) (w : World T) (entry : E) :
    Except SyncError Text × World T :=
  let (existing, w) := lookup w entry
  match request entry with
  | .error e => (.error e, w)
  | .ok req => applyRequest api compare w existing req

/-- The loop over the entries, up to the first error; the ids of their objects. -/
def syncEntries {E : Type} (single : World T → E → Except SyncError Text × World T) :
    World T → List E → Except SyncError (List Text) × World T
  | w, [] => (.ok [], w)
  | w, entry :: entries =>
    match single w entry with
    | (.error e, w) => (.error e, w)
    | (.ok id, w) =>
      let (ids, w) := syncEntries single w entries
      (ids.map (id :: ·), w)

/-- The whole pass: the objects that are obsolete are removed after a loop without errors. -/
def syncPass {E : Type} (single : World T → E → Except SyncError Text × World T)
    (deleteObsolete : World T → List Text → World T) (w : World T) (entries : List E) :
    Except SyncError (List Text) × World T :=
  match syncEntries single w entries with
  | (.error e, w) => (.error e, w)
  | (.ok ids, w) => (.ok ids, deleteObsolete w ids)

/-- The errors of `Destroy` are ignored. -/
def destroyAll (w : World T) (ids : List Text) : World T :=
  ids.foldl (fun w id => (destroy api w id).2) w

/-- The object that a request leaves for an entry. -/
inductive Applied (compare : T → Req → Bool) (w : World T) (existing : Option T) (req : Req)
    (id : Text) (w' : World T) : Prop
  | created (hnone : existing = none) (hid : id = (R.requestId req).getD (api.newId w.objects))
      (hnew : id ∉ w.objects.map R.id) (haccepts : api.accepts w.objects (api.created id req) = true)
      (hwrote : Wrote R w w' (w.objects ++ [api.created id req]) (id :: w.createdBy) (.create id))
  | unchanged (v : T) (hsome : existing = some v) (hid : id = R.id v) (hsame : compare v req = true)
      (hkept : Kept R w w')
  | updated (v old : T) (hsome : existing = some v) (hid : id = R.id v)
      (hchanged : compare v req = false) (hold : (w.objects.find? fun u => R.id u = id) = some old)
      (haccepts : api.accepts (w.objects.filter fun u => R.id u ≠ id) (api.updated old req) = true)
      (hwrote : Wrote R w w' (KeyedTable.replace R.id (api.updated old req) w.objects) w.createdBy
        (.update id))

variable {api}

theorem applyRequest_of_success {compare : T → Req → Bool} {w : World T} {existing : Option T}
    {req : Req} (h : (applyRequest api compare w existing req).2.failed = false) :
    ∃ id, (applyRequest api compare w existing req).1 = .ok id ∧
      Applied api compare w existing req id (applyRequest api compare w existing req).2 := by
  unfold applyRequest at h ⊢
  cases existing with
  | none =>
    rcases create_cases api w req with ⟨hnone, hfailed, -⟩ | ⟨hnew, haccepts, hsome, hwrote⟩
    · generalize create api w req = r at hnone hfailed h
      obtain ⟨v, w'⟩ := r
      cases hnone
      cases hfailed.symm.trans h
    · generalize create api w req = r at hsome hwrote h
      obtain ⟨v, w'⟩ := r
      cases hsome
      exact ⟨_, congrArg Except.ok (api.id_created _ _), .created rfl rfl hnew haccepts hwrote⟩
  | some v =>
    dsimp only at h ⊢
    split_ifs at h ⊢ with hsame
    · exact ⟨R.id v, rfl, .unchanged v rfl rfl hsame (Kept.refl w)⟩
    · rcases update_cases api w (R.id v) req with ⟨hnone, hfailed, -⟩ |
        ⟨old, hold, haccepts, hsome, hwrote⟩
      · generalize update api w (R.id v) req = r at hnone hfailed h
        obtain ⟨u, w'⟩ := r
        cases hnone
        cases hfailed.symm.trans h
      · generalize update api w (R.id v) req = r at hsome hwrote h
        obtain ⟨u, w'⟩ := r
        cases hsome
        exact ⟨R.id v, rfl,
          .updated v old rfl rfl (Bool.eq_false_iff.mpr hsame) hold haccepts hwrote⟩

theorem Applied.of_kept {compare : T → Req → Bool} {w w' w'' : World T} {existing : Option T}
    {req : Req} {id : Text} (hk : Kept R w w') (h : Applied api compare w' existing req id w'') :
    Applied api compare w existing req id w'' := by
  cases h with
  | created hnone hid hnew haccepts hwrote =>
    rw [hk.objects, hk.createdBy] at hwrote
    rw [hk.objects] at hid hnew haccepts
    exact .created hnone hid hnew haccepts (hk.wrote hwrote)
  | unchanged v hsome hid hsame hkept => exact .unchanged v hsome hid hsame (hk.trans hkept)
  | updated v old hsome hid hchanged hold haccepts hwrote =>
    rw [hk.objects, hk.createdBy] at hwrote
    rw [hk.objects] at hold haccepts
    exact .updated v old hsome hid hchanged hold haccepts (hk.wrote hwrote)

theorem Applied.consistent {compare : T → Req → Bool} {w w' : World T} {existing : Option T}
    {req : Req} {id : Text} (h : Applied api compare w existing req id w')
    (hw : Consistent R w) : Consistent R w' := by
  cases h with
  | created hnone hid hnew haccepts hwrote => exact hwrote.consistent hw
  | unchanged v hsome hid hsame hkept => exact hkept.consistent hw
  | updated v old hsome hid hchanged hold haccepts hwrote => exact hwrote.consistent hw

theorem Applied.failed {compare : T → Req → Bool} {w w' : World T} {existing : Option T}
    {req : Req} {id : Text} (h : Applied api compare w existing req id w')
    (hf : w'.failed = false) : w.failed = false := by
  cases h with
  | created hnone hid hnew haccepts hwrote => exact hwrote.failed hf
  | unchanged v hsome hid hsame hkept => exact hkept.failed hf
  | updated v old hsome hid hchanged hold haccepts hwrote => exact hwrote.failed hf

/-- A request touches no object but that of its id. -/
theorem Applied.others {compare : T → Req → Bool} {w w' : World T} {existing : Option T}
    {req : Req} {id : Text} (h : Applied api compare w existing req id w') {v : T}
    (hv : R.id v ≠ id) : v ∈ w'.objects ↔ v ∈ w.objects := by
  cases h with
  | created hnone hid hnew haccepts hwrote =>
    rw [hwrote.objects, List.mem_append, List.mem_singleton]
    refine or_iff_left fun heq => hv ?_
    rw [heq, api.id_created]
  | unchanged u hsome hid hsame hkept => rw [hkept.objects]
  | updated u old hsome hid hchanged hold haccepts hwrote =>
    have hidold : R.id old = id := by simpa using List.find?_some hold
    rw [hwrote.objects, KeyedTable.mem_replace, api.id_updated, hidold]
    constructor
    · rintro (⟨heq, -⟩ | ⟨hmem, -⟩)
      · rw [heq, api.id_updated] at hv
        exact absurd hidold hv
      · exact hmem
    · exact fun hmem => Or.inr ⟨hmem, hv⟩

/-- Where Nautobot stores what is written, the object of a request compares equal with it. -/
theorem Applied.result {compare : T → Req → Bool} {w w' : World T} {existing : Option T}
    {req : Req} {id : Text} (h : Applied api compare w existing req id w')
    (hcreated : compare (api.created id req) req = true)
    (hupdated : ∀ v, R.id v = id → compare (api.updated v req) req = true)
    (hexisting : ∀ v, existing = some v → v ∈ w.objects) :
    ∃ v ∈ w'.objects, R.id v = id ∧ compare v req = true := by
  cases h with
  | created hnone hid hnew haccepts hwrote =>
    refine ⟨api.created id req, ?_, api.id_created id req, hcreated⟩
    rw [hwrote.objects]
    exact List.mem_append_right _ List.mem_cons_self
  | unchanged u hsome hid hsame hkept =>
    exact ⟨u, hkept.objects ▸ hexisting u hsome, hid.symm, hsame⟩
  | updated u old hsome hid hchanged hold haccepts hwrote =>
    have hidold : R.id old = id := by simpa using List.find?_some hold
    refine ⟨api.updated old req, ?_, (api.id_updated old req).trans hidold, hupdated old hidold⟩
    rw [hwrote.objects, KeyedTable.mem_replace]
    exact Or.inl ⟨rfl, old, List.mem_of_find?_eq_some hold, (api.id_updated old req).symm⟩

/-- A key that Nautobot keeps unique stays unique. -/
theorem Applied.unique {κ : Type} {key : T → κ}
    (haccepts : ∀ others v, api.accepts others v = true → ∀ u ∈ others, key u ≠ key v)
    {compare : T → Req → Bool} {w w' : World T} {existing : Option T} {req : Req} {id : Text}
    (h : Applied api compare w existing req id w') (hw : KeyedTable.Unique key w.objects) :
    KeyedTable.Unique key w'.objects := by
  cases h with
  | created hnone hid hnew haccepted hwrote =>
    have hperm := List.perm_append_singleton (api.created id req) w.objects
    rw [hwrote.objects]
    intro u hu v hv heq
    exact hw.cons (haccepts _ _ haccepted) u (hperm.mem_iff.mp hu) v (hperm.mem_iff.mp hv) heq
  | unchanged u hsome hid hsame hkept => rwa [hkept.objects]
  | updated u old hsome hid hchanged hold haccepted hwrote =>
    have hidold : R.id old = id := by simpa using List.find?_some hold
    rw [hwrote.objects]
    refine hw.replace fun v hv hne => haccepts _ _ haccepted v (List.mem_filter.mpr ⟨hv, ?_⟩)
    rw [api.id_updated, hidold] at hne
    exact decide_eq_true hne

/-- What a user creates is the user's. -/
theorem Applied.owned {compare : T → Req → Bool} {w w' : World T} {existing : Option T}
    {req : Req} {id : Text} (h : Applied api compare w existing req id w')
    (howned : ∀ v ∈ w.objects, R.id v ∈ w.createdBy) :
    ∀ v ∈ w'.objects, R.id v ∈ w'.createdBy := by
  intro v hv
  cases h with
  | created hnone hid hnew haccepts hwrote =>
    rw [hwrote.createdBy]
    rw [hwrote.objects] at hv
    rcases List.mem_append.mp hv with hv | hv
    · exact List.mem_cons_of_mem _ (howned v hv)
    · rw [List.mem_singleton.mp hv, api.id_created]
      exact List.mem_cons_self
  | unchanged u hsome hid hsame hkept =>
    rw [hkept.createdBy]
    exact howned v (hkept.objects ▸ hv)
  | updated u old hsome hid hchanged hold haccepts hwrote =>
    rw [hwrote.createdBy]
    rw [hwrote.objects, KeyedTable.mem_replace] at hv
    rcases hv with ⟨rfl, s, hs, hids⟩ | ⟨hv, -⟩
    · exact hids ▸ howned s hs
    · exact howned v hv

/-- A request writes once or finds its object as it is to be. -/
theorem Applied.writes {compare : T → Req → Bool} {w w' : World T} {existing : Option T}
    {req : Req} {id : Text} (h : Applied api compare w existing req id w') :
    (∃ write, w'.writes = w.writes ++ [write]) ∨
      (Kept R w w' ∧ ∃ v, existing = some v ∧ compare v req = true) := by
  cases h with
  | created hnone hid hnew haccepts hwrote => exact Or.inl ⟨_, hwrote.writes⟩
  | unchanged v hsome hid hsame hkept => exact Or.inr ⟨hkept, v, hsome, hsame⟩
  | updated v old hsome hid hchanged hold haccepts hwrote => exact Or.inl ⟨_, hwrote.writes⟩

theorem Applied.id_of_some {compare : T → Req → Bool} {w w' : World T} {v : T} {req : Req}
    {id : Text} (h : Applied api compare w (some v) req id w') : id = R.id v := by
  cases h with
  | created hnone hid hnew haccepts hwrote => cases hnone
  | unchanged u hsome hid hsame hkept =>
    cases hsome
    exact hid
  | updated u old hsome hid hchanged hold haccepts hwrote =>
    cases hsome
    exact hid

theorem Applied.id_of_none {compare : T → Req → Bool} {w w' : World T} {req : Req} {id : Text}
    (h : Applied api compare w none req id w') :
    id = (R.requestId req).getD (api.newId w.objects) ∧ id ∉ w.objects.map R.id := by
  cases h with
  | created hnone hid hnew haccepts hwrote => exact ⟨hid, hnew⟩
  | unchanged u hsome hid hsame hkept => cases hsome
  | updated u old hsome hid hchanged hold haccepts hwrote => cases hsome

theorem Applied.kept {compare : T → Req → Bool} {w w' : World T} {v : T} {req : Req} {id : Text}
    (h : Applied api compare w (some v) req id w') (hsame : compare v req = true) :
    Kept R w w' := by
  cases h with
  | created hnone hid hnew haccepts hwrote => cases hnone
  | unchanged u hsome hid hsame hkept => exact hkept
  | updated u old hsome hid hchanged hold haccepts hwrote =>
    cases hsome
    cases hsame.symm.trans hchanged

theorem failed_of_applyRequest {compare : T → Req → Bool} {w : World T} {existing : Option T}
    {req : Req} (h : (applyRequest api compare w existing req).2.failed = false) :
    w.failed = false := by
  obtain ⟨id, -, happlied⟩ := applyRequest_of_success h
  exact happlied.failed h

section Loop

variable {E : Type} {single : World T → E → Except SyncError Text × World T}

/-- The loop over the entries as a chain of steps. -/
inductive Entries (Step : World T → E → Text → World T → Prop) :
    World T → List E → List Text → World T → Prop
  | nil (w : World T) : Entries Step w [] [] w
  | cons {w w' w'' : World T} {entry : E} {entries : List E} {id : Text} {ids : List Text}
      (hstep : Step w entry id w') (hrest : Entries Step w' entries ids w'') :
      Entries Step w (entry :: entries) (id :: ids) w''

/-- What every step keeps, the loop keeps. -/
theorem Entries.invariant {Step : World T → E → Text → World T → Prop} {I : World T → Prop}
    (hstep : ∀ w entry id w', Step w entry id w' → I w → I w') {w w' : World T} {entries : List E}
    {ids : List Text} (h : Entries Step w entries ids w') (hw : I w) : I w' := by
  induction h with
  | nil w => exact hw
  | cons hfirst hrest ih => exact ih (hstep _ _ _ _ hfirst hw)

theorem Entries.append {Step : World T → E → Text → World T → Prop} {w w' w'' : World T}
    {entries entries' : List E} {ids ids' : List Text} (h : Entries Step w entries ids w')
    (h' : Entries Step w' entries' ids' w'') :
    Entries Step w (entries ++ entries') (ids ++ ids') w'' := by
  induction h with
  | nil w => exact h'
  | cons hfirst hrest ih => exact .cons hfirst (ih h')

theorem syncEntries_cons {w w' : World T} {entry : E} {entries : List E} {id : Text}
    (h : single w entry = (.ok id, w')) :
    syncEntries single w (entry :: entries) =
      ((syncEntries single w' entries).1.map (id :: ·),
        (syncEntries single w' entries).2) := by
  simp only [syncEntries, h]

theorem failed_of_syncEntries
    (hmono : ∀ w entry, (single w entry).2.failed = false → w.failed = false)
    {entries : List E} {w : World T} (h : (syncEntries single w entries).2.failed = false) :
    w.failed = false ∧
      ∀ entry rest, entries = entry :: rest → (single w entry).2.failed = false := by
  induction entries generalizing w with
  | nil => exact ⟨h, fun entry rest hcons => by cases hcons⟩
  | cons entry entries ih =>
    have hfirst : (single w entry).2.failed = false := by
      cases hr : single w entry with
      | mk result w' =>
        cases result with
        | error e => simpa only [syncEntries, hr] using h
        | ok id =>
          rw [syncEntries_cons hr] at h
          exact (ih h).1
    refine ⟨hmono w entry hfirst, fun e rest hcons => ?_⟩
    cases hcons
    exact hfirst

/-- Where no call fails, every entry takes its step. -/
theorem entries_of_success {Step : World T → E → Text → World T → Prop} {entries : List E}
    (hmono : ∀ w entry, (single w entry).2.failed = false → w.failed = false)
    (hsingle : ∀ w, ∀ entry ∈ entries, Consistent R w → (single w entry).2.failed = false →
      ∃ id, (single w entry).1 = .ok id ∧ Step w entry id (single w entry).2)
    (hconsistent : ∀ w entry id w', Step w entry id w' → Consistent R w → Consistent R w')
    {w : World T} (hw : Consistent R w)
    (h : (syncEntries single w entries).2.failed = false) :
    ∃ ids, (syncEntries single w entries).1 = .ok ids ∧
      Entries Step w entries ids (syncEntries single w entries).2 := by
  induction entries generalizing w with
  | nil => exact ⟨[], rfl, .nil w⟩
  | cons entry entries ih =>
    have hfirst := (failed_of_syncEntries hmono h).2 entry entries rfl
    obtain ⟨id, hok, hstep⟩ := hsingle w entry List.mem_cons_self hw hfirst
    have hr : single w entry = (.ok id, (single w entry).2) := Prod.ext hok rfl
    rw [syncEntries_cons hr] at h ⊢
    obtain ⟨ids, hids, hrest⟩ := ih (fun w e he => hsingle w e (List.mem_cons_of_mem entry he))
      (hconsistent w entry id _ hstep hw) h
    exact ⟨id :: ids, by rw [hids]; rfl, .cons hstep hrest⟩

theorem failed_of_syncPass {deleteObsolete : World T → List Text → World T}
    (hdelete : ∀ w ids, (deleteObsolete w ids).failed = false → w.failed = false) {w : World T}
    {entries : List E} (h : (syncPass single deleteObsolete w entries).2.failed = false) :
    (syncEntries single w entries).2.failed = false := by
  unfold syncPass at h
  generalize syncEntries single w entries = r at h ⊢
  obtain ⟨_ | ids, w'⟩ := r
  · exact h
  · exact hdelete w' ids h

end Loop

section Single

variable {E : Type} {compare : T → Req → Bool} {lookup : World T → E → Option T × World T}
  {requestOf : E → Except SyncError Req}

/-- One turn of the loop, with what a lookup may find among the objects. -/
def Step (api : Api R) (compare : T → Req → Bool) (Found : List T → E → Option T → Prop)
    (request : E → Req) (w : World T) (entry : E) (id : Text) (w' : World T) : Prop :=
  ∃ existing, Found w.objects entry existing ∧
    Applied api compare w existing (request entry) id w'

theorem Step.consistent {Found : List T → E → Option T → Prop} {request : E → Req}
    {w w' : World T} {entry : E} {id : Text} (h : Step api compare Found request w entry id w')
    (hw : Consistent R w) : Consistent R w' := by
  obtain ⟨existing, -, happlied⟩ := h
  exact happlied.consistent hw

theorem failed_of_syncSingle {w : World T} {entry : E}
    (h : (syncSingle api compare lookup requestOf w entry).2.failed = false) :
    (lookup w entry).2.failed = false := by
  unfold syncSingle at h
  cases hrequest : requestOf entry with
  | error e => simpa only [hrequest] using h
  | ok req =>
    simp only [hrequest] at h
    exact failed_of_applyRequest h

theorem step_of_success {Found : List T → E → Option T → Prop} {request : E → Req}
    (hkept : ∀ w entry, Kept R w (lookup w entry).2)
    (hfound : ∀ w entry, Consistent R w → (lookup w entry).2.failed = false →
      Found w.objects entry (lookup w entry).1) {w : World T} {entry : E}
    (hrequest : requestOf entry = .ok (request entry)) (hw : Consistent R w)
    (h : (syncSingle api compare lookup requestOf w entry).2.failed = false) :
    ∃ id, (syncSingle api compare lookup requestOf w entry).1 = .ok id ∧
      Step api compare Found request w entry id
        (syncSingle api compare lookup requestOf w entry).2 := by
  have hf := hfound w entry hw (failed_of_syncSingle h)
  unfold syncSingle at h ⊢
  simp only [hrequest] at h ⊢
  obtain ⟨id, hid, happlied⟩ := applyRequest_of_success h
  exact ⟨id, hid, _, hf, happlied.of_kept (hkept w entry)⟩

theorem failed_before_syncSingle (hkept : ∀ w entry, Kept R w (lookup w entry).2) (w : World T)
    (entry : E) (h : (syncSingle api compare lookup requestOf w entry).2.failed = false) :
    w.failed = false := (hkept w entry).failed (failed_of_syncSingle h)

theorem failed_before_syncPass {deleteObsolete : World T → List Text → World T}
    (hkept : ∀ w entry, Kept R w (lookup w entry).2)
    (hdelete : ∀ w ids, (deleteObsolete w ids).failed = false → w.failed = false) {w : World T}
    {entries : List E} (h : (syncPass (syncSingle api compare lookup requestOf) deleteObsolete w
      entries).2.failed = false) : w.failed = false :=
  (failed_of_syncEntries (failed_before_syncSingle hkept) (failed_of_syncPass hdelete h)).1

/-- A pass without failures is a loop of such turns, then the removal of what is obsolete. -/
theorem pass_of_success {Found : List T → E → Option T → Prop} {request : E → Req}
    {deleteObsolete : World T → List Text → World T}
    (hkept : ∀ w entry, Kept R w (lookup w entry).2)
    (hfound : ∀ w entry, Consistent R w → (lookup w entry).2.failed = false →
      Found w.objects entry (lookup w entry).1)
    (hdelete : ∀ w ids, (deleteObsolete w ids).failed = false → w.failed = false) {w : World T}
    {entries : List E} (hrequest : ∀ e ∈ entries, requestOf e = .ok (request e))
    (hw : Consistent R w)
    (h : (syncPass (syncSingle api compare lookup requestOf) deleteObsolete w
      entries).2.failed = false) :
    ∃ ids w', syncPass (syncSingle api compare lookup requestOf) deleteObsolete w entries =
        (.ok ids, deleteObsolete w' ids) ∧
      Entries (Step api compare Found request) w entries ids w' ∧ Consistent R w' := by
  obtain ⟨ids, hids, hentries⟩ := entries_of_success (failed_before_syncSingle hkept)
    (fun w e he hw hf => step_of_success hkept hfound (hrequest e he) hw hf)
    (fun w e id w' hstep hw => hstep.consistent hw) hw (failed_of_syncPass hdelete h)
  refine ⟨ids, (syncEntries (syncSingle api compare lookup requestOf) w entries).2, ?_, hentries,
    hentries.invariant (fun _ _ _ _ hstep hw => hstep.consistent hw) hw⟩
  unfold syncPass
  generalize syncEntries (syncSingle api compare lookup requestOf) w entries = r at hids
  obtain ⟨result, w'⟩ := r
  cases hids
  rfl

variable {Found : List T → E → Option T → Prop} {request : E → Req} {w w' : World T}
  {entries : List E} {ids : List Text}

theorem writes_of_entries (h : Entries (Step api compare Found request) w entries ids w') :
    ∃ more, w'.writes = w.writes ++ more := by
  induction h with
  | nil w => exact ⟨[], (List.append_nil _).symm⟩
  | cons hstep hrest ih =>
    obtain ⟨more, hmore⟩ := ih
    obtain ⟨existing, -, happlied⟩ := hstep
    rcases happlied.writes with ⟨write, hwrite⟩ | ⟨hkept, -⟩
    · exact ⟨write :: more, by rw [hmore, hwrite, List.append_assoc, List.singleton_append]⟩
    · exact ⟨more, by rw [hmore, hkept.writes]⟩

/-- The operator's objects after the loop were so before it, or an entry made them. -/
theorem createdBy_of_entries (h : Entries (Step api compare Found request) w entries ids w') :
    ∀ id ∈ w'.createdBy, id ∈ w.createdBy ∨ id ∈ ids := by
  induction h with
  | nil w => exact fun id hid => Or.inl hid
  | @cons w w₁ w' entry entries i ids hstep hrest ih =>
    obtain ⟨existing, -, happlied⟩ := hstep
    intro id hid
    rcases ih id hid with hid | hid
    · cases happlied with
      | created hnone hid' hnew haccepts hwrote =>
        rw [hwrote.createdBy] at hid
        rcases List.mem_cons.mp hid with rfl | hid
        · exact Or.inr List.mem_cons_self
        · exact Or.inl hid
      | unchanged v hsome hid' hsame hkept => exact Or.inl (hkept.createdBy ▸ hid)
      | updated v old hsome hid' hchanged hold haccepts hwrote =>
        exact Or.inl (hwrote.createdBy ▸ hid)
    · exact Or.inr (List.mem_cons_of_mem i hid)

/-- A loop that writes nothing finds for every entry what it asks for. -/
theorem same_of_entries (h : Entries (Step api compare Found request) w entries ids w')
    (hwrites : w'.writes = w.writes) :
    ∀ e ∈ entries, ∃ v, Found w.objects e (some v) ∧ compare v (request e) = true := by
  induction h with
  | nil w => exact fun e he => by cases he
  | @cons w w₁ w' entry entries id ids hstep hrest ih =>
    obtain ⟨more, hmore⟩ := writes_of_entries hrest
    obtain ⟨existing, hfound, happlied⟩ := hstep
    rcases happlied.writes with ⟨write, hwrite⟩ | ⟨hkept, v, rfl, hsame⟩
    · rw [hmore, hwrite, List.append_assoc] at hwrites
      simp at hwrites
    · intro e he
      rcases List.mem_cons.mp he with rfl | he
      · exact ⟨v, hfound, hsame⟩
      · rw [← hkept.objects]
        exact ih (hwrites.trans hkept.writes.symm) e he

/-- A loop of which no turn can write changes nothing, and each turn says what it says of such a
turn. -/
theorem kept_of_entries {P : E → Text → Prop}
    (h : Entries (Step api compare Found request) w entries ids w')
    (hsame : ∀ e ∈ entries, ∀ w₁ id w₂, w₁.objects = w.objects →
      Step api compare Found request w₁ e id w₂ → Kept R w₁ w₂ ∧ P e id) :
    Kept R w w' ∧ ∀ e ∈ entries, ∃ id ∈ ids, P e id := by
  induction h with
  | nil w => exact ⟨Kept.refl w, fun e he => by cases he⟩
  | @cons w w₁ w' entry entries id ids hstep hrest ih =>
    obtain ⟨hkept, hid⟩ := hsame entry List.mem_cons_self w id w₁ rfl hstep
    obtain ⟨hkept', hids⟩ := ih fun e he w₂ id w₃ hobjects =>
      hsame e (List.mem_cons_of_mem entry he) w₂ id w₃ (hobjects.trans hkept.objects)
    refine ⟨hkept.trans hkept', fun e he => ?_⟩
    rcases List.mem_cons.mp he with rfl | he
    · exact ⟨id, List.mem_cons_self, hid⟩
    · obtain ⟨i, hi, hP⟩ := hids e he
      exact ⟨i, List.mem_cons_of_mem id hi, hP⟩

end Single

theorem failed_of_destroy {w : World T} {id : Text} (h : (destroy api w id).2.failed = false) :
    w.failed = false := by
  rcases destroy_cases api w id with ⟨hfailed, -⟩ | ⟨-, hkept⟩ | ⟨-, -, hwrote⟩
  · cases hfailed.symm.trans h
  · exact hkept.failed h
  · exact hwrote.failed h

theorem failed_of_destroyAll {ids : List Text} {w : World T}
    (h : (destroyAll api w ids).failed = false) : w.failed = false := by
  induction ids generalizing w with
  | nil => exact h
  | cons id ids ih => exact failed_of_destroy (ih h)

/-- The objects of the operator's user under the ids are gone, and no others. -/
structure Swept (R : Resource T Req) (w w' : World T) (ids : List Text) : Prop where
  objects : w'.objects = w.objects.filter fun v => ¬(R.id v ∈ ids ∧ R.id v ∈ w.createdBy)
  createdBy : w'.createdBy = w.createdBy
  writes : w'.writes = w.writes ++ (ids.filter (· ∈ w.createdBy)).map .destroy
  consistent : Consistent R w → Consistent R w'

theorem Swept.of_kept {w w' w'' : World T} {ids : List Text} (hk : Kept R w w')
    (h : Swept R w' w'' ids) : Swept R w w'' ids := by
  obtain ⟨hobjects, hcreated, hwrites, hconsistent⟩ := h
  rw [hk.objects, hk.createdBy] at hobjects
  rw [hk.writes, hk.createdBy] at hwrites
  exact ⟨hobjects, hcreated.trans hk.createdBy, hwrites,
    fun hw => hconsistent (hk.consistent hw)⟩

/-- Where a loop and a removal write nothing, the loop does not and the removal finds nothing of the
operator's. -/
theorem Swept.still {E : Type} {compare : T → Req → Bool} {Found : List T → E → Option T → Prop}
    {request : E → Req} {w w' w'' : World T} {entries : List E} {ids gone : List Text}
    (h : Swept R w' w'' gone) (hentries : Entries (Step api compare Found request) w entries ids w')
    (hstill : w''.writes = w.writes) :
    w'.writes = w.writes ∧ ∀ id ∈ gone, id ∉ w'.createdBy := by
  obtain ⟨more, hmore⟩ := writes_of_entries hentries
  have hall := h.writes.symm.trans hstill
  rw [hmore, List.append_assoc] at hall
  simp only [List.append_right_eq_self, List.append_eq_nil_iff, List.map_eq_nil_iff] at hall
  refine ⟨by rw [hmore, hall.1, List.append_nil], fun id hid howned => ?_⟩
  have hmem : id ∈ gone.filter (· ∈ w'.createdBy) :=
    List.mem_filter.mpr ⟨hid, decide_eq_true howned⟩
  rw [hall.2] at hmem
  cases hmem

theorem swept_destroyAll {ids : List Text} {w : World T}
    (h : (destroyAll api w ids).failed = false) : Swept R w (destroyAll api w ids) ids := by
  induction ids generalizing w with
  | nil => exact ⟨by simp [destroyAll], rfl, by simp [destroyAll], fun hw => hw⟩
  | cons id ids ih =>
    have hrest := ih h
    rcases destroy_cases api w id with ⟨hfailed, -⟩ | ⟨hforeign, hkept⟩ | ⟨howned, -, hwrote⟩
    · cases hfailed.symm.trans (failed_of_destroyAll h)
    · refine ⟨hrest.objects.trans ?_, hrest.createdBy.trans hkept.createdBy,
        hrest.writes.trans ?_, fun hw => hrest.consistent (hkept.consistent hw)⟩
      · rw [hkept.objects, hkept.createdBy]
        apply List.filter_congr
        intro v _
        rw [decide_eq_decide, List.mem_cons]
        by_cases hv : R.id v = id
        · simp [hv, hforeign]
        · simp [hv]
      · rw [hkept.writes, hkept.createdBy, List.filter_cons_of_neg (by simpa using hforeign)]
    · refine ⟨hrest.objects.trans ?_, hrest.createdBy.trans hwrote.createdBy,
        hrest.writes.trans ?_, fun hw => hrest.consistent (hwrote.consistent hw)⟩
      · rw [hwrote.objects, hwrote.createdBy, List.filter_filter]
        apply List.filter_congr
        intro v _
        by_cases hv : R.id v = id
        · simp [hv, howned]
        · simp [hv]
      · rw [hwrote.writes, hwrote.createdBy, List.filter_cons_of_pos (by simpa using howned)]
        simp

end Passes

end Understack.Nautobotop.SyncPass
