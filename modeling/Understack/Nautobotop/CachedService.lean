import Understack.Lib.Excerpts
import Understack.Lib.PyText
import Understack.Lib.Runs

/-! The services over one type of Nautobot objects, `VlanService` and `PrefixService` alike, with
the collection that `internal/nautobot/cache` keeps for that type. The services read through the
cache and edit it after each write. -/
namespace Understack.Nautobotop.CachedService
open PyText Excerpts

section Collections

variable {T : Type}

/-- A cached collection; none when it was never set, has expired or was evicted. -/
abbrev Collection (T : Type) := Option (List T)

def findBy (get : T → Text) (c : Collection T) (key : Text) : Option T :=
  c.bind fun items => items.find? fun item => get item = key

def findByName (getName : T → Text) (c : Collection T) (name : Text) : Option T :=
  findBy getName c name

def findByID (getID : T → Text) (c : Collection T) (id : Text) : Option T := findBy getID c id

def addToCollection (c : Collection T) (item : T) : Collection T :=
  match c with
  | none => some [item]
  | some items => some (items ++ [item])

def updateInCollection (c : Collection T) (updatedItem : T) (matchFunc : T → Bool) : Collection T :=
  c.map (replaceFirst matchFunc updatedItem)

def removeFromCollection (c : Collection T) (matchFunc : T → Bool) : Collection T :=
  c.map fun items => items.filter fun item => !matchFunc item

end Collections

/-- What a service knows of its objects and requests; the name is the text by which it looks objects
up besides the id. -/
structure Resource (T Req : Type) where
  id : T → Text
  name : T → Text
  requestId : Req → Option Text

/-- What is decided outside the services: the order of a listing, how a filter on the name is read,
the objects that requests make, which writes are refused, which calls fail, before which accesses
the cache expires, and the order in which a map is ranged over. Calls and accesses are counted
together. -/
structure Api {T Req : Type} (R : Resource T Req) where
  listing : List T → List T
  listing_perm : ∀ objects, (listing objects).Perm objects
  normalize : Text → Text
  newId : List T → Text
  created : Text → Req → T
  id_created : ∀ i req, R.id (created i req) = i
  updated : T → Req → T
  id_updated : ∀ v req, R.id (updated v req) = R.id v
  accepts : List T → T → Bool
  fails : ℕ → Bool
  expires : ℕ → Bool
  ranged : List Text → List Text
  ranged_perm : ∀ ids, (ranged ids).Perm ids

inductive Write where
  | create (id : Text)
  | update (id : Text)
  | destroy (id : Text)
  deriving DecidableEq

/-- Nautobot's objects of the type, the ids whose creation it records for the operator's user, and
the client's cache; with the count of calls and accesses, the writes and whether a call failed. -/
structure World (T : Type) where
  objects : List T
  createdBy : List Text
  cache : Collection T
  ticks : ℕ
  writes : List Write
  failed : Bool

variable {T Req : Type} {R : Resource T Req} (api : Api R)

/-- `c.Get`: the cache after it is what the access saw. -/
def getCollection (w : World T) : World T :=
  { w with cache := if api.expires w.ticks then none else w.cache, ticks := w.ticks + 1 }

/-- An API call, with whether it succeeds. -/
def call (w : World T) (ok : Bool) : World T :=
  { w with ticks := w.ticks + 1, failed := w.failed || !ok }

/-- The list call with a filter, of which the services take the first result. -/
def firstListed (w : World T) (p : T → Bool) : Option T × World T :=
  if api.fails w.ticks then (none, call w false)
  else (((api.listing w.objects).filter p).head?, call w true)

/-- A lookup in the cache that falls through to the list call. -/
def readThrough (w : World T) (find : Collection T → Option T) (p : T → Bool) :
    Option T × World T :=
  let w := getCollection api w
  match find w.cache with
  | some v => (some v, w)
  | none => firstListed api w p

/-- None stands for the empty object that the source returns. -/
def getByName (w : World T) (name : Text) : Option T × World T :=
  readThrough api w (findByName R.name · name) fun v => R.name v = api.normalize name

def getByID (w : World T) (id : Text) : Option T × World T :=
  if id = [] then (none, w)
  else readThrough api w (findByID R.id · id) fun v => R.id v = id

/-- After an accepted write and the access to the cache that follows it. -/
def written (w : World T) (objects : List T) (createdBy : List Text) (write : Write) : World T :=
  getCollection api { call w true with
    objects := objects
    createdBy := createdBy
    writes := w.writes ++ [write] }

def create (w : World T) (req : Req) : Option T × World T :=
  let id := (R.requestId req).getD (api.newId w.objects)
  let v := api.created id req
  if api.fails w.ticks || (w.objects.map R.id).contains id || !api.accepts w.objects v then
    (none, call w false)
  else
    let w := written api w (w.objects ++ [v]) (id :: w.createdBy) (.create id)
    (some v, { w with cache := addToCollection w.cache v })

def update (w : World T) (id : Text) (req : Req) : Option T × World T :=
  match w.objects.find? fun v => R.id v = id with
  | none => (none, call w false)
  | some old =>
    let v := api.updated old req
    if api.fails w.ticks || !api.accepts (w.objects.filter fun u => R.id u ≠ id) v then
      (none, call w false)
    else
      let w := written api w (KeyedTable.replace R.id v w.objects) w.createdBy (.update id)
      (some v, { w with cache := updateInCollection w.cache v fun u => R.id u = id })

/-- `IsCreatedByUser`; none when the query fails. -/
def isCreatedByUser (w : World T) (id : Text) : Option Bool × World T :=
  if api.fails w.ticks then (none, call w false)
  else (some (w.createdBy.contains id), call w true)

/-- The end of `Destroy`, for an object of the operator's user. -/
def destroyOwned (w : World T) (id : Text) : Bool × World T :=
  if api.fails w.ticks || !(w.objects.map R.id).contains id then (false, call w false)
  else
    let w := written api w (w.objects.filter fun v => R.id v ≠ id) w.createdBy (.destroy id)
    (true, { w with cache := removeFromCollection w.cache fun v => R.id v = id })

/-- Whether it returns without an error. -/
def destroy (w : World T) (id : Text) : Bool × World T :=
  match isCreatedByUser api w id with
  | (none, w) => (false, w)
  | (some owned, w) => if owned then destroyOwned api w id else (true, w)

def defaultPageSize : ℕ := 1000

/-- `PaginatedList`, with fuel for its pages. -/
def paginatedList : ℕ → ℕ → List T → World T → List T × World T
  | 0, _, allResults, w => (allResults, w)
  | fuel + 1, offset, allResults, w =>
    if api.fails w.ticks then (allResults, call w false)
    else
      let results := ((api.listing w.objects).drop offset).take defaultPageSize
      let allResults := allResults ++ results
      if w.objects.length ≤ allResults.length ∨ results.isEmpty then (allResults, call w true)
      else paginatedList fuel (offset + defaultPageSize) allResults (call w true)

/-- No listing has more pages than objects and one. -/
def listAll (w : World T) : List T × World T := paginatedList api (w.objects.length + 1) 0 [] w

/-! What holds of the cache, and what each operation leaves. -/

section

variable (R)

/-- Ids are unique, and the cache is an excerpt of the current objects. -/
structure Consistent (w : World T) : Prop where
  ids : (w.objects.map R.id).Nodup
  cache : ∀ items, w.cache = some items → Excerpt R.id items w.objects

/-- Nautobot is as before. -/
structure Kept (w w' : World T) : Prop where
  objects : w'.objects = w.objects
  createdBy : w'.createdBy = w.createdBy
  writes : w'.writes = w.writes
  failed : w'.failed = false → w.failed = false
  consistent : Consistent R w → Consistent R w'

/-- One write took place. -/
structure Wrote (w w' : World T) (objects : List T) (createdBy : List Text) (write : Write) :
    Prop where
  objects : w'.objects = objects
  createdBy : w'.createdBy = createdBy
  writes : w'.writes = w.writes ++ [write]
  failed : w'.failed = false → w.failed = false
  consistent : Consistent R w → Consistent R w'

end

theorem Kept.refl (w : World T) : Kept R w w := ⟨rfl, rfl, rfl, id, id⟩

theorem Kept.trans {w w' w'' : World T} (h : Kept R w w') (h' : Kept R w' w'') :
    Kept R w w'' :=
  ⟨h'.objects.trans h.objects, h'.createdBy.trans h.createdBy, h'.writes.trans h.writes,
    fun hf => h.failed (h'.failed hf), fun hw => h'.consistent (h.consistent hw)⟩

theorem Kept.wrote {w w' w'' : World T} {objects : List T} {createdBy : List Text} {write : Write}
    (h : Kept R w w') (h' : Wrote R w' w'' objects createdBy write) :
    Wrote R w w'' objects createdBy write :=
  ⟨h'.objects, h'.createdBy, h.writes ▸ h'.writes, fun hf => h.failed (h'.failed hf),
    fun hw => h'.consistent (h.consistent hw)⟩

theorem cache_of_getCollection {w : World T} {items : List T}
    (h : (getCollection api w).cache = some items) : w.cache = some items := by
  simp only [getCollection] at h
  split_ifs at h
  exact h

theorem kept_getCollection (w : World T) : Kept R w (getCollection api w) :=
  ⟨rfl, rfl, rfl, id, fun hw =>
    ⟨hw.ids, fun items hitems => hw.cache items (cache_of_getCollection api hitems)⟩⟩

theorem kept_call (w : World T) (ok : Bool) : Kept R w (call w ok) := by
  refine ⟨rfl, rfl, rfl, fun hf => ?_, fun hw => ⟨hw.ids, hw.cache⟩⟩
  exact (Bool.or_eq_false_iff.mp hf).1

theorem failed_call_false (w : World T) : (call w false).failed = true := by simp [call]

theorem kept_firstListed (w : World T) (p : T → Bool) : Kept R w (firstListed api w p).2 := by
  unfold firstListed
  split_ifs
  · exact kept_call w false
  · exact kept_call w true

theorem kept_readThrough (w : World T) (find : Collection T → Option T) (p : T → Bool) :
    Kept R w (readThrough api w find p).2 := by
  unfold readThrough
  have hget := kept_getCollection api w
  dsimp only
  split
  · exact hget
  · exact hget.trans (kept_firstListed api _ _)

theorem kept_getByName (w : World T) (name : Text) : Kept R w (getByName api w name).2 :=
  kept_readThrough api w _ _

theorem kept_getByID (w : World T) (id : Text) : Kept R w (getByID api w id).2 := by
  unfold getByID
  split_ifs
  · exact Kept.refl w
  · exact kept_readThrough api w _ _

/-- A write whose edit of the cache follows that of the objects. -/
theorem wrote_of_edit {w : World T} {objects : List T} {createdBy : List Text} {write : Write}
    (edit : Collection T → Collection T)
    (hids : Consistent R w → (objects.map R.id).Nodup)
    (hedit : Consistent R w → ∀ c items,
      (∀ before, c = some before → Excerpt R.id before w.objects) → edit c = some items →
      Excerpt R.id items objects) :
    Wrote R w { written api w objects createdBy write with
      cache := edit (written api w objects createdBy write).cache } objects createdBy write := by
  refine ⟨rfl, rfl, rfl, (kept_call (R := R) w true).failed,
    fun hw => ⟨hids hw, fun items hitems => ?_⟩⟩
  refine hedit hw _ items (fun before hbefore => hw.cache before ?_) hitems
  exact cache_of_getCollection api (w := { call w true with
    objects := objects
    createdBy := createdBy
    writes := w.writes ++ [write] }) hbefore

theorem create_cases (w : World T) (req : Req) :
    let id := (R.requestId req).getD (api.newId w.objects)
    let v := api.created id req
    ((create api w req).1 = none ∧ (create api w req).2.failed = true ∧
      Kept R w (create api w req).2) ∨
    (id ∉ w.objects.map R.id ∧ api.accepts w.objects v = true ∧ (create api w req).1 = some v ∧
      Wrote R w (create api w req).2 (w.objects ++ [v]) (id :: w.createdBy) (.create id)) := by
  intro id v
  by_cases hrefused : (api.fails w.ticks || (w.objects.map R.id).contains id ||
      !api.accepts w.objects v) = true
  · have hcreate : create api w req = (none, call w false) := if_pos hrefused
    rw [hcreate]
    exact Or.inl ⟨rfl, failed_call_false w, kept_call w false⟩
  · have hcreate : create api w req = (some v,
        { written api w (w.objects ++ [v]) (id :: w.createdBy) (.create id) with
          cache := addToCollection
            (written api w (w.objects ++ [v]) (id :: w.createdBy) (.create id)).cache v }) :=
      if_neg hrefused
    simp only [Bool.or_eq_true, not_or, Bool.not_eq_true, List.contains_eq_mem,
      decide_eq_false_iff_not, Bool.not_eq_false'] at hrefused
    obtain ⟨⟨-, hid⟩, haccepts⟩ := hrefused
    have hnew : R.id v ∉ w.objects.map R.id := by rwa [api.id_created]
    rw [hcreate]
    refine Or.inr ⟨hid, haccepts, rfl, wrote_of_edit api (addToCollection · v)
      (fun hw => ?_) fun hw c items hc hitems => ?_⟩
    · rw [List.map_append, List.map_singleton, List.nodup_append_comm]
      exact List.nodup_cons.mpr ⟨hnew, hw.ids⟩
    · cases c with
      | none =>
        cases hitems
        exact ⟨fun u hu => List.mem_append_right _ hu, by simp⟩
      | some before =>
        cases hitems
        exact (hc before rfl).append hnew

theorem update_cases (w : World T) (id : Text) (req : Req) :
    ((update api w id req).1 = none ∧ (update api w id req).2.failed = true ∧
      Kept R w (update api w id req).2) ∨
    ∃ old, (w.objects.find? fun v => R.id v = id) = some old ∧
      api.accepts (w.objects.filter fun u => R.id u ≠ id) (api.updated old req) = true ∧
      (update api w id req).1 = some (api.updated old req) ∧
      Wrote R w (update api w id req).2
        (KeyedTable.replace R.id (api.updated old req) w.objects) w.createdBy (.update id) := by
  unfold update
  cases hfind : w.objects.find? fun v => R.id v = id with
  | none => exact Or.inl ⟨rfl, failed_call_false w, kept_call w false⟩
  | some old =>
    have hold : R.id old = id := by simpa using List.find?_some hfind
    have hid : R.id (api.updated old req) = id := (api.id_updated old req).trans hold
    dsimp only
    split_ifs with hrefused
    · exact Or.inl ⟨rfl, failed_call_false w, kept_call w false⟩
    · simp only [Bool.or_eq_true, not_or, Bool.not_eq_true, Bool.not_eq_false'] at hrefused
      refine Or.inr ⟨old, rfl, hrefused.2, rfl, wrote_of_edit api
        (fun c => updateInCollection c (api.updated old req) fun u => R.id u = id)
        (fun hw => ?_) fun hw c items hc hitems => ?_⟩
      · rw [map_id_replace]
        exact hw.ids
      · cases c with
        | none => cases hitems
        | some before =>
          cases hitems
          have hbefore := hc before rfl
          rw [← hid, replaceFirst_eq_replace hbefore.nodup]
          exact hbefore.replace _

theorem destroyOwned_cases (w : World T) (id : Text) :
    ((destroyOwned api w id).2.failed = true ∧ Kept R w (destroyOwned api w id).2) ∨
    (id ∈ w.objects.map R.id ∧
      Wrote R w (destroyOwned api w id).2 (w.objects.filter fun v => R.id v ≠ id) w.createdBy
        (.destroy id)) := by
  unfold destroyOwned
  split_ifs with hrefused
  · exact Or.inl ⟨failed_call_false w, kept_call w false⟩
  · simp only [Bool.or_eq_true, not_or, Bool.not_eq_true, List.contains_eq_mem,
      Bool.not_eq_false', decide_eq_true_eq] at hrefused
    refine Or.inr ⟨hrefused.2, wrote_of_edit api
      (fun c => removeFromCollection c fun v => R.id v = id)
      (fun hw => (List.filter_sublist.map R.id).nodup hw.ids) fun hw c items hc hitems => ?_⟩
    cases c with
    | none => cases hitems
    | some before =>
      cases hitems
      simpa using (hc before rfl).filter fun v => !decide (R.id v = id)

theorem destroy_cases (w : World T) (id : Text) :
    ((destroy api w id).2.failed = true ∧ Kept R w (destroy api w id).2) ∨
    (id ∉ w.createdBy ∧ Kept R w (destroy api w id).2) ∨
    (id ∈ w.createdBy ∧ id ∈ w.objects.map R.id ∧
      Wrote R w (destroy api w id).2 (w.objects.filter fun v => R.id v ≠ id) w.createdBy
        (.destroy id)) := by
  have hcall : Kept R w (call w true) := kept_call w true
  by_cases hquery : api.fails w.ticks = true
  · have hdestroy : destroy api w id = (false, call w false) := by
      simp [destroy, isCreatedByUser, hquery]
    rw [hdestroy]
    exact Or.inl ⟨failed_call_false w, kept_call w false⟩
  by_cases howned : id ∈ w.createdBy
  · have hdestroy : destroy api w id = destroyOwned api (call w true) id := by
      simp [destroy, isCreatedByUser, hquery, howned]
    rw [hdestroy]
    rcases destroyOwned_cases api (call w true) id with ⟨hfailed, hkept⟩ | ⟨hid, hwrote⟩
    · exact Or.inl ⟨hfailed, hcall.trans hkept⟩
    · exact Or.inr (Or.inr ⟨howned, hid, hcall.wrote hwrote⟩)
  · have hdestroy : destroy api w id = (true, call w true) := by
      simp [destroy, isCreatedByUser, hquery, howned]
    rw [hdestroy]
    exact Or.inr (Or.inl ⟨howned, hcall⟩)

/-! Lookups. -/

theorem firstListed_of_success {w : World T} {p : T → Bool}
    (h : (firstListed api w p).2.failed = false ∨ api.fails w.ticks = false) :
    (firstListed api w p).1 = (api.listing w.objects).find? p := by
  unfold firstListed at h ⊢
  split_ifs at h ⊢ with hfails
  · rcases h with h | h
    · rw [failed_call_false] at h
      cases h
    · cases hfails.symm.trans h
  · exact List.head?_filter

/-- A lookup under a unique key answers as a search of the objects, unless its list call fails. -/
theorem readThrough_eq_find? {w : World T} (hw : Consistent R w) {get : T → Text} (key : Text)
    (hunique : (w.objects.map get).Nodup)
    (hcall : (readThrough api w (findBy get · key) fun v => get v = key).2.failed = false ∨
      api.fails (w.ticks + 1) = false) :
    (readThrough api w (findBy get · key) fun v => get v = key).1 =
      w.objects.find? fun v => get v = key := by
  have hone : ∀ u ∈ w.objects, ∀ v ∈ w.objects, decide (get u = key) = true →
      decide (get v = key) = true → u = v := by
    intro u hu v hv hu' hv'
    exact unique_of_nodup hunique u hu v hv
      ((of_decide_eq_true hu').trans (of_decide_eq_true hv').symm)
  unfold readThrough at hcall ⊢
  dsimp only at hcall ⊢
  cases hfound : findBy get (getCollection api w).cache key with
  | some v =>
    obtain ⟨items, hitems, hv⟩ := Option.bind_eq_some_iff.mp hfound
    have hexcerpt := hw.cache items (cache_of_getCollection api hitems)
    rw [← hexcerpt.find?_or (fun _ _ h => h) hone, hv]
    rfl
  | none =>
    simp only [hfound] at hcall
    rw [firstListed_of_success api hcall]
    exact find?_perm hone (api.listing_perm w.objects)

theorem getByID_eq_find? {w : World T} (hw : Consistent R w) {id : Text} (hid : id ≠ [])
    (hcall : (getByID api w id).2.failed = false ∨ api.fails (w.ticks + 1) = false) :
    (getByID api w id).1 = w.objects.find? fun v => R.id v = id := by
  rw [getByID, if_neg hid] at hcall ⊢
  exact readThrough_eq_find? api hw id hw.ids hcall

/-- A lookup by name finds some current object under the name as it is written or as Nautobot reads
it, if there is one of the latter. -/
theorem getByName_found {w : World T} (hw : Consistent R w) {name : Text}
    (h : (getByName api w name).2.failed = false) :
    (∀ v, (getByName api w name).1 = some v →
      v ∈ w.objects ∧ (R.name v = name ∨ R.name v = api.normalize name)) ∧
    ((getByName api w name).1 = none → ∀ v ∈ w.objects, R.name v ≠ api.normalize name) := by
  unfold getByName readThrough at h ⊢
  dsimp only at h ⊢
  cases hfound : findByName R.name (getCollection api w).cache name with
  | some u =>
    obtain ⟨items, hitems, hu⟩ := Option.bind_eq_some_iff.mp hfound
    have hexcerpt := hw.cache items (cache_of_getCollection api hitems)
    constructor
    · intro v hv
      cases hv
      exact ⟨hexcerpt.subset u (List.mem_of_find?_eq_some hu),
        Or.inl (by simpa using List.find?_some hu)⟩
    · intro hnone
      cases hnone
  | none =>
    simp only [hfound] at h
    have hlisted := firstListed_of_success api (Or.inl h)
    have hperm := api.listing_perm w.objects
    constructor
    · intro v hv
      have hfind := hlisted.symm.trans hv
      exact ⟨hperm.mem_iff.mp (List.mem_of_find?_eq_some hfind),
        Or.inr (by simpa using List.find?_some hfind)⟩
    · intro hnone v hv
      have hfind := List.find?_eq_none.mp (hlisted.symm.trans hnone) v (hperm.mem_iff.mpr hv)
      simpa using hfind

/-! Listings. -/

theorem kept_paginatedList (fuel offset : ℕ) (allResults : List T) (w : World T) :
    Kept R w (paginatedList api fuel offset allResults w).2 := by
  induction fuel generalizing offset allResults w with
  | zero => exact Kept.refl w
  | succ fuel ih =>
    unfold paginatedList
    dsimp only
    split_ifs
    · exact kept_call w false
    · exact kept_call w true
    · exact (kept_call w true).trans (ih _ _ _)

/-- Page after page, the results are those of the listing up to the offset. -/
theorem paginatedList_of_success {fuel offset : ℕ} {allResults : List T} {w : World T}
    (hresults : allResults = (api.listing w.objects).take offset)
    (hfuel : w.objects.length < fuel + offset)
    (h : (paginatedList api fuel offset allResults w).2.failed = false) :
    (paginatedList api fuel offset allResults w).1 = api.listing w.objects := by
  have hlength := (api.listing_perm w.objects).length_eq
  induction fuel generalizing offset allResults w with
  | zero =>
    rw [paginatedList, hresults]
    exact List.take_of_length_le (by omega)
  | succ fuel ih =>
    have hnext : allResults ++ ((api.listing w.objects).drop offset).take defaultPageSize =
        (api.listing w.objects).take (offset + defaultPageSize) := by
      rw [hresults, List.take_add]
    unfold paginatedList at h ⊢
    dsimp only at h ⊢
    rw [hnext] at h ⊢
    split_ifs at h ⊢ with hfails hlast
    · rw [failed_call_false] at h
      cases h
    · apply List.take_of_length_le
      rcases hlast with hall | hempty
      · rw [List.length_take] at hall
        omega
      · rw [List.isEmpty_iff, List.take_eq_nil_iff] at hempty
        have hdrop := hempty.resolve_left (by decide)
        rw [List.drop_eq_nil_iff] at hdrop
        omega
    · refine ih rfl ?_ h hlength
      simp only [call, defaultPageSize]
      omega

theorem kept_listAll (w : World T) : Kept R w (listAll api w).2 := kept_paginatedList api _ _ _ w

theorem listAll_of_success {w : World T} (h : (listAll api w).2.failed = false) :
    (listAll api w).1 = api.listing w.objects :=
  paginatedList_of_success api rfl (by omega) h

theorem mem_of_paginatedList {fuel offset : ℕ} {allResults : List T} {w : World T}
    (hresults : ∀ v ∈ allResults, v ∈ w.objects) :
    ∀ v ∈ (paginatedList api fuel offset allResults w).1, v ∈ w.objects := by
  induction fuel generalizing offset allResults w with
  | zero => exact hresults
  | succ fuel ih =>
    have hnext : ∀ v ∈ allResults ++ ((api.listing w.objects).drop offset).take defaultPageSize,
        v ∈ w.objects := by
      intro v hv
      rcases List.mem_append.mp hv with hv | hv
      · exact hresults v hv
      · exact (api.listing_perm w.objects).mem_iff.mp (List.mem_of_mem_drop (List.mem_of_mem_take hv))
    unfold paginatedList
    dsimp only
    split_ifs
    · exact hresults
    · exact hnext
    · exact ih hnext

/-- Also what is listed before a call fails are objects. -/
theorem mem_of_listAll {w : World T} : ∀ v ∈ (listAll api w).1, v ∈ w.objects :=
  mem_of_paginatedList api fun v hv => by cases hv

/-! Sequences of writes. -/

inductive Action (Req : Type) where
  | create (req : Req)
  | update (id : Text) (req : Req)
  | destroy (id : Text)
  | expire

def act (w : World T) : Action Req → World T
  | .create req => (create api w req).2
  | .update id req => (update api w id req).2
  | .destroy id => (destroy api w id).2
  | .expire => { w with cache := none }

theorem consistent_act {w : World T} (hw : Consistent R w) (action : Action Req) :
    Consistent R (act api w action) := by
  cases action with
  | create req =>
    rcases create_cases api w req with ⟨-, -, hkept⟩ | ⟨-, -, -, hwrote⟩
    · exact hkept.consistent hw
    · exact hwrote.consistent hw
  | update id req =>
    rcases update_cases api w id req with ⟨-, -, hkept⟩ | ⟨old, -, -, -, hwrote⟩
    · exact hkept.consistent hw
    · exact hwrote.consistent hw
  | destroy id =>
    rcases destroy_cases api w id with ⟨-, hkept⟩ | ⟨-, hkept⟩ | ⟨-, -, hwrote⟩
    · exact hkept.consistent hw
    · exact hkept.consistent hw
    · exact hwrote.consistent hw
  | expire => exact ⟨hw.ids, fun items hitems => by cases hitems⟩

theorem consistent_of_subperm {w : World T} (hids : (w.objects.map R.id).Nodup)
    (hcache : ∀ items, w.cache = some items → items.Subperm w.objects) : Consistent R w :=
  ⟨hids, fun items hitems => Excerpt.of_subperm (hcache items hitems) hids⟩

theorem consistent_run {w : World T} (hw : Consistent R w) (actions : List (Action Req)) :
    Consistent R (actions.foldl (act api) w) := by
  induction actions generalizing w with
  | nil => exact hw
  | cons action actions ih => exact ih (consistent_act api hw action)

def pairs : Resource (Text × Text) (Option Text × Text) := ⟨Prod.fst, Prod.snd, Prod.fst⟩

/-- Objects listed in reverse, with a cache that expires once. -/
def pairsApi : Api pairs where
  listing := List.reverse
  listing_perm := List.reverse_perm
  normalize name := name
  newId objects := List.replicate (objects.flatMap Prod.fst).length.succ '0'
  created i req := (i, req.2)
  id_created _ _ := rfl
  updated v req := (v.1, req.2)
  id_updated _ _ := rfl
  accepts _ _ := true
  fails _ := false
  expires n := n = 5
  ranged ids := ids
  ranged_perm := List.Perm.refl

/-- The list call of a lookup, should it make one, succeeds. -/
def ListCallSucceeds (w : World T) : Prop := api.fails (w.ticks + 1) = false

variable {api}

/-- After any writes, refused ones among them, and with the cache expiring at any access, lookups
answer as they do without a cache. -/
theorem lookups_transparent {w : World T} (hids : (w.objects.map R.id).Nodup)
    (hcache : ∀ items, w.cache = some items → items.Subperm w.objects)
    (hexact : ∀ name, api.normalize name = name) (actions : List (Action Req))
    (hcall : ListCallSucceeds api (actions.foldl (act api) w)) :
    let w' := actions.foldl (act api) w
    (∀ id, (getByID api w' id).1 = (getByID api { w' with cache := none } id).1) ∧
      ((w'.objects.map R.name).Nodup → ∀ name,
        (getByName api w' name).1 = (getByName api { w' with cache := none } name).1) := by
  intro w'
  have hw : Consistent R w' := consistent_run api (consistent_of_subperm hids hcache) actions
  have hnone : Consistent R { w' with cache := none } := consistent_act api hw .expire
  constructor
  · intro id
    by_cases hid : id = []
    · rw [getByID, getByID, if_pos hid, if_pos hid]
    · rw [getByID_eq_find? api hw hid (Or.inr hcall), getByID_eq_find? api hnone hid (Or.inr hcall)]
  · intro hnames name
    rw [getByName, getByName, hexact name]
    exact (readThrough_eq_find? api hw name hnames (Or.inr hcall)).trans
      (readThrough_eq_find? api hnone name hnames (Or.inr hcall)).symm

theorem lookups_transparent_rename :
    let w : World (Text × Text) :=
      ⟨[("i".toList, "a".toList), ("j".toList, "b".toList)], ["i".toList],
        some [("j".toList, "b".toList)], 0, [], false⟩
    let w' := [Action.update "j".toList (none, "c".toList), .destroy "i".toList,
      .create (none, "a".toList)].foldl (act pairsApi) w
    (getByID pairsApi w' "j".toList).1 = some ("j".toList, "c".toList) ∧
      (getByName pairsApi w' "b".toList).1 = none := by
  intro w w'
  have hsubperm : ∀ items, w.cache = some items → items.Subperm w.objects := by
    intro items hitems
    cases hitems
    exact (List.sublist_cons_self _ _).subperm
  obtain ⟨hid, hname⟩ := @lookups_transparent _ _ _ pairsApi w (by decide) hsubperm
    (fun _ => rfl) [Action.update "j".toList (none, "c".toList), .destroy "i".toList,
      .create (none, "a".toList)] rfl
  exact ⟨(hid _).trans (by decide), (hname (by decide) _).trans (by decide)⟩

end Understack.Nautobotop.CachedService
