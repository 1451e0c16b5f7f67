import Understack.Lib.Json
import Understack.Nautobotop.SyncPass

/-! The passes that match an entry with an object by its id alone and remove objects by name. -/
namespace Understack.Nautobotop.SyncById
open PyText CachedService SyncPass

variable {T Req E : Type} {R : Resource T Req}

/-- The object that a lookup by id finds. -/
def found (R : Resource T Req) (entryId : E → Text) (objects : List T) (e : E) : Option T :=
  if entryId e = [] then none else objects.find? fun v => R.id v = entryId e

/-- What an entry finds or makes in Nautobot. -/
def settled (api : Api R) (compare : T → Req → Bool) (request : E → Req) (entryId : E → Text)
    (objects : List T) (e : E) : T :=
  match found R entryId objects e with
  | none => api.created (entryId e) (request e)
  | some v => if compare v (request e) then v else api.updated v (request e)

/-- One turn of the loop. -/
def Turn (api : Api R) (compare : T → Req → Bool) (request : E → Req) (entryId : E → Text) :
    World T → E → Text → World T → Prop :=
  Step api compare (fun objects e existing => existing = found R entryId objects e) request

/-- The last object of each name that no entry has. -/
def obsolete (R : Resource T Req) (existing : List T) (names : List Text) : List (Text × T) :=
  (existing.foldl (fun m v => PyDict.put (R.name v) v m) []).filter fun e => e.1 ∉ names

/-- The removal after the loop; its errors are ignored. -/
def deleteObsolete (api : Api R) (names : List Text) (w : World T) : World T :=
  let (existing, w) := listAll api w
  destroyAll api w (api.ranged ((obsolete R existing names).map fun e => R.id e.2))

/-- A whole pass over entries; `names` are those that the entries have. -/
def pass (api : Api R) (compare : T → Req → Bool) (entryId : E → Text)
    (requestOf : E → Except SyncError Req) (names : List Text) (w : World T) (desired : List E) :
    Except SyncError (List Text) × World T :=
  syncPass (syncSingle api compare (fun w e => getByID api w (entryId e)) requestOf)
    (fun w _ => deleteObsolete api names w) w desired

section Lookup

variable {entryId : E → Text} {objects objects' : List T} {e : E} {v : T}

theorem getByID_eq_found {api : Api R} {w : World T} (hw : Consistent R w)
    (h : (getByID api w (entryId e)).2.failed = false) :
    (getByID api w (entryId e)).1 = found R entryId w.objects e := by
  unfold found
  split_ifs with hid
  · rw [getByID, if_pos hid]
  · exact getByID_eq_find? api hw hid (Or.inl h)

theorem found_eq_some (hids : (objects.map R.id).Nodup) :
    found R entryId objects e = some v ↔
      entryId e ≠ [] ∧ v ∈ objects ∧ R.id v = entryId e := by
  unfold found
  split_ifs with hid
  · simp [hid]
  · rw [(Excerpts.unique_of_nodup hids).find?_eq_some_iff]
    exact ⟨fun h => ⟨hid, h⟩, fun h => h.2⟩

theorem found_congr (hids : (objects.map R.id).Nodup) (hids' : (objects'.map R.id).Nodup)
    (h : ∀ v, R.id v = entryId e → (v ∈ objects' ↔ v ∈ objects)) :
    found R entryId objects' e = found R entryId objects e := by
  ext v
  rw [found_eq_some hids', found_eq_some hids]
  refine and_congr_right fun _ => ?_
  constructor
  · rintro ⟨hv, hid⟩
    exact ⟨(h v hid).mp hv, hid⟩
  · rintro ⟨hv, hid⟩
    exact ⟨(h v hid).mpr hv, hid⟩

end Lookup

section Turns

variable {api : Api R} {compare : T → Req → Bool} {request : E → Req} {entryId : E → Text}

theorem id_settled {objects : List T} (hids : (objects.map R.id).Nodup) (e : E) :
    R.id (settled api compare request entryId objects e) = entryId e := by
  unfold settled
  cases hfound : found R entryId objects e with
  | none => exact api.id_created (entryId e) (request e)
  | some v =>
    have hv := ((found_eq_some hids).mp hfound).2.2
    dsimp only
    split_ifs
    · exact hv
    · exact (api.id_updated v (request e)).trans hv

theorem settled_cases {objects : List T} (hids : (objects.map R.id).Nodup) (e : E) :
    (settled api compare request entryId objects e = api.created (entryId e) (request e) ∧
      ∀ v ∈ objects, R.id v = entryId e → entryId e = []) ∨
    ∃ v ∈ objects, R.id v = entryId e ∧
      ((settled api compare request entryId objects e = v ∧ compare v (request e) = true) ∨
        (settled api compare request entryId objects e = api.updated v (request e) ∧
          compare v (request e) = false)) := by
  unfold settled
  cases hfound : found R entryId objects e with
  | none =>
    refine Or.inl ⟨rfl, fun v hv hid => ?_⟩
    by_contra hne
    rw [(found_eq_some hids).mpr ⟨hne, hv, hid⟩] at hfound
    cases hfound
  | some v =>
    obtain ⟨-, hv, hid⟩ := (found_eq_some hids).mp hfound
    refine Or.inr ⟨v, hv, hid, ?_⟩
    by_cases hsame : compare v (request e) = true
    · exact Or.inl ⟨if_pos hsame, hsame⟩
    · exact Or.inr ⟨if_neg hsame, Bool.eq_false_iff.mpr hsame⟩

/-- An entry with an id leaves its object under that id, and the others alone. -/
theorem Turn.objects {w w' : World T} {e : E} {id : Text}
    (h : Turn api compare request entryId w e id w') (hw : Consistent R w)
    (hrequest : R.requestId (request e) = some (entryId e)) :
    id = entryId e ∧ ∀ v, v ∈ w'.objects ↔ (v ∈ w.objects ∧ R.id v ≠ entryId e) ∨
      v = settled api compare request entryId w.objects e := by
  have hfound := @found_eq_some T Req E R entryId w.objects e
  unfold settled
  obtain ⟨existing, rfl, happlied⟩ := h
  cases happlied with
  | created hnone hid' hnew haccepts hwrote =>
    have hide : id = entryId e := by
      rw [hid', hrequest]
      rfl
    subst hide
    refine ⟨rfl, fun v => ?_⟩
    rw [hwrote.objects, hnone, List.mem_append, List.mem_singleton]
    refine or_congr_left (iff_self_and.mpr fun hv heq => hnew ?_)
    exact heq ▸ List.mem_map_of_mem hv
  | unchanged u hsome hid' hsame hkept =>
    obtain ⟨-, hu, huid⟩ := (hfound hw.ids).mp hsome
    refine ⟨hid'.trans huid, fun v => ?_⟩
    rw [hkept.objects, hsome]
    simp only [hsame, if_true]
    constructor
    · intro hv
      by_cases hvid : R.id v = entryId e
      · exact Or.inr (Excerpts.unique_of_nodup hw.ids v hv u hu (hvid.trans huid.symm))
      · exact Or.inl ⟨hv, hvid⟩
    · rintro (⟨hv, -⟩ | rfl)
      · exact hv
      · exact hu
  | updated u old hsome hid' hchanged hold haccepts hwrote =>
    obtain ⟨-, hu, huid⟩ := (hfound hw.ids).mp hsome
    obtain ⟨hmem, hidold⟩ := (Excerpts.unique_of_nodup hw.ids).find?_eq_some_iff.mp hold
    have heq : old = u := Excerpts.unique_of_nodup hw.ids old hmem u hu (hidold.trans hid')
    subst heq
    refine ⟨hid'.trans huid, fun v => ?_⟩
    rw [hwrote.objects, KeyedTable.mem_replace, hsome]
    simp only [hchanged, Bool.false_eq_true, if_false, api.id_updated]
    rw [huid, or_comm]
    exact or_congr_right ⟨fun h => h.1, fun h => ⟨h, old, hu, huid⟩⟩

/-- The loop leaves an object for every entry and the objects under other ids. -/
theorem objects_of_entries {w w' : World T} {desired : List E} {ids : List Text}
    (h : Entries (Turn api compare request entryId) w desired ids w') (hw : Consistent R w)
    (hdistinct : (desired.map entryId).Nodup)
    (hrequest : ∀ e ∈ desired, R.requestId (request e) = some (entryId e)) :
    ids = desired.map entryId ∧ ∀ v, v ∈ w'.objects ↔
      (v ∈ w.objects ∧ R.id v ∉ desired.map entryId) ∨
        ∃ e ∈ desired, v = settled api compare request entryId w.objects e := by
  induction h with
  | nil w => simp
  | @cons w w₁ w' entry entries id ids hstep hrest ih =>
    obtain ⟨hnot, hdistinct⟩ := List.nodup_cons.mp hdistinct
    have hw₁ : Consistent R w₁ := Step.consistent hstep hw
    obtain ⟨hid, hfirst⟩ := Turn.objects hstep hw (hrequest entry List.mem_cons_self)
    obtain ⟨hids, hobjects⟩ := ih hw₁ hdistinct
      fun e he => hrequest e (List.mem_cons_of_mem entry he)
    refine ⟨by rw [hid, hids, List.map_cons], fun v => ?_⟩
    -- the first entry does not touch what the others find
    have hsettled : ∀ e ∈ entries, settled api compare request entryId w₁.objects e =
        settled api compare request entryId w.objects e := by
      intro e he
      have hother : entryId e ≠ entryId entry := fun heq => hnot (heq ▸ List.mem_map_of_mem he)
      have hsame : found R entryId w₁.objects e = found R entryId w.objects e := by
        refine found_congr hw.ids hw₁.ids fun u hu => ?_
        rw [hfirst]
        constructor
        · rintro (⟨hmem, -⟩ | rfl)
          · exact hmem
          · exact absurd (hu.symm.trans (id_settled hw.ids entry)) hother
        · exact fun hmem => Or.inl ⟨hmem, hu ▸ hother⟩
      rw [settled, settled, hsame]
    have hexists : (∃ e ∈ entries, v = settled api compare request entryId w₁.objects e) ↔
        ∃ e ∈ entries, v = settled api compare request entryId w.objects e :=
      exists_congr fun e => and_congr_right fun he => by rw [hsettled e he]
    rw [hobjects, hexists, hfirst, List.map_cons, List.mem_cons, not_or]
    constructor
    · rintro (⟨⟨hmem, hne'⟩ | rfl, hrest'⟩ | ⟨e, he, rfl⟩)
      · exact Or.inl ⟨hmem, hne', hrest'⟩
      · exact Or.inr ⟨entry, List.mem_cons_self, rfl⟩
      · exact Or.inr ⟨e, List.mem_cons_of_mem entry he, rfl⟩
    · rintro (⟨hmem, hne', hrest'⟩ | ⟨e, he, rfl⟩)
      · exact Or.inl ⟨Or.inl ⟨hmem, hne'⟩, hrest'⟩
      · rcases List.mem_cons.mp he with rfl | he
        · exact Or.inl ⟨Or.inr rfl, by rwa [id_settled hw.ids]⟩
        · exact Or.inr ⟨e, he, rfl⟩

theorem owned_of_entries {w w' : World T} {desired : List E} {ids : List Text}
    (h : Entries (Turn api compare request entryId) w desired ids w')
    (howned : ∀ v ∈ w.objects, R.id v ∈ w.createdBy) :
    ∀ v ∈ w'.objects, R.id v ∈ w'.createdBy :=
  h.invariant (fun _ _ _ _ ⟨_, _, happlied⟩ hown => happlied.owned hown) howned

/-- A key that Nautobot keeps unique stays unique. -/
theorem unique_of_entries {κ : Type} {key : T → κ}
    (haccepts : ∀ others v, api.accepts others v = true → ∀ u ∈ others, key u ≠ key v)
    {w w' : World T} {desired : List E} {ids : List Text}
    (h : Entries (Turn api compare request entryId) w desired ids w')
    (hw : KeyedTable.Unique key w.objects) : KeyedTable.Unique key w'.objects :=
  h.invariant (I := fun w => KeyedTable.Unique key w.objects)
    (fun _ _ _ _ ⟨_, _, happlied⟩ hu => happlied.unique haccepts hu) hw

/-! An entry without an id makes an object of its own. -/

/-- A turn leaves an object that is not under the entry's id. -/
theorem Turn.keeps {w w' : World T} {e : E} {id : Text}
    (h : Turn api compare request entryId w e id w') (hw : Consistent R w) {v : T}
    (hv : v ∈ w.objects) (hid : R.id v ≠ entryId e) : v ∈ w'.objects := by
  obtain ⟨existing, hfound, happlied⟩ := h
  refine (happlied.others fun heq => ?_).mpr hv
  cases existing with
  | none => exact happlied.id_of_none.2 (heq ▸ List.mem_map_of_mem hv)
  | some u =>
    have hu := ((found_eq_some hw.ids).mp hfound.symm).2.2
    exact hid (heq.trans (happlied.id_of_some.trans hu))

theorem keeps_of_entries {w w' : World T} {desired : List E} {ids : List Text}
    (h : Entries (Turn api compare request entryId) w desired ids w') (hw : Consistent R w) {v : T}
    (hv : v ∈ w.objects) (hid : R.id v ∉ desired.map entryId) : v ∈ w'.objects := by
  induction h with
  | nil w => exact hv
  | @cons w w₁ w' e entries i ids hstep hrest ih =>
    rw [List.map_cons, List.mem_cons, not_or] at hid
    exact ih (Step.consistent hstep hw) (Turn.keeps hstep hw hv hid.1) hid.2

section Unnamed

variable {entryName : E → Text} (hcreated : ∀ id e, R.name (api.created id (request e)) = entryName e)

include hcreated

theorem exists_created_of_entries {declared : List Text}
    (hnew : ∀ objects, api.newId objects ∉ declared) {w w' : World T} {desired : List E}
    {ids : List Text} (h : Entries (Turn api compare request entryId) w desired ids w')
    (hw : Consistent R w) (hdeclared : ∀ e ∈ desired, entryId e ∈ declared) {e : E}
    (he : e ∈ desired) (hnone : entryId e = []) (hrequest : R.requestId (request e) = none) :
    ∃ v ∈ w'.objects, R.name v = entryName e ∧ R.id v ∉ declared := by
  induction h with
  | nil w => cases he
  | @cons w w₁ w' entry entries i ids hstep hrest ih =>
    have hrest' : ∀ e ∈ entries, entryId e ∈ declared := fun e he =>
      hdeclared e (List.mem_cons_of_mem entry he)
    rcases List.mem_cons.mp he with rfl | he
    · obtain ⟨existing, hfound, happlied⟩ := id hstep
      rw [found, if_pos hnone] at hfound
      cases happlied with
      | created _ hid _ _ hwrote =>
        rw [hrequest, Option.getD_none] at hid
        have hfresh : R.id (api.created i (request e)) ∉ declared := by
          rw [api.id_created, hid]
          exact hnew w.objects
        refine ⟨api.created i (request e), ?_, hcreated i e, hfresh⟩
        apply keeps_of_entries hrest (Step.consistent hstep hw)
        · rw [hwrote.objects]
          exact List.mem_append_right _ List.mem_cons_self
        · intro hmem
          obtain ⟨e', he', heq⟩ := List.mem_map.mp hmem
          exact hfresh (heq ▸ hrest' e' he')
      | unchanged u hsome => cases hfound.symm.trans hsome
      | updated u old hsome => cases hfound.symm.trans hsome
    · exact ih (Step.consistent hstep hw) hrest' he

/-- Where names are unique, an entry without an id is refused once there is an object of its name. -/
theorem entryId_ne_nil_of_entries
    (haccepts : ∀ others v, api.accepts others v = true → ∀ u ∈ others, R.name u ≠ R.name v)
    {w w' : World T} {desired : List E} {ids : List Text}
    (h : Entries (Turn api compare request entryId) w desired ids w') (hw : Consistent R w) {e : E}
    (he : e ∈ desired) {v : T} (hv : v ∈ w.objects) (hname : R.name v = entryName e)
    (hid : R.id v ∉ desired.map entryId) : entryId e ≠ [] := by
  induction h with
  | nil w => cases he
  | @cons w w₁ w' entry entries i ids hstep hrest ih =>
    rw [List.map_cons, List.mem_cons, not_or] at hid
    rcases List.mem_cons.mp he with rfl | he
    · intro hnone
      obtain ⟨existing, hfound, happlied⟩ := hstep
      rw [found, if_pos hnone] at hfound
      cases happlied with
      | created _ _ _ haccepted =>
        exact haccepts _ _ haccepted v hv (hname.trans (hcreated i e).symm)
      | unchanged u hsome => cases hfound.symm.trans hsome
      | updated u old hsome => cases hfound.symm.trans hsome
    · exact ih (Step.consistent hstep hw) he (Turn.keeps hstep hw hv hid.1) hid.2

end Unnamed

/-- A loop over objects that every entry finds as it asks for changes nothing. -/
theorem kept_of_settled {w w' : World T} {desired : List E} {ids : List Text}
    (h : Entries (Turn api compare request entryId) w desired ids w') (hw : Consistent R w)
    (hsame : ∀ e ∈ desired, entryId e ≠ [] ∧
      ∃ v ∈ w.objects, R.id v = entryId e ∧ compare v (request e) = true) : Kept R w w' := by
  refine (kept_of_entries (P := fun _ _ => True) h
    fun e he w₁ id w₂ hobjects hturn => ⟨?_, trivial⟩).1
  obtain ⟨existing, hfound, happlied⟩ := hturn
  obtain ⟨hne, v, hv, hid, hcompare⟩ := hsame e he
  rw [hobjects, (found_eq_some hw.ids).mpr ⟨hne, hv, hid⟩] at hfound
  rw [hfound] at happlied
  exact happlied.kept hcompare

end Turns

section Sweep

variable {existing objects : List T} {names : List Text} {name : Text} {v : T}

theorem lookup_existingMap (name : Text) :
    (existing.foldl (fun m v => PyDict.put (R.name v) v m) []).lookup name =
      existing.reverse.find? fun u => R.name u = name := by
  rw [PyDict.lookup_foldl_put R.name (fun v => v)]
  simp

theorem nodup_keys_obsolete : ((obsolete R existing names).map Prod.fst).Nodup := by
  have hkeys := PyDict.nodup_keys_foldl_put R.name (fun v : T => v) existing
    (d := ([] : List (Text × T))) List.nodup_nil
  exact hkeys.sublist (List.Sublist.map Prod.fst List.filter_sublist)

theorem mem_obsolete : (name, v) ∈ obsolete R existing names ↔
    (existing.reverse.find? fun u => R.name u = name) = some v ∧ name ∉ names := by
  have hkeys := PyDict.nodup_keys_foldl_put R.name (fun v : T => v) existing
    (d := ([] : List (Text × T))) List.nodup_nil
  rw [obsolete, List.mem_filter, decide_eq_true_eq, ← lookup_existingMap name]
  exact and_congr_left fun _ => ⟨PyDict.lookup_of_mem hkeys, PyDict.mem_of_lookup⟩

theorem name_of_obsolete (h : (name, v) ∈ obsolete R existing names) : R.name v = name := by
  simpa using List.find?_some (mem_obsolete.mp h).1

theorem mem_of_obsolete {api : Api R} (h : (name, v) ∈ obsolete R (api.listing objects) names) :
    v ∈ objects ∧ R.name v = name ∧ name ∉ names := by
  have hmem := List.mem_reverse.mp (List.mem_of_find?_eq_some (mem_obsolete.mp h).1)
  exact ⟨(api.listing_perm objects).mem_iff.mp hmem, name_of_obsolete h, (mem_obsolete.mp h).2⟩

/-- The only object of a name that no entry has is obsolete. -/
theorem mem_obsolete_of_alone {api : Api R} (hv : v ∈ objects) (hname : R.name v ∉ names)
    (halone : ∀ u ∈ objects, R.name u = R.name v → u = v) :
    (R.name v, v) ∈ obsolete R (api.listing objects) names := by
  refine mem_obsolete.mpr ⟨?_, hname⟩
  have hperm := (List.reverse_perm _).trans (api.listing_perm objects)
  apply Excerpts.find?_eq_some_of_one
  · intro u hu u' hu' hun hun'
    rw [halone u (hperm.mem_iff.mp hu) (of_decide_eq_true hun),
      halone u' (hperm.mem_iff.mp hu') (of_decide_eq_true hun')]
  · exact hperm.mem_iff.mpr hv
  · exact decide_eq_true rfl

/-- Where names are unique, what is obsolete are the objects of the names that no entry has. -/
theorem mem_obsolete_of_unique {api : Api R} (hnames : KeyedTable.Unique R.name objects) :
    (name, v) ∈ obsolete R (api.listing objects) names ↔
      v ∈ objects ∧ R.name v = name ∧ name ∉ names := by
  refine ⟨mem_of_obsolete, fun ⟨hv, hname, hnot⟩ => ?_⟩
  rw [← hname]
  exact mem_obsolete_of_alone hv (hname ▸ hnot) fun u hu heq => hnames u hu v hv heq

theorem failed_before_deleteObsolete {api : Api R} {w : World T}
    (h : (deleteObsolete api names w).failed = false) : w.failed = false :=
  (kept_listAll api w).failed (failed_of_destroyAll h)

theorem swept_deleteObsolete {api : Api R} {w : World T}
    (h : (deleteObsolete api names w).failed = false) :
    Swept R w (deleteObsolete api names w)
      (api.ranged ((obsolete R (api.listing w.objects) names).map fun e => R.id e.2)) := by
  have hlist : (listAll api w).2.failed = false := failed_of_destroyAll h
  have hswept : Swept R (listAll api w).2 (deleteObsolete api names w)
      (api.ranged ((obsolete R (listAll api w).1 names).map fun e => R.id e.2)) :=
    swept_destroyAll h
  rw [listAll_of_success api hlist] at hswept
  exact hswept.of_kept (kept_listAll api w)

/-- The id of an object is swept where the object is obsolete. -/
theorem mem_swept_iff {api : Api R} (hids : (objects.map R.id).Nodup) (hv : v ∈ objects) :
    R.id v ∈ api.ranged ((obsolete R (api.listing objects) names).map fun e => R.id e.2) ↔
      (R.name v, v) ∈ obsolete R (api.listing objects) names := by
  rw [(api.ranged_perm _).mem_iff, List.mem_map]
  constructor
  · rintro ⟨⟨name, u⟩, hu, heq⟩
    obtain ⟨hmem, hname, -⟩ := mem_of_obsolete hu
    have huv := Excerpts.unique_of_nodup hids u hmem v hv heq
    rw [← huv, hname]
    exact hu
  · exact fun h => ⟨_, h, rfl⟩

end Sweep

/-- The ids of a loop that writes nothing. -/
theorem ids_of_still {api : Api R} {compare : T → Req → Bool} {request : E → Req}
    {entryId : E → Text} {w w' : World T} {desired : List E} {ids : List Text}
    (h : Entries (Turn api compare request entryId) w desired ids w') (hw : Consistent R w)
    (hstill : w'.writes = w.writes) : ∀ e ∈ desired, entryId e ≠ [] := by
  intro e he
  obtain ⟨v, hfound, -⟩ := same_of_entries h hstill e he
  exact ((found_eq_some hw.ids).mp hfound.symm).1

section Pass

variable {api : Api R} {compare : T → Req → Bool} {request : E → Req} {entryId : E → Text}
  {requestOf : E → Except SyncError Req} {names : List Text} {w : World T} {desired : List E}

theorem failed_before_pass
    (h : (pass api compare entryId requestOf names w desired).2.failed = false) :
    w.failed = false := by
  refine failed_before_syncPass ?_ ?_ h
  · exact fun w e => kept_getByID api w (entryId e)
  · exact fun w _ hf => failed_before_deleteObsolete hf

/-- A pass without failures is a loop and a sweep. -/
theorem swept_of_pass (hrequest : ∀ e ∈ desired, requestOf e = .ok (request e))
    (hw : Consistent R w)
    (h : (pass api compare entryId requestOf names w desired).2.failed = false) :
    ∃ ids w', (pass api compare entryId requestOf names w desired).1 = .ok ids ∧
      Entries (Turn api compare request entryId) w desired ids w' ∧ Consistent R w' ∧
      Swept R w' (pass api compare entryId requestOf names w desired).2
        (api.ranged ((obsolete R (api.listing w'.objects) names).map fun e => R.id e.2)) := by
  obtain ⟨ids, w', hpass, hentries, hw'⟩ : ∃ ids w',
      pass api compare entryId requestOf names w desired =
        (.ok ids, deleteObsolete api names w') ∧
      Entries (Turn api compare request entryId) w desired ids w' ∧ Consistent R w' := by
    refine pass_of_success ?_ ?_ ?_ hrequest hw h
    · exact fun w e => kept_getByID api w (entryId e)
    · exact fun w e hw hf => getByID_eq_found hw hf
    · exact fun w _ hf => failed_before_deleteObsolete hf
  rw [hpass] at h ⊢
  exact ⟨ids, w', rfl, hentries, hw', swept_deleteObsolete h⟩

end Pass

end Understack.Nautobotop.SyncById
