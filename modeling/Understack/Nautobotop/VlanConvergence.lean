import Understack.Nautobotop.VlanSync

/-! When two passes of `VlanSync.SyncAll` over one list settle: what the first leaves is one VLAN per
entry, and the second writes nothing. -/
namespace Understack.Nautobotop.VlanSync
open PyText CachedService CompareJson SyncPass

variable {F : Type} [IntCast F] [DecidableEq F]

/-- The VLAN is that of the entry. -/
def Matches (request : Vlan → VLANRequest F) (vlan : Vlan) (v : VLAN F) : Prop :=
  (vlan.id ≠ [] → v.id = vlan.id) ∧ compareVlan v (request vlan) = true

/-- After a pass there is exactly one VLAN per entry, none that the pass matched or created is
gone, and a second pass writes nothing. -/
structure Converges (api : Api (vlans (F := F))) (refs : References)
    (request : Vlan → VLANRequest F) (w : World (VLAN F)) (desired : List Vlan) : Prop where
  one : ∃ matched, List.Perm matched (syncAll api refs w desired).2.objects ∧
    List.Forall₂ (Matches request) desired matched
  kept : ∃ ids, (syncAll api refs w desired).1 = .ok ids ∧
    ∀ id ∈ ids, id ∈ (syncAll api refs w desired).2.objects.map VLAN.id
  still : (syncAll api refs (syncAll api refs w desired).2 desired).2.writes =
    (syncAll api refs w desired).2.writes

/-- Every entry has an id of its own and finds or makes what it asks for; VLANs under other ids
have names that no entry and no other such VLAN has. -/
structure Settleable (api : Api (vlans (F := F))) (request : Vlan → VLANRequest F)
    (objects : List (VLAN F)) (desired : List Vlan) : Prop where
  ids : ∀ e ∈ desired, e.id ≠ []
  distinct : (desired.map Vlan.id).Nodup
  stored : ∀ e ∈ desired, compareVlan (settledVlan api request objects e) (request e) = true
  others : ∀ v ∈ objects, v.id ∉ desired.map Vlan.id → v.name ∉ desired.map Vlan.name ∧
    ∀ u ∈ objects, u.id ∉ desired.map Vlan.id → u.name = v.name → u = v

variable {api : Api (vlans (F := F))} {refs : References}

section Sweep

omit [DecidableEq F] [IntCast F]

theorem mem_of_obsoleteVlans {objects : List (VLAN F)} {desired : List Vlan} {v : VLAN F}
    (h : v ∈ obsoleteVlans (api.listing objects) desired) :
    v ∈ objects ∧ v.name ∉ desired.map Vlan.name := by
  rw [obsoleteVlans_eq, List.mem_map] at h
  obtain ⟨⟨name, u⟩, hu, rfl⟩ := h
  obtain ⟨hmem, rfl, hname⟩ := SyncById.mem_of_obsolete hu
  exact ⟨hmem, hname⟩

theorem mem_obsoleteVlans_of_alone {objects : List (VLAN F)} {desired : List Vlan} {v : VLAN F}
    (hv : v ∈ objects) (hname : v.name ∉ desired.map Vlan.name)
    (halone : ∀ u ∈ objects, u.name = v.name → u = v) :
    v ∈ obsoleteVlans (api.listing objects) desired := by
  rw [obsoleteVlans_eq, List.mem_map]
  exact ⟨(v.name, v), SyncById.mem_obsolete_of_alone hv hname halone, rfl⟩

theorem obsoleteVlans_one_of_name {objects : List (VLAN F)} {desired : List Vlan} {u v : VLAN F}
    (hu : u ∈ obsoleteVlans objects desired) (hv : v ∈ obsoleteVlans objects desired)
    (hname : u.name = v.name) : u = v := by
  have hfind := (mem_obsoleteVlans.mp hu).1
  rw [hname, (mem_obsoleteVlans.mp hv).1] at hfind
  exact (Option.some.inj hfind).symm

/-- Where all VLANs are the operator's, the sweep removes the obsolete ones. -/
theorem mem_swept {w w' : World (VLAN F)} {desired : List Vlan} (hw : Consistent vlans w)
    (howned : ∀ v ∈ w.objects, v.id ∈ w.createdBy)
    (h : Swept vlans w w'
      (api.ranged ((obsoleteVlans (api.listing w.objects) desired).map VLAN.id))) (v : VLAN F) :
    v ∈ w'.objects ↔ v ∈ w.objects ∧ v ∉ obsoleteVlans (api.listing w.objects) desired := by
  rw [obsoleteVlans_eq, List.map_map] at h
  rw [h.objects, List.mem_filter, decide_eq_true_eq]
  refine and_congr_right fun hv => not_congr ?_
  have hown : vlans.id v ∈ w.createdBy := howned v hv
  rw [and_iff_left hown, obsoleteVlans_eq, List.mem_map]
  refine (SyncById.mem_swept_iff hw.ids hv).trans ⟨fun hgone => ⟨_, hgone, rfl⟩, ?_⟩
  rintro ⟨⟨name, u⟩, hu, rfl⟩
  have hname : vlans.name u = name := SyncById.name_of_obsolete hu
  rw [hname]
  exact hu

end Sweep

omit [DecidableEq F] [IntCast F] in
theorem request_id {e : Vlan} {req : VLANRequest F} (h : vlanRequest refs e = .ok req)
    (hid : e.id ≠ []) : req.id = some e.id ∧ req.name = e.name := by
  obtain ⟨status, -, h⟩ := Runs.bind_eq_ok h
  obtain ⟨role, -, h⟩ := Runs.bind_eq_ok h
  obtain ⟨location, -, h⟩ := Runs.bind_eq_ok h
  cases h
  exact ⟨if_neg hid, rfl⟩

theorem ids_of_matched {request : Vlan → VLANRequest F} {desired : List Vlan}
    {matched : List (VLAN F)} (h : List.Forall₂ (Matches request) desired matched)
    (hne : ∀ e ∈ desired, e.id ≠ []) : matched.map VLAN.id = desired.map Vlan.id := by
  induction h with
  | nil => rfl
  | @cons e v desired matched hmatch hrest ih =>
    rw [List.map_cons, List.map_cons, hmatch.1 (hne e List.mem_cons_self),
      ih fun e he => hne e (List.mem_cons_of_mem _ he)]

theorem exists_matched {request : Vlan → VLANRequest F} {desired : List Vlan}
    {matched : List (VLAN F)} (h : List.Forall₂ (Matches request) desired matched) {e : Vlan}
    (he : e ∈ desired) : ∃ v ∈ matched, Matches request e v := by
  induction h with
  | nil => cases he
  | @cons e' v desired matched hmatch hrest ih =>
    rcases List.mem_cons.mp he with rfl | he
    · exact ⟨v, List.mem_cons_self, hmatch⟩
    · obtain ⟨u, hu, hmatch'⟩ := ih he
      exact ⟨u, List.mem_cons_of_mem v hu, hmatch'⟩

/-! Examples. -/

/-- A Nautobot that returns what it was given, and a cache that expires once. -/
def keepingApi : Api (vlans (F := ℤ)) where
  listing objects := objects
  listing_perm := List.Perm.refl
  normalize name := name
  newId objects := List.replicate (objects.flatMap VLAN.id).length.succ '0'
  created i req := ⟨i, req.name, req.json⟩
  id_created _ _ := rfl
  updated v req := ⟨v.id, req.name, req.json⟩
  id_updated _ _ := rfl
  accepts _ _ := true
  fails _ := false
  expires n := n = 3
  ranged ids := ids
  ranged_perm := List.Perm.refl

def activeRefs : References where
  status name := if name = "Active".toList then some "s".toList else none
  namespaces _ := none
  role _ := none
  rir _ := none
  location _ := none
  vlanGroup _ := none
  vlan _ := none
  vrf _ := none
  tenant _ := none
  tenantGroup _ := none
  tag _ := none

def plainVlan (id name : Text) (vid : ℤ) : Vlan :=
  ⟨id, name, vid, "Active".toList, [], [], [], [], [], [], [], []⟩

def plainRequest (vlan : Vlan) : VLANRequest ℤ :=
  ⟨optionalID vlan.id, Int.bmod vlan.vid (2 ^ 32), vlan.name, none, "s".toList, none, none, none,
    none, [], []⟩

def holding (objects : List (VLAN ℤ)) : World (VLAN ℤ) :=
  ⟨objects, objects.map VLAN.id, none, 0, [], false⟩

theorem plainRequest_eq (id name : Text) (vid : ℤ) :
    vlanRequest activeRefs (plainVlan id name vid) = .ok (plainRequest (plainVlan id name vid)) :=
  rfl

section Passes

variable {request : Vlan → VLANRequest F} {w : World (VLAN F)} {desired : List Vlan}

theorem consistent_of_pass (hrequest : ∀ e ∈ desired, vlanRequest refs e = .ok (request e))
    (hw : Consistent vlans w) (h : (syncAll api refs w desired).2.failed = false) :
    Consistent vlans (syncAll api refs w desired).2 := by
  obtain ⟨ids, w', -, -, hw', hswept⟩ := syncAll_of_success hrequest hw h
  exact hswept.consistent hw'

/-- The VLANs after a pass over entries with ids of their own. -/
theorem objects_of_pass (hrequest : ∀ e ∈ desired, vlanRequest refs e = .ok (request e))
    (hw : Consistent vlans w) (howned : ∀ v ∈ w.objects, v.id ∈ w.createdBy)
    (h : (syncAll api refs w desired).2.failed = false) (hne : ∀ e ∈ desired, e.id ≠ [])
    (hdistinct : (desired.map Vlan.id).Nodup) :
    (syncAll api refs w desired).1 = .ok (desired.map Vlan.id) ∧
    ∃ looped : List (VLAN F), (looped.map VLAN.id).Nodup ∧
      (∀ v, v ∈ looped ↔ (v ∈ w.objects ∧ v.id ∉ desired.map Vlan.id) ∨
        ∃ e ∈ desired, v = settledVlan api request w.objects e) ∧
      ∀ v, v ∈ (syncAll api refs w desired).2.objects ↔
        v ∈ looped ∧ v ∉ obsoleteVlans (api.listing looped) desired := by
  obtain ⟨ids, w', hids, hentries, hw', hswept⟩ := syncAll_of_success hrequest hw h
  obtain ⟨rfl, hobjects⟩ := objects_of_entries hentries hw hdistinct
    fun e he => (request_id (hrequest e he) (hne e he)).1
  have howned' : ∀ v ∈ w'.objects, v.id ∈ w'.createdBy :=
    SyncById.owned_of_entries hentries howned
  exact ⟨hids, w'.objects, hw'.ids, hobjects, mem_swept hw' howned' hswept⟩

/-- Two passes that settle have entries with ids of their own. -/
theorem Converges.ids (h : Converges api refs request w desired)
    (hrequest : ∀ e ∈ desired, vlanRequest refs e = .ok (request e)) (hw : Consistent vlans w)
    (hok : (syncAll api refs (syncAll api refs w desired).2 desired).2.failed = false) :
    (∀ e ∈ desired, e.id ≠ []) ∧ (desired.map Vlan.id).Nodup := by
  have hfirst := consistent_of_pass hrequest hw (failed_before_syncAll hok)
  obtain ⟨ids, w', -, hentries, -, hswept⟩ := syncAll_of_success hrequest hfirst hok
  have hne : ∀ e ∈ desired, e.id ≠ [] :=
    SyncById.ids_of_still hentries hfirst (hswept.still hentries h.still).1
  obtain ⟨matched, hperm, hmatched⟩ := h.one
  refine ⟨hne, ?_⟩
  rw [← ids_of_matched hmatched hne]
  exact (hperm.map VLAN.id).nodup_iff.mpr hfirst.ids

theorem Converges.settleable (h : Converges api refs request w desired)
    (hrequest : ∀ e ∈ desired, vlanRequest refs e = .ok (request e)) (hw : Consistent vlans w)
    (howned : ∀ v ∈ w.objects, v.id ∈ w.createdBy)
    (hok : (syncAll api refs (syncAll api refs w desired).2 desired).2.failed = false) :
    Settleable api request w.objects desired := by
  obtain ⟨hne, hdistinct⟩ := h.ids hrequest hw hok
  obtain ⟨-, looped, hids, hlooped, hfinal⟩ :=
    objects_of_pass hrequest hw howned (failed_before_syncAll hok) hne hdistinct
  obtain ⟨matched, hperm, hmatched⟩ := h.one
  have hmap := ids_of_matched hmatched hne
  -- a VLAN under another id has to be swept
  have hobsolete : ∀ v ∈ w.objects, v.id ∉ desired.map Vlan.id →
      v ∈ obsoleteVlans (api.listing looped) desired := by
    intro v hv hid
    by_contra hnot
    have hmem := (hfinal v).mpr ⟨(hlooped v).mpr (Or.inl ⟨hv, hid⟩), hnot⟩
    rw [← hmap] at hid
    exact hid (List.mem_map_of_mem (hperm.mem_iff.mpr hmem))
  refine ⟨hne, hdistinct, fun e he => ?_, fun v hv hid => ?_⟩
  · obtain ⟨v, hv, hid, hcompare⟩ := exists_matched hmatched he
    have hloop := ((hfinal v).mp (hperm.mem_iff.mp hv)).1
    rcases (hlooped v).mp hloop with ⟨-, hother⟩ | ⟨e', he', rfl⟩
    · rw [hid (hne e he)] at hother
      exact absurd (List.mem_map_of_mem he) hother
    · have hsame : e'.id = e.id := (id_settledVlan hw.ids e').symm.trans (hid (hne e he))
      rw [List.inj_on_of_nodup_map hdistinct he' he hsame] at hcompare
      exact hcompare
  · refine ⟨(mem_of_obsoleteVlans (hobsolete v hv hid)).2, fun u hu huid hname => ?_⟩
    exact obsoleteVlans_one_of_name (hobsolete u hu huid) (hobsolete v hv hid) hname

/-- What an entry leaves has the entry's name. -/
theorem Settleable.name_mem (h : Settleable api request w.objects desired)
    (hrequest : ∀ e ∈ desired, vlanRequest refs e = .ok (request e)) {e : Vlan} (he : e ∈ desired) :
    (settledVlan api request w.objects e).name ∈ desired.map Vlan.name := by
  rw [name_of_compareVlan (h.stored e he), (request_id (hrequest e he) (h.ids e he)).2]
  exact List.mem_map_of_mem he

/-- What stays after a pass is what the entries ask for. -/
theorem Settleable.mem_objects (h : Settleable api request w.objects desired)
    (hrequest : ∀ e ∈ desired, vlanRequest refs e = .ok (request e)) (hw : Consistent vlans w)
    (howned : ∀ v ∈ w.objects, v.id ∈ w.createdBy)
    (hok : (syncAll api refs w desired).2.failed = false) (v : VLAN F) :
    v ∈ (syncAll api refs w desired).2.objects ↔
      ∃ e ∈ desired, v = settledVlan api request w.objects e := by
  obtain ⟨-, looped, -, hlooped, hfinal⟩ :=
    objects_of_pass hrequest hw howned hok h.ids h.distinct
  rw [hfinal v]
  constructor
  · rintro ⟨hv, hkept⟩
    rcases (hlooped v).mp hv with ⟨hmem, hid⟩ | hentry
    · obtain ⟨hv', halone⟩ := h.others v hmem hid
      refine absurd (mem_obsoleteVlans_of_alone hv hv' fun u hu hun => ?_) hkept
      rcases (hlooped u).mp hu with ⟨hmem', hid'⟩ | ⟨e, he, rfl⟩
      · exact halone u hmem' hid' hun
      · exact absurd (hun ▸ h.name_mem hrequest he) hv'
    · exact hentry
  · rintro ⟨e, he, rfl⟩
    refine ⟨(hlooped _).mpr (Or.inr ⟨e, he, rfl⟩), fun hobsolete => ?_⟩
    exact (mem_of_obsoleteVlans hobsolete).2 (h.name_mem hrequest he)

/-- A pass over what the entries ask for writes nothing. -/
theorem Settleable.writes_of_pass (h : Settleable api request w.objects desired)
    (hrequest : ∀ e ∈ desired, vlanRequest refs e = .ok (request e)) (hw : Consistent vlans w)
    {first : World (VLAN F)} (hfirst : Consistent vlans first)
    (hobjects : ∀ v, v ∈ first.objects ↔ ∃ e ∈ desired, v = settledVlan api request w.objects e)
    (hok : (syncAll api refs first desired).2.failed = false) :
    (syncAll api refs first desired).2.writes = first.writes := by
  obtain ⟨ids, w', -, hentries, hw', hswept⟩ := syncAll_of_success hrequest hfirst hok
  have hkept : Kept vlans first w' := SyncById.kept_of_settled hentries hfirst fun e he =>
    ⟨h.ids e he, _, (hobjects _).mpr ⟨e, he, rfl⟩, id_settledVlan hw.ids e, h.stored e he⟩
  have hnone : obsoleteVlans (api.listing w'.objects) desired = [] := by
    rw [List.eq_nil_iff_forall_not_mem]
    intro v hv
    obtain ⟨hmem, hv'⟩ := mem_of_obsoleteVlans hv
    rw [hkept.objects] at hmem
    obtain ⟨e, he, rfl⟩ := (hobjects v).mp hmem
    exact hv' (h.name_mem hrequest he)
  rw [hswept.writes, hkept.writes, hnone, List.map_nil, (api.ranged_perm []).eq_nil]
  simp

theorem Settleable.converges (h : Settleable api request w.objects desired)
    (hrequest : ∀ e ∈ desired, vlanRequest refs e = .ok (request e)) (hw : Consistent vlans w)
    (howned : ∀ v ∈ w.objects, v.id ∈ w.createdBy)
    (hok : (syncAll api refs (syncAll api refs w desired).2 desired).2.failed = false) :
    Converges api refs request w desired := by
  have hok' := failed_before_syncAll hok
  have hids := (objects_of_pass hrequest hw howned hok' h.ids h.distinct).1
  have hfirst := consistent_of_pass hrequest hw hok'
  have hobjects := h.mem_objects hrequest hw howned hok'
  have hmap : (desired.map (settledVlan api request w.objects)).map VLAN.id =
      desired.map Vlan.id := by
    rw [List.map_map]
    exact List.map_congr_left fun e _ => id_settledVlan hw.ids e
  refine ⟨⟨desired.map (settledVlan api request w.objects), ?_, ?_⟩, ⟨_, hids, ?_⟩,
    h.writes_of_pass hrequest hw hfirst hobjects hok⟩
  · rw [List.perm_ext_iff_of_nodup (List.Nodup.of_map VLAN.id (hmap ▸ h.distinct))
      (List.Nodup.of_map VLAN.id hfirst.ids)]
    intro v
    rw [hobjects v, List.mem_map]
    exact ⟨fun ⟨e, he, heq⟩ => ⟨e, he, heq.symm⟩, fun ⟨e, he, heq⟩ => ⟨e, he, heq.symm⟩⟩
  · rw [List.forall₂_map_right_iff, List.forall₂_same]
    exact fun e he => ⟨fun _ => id_settledVlan hw.ids e, h.stored e he⟩
  · intro id hid
    obtain ⟨e, he, rfl⟩ := List.mem_map.mp hid
    exact List.mem_map.mpr ⟨_, (hobjects _).mpr ⟨e, he, rfl⟩, id_settledVlan hw.ids e⟩

/-- Where no call fails and every VLAN is the operator's, two passes settle exactly under the
condition on entries and VLANs. -/
theorem vlans_converge_iff (hids : (w.objects.map VLAN.id).Nodup)
    (hcache : ∀ items, w.cache = some items → items.Subperm w.objects)
    (howned : ∀ v ∈ w.objects, v.id ∈ w.createdBy)
    (hrequest : ∀ e ∈ desired, vlanRequest refs e = .ok (request e))
    (hok : (syncAll api refs (syncAll api refs w desired).2 desired).2.failed = false) :
    Converges api refs request w desired ↔ Settleable api request w.objects desired := by
  have hw : Consistent vlans w := consistent_of_subperm hids hcache
  exact ⟨fun h => h.settleable hrequest hw howned hok,
    fun h => h.converges hrequest hw howned hok⟩

end Passes

theorem vlans_converge_iff_renamed :
    let w := holding [⟨"a".toList, "x".toList, []⟩, ⟨"b".toList, "y".toList, []⟩]
    Converges keepingApi activeRefs plainRequest w
      [plainVlan "b".toList "z".toList 1, plainVlan "c".toList "z".toList 2] := by
  intro w
  refine (vlans_converge_iff (w := w) (by decide) (fun items hitems => by cases hitems)
    (fun v hv => List.mem_map_of_mem hv) ?_ (by decide)).mpr ⟨by decide, by decide, by decide, ?_⟩
  · intro e he
    rcases List.mem_pair.mp he with rfl | rfl
    · exact plainRequest_eq _ _ _
    · exact plainRequest_eq _ _ _
  · intro v hv hid
    rcases List.mem_pair.mp hv with rfl | rfl
    · refine ⟨by decide, fun u hu huid _ => ?_⟩
      rcases List.mem_pair.mp hu with rfl | rfl
      · rfl
      · exact absurd (by decide) huid
    · exact absurd (by decide) hid

/-- An entry without an id is created again by the second pass. -/
theorem vlan_created_twice :
    let w := holding []
    (∀ v ∈ w.objects, v.id ∈ w.createdBy) ∧
      vlanRequest activeRefs (plainVlan [] "x".toList 1) =
        .ok (plainRequest (plainVlan [] "x".toList 1)) ∧
      (syncAll keepingApi activeRefs
        (syncAll keepingApi activeRefs w [plainVlan [] "x".toList 1]).2
        [plainVlan [] "x".toList 1]).2.failed = false ∧
      ¬Converges keepingApi activeRefs plainRequest w [plainVlan [] "x".toList 1] := by
  refine ⟨by decide, rfl, by decide, fun h => ?_⟩
  exact absurd h.still (by decide)

end Understack.Nautobotop.VlanSync
