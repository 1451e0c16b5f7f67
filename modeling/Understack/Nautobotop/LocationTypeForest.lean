import Mathlib.Data.List.Count
import Understack.Nautobotop.LocationTypeSync

/-! When a pass of `LocationTypeSync.SyncAll` leaves the declared forest: what the removal of
obsolete location types takes away, and which stored values no request can unset. -/
namespace Understack.Nautobotop.LocationTypes
open PyText CachedService SyncPass

/-! The removal of obsolete location types. -/

variable {api : Api locationTypes} {obsolete : Obsolete}

/-- From one state to the next only obsolete location types were destroyed, those that are newly
marked as deleted among them. -/
def Removed (api : Api locationTypes) (obsolete : Obsolete)
    (s s' : World LocationType × List Text) : Prop :=
  ∃ order, s'.1 = destroyAll api s.1 order ∧ (∀ id ∈ order, ∃ e ∈ obsolete, e.2.id = id) ∧
    s.2 ⊆ s'.2 ∧ ∀ name ∈ s'.2, name ∈ s.2 ∨ ∃ v, (name, v) ∈ obsolete ∧ v.id ∈ order

theorem Removed.refl (s : World LocationType × List Text) : Removed api obsolete s s :=
  ⟨[], rfl, fun _ hid => absurd hid List.not_mem_nil, fun _ h => h, fun _ h => Or.inl h⟩

theorem Removed.trans {s s' s'' : World LocationType × List Text} (h : Removed api obsolete s s')
    (h' : Removed api obsolete s' s'') : Removed api obsolete s s'' := by
  obtain ⟨order, hw, hids, hsub, hnames⟩ := h
  obtain ⟨order', hw', hids', hsub', hnames'⟩ := h'
  refine ⟨order ++ order', ?_, fun id hid => ?_, fun _ hn => hsub' (hsub hn), fun name hname => ?_⟩
  · rw [hw', hw, destroyAll, destroyAll, destroyAll, List.foldl_append]
  · rcases List.mem_append.mp hid with hid | hid
    · exact hids id hid
    · exact hids' id hid
  · rcases hnames' name hname with hold | ⟨v, hv, hid⟩
    · rcases hnames name hold with hold | ⟨v, hv, hid⟩
      · exact Or.inl hold
      · exact Or.inr ⟨v, hv, List.mem_append_left _ hid⟩
    · exact Or.inr ⟨v, hv, List.mem_append_right _ hid⟩

/-- Parents lie less deep. -/
def Acyclic (objects : List LocationType) : Prop :=
  ∃ depth : Text → ℕ, ∀ v ∈ objects, ∀ parent, v.parent = some parent → depth parent < depth v.id

/-- The number of obsolete location types that are not less deep. -/
def height (depth : Text → ℕ) (obsolete : Obsolete) (v : LocationType) : ℕ :=
  obsolete.countP fun e => depth v.id ≤ depth e.2.id

theorem mem_childrenMap (hkeys : (obsolete.map Prod.fst).Nodup) {name child : Text}
    {v : LocationType} (hv : (name, v) ∈ obsolete) (h : child ∈ childrenMap api obsolete name) :
    ∃ u, (child, u) ∈ obsolete ∧ u.parent = some v.id := by
  rw [childrenMap, (api.ranged_perm _).mem_iff] at h
  obtain ⟨⟨child', u⟩, hu, rfl⟩ := List.mem_map.mp h
  obtain ⟨hmem, hparent⟩ := List.mem_filter.mp hu
  obtain ⟨parent, hu', hname⟩ := Option.bind_eq_some_iff.mp (of_decide_eq_true hparent)
  obtain ⟨⟨name', v'⟩, hfind, rfl⟩ := Option.map_eq_some_iff.mp hname
  have hid : v'.id = parent := by simpa using List.find?_some hfind
  have hlookup := PyDict.lookup_of_mem hkeys (List.mem_of_find?_eq_some hfind)
  rw [PyDict.lookup_of_mem hkeys hv] at hlookup
  cases hlookup
  exact ⟨u, hmem, hu'.trans (congrArg some hid.symm)⟩

theorem height_lt {depth : Text → ℕ} {name : Text} {u v : LocationType} (hv : (name, v) ∈ obsolete)
    (hdepth : depth v.id < depth u.id) : height depth obsolete u < height depth obsolete v := by
  rw [height, height, List.countP_eq_length_filter (p := fun e => decide (depth v.id ≤ _))]
  have hfilter : obsolete.countP (fun e => depth u.id ≤ depth e.2.id) =
      (obsolete.filter fun e => depth v.id ≤ depth e.2.id).countP
        fun e => depth u.id ≤ depth e.2.id := by
    rw [List.countP_filter]
    refine List.countP_congr fun e _ => ?_
    simp only [decide_eq_true_eq, Bool.and_eq_true]
    omega
  rw [hfilter, List.countP_lt_length_iff]
  exact ⟨_, List.mem_filter.mpr ⟨hv, by simp⟩, by simpa using hdepth⟩

/-- What returns has destroyed obsolete location types only, that of the name among them. -/
theorem removed_deleteLocationTypeRecursive {fuel : ℕ} {name : Text}
    {s s' : World LocationType × List Text}
    (h : deleteLocationTypeRecursive api obsolete fuel s name = some s') :
    Removed api obsolete s s' ∧ (name ∈ obsolete.map Prod.fst → name ∈ s'.2) := by
  induction fuel generalizing name s s' with
  | zero => cases h
  | succ fuel ih =>
    obtain ⟨w, deleted⟩ := s
    rw [deleteLocationTypeRecursive] at h
    split_ifs at h with hdeleted
    · cases h
      exact ⟨Removed.refl _, fun _ => hdeleted⟩
    · obtain ⟨⟨w', deleted'⟩, hchildren, rfl⟩ := Option.map_eq_some_iff.mp h
      have hremoved := (Runs.foldlM_invariant (P := Removed api obsolete) (Q := fun _ _ => True)
        Removed.refl (fun _ _ _ h h' => h.trans h') (fun _ _ _ _ _ => trivial)
        (fun child _ s s' hchild => ⟨(ih hchild).1, trivial⟩) hchildren).1
      dsimp only
      cases hlookup : obsolete.lookup name with
      | none =>
        refine ⟨hremoved, fun hname => ?_⟩
        obtain ⟨e, he, rfl⟩ := List.mem_map.mp hname
        have hne := List.lookup_eq_none_iff.mp hlookup e he
        simp at hne
      | some v =>
        have hv := PyDict.mem_of_lookup hlookup
        refine ⟨hremoved.trans ⟨[v.id], rfl, ?_, List.subset_cons_self _ _, ?_⟩,
          fun _ => List.mem_cons_self⟩
        · exact fun id hid => ⟨_, hv, (List.mem_singleton.mp hid).symm⟩
        · intro n hn
          rcases List.mem_cons.mp hn with rfl | hn
          · exact Or.inr ⟨v, hv, List.mem_cons_self⟩
          · exact Or.inl hn

/-- A name is deleted with enough fuel for the location types below it. -/
theorem returns_deleteLocationTypeRecursive {depth : Text → ℕ}
    (hkeys : (obsolete.map Prod.fst).Nodup)
    (hdepth : ∀ e ∈ obsolete, ∀ parent, e.2.parent = some parent → depth parent < depth e.2.id)
    {fuel : ℕ} {name : Text} {v : LocationType} (hv : (name, v) ∈ obsolete)
    (hfuel : height depth obsolete v < fuel) (s : World LocationType × List Text) :
    ∃ s', deleteLocationTypeRecursive api obsolete fuel s name = some s' := by
  induction fuel generalizing name v s with
  | zero => omega
  | succ fuel ih =>
    obtain ⟨w, deleted⟩ := s
    rw [deleteLocationTypeRecursive]
    split_ifs with hdeleted
    · exact ⟨_, rfl⟩
    · obtain ⟨s', hchildren⟩ := Runs.foldlM_returns
        (f := deleteLocationTypeRecursive api obsolete fuel)
        (l := childrenMap api obsolete name) (fun child hchild s => by
          obtain ⟨u, hu, hparent⟩ := mem_childrenMap hkeys hv hchild
          refine ih hu (lt_of_lt_of_le (height_lt hv ?_) (Nat.lt_succ_iff.mp hfuel)) s
          exact hdepth _ hu _ hparent) (w, deleted)
      exact ⟨_, congrArg (Option.map _) hchildren⟩

/-- A removal that returns has destroyed what is obsolete and nothing else. -/
theorem removed_deleteLocationTypesWithDependencies (hkeys : (obsolete.map Prod.fst).Nodup)
    {w w' : World LocationType}
    (h : deleteLocationTypesWithDependencies api w obsolete = some w') :
    ∃ order, w' = destroyAll api w order ∧ ∀ id, id ∈ order ↔ ∃ e ∈ obsolete, e.2.id = id := by
  obtain ⟨⟨w', deleted⟩, hloop, rfl⟩ := Option.map_eq_some_iff.mp h
  obtain ⟨⟨order, hw', hids, -, hnames⟩, hall⟩ :=
    Runs.foldlM_invariant (P := Removed api obsolete)
      (Q := fun name s => name ∈ obsolete.map Prod.fst → name ∈ s.2) Removed.refl
      (fun _ _ _ h h' => h.trans h')
      (fun name s s' h hname hmem => h.choose_spec.2.2.1 (hname hmem))
      (fun name _ s s' hname => removed_deleteLocationTypeRecursive hname) hloop
  refine ⟨order, hw', fun id => ⟨hids id, ?_⟩⟩
  rintro ⟨⟨name, v⟩, hv, rfl⟩
  have hmem : name ∈ obsolete.map Prod.fst := List.mem_map_of_mem hv
  rcases hnames name (hall name ((api.ranged_perm _).mem_iff.mpr hmem) hmem) with
    hnil | ⟨u, hu, hid⟩
  · cases hnil
  · have hlookup := PyDict.lookup_of_mem hkeys hu
    rw [PyDict.lookup_of_mem hkeys hv] at hlookup
    cases hlookup
    exact hid

theorem returns_deleteLocationTypesWithDependencies (hkeys : (obsolete.map Prod.fst).Nodup)
    (hacyclic : Acyclic (obsolete.map Prod.snd)) (w : World LocationType) :
    ∃ w', deleteLocationTypesWithDependencies api w obsolete = some w' := by
  obtain ⟨depth, hdepth⟩ := hacyclic
  obtain ⟨s, hloop⟩ := Runs.foldlM_returns
    (f := deleteLocationTypeRecursive api obsolete (obsolete.length + 1))
    (l := api.ranged (obsolete.map Prod.fst)) (fun name hname s => by
      rw [(api.ranged_perm _).mem_iff] at hname
      obtain ⟨⟨name, v⟩, hv, rfl⟩ := List.mem_map.mp hname
      refine returns_deleteLocationTypeRecursive hkeys
        (fun e he => hdepth e.2 (List.mem_map_of_mem he)) hv ?_ s
      exact Nat.lt_succ_iff.mpr List.countP_le_length) (w, [])
  exact ⟨s.1, congrArg (Option.map Prod.fst) hloop⟩

/-! The property and its condition. -/

/-- An update sets what a request has and leaves the rest; content types are kept in some order. -/
structure Sets (old : LocationType) (req : LocationTypeRequest) (v : LocationType) : Prop where
  name : v.name = req.name
  description : v.description = req.description
  nestable : v.nestable = req.nestable
  contentTypes : v.contentTypes.Perm (req.contentTypes.getD old.contentTypes)
  parent : v.parent = req.parent.or old.parent

/-- A new location type before its request is read. -/
def blank : LocationType := ⟨[], [], [], [], false, none⟩

/-- Nautobot stores what a request has, and refuses a name that is taken. -/
structure Stores (api : Api locationTypes) : Prop where
  created : ∀ id req, Sets blank req (api.created id req)
  updated : ∀ v req, Sets v req (api.updated v req)
  names : ∀ others v, api.accepts others v = true → ∀ u ∈ others, u.name ≠ v.name

/-- The location type is the declared one, its parent aside. -/
structure Declares (fields : Fields) (v : LocationType) : Prop where
  id : fields.id ≠ [] → v.id = fields.id
  name : v.name = fields.name
  description : v.description = fields.description
  contentTypes : v.contentTypes.Perm (fields.contentTypes.getD [])
  nestable : v.nestable = fields.nestable

mutual

/-- The location type and those below it are there, each under its declared parent. -/
def Mirrored (objects : List LocationType) (parent : Option Text) : LocationTypeYaml → Prop
  | .node fields children => ∃ v ∈ objects, Declares fields v ∧ v.parent = parent ∧
      MirroredAll objects (some v.id) children
termination_by structural l => l

def MirroredAll (objects : List LocationType) (parent : Option Text) :
    List LocationTypeYaml → Prop
  | [] => True
  | l :: forest => Mirrored objects parent l ∧ MirroredAll objects parent forest
termination_by structural forest => forest

end

/-- After a pass the location types are those of the forest and no others, and a second pass writes
nothing. -/
def Mirrors (api : Api locationTypes) (w : World LocationType) (forest : List LocationTypeYaml) :
    Prop :=
  ∃ first, syncAll api w forest = some (.ok (), first) ∧
    (first.objects.map LocationType.name).Perm (collectAll forest) ∧
    MirroredAll first.objects none forest ∧
    ∃ second, syncAll api first forest = some (.ok (), second) ∧ second.writes = first.writes

/-- No call of a pass fails. -/
structure Succeeds (api : Api locationTypes) (w : World LocationType)
    (forest : List LocationTypeYaml) : Prop where
  loop : (syncLocationTypes api none w forest).2.failed = false
  removal : ∀ w', deleteObsoleteLocationTypes api (syncLocationTypes api none w forest).2 forest =
    some w' → w'.failed = false

/-- Every declared location type has an id, no declared root has a parent in Nautobot, and what is
declared without content types has none there. -/
structure Settleable (objects : List LocationType) (forest : List LocationTypeYaml) : Prop where
  ids : ∀ e ∈ placedAll none forest, e.1.id ≠ []
  roots : ∀ e ∈ placedAll none forest, e.2 = none →
    ∀ v ∈ objects, v.id = e.1.id → v.parent = none
  contentTypes : ∀ e ∈ placedAll none forest, e.1.contentTypes = none →
    ∀ v ∈ objects, v.id = e.1.id → v.contentTypes = []

mutual

theorem collectAllLocationTypes_eq (parent : Option Text) :
    ∀ l, collectAllLocationTypes l = (placed parent l).map fun e => e.1.name
  | .node fields children => by
    rw [collectAllLocationTypes, placed, List.map_cons, collectAll_eq (some fields.id) children]
termination_by structural l => l

theorem collectAll_eq (parent : Option Text) :
    ∀ forest, collectAll forest = (placedAll parent forest).map fun e => e.1.name
  | [] => rfl
  | l :: forest => by
    rw [collectAll, placedAll, List.map_append, collectAllLocationTypes_eq parent l,
      collectAll_eq parent forest]
termination_by structural forest => forest

end

/-- The object of a declared location type, with its parent. -/
def Stands (objects : List LocationType) (e : Placed) : Prop :=
  ∃ v ∈ objects, v.id = e.1.id ∧ Declares e.1 v ∧ v.parent = e.2

mutual

theorem mirrored_iff (objects : List LocationType) (parent : Option Text) :
    ∀ l, (∀ e ∈ placed parent l, e.1.id ≠ []) →
      (Mirrored objects parent l ↔ ∀ e ∈ placed parent l, Stands objects e)
  | .node fields children => by
    intro hne
    rw [placed] at hne ⊢
    have hchildren := mirroredAll_iff objects (some fields.id) children
      fun e he => hne e (List.mem_cons_of_mem _ he)
    have hid : fields.id ≠ [] := hne _ List.mem_cons_self
    rw [Mirrored, List.forall_mem_cons, ← hchildren]
    constructor
    · rintro ⟨v, hv, hdeclares, hparent, hall⟩
      rw [hdeclares.id hid] at hall
      exact ⟨⟨v, hv, hdeclares.id hid, hdeclares, hparent⟩, hall⟩
    · rintro ⟨⟨v, hv, hvid, hdeclares, hparent⟩, hall⟩
      refine ⟨v, hv, hdeclares, hparent, ?_⟩
      rw [hvid]
      exact hall
termination_by structural l => l

theorem mirroredAll_iff (objects : List LocationType) (parent : Option Text) :
    ∀ forest, (∀ e ∈ placedAll parent forest, e.1.id ≠ []) →
      (MirroredAll objects parent forest ↔ ∀ e ∈ placedAll parent forest, Stands objects e)
  | [] => fun _ => ⟨fun _ e he => absurd he List.not_mem_nil, fun _ => trivial⟩
  | l :: forest => by
    intro hne
    rw [placedAll] at hne ⊢
    rw [MirroredAll, List.forall_mem_append,
      mirrored_iff objects parent l fun e he => hne e (List.mem_append_left _ he),
      mirroredAll_iff objects parent forest fun e he => hne e (List.mem_append_right _ he)]
termination_by structural forest => forest

end

/-! What a location type finds or makes. -/

/-- What a location type finds or makes in Nautobot. -/
abbrev settledLocationType (api : Api locationTypes) (objects : List LocationType) (e : Placed) :
    LocationType :=
  SyncById.settled api compareLocationType locationTypeRequest placedId objects e

theorem Sets.covers {old v : LocationType} {e : Placed} (h : Sets old (locationTypeRequest e) v)
    (hid : v.id = e.1.id) : Covers v (locationTypeRequest e) where
  id id hsome := by
    have hopt : optionalID e.1.id = some id := hsome
    unfold optionalID at hopt
    split_ifs at hopt
    exact hid.trans (Option.some.inj hopt)
  contentTypes types hsome := by
    have htypes := h.contentTypes
    rwa [hsome] at htypes
  name := h.name
  description := h.description
  nestable := h.nestable
  parent parent hsome := by
    have hparent := h.parent
    rwa [hsome] at hparent

theorem Covers.sets {v : LocationType} {req : LocationTypeRequest} (h : Covers v req) :
    Sets v req v where
  name := h.name
  description := h.description
  nestable := h.nestable
  contentTypes := by
    cases hsome : req.contentTypes with
    | none => exact List.Perm.refl _
    | some types => exact h.contentTypes types hsome
  parent := by
    cases hsome : req.parent with
    | none => exact Option.none_or.symm
    | some parent => exact h.parent parent hsome

section Settled

variable {objects : List LocationType} {e : Placed}

/-- Whether found, updated or created, the request is set on top of what was there. -/
theorem sets_settledLocationType (hstores : Stores api)
    (hids : (objects.map LocationType.id).Nodup) (e : Placed) :
    ∃ old, Sets old (locationTypeRequest e) (settledLocationType api objects e) ∧
      ((old ∈ objects ∧ old.id = e.1.id) ∨
        (old = blank ∧ ∀ v ∈ objects, v.id = e.1.id → e.1.id = [])) := by
  rcases @SyncById.settled_cases _ _ _ _ api compareLocationType locationTypeRequest placedId
    objects hids e with ⟨hcreated, hnone⟩ | ⟨v, hv, hid, ⟨hsame, hcompare⟩ | ⟨hupdated, -⟩⟩
  · refine ⟨blank, ?_, Or.inr ⟨rfl, hnone⟩⟩
    rw [settledLocationType, hcreated]
    exact hstores.created _ _
  · refine ⟨v, ?_, Or.inl ⟨hv, hid⟩⟩
    rw [settledLocationType, hsame]
    exact (compareLocationType_iff.mp hcompare).sets
  · refine ⟨v, ?_, Or.inl ⟨hv, hid⟩⟩
    rw [settledLocationType, hupdated]
    exact hstores.updated _ _

theorem id_settledLocationType (hids : (objects.map LocationType.id).Nodup) (e : Placed) :
    (settledLocationType api objects e).id = e.1.id :=
  @SyncById.id_settled _ _ _ locationTypes api compareLocationType locationTypeRequest placedId
    objects hids e

theorem covers_settledLocationType (hstores : Stores api)
    (hids : (objects.map LocationType.id).Nodup) (e : Placed) :
    Covers (settledLocationType api objects e) (locationTypeRequest e) := by
  obtain ⟨old, hsets, -⟩ := sets_settledLocationType hstores hids e
  exact hsets.covers (id_settledLocationType hids e)

/-- Under the condition, what a location type finds or makes is the declared one. -/
theorem Settleable.declares {forest : List LocationTypeYaml} (h : Settleable objects forest)
    (hstores : Stores api) (hids : (objects.map LocationType.id).Nodup)
    (he : e ∈ placedAll none forest) :
    Declares e.1 (settledLocationType api objects e) ∧
      (settledLocationType api objects e).parent = e.2 := by
  obtain ⟨old, hsets, hold⟩ := sets_settledLocationType hstores hids e
  have htypes : e.1.contentTypes = none → old.contentTypes = [] := by
    intro hnone
    rcases hold with ⟨hmem, hid⟩ | ⟨rfl, -⟩
    · exact h.contentTypes e he hnone old hmem hid
    · rfl
  have hroot : e.2 = none → old.parent = none := by
    intro hnone
    rcases hold with ⟨hmem, hid⟩ | ⟨rfl, -⟩
    · exact h.roots e he hnone old hmem hid
    · rfl
  refine ⟨⟨fun _ => id_settledLocationType hids e, hsets.name, hsets.description, ?_,
    hsets.nestable⟩, hsets.parent.trans ?_⟩
  · have hperm : (settledLocationType api objects e).contentTypes.Perm
      (e.1.contentTypes.getD old.contentTypes) := hsets.contentTypes
    cases hsome : e.1.contentTypes with
    | none =>
      rw [hsome, Option.getD_none, htypes hsome] at hperm
      exact hperm
    | some types =>
      rw [hsome] at hperm
      exact hperm
  · have hrequest : (locationTypeRequest e).parent = e.2 := rfl
    rw [hrequest]
    cases hsome : e.2 with
    | none => exact hroot hsome
    | some parent => rfl

/-- A root that stands without a parent had none, and likewise without content types. -/
theorem unset_of_settled (hstores : Stores api) (hids : (objects.map LocationType.id).Nodup)
    (hne : e.1.id ≠ []) {v : LocationType} (hv : v ∈ objects) (hid : v.id = e.1.id) :
    (e.2 = none → (settledLocationType api objects e).parent = none → v.parent = none) ∧
      (e.1.contentTypes = none → (settledLocationType api objects e).contentTypes.Perm [] →
        v.contentTypes = []) := by
  obtain ⟨old, hsets, hold⟩ := sets_settledLocationType hstores hids e
  have heq : old = v := by
    rcases hold with ⟨hmem, hidold⟩ | ⟨-, hnone⟩
    · exact Excerpts.unique_of_nodup hids old hmem v hv (hidold.trans hid.symm)
    · exact absurd (hnone v hv hid) hne
  subst heq
  constructor
  · intro hroot hparent
    have hor := hsets.parent
    have hrequest : (locationTypeRequest e).parent = none := hroot
    rw [hrequest, Option.none_or, hparent] at hor
    exact hor.symm
  · intro hnone hperm
    have htypes := hsets.contentTypes
    have hrequest : (locationTypeRequest e).contentTypes = none := hnone
    rw [hrequest, Option.getD_none] at htypes
    exact (htypes.symm.trans hperm).eq_nil

end Settled

/-! Examples. -/

/-- A Nautobot that returns what it was given. -/
def keepingApi : Api locationTypes where
  listing objects := objects
  listing_perm := List.Perm.refl
  normalize name := name
  newId objects := List.replicate (objects.flatMap LocationType.id).length.succ '0'
  created i req :=
    ⟨i, req.name, req.description, req.contentTypes.getD [], req.nestable, req.parent⟩
  id_created _ _ := rfl
  updated v req := ⟨v.id, req.name, req.description, req.contentTypes.getD v.contentTypes,
    req.nestable, req.parent.or v.parent⟩
  id_updated _ _ := rfl
  accepts others v := others.all fun u => u.name ≠ v.name
  fails _ := false
  expires n := n = 3
  ranged names := names
  ranged_perm := List.Perm.refl

theorem stores_keepingApi : Stores keepingApi where
  created _ _ := ⟨rfl, rfl, rfl, List.Perm.refl _, (Option.or_none).symm⟩
  updated _ _ := ⟨rfl, rfl, rfl, List.Perm.refl _, rfl⟩
  names _ _ haccepts u hu := of_decide_eq_true (List.all_eq_true.mp haccepts u hu)

def plain (id : String) (children : List LocationTypeYaml) : LocationTypeYaml :=
  .node ⟨id.toList, id.toList, [], none, false⟩ children

def standing (id : String) (parent : Option String) : LocationType :=
  ⟨id.toList, id.toList, [], [], false, parent.map String.toList⟩

def holding (objects : List LocationType) : World LocationType :=
  ⟨objects, objects.map LocationType.id, none, 0, [], false⟩

/-- The passes over a demo, evaluated. -/
def evaluated (w : World LocationType) (forest : List LocationTypeYaml) : Bool :=
  !(syncLocationTypes keepingApi none w forest).2.failed &&
    (deleteObsoleteLocationTypes keepingApi (syncLocationTypes keepingApi none w forest).2
      forest).all fun w' => !w'.failed

theorem succeeds_of_evaluated {w : World LocationType} {forest : List LocationTypeYaml}
    (h : evaluated w forest = true) : Succeeds keepingApi w forest := by
  rw [evaluated, Bool.and_eq_true, Bool.not_eq_true'] at h
  refine ⟨h.1, fun w' hw' => ?_⟩
  have hall := h.2
  rw [hw'] at hall
  simpa using hall

theorem succeeds_of_evaluated_twice {w : World LocationType} {forest : List LocationTypeYaml}
    (h : (syncAll keepingApi w forest).all (fun r => evaluated r.2 forest) = true) :
    ∀ first, syncAll keepingApi w forest = some (.ok (), first) →
      Succeeds keepingApi first forest := by
  intro first hfirst
  rw [hfirst] at h
  exact succeeds_of_evaluated h

/-! The passes. -/

section Passes

variable {w : World LocationType} {forest : List LocationTypeYaml}

/-- What the loop leaves where every location type has an id of its own. -/
structure Looped (api : Api locationTypes) (w : World LocationType)
    (forest : List LocationTypeYaml) (w' : World LocationType) : Prop where
  consistent : Consistent locationTypes w'
  owned : ∀ v ∈ w'.objects, v.id ∈ w'.createdBy
  names : KeyedTable.Unique LocationType.name w'.objects
  objects : ∀ v, v ∈ w'.objects ↔ (v ∈ w.objects ∧ v.id ∉ (placedAll none forest).map placedId) ∨
    ∃ e ∈ placedAll none forest, v = settledLocationType api w.objects e

theorem looped_of_success (hw : Consistent locationTypes w)
    (howned : ∀ v ∈ w.objects, v.id ∈ w.createdBy)
    (hnames : KeyedTable.Unique LocationType.name w.objects) (hstores : Stores api)
    (hne : ∀ e ∈ placedAll none forest, e.1.id ≠ [])
    (hdistinct : ((placedAll none forest).map placedId).Nodup)
    (h : (syncLocationTypes api none w forest).2.failed = false) :
    (syncLocationTypes api none w forest).1 = .ok () ∧
      Looped api w forest (syncLocationTypes api none w forest).2 := by
  obtain ⟨hok, es, ids, hentries, -, hplaced⟩ := walked_syncLocationTypes none w hw forest h
  rw [hplaced hne] at hentries
  exact ⟨hok, hentries.invariant (fun _ _ _ _ hstep hw => Step.consistent hstep hw) hw,
    SyncById.owned_of_entries hentries howned,
    SyncById.unique_of_entries hstores.names hentries hnames,
    (SyncById.objects_of_entries hentries hw hdistinct fun e he => if_neg (hne e he)).2⟩

theorem name_settledLocationType (hstores : Stores api) (hw : Consistent locationTypes w)
    {e : Placed} (he : e ∈ placedAll none forest) :
    (settledLocationType api w.objects e).name ∈ collectAll forest := by
  rw [(covers_settledLocationType hstores hw.ids e).name, collectAll_eq none]
  exact List.mem_map_of_mem (f := fun e : Placed => e.1.name) he

/-- After the loop the declared names are those of the declared ids. -/
theorem Looped.name_mem_iff {w' : World LocationType} (h : Looped api w forest w')
    (hstores : Stores api) (hw : Consistent locationTypes w) {v : LocationType}
    (hv : v ∈ w'.objects) :
    v.name ∈ collectAll forest ↔
      ∃ e ∈ placedAll none forest, v = settledLocationType api w.objects e := by
  constructor
  · intro hname
    rw [collectAll_eq none] at hname
    obtain ⟨e, he, heq⟩ := List.mem_map.mp hname
    have hcovers := @covers_settledLocationType api w.objects hstores hw.ids e
    exact ⟨e, he, h.names v hv _ ((h.objects _).mpr (Or.inr ⟨e, he, rfl⟩))
      (heq.symm.trans hcovers.name.symm)⟩
  · rintro ⟨e, he, rfl⟩
    exact name_settledLocationType hstores hw he

theorem undeclared_of_obsolete {w' : World LocationType} {e : Text × LocationType}
    (he : e ∈ SyncById.obsolete locationTypes (listAll api w').1 (collectAll forest)) :
    e.2 ∈ w'.objects ∧ e.2.name ∉ collectAll forest := by
  obtain ⟨name, v⟩ := e
  obtain ⟨hfind, hnot⟩ := SyncById.mem_obsolete.mp he
  have hname : v.name = name := SyncById.name_of_obsolete he
  refine ⟨mem_of_listAll api v (List.mem_reverse.mp (List.mem_of_find?_eq_some hfind)), ?_⟩
  exact hname ▸ hnot

/-- The removal after the loop returns: what is obsolete has the parents that it had before. -/
theorem Looped.returns {w' : World LocationType} (h : Looped api w forest w')
    (hstores : Stores api) (hw : Consistent locationTypes w) (hacyclic : Acyclic w.objects) :
    ∃ first, deleteObsoleteLocationTypes api w' forest = some first := by
  refine returns_deleteLocationTypesWithDependencies SyncById.nodup_keys_obsolete ?_
    (listAll api w').2
  obtain ⟨depth, hdepth⟩ := hacyclic
  refine ⟨depth, fun v hv => ?_⟩
  obtain ⟨e, he, rfl⟩ := List.mem_map.mp hv
  obtain ⟨hmem, hname⟩ := undeclared_of_obsolete he
  rcases (h.objects e.2).mp hmem with ⟨hold, -⟩ | hsettled
  · exact hdepth e.2 hold
  · exact absurd ((h.name_mem_iff hstores hw hmem).mpr hsettled) hname

theorem removed_deleteObsoleteLocationTypes {w' first : World LocationType}
    (h : deleteObsoleteLocationTypes api w' forest = some first) (hok : first.failed = false) :
    (listAll api w').1 = api.listing w'.objects ∧
    ∃ order, Swept locationTypes w' first order ∧ ∀ id, id ∈ order ↔
      ∃ e ∈ SyncById.obsolete locationTypes (listAll api w').1 (collectAll forest), e.2.id = id := by
  obtain ⟨order, rfl, horder⟩ :=
    removed_deleteLocationTypesWithDependencies SyncById.nodup_keys_obsolete h
  exact ⟨listAll_of_success api (failed_of_destroyAll hok), order,
    (swept_destroyAll hok).of_kept (kept_listAll api w'), horder⟩

/-- The removal leaves what was declared. -/
theorem Looped.mem_first {w' first : World LocationType} (h : Looped api w forest w')
    (hstores : Stores api) (hw : Consistent locationTypes w)
    (hremoval : deleteObsoleteLocationTypes api w' forest = some first)
    (hok : first.failed = false) (v : LocationType) :
    v ∈ first.objects ↔ ∃ e ∈ placedAll none forest, v = settledLocationType api w.objects e := by
  obtain ⟨hlisted, order, hswept, horder⟩ := removed_deleteObsoleteLocationTypes hremoval hok
  rw [hswept.objects, List.mem_filter, decide_eq_true_eq]
  constructor
  · rintro ⟨hv, hkept⟩
    rw [← h.name_mem_iff hstores hw hv]
    by_contra hname
    refine hkept ⟨(horder _).mpr ⟨(v.name, v), ?_, rfl⟩, h.owned v hv⟩
    rw [hlisted]
    exact (SyncById.mem_obsolete_of_unique h.names).mpr ⟨hv, rfl, hname⟩
  · intro hsettled
    have hv := (h.objects v).mpr (Or.inr hsettled)
    refine ⟨hv, fun hgone => ?_⟩
    obtain ⟨e, he, hid⟩ := (horder _).mp hgone.1
    obtain ⟨hmem, hname⟩ := undeclared_of_obsolete he
    rw [Excerpts.unique_of_nodup h.consistent.ids e.2 hmem v hv hid] at hname
    exact hname ((h.name_mem_iff hstores hw hv).mpr hsettled)

/-- A removal that finds no undeclared name leaves Nautobot as it is. -/
theorem kept_of_declared {w' : World LocationType}
    (hnames : ∀ v ∈ w'.objects, v.name ∈ collectAll forest) :
    ∃ second, deleteObsoleteLocationTypes api w' forest = some second ∧
      Kept locationTypes w' second := by
  have hnone : SyncById.obsolete locationTypes (listAll api w').1 (collectAll forest) = [] := by
    rw [List.eq_nil_iff_forall_not_mem]
    intro e he
    obtain ⟨hmem, hname⟩ := undeclared_of_obsolete he
    exact hname (hnames e.2 hmem)
  refine ⟨(listAll api w').2, ?_, kept_listAll api w'⟩
  simp only [deleteObsoleteLocationTypes, hnone, deleteLocationTypesWithDependencies,
    List.map_nil, (api.ranged_perm []).eq_nil]
  rfl

theorem syncAll_of_ok {first : World LocationType}
    (hok : (syncLocationTypes api none w forest).1 = .ok ())
    (hremoval : deleteObsoleteLocationTypes api (syncLocationTypes api none w forest).2 forest =
      some first) : syncAll api w forest = some (.ok (), first) := by
  unfold syncAll
  generalize syncLocationTypes api none w forest = r at hok hremoval
  obtain ⟨result, w'⟩ := r
  cases hok
  exact congrArg (Option.map _) hremoval

theorem ok_of_syncAll {first : World LocationType}
    (h : syncAll api w forest = some (.ok (), first)) :
    deleteObsoleteLocationTypes api (syncLocationTypes api none w forest).2 forest =
      some first := by
  unfold syncAll at h
  generalize syncLocationTypes api none w forest = r at h ⊢
  obtain ⟨_ | u, w'⟩ := r
  · cases h
  · obtain ⟨first', hremoval, heq⟩ := Option.map_eq_some_iff.mp h
    cases heq
    exact hremoval

/-- A second pass that writes nothing finds every location type under its id. -/
theorem ids_of_still {first second : World LocationType} (hfirst : Consistent locationTypes first)
    (hok : Succeeds api first forest) (h : syncAll api first forest = some (.ok (), second))
    (hstill : second.writes = first.writes) : ∀ e ∈ placedAll none forest, e.1.id ≠ [] := by
  have hremoval := ok_of_syncAll h
  obtain ⟨-, es, ids, hentries, hmap, -⟩ :=
    walked_syncLocationTypes none first hfirst forest hok.loop
  obtain ⟨-, order, hswept, -⟩ :=
    removed_deleteObsoleteLocationTypes hremoval (hok.removal second hremoval)
  intro e he
  obtain ⟨e', he', heq⟩ := List.mem_map.mp (hmap ▸ List.mem_map_of_mem he)
  rw [← heq]
  exact SyncById.ids_of_still hentries hfirst (hswept.still hentries hstill).1 e' he'

section

variable (hw : Consistent locationTypes w) (howned : ∀ v ∈ w.objects, v.id ∈ w.createdBy)
  (hnames : KeyedTable.Unique LocationType.name w.objects) (hstores : Stores api)
  (hdistinct : ((placedAll none forest).map placedId).Nodup) (hok : Succeeds api w forest)

include hw howned hnames hstores hdistinct hok

theorem Mirrors.settleable
    (hok' : ∀ first, syncAll api w forest = some (.ok (), first) → Succeeds api first forest)
    (h : Mirrors api w forest) : Settleable w.objects forest := by
  obtain ⟨first, hpass, -, hmirrored, second, hpass', hstill⟩ := h
  have hremoval := ok_of_syncAll hpass
  have hfailed := hok.removal first hremoval
  have hfirst : Consistent locationTypes first := by
    obtain ⟨-, es, ids, hentries, -⟩ := walked_syncLocationTypes none w hw forest hok.loop
    obtain ⟨-, order, hswept, -⟩ := removed_deleteObsoleteLocationTypes hremoval hfailed
    exact hswept.consistent
      (hentries.invariant (fun _ _ _ _ hstep hw => Step.consistent hstep hw) hw)
  have hne := ids_of_still hfirst (hok' first hpass) hpass' hstill
  obtain ⟨-, hlooped⟩ := looped_of_success hw howned hnames hstores hne hdistinct hok.loop
  rw [mirroredAll_iff first.objects none forest hne] at hmirrored
  -- what stands under a declared id is what its location type found or made
  have hstands : ∀ e ∈ placedAll none forest,
      Declares e.1 (settledLocationType api w.objects e) ∧
        (settledLocationType api w.objects e).parent = e.2 := by
    intro e he
    obtain ⟨v, hv, hid, hdeclares, hparent⟩ := hmirrored e he
    obtain ⟨e', he', rfl⟩ := (hlooped.mem_first hstores hw hremoval hfailed v).mp hv
    have heq : placedId e' = placedId e := (id_settledLocationType hw.ids e').symm.trans hid
    rw [List.inj_on_of_nodup_map hdistinct he' he heq] at hdeclares hparent
    exact ⟨hdeclares, hparent⟩
  refine ⟨hne, fun e he hroot v hv hid => ?_, fun e he hnone v hv hid => ?_⟩
  · refine (unset_of_settled hstores hw.ids (hne e he) hv hid).1 hroot ?_
    rw [(hstands e he).2, hroot]
  · refine (unset_of_settled hstores hw.ids (hne e he) hv hid).2 hnone ?_
    have htypes := (hstands e he).1.contentTypes
    rwa [hnone] at htypes

theorem Settleable.mirrors (hacyclic : Acyclic w.objects) (hforest : (collectAll forest).Nodup)
    (hok' : ∀ first, syncAll api w forest = some (.ok (), first) → Succeeds api first forest)
    (h : Settleable w.objects forest) : Mirrors api w forest := by
  obtain ⟨hloop, hlooped⟩ := looped_of_success hw howned hnames hstores h.ids hdistinct hok.loop
  obtain ⟨first, hremoval⟩ := hlooped.returns hstores hw hacyclic
  have hfailed := hok.removal first hremoval
  have hpass := syncAll_of_ok hloop hremoval
  have hmem := hlooped.mem_first hstores hw hremoval hfailed
  have hfirst : Consistent locationTypes first := by
    obtain ⟨-, order, hswept, -⟩ := removed_deleteObsoleteLocationTypes hremoval hfailed
    exact hswept.consistent hlooped.consistent
  have hdeclared : ∀ v ∈ first.objects, v.name ∈ collectAll forest := by
    intro v hv
    obtain ⟨e, he, rfl⟩ := (hmem v).mp hv
    exact name_settledLocationType hstores hw he
  have hunique : KeyedTable.Unique LocationType.name first.objects := fun u hu v hv =>
    hlooped.names u ((hlooped.objects u).mpr (Or.inr ((hmem u).mp hu))) v
      ((hlooped.objects v).mpr (Or.inr ((hmem v).mp hv)))
  refine ⟨first, hpass, ?_, ?_, ?_⟩
  · rw [List.perm_ext_iff_of_nodup ((List.Nodup.of_map _ hfirst.ids).map_on hunique) hforest]
    intro name
    rw [List.mem_map]
    constructor
    · rintro ⟨v, hv, rfl⟩
      exact hdeclared v hv
    · intro hname
      rw [collectAll_eq none] at hname
      obtain ⟨e, he, rfl⟩ := List.mem_map.mp hname
      exact ⟨_, (hmem _).mpr ⟨e, he, rfl⟩, (covers_settledLocationType hstores hw.ids e).name⟩
  · rw [mirroredAll_iff first.objects none forest h.ids]
    intro e he
    obtain ⟨hdeclares, hparent⟩ := h.declares hstores hw.ids he
    exact ⟨_, (hmem _).mpr ⟨e, he, rfl⟩, id_settledLocationType hw.ids e, hdeclares, hparent⟩
  · -- the second pass finds every location type as it asks for
    have hsucceeds := hok' first hpass
    obtain ⟨hloop', es, ids, hentries, -, hplaced⟩ :=
      walked_syncLocationTypes none first hfirst forest hsucceeds.loop
    rw [hplaced h.ids] at hentries
    have hkept := SyncById.kept_of_settled hentries hfirst fun e he =>
      ⟨h.ids e he, _, (hmem _).mpr ⟨e, he, rfl⟩, id_settledLocationType hw.ids e,
        compareLocationType_iff.mpr (covers_settledLocationType hstores hw.ids e)⟩
    obtain ⟨second, hremoval', hkept'⟩ := @kept_of_declared api forest _
      (hkept.objects ▸ hdeclared)
    exact ⟨second, syncAll_of_ok hloop' hremoval', hkept'.writes.trans hkept.writes⟩

end

/-- Where no call fails and every location type is the operator's, a pass leaves the declared forest
exactly where nothing has to be unset that a request cannot unset, and everything has an id. -/
theorem location_types_mirror_iff (hids : (w.objects.map LocationType.id).Nodup)
    (hnames : KeyedTable.Unique LocationType.name w.objects)
    (hcache : ∀ items, w.cache = some items → items.Subperm w.objects)
    (hacyclic : Acyclic w.objects) (howned : ∀ v ∈ w.objects, v.id ∈ w.createdBy)
    (hstores : Stores api) (hdistinct : ((placedAll none forest).map placedId).Nodup)
    (hforest : (collectAll forest).Nodup) (hok : Succeeds api w forest)
    (hok' : ∀ first, syncAll api w forest = some (.ok (), first) → Succeeds api first forest) :
    Mirrors api w forest ↔ Settleable w.objects forest := by
  have hw : Consistent locationTypes w := consistent_of_subperm hids hcache
  exact ⟨fun h => h.settleable hw howned hnames hstores hdistinct hok hok',
    fun h => h.mirrors hw howned hnames hstores hdistinct hok hacyclic hforest hok'⟩

end Passes

/-- A location type moves below a new one, and two are removed from the bottom up. -/
theorem location_types_mirror_iff_moved :
    Mirrors keepingApi (holding [standing "a" none, standing "b" (some "a"),
        standing "o" (some "a"), standing "p" (some "o")])
      [plain "a" [plain "c" [plain "b" []]]] := by
  refine (location_types_mirror_iff (by decide) (by decide) (fun items hitems => by cases hitems)
    ⟨fun id => if id = ['a'] then 0 else if id = ['p'] then 2 else 1, by decide⟩
    (by decide) stores_keepingApi (by decide) (by decide) (succeeds_of_evaluated (by decide))
    (succeeds_of_evaluated_twice (by decide))).mpr ⟨by decide, by decide, by decide⟩

/-- A location type that becomes a root keeps its parent, unnoticed by the comparison. -/
theorem root_keeps_parent :
    let w := holding [standing "a" none, standing "b" (some "a")]
    let forest := [plain "a" [], plain "b" []]
    (w.objects.map LocationType.id).Nodup ∧ KeyedTable.Unique LocationType.name w.objects ∧
      Acyclic w.objects ∧ (∀ v ∈ w.objects, v.id ∈ w.createdBy) ∧ Stores keepingApi ∧
      ((placedAll none forest).map placedId).Nodup ∧ (collectAll forest).Nodup ∧
      Succeeds keepingApi w forest ∧
      (∀ first, syncAll keepingApi w forest = some (.ok (), first) →
        Succeeds keepingApi first forest) ∧ ¬Mirrors keepingApi w forest := by
  intro w forest
  refine ⟨by decide, by decide, ⟨fun id => if id = ['a'] then 0 else 1, by decide⟩, by decide,
    stores_keepingApi, by decide, by decide, succeeds_of_evaluated (by decide),
    succeeds_of_evaluated_twice (by decide), ?_⟩
  rintro ⟨first, hpass, -, ⟨-, ⟨v, hv, hdeclares, hparent, -⟩, -⟩, -⟩
  have hobjects : first.objects = w.objects := by
    have heq := congrArg (Option.map fun r => r.2.objects) hpass
    exact (Option.some.inj heq).symm
  rw [hobjects] at hv
  rcases List.mem_pair.mp hv with rfl | rfl
  · exact absurd hdeclares.name (by decide)
  · exact absurd hparent (by decide)

end Understack.Nautobotop.LocationTypes
