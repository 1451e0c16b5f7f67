import Understack.Neutron.SegmentOwners

/-! Dynamic VLAN segments are allocated exactly while they are used: each operation keeps the
global invariant unless it leaves a segment behind, and so does every run. -/
namespace Understack.Neutron.Segments

/-- An owner keeps its level while it stays as it is and no other segment takes the id. -/
theorem OwnedByPort.mono {s s' : State} {l : BindingLevel} (h : OwnedByPort s l)
    (hports : ∀ p ∈ s.ports, p.id = l.portId → p.vifType = .other → p.host = l.host → p ∈ s'.ports)
    (hsegs : ∀ seg ∈ s'.store.segments, seg.id = l.segmentId → seg ∈ s.store.segments) :
    OwnedByPort s' l := by
  obtain ⟨p, hp, hid, hb, hhost, hseg⟩ := h
  exact ⟨p, hports p hp hid hb hhost, hid, hb, hhost,
    fun seg hs he hd => hseg seg (hsegs seg hs he) he hd⟩

theorem OwnedBySubports.mono {s s' : State} {parentId : String} {subports : List SubPort}
    {l : BindingLevel} (h : OwnedBySubports s parentId subports l)
    (hports : ∀ p ∈ s'.ports, p.id = parentId → p ∈ s.ports) :
    OwnedBySubports s' parentId subports l :=
  ⟨h.1, h.2.1, fun p hp he => h.2.2 p (hports p hp he) he⟩

theorem Inv.trunkDetails_eq {s : State} (h : Inv s) {t : Trunk} (ht : t ∈ s.trunks) :
    trunkDetails s t.portId = some t := by
  cases hfind : trunkDetails s t.portId with
  | none => simpa using List.find?_eq_none.mp hfind t ht
  | some t' =>
    have hid : t'.portId = t.portId := by simpa using List.find?_some hfind
    rw [List.inj_on_of_nodup_map h.trunkParents (List.mem_of_find?_eq_some hfind) ht hid]

theorem trunkDetails_some {s : State} {portId : String} {t : Trunk}
    (h : trunkDetails s portId = some t) : t ∈ s.trunks ∧ t.portId = portId :=
  ⟨List.mem_of_find?_eq_some h, by simpa using List.find?_some h⟩

theorem Owing.dropLevels_shared {owed : List ℕ} {st : Store} {mine : BindingLevel → Bool}
    (h : Owing owed st) (hshared : ¬ OnlyUser st mine) :
    Owing owed (Segments.dropLevels st mine) := by
  apply (h.dropLevels mine).settle
  intro i hi hno seg hs he hd
  obtain ⟨l, hl, rfl⟩ := List.mem_map.mp ((List.mem_append.mp hi).resolve_right hno)
  obtain ⟨hl, hmine⟩ := List.mem_filter.mp hl
  by_contra hunused
  apply hshared
  refine ⟨seg, hs, hd, ⟨l, hl, hmine, he.symm⟩, ?_⟩
  intro l' hl' he'
  by_contra hother
  exact hunused ⟨l', List.mem_filter.mpr ⟨hl', by simpa using hother⟩, he'.trans he⟩

theorem releaseSegmentIfUnused_shrinks (st : Store) (segment : Segment) :
    (releaseSegmentIfUnused st segment).levels = st.levels ∧
      ∀ seg ∈ (releaseSegmentIfUnused st segment).segments, seg ∈ st.segments := by
  unfold releaseSegmentIfUnused
  split
  next => exact ⟨rfl, fun seg hs => (List.mem_filter.mp hs).1⟩
  next => exact ⟨rfl, fun _ hs => hs⟩

theorem subportCleanup_spec {s : State} {st st' : Store} {original : Port} (h : Owing [] st)
    (hst' : (match trunkDetails s original.id with
      | none => some st
      | some trunk => handleSegmentDeallocation original.host st trunk.subPorts) = some st') :
    Owing [] st' ∧ Shrinks st st' fun l => ∃ t, trunkDetails s original.id = some t ∧
      IsSubportLevel t.subPorts original.host l := by
  split at hst'
  next hnone =>
    obtain rfl := Option.some.inj hst'
    refine ⟨h, fun _ hs => hs, fun l hl => ⟨hl, ?_⟩⟩
    rintro ⟨t, ht, -⟩
    rw [hnone] at ht
    cases ht
  next trunk htrunk =>
    obtain ⟨howing, hsegs, hlevels⟩ := handleSegmentDeallocation_spec h hst'
    refine ⟨howing, hsegs, fun l hl => ⟨(hlevels l hl).1, ?_⟩⟩
    rintro ⟨t, ht, hsub⟩
    rw [htrunk] at ht
    obtain rfl := Option.some.inj ht
    exact (hlevels l hl).2 hsub

theorem tenantNetworkPortCleanup_spec {s : State} {st st' : Store} {original : Port}
    {topSegmentId : ℕ} (h : Owing [] st)
    (hst' : tenantNetworkPortCleanup s st original topSegmentId = some st') :
    Owing [] st' ∧ Shrinks st st' fun l => ∃ t, trunkDetails s original.id = some t ∧
      IsSubportLevel t.subPorts original.host l := by
  unfold tenantNetworkPortCleanup at hst'
  cases hfind : networkSegmentById st topSegmentId with
  | none =>
    rw [hfind] at hst'
    exact subportCleanup_spec h hst'
  | some segment =>
    rw [hfind] at hst'
    -- The release of the top segment removes no level.
    have howed : Owing [segment.id] st := h.weaken fun i hi => absurd hi List.not_mem_nil
    have hreleased := howed.releaseSegmentIfUnused (List.mem_of_find?_eq_some hfind)
    obtain ⟨hlevels, hsegs⟩ := releaseSegmentIfUnused_shrinks st segment
    obtain ⟨howing, hsegs', hgone⟩ := subportCleanup_spec hreleased hst'
    rw [hlevels] at hgone
    exact ⟨howing, fun seg hs => hsegs seg (hsegs' seg hs), hgone⟩

theorem unbindOp_cases {s s' : State} {portId : String} (h : unbindOp s portId = some s') :
    ∃ original top st port, fetchPortObject s.ports portId = some original ∧
      original.vifType = .other ∧ port.id = original.id ∧ port.vifType = .unbound ∧
      tenantNetworkPortCleanup s (dropLevels s.store (BindingLevel.isOf portId original.host))
        original top = some st ∧
      s' = { s with store := st, ports := replacePort s.ports port } := by
  unfold unbindOp at h
  simp only [bind, pure, Option.bind_none, Option.bind_eq_some_iff, Option.ite_none_left_eq_some,
    Option.some.injEq, not_or, not_not] at h
  obtain ⟨original, hfetch, ⟨-, hvif⟩, top, -, st, hclean, rfl⟩ := h
  refine ⟨original, top.segmentId, st, _, hfetch, hvif, ?_, ?_, hclean, rfl⟩ <;> rfl

theorem Inv.afterUnbind {config : Config} {s s' : State} {portId : String} (h : Inv s)
    (hok : ¬ LeaksSegment config s (.unbind portId)) (hs' : unbindOp s portId = some s') :
    Inv s' := by
  obtain ⟨original, top, st, port, hfetch, hvif, hid, hunbound, hclean, rfl⟩ := unbindOp_cases hs'
  obtain ⟨hmem, rfl⟩ := fetchPortObject_some hfetch
  have hshared : ¬ OnlyUser s.store (BindingLevel.isOf original.id original.host) := by
    intro honly
    exact hok ⟨original, hfetch, honly⟩
  obtain ⟨howing, hsegs, hlevels⟩ :=
    tenantNetworkPortCleanup_spec (h.store.dropLevels_shared hshared) hclean
  refine ⟨howing, by rw [map_id_replacePort]; exact h.portIds, h.trunkIds, h.trunkParents, ?_, ?_⟩
  · intro p hp hb
    rcases mem_replacePort hp with rfl | ⟨hp, -⟩
    · rw [hunbound] at hb
      cases hb
    · exact h.bound p hp hb
  · intro l hl
    obtain ⟨hl₁, hgone⟩ := hlevels l hl
    obtain ⟨hl₀, hnotmine⟩ := List.mem_filter.mp hl₁
    rcases h.owned l hl₀ with hown | ⟨t, ht, hown⟩
    · left
      apply hown.mono
      · intro p hp hpid _ hhost
        apply mem_replacePort_of_ne hp
        intro he
        -- The owner would be the unbound port, whose levels on its host are gone.
        obtain rfl := h.port_eq hp hmem (he.trans hid)
        simp [BindingLevel.isOf, ← hpid, ← hhost] at hnotmine
      · intro seg hs _
        exact hsegs seg hs
    · right
      refine ⟨t, ht, hown.mono ?_⟩
      intro p hp he
      rcases mem_replacePort hp with rfl | ⟨hp, -⟩
      · -- The levels of the subports of the unbound port are gone.
        have hparent : original.id = t.portId := hid.symm.trans he
        have hhost := (hown.2.2 original hmem hparent).2
        exact absurd ⟨t, hparent ▸ h.trunkDetails_eq ht, hown.1, hhost.symm, hown.2.1⟩ hgone
      · exact hp

/-- The levels that a binding writes: those of its trunk's subports and its own two. -/
def IsBoundLevel (s : State) (port : Port) (vxlan vlan : Segment) (l : BindingLevel) : Prop :=
  (∃ t, trunkDetails s port.id = some t ∧ IsSubportLevel t.subPorts port.host l) ∨
    (l.portId = port.id ∧ l.host = port.host ∧ (l.segmentId = vxlan.id ∨ l.segmentId = vlan.id))

theorem bindPort_spec {s : State} {port : Port} {st : Store} (h : Owing [] s.store)
    (hst : bindPort s port = some st) :
    ∃ vxlan vlan vlanGroup, Owing [] st ∧ Extends s.store st (IsBoundLevel s port vxlan vlan) ∧
      vxlan ∈ st.segments ∧ vxlan.networkType = .vxlan ∧ vlan ∈ st.segments ∧
      port.physicalNetwork = some vlanGroup ∧ vlan.isVlanOn port.networkId vlanGroup = true := by
  unfold bindPort bindPortSegment setBindingLevels at hst
  simp only [bind, Option.bind_eq_some_iff] at hst
  obtain ⟨vxlan, hfind, vlanGroup, hgroup, st₁, htrunk, st₂, hlevel₀, hlevel₁⟩ := hst
  have hvxlan := List.mem_of_find?_eq_some hfind
  have htype := List.find?_some hfind
  simp only [decide_eq_true_eq] at htype
  obtain ⟨howing, hvlan, hon, hext⟩ := h.vlanSegmentFor port.networkId vlanGroup
  -- The dynamic segment stays owed until the second level is written.
  have hconfigured : Owing [(vlanSegmentFor s.store port.networkId vlanGroup).2.id] st₁ ∧
      Extends (vlanSegmentFor s.store port.networkId vlanGroup).1 st₁
        (IsBoundLevel s port vxlan (vlanSegmentFor s.store port.networkId vlanGroup).2) := by
    unfold configureTrunk at htrunk
    split at htrunk
    next =>
      obtain rfl := Option.some.inj htrunk
      exact ⟨howing, Extends.refl _ _⟩
    next trunk hdetails =>
      simp only [addSubportsNetworksToParentPortSwitchport, bind, Option.bind_eq_some_iff] at htrunk
      obtain ⟨group, -, halloc⟩ := htrunk
      obtain ⟨howing₁, hext₁⟩ := handleSegmentAllocation_spec howing halloc
      exact ⟨howing₁, hext₁.mono fun l hl => .inl ⟨trunk, hdetails, hl⟩⟩
  obtain ⟨howing₁, hext₁⟩ := hconfigured
  have hvxlan₁ := hext₁.segments _ (hext.segments _ hvxlan)
  have hvlan₁ := hext₁.segments _ hvlan
  obtain ⟨howing₂, hext₂⟩ := (howing₁.weaken fun i hi => List.mem_cons_of_mem vxlan.id hi).insertLevel
    ⟨vxlan, hvxlan₁, rfl⟩ hlevel₀
  have hvlan₂ := hext₂.segments _ hvlan₁
  obtain ⟨howing₃, hext₃⟩ := howing₂.insertLevel ⟨_, hvlan₂, rfl⟩ hlevel₁
  refine ⟨vxlan, _, vlanGroup, howing₃, ?_, hext₃.segments _ (hext₂.segments _ hvxlan₁), htype.2,
    hext₃.segments _ hvlan₂, hgroup, hon⟩
  apply (((hext.mono fun _ hf => hf.elim).trans hext₁).trans (hext₂.mono ?_)).trans (hext₃.mono ?_)
  · rintro l rfl
    exact .inr ⟨rfl, rfl, .inl rfl⟩
  · rintro l rfl
    exact .inr ⟨rfl, rfl, .inr rfl⟩

theorem bindOp_cases {s s' : State} {portId host : String} {profile : List (String × String)}
    (h : bindOp s portId host profile = some s') :
    ∃ original port st, fetchPortObject s.ports portId = some original ∧
      original.vifType = .unbound ∧ port.id = original.id ∧ port.vnicType = .baremetal ∧
      port.vifType = .other ∧ bindPort s port = some st ∧
      s' = { s with store := st, ports := replacePort s.ports port } := by
  unfold bindOp at h
  simp only [bind, pure, Option.bind_none, Option.bind_eq_some_iff, Option.ite_none_left_eq_some,
    Option.some.injEq, not_or, not_not] at h
  obtain ⟨original, hfetch, ⟨hvnic, hvif⟩, st, hbind, rfl⟩ := h
  refine ⟨original, _, st, hfetch, hvif, ?_, ?_, ?_, hbind, rfl⟩
  · rfl
  · exact hvnic
  · rfl

theorem Inv.afterBind {s s' : State} {portId host : String} {profile : List (String × String)}
    (h : Inv s) (hs' : bindOp s portId host profile = some s') : Inv s' := by
  obtain ⟨original, port, st, hfetch, hunbound, hid, hvnic, hvif, hbind, rfl⟩ := bindOp_cases hs'
  obtain ⟨hmem, -⟩ := fetchPortObject_some hfetch
  obtain ⟨vxlan, vlan, vlanGroup, howing, hext, hvxlan, htype, hvlan, hgroup, hon⟩ :=
    bindPort_spec h.store hbind
  have hself := mem_replacePort_self hmem hid.symm
  refine ⟨howing, by rw [map_id_replacePort]; exact h.portIds, h.trunkIds, h.trunkParents, ?_, ?_⟩
  · intro p hp hb
    rcases mem_replacePort hp with rfl | ⟨hp, -⟩
    · exact ⟨hvnic, by rw [hgroup]; simp⟩
    · exact h.bound p hp hb
  · intro l hl
    rcases hext.newLevels l hl with hl | ⟨t, hdetails, hsub⟩ | ⟨hlp, hlh, hlseg⟩
    · rcases h.owned l hl with hown | ⟨t, ht, hown⟩
      · left
        apply hown.mono
        · intro p hp _ hb _
          apply mem_replacePort_of_ne hp
          intro he
          rw [h.port_eq hp hmem (he.trans hid), hunbound] at hb
          cases hb
        · intro seg hs he
          exact h.store.referenced_old hext hl hs he
      · right
        refine ⟨t, ht, hown.mono ?_⟩
        intro p hp he
        rcases mem_replacePort hp with rfl | ⟨hp, -⟩
        · -- The parent was not bound before, so it owned no level.
          have hb := (hown.2.2 original hmem (hid.symm.trans he)).1
          rw [hunbound] at hb
          cases hb
        · exact hp
    · right
      obtain ⟨ht, hparent⟩ := trunkDetails_some hdetails
      refine ⟨t, ht, hsub.1, hsub.2.2, ?_⟩
      intro p hp he
      rcases mem_replacePort hp with rfl | ⟨-, hne⟩
      · exact ⟨hvif, hsub.2.1.symm⟩
      · exact absurd (he.trans hparent) hne
    · left
      refine ⟨port, hself, hlp.symm, hvif, hlh.symm, ?_⟩
      intro seg hs he hd
      rcases hlseg with hv | hv
      · rw [howing.eq_of_id hs hvxlan (he.trans hv)] at hd
        rw [howing.vlan vxlan hvxlan hd] at htype
        cases htype
      · rw [howing.eq_of_id hs hvlan (he.trans hv), hgroup]
        obtain ⟨hnet, -, hphys⟩ := isVlanOn_iff.mp hon
        exact ⟨hnet, hphys⟩

theorem deleteOp_cases {config : Config} {s s' : State} {portId : String}
    (h : deleteOp config s portId = some s') :
    ∃ port, fetchPortObject s.ports portId = some port ∧
      (∀ t ∈ s.trunks, ∀ sp ∈ t.subPorts, sp.portId ≠ portId) ∧
      s' = { s with
        store := deletePortBaremetal config (dropLevels s.store fun l => l.portId = portId) port
        ports := s.ports.filter fun p => p.id ≠ portId } := by
  unfold deleteOp at h
  simp only [bind, pure, Option.bind_none, Option.bind_eq_some_iff, Option.ite_none_left_eq_some,
    Option.some.injEq] at h
  obtain ⟨port, hfetch, -, hsub, rfl⟩ := h
  refine ⟨port, hfetch, ?_, rfl⟩
  intro t ht sp hsp he
  apply hsub
  exact List.any_eq_true.mpr ⟨t, ht, List.any_eq_true.mpr ⟨sp, hsp, decide_eq_true he⟩⟩

theorem deletePortBaremetal_shrinks (config : Config) (st : Store) (port : Port) :
    (deletePortBaremetal config st port).levels = st.levels ∧
      ∀ seg ∈ (deletePortBaremetal config st port).segments, seg ∈ st.segments := by
  unfold deletePortBaremetal
  split
  next => exact ⟨rfl, fun _ hs => hs⟩
  next =>
    split
    next => exact ⟨rfl, fun _ hs => hs⟩
    next =>
      split
      next => exact ⟨rfl, fun _ hs => hs⟩
      next segment _ => exact releaseSegmentIfUnused_shrinks st segment

/-- The owner of every level of a port that is no subport is the port itself. -/
theorem Inv.ownLevels {s : State} (h : Inv s) {port : Port} (hport : port ∈ s.ports)
    (hsub : ∀ t ∈ s.trunks, ∀ sp ∈ t.subPorts, sp.portId ≠ port.id) {l : BindingLevel}
    (hl : l ∈ s.store.levels) (hlp : l.portId = port.id) :
    port.vifType = .other ∧ ∀ seg ∈ s.store.segments, seg.id = l.segmentId →
      seg.isDynamic = true →
      seg.networkId = port.networkId ∧ seg.physicalNetwork = port.physicalNetwork := by
  rcases h.owned l hl with ⟨p, hp, hid, hb, -, hseg⟩ | ⟨t, ht, -, ⟨sp, hsp, he⟩, -⟩
  · obtain rfl := h.port_eq hp hport (hid.trans hlp)
    exact ⟨hb, hseg⟩
  · exact absurd (he.trans hlp) (hsub t ht sp hsp)

theorem Inv.deletedStore {s : State} {port : Port} (h : Inv s) (config : Config)
    (hport : port ∈ s.ports) (hsub : ∀ t ∈ s.trunks, ∀ sp ∈ t.subPorts, sp.portId ≠ port.id)
    (hok : port.networkId = config.provisioningNetwork →
      ¬ OnlyUser s.store fun l => l.portId = port.id) :
    Owing [] (deletePortBaremetal config
      (dropLevels s.store fun l => l.portId = port.id) port) := by
  have hdrop := h.store.dropLevels fun l => l.portId = port.id
  -- An owed segment is the dynamic segment of the port.
  have howed (i : ℕ) (hi : i ∈ (s.store.levels.filter fun l => l.portId = port.id).map
      BindingLevel.segmentId ++ []) :
      port.vifType = .other ∧ ∀ seg ∈ s.store.segments, seg.id = i → seg.isDynamic = true →
        seg.networkId = port.networkId ∧ seg.physicalNetwork = port.physicalNetwork := by
    obtain ⟨l, hl, rfl⟩ := List.mem_map.mp (List.append_nil _ ▸ hi)
    obtain ⟨hl, hlp⟩ := List.mem_filter.mp hl
    exact h.ownLevels hport hsub hl (of_decide_eq_true hlp)
  unfold deletePortBaremetal
  split
  next hnone =>
    apply hdrop.settle
    intro i hi _
    exact absurd hnone (h.bound port hport (howed i hi).1).2
  next vlanGroup hgroup =>
    -- The owed segments are the VLAN segments of the network on the vlan group.
    have hon {seg : Segment} (hs : seg ∈ s.store.segments) {i : ℕ} (hi : i ∈
        (s.store.levels.filter fun l => l.portId = port.id).map BindingLevel.segmentId ++ [])
        (he : seg.id = i) (hd : seg.isDynamic = true) :
        seg.isVlanOn port.networkId vlanGroup = true := by
      obtain ⟨hnet, hphys⟩ := (howed i hi).2 seg hs he hd
      exact isVlanOn_iff.mpr ⟨hnet, h.store.vlan seg hs hd, hphys.trans hgroup⟩
    split
    next hprovisioning => exact h.store.dropLevels_shared (hok hprovisioning)
    next =>
      split
      next hnone =>
        apply hdrop.settle
        intro i hi _ seg hs he hd
        exact absurd (hon hs hi he hd) (List.find?_eq_none.mp hnone seg hs)
      next segment hfind =>
        have hmem := List.mem_of_find?_eq_some hfind
        apply Owing.releaseSegmentIfUnused _ hmem
        apply hdrop.settle
        intro i hi hno seg hs he hd
        rw [h.store.unique seg hs segment hmem _ _ hd (hon hs hi he hd) (List.find?_some hfind)] at he
        exact absurd (he ▸ List.mem_singleton_self _) hno

theorem Inv.afterDelete {config : Config} {s s' : State} {portId : String} (h : Inv s)
    (hok : ¬ LeaksSegment config s (.delete portId)) (hs' : deleteOp config s portId = some s') :
    Inv s' := by
  obtain ⟨port, hfetch, hsub, rfl⟩ := deleteOp_cases hs'
  obtain ⟨hport, rfl⟩ := fetchPortObject_some hfetch
  have hstore := h.deletedStore config hport hsub fun hprov honly =>
    hok ⟨port, hfetch, hprov, honly⟩
  obtain ⟨hlevels, hsegs⟩ := deletePortBaremetal_shrinks config
    (dropLevels s.store fun l => l.portId = port.id) port
  refine ⟨hstore, h.portIds.sublist (List.filter_sublist.map _), h.trunkIds, h.trunkParents, ?_, ?_⟩
  · intro p hp hb
    exact h.bound p (List.mem_filter.mp hp).1 hb
  · intro l hl
    rw [hlevels] at hl
    obtain ⟨hl, hother⟩ := List.mem_filter.mp hl
    rcases h.owned l hl with hown | ⟨t, ht, hown⟩
    · left
      apply hown.mono
      · intro p hp hpid _ _
        refine List.mem_filter.mpr ⟨hp, ?_⟩
        rw [hpid]
        simpa using hother
      · intro seg hs _
        exact hsegs seg hs
    · right
      exact ⟨t, ht, hown.mono fun p hp _ => (List.mem_filter.mp hp).1⟩

theorem handleTenantVlan_spec {config : Config} {s : State} {trunkId parentId : String}
    {subports : List SubPort} {st : Store} (h : Inv s)
    (hst : handleTenantVlanIdAndSwitchportConfig config s trunkId parentId subports = some st) :
    Owing [] st ∧ Extends s.store st (OwnedBySubports s parentId subports) := by
  unfold handleTenantVlanIdAndSwitchportConfig at hst
  simp only [bind, Option.bind_none, Option.bind_eq_some_iff, Option.ite_none_left_eq_some] at hst
  obtain ⟨-, parent, hfetch, hst⟩ := hst
  obtain ⟨hparent, rfl⟩ := fetchPortObject_some hfetch
  split at hst
  next hbound =>
    simp only [addSubportsNetworksToParentPortSwitchport, bind, Option.bind_eq_some_iff] at hst
    obtain ⟨vlanGroup, -, halloc⟩ := hst
    obtain ⟨howing, hext⟩ := handleSegmentAllocation_spec h.store halloc
    refine ⟨howing, hext.mono ?_⟩
    rintro l ⟨hlevel, hhost, hsp⟩
    refine ⟨hlevel, hsp, ?_⟩
    intro p hp he
    rw [h.port_eq hp hparent he]
    simp only [Segments.parentPortIsBound, decide_eq_true_eq] at hbound
    exact ⟨hbound.1, hhost.symm⟩
  next =>
    obtain rfl := Option.some.inj hst
    exact ⟨h.store, Extends.refl _ _⟩

/-- Levels are added for the subports of a trunk, and the trunks keep their subports. -/
theorem Inv.extendTrunks {s : State} {st : Store} {trunks : List Trunk} {parentId : String}
    {subports : List SubPort} (h : Inv s) (howing : Owing [] st)
    (hext : Extends s.store st (OwnedBySubports s parentId subports))
    (hids : (trunks.map Trunk.id).Nodup) (hparents : (trunks.map Trunk.portId).Nodup)
    (hold : ∀ t ∈ s.trunks, ∃ t' ∈ trunks, t'.portId = t.portId ∧
      ∀ sp ∈ t.subPorts, sp ∈ t'.subPorts)
    (hnew : subports ≠ [] → ∃ t' ∈ trunks, t'.portId = parentId ∧
      ∀ sp ∈ subports, sp ∈ t'.subPorts) :
    Inv { s with store := st, trunks := trunks } := by
  refine ⟨howing, h.portIds, hids, hparents, h.bound, ?_⟩
  intro l hl
  rcases hext.newLevels l hl with hl | ⟨hlevel, ⟨sp, hsp, he⟩, hbound⟩
  · rcases h.owned l hl with hown | ⟨t, ht, hlevel, ⟨sp, hsp, he⟩, hbound⟩
    · left
      exact hown.mono (fun p hp _ _ _ => hp) fun seg hs he => h.store.referenced_old hext hl hs he
    · right
      obtain ⟨t', ht', hparent, hsubs⟩ := hold t ht
      exact ⟨t', ht', hlevel, ⟨sp, hsubs sp hsp, he⟩, hparent ▸ hbound⟩
  · right
    obtain ⟨t', ht', hparent, hsubs⟩ := hnew (List.ne_nil_of_mem hsp)
    exact ⟨t', ht', hlevel, ⟨sp, hsubs sp hsp, he⟩, hparent ▸ hbound⟩

theorem nodup_replaceTrunk {f : Trunk → String} {trunks : List Trunk} {trunk old : Trunk}
    (hf : f trunk = f old) (hid : trunk.id = old.id) (hold : old ∈ trunks)
    (hids : (trunks.map Trunk.id).Nodup) (hnodup : (trunks.map f).Nodup) :
    ((replaceTrunk trunks trunk).map f).Nodup := by
  have hsame : (replaceTrunk trunks trunk).map f = trunks.map f := by
    rw [replaceTrunk, List.map_map]
    apply List.map_congr_left
    intro t ht
    simp only [Function.comp_apply]
    split
    next he => rw [hf, List.inj_on_of_nodup_map hids ht hold (he.trans hid)]
    next => rfl
  rw [hsame]
  exact hnodup

theorem Inv.afterCreateTrunk {config : Config} {s s' : State} {trunk : Trunk} (h : Inv s)
    (hs' : createTrunkOp config s trunk = some s') : Inv s' := by
  unfold createTrunkOp at hs'
  simp only [bind, pure, Option.bind_none, Option.bind_eq_some_iff, Option.ite_none_left_eq_some,
    Option.some.injEq] at hs'
  obtain ⟨hfresh, st, hst, rfl⟩ := hs'
  have hspec : Owing [] st ∧ Extends s.store st
      (OwnedBySubports s trunk.portId trunk.subPorts) := by
    unfold trunkCreated at hst
    split at hst
    next =>
      obtain rfl := Option.some.inj hst
      exact ⟨h.store, Extends.refl _ _⟩
    next => exact handleTenantVlan_spec h hst
  have hne (t : Trunk) (ht : t ∈ s.trunks) : t.id ≠ trunk.id ∧ t.portId ≠ trunk.portId := by
    rw [← not_or]
    intro he
    exact hfresh (List.any_eq_true.mpr ⟨t, ht, decide_eq_true he⟩)
  have hnodup {f : Trunk → String} (hf : (s.trunks.map f).Nodup)
      (hnew : ∀ t ∈ s.trunks, f t ≠ f trunk) : ((s.trunks ++ [trunk]).map f).Nodup := by
    rw [List.map_append, List.nodup_append]
    refine ⟨hf, by simp, ?_⟩
    intro a ha b hb
    obtain ⟨t, ht, rfl⟩ := List.mem_map.mp ha
    rw [List.mem_singleton.mp hb]
    exact hnew t ht
  apply h.extendTrunks hspec.1 hspec.2
  · exact hnodup h.trunkIds fun t ht => (hne t ht).1
  · exact hnodup h.trunkParents fun t ht => (hne t ht).2
  · intro t ht
    exact ⟨t, List.mem_append_left _ ht, rfl, fun _ hsp => hsp⟩
  · intro _
    exact ⟨trunk, by simp, rfl, fun _ hsp => hsp⟩

theorem Inv.afterAddSubports {config : Config} {s s' : State} {trunkId : String}
    {subports : List SubPort} (h : Inv s)
    (hs' : addSubportsOp config s trunkId subports = some s') : Inv s' := by
  unfold addSubportsOp at hs'
  simp only [bind, pure, Option.bind_eq_some_iff, Option.some.injEq] at hs'
  obtain ⟨trunk, hfind, st, hst, rfl⟩ := hs'
  have htrunk := List.mem_of_find?_eq_some hfind
  obtain ⟨howing, hext⟩ := handleTenantVlan_spec h hst
  apply h.extendTrunks howing hext
  · exact nodup_replaceTrunk (by rfl) (by rfl) htrunk h.trunkIds h.trunkIds
  · exact nodup_replaceTrunk (by rfl) (by rfl) htrunk h.trunkIds h.trunkParents
  · intro t ht
    by_cases he : t.id = trunk.id
    · obtain rfl := List.inj_on_of_nodup_map h.trunkIds ht htrunk he
      exact ⟨_, List.mem_map.mpr ⟨t, ht, if_pos rfl⟩, rfl,
        fun _ hsp => List.mem_append_left _ hsp⟩
    · exact ⟨t, List.mem_map.mpr ⟨t, ht, if_neg he⟩, rfl, fun _ hsp => hsp⟩
  · intro _
    exact ⟨_, List.mem_map.mpr ⟨trunk, htrunk, if_pos rfl⟩, rfl,
      fun _ hsp => List.mem_append_right _ hsp⟩

theorem cleanParent_spec {s : State} {trunk : Trunk} {subports : List SubPort} {st : Store}
    (h : Inv s) (hst : cleanParentPortSwitchportConfig s trunk subports = some st) :
    Owing [] st ∧ Shrinks s.store st (OwnedBySubports s trunk.portId subports) := by
  unfold cleanParentPortSwitchportConfig at hst
  simp only [bind, Option.bind_eq_some_iff] at hst
  obtain ⟨parent, hfetch, hst⟩ := hst
  obtain ⟨hparent, hpid⟩ := fetchPortObject_some hfetch
  split at hst
  next hunbound =>
    obtain rfl := Option.some.inj hst
    refine ⟨h.store, fun _ hs => hs, fun l hl => ⟨hl, ?_⟩⟩
    rintro ⟨-, -, hbound⟩
    exact hunbound (h.parentPortIsBound hparent (hbound parent hparent hpid).1)
  next =>
    rw [Option.ite_none_left_eq_some] at hst
    obtain ⟨howing, hsegs, hlevels⟩ := handleSegmentDeallocation_spec h.store hst.2
    refine ⟨howing, hsegs, fun l hl => ⟨(hlevels l hl).1, ?_⟩⟩
    rintro ⟨hlevel, hsp, hbound⟩
    exact (hlevels l hl).2 ⟨hlevel, (hbound parent hparent hpid).2.symm, hsp⟩

/-- Levels of removed subports are gone, and the trunks keep their other subports. -/
theorem Inv.shrinkTrunks {s : State} {st : Store} {trunks : List Trunk} {trunk : Trunk}
    {removed : List SubPort} (h : Inv s) (howing : Owing [] st)
    (hshrinks : Shrinks s.store st (OwnedBySubports s trunk.portId removed))
    (hids : (trunks.map Trunk.id).Nodup) (hparents : (trunks.map Trunk.portId).Nodup)
    (hkept : ∀ t ∈ s.trunks, ∀ sp ∈ t.subPorts,
      (t = trunk ∧ sp ∈ removed) ∨ ∃ t' ∈ trunks, t'.portId = t.portId ∧ sp ∈ t'.subPorts) :
    Inv { s with store := st, trunks := trunks } := by
  refine ⟨howing, h.portIds, hids, hparents, h.bound, ?_⟩
  intro l hl
  obtain ⟨hl, hgone⟩ := hshrinks.levels l hl
  rcases h.owned l hl with hown | ⟨t, ht, hlevel, ⟨sp, hsp, he⟩, hbound⟩
  · left
    exact hown.mono (fun p hp _ _ _ => hp) fun seg hs _ => hshrinks.segments seg hs
  · right
    rcases hkept t ht sp hsp with ⟨rfl, hrem⟩ | ⟨t', ht', hparent, hsp'⟩
    · exact absurd ⟨hlevel, ⟨sp, hrem, he⟩, hbound⟩ hgone
    · exact ⟨t', ht', hlevel, ⟨sp, hsp', he⟩, hparent ▸ hbound⟩

theorem Inv.afterRemoveSubports {s s' : State} {trunkId : String} {portIds : List String} (h : Inv s)
    (hs' : removeSubportsOp s trunkId portIds = some s') : Inv s' := by
  unfold removeSubportsOp at hs'
  simp only [bind, pure, Option.bind_eq_some_iff, Option.some.injEq] at hs'
  obtain ⟨trunk, hfind, st, hst, rfl⟩ := hs'
  have htrunk := List.mem_of_find?_eq_some hfind
  obtain ⟨howing, hshrinks⟩ := cleanParent_spec h hst
  apply h.shrinkTrunks howing hshrinks
  · exact nodup_replaceTrunk (by rfl) (by rfl) htrunk h.trunkIds h.trunkIds
  · exact nodup_replaceTrunk (by rfl) (by rfl) htrunk h.trunkIds h.trunkParents
  · intro t ht sp hsp
    by_cases he : t.id = trunk.id
    · obtain rfl := List.inj_on_of_nodup_map h.trunkIds ht htrunk he
      by_cases hmem : sp.portId ∈ portIds
      · exact .inl ⟨rfl, List.mem_filter.mpr ⟨hsp, decide_eq_true hmem⟩⟩
      · exact .inr ⟨_, List.mem_map.mpr ⟨t, ht, if_pos rfl⟩, rfl,
          List.mem_filter.mpr ⟨hsp, decide_eq_true hmem⟩⟩
    · exact .inr ⟨t, List.mem_map.mpr ⟨t, ht, if_neg he⟩, rfl, hsp⟩

theorem Inv.afterDeleteTrunk {s s' : State} {trunkId : String} (h : Inv s)
    (hs' : deleteTrunkOp s trunkId = some s') : Inv s' := by
  unfold deleteTrunkOp at hs'
  simp only [bind, pure, Option.bind_eq_some_iff, Option.some.injEq] at hs'
  obtain ⟨trunk, hfind, st, hst, rfl⟩ := hs'
  have htrunk := List.mem_of_find?_eq_some hfind
  have hid : trunk.id = trunkId := by simpa using List.find?_some hfind
  have hspec : Owing [] st ∧ Shrinks s.store st
      (OwnedBySubports s trunk.portId trunk.subPorts) := by
    unfold trunkDeleted at hst
    split at hst
    next hnone =>
      obtain rfl := Option.some.inj hst
      refine ⟨h.store, fun _ hs => hs, fun l hl => ⟨hl, ?_⟩⟩
      rintro ⟨-, ⟨sp, hsp, -⟩, -⟩
      rw [hnone] at hsp
      cases hsp
    next => exact cleanParent_spec h hst
  apply h.shrinkTrunks hspec.1 hspec.2
  · exact h.trunkIds.sublist (List.filter_sublist.map _)
  · exact h.trunkParents.sublist (List.filter_sublist.map _)
  · intro t ht sp hsp
    by_cases he : t.id = trunkId
    · obtain rfl := List.inj_on_of_nodup_map h.trunkIds ht htrunk (he.trans hid.symm)
      exact .inl ⟨rfl, hsp⟩
    · exact .inr ⟨t, List.mem_filter.mpr ⟨ht, decide_eq_true he⟩, rfl, hsp⟩

theorem Inv.applyOp {config : Config} {s : State} {op : BindingOp} (h : Inv s)
    (hok : (tryOp config s op).isSome = true ∧ ¬ LeaksSegment config s op) :
    Inv (applyOp config s op) := by
  obtain ⟨hsome, hleak⟩ := hok
  obtain ⟨s', hs'⟩ := Option.isSome_iff_exists.mp hsome
  rw [Segments.applyOp, hs', Option.getD_some]
  cases op with
  | bind portId host profile => exact h.afterBind hs'
  | unbind portId => exact h.afterUnbind hleak hs'
  | delete portId => exact h.afterDelete hleak hs'
  | createTrunk trunk => exact h.afterCreateTrunk hs'
  | addSubports trunkId subports => exact h.afterAddSubports hs'
  | removeSubports trunkId portIds => exact h.afterRemoveSubports hs'
  | deleteTrunk trunkId => exact h.afterDeleteTrunk hs'

/-- Dynamic segments are allocated exactly while they are used, over every run in which the last
user of a segment leaves it by another way than an unbind or a delete on the provisioning
network. -/
theorem bindingRun_contract (config : Config) (s : State) (hs : Initial s) (ops : List BindingOp)
    (h : Runs.Along (applyOp config)
      (fun s op => (tryOp config s op).isSome = true ∧ ¬ LeaksSegment config s op) s ops) :
    ∀ pre, pre <+: ops → SegmentContract (pre.foldl (applyOp config) s) := by
  intro pre hpre
  exact (h.invariant (fun s op hs hop => hs.applyOp hop) hs.inv hpre).contract

/-- Two baremetal ports on a VXLAN network, a trunk on the first and a subport on a VXLAN network
of its own. -/
def smallState : State where
  store := { segments := [⟨0, "net", .vxlan, none, false⟩, ⟨1, "sub", .vxlan, none, false⟩]
             levels := [], nextId := 2 }
  ports := [⟨"p", "net", .baremetal, .unbound, "", []⟩, ⟨"q", "net", .baremetal, .unbound, "", []⟩,
    ⟨"child", "sub", .normal, .unbound, "", []⟩]
  trunks := [⟨"trunk", "p", []⟩]

def smallConfig : Config where
  provisioningNetwork := "provisioning"
  networkNodeTrunkId := "network-node"
  allowedTenantVlanIdRanges := [(100, 199)]

theorem smallState_initial : Initial smallState where
  noLevels := rfl
  static := by decide
  segmentIds := by decide
  fresh := by decide
  unbound := by decide
  portIds := by decide
  trunkIds := by decide
  trunkParents := by decide

def sharedSegmentOps : List BindingOp :=
  [.bind "p" "h1" [("physical_network", "group")],
    .addSubports "trunk" [⟨"child", 150⟩], .bind "q" "h2" [("physical_network", "group")],
    .unbind "p", .delete "q", .bind "p" "h1" [("physical_network", "group")],
    .deleteTrunk "trunk", .delete "p"]

theorem bindingRun_contract_sharedSegment :
    Initial smallState ∧
    Runs.Along (applyOp smallConfig)
      (fun s op => (tryOp smallConfig s op).isSome = true ∧ ¬ LeaksSegment smallConfig s op)
      smallState sharedSegmentOps ∧
    (((sharedSegmentOps.take 3).foldl (applyOp smallConfig) smallState).store.levels.length = 5) ∧
    ∀ pre, pre <+: sharedSegmentOps →
      SegmentContract (pre.foldl (applyOp smallConfig) smallState) :=
  have h : Runs.Along (applyOp smallConfig)
      (fun s op => (tryOp smallConfig s op).isSome = true ∧ ¬ LeaksSegment smallConfig s op)
      smallState sharedSegmentOps := by decide
  ⟨smallState_initial, h, by decide,
    bindingRun_contract smallConfig smallState smallState_initial sharedSegmentOps h⟩

/-- The dynamic segment of a port that is bound and unbound again stays behind. -/
theorem bindingRun_unbind_leaks :
    ¬ ∀ (config : Config) (s : State), Initial s → ∀ ops : List BindingOp,
      Runs.Along (applyOp config) (fun s op => (tryOp config s op).isSome = true) s ops →
      ∀ pre, pre <+: ops → SegmentContract (pre.foldl (applyOp config) s) := by
  intro hall
  have hcontract := hall smallConfig smallState smallState_initial
    [.bind "p" "h1" [("physical_network", "group")], .unbind "p"] (by decide) _
    (List.prefix_refl _)
  obtain ⟨l, hl, -⟩ := hcontract.allocated_used ⟨2, "net", .vlan, some "group", true⟩
    (by decide) rfl rfl
  have hnone : (List.foldl (applyOp smallConfig) smallState
      [.bind "p" "h1" [("physical_network", "group")], .unbind "p"]).store.levels = [] := by decide
  rw [hnone] at hl
  cases hl

end Understack.Neutron.Segments
