import Understack.Neutron.SegmentUsage

/-! The binding levels of a VLAN group, and what each handler that Neutron calls for ports and
trunks changes of them: a binding adds levels in the group of its port, the cleanups remove
levels. -/
namespace Understack.Neutron.Segments

/-- The levels of a VLAN group: what its switches are configured from. -/
def vlanLevels (st : Store) (vlanGroup : String) : List BindingLevel :=
  st.levels.filter fun l => st.segments.any fun seg =>
    seg.id = l.segmentId ∧ seg.networkType = .vlan ∧ seg.physicalNetwork = some vlanGroup

/-- `subports_added_post`, and the end of `_clean_parent_port_switchport_config`. -/
def syncParentPort (ports : List Port) (trunk : Trunk) : Option String :=
  (fetchPortObject ports trunk.portId).bind fun parent =>
    if parentPortIsBound parent then parent.physicalNetwork else none

/-! Changes within one VLAN group. -/

variable {owed owed' : List ℕ} {st st' : Store} {g : String} {synced : Option String}
  {l : BindingLevel}

theorem mem_vlanLevels : l ∈ vlanLevels st g ↔ l ∈ st.levels ∧ ∃ seg ∈ st.segments,
    seg.id = l.segmentId ∧ seg.networkType = .vlan ∧ seg.physicalNetwork = some g := by
  simp [vlanLevels]

/-- A level in two stores is in the same group in both. -/
theorem mem_vlanLevels_congr (hst : Owing owed st) (hst' : Owing owed' st')
    (hsegs : ∀ seg ∈ st.segments, seg ∈ st'.segments) (hl : l ∈ st.levels) (hl' : l ∈ st'.levels) :
    l ∈ vlanLevels st' g ↔ l ∈ vlanLevels st g := by
  rw [mem_vlanLevels, mem_vlanLevels]
  constructor
  · rintro ⟨-, seg, hseg, hid, hrest⟩
    obtain ⟨old, hold, hid'⟩ := hst.refs l hl
    obtain rfl := hst'.eq_of_id (hsegs old hold) hseg (hid'.trans hid.symm)
    exact ⟨hl, old, hold, hid, hrest⟩
  · rintro ⟨-, seg, hseg, hrest⟩
    exact ⟨hl', seg, hsegs seg hseg, hrest⟩

/-- The tables are consistent, though segments may be left behind unused. -/
def Consistent (st : Store) : Prop := ∃ owed, Owing owed st

/-- The level is in no other group than the one that is synced. -/
def OnlyIn (st : Store) (synced : Option String) (l : BindingLevel) : Prop :=
  ∀ g, l ∈ vlanLevels st g → synced = some g

/-- The groups that are not synced have the levels they had. -/
def Follows (synced : Option String) (st st' : Store) : Prop :=
  ∀ g, synced ≠ some g → ∀ l, l ∈ vlanLevels st' g ↔ l ∈ vlanLevels st g

/-- Rows are added, the levels in the synced group. -/
structure Grows (synced : Option String) (st st' : Store) : Prop where
  levels : ∀ l ∈ st.levels, l ∈ st'.levels
  segments : ∀ seg ∈ st.segments, seg ∈ st'.segments
  new : ∀ l ∈ st'.levels, l ∉ st.levels → OnlyIn st' synced l

/-- Rows are removed, the levels just as said. -/
structure Removes (gone : BindingLevel → Prop) (st st' : Store) : Prop where
  levels : ∀ l, l ∈ st'.levels ↔ l ∈ st.levels ∧ ¬gone l
  segments : ∀ seg ∈ st'.segments, seg ∈ st.segments

theorem Grows.refl (synced : Option String) (st : Store) : Grows synced st st :=
  ⟨fun _ hl => hl, fun _ hs => hs, fun _ hl hn => absurd hl hn⟩

theorem Grows.trans {st₁ st₂ st₃ : Store} (h : Grows synced st₁ st₂) (h' : Grows synced st₂ st₃)
    (h₂ : Owing owed st₂) (h₃ : Owing owed' st₃) : Grows synced st₁ st₃ := by
  refine ⟨fun l hl => h'.levels l (h.levels l hl), fun seg hs => h'.segments seg (h.segments seg hs),
    fun l hl hn => ?_⟩
  by_cases hmid : l ∈ st₂.levels
  · intro g hg
    exact h.new l hmid hn g ((mem_vlanLevels_congr h₂ h₃ h'.segments hmid hl).mp hg)
  · exact h'.new l hl hmid

theorem Grows.groups (h : Grows synced st st') (hst : Consistent st) (hst' : Consistent st')
    (hl : l ∈ st.levels) : l ∈ vlanLevels st' g ↔ l ∈ vlanLevels st g := by
  obtain ⟨owed, hst⟩ := hst
  obtain ⟨owed', hst'⟩ := hst'
  exact mem_vlanLevels_congr hst hst' h.segments hl (h.levels l hl)

theorem Removes.groups {gone : BindingLevel → Prop} (h : Removes gone st st') (hst : Consistent st)
    (hst' : Consistent st') (hl' : l ∈ st'.levels) : l ∈ vlanLevels st' g ↔ l ∈ vlanLevels st g := by
  obtain ⟨owed, hst⟩ := hst
  obtain ⟨owed', hst'⟩ := hst'
  exact (mem_vlanLevels_congr hst' hst h.segments hl' ((h.levels l).mp hl').1).symm

theorem Grows.follows (h : Grows synced st st') (hst : Consistent st) (hst' : Consistent st') :
    Follows synced st st' := by
  intro g hne l
  by_cases hl : l ∈ st.levels
  · exact h.groups hst hst' hl
  · constructor
    · intro hg
      exact absurd (h.new l (mem_vlanLevels.mp hg).1 hl g hg) hne
    · intro hg
      exact absurd (mem_vlanLevels.mp hg).1 hl

theorem Removes.follows {gone : BindingLevel → Prop} (h : Removes gone st st')
    (hst : Consistent st) (hst' : Consistent st')
    (hgone : ∀ l ∈ st.levels, gone l → OnlyIn st synced l) : Follows synced st st' := by
  intro g hne l
  by_cases hl' : l ∈ st'.levels
  · exact h.groups hst hst' hl'
  · constructor
    · intro hg
      exact absurd (mem_vlanLevels.mp hg).1 hl'
    · intro hg
      have hl := (mem_vlanLevels.mp hg).1
      exact absurd ((h.levels l).mpr ⟨hl, fun hrow => hne (hgone l hl hrow g hg)⟩) hl'

/-! The writes of an allocation. -/

theorem vlanSegmentFor_grows (synced : Option String) (st : Store) (networkId physnet : String) :
    Grows synced st (vlanSegmentFor st networkId physnet).1 := by
  have hsame {st' : Store} (hlevels : st'.levels = st.levels)
      (hsegs : ∀ seg ∈ st.segments, seg ∈ st'.segments) : Grows synced st st' :=
    ⟨fun l hl => hlevels ▸ hl, hsegs, fun l hl hn => absurd (hlevels ▸ hl) hn⟩
  unfold vlanSegmentFor
  split
  · exact Grows.refl synced st
  · unfold allocateDynamicSegment
    split
    · exact Grows.refl synced st
    · exact hsame rfl fun seg hs => List.mem_append_left _ hs

theorem insertLevel_grows {row : BindingLevel} (hst' : insertLevel st row = some st')
    (hrow : ∀ seg ∈ st.segments, seg.id = row.segmentId → seg.networkType = .vlan →
      seg.physicalNetwork = synced) :
    Grows synced st st' ∧ row ∈ st'.levels := by
  unfold insertLevel at hst'
  split at hst'
  · cases hst'
  · obtain rfl := Option.some.inj hst'
    refine ⟨⟨fun l hl => List.mem_append_left _ hl, fun _ hs => hs, fun l hl hn g hg => ?_⟩,
      List.mem_append_right _ (List.mem_singleton_self row)⟩
    obtain ⟨-, seg, hseg, hid, htype, hgroup⟩ := mem_vlanLevels.mp hg
    obtain rfl := List.mem_singleton.mp ((List.mem_append.mp hl).resolve_left hn)
    exact (hrow seg hseg hid htype).symm.trans hgroup

theorem createBindingProfileLevel_grows {row : BindingLevel}
    (hst' : createBindingProfileLevel st row = some st')
    (hrow : ∀ seg ∈ st.segments, seg.id = row.segmentId → seg.networkType = .vlan →
      seg.physicalNetwork = synced) :
    Grows synced st st' ∧ row ∈ st'.levels := by
  unfold createBindingProfileLevel at hst'
  split at hst'
  next hmem =>
    obtain rfl := Option.some.inj hst'
    exact ⟨Grows.refl synced st, hmem⟩
  next => exact insertLevel_grows hst' hrow

/-- The subports get levels in the VLAN group. -/
theorem handleSegmentAllocation_grows {ports : List Port} {host : String} {subports : List SubPort}
    (h : Owing owed st) (hst' : handleSegmentAllocation ports g host st subports = some st') :
    Grows (some g) st st' ∧ ∀ sp ∈ subports, ∃ l ∈ vlanLevels st' g, l.portId = sp.portId := by
  induction subports generalizing st with
  | nil =>
    obtain rfl := Option.some.inj hst'
    exact ⟨Grows.refl (some g) st, by simp⟩
  | cons sp rest ih =>
    unfold handleSegmentAllocation at hst'
    simp only [bind, Option.bind_eq_some_iff] at hst'
    obtain ⟨port, -, st₁, hst₁, hrec⟩ := hst'
    obtain ⟨howing, hmem, hon, -⟩ := h.vlanSegmentFor port.networkId g
    obtain ⟨-, htype, hgroup⟩ := isVlanOn_iff.mp hon
    obtain ⟨howing₁, -⟩ := howing.createBindingProfileLevel ⟨_, hmem, rfl⟩ hst₁
    obtain ⟨hgrows₁, hrow₁⟩ := createBindingProfileLevel_grows hst₁ fun seg hseg hid _ =>
      (howing.eq_of_id hseg hmem hid) ▸ hgroup
    obtain ⟨hgrows', hall⟩ := ih howing₁ hrec
    have howing' := (handleSegmentAllocation_spec howing₁ hrec).1
    refine ⟨((vlanSegmentFor_grows (some g) st _ _).trans hgrows₁ howing howing₁).trans hgrows' howing₁
      howing', fun sp' hsp' => ?_⟩
    rcases List.mem_cons.mp hsp' with rfl | hsp'
    · refine ⟨_, mem_vlanLevels.mpr ⟨hgrows'.levels _ hrow₁, _,
        hgrows'.segments _ (hgrows₁.segments _ hmem), rfl, htype, hgroup⟩, rfl⟩
    · exact hall sp' hsp'

/-- Only levels of the subports on the host are removed. -/
theorem handleSegmentDeallocation_keeps {host : String} {subports : List SubPort}
    (hst' : handleSegmentDeallocation host st subports = some st') (hl : l ∈ st.levels)
    (hother : ¬IsSubportLevel subports host l) : l ∈ st'.levels := by
  induction subports generalizing st with
  | nil =>
    obtain rfl := Option.some.inj hst'
    exact hl
  | cons sp rest ih =>
    have hrest : ¬IsSubportLevel rest host l := fun ⟨hlevel, hhost, x, hx, he⟩ =>
      hother ⟨hlevel, hhost, x, List.mem_cons_of_mem _ hx, he⟩
    unfold handleSegmentDeallocation at hst'
    split at hst'
    next => exact ih hst' hl hrest
    next level hfind =>
      simp only [bind, Option.bind_eq_some_iff] at hst'
      obtain ⟨st₁, hst₁, hrec⟩ := hst'
      have hkept : l ∈ (dropLevels st (BindingLevel.hasKey sp.portId host 0)).levels := by
        refine List.mem_filter.mpr ⟨hl, ?_⟩
        rw [decide_eq_true_iff]
        intro hkey
        obtain ⟨hport, hhost, hlevel⟩ := hasKey_iff.mp hkey
        exact hother ⟨hlevel, hhost, sp, List.mem_cons_self, hport.symm⟩
      have hsame : st₁.levels =
          (dropLevels st (BindingLevel.hasKey sp.portId host 0)).levels := by
        unfold deleteUnusedSegment at hst₁
        split at hst₁
        · cases hst₁
          rfl
        · split at hst₁
          · cases hst₁
          · cases hst₁
            split <;> rfl
      exact ih hrec (hsame ▸ hkept) hrest

/-! The store after each operation. -/

theorem handleSegmentDeallocation_removes {host : String} {subports : List SubPort}
    (h : Consistent st) (hst' : handleSegmentDeallocation host st subports = some st') :
    Consistent st' ∧ Removes (IsSubportLevel subports host) st st' := by
  obtain ⟨owed, h⟩ := h
  obtain ⟨howing, hsegs, hlevels⟩ := handleSegmentDeallocation_spec h hst'
  refine ⟨⟨owed, howing⟩, fun l => ⟨hlevels l, ?_⟩, hsegs⟩
  rintro ⟨hl, hkept⟩
  exact handleSegmentDeallocation_keeps hst' hl hkept

theorem Consistent.dropLevels (h : Consistent st) (drop : BindingLevel → Bool) :
    Consistent (dropLevels st drop) ∧ Removes (fun l => drop l = true) st (dropLevels st drop) := by
  obtain ⟨owed, h⟩ := h
  refine ⟨⟨_, h.dropLevels drop⟩, fun l => ?_, fun _ hs => hs⟩
  simp [Segments.dropLevels]

theorem Consistent.releaseSegmentIfUnused (h : Consistent st) {segment : Segment}
    (hsegment : segment ∈ st.segments) :
    Consistent (releaseSegmentIfUnused st segment) := by
  obtain ⟨owed, h⟩ := h
  exact ⟨owed, (h.weaken fun i hi => List.mem_cons_of_mem _ hi).releaseSegmentIfUnused hsegment⟩

theorem Removes.trans {gone gone' : BindingLevel → Prop} {st₁ st₂ st₃ : Store}
    (h : Removes gone st₁ st₂) (h' : Removes gone' st₂ st₃) :
    Removes (fun l => gone l ∨ gone' l) st₁ st₃ := by
  refine ⟨fun l => ?_, fun seg hs => h.segments seg (h'.segments seg hs)⟩
  rw [h'.levels, h.levels, and_assoc, not_or]

theorem Removes.congr {gone gone' : BindingLevel → Prop} (h : Removes gone st st')
    (hgone : ∀ l, gone l ↔ gone' l) : Removes gone' st st' :=
  ⟨fun l => by rw [h.levels, hgone], h.segments⟩

theorem tenantNetworkPortCleanup_removes {s : State} {original : Port} {topSegmentId : ℕ}
    (h : Consistent st) (hst' : tenantNetworkPortCleanup s st original topSegmentId = some st') :
    Consistent st' ∧ Removes (fun l => ∃ t, trunkDetails s original.id = some t ∧
      IsSubportLevel t.subPorts original.host l) st st' := by
  have key {st₁ : Store} (h₁ : Consistent st₁) (hlevels : st₁.levels = st.levels)
      (hsegs : ∀ seg ∈ st₁.segments, seg ∈ st.segments)
      (hnone : trunkDetails s original.id = none → some st₁ = some st')
      (hsome : ∀ trunk, trunkDetails s original.id = some trunk →
        handleSegmentDeallocation original.host st₁ trunk.subPorts = some st') :
      Consistent st' ∧ Removes (fun l => ∃ t, trunkDetails s original.id = some t ∧
        IsSubportLevel t.subPorts original.host l) st st' := by
    cases htrunk : trunkDetails s original.id with
    | none =>
      obtain rfl := Option.some.inj (hnone htrunk)
      exact ⟨h₁, fun l => by simp [hlevels], hsegs⟩
    | some trunk =>
      obtain ⟨hst₂, hremoves⟩ := handleSegmentDeallocation_removes h₁ (hsome trunk htrunk)
      refine ⟨hst₂, fun l => ?_, fun seg hs => hsegs seg (hremoves.segments seg hs)⟩
      rw [hremoves.levels, hlevels]
      simp
  unfold tenantNetworkPortCleanup at hst'
  cases hfind : networkSegmentById st topSegmentId with
  | none =>
    rw [hfind] at hst'
    refine key h rfl (fun _ hs => hs) (fun htrunk => ?_) fun trunk htrunk => ?_
    · rw [htrunk] at hst'
      exact hst'
    · rw [htrunk] at hst'
      exact hst'
  | some segment =>
    rw [hfind] at hst'
    obtain ⟨hlevels, hsegs⟩ := releaseSegmentIfUnused_shrinks st segment
    refine key (h.releaseSegmentIfUnused (List.mem_of_find?_eq_some hfind)) hlevels hsegs
      (fun htrunk => ?_) fun trunk htrunk => ?_
    · rw [htrunk] at hst'
      exact hst'
    · rw [htrunk] at hst'
      exact hst'

theorem deletePortBaremetal_consistent (config : Config) (port : Port) (h : Consistent st) :
    Consistent (deletePortBaremetal config st port) := by
  unfold deletePortBaremetal
  split
  next => exact h
  next =>
    split
    next => exact h
    next =>
      split
      next => exact h
      next segment hfind => exact h.releaseSegmentIfUnused (List.mem_of_find?_eq_some hfind)

theorem bindPort_grows {s : State} {port : Port} (h : Consistent s.store)
    (hst : bindPort s port = some st) :
    Consistent st ∧ port.physicalNetwork ≠ none ∧ Grows port.physicalNetwork s.store st ∧
      ∀ l ∈ st.levels, l ∈ s.store.levels ∨ (l.portId = port.id ∧ l.host = port.host) ∨
        ∃ t, trunkDetails s port.id = some t ∧ IsSubportLevel t.subPorts port.host l := by
  obtain ⟨owed, h⟩ := h
  unfold bindPort bindPortSegment setBindingLevels at hst
  simp only [bind, Option.bind_eq_some_iff] at hst
  obtain ⟨vxlan, hfind, g, hgroup, st₁, htrunk, st₂, hlevel₀, hlevel₁⟩ := hst
  have hvxlan := List.mem_of_find?_eq_some hfind
  have htype := List.find?_some hfind
  simp only [decide_eq_true_eq] at htype
  obtain ⟨howing, hvlan, hon, hext⟩ := h.vlanSegmentFor port.networkId g
  have hgrows := vlanSegmentFor_grows (some g) s.store port.networkId g
  generalize hallocated : vlanSegmentFor s.store port.networkId g = allocated at *
  obtain ⟨st₀, vlan⟩ := allocated
  have hconfigured : Owing (vlan.id :: owed) st₁ ∧ Grows (some g) st₀ st₁ ∧
      Extends st₀ st₁ fun l => ∃ t, trunkDetails s port.id = some t ∧
        IsSubportLevel t.subPorts port.host l := by
    unfold configureTrunk at htrunk
    split at htrunk
    next =>
      obtain rfl := Option.some.inj htrunk
      exact ⟨howing, Grows.refl _ _, Extends.refl _ _⟩
    next trunk hdetails =>
      simp only [addSubportsNetworksToParentPortSwitchport, hgroup, bind, Option.bind_some] at htrunk
      obtain ⟨howing₁, hext₁⟩ := handleSegmentAllocation_spec howing htrunk
      exact ⟨howing₁, (handleSegmentAllocation_grows howing htrunk).1,
        hext₁.mono fun l hl => ⟨trunk, hdetails, hl⟩⟩
  obtain ⟨howing₁, hgrows₁, hext₁⟩ := hconfigured
  have hvxlan₁ := hext₁.segments _ (hext.segments _ hvxlan)
  have hvlan₁ := hext₁.segments _ hvlan
  obtain ⟨howing₂, hext₂⟩ := (howing₁.weaken fun i hi => List.mem_cons_of_mem vxlan.id hi).insertLevel
    ⟨vxlan, hvxlan₁, rfl⟩ hlevel₀
  have hvlan₂ := hext₂.segments _ hvlan₁
  obtain ⟨howing₃, hext₃⟩ := howing₂.insertLevel ⟨_, hvlan₂, rfl⟩ hlevel₁
  have hgrows₂ : Grows (some g) st₁ st₂ := by
    refine (insertLevel_grows hlevel₀ fun seg hseg hid hvlanType => ?_).1
    rw [howing₁.eq_of_id hseg hvxlan₁ hid, htype.2] at hvlanType
    cases hvlanType
  have hgrows₃ : Grows (some g) st₂ st := by
    refine (insertLevel_grows hlevel₁ fun seg hseg hid _ => ?_).1
    rw [howing₂.eq_of_id hseg hvlan₂ hid]
    exact (isVlanOn_iff.mp hon).2.2
  refine ⟨⟨_, howing₃⟩, by simp [hgroup], ?_, fun l hl => ?_⟩
  · rw [hgroup]
    exact ((hgrows.trans hgrows₁ howing howing₁).trans hgrows₂ howing₁ howing₂).trans hgrows₃ howing₂
      howing₃
  · rcases hext₃.newLevels l hl with hl | rfl
    · rcases hext₂.newLevels l hl with hl | rfl
      · rcases hext₁.newLevels l hl with hl | hl
        · exact .inl ((hext.newLevels l hl).resolve_right id)
        · exact .inr (.inr hl)
      · exact .inr (.inl ⟨rfl, rfl⟩)
    · exact .inr (.inl ⟨rfl, rfl⟩)

/-- Subports are added on the switchport of a bound parent. -/
theorem handleTenantVlan_grows {config : Config} {s : State} {trunk : Trunk}
    {subports : List SubPort} (h : Consistent s.store)
    (hst : handleTenantVlanIdAndSwitchportConfig config s trunk.id trunk.portId subports = some st) :
    ∃ parent, fetchPortObject s.ports trunk.portId = some parent ∧ Consistent st ∧
      Grows (syncParentPort s.ports trunk) s.store st ∧
      (∀ l ∈ st.levels, l ∈ s.store.levels ∨
        parentPortIsBound parent = true ∧ IsSubportLevel subports parent.host l) ∧
      (parentPortIsBound parent = true → ∃ g, parent.physicalNetwork = some g ∧
        ∀ sp ∈ subports, ∃ l ∈ vlanLevels st g, l.portId = sp.portId) := by
  unfold handleTenantVlanIdAndSwitchportConfig at hst
  simp only [bind, Option.bind_none, Option.bind_eq_some_iff, Option.ite_none_left_eq_some] at hst
  obtain ⟨-, parent, hfetch, hst⟩ := hst
  refine ⟨parent, hfetch, ?_⟩
  split at hst
  next hbound =>
    simp only [addSubportsNetworksToParentPortSwitchport, bind, Option.bind_eq_some_iff] at hst
    obtain ⟨g, hgroup, halloc⟩ := hst
    obtain ⟨owed, h⟩ := h
    obtain ⟨howing, hext⟩ := handleSegmentAllocation_spec h halloc
    obtain ⟨hgrows, hall⟩ := handleSegmentAllocation_grows h halloc
    have hsync : syncParentPort s.ports trunk = some g := by
      simp [syncParentPort, hfetch, hbound, hgroup]
    exact ⟨⟨owed, howing⟩, hsync ▸ hgrows,
      fun l hl => (hext.newLevels l hl).imp_right fun hsub => ⟨hbound, hsub⟩,
      fun _ => ⟨g, hgroup, hall⟩⟩
  next hunbound =>
    obtain rfl := Option.some.inj hst
    exact ⟨h, Grows.refl _ _, fun l hl => .inl hl, fun hbound => absurd hbound hunbound⟩

theorem cleanParent_removes {s : State} {trunk : Trunk} {subports : List SubPort}
    (h : Consistent s.store) (hst : cleanParentPortSwitchportConfig s trunk subports = some st) :
    ∃ parent, fetchPortObject s.ports trunk.portId = some parent ∧ Consistent st ∧
      Removes (fun l => parentPortIsBound parent = true ∧ IsSubportLevel subports parent.host l)
        s.store st := by
  unfold cleanParentPortSwitchportConfig at hst
  simp only [bind, Option.bind_eq_some_iff] at hst
  obtain ⟨parent, hfetch, hst⟩ := hst
  refine ⟨parent, hfetch, ?_⟩
  split at hst
  next hunbound =>
    obtain rfl := Option.some.inj hst
    exact ⟨h, fun l => by simp [hunbound], fun _ hs => hs⟩
  next hbound =>
    rw [Option.ite_none_left_eq_some] at hst
    obtain ⟨hst', hremoves⟩ := handleSegmentDeallocation_removes h hst.2
    exact ⟨hst', hremoves.congr fun l => by simp [not_not.mp hbound]⟩

end Understack.Neutron.Segments
