import Understack.Neutron.PortBinding

/-! Who owns a binding level. The loops over the subports of a trunk keep the tables consistent,
and every level belongs to a bound port or to a subport of a bound parent. -/
namespace Understack.Neutron.Segments

/-- The level that a subport gets on the host of its parent. -/
def IsSubportLevel (subports : List SubPort) (host : String) (l : BindingLevel) : Prop :=
  l.level = 0 ∧ l.host = host ∧ ∃ sp ∈ subports, sp.portId = l.portId

theorem handleSegmentAllocation_spec {ports : List Port} {vlanGroup host : String}
    {owed : List ℕ} {st st' : Store} {subports : List SubPort} (h : Owing owed st)
    (hst' : handleSegmentAllocation ports vlanGroup host st subports = some st') :
    Owing owed st' ∧ Extends st st' (IsSubportLevel subports host) := by
  induction subports generalizing st with
  | nil =>
    obtain rfl := Option.some.inj hst'
    exact ⟨h, Extends.refl _ _⟩
  | cons sp rest ih =>
    unfold handleSegmentAllocation at hst'
    simp only [bind, Option.bind_eq_some_iff] at hst'
    obtain ⟨port, -, st₁, hst₁, hrec⟩ := hst'
    obtain ⟨howing, hmem, -, hext⟩ := h.vlanSegmentFor port.networkId vlanGroup
    obtain ⟨howing₁, hext₁⟩ := howing.createBindingProfileLevel ⟨_, hmem, rfl⟩ hst₁
    obtain ⟨howing', hext'⟩ := ih howing₁ hrec
    refine ⟨howing', ?_⟩
    apply ((hext.mono fun _ hf => hf.elim).trans (hext₁.mono ?_)).trans (hext'.mono ?_)
    · rintro l rfl
      exact ⟨rfl, rfl, sp, List.mem_cons_self, rfl⟩
    · rintro l ⟨hl, hh, x, hx, he⟩
      exact ⟨hl, hh, x, List.mem_cons_of_mem _ hx, he⟩

/-- What is left after a cleanup: rows and segments that were there. -/
structure Shrinks (st st' : Store) (gone : BindingLevel → Prop) : Prop where
  segments : ∀ seg ∈ st'.segments, seg ∈ st.segments
  levels : ∀ l ∈ st'.levels, l ∈ st.levels ∧ ¬ gone l

theorem handleSegmentDeallocation_spec {host : String} {owed : List ℕ} {st st' : Store}
    {subports : List SubPort} (h : Owing owed st)
    (hst' : handleSegmentDeallocation host st subports = some st') :
    Owing owed st' ∧ Shrinks st st' (IsSubportLevel subports host) := by
  induction subports generalizing st with
  | nil =>
    obtain rfl := Option.some.inj hst'
    refine ⟨h, fun _ hs => hs, fun l hl => ⟨hl, ?_⟩⟩
    rintro ⟨-, -, sp, hsp, -⟩
    cases hsp
  | cons sp rest ih =>
    -- Both branches leave no row with the key of the first subport.
    have key {st₁ : Store} (howing₁ : Owing owed st₁)
        (hsegs : ∀ seg ∈ st₁.segments, seg ∈ st.segments)
        (hlevels : ∀ l ∈ st₁.levels, l ∈ st.levels ∧ ¬ l.hasKey sp.portId host 0 = true)
        (hrec : handleSegmentDeallocation host st₁ rest = some st') :
        Owing owed st' ∧ Shrinks st st' (IsSubportLevel (sp :: rest) host) := by
      obtain ⟨howing', hsegs', hlevels'⟩ := ih howing₁ hrec
      refine ⟨howing', fun seg hs => hsegs seg (hsegs' seg hs), ?_⟩
      intro l hl
      obtain ⟨hl₁, hgone⟩ := hlevels' l hl
      obtain ⟨hold, hkey⟩ := hlevels l hl₁
      refine ⟨hold, ?_⟩
      rintro ⟨hlev, hhost, x, hx, he⟩
      rcases List.mem_cons.mp hx with rfl | hx
      · exact hkey (hasKey_iff.mpr ⟨he.symm, hhost, hlev⟩)
      · exact hgone ⟨hlev, hhost, x, hx, he⟩
    unfold handleSegmentDeallocation at hst'
    split at hst'
    next hnone =>
      exact key h (fun _ hs => hs) (fun l hl => ⟨hl, List.find?_eq_none.mp hnone l hl⟩) hst'
    next level hfind =>
      simp only [bind, Option.bind_eq_some_iff] at hst'
      obtain ⟨st₁, hst₁, hrec⟩ := hst'
      have hmem := List.mem_of_find?_eq_some hfind
      obtain ⟨h1, h2, h3⟩ := hasKey_iff.mp (List.find?_some hfind)
      have howed : Owing (level.segmentId :: owed)
          (dropLevels st (BindingLevel.hasKey sp.portId host 0)) := by
        apply (h.dropLevels _).weaken
        intro i hi
        rcases List.mem_append.mp hi with hi | hi
        · obtain ⟨l, hl, rfl⟩ := List.mem_map.mp hi
          obtain ⟨hl, hkey⟩ := List.mem_filter.mp hl
          rw [h.keys level hmem l hl (by rw [h1, h2, h3]; exact hkey)]
          exact List.mem_cons_self
        · exact List.mem_cons_of_mem _ hi
      obtain ⟨howing₁, hlevels, hsegs⟩ := howed.deleteUnusedSegment hst₁
      apply key howing₁ hsegs _ hrec
      intro l hl
      rw [hlevels] at hl
      obtain ⟨hl, hkeep⟩ := List.mem_filter.mp hl
      exact ⟨hl, of_decide_eq_true hkeep⟩

/-! The global invariant. -/

/-- The level belongs to a port that is bound on its host, and a dynamic segment of it is the
one of the network on the physnet of the port. -/
def OwnedByPort (s : State) (l : BindingLevel) : Prop :=
  ∃ p ∈ s.ports, p.id = l.portId ∧ p.vifType = .other ∧ p.host = l.host ∧
    ∀ seg ∈ s.store.segments, seg.id = l.segmentId → seg.isDynamic = true →
      seg.networkId = p.networkId ∧ seg.physicalNetwork = p.physicalNetwork

/-- The level belongs to one of the subports, and the parent, where it still exists, is bound on
the host. -/
def OwnedBySubports (s : State) (parentId : String) (subports : List SubPort)
    (l : BindingLevel) : Prop :=
  l.level = 0 ∧ (∃ sp ∈ subports, sp.portId = l.portId) ∧
    ∀ p ∈ s.ports, p.id = parentId → p.vifType = .other ∧ p.host = l.host

def OwnedByTrunk (s : State) (l : BindingLevel) : Prop :=
  ∃ t ∈ s.trunks, OwnedBySubports s t.portId t.subPorts l

structure Inv (s : State) : Prop where
  store : Owing [] s.store
  portIds : (s.ports.map Port.id).Nodup
  trunkIds : (s.trunks.map Trunk.id).Nodup
  trunkParents : (s.trunks.map Trunk.portId).Nodup
  bound : ∀ p ∈ s.ports, p.vifType = .other →
    p.vnicType = .baremetal ∧ p.physicalNetwork ≠ none
  owned : ∀ l ∈ s.store.levels, OwnedByPort s l ∨ OwnedByTrunk s l

theorem Inv.contract {s : State} (h : Inv s) : SegmentContract s where
  allocated_used := by
    intro seg hs hd _
    exact (h.store.used seg hs hd).resolve_right List.not_mem_nil
  used_allocated := h.store.refs

theorem Initial.inv {s : State} (h : Initial s) : Inv s := by
  have hstatic (seg : Segment) (hs : seg ∈ s.store.segments) : ¬ seg.isDynamic = true := by
    simp [h.static seg hs]
  have hstore : Owing [] s.store :=
    ⟨h.segmentIds, h.fresh, fun seg hs hd => absurd hd (hstatic seg hs),
      fun a ha _ _ _ _ hd => absurd hd (hstatic a ha), by simp [h.noLevels], by simp [h.noLevels],
      fun seg hs hd => absurd hd (hstatic seg hs)⟩
  refine ⟨hstore, h.portIds, h.trunkIds, h.trunkParents, ?_, by simp [h.noLevels]⟩
  intro p hp hb
  rw [(h.unbound p hp).1] at hb
  cases hb

theorem Inv.port_eq {s : State} (h : Inv s) {p q : Port} (hp : p ∈ s.ports) (hq : q ∈ s.ports)
    (he : p.id = q.id) : p = q :=
  List.inj_on_of_nodup_map h.portIds hp hq he

theorem fetchPortObject_some {ports : List Port} {portId : String} {p : Port}
    (h : fetchPortObject ports portId = some p) : p ∈ ports ∧ p.id = portId :=
  ⟨List.mem_of_find?_eq_some h, by simpa using List.find?_some h⟩

theorem Inv.parentPortIsBound {s : State} (h : Inv s) {p : Port} (hp : p ∈ s.ports)
    (hb : p.vifType = .other) : parentPortIsBound p = true := by
  obtain ⟨hvnic, hphys⟩ := h.bound p hp hb
  have hprofile : p.profile ≠ [] := by
    intro he
    simp [Port.physicalNetwork, he] at hphys
  simp [Segments.parentPortIsBound, hb, hvnic, hprofile]

theorem map_id_replacePort (ports : List Port) (port : Port) :
    (replacePort ports port).map Port.id = ports.map Port.id := by
  rw [replacePort, List.map_map]
  apply List.map_congr_left
  intro p _
  simp only [Function.comp_apply]
  split
  next h => exact h.symm
  next => rfl

theorem mem_replacePort {ports : List Port} {port p : Port} (h : p ∈ replacePort ports port) :
    p = port ∨ p ∈ ports ∧ p.id ≠ port.id := by
  obtain ⟨q, hq, rfl⟩ := List.mem_map.mp h
  split
  next => exact .inl rfl
  next hne => exact .inr ⟨hq, hne⟩

theorem mem_replacePort_of_ne {ports : List Port} {port p : Port} (hp : p ∈ ports)
    (hne : p.id ≠ port.id) : p ∈ replacePort ports port :=
  List.mem_map.mpr ⟨p, hp, if_neg hne⟩

theorem mem_replacePort_self {ports : List Port} {port original : Port} (hp : original ∈ ports)
    (he : original.id = port.id) : port ∈ replacePort ports port :=
  List.mem_map.mpr ⟨original, hp, if_pos he⟩

end Understack.Neutron.Segments
