import Mathlib.Data.List.Nodup
import Mathlib.Data.Int.Notation
import Understack.Lib.Runs

/-! Network segments and port binding levels, with the helpers of `utils.py` that allocate a
dynamic VLAN segment, bind a level to it and release it once no level is left.

Between these calls a segment may have no level. The invariant `Owing` carries the segments that
the operation in progress still has to bind or release. -/
namespace Understack.Neutron.Segments

inductive NetworkType where
  | vlan
  | vxlan
  | other (name : String)
  deriving DecidableEq, Repr

structure Segment where
  id : ℕ
  networkId : String
  networkType : NetworkType
  physicalNetwork : Option String
  isDynamic : Bool
  deriving DecidableEq, Repr

/-- A row of the port binding levels, keyed by port, host and level. -/
structure BindingLevel where
  portId : String
  host : String
  level : ℕ
  segmentId : ℕ
  deriving DecidableEq, Repr

/-- The two tables, and the next segment id that Neutron hands out. -/
structure Store where
  segments : List Segment
  levels : List BindingLevel
  nextId : ℕ
  deriving DecidableEq, Repr

def Segment.isVlanOn (networkId physnet : String) (seg : Segment) : Bool :=
  seg.networkId = networkId ∧ seg.networkType = .vlan ∧ seg.physicalNetwork = some physnet

def portsBoundToSegment (st : Store) (segmentId : ℕ) : List BindingLevel :=
  st.levels.filter fun l => l.segmentId = segmentId

def networkSegmentById (st : Store) (segmentId : ℕ) : Option Segment :=
  st.segments.find? fun seg => seg.id = segmentId

def networkSegmentByPhysnet (st : Store) (networkId physnet : String) : Option Segment :=
  st.segments.find? (Segment.isVlanOn networkId physnet)

def releaseDynamicSegment (st : Store) (segmentId : ℕ) : Store :=
  { st with segments := st.segments.filter fun seg => seg.id ≠ segmentId }

def releaseSegmentIfUnused (st : Store) (segment : Segment) : Store :=
  if portsBoundToSegment st segment.id = [] ∧ segment.isDynamic then
    releaseDynamicSegment st segment.id
  else st

/-- `_delete_unused_segment`; `none` where the unused segment is not found. -/
def deleteUnusedSegment (st : Store) (segmentId : ℕ) : Option Store :=
  if portsBoundToSegment st segmentId ≠ [] then some st
  else
    match networkSegmentById st segmentId with
    | none => none
    | some segment =>
      some (if segment.isDynamic then releaseDynamicSegment st segmentId else st)

/-- The type manager returns the dynamic segment of the network on the physnet, or adds one. -/
def allocateDynamicSegment (st : Store) (networkId physnet : String) : Store × Segment :=
  match st.segments.find? fun seg =>
      seg.networkId = networkId ∧ seg.isDynamic ∧ seg.physicalNetwork = some physnet with
  | some segment => (st, segment)
  | none =>
    let segment : Segment := { id := st.nextId, networkId := networkId, networkType := .vlan,
                               physicalNetwork := some physnet, isDynamic := true }
    ({ st with segments := st.segments ++ [segment], nextId := st.nextId + 1 }, segment)

/-- The VLAN segment already there for the physnet, else a dynamic one. -/
def vlanSegmentFor (st : Store) (networkId physnet : String) : Store × Segment :=
  match networkSegmentByPhysnet st networkId physnet with
  | some segment => (st, segment)
  | none => allocateDynamicSegment st networkId physnet

def BindingLevel.hasKey (portId host : String) (level : ℕ) (l : BindingLevel) : Bool :=
  l.portId = portId ∧ l.host = host ∧ l.level = level

/-- A new row; `none` is the duplicate entry of its key. -/
def insertLevel (st : Store) (row : BindingLevel) : Option Store :=
  if st.levels.any (BindingLevel.hasKey row.portId row.host row.level) then none
  else some { st with levels := st.levels ++ [row] }

def createBindingProfileLevel (st : Store) (row : BindingLevel) : Option Store :=
  if row ∈ st.levels then some st else insertLevel st row

def portBindingLevelByPortId (st : Store) (portId host : String) : Option BindingLevel :=
  st.levels.find? (BindingLevel.hasKey portId host 0)

/-- The rows that a condition selects are deleted. -/
def dropLevels (st : Store) (drop : BindingLevel → Bool) : Store :=
  { st with levels := st.levels.filter fun l => ¬ drop l }

/-- Some binding level references the segment. -/
def Used (st : Store) (segmentId : ℕ) : Prop := ∃ l ∈ st.levels, l.segmentId = segmentId

/-- The tables are consistent, and every dynamic segment is used or among those that the
operation in progress owes. -/
structure Owing (owed : List ℕ) (st : Store) : Prop where
  ids : (st.segments.map Segment.id).Nodup
  fresh : ∀ seg ∈ st.segments, seg.id < st.nextId
  vlan : ∀ seg ∈ st.segments, seg.isDynamic = true → seg.networkType = .vlan
  unique : ∀ a ∈ st.segments, ∀ b ∈ st.segments, ∀ networkId physnet, a.isDynamic = true →
    a.isVlanOn networkId physnet = true → b.isVlanOn networkId physnet = true → a = b
  keys : ∀ l ∈ st.levels, ∀ l' ∈ st.levels,
    l'.hasKey l.portId l.host l.level = true → l = l'
  refs : ∀ l ∈ st.levels, ∃ seg ∈ st.segments, seg.id = l.segmentId
  used : ∀ seg ∈ st.segments, seg.isDynamic = true → Used st seg.id ∨ seg.id ∈ owed

/-- What changes when segments and levels are added: old rows stay, new segments are new, and
the new levels are of the given kind. -/
structure Extends (st st' : Store) (new : BindingLevel → Prop) : Prop where
  segments : ∀ seg ∈ st.segments, seg ∈ st'.segments
  newSegments : ∀ seg ∈ st'.segments, seg ∈ st.segments ∨ st.nextId ≤ seg.id
  nextId : st.nextId ≤ st'.nextId
  newLevels : ∀ l ∈ st'.levels, l ∈ st.levels ∨ new l

theorem Extends.refl (st : Store) (new : BindingLevel → Prop) : Extends st st new :=
  ⟨fun _ h => h, fun _ h => .inl h, Nat.le_refl _, fun _ h => .inl h⟩

theorem Extends.trans {st₁ st₂ st₃ : Store} {new : BindingLevel → Prop}
    (h : Extends st₁ st₂ new) (h' : Extends st₂ st₃ new) : Extends st₁ st₃ new where
  segments := fun seg hs => h'.segments seg (h.segments seg hs)
  newSegments := by
    intro seg hs
    rcases h'.newSegments seg hs with hs | hs
    · exact h.newSegments seg hs
    · exact .inr (Nat.le_trans h.nextId hs)
  nextId := Nat.le_trans h.nextId h'.nextId
  newLevels := by
    intro l hl
    rcases h'.newLevels l hl with hl | hl
    · exact h.newLevels l hl
    · exact .inr hl

theorem Extends.mono {st st' : Store} {new new' : BindingLevel → Prop} (h : Extends st st' new)
    (hnew : ∀ l, new l → new' l) : Extends st st' new' :=
  ⟨h.segments, h.newSegments, h.nextId, fun l hl => (h.newLevels l hl).imp_right (hnew l)⟩

theorem isVlanOn_iff {networkId physnet : String} {seg : Segment} :
    seg.isVlanOn networkId physnet = true ↔
      seg.networkId = networkId ∧ seg.networkType = .vlan ∧ seg.physicalNetwork = some physnet := by
  simp [Segment.isVlanOn]

theorem hasKey_iff {portId host : String} {level : ℕ} {l : BindingLevel} :
    l.hasKey portId host level = true ↔
      l.portId = portId ∧ l.host = host ∧ l.level = level := by
  simp [BindingLevel.hasKey]

theorem Owing.eq_of_id {owed : List ℕ} {st : Store} (h : Owing owed st) {a b : Segment}
    (ha : a ∈ st.segments) (hb : b ∈ st.segments) (he : a.id = b.id) : a = b :=
  List.inj_on_of_nodup_map h.ids ha hb he

theorem Owing.ref_lt {owed : List ℕ} {st : Store} (h : Owing owed st) {l : BindingLevel}
    (hl : l ∈ st.levels) : l.segmentId < st.nextId := by
  obtain ⟨seg, hseg, he⟩ := h.refs l hl
  exact he ▸ h.fresh seg hseg

/-- A segment that an old level references is an old segment. -/
theorem Owing.referenced_old {owed : List ℕ} {st st' : Store} {new : BindingLevel → Prop}
    (h : Owing owed st) (hext : Extends st st' new) {l : BindingLevel} (hl : l ∈ st.levels)
    {seg : Segment} (hseg : seg ∈ st'.segments) (he : seg.id = l.segmentId) :
    seg ∈ st.segments := by
  rcases hext.newSegments seg hseg with hold | hnew
  · exact hold
  · have := h.ref_lt hl
    omega

theorem Owing.weaken {owed owed' : List ℕ} {st : Store} (h : Owing owed st)
    (hsub : ∀ i ∈ owed, i ∈ owed') : Owing owed' st :=
  { h with used := fun seg hs hd => (h.used seg hs hd).imp_right (hsub seg.id) }

/-- An owed segment that is gone, static or used needs no further work. -/
theorem Owing.settle {owed owed' : List ℕ} {st : Store} (h : Owing owed st)
    (hset : ∀ i ∈ owed, i ∉ owed' → ∀ seg ∈ st.segments, seg.id = i → seg.isDynamic = true →
      Used st i) : Owing owed' st := by
  refine { h with used := ?_ }
  intro seg hs hd
  rcases h.used seg hs hd with hu | ho
  · exact .inl hu
  · by_cases ho' : seg.id ∈ owed'
    · exact .inr ho'
    · exact .inl (hset seg.id ho ho' seg hs rfl hd)

/-! Allocation. -/

section Allocation

variable {owed : List ℕ} {st : Store} {networkId physnet : String}

/-- A new segment may be added where the network has no VLAN segment on the physnet. -/
theorem Owing.addSegment (h : Owing owed st) {seg : Segment} (hid : seg.id = st.nextId)
    (hvlan : seg.isVlanOn networkId physnet = true)
    (hnone : networkSegmentByPhysnet st networkId physnet = none) :
    Owing (seg.id :: owed)
      { st with segments := st.segments ++ [seg], nextId := st.nextId + 1 } := by
  obtain ⟨hnet, htype, hphys⟩ := isVlanOn_iff.mp hvlan
  have hfree (x : Segment) (hx : x ∈ st.segments) (n g : String)
      (hxv : x.isVlanOn n g = true) : seg.isVlanOn n g = false := by
    by_contra hs
    obtain ⟨hn, -, hg⟩ := isVlanOn_iff.mp (Bool.not_eq_false _ ▸ hs)
    have hno := List.find?_eq_none.mp hnone x hx
    rw [← hnet, hn] at hno
    rw [hphys] at hg
    rw [Option.some.inj hg] at hno
    exact hno hxv
  constructor
  · rw [List.map_append, List.nodup_append]
    refine ⟨h.ids, by simp, ?_⟩
    intro i hi j hj
    obtain ⟨x, hx, rfl⟩ := List.mem_map.mp hi
    have hlt := h.fresh x hx
    simp only [List.map_cons, List.map_nil, List.mem_singleton] at hj
    omega
  · intro x hx
    rcases List.mem_append.mp hx with hx | hx
    · exact Nat.lt_succ_of_lt (h.fresh x hx)
    · rw [List.mem_singleton.mp hx, hid]
      exact Nat.lt_succ_self _
  · intro x hx hd
    rcases List.mem_append.mp hx with hx | hx
    · exact h.vlan x hx hd
    · rw [List.mem_singleton.mp hx, htype]
  · intro a ha b hb n g had hav hbv
    rcases List.mem_append.mp ha with ha | ha <;> rcases List.mem_append.mp hb with hb | hb
    · exact h.unique a ha b hb n g had hav hbv
    · rw [List.mem_singleton.mp hb, hfree a ha n g hav] at hbv
      cases hbv
    · rw [List.mem_singleton.mp ha, hfree b hb n g hbv] at hav
      cases hav
    · rw [List.mem_singleton.mp ha, List.mem_singleton.mp hb]
  · exact h.keys
  · intro l hl
    obtain ⟨x, hx, he⟩ := h.refs l hl
    exact ⟨x, List.mem_append_left _ hx, he⟩
  · intro x hx hd
    rcases List.mem_append.mp hx with hx | hx
    · exact (h.used x hx hd).imp_right (List.mem_cons_of_mem _)
    · rw [List.mem_singleton.mp hx]
      exact .inr List.mem_cons_self

theorem Owing.vlanSegmentFor (h : Owing owed st) (networkId physnet : String) :
    Owing ((vlanSegmentFor st networkId physnet).2.id :: owed)
      (vlanSegmentFor st networkId physnet).1 ∧
    (vlanSegmentFor st networkId physnet).2 ∈ (vlanSegmentFor st networkId physnet).1.segments ∧
    (vlanSegmentFor st networkId physnet).2.isVlanOn networkId physnet = true ∧
    Extends st (vlanSegmentFor st networkId physnet).1 (fun _ => False) := by
  have hweak (seg : Segment) : Owing (seg.id :: owed) st :=
    h.weaken fun i hi => List.mem_cons_of_mem _ hi
  unfold Segments.vlanSegmentFor
  split
  next segment hfind =>
    exact ⟨hweak segment, List.mem_of_find?_eq_some hfind, List.find?_some hfind,
      Extends.refl st _⟩
  next hnone =>
    unfold allocateDynamicSegment
    split
    next segment hfind =>
      -- A dynamic segment is a VLAN segment, so the first search had found it.
      have hmem := List.mem_of_find?_eq_some hfind
      have hprop := List.find?_some hfind
      simp only [decide_eq_true_eq] at hprop
      have hno := List.find?_eq_none.mp hnone segment hmem
      exact absurd (isVlanOn_iff.mpr ⟨hprop.1, h.vlan segment hmem hprop.2.1, hprop.2.2⟩) hno
    next =>
      have hvlan : Segment.isVlanOn networkId physnet ⟨st.nextId, networkId, .vlan, some physnet,
          true⟩ = true := isVlanOn_iff.mpr ⟨rfl, rfl, rfl⟩
      refine ⟨h.addSegment rfl hvlan hnone, by simp, hvlan, ?_⟩
      exact ⟨fun x hx => List.mem_append_left _ hx,
        fun x hx => (List.mem_append.mp hx).imp_right fun hx => by simp_all,
        Nat.le_succ _, fun l hl => .inl hl⟩

theorem Owing.insertLevel {st' : Store} {row : BindingLevel} (h : Owing (row.segmentId :: owed) st)
    (hseg : ∃ seg ∈ st.segments, seg.id = row.segmentId) (hst' : insertLevel st row = some st') :
    Owing owed st' ∧ Extends st st' (fun l => l = row) := by
  unfold Segments.insertLevel at hst'
  split at hst'
  next => cases hst'
  next hfree =>
    obtain rfl := Option.some.inj hst'
    have hkey (l : BindingLevel) (hl : l ∈ st.levels) :
        ¬ l.hasKey row.portId row.host row.level = true :=
      List.any_eq_false.mp (Bool.not_eq_true _ ▸ hfree) l hl
    refine ⟨{ h with keys := ?_, refs := ?_, used := ?_ }, ?_⟩
    · intro a ha b hb hab
      rcases List.mem_append.mp ha with ha | ha <;> rcases List.mem_append.mp hb with hb | hb
      · exact h.keys a ha b hb hab
      · obtain ⟨h1, h2, h3⟩ := hasKey_iff.mp hab
        rw [List.mem_singleton.mp hb] at h1 h2 h3
        exact absurd (hasKey_iff.mpr ⟨h1.symm, h2.symm, h3.symm⟩) (hkey a ha)
      · rw [List.mem_singleton.mp ha] at hab
        exact absurd hab (hkey b hb)
      · rw [List.mem_singleton.mp ha, List.mem_singleton.mp hb]
    · intro l hl
      rcases List.mem_append.mp hl with hl | hl
      · exact h.refs l hl
      · rw [List.mem_singleton.mp hl]
        exact hseg
    · intro seg hs hd
      rcases h.used seg hs hd with ⟨l, hl, he⟩ | ho
      · exact .inl ⟨l, List.mem_append_left _ hl, he⟩
      · rcases List.mem_cons.mp ho with he | ho
        · exact .inl ⟨row, List.mem_append_right _ (List.mem_singleton_self _), he.symm⟩
        · exact .inr ho
    · exact ⟨fun _ hs => hs, fun _ hs => .inl hs, Nat.le_refl _,
        fun l hl => (List.mem_append.mp hl).imp_right List.mem_singleton.mp⟩

theorem Owing.createBindingProfileLevel {st' : Store} {row : BindingLevel}
    (h : Owing (row.segmentId :: owed) st) (hseg : ∃ seg ∈ st.segments, seg.id = row.segmentId)
    (hst' : createBindingProfileLevel st row = some st') :
    Owing owed st' ∧ Extends st st' (fun l => l = row) := by
  unfold Segments.createBindingProfileLevel at hst'
  split at hst'
  next hrow =>
    obtain rfl := Option.some.inj hst'
    refine ⟨h.settle ?_, Extends.refl _ _⟩
    intro i hi hno _ _ _ _
    obtain rfl := (List.mem_cons.mp hi).resolve_right hno
    exact ⟨row, hrow, rfl⟩
  next => exact h.insertLevel hseg hst'

end Allocation

/-! Release. -/

section Release

variable {owed : List ℕ} {st : Store}

/-- Deleting rows leaves their segments owed. -/
theorem Owing.dropLevels (h : Owing owed st) (drop : BindingLevel → Bool) :
    Owing ((st.levels.filter drop).map BindingLevel.segmentId ++ owed) (dropLevels st drop) := by
  have hkept {l : BindingLevel} (hl : l ∈ (Segments.dropLevels st drop).levels) : l ∈ st.levels :=
    (List.mem_filter.mp hl).1
  refine { h with keys := ?_, refs := ?_, used := ?_ }
  · intro a ha b hb hab
    exact h.keys a (hkept ha) b (hkept hb) hab
  · intro l hl
    exact h.refs l (hkept hl)
  · intro seg hs hd
    rcases h.used seg hs hd with ⟨l, hl, he⟩ | ho
    · by_cases hdrop : drop l = true
      · right
        exact List.mem_append_left _ (List.mem_map.mpr ⟨l, List.mem_filter.mpr ⟨hl, hdrop⟩, he⟩)
      · exact .inl ⟨l, List.mem_filter.mpr ⟨hl, by simpa using hdrop⟩, he⟩
    · exact .inr (List.mem_append_right _ ho)

theorem portsBoundToSegment_eq_nil {segmentId : ℕ} :
    portsBoundToSegment st segmentId = [] ↔ ¬ Used st segmentId := by
  simp [portsBoundToSegment, Used, List.filter_eq_nil_iff]

theorem Owing.releaseDynamicSegment (h : Owing owed st) {segmentId : ℕ}
    (hunused : ¬ Used st segmentId) : Owing owed (releaseDynamicSegment st segmentId) := by
  have hold {seg : Segment} (hs : seg ∈ (Segments.releaseDynamicSegment st segmentId).segments) :
      seg ∈ st.segments := (List.mem_filter.mp hs).1
  refine ⟨h.ids.sublist (List.filter_sublist.map _), fun seg hs => h.fresh seg (hold hs),
    fun seg hs => h.vlan seg (hold hs), fun a ha b hb => h.unique a (hold ha) b (hold hb),
    h.keys, ?_, fun seg hs => h.used seg (hold hs)⟩
  intro l hl
  obtain ⟨seg, hs, he⟩ := h.refs l hl
  refine ⟨seg, List.mem_filter.mpr ⟨hs, ?_⟩, he⟩
  rw [decide_eq_true_iff]
  intro hr
  exact hunused ⟨l, hl, he.symm.trans hr⟩

/-- Releasing an unused segment pays what was owed for it. -/
theorem Owing.released {segmentId : ℕ} (h : Owing (segmentId :: owed) st)
    (hunused : ¬ Used st segmentId) : Owing owed (Segments.releaseDynamicSegment st segmentId) := by
  apply (h.releaseDynamicSegment hunused).settle
  intro i hi hno seg hs he _
  obtain rfl := (List.mem_cons.mp hi).resolve_right hno
  have hne := (List.mem_filter.mp hs).2
  simp [he] at hne

theorem Owing.static {segmentId : ℕ} (h : Owing (segmentId :: owed) st) {segment : Segment}
    (hsegment : segment ∈ st.segments) (hid : segment.id = segmentId)
    (hstatic : segment.isDynamic = false) : Owing owed st := by
  apply h.settle
  intro i hi hno seg hs he hd
  obtain rfl := (List.mem_cons.mp hi).resolve_right hno
  rw [h.eq_of_id hs hsegment (he.trans hid.symm), hstatic] at hd
  cases hd

theorem Owing.stillUsed {segmentId : ℕ} (h : Owing (segmentId :: owed) st)
    (hused : Used st segmentId) : Owing owed st := by
  apply h.settle
  intro i hi hno _ _ _ _
  obtain rfl := (List.mem_cons.mp hi).resolve_right hno
  exact hused

theorem Owing.releaseSegmentIfUnused {segment : Segment} (h : Owing (segment.id :: owed) st)
    (hsegment : segment ∈ st.segments) : Owing owed (releaseSegmentIfUnused st segment) := by
  unfold Segments.releaseSegmentIfUnused
  split
  next hboth => exact h.released (portsBoundToSegment_eq_nil.mp hboth.1)
  next hkeep =>
    by_cases hused : Used st segment.id
    · exact h.stillUsed hused
    · apply h.static hsegment rfl
      by_contra hd
      exact hkeep ⟨portsBoundToSegment_eq_nil.mpr hused, Bool.not_eq_false _ ▸ hd⟩

theorem Owing.deleteUnusedSegment {st' : Store} {segmentId : ℕ} (h : Owing (segmentId :: owed) st)
    (hst' : deleteUnusedSegment st segmentId = some st') :
    Owing owed st' ∧ st'.levels = st.levels ∧ (∀ seg ∈ st'.segments, seg ∈ st.segments) := by
  unfold Segments.deleteUnusedSegment at hst'
  split at hst'
  next hbound =>
    obtain rfl := Option.some.inj hst'
    have hused : Used st segmentId := not_not.mp (mt portsBoundToSegment_eq_nil.mpr hbound)
    exact ⟨h.stillUsed hused, rfl, fun _ hs => hs⟩
  next hbound =>
    have hunused := portsBoundToSegment_eq_nil.mp (not_not.mp hbound)
    split at hst'
    next => cases hst'
    next segment hfind =>
      obtain rfl := Option.some.inj hst'
      have hid : segment.id = segmentId := by simpa using List.find?_some hfind
      split
      next => exact ⟨h.released hunused, rfl, fun _ hs => (List.mem_filter.mp hs).1⟩
      next hstatic =>
        exact ⟨h.static (List.mem_of_find?_eq_some hfind) hid (by simpa using hstatic), rfl,
          fun _ hs => hs⟩

end Release

end Understack.Neutron.Segments
