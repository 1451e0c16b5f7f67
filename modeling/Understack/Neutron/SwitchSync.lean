import Mathlib.Logic.Function.Basic
import Understack.Neutron.SwitchLevels

/-! Undersync renders the switches of a VLAN group from the tables when it is called for the group.
The handlers call it after their writes (`neutron_understack_mech.py`, `trunk.py`); the switches
follow the tables as long as every operation that touches a group ends in a call for it. -/
namespace Understack.Neutron.Segments

/-- `_update_port_baremetal`: the VLAN group it syncs last. -/
def updatePortBaremetal (original current : Port) : Option String :=
  if current.vifType = .unbound ∧ original.vifType = .other then original.physicalNetwork
  else if current.vifType = .other then current.physicalNetwork
  else none

/-- The VLAN group that the handlers of an operation sync after their writes. A trunk is created
with its subports in the transaction, for which there is no later handler. -/
def syncedGroup (s s' : State) : BindingOp → Option String
  | .bind portId _ _ | .unbind portId =>
    (fetchPortObject s.ports portId).bind fun original =>
      (fetchPortObject s'.ports portId).bind fun current => updatePortBaremetal original current
  | .delete portId => (fetchPortObject s.ports portId).bind Port.physicalNetwork
  | .createTrunk _ => none
  | .addSubports trunkId _ | .removeSubports trunkId _ =>
    (s.trunks.find? fun t => t.id = trunkId).bind (syncParentPort s.ports)
  | .deleteTrunk trunkId =>
    (s.trunks.find? fun t => t.id = trunkId).bind fun t =>
      if t.subPorts = [] then none else syncParentPort s.ports t

/-- The tables, and the levels that the switches of each group were last configured from. -/
structure Mirror where
  state : State
  pushed : String → List BindingLevel

def Mirror.start (s : State) : Mirror := ⟨s, fun _ => []⟩

/-- The tables change, and the call for a group renders it from them. -/
def Mirror.changed (m : Mirror) (s' : State) : Option String → Mirror
  | none => { m with state := s' }
  | some g => ⟨s', Function.update m.pushed g (vlanLevels s'.store g)⟩

@[simp]
theorem Mirror.changed_state (m : Mirror) (s' : State) (synced : Option String) :
    (m.changed s' synced).state = s' := by
  cases synced <;> rfl

def mirrorStep (config : Config) (m : Mirror) (op : BindingOp) : Mirror :=
  match tryOp config m.state op with
  | none => m
  | some s' => m.changed s' (syncedGroup m.state s' op)

/-- The switches of every group are configured from the levels of the group. -/
def UpToDate (m : Mirror) : Prop :=
  ∀ g l, l ∈ m.pushed g ↔ l ∈ vlanLevels m.state.store g

/-- Neither subports of a trunk nor bound. -/
def FreePorts (s : State) (subports : List SubPort) : Prop :=
  ∀ sp ∈ subports, (∀ t ∈ s.trunks, ∀ sp' ∈ t.subPorts, sp'.portId ≠ sp.portId) ∧
    ∀ p ∈ s.ports, p.id = sp.portId → p.vifType = .unbound

/-- The operation completes, and Neutron lets it: a port is a subport of one trunk and not bound
on its own. -/
def Completes (config : Config) (s : State) (op : BindingOp) : Prop :=
  (tryOp config s op).isSome = true ∧
    match op with
    | .bind portId _ _ => ∀ t ∈ s.trunks, ∀ sp ∈ t.subPorts, sp.portId ≠ portId
    | .createTrunk trunk => FreePorts s trunk.subPorts
    | .addSubports _ subports => FreePorts s subports
    | _ => True

/-- A trunk is created with subports on a parent that is bound. -/
def CreatesOnBoundParent (s : State) : BindingOp → Prop
  | .createTrunk trunk => trunk.subPorts ≠ [] ∧
      ∃ parent ∈ fetchPortObject s.ports trunk.portId, parentPortIsBound parent = true
  | _ => False

instance (s : State) (subports : List SubPort) : Decidable (FreePorts s subports) :=
  inferInstanceAs (Decidable (∀ sp ∈ subports,
    (∀ t ∈ s.trunks, ∀ sp' ∈ t.subPorts, sp'.portId ≠ sp.portId) ∧
      ∀ p ∈ s.ports, p.id = sp.portId → p.vifType = .unbound))

instance (config : Config) (s : State) (op : BindingOp) : Decidable (Completes config s op) :=
  match op with
  | .bind portId host profile =>
    inferInstanceAs (Decidable ((tryOp config s (.bind portId host profile)).isSome = true ∧
      ∀ t ∈ s.trunks, ∀ sp ∈ t.subPorts, sp.portId ≠ portId))
  | .createTrunk trunk =>
    inferInstanceAs (Decidable ((tryOp config s (.createTrunk trunk)).isSome = true ∧
      FreePorts s trunk.subPorts))
  | .addSubports trunkId subports =>
    inferInstanceAs (Decidable ((tryOp config s (.addSubports trunkId subports)).isSome = true ∧
      FreePorts s subports))
  | .unbind portId =>
    inferInstanceAs (Decidable ((tryOp config s (.unbind portId)).isSome = true ∧ True))
  | .delete portId =>
    inferInstanceAs (Decidable ((tryOp config s (.delete portId)).isSome = true ∧ True))
  | .removeSubports trunkId portIds =>
    inferInstanceAs (Decidable ((tryOp config s (.removeSubports trunkId portIds)).isSome = true ∧
      True))
  | .deleteTrunk trunkId =>
    inferInstanceAs (Decidable ((tryOp config s (.deleteTrunk trunkId)).isSome = true ∧ True))

instance (s : State) (op : BindingOp) : Decidable (CreatesOnBoundParent s op) :=
  match op with
  | .createTrunk trunk =>
    inferInstanceAs (Decidable (trunk.subPorts ≠ [] ∧
      ∃ parent ∈ fetchPortObject s.ports trunk.portId, parentPortIsBound parent = true))
  | .bind _ _ _ | .unbind _ | .delete _ | .addSubports _ _ | .removeSubports _ _
  | .deleteTrunk _ => inferInstanceAs (Decidable False)

variable {st : Store} {g : String} {synced : Option String} {l : BindingLevel} {s s' : State}

/-! Which port decides the VLAN group of a level. -/

/-- The port of the level, or the parent of the trunk that it is a subport of. -/
def DecidedBy (s : State) (l : BindingLevel) (portId : String) : Prop :=
  (portId = l.portId ∧ ∃ p ∈ s.ports, p.id = portId) ∨
    (l.level = 0 ∧ ∃ t ∈ s.trunks, t.portId = portId ∧ ∃ sp ∈ t.subPorts, sp.portId = l.portId)

/-- The port, where it still exists, is bound on the host of the level and in its VLAN group. -/
def Holds (s : State) (l : BindingLevel) (portId : String) : Prop :=
  ∀ p ∈ s.ports, p.id = portId → p.vifType = .other ∧ p.host = l.host ∧
    OnlyIn s.store p.physicalNetwork l

/-- No port is bound that is a subport, or a subport of two trunks. -/
structure SwitchInv (s : State) : Prop where
  store : Consistent s.store
  portIds : (s.ports.map Port.id).Nodup
  trunkIds : (s.trunks.map Trunk.id).Nodup
  trunkParents : (s.trunks.map Trunk.portId).Nodup
  bound : ∀ p ∈ s.ports, p.vifType = .other →
    p.vnicType = .baremetal ∧ p.physicalNetwork ≠ none
  loose : ∀ t ∈ s.trunks, ∀ sp ∈ t.subPorts, ∀ p ∈ s.ports, p.id = sp.portId →
    p.vifType = .unbound
  once : ∀ t ∈ s.trunks, ∀ t' ∈ s.trunks, ∀ sp ∈ t.subPorts, ∀ sp' ∈ t'.subPorts,
    sp.portId = sp'.portId → t = t'
  owned : ∀ l ∈ s.store.levels, ∃ portId, DecidedBy s l portId ∧ Holds s l portId

theorem SwitchInv.port_eq (h : SwitchInv s) {p q : Port} (hp : p ∈ s.ports) (hq : q ∈ s.ports)
    (he : p.id = q.id) : p = q :=
  List.inj_on_of_nodup_map h.portIds hp hq he

theorem SwitchInv.isBound (h : SwitchInv s) {p : Port} (hp : p ∈ s.ports)
    (hb : p.vifType = .other) : parentPortIsBound p = true := by
  obtain ⟨hvnic, hphys⟩ := h.bound p hp hb
  have hprofile : p.profile ≠ [] := by
    intro he
    simp [Port.physicalNetwork, he] at hphys
  simp [Segments.parentPortIsBound, hb, hvnic, hprofile]

/-- The levels of a port that is no subport. -/
theorem SwitchInv.ownLevel (h : SwitchInv s) {p : Port} (hp : p ∈ s.ports)
    (hsub : ∀ t ∈ s.trunks, ∀ sp ∈ t.subPorts, sp.portId ≠ p.id) (hl : l ∈ s.store.levels)
    (hlp : l.portId = p.id) : p.vifType = .other ∧ OnlyIn s.store p.physicalNetwork l := by
  obtain ⟨o, ⟨rfl, -⟩ | ⟨-, t, ht, -, sp, hsp, he⟩, hholds⟩ := h.owned l hl
  · obtain ⟨hb, -, honly⟩ := hholds p hp hlp.symm
    exact ⟨hb, honly⟩
  · exact absurd (he.trans hlp) (hsub t ht sp hsp)

/-- The levels of a bound port are its own. -/
theorem SwitchInv.boundNotSubport (h : SwitchInv s) {p : Port} (hp : p ∈ s.ports)
    (hb : p.vifType = .other) : ∀ t ∈ s.trunks, ∀ sp ∈ t.subPorts, sp.portId ≠ p.id := by
  intro t ht sp hsp he
  rw [h.loose t ht sp hsp p hp he.symm] at hb
  cases hb

/-- The levels of a subport. -/
theorem SwitchInv.subportLevel (h : SwitchInv s) {t : Trunk} (ht : t ∈ s.trunks) {sp : SubPort}
    (hsp : sp ∈ t.subPorts) (hl : l ∈ s.store.levels) (he : sp.portId = l.portId) :
    l.level = 0 ∧ Holds s l t.portId := by
  obtain ⟨o, ⟨rfl, p, hp, hid⟩ | ⟨hlevel, t', ht', rfl, sp', hsp', he'⟩, hholds⟩ := h.owned l hl
  · obtain ⟨hb, -⟩ := hholds p hp hid
    rw [h.loose t ht sp hsp p hp (hid.trans he.symm)] at hb
    cases hb
  · obtain rfl := h.once t ht t' ht' sp hsp sp' hsp' (he.trans he'.symm)
    exact ⟨hlevel, hholds⟩

theorem SwitchInv.trunkDetails_eq (h : SwitchInv s) {t : Trunk} (ht : t ∈ s.trunks) :
    trunkDetails s t.portId = some t := by
  cases hfind : trunkDetails s t.portId with
  | none => simpa using List.find?_eq_none.mp hfind t ht
  | some t' =>
    have hid : t'.portId = t.portId := by simpa using List.find?_some hfind
    rw [List.inj_on_of_nodup_map h.trunkParents (List.mem_of_find?_eq_some hfind) ht hid]

/-- A port decides a level as before where it is still as it was and the level is in no new
group. -/
theorem Holds.mono {portId : String} (h : Holds s l portId)
    (hports : ∀ p ∈ s'.ports, p.id = portId → p ∈ s.ports)
    (hgroups : ∀ g, l ∈ vlanLevels s'.store g → l ∈ vlanLevels s.store g) : Holds s' l portId := by
  intro p hp hid
  obtain ⟨hb, hhost, honly⟩ := h p (hports p hp hid) hid
  exact ⟨hb, hhost, fun g hg => honly g (hgroups g hg)⟩

theorem fetchPortObject_replacePort {ports : List Port} {original port : Port}
    (hp : original ∈ ports) (hid : port.id = original.id) :
    fetchPortObject (replacePort ports port) original.id = some port := by
  cases hfetch : fetchPortObject (replacePort ports port) original.id with
  | none =>
    simpa [hid] using List.find?_eq_none.mp hfetch port (mem_replacePort_self hp hid.symm)
  | some p =>
    obtain ⟨hmem, he⟩ := fetchPortObject_some hfetch
    rcases mem_replacePort hmem with rfl | ⟨-, hne⟩
    · rfl
    · exact absurd (he.trans hid.symm) hne

/-! The operations. -/

/-- The invariant is kept, and the groups that are not synced keep their levels. -/
def Keeps (s s' : State) (op : BindingOp) : Prop :=
  SwitchInv s' ∧ Follows (syncedGroup s s' op) s.store s'.store

theorem SwitchInv.afterBind {portId host : String} {profile : List (String × String)}
    (h : SwitchInv s) (hfree : ∀ t ∈ s.trunks, ∀ sp ∈ t.subPorts, sp.portId ≠ portId)
    (hs' : bindOp s portId host profile = some s') : Keeps s s' (.bind portId host profile) := by
  obtain ⟨original, port, st, hfetch, hunbound, hid, hvnic, hvif, hbind, rfl⟩ := bindOp_cases hs'
  obtain ⟨hmem, rfl⟩ := fetchPortObject_some hfetch
  obtain ⟨hst, hphys, hgrows, hnew⟩ := bindPort_grows h.store hbind
  have hsync : syncedGroup s { s with store := st, ports := replacePort s.ports port }
      (.bind original.id host profile) = port.physicalNetwork := by
    simp [syncedGroup, hfetch, fetchPortObject_replacePort hmem hid, updatePortBaremetal, hvif]
  have hself := mem_replacePort_self hmem hid.symm
  have hport (p : Port) (hp : p ∈ replacePort s.ports port) (he : p.id = port.id) : p = port := by
    rcases mem_replacePort hp with rfl | ⟨-, hne⟩
    · rfl
    · exact absurd he hne
  refine ⟨⟨hst, by rw [map_id_replacePort]; exact h.portIds, h.trunkIds, h.trunkParents, ?_, ?_,
    h.once, ?_⟩, by rw [hsync]; exact hgrows.follows h.store hst⟩
  · intro p hp hb
    rcases mem_replacePort hp with rfl | ⟨hp, -⟩
    · exact ⟨hvnic, hphys⟩
    · exact h.bound p hp hb
  · intro t ht sp hsp p hp he
    rcases mem_replacePort hp with rfl | ⟨hp, -⟩
    · exact absurd (he.symm.trans hid) (hfree t ht sp hsp)
    · exact h.loose t ht sp hsp p hp he
  · intro l hl
    by_cases hold : l ∈ s.store.levels
    · obtain ⟨o, hdecided, hholds⟩ := h.owned l hold
      -- The port was not bound, so it decided no level.
      have hne : o ≠ original.id := by
        rintro rfl
        rw [(hholds original hmem rfl).1] at hunbound
        cases hunbound
      refine ⟨o, ?_, hholds.mono (fun p hp he => ?_) fun g hg => (hgrows.groups h.store hst hold).mp hg⟩
      · rcases hdecided with ⟨ho, p, hp, he⟩ | hsub
        · exact .inl ⟨ho, p, mem_replacePort_of_ne hp (by rw [he, hid]; exact hne), he⟩
        · exact .inr hsub
      · rcases mem_replacePort hp with rfl | ⟨hp, -⟩
        · exact absurd (he.symm.trans hid) hne
        · exact hp
    · have honly := hgrows.new l hl hold
      have hholds (hhost : l.host = port.host) : Holds
          { s with store := st, ports := replacePort s.ports port } l port.id := by
        intro p hp he
        obtain rfl := hport p hp he
        exact ⟨hvif, hhost.symm, honly⟩
      rcases hnew l hl with hl | ⟨hlp, hlh⟩ | ⟨t, hdetails, hlevel, hlh, hsp⟩
      · exact absurd hl hold
      · exact ⟨port.id, .inl ⟨hlp.symm, port, hself, rfl⟩, hholds hlh⟩
      · obtain ⟨ht, hparent⟩ := trunkDetails_some hdetails
        exact ⟨port.id, .inr ⟨hlevel, t, ht, hparent, hsp⟩, hholds hlh⟩

theorem SwitchInv.afterUnbind {portId : String} (h : SwitchInv s)
    (hs' : unbindOp s portId = some s') : Keeps s s' (.unbind portId) := by
  obtain ⟨original, top, st, port, hfetch, hvif, hid, hunbound, hclean, rfl⟩ := unbindOp_cases hs'
  obtain ⟨hmem, rfl⟩ := fetchPortObject_some hfetch
  obtain ⟨hdropped, hremoves₁⟩ :=
    h.store.dropLevels (BindingLevel.isOf original.id original.host)
  obtain ⟨hst, hremoves₂⟩ := tenantNetworkPortCleanup_removes hdropped hclean
  have hremoves := hremoves₁.trans hremoves₂
  have hsync : syncedGroup s { s with store := st, ports := replacePort s.ports port }
      (.unbind original.id) = original.physicalNetwork := by
    simp [syncedGroup, hfetch, fetchPortObject_replacePort hmem hid, updatePortBaremetal, hvif,
      hunbound]
  have hgone (l : BindingLevel) (hl : l ∈ s.store.levels)
      (hgone : BindingLevel.isOf original.id original.host l = true ∨
        ∃ t, trunkDetails s original.id = some t ∧ IsSubportLevel t.subPorts original.host l) :
      OnlyIn s.store original.physicalNetwork l := by
    rcases hgone with hmine | ⟨t, hdetails, -, -, sp, hsp, he⟩
    · simp only [BindingLevel.isOf, decide_eq_true_eq] at hmine
      exact (h.ownLevel hmem (h.boundNotSubport hmem hvif) hl hmine.1).2
    · obtain ⟨ht, hparent⟩ := trunkDetails_some hdetails
      exact ((h.subportLevel ht hsp hl he).2 original hmem hparent.symm).2.2
  refine ⟨⟨hst, by rw [map_id_replacePort]; exact h.portIds, h.trunkIds, h.trunkParents, ?_, ?_,
    h.once, ?_⟩, by rw [hsync]; exact hremoves.follows h.store hst hgone⟩
  · intro p hp hb
    rcases mem_replacePort hp with rfl | ⟨hp, -⟩
    · rw [hunbound] at hb
      cases hb
    · exact h.bound p hp hb
  · intro t ht sp hsp p hp he
    rcases mem_replacePort hp with rfl | ⟨hp, -⟩
    · exact hunbound
    · exact h.loose t ht sp hsp p hp he
  · intro l hl
    obtain ⟨hold, hkept⟩ := (hremoves.levels l).mp hl
    obtain ⟨o, hdecided, hholds⟩ := h.owned l hold
    -- The levels that the port decided are gone.
    have hne : o ≠ original.id := by
      rintro rfl
      obtain ⟨-, hhost, -⟩ := hholds original hmem rfl
      apply hkept
      rcases hdecided with ⟨ho, -⟩ | ⟨hlevel, t, ht, hparent, hsp⟩
      · left
        simp [BindingLevel.isOf, ho, hhost]
      · exact .inr ⟨t, hparent ▸ h.trunkDetails_eq ht, hlevel, hhost.symm, hsp⟩
    refine ⟨o, ?_, hholds.mono (fun p hp he => ?_) fun g hg => (hremoves.groups h.store hst hl).mp hg⟩
    · rcases hdecided with ⟨ho, p, hp, he⟩ | hsub
      · exact .inl ⟨ho, p, mem_replacePort_of_ne hp (by rw [he, hid]; exact hne), he⟩
      · exact .inr hsub
    · rcases mem_replacePort hp with rfl | ⟨hp, -⟩
      · exact absurd (he.symm.trans hid) hne
      · exact hp

theorem SwitchInv.afterDelete {config : Config} {portId : String} (h : SwitchInv s)
    (hs' : deleteOp config s portId = some s') : Keeps s s' (.delete portId) := by
  obtain ⟨port, hfetch, hsub, rfl⟩ := deleteOp_cases hs'
  obtain ⟨hport, rfl⟩ := fetchPortObject_some hfetch
  obtain ⟨hdropped, hremoves₁⟩ := h.store.dropLevels fun l => l.portId = port.id
  have hst := deletePortBaremetal_consistent config port hdropped
  obtain ⟨hlevels, hsegs⟩ := deletePortBaremetal_shrinks config
    (dropLevels s.store fun l => l.portId = port.id) port
  have hremoves : Removes (fun l => l.portId = port.id) s.store (deletePortBaremetal config
      (dropLevels s.store fun l => l.portId = port.id) port) := by
    refine ⟨fun l => ?_, fun seg hs => hremoves₁.segments seg (hsegs seg hs)⟩
    rw [hlevels, hremoves₁.levels, decide_eq_true_iff]
  refine ⟨⟨hst, h.portIds.sublist (List.filter_sublist.map _), h.trunkIds, h.trunkParents, ?_, ?_,
    h.once, ?_⟩, ?_⟩
  · intro p hp hb
    exact h.bound p (List.mem_filter.mp hp).1 hb
  · intro t ht sp hsp p hp he
    exact h.loose t ht sp hsp p (List.mem_filter.mp hp).1 he
  · intro l hl
    obtain ⟨hold, hkept⟩ := (hremoves.levels l).mp hl
    obtain ⟨o, hdecided, hholds⟩ := h.owned l hold
    refine ⟨o, ?_, hholds.mono (fun p hp _ => (List.mem_filter.mp hp).1) fun g hg =>
      (hremoves.groups h.store hst hl).mp hg⟩
    rcases hdecided with ⟨rfl, p, hp, he⟩ | hsub
    · refine .inl ⟨rfl, p, List.mem_filter.mpr ⟨hp, ?_⟩, he⟩
      rw [decide_eq_true_iff, he]
      exact hkept
    · exact .inr hsub
  · have hsync : syncedGroup s { s with
        store := deletePortBaremetal config (dropLevels s.store fun l => l.portId = port.id) port
        ports := s.ports.filter fun p => p.id ≠ port.id } (.delete port.id) =
        port.physicalNetwork := by
      simp [syncedGroup, hfetch]
    rw [hsync]
    exact hremoves.follows h.store hst fun l hl hmine => (h.ownLevel hport hsub hl hmine).2

theorem syncParentPort_eq {ports : List Port} {trunk : Trunk} {parent : Port}
    (hfetch : fetchPortObject ports trunk.portId = some parent)
    (hbound : parentPortIsBound parent = true) :
    syncParentPort ports trunk = parent.physicalNetwork := by
  simp [syncParentPort, hfetch, hbound]

/-- The levels that subports get are decided by the parent of their trunk. -/
def NewSubportLevels (s : State) (st : Store) (parentId : String) (subports : List SubPort) :
    Prop :=
  ∀ l ∈ st.levels, l ∉ s.store.levels →
    l.level = 0 ∧ (∃ sp ∈ subports, sp.portId = l.portId) ∧ Holds { s with store := st } l parentId

/-- Free ports become subports of a trunk. -/
theorem SwitchInv.extendTrunks {trunks : List Trunk} {parentId : String} {subports : List SubPort}
    (h : SwitchInv s) (hfree : FreePorts s subports) (hst : Consistent st)
    (hgrows : Grows synced s.store st) (hlevels : NewSubportLevels s st parentId subports)
    (hids : (trunks.map Trunk.id).Nodup) (hparents : (trunks.map Trunk.portId).Nodup)
    (hold : ∀ t ∈ s.trunks, ∃ t' ∈ trunks, t'.portId = t.portId ∧ t.subPorts ⊆ t'.subPorts)
    (hnew : ∃ t' ∈ trunks, t'.portId = parentId ∧ subports ⊆ t'.subPorts)
    (hfrom : ∀ t' ∈ trunks, ∀ sp ∈ t'.subPorts,
      (∃ t ∈ s.trunks, t.id = t'.id ∧ sp ∈ t.subPorts) ∨ t'.portId = parentId ∧ sp ∈ subports) :
    SwitchInv { s with store := st, trunks := trunks } := by
  refine ⟨hst, h.portIds, hids, hparents, h.bound, ?_, ?_, ?_⟩
  · intro t' ht' sp hsp
    rcases hfrom t' ht' sp hsp with ⟨t, ht, -, hsp⟩ | ⟨-, hsp⟩
    · exact h.loose t ht sp hsp
    · exact (hfree sp hsp).2
  · intro t₁ ht₁ t₂ ht₂ sp₁ hsp₁ sp₂ hsp₂ he
    rcases hfrom t₁ ht₁ sp₁ hsp₁ with ⟨u₁, hu₁, hid₁, hsp₁⟩ | ⟨hp₁, hsp₁⟩ <;>
      rcases hfrom t₂ ht₂ sp₂ hsp₂ with ⟨u₂, hu₂, hid₂, hsp₂⟩ | ⟨hp₂, hsp₂⟩
    · obtain rfl := h.once u₁ hu₁ u₂ hu₂ sp₁ hsp₁ sp₂ hsp₂ he
      exact List.inj_on_of_nodup_map hids ht₁ ht₂ (hid₁.symm.trans hid₂)
    · exact absurd he ((hfree sp₂ hsp₂).1 u₁ hu₁ sp₁ hsp₁)
    · exact absurd he.symm ((hfree sp₁ hsp₁).1 u₂ hu₂ sp₂ hsp₂)
    · exact List.inj_on_of_nodup_map hparents ht₁ ht₂ (hp₁.trans hp₂.symm)
  · intro l hl
    by_cases hwas : l ∈ s.store.levels
    · obtain ⟨o, hdecided, hholds⟩ := h.owned l hwas
      refine ⟨o, hdecided.imp_right ?_, hholds.mono (fun p hp _ => hp) fun g hg =>
        (hgrows.groups h.store hst hwas).mp hg⟩
      rintro ⟨hlevel, t, ht, rfl, sp, hsp, he⟩
      obtain ⟨t', ht', hpid, hsubs⟩ := hold t ht
      exact ⟨hlevel, t', ht', hpid, sp, hsubs hsp, he⟩
    · obtain ⟨hlevel, ⟨sp, hsp, he⟩, hholds⟩ := hlevels l hl hwas
      obtain ⟨t', ht', hpid, hsubs⟩ := hnew
      exact ⟨parentId, .inr ⟨hlevel, t', ht', hpid, sp, hsubs hsp, he⟩, hholds⟩

theorem SwitchInv.tenantVlan {config : Config} {trunk : Trunk} {subports : List SubPort}
    (h : SwitchInv s)
    (hst : handleTenantVlanIdAndSwitchportConfig config s trunk.id trunk.portId subports = some st) :
    Consistent st ∧ Grows (syncParentPort s.ports trunk) s.store st ∧
      NewSubportLevels s st trunk.portId subports ∧
      ∀ parent ∈ fetchPortObject s.ports trunk.portId, parentPortIsBound parent = true →
        ∃ g, ∀ sp ∈ subports, ∃ l ∈ vlanLevels st g, l.portId = sp.portId := by
  obtain ⟨parent, hfetch, hst, hgrows, hlevels, hall⟩ := handleTenantVlan_grows h.store hst
  obtain ⟨hparent, hpid⟩ := fetchPortObject_some hfetch
  refine ⟨hst, hgrows, ?_, ?_⟩
  · intro l hl hnot
    obtain ⟨hbound, hlevel, hhost, hsp⟩ := (hlevels l hl).resolve_left hnot
    refine ⟨hlevel, hsp, ?_⟩
    intro p hp hid
    obtain rfl := h.port_eq hp hparent (hid.trans hpid.symm)
    have honly := hgrows.new l hl hnot
    rw [syncParentPort_eq hfetch hbound] at honly
    simp only [Segments.parentPortIsBound, decide_eq_true_eq] at hbound
    exact ⟨hbound.1, hhost.symm, honly⟩
  · intro p hp hbound
    rw [hfetch] at hp
    obtain rfl := Option.some.inj hp
    obtain ⟨g, -, hall⟩ := hall hbound
    exact ⟨g, hall⟩

/-- A free port has no level. -/
theorem SwitchInv.free_noLevel {subports : List SubPort} (h : SwitchInv s)
    (hfree : FreePorts s subports) {sp : SubPort} (hsp : sp ∈ subports) (hl : l ∈ s.store.levels) :
    l.portId ≠ sp.portId := by
  intro hid
  obtain ⟨o, ⟨rfl, p, hp, he⟩ | ⟨-, t, ht, -, sp', hsp', he⟩, hholds⟩ := h.owned l hl
  · obtain ⟨hb, -⟩ := hholds p hp he
    rw [(hfree sp hsp).2 p hp (he.trans hid)] at hb
    cases hb
  · exact (hfree sp hsp).1 t ht sp' hsp' (he.trans hid)

theorem SwitchInv.afterCreateTrunk {config : Config} {trunk : Trunk} (h : SwitchInv s)
    (hfree : FreePorts s trunk.subPorts) (hs' : createTrunkOp config s trunk = some s') :
    SwitchInv s' ∧
      (¬CreatesOnBoundParent s (.createTrunk trunk) → Follows none s.store s'.store) ∧
      (CreatesOnBoundParent s (.createTrunk trunk) → ¬Follows none s.store s'.store) := by
  unfold createTrunkOp at hs'
  simp only [bind, pure, Option.bind_none, Option.bind_eq_some_iff, Option.ite_none_left_eq_some,
    Option.some.injEq] at hs'
  obtain ⟨hfresh, st, hst, rfl⟩ := hs'
  have hne (t : Trunk) (ht : t ∈ s.trunks) : t.id ≠ trunk.id ∧ t.portId ≠ trunk.portId := by
    rw [← not_or]
    intro he
    exact hfresh (List.any_eq_true.mpr ⟨t, ht, decide_eq_true he⟩)
  have hnodup {f : Trunk → String} (hf : (s.trunks.map f).Nodup)
      (hnew : ∀ t ∈ s.trunks, f t ≠ f trunk) : ((s.trunks ++ [trunk]).map f).Nodup := by
    rw [List.map_append, List.nodup_append]
    refine ⟨hf, by simp, ?_⟩
    intro a ha b hb
    obtain ⟨t, ht, rfl⟩ := List.mem_map.mp ha
    rw [List.mem_singleton.mp hb]
    exact hnew t ht
  have hextend {synced : Option String} (hst : Consistent st) (hgrows : Grows synced s.store st)
      (hlevels : NewSubportLevels s st trunk.portId trunk.subPorts) :
      SwitchInv { s with store := st, trunks := s.trunks ++ [trunk] } := by
    apply h.extendTrunks hfree hst hgrows hlevels
    · exact hnodup h.trunkIds fun t ht => (hne t ht).1
    · exact hnodup h.trunkParents fun t ht => (hne t ht).2
    · intro t ht
      exact ⟨t, List.mem_append_left _ ht, rfl, List.Subset.refl _⟩
    · exact ⟨trunk, by simp, rfl, List.Subset.refl _⟩
    · intro t ht sp hsp
      rcases List.mem_append.mp ht with ht | ht
      · exact .inl ⟨t, ht, rfl, hsp⟩
      · obtain rfl := List.mem_singleton.mp ht
        exact .inr ⟨rfl, hsp⟩
  unfold trunkCreated at hst
  split at hst
  next hnone =>
    obtain rfl := Option.some.inj hst
    refine ⟨hextend h.store (Grows.refl none _) fun l hl hnot => absurd hl hnot,
      fun _ g _ l => Iff.rfl, fun hcreates => absurd hnone hcreates.1⟩
  next hsome =>
    obtain ⟨hst, hgrows, hlevels, hall⟩ := h.tenantVlan hst
    refine ⟨hextend hst hgrows hlevels, fun hnot => ?_, ?_⟩
    · have hunsynced : syncParentPort s.ports trunk = none := by
        rw [syncParentPort, Option.bind_eq_none_iff]
        intro parent hfetch
        exact if_neg fun hbound => hnot ⟨hsome, parent, hfetch, hbound⟩
      rw [hunsynced] at hgrows
      exact hgrows.follows h.store hst
    · rintro ⟨-, parent, hfetch, hbound⟩ hfollows
      obtain ⟨g, hall⟩ := hall parent hfetch hbound
      obtain ⟨sp, hsp⟩ := List.exists_mem_of_ne_nil _ hsome
      obtain ⟨l, hl, hid⟩ := hall sp hsp
      have hwas := (hfollows g (by simp) l).mp hl
      exact h.free_noLevel hfree hsp (mem_vlanLevels.mp hwas).1 hid

/-- Subports leave a trunk, with the levels that its parent decides. -/
theorem SwitchInv.shrinkTrunks {trunks : List Trunk} {trunk : Trunk} {removed : List SubPort}
    {gone : BindingLevel → Prop} (h : SwitchInv s) (hst : Consistent st)
    (hremoves : Removes gone s.store st)
    (hgone : ∀ sp ∈ removed, ∀ l, l.level = 0 → sp.portId = l.portId → Holds s l trunk.portId →
      gone l)
    (hids : (trunks.map Trunk.id).Nodup) (hparents : (trunks.map Trunk.portId).Nodup)
    (hkept : ∀ t ∈ s.trunks, ∀ sp ∈ t.subPorts,
      (t = trunk ∧ sp ∈ removed) ∨ ∃ t' ∈ trunks, t'.portId = t.portId ∧ sp ∈ t'.subPorts)
    (hfrom : ∀ t' ∈ trunks, ∃ t ∈ s.trunks, t.id = t'.id ∧ t'.subPorts ⊆ t.subPorts) :
    SwitchInv { s with store := st, trunks := trunks } := by
  refine ⟨hst, h.portIds, hids, hparents, h.bound, ?_, ?_, ?_⟩
  · intro t' ht' sp hsp
    obtain ⟨t, ht, -, hsubs⟩ := hfrom t' ht'
    exact h.loose t ht sp (hsubs hsp)
  · intro t₁ ht₁ t₂ ht₂ sp₁ hsp₁ sp₂ hsp₂ he
    obtain ⟨u₁, hu₁, hid₁, hsubs₁⟩ := hfrom t₁ ht₁
    obtain ⟨u₂, hu₂, hid₂, hsubs₂⟩ := hfrom t₂ ht₂
    obtain rfl := h.once u₁ hu₁ u₂ hu₂ sp₁ (hsubs₁ hsp₁) sp₂ (hsubs₂ hsp₂) he
    exact List.inj_on_of_nodup_map hids ht₁ ht₂ (hid₁.symm.trans hid₂)
  · intro l hl
    obtain ⟨hwas, hnotgone⟩ := (hremoves.levels l).mp hl
    obtain ⟨o, hdecided, hholds⟩ := h.owned l hwas
    refine ⟨o, hdecided.imp_right ?_, hholds.mono (fun p hp _ => hp) fun g hg =>
      (hremoves.groups h.store hst hl).mp hg⟩
    rintro ⟨hlevel, t, ht, rfl, sp, hsp, he⟩
    rcases hkept t ht sp hsp with ⟨rfl, hrem⟩ | ⟨t', ht', hpid', hsp'⟩
    · exact absurd (hgone sp hrem l hlevel he hholds) hnotgone
    · exact ⟨hlevel, t', ht', hpid', sp, hsp', he⟩

theorem SwitchInv.cleanParent {trunk : Trunk} {removed : List SubPort} (h : SwitchInv s)
    (htrunk : trunk ∈ s.trunks) (hsubs : removed ⊆ trunk.subPorts)
    (hst : cleanParentPortSwitchportConfig s trunk removed = some st) :
    ∃ gone, Consistent st ∧ Removes gone s.store st ∧
      (∀ sp ∈ removed, ∀ l, l.level = 0 → sp.portId = l.portId → Holds s l trunk.portId → gone l) ∧
      Follows (syncParentPort s.ports trunk) s.store st := by
  obtain ⟨parent, hfetch, hst, hremoves⟩ := cleanParent_removes h.store hst
  obtain ⟨hparent, hpid⟩ := fetchPortObject_some hfetch
  refine ⟨_, hst, hremoves, ?_, hremoves.follows h.store hst ?_⟩
  · intro sp hsp l hlevel he hholds
    obtain ⟨hb, hhost, -⟩ := hholds parent hparent hpid
    exact ⟨h.isBound hparent hb, hlevel, hhost.symm, sp, hsp, he⟩
  · rintro l hl ⟨hbound, -, -, sp, hsp, he⟩
    rw [syncParentPort_eq hfetch hbound]
    exact ((h.subportLevel htrunk (hsubs hsp) hl he).2 parent hparent hpid).2.2

theorem SwitchInv.afterAddSubports {config : Config} {trunkId : String} {subports : List SubPort}
    (h : SwitchInv s) (hfree : FreePorts s subports)
    (hs' : addSubportsOp config s trunkId subports = some s') :
    Keeps s s' (.addSubports trunkId subports) := by
  unfold addSubportsOp at hs'
  simp only [bind, pure, Option.bind_eq_some_iff, Option.some.injEq] at hs'
  obtain ⟨trunk, hfind, st, hst, rfl⟩ := hs'
  have htrunk := List.mem_of_find?_eq_some hfind
  obtain ⟨hst, hgrows, hlevels, -⟩ := h.tenantVlan hst
  constructor
  · apply h.extendTrunks hfree hst hgrows hlevels
    · exact nodup_replaceTrunk (by rfl) (by rfl) htrunk h.trunkIds h.trunkIds
    · exact nodup_replaceTrunk (by rfl) (by rfl) htrunk h.trunkIds h.trunkParents
    · intro t ht
      by_cases he : t.id = trunk.id
      · obtain rfl := List.inj_on_of_nodup_map h.trunkIds ht htrunk he
        exact ⟨_, List.mem_map.mpr ⟨t, ht, if_pos rfl⟩, rfl, List.subset_append_left _ _⟩
      · exact ⟨t, List.mem_map.mpr ⟨t, ht, if_neg he⟩, rfl, List.Subset.refl _⟩
    · exact ⟨_, List.mem_map.mpr ⟨trunk, htrunk, if_pos rfl⟩, rfl, List.subset_append_right _ _⟩
    · intro t' ht' sp hsp
      obtain ⟨t, ht, rfl⟩ := List.mem_map.mp ht'
      split at hsp
      next he =>
        rw [if_pos he]
        exact (List.mem_append.mp hsp).imp (fun hsp => ⟨trunk, htrunk, rfl, hsp⟩)
          fun hsp => ⟨rfl, hsp⟩
      next he =>
        rw [if_neg he]
        exact .inl ⟨t, ht, rfl, hsp⟩
  · simpa [syncedGroup, hfind] using hgrows.follows h.store hst

theorem SwitchInv.afterRemoveSubports {trunkId : String} {portIds : List String}
    (h : SwitchInv s) (hs' : removeSubportsOp s trunkId portIds = some s') :
    Keeps s s' (.removeSubports trunkId portIds) := by
  unfold removeSubportsOp at hs'
  simp only [bind, pure, Option.bind_eq_some_iff, Option.some.injEq] at hs'
  obtain ⟨trunk, hfind, st, hst, rfl⟩ := hs'
  have htrunk := List.mem_of_find?_eq_some hfind
  obtain ⟨gone, hst, hremoves, hgone, hfollows⟩ :=
    h.cleanParent htrunk (List.filter_subset_self _) hst
  constructor
  · apply h.shrinkTrunks hst hremoves hgone
    · exact nodup_replaceTrunk (by rfl) (by rfl) htrunk h.trunkIds h.trunkIds
    · exact nodup_replaceTrunk (by rfl) (by rfl) htrunk h.trunkIds h.trunkParents
    · intro t ht sp hsp
      by_cases he : t.id = trunk.id
      · obtain rfl := List.inj_on_of_nodup_map h.trunkIds ht htrunk he
        by_cases hmem : sp.portId ∈ portIds
        · exact .inl ⟨rfl, List.mem_filter.mpr ⟨hsp, decide_eq_true hmem⟩⟩
        · exact .inr ⟨_, List.mem_map.mpr ⟨t, ht, if_pos rfl⟩, rfl,
            List.mem_filter.mpr ⟨hsp, decide_eq_true hmem⟩⟩
      · exact .inr ⟨t, List.mem_map.mpr ⟨t, ht, if_neg he⟩, rfl, hsp⟩
    · intro t' ht'
      obtain ⟨t, ht, rfl⟩ := List.mem_map.mp ht'
      split
      next => exact ⟨trunk, htrunk, rfl, List.filter_subset_self _⟩
      next => exact ⟨t, ht, rfl, List.Subset.refl _⟩
  · simpa [syncedGroup, hfind] using hfollows

theorem SwitchInv.afterDeleteTrunk {trunkId : String} (h : SwitchInv s)
    (hs' : deleteTrunkOp s trunkId = some s') : Keeps s s' (.deleteTrunk trunkId) := by
  unfold deleteTrunkOp at hs'
  simp only [bind, pure, Option.bind_eq_some_iff, Option.some.injEq] at hs'
  obtain ⟨trunk, hfind, st, hst, rfl⟩ := hs'
  have htrunk := List.mem_of_find?_eq_some hfind
  have hid : trunk.id = trunkId := by simpa using List.find?_some hfind
  have hcleaned : ∃ gone, Consistent st ∧ Removes gone s.store st ∧
      (∀ sp ∈ trunk.subPorts, ∀ l, l.level = 0 → sp.portId = l.portId → Holds s l trunk.portId →
        gone l) ∧
      Follows (if trunk.subPorts = [] then none else syncParentPort s.ports trunk) s.store st := by
    unfold trunkDeleted at hst
    split at hst
    next hnone =>
      obtain rfl := Option.some.inj hst
      exact ⟨fun _ => False, h.store, ⟨fun l => by simp, fun _ hs => hs⟩, by simp [hnone],
        fun g _ l => Iff.rfl⟩
    next hsome =>
      rw [if_neg hsome]
      exact h.cleanParent htrunk (List.Subset.refl _) hst
  obtain ⟨gone, hst, hremoves, hgone, hfollows⟩ := hcleaned
  constructor
  · apply h.shrinkTrunks hst hremoves hgone
    · exact h.trunkIds.sublist (List.filter_sublist.map _)
    · exact h.trunkParents.sublist (List.filter_sublist.map _)
    · intro t ht sp hsp
      by_cases he : t.id = trunkId
      · obtain rfl := List.inj_on_of_nodup_map h.trunkIds ht htrunk (he.trans hid.symm)
        exact .inl ⟨rfl, hsp⟩
      · exact .inr ⟨t, List.mem_filter.mpr ⟨ht, decide_eq_true he⟩, rfl, hsp⟩
    · intro t' ht'
      exact ⟨t', (List.mem_filter.mp ht').1, rfl, List.Subset.refl _⟩
  · simpa [syncedGroup, hfind] using hfollows

/-! Runs. -/

theorem Follows.upToDate {m : Mirror} (h : Follows synced m.state.store s'.store)
    (hm : UpToDate m) : UpToDate (m.changed s' synced) := by
  intro g l
  have hother (hne : synced ≠ some g) : l ∈ m.pushed g ↔ l ∈ vlanLevels s'.store g :=
    (hm g l).trans (h g hne l).symm
  cases synced with
  | none => exact hother (by simp)
  | some g' =>
    by_cases hg : g = g'
    · subst hg
      simp [Mirror.changed]
    · simpa [Mirror.changed, Function.update_of_ne hg] using hother fun he =>
        hg (Option.some.inj he).symm

theorem SwitchInv.mirrorStep {config : Config} {m : Mirror} {op : BindingOp}
    (h : SwitchInv m.state) (hop : Completes config m.state op) :
    SwitchInv (mirrorStep config m op).state ∧
      (UpToDate m → (UpToDate (mirrorStep config m op) ↔ ¬CreatesOnBoundParent m.state op)) := by
  obtain ⟨hsome, hneutron⟩ := hop
  obtain ⟨s', hs'⟩ := Option.isSome_iff_exists.mp hsome
  have hstep : Segments.mirrorStep config m op = m.changed s' (syncedGroup m.state s' op) := by
    unfold Segments.mirrorStep
    rw [hs']
  rw [hstep, Mirror.changed_state]
  have keeps (hkeeps : Keeps m.state s' op) (hnot : ¬CreatesOnBoundParent m.state op) :
      SwitchInv s' ∧ (UpToDate m → (UpToDate (m.changed s' (syncedGroup m.state s' op)) ↔
        ¬CreatesOnBoundParent m.state op)) :=
    ⟨hkeeps.1, fun hm => ⟨fun _ => hnot, fun _ => hkeeps.2.upToDate hm⟩⟩
  cases op with
  | bind portId host profile => exact keeps (h.afterBind hneutron hs') id
  | unbind portId => exact keeps (h.afterUnbind hs') id
  | delete portId => exact keeps (h.afterDelete hs') id
  | addSubports trunkId subports => exact keeps (h.afterAddSubports hneutron hs') id
  | removeSubports trunkId portIds => exact keeps (h.afterRemoveSubports hs') id
  | deleteTrunk trunkId => exact keeps (h.afterDeleteTrunk hs') id
  | createTrunk trunk =>
    obtain ⟨hinv, hfollows, hlate⟩ := h.afterCreateTrunk hneutron hs'
    refine ⟨hinv, fun hm => ⟨fun hm' hcreates => ?_, fun hnot => (hfollows hnot).upToDate hm⟩⟩
    -- The switches are as before, the tables are not.
    exact hlate hcreates fun g _ l => (hm' g l).symm.trans (hm g l)

theorem Initial.switchInv (hs : Initial s) (honce : ∀ t ∈ s.trunks, ∀ t' ∈ s.trunks,
    ∀ sp ∈ t.subPorts, ∀ sp' ∈ t'.subPorts, sp.portId = sp'.portId → t = t') : SwitchInv s where
  store := ⟨[], hs.inv.store⟩
  portIds := hs.portIds
  trunkIds := hs.trunkIds
  trunkParents := hs.trunkParents
  bound := hs.inv.bound
  loose := fun _ _ _ _ p hp _ => (hs.unbound p hp).1
  once := honce
  owned := by simp [hs.noLevels]

/-- The switches of every VLAN group stay configured from the binding levels of the group, in
exactly the runs in which no trunk is created with subports on a bound parent. -/
theorem switches_follow_levels (config : Config) (s : State) (hs : Initial s)
    (honce : ∀ t ∈ s.trunks, ∀ t' ∈ s.trunks, ∀ sp ∈ t.subPorts, ∀ sp' ∈ t'.subPorts,
      sp.portId = sp'.portId → t = t') (ops : List BindingOp)
    (h : Runs.Along (mirrorStep config) (fun m op => Completes config m.state op)
      (Mirror.start s) ops) :
    (∀ pre, pre <+: ops → UpToDate (pre.foldl (mirrorStep config) (Mirror.start s))) ↔
      Runs.Along (mirrorStep config) (fun m op => ¬CreatesOnBoundParent m.state op)
        (Mirror.start s) ops := by
  have hstart : UpToDate (Mirror.start s) := by
    intro g l
    simp [Mirror.start, vlanLevels, hs.noLevels]
  exact Runs.Along.iff_invariant_under (J := fun m => SwitchInv m.state) (I := UpToDate)
    (fun m op hJ hop => (hJ.mirrorStep hop).1) (fun m op hJ hop hI => (hJ.mirrorStep hop).2 hI)
    (hs.switchInv honce) hstart h

/-- The trunk that is created last is not on the switch of its parent. -/
def lateTrunkOps : List BindingOp :=
  [.bind "p" "h1" [("physical_network", "group")], .addSubports "trunk" [⟨"child", 150⟩],
    .deleteTrunk "trunk", .bind "q" "h2" [("physical_network", "group")], .unbind "p", .delete "p",
    .createTrunk ⟨"late", "q", [⟨"child", 150⟩]⟩]

theorem switches_follow_levels_lateTrunk :
    Runs.Along (mirrorStep smallConfig) (fun m op => Completes smallConfig m.state op)
      (Mirror.start smallState) lateTrunkOps ∧
    (∀ pre, pre <+: lateTrunkOps.take 6 →
      UpToDate (pre.foldl (mirrorStep smallConfig) (Mirror.start smallState))) ∧
    ¬∀ pre, pre <+: lateTrunkOps →
      UpToDate (pre.foldl (mirrorStep smallConfig) (Mirror.start smallState)) :=
  have honce : ∀ t ∈ smallState.trunks, ∀ t' ∈ smallState.trunks, ∀ sp ∈ t.subPorts,
      ∀ sp' ∈ t'.subPorts, sp.portId = sp'.portId → t = t' := by decide
  have h : Runs.Along (mirrorStep smallConfig) (fun m op => Completes smallConfig m.state op)
      (Mirror.start smallState) lateTrunkOps := by decide
  ⟨h, (switches_follow_levels smallConfig smallState smallState_initial honce
      (lateTrunkOps.take 6) (by decide)).mpr (by decide),
    mt (switches_follow_levels smallConfig smallState smallState_initial honce lateTrunkOps h).mp
      (by decide)⟩

end Understack.Neutron.Segments
