import Understack.Neutron.NetdevAdoption

/-! What single API calls do to the pool, seen from a router: whose stamps they keep, and whose
they can add or take off. -/
namespace Understack.Neutron.Netdev

/-- A change of one node that leaves the stamps of a router alone, and the node active. -/
structure KeepsNode (r : String) (node node' : Node) : Prop where
  kept : node.instanceUuid = some r → node'.instanceUuid = some r ∧ node'.lessee = node.lessee ∧
    node'.instanceName = node.instanceName ∧
    (node.provisionState = .active → node'.provisionState = .active)
  old : node'.instanceUuid = some r → node.instanceUuid = some r

theorem KeepsNode.refl (r : String) (node : Node) : KeepsNode r node node :=
  ⟨fun h => ⟨h, rfl, rfl, fun ha => ha⟩, fun h => h⟩

/-- The pool changes only in the given way, node by node. -/
def Changes (change : Node → Node → Prop) (pool pool' : List Node) : Prop :=
  List.Forall₂ (fun node node' => node'.id = node.id ∧ change node node') pool pool'

theorem changes_refl {change : Node → Node → Prop} (h : ∀ node, change node node)
    (pool : List Node) : Changes change pool pool := by
  induction pool with
  | nil => exact .nil
  | cons node pool ih => exact .cons ⟨rfl, h node⟩ ih

theorem Changes.ids {change : Node → Node → Prop} {pool pool' : List Node}
    (h : Changes change pool pool') : pool'.map Node.id = pool.map Node.id := by
  induction h with
  | nil => rfl
  | cons hn _ ih => rw [List.map_cons, List.map_cons, hn.1, ih]

theorem Changes.image {change : Node → Node → Prop} {pool pool' : List Node}
    (h : Changes change pool pool') {node : Node} (hn : node ∈ pool) :
    ∃ node' ∈ pool', node'.id = node.id ∧ change node node' := by
  induction h with
  | nil => cases hn
  | cons hc _ ih =>
    rcases List.mem_cons.mp hn with rfl | hn
    · exact ⟨_, List.mem_cons_self, hc⟩
    · obtain ⟨node', hmem, hrest⟩ := ih hn
      exact ⟨node', List.mem_cons_of_mem _ hmem, hrest⟩

theorem Changes.origin {change : Node → Node → Prop} {pool pool' : List Node}
    (h : Changes change pool pool') {node' : Node} (hn : node' ∈ pool') :
    ∃ node ∈ pool, node'.id = node.id ∧ change node node' := by
  induction h with
  | nil => cases hn
  | cons hc _ ih =>
    rcases List.mem_cons.mp hn with rfl | hn
    · exact ⟨_, List.mem_cons_self, hc⟩
    · obtain ⟨node, hmem, hrest⟩ := ih hn
      exact ⟨node, List.mem_cons_of_mem _ hmem, hrest⟩

theorem apply_id {call : Call} {node node' : Node} (h : call.apply node = some node') :
    node'.id = node.id := by
  cases call with
  | provision verb =>
    cases verb <;>
      (simp only [Call.apply, setNodeProvisionState, Option.ite_none_right_eq_some,
        Option.some.injEq] at h
       obtain ⟨-, rfl⟩ := h
       rfl)
  | update stamp =>
    simp only [Call.apply, updateNode, Option.ite_none_left_eq_some, Option.some.injEq] at h
    obtain ⟨-, rfl⟩ := h
    rfl

theorem getNode_some {pool : List Node} {nodeId : String} {node : Node}
    (h : getNode pool nodeId = some node) : node ∈ pool ∧ node.id = nodeId :=
  ⟨List.mem_of_find?_eq_some h, by simpa using List.find?_some h⟩

/-- What one call can do to the pool. -/
theorem attempt_changes {change : Node → Node → Prop} {pool : List Node} {nodeId : String}
    {call : Call} (hids : (pool.map Node.id).Nodup) (hrefl : ∀ node, change node node)
    (hcall : ∀ node node', node ∈ pool → node.id = nodeId → call.apply node = some node' →
      change node node') (outcome : Outcome) :
    Changes change pool (attempt pool nodeId call outcome).1 := by
  unfold attempt
  split
  next => exact changes_refl hrefl pool
  next node' happly =>
    obtain ⟨node, hget, happly⟩ := Option.bind_eq_some_iff.mp happly
    obtain ⟨hmem, hid⟩ := getNode_some hget
    have hid' : node'.id = node.id := apply_id happly
    have hreplaced : Changes change pool (replaceNode pool node') := by
      unfold Changes replaceNode
      rw [List.forall₂_map_right_iff, List.forall₂_same]
      intro n hn
      split
      next he =>
        obtain rfl := List.inj_on_of_nodup_map hids hn hmem (he.trans hid')
        exact ⟨hid', hcall n node' hn hid happly⟩
      next => exact ⟨rfl, hrefl n⟩
    cases outcome with
    | returned => exact hreplaced
    | lost => exact changes_refl hrefl pool
    | broken => exact hreplaced

/-- A call that returned has taken effect. -/
theorem attempt_returned {pool : List Node} {nodeId : String} {call : Call} {outcome : Outcome}
    (h : (attempt pool nodeId call outcome).2 = true) :
    ∃ node node', node ∈ pool ∧ node.id = nodeId ∧ call.apply node = some node' ∧
      node' ∈ (attempt pool nodeId call outcome).1 := by
  unfold attempt at h ⊢
  split at h
  next => cases h
  next node' happly =>
    obtain ⟨node, hget, happly⟩ := Option.bind_eq_some_iff.mp happly
    obtain ⟨hmem, hid⟩ := getNode_some hget
    cases outcome with
    | returned =>
      refine ⟨node, node', hmem, hid, happly, ?_⟩
      exact List.mem_map.mpr ⟨node, hmem, if_pos (apply_id happly).symm⟩
    | lost => cases h
    | broken => cases h

/-! What the calls do to the stamps of a router. -/

theorem keepsNode_provision {r : String} {verb : Verb} {node node' : Node}
    (h : (Call.provision verb).apply node = some node')
    (hfree : verb = .deleted → node.instanceUuid ≠ some r) : KeepsNode r node node' := by
  cases verb <;>
    simp only [Call.apply, setNodeProvisionState, Option.ite_none_right_eq_some,
      Option.some.injEq] at h <;>
    obtain ⟨hstate, rfl⟩ := h
  case manage => exact ⟨fun hr => ⟨hr, rfl, rfl, fun ha => by simp [hstate] at ha⟩, fun hr => hr⟩
  case adopt => exact ⟨fun hr => ⟨hr, rfl, rfl, fun _ => rfl⟩, fun hr => hr⟩
  case provide => exact ⟨fun hr => ⟨hr, rfl, rfl, fun ha => by simp [hstate] at ha⟩, fun hr => hr⟩
  case deleted => exact ⟨fun hr => absurd hr (hfree rfl), fun hr => by cases hr⟩

theorem keepsNode_update {r : String} {stamp : Stamp} {node node' : Node}
    (h : (Call.update stamp).apply node = some node') (hother : stamp.instanceUuid ≠ some r)
    (hfree : stamp.instanceUuid = none → node.instanceUuid ≠ some r) : KeepsNode r node node' := by
  simp only [Call.apply, updateNode, Option.ite_none_left_eq_some, Option.some.injEq] at h
  obtain ⟨hconflict, rfl⟩ := h
  constructor
  · intro hr
    exfalso
    by_cases hnone : stamp.instanceUuid = none
    · exact hfree hnone hr
    · apply hconflict
      rw [hr]
      exact ⟨hnone, by simp, Ne.symm hother⟩
  · intro hr
    exact absurd hr hother

theorem carriesOther_false {pool : List Node} {nodeId q : String}
    (h : carriesOther pool nodeId q = false) {node : Node} (hn : node ∈ pool)
    (hid : node.id = nodeId) {r : String} (hr : r ≠ q) : node.instanceUuid ≠ some r := by
  intro he
  have hno := List.any_eq_false.mp h node hn
  apply hno
  simp [hid, he, hr]

/-- The write that `_return_node_to_available` issues in a phase. -/
def ReturnPhase.call : ReturnPhase → Option Call
  | .clear => some (.update cleared)
  | .clearThenProvide => some (.update cleared)
  | .provide => some (.provision .provide)
  | .undeploy => some (.provision .deleted)
  | _ => none

theorem returnStep_changes {change : Node → Node → Prop} {pool : List Node} {nodeId : String}
    {phase : ReturnPhase} (hids : (pool.map Node.id).Nodup) (hrefl : ∀ node, change node node)
    (hcall : ∀ call, phase.call = some call → ∀ node node', node ∈ pool → node.id = nodeId →
      call.apply node = some node' → change node node') (outcome : Outcome) :
    Changes change pool (returnStep pool nodeId outcome phase).1 := by
  have hsame := changes_refl hrefl pool
  cases phase with
  | getNode =>
    simp only [returnStep]
    split
    next =>
      split <;> exact hsame
    next => exact hsame
  | clear => exact attempt_changes hids hrefl (hcall _ rfl) outcome
  | clearThenProvide => exact attempt_changes hids hrefl (hcall _ rfl) outcome
  | provide => exact attempt_changes hids hrefl (hcall _ rfl) outcome
  | undeploy => exact attempt_changes hids hrefl (hcall _ rfl) outcome
  | finished => exact hsame

/-- A call of `_return_node_to_available` for one router keeps the stamps of the others. -/
theorem returnStep_keeps {pool : List Node} {nodeId q r : String} {phase : ReturnPhase}
    (hids : (pool.map Node.id).Nodup) (hr : r ≠ q)
    (hsafe : ¬ (phase.clears = true ∧ carriesOther pool nodeId q = true)) (outcome : Outcome) :
    Changes (KeepsNode r) pool (returnStep pool nodeId outcome phase).1 := by
  have hfree (hc : phase.clears = true) {node : Node} (hn : node ∈ pool) (hid : node.id = nodeId) :
      node.instanceUuid ≠ some r :=
    carriesOther_false (eq_false_of_ne_true fun h => hsafe ⟨hc, h⟩) hn hid hr
  apply returnStep_changes hids (KeepsNode.refl r)
  intro call hphase node node' hn hid h
  cases phase <;> simp only [ReturnPhase.call, Option.some.injEq, reduceCtorEq] at hphase <;>
    subst hphase
  case clear => exact keepsNode_update h (by simp [cleared]) fun _ => hfree rfl hn hid
  case clearThenProvide => exact keepsNode_update h (by simp [cleared]) fun _ => hfree rfl hn hid
  case provide => exact keepsNode_provision h (by simp)
  case undeploy => exact keepsNode_provision h fun _ => hfree rfl hn hid

/-- No call of `_return_node_to_available` adds a stamp. -/
theorem returnStep_old {pool : List Node} {nodeId : String} {phase : ReturnPhase} (r : String)
    (hids : (pool.map Node.id).Nodup) (outcome : Outcome) :
    Changes (fun node node' => node'.instanceUuid = some r → node.instanceUuid = some r) pool
      (returnStep pool nodeId outcome phase).1 := by
  apply returnStep_changes hids fun _ h => h
  intro call hphase node node' _ _ h
  have hupdate (hu : updateNode cleared node = some node') (hr : node'.instanceUuid = some r) :
      node.instanceUuid = some r := by
    simp only [updateNode, Option.ite_none_left_eq_some, Option.some.injEq] at hu
    obtain ⟨-, rfl⟩ := hu
    cases hr
  have hprovision {verb : Verb} (hp : (Call.provision verb).apply node = some node')
      (hr : node'.instanceUuid = some r) : node.instanceUuid = some r := by
    by_contra hno
    exact hno ((keepsNode_provision hp fun _ => hno).old hr)
  cases phase <;> simp only [ReturnPhase.call, Option.some.injEq, reduceCtorEq] at hphase <;>
    subst hphase
  case clear => exact hupdate h
  case clearThenProvide => exact hupdate h
  case provide => exact hprovision h
  case undeploy => exact hprovision h

end Understack.Neutron.Netdev
