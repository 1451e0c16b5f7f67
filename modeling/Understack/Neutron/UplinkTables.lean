import Understack.Neutron.RouterUplink

/-! What the row deletions, the cleanup and the two removal handlers do to the tables, network
by network. -/
namespace Understack.Neutron.Uplink
open PyText

/-- The ports that `fetch_shared_router_port` identifies by their names. -/
def State.named (s : State) (networkId : String) : List Port :=
  s.ports.filter (Port.isSharedOn networkId)

/-- The rows that belong to the uplink of one network: none, or one of each kind. -/
def Shape (s : State) (networkId : String) : Prop :=
  (s.named networkId = [] ∧ s.localnetsOn networkId = []) ∨
    ∃ p l, s.named networkId = [p] ∧ s.localnetsOn networkId = [l] ∧ l.name = p.name ∧
      p.id ∈ s.subports.map SubPort.portId

structure Base (s : State) : Prop where
  ids : (s.ports.map Port.id).Nodup
  names : ∀ p ∈ s.ports, p.deviceOwner.isRouter = true → isUplinkName p.name = false
  shape : ∀ networkId, Shape s networkId

theorem Base.eq_of_id {s : State} (h : Base s) {p q : Port} (hp : p ∈ s.ports) (hq : q ∈ s.ports)
    (he : p.id = q.id) : p = q :=
  List.inj_on_of_nodup_map h.ids hp hq he

/-- Deleting a row leaves a selection of rows without it as it is. -/
theorem Base.filter_ne_self {s : State} (h : Base s) {port : Port} (hport : port ∈ s.ports)
    {ports : List Port} (hsub : ∀ q ∈ ports, q ∈ s.ports) (hnot : port ∉ ports) :
    (ports.filter fun q => q.id ≠ port.id) = ports := by
  rw [List.filter_eq_self]
  intro q hq
  rw [decide_eq_true_iff]
  intro he
  rw [h.eq_of_id (hsub q hq) hport he] at hq
  exact hnot hq

theorem mem_named {s : State} {networkId : String} {p : Port} :
    p ∈ s.named networkId ↔ p ∈ s.ports ∧ p.networkId = networkId ∧ isUplinkName p.name = true := by
  simp [State.named, Port.isSharedOn]

theorem mem_routerPorts {s : State} {networkId : String} {p : Port} :
    p ∈ s.routerPorts networkId ↔
      p ∈ s.ports ∧ p.networkId = networkId ∧ p.deviceOwner.isRouter = true := by
  simp [State.routerPorts, Port.isRouterPortOn]

theorem Base.named_not_router {s : State} (h : Base s) {networkId : String} {p : Port}
    (hp : p ∈ s.named networkId) : p.deviceOwner.isRouter = false := by
  obtain ⟨hmem, -, hname⟩ := mem_named.mp hp
  by_contra hrouter
  rw [h.names p hmem (Bool.not_eq_false _ ▸ hrouter)] at hname
  cases hname

theorem Base.sharedPorts_eq {s : State} (h : Base s) (networkId : String) :
    s.sharedPorts networkId = s.named networkId := by
  apply List.filter_congr
  intro p hp
  by_cases hshared : p.isSharedOn networkId = true
  · have hnot := h.named_not_router (List.mem_filter.mpr ⟨hp, hshared⟩)
    simp [hshared, hnot]
  · simp [hshared]

theorem named_deletePort (s : State) (portId networkId : String) :
    (deletePort s portId).named networkId = (s.named networkId).filter fun p => p.id ≠ portId := by
  simp only [State.named, deletePort, List.filter_filter, Bool.and_comm]

theorem routerPorts_deletePort (s : State) (portId networkId : String) :
    (deletePort s portId).routerPorts networkId =
      (s.routerPorts networkId).filter fun p => p.id ≠ portId := by
  simp only [State.routerPorts, deletePort, List.filter_filter, Bool.and_comm]

theorem Base.named_deletePort_router {s : State} (h : Base s) {port : Port} (hport : port ∈ s.ports)
    (hrouter : port.deviceOwner.isRouter = true) (networkId : String) :
    (deletePort s port.id).named networkId = s.named networkId := by
  rw [named_deletePort]
  apply h.filter_ne_self hport (fun q hq => (mem_named.mp hq).1)
  intro hp
  rw [h.named_not_router hp] at hrouter
  cases hrouter

theorem Base.deletePort_router {s : State} (h : Base s) {port : Port} (hport : port ∈ s.ports)
    (hrouter : port.deviceOwner.isRouter = true) : Base (deletePort s port.id) where
  ids := h.ids.sublist (List.filter_sublist.map _)
  names := fun p hp => h.names p (List.mem_filter.mp hp).1
  shape := by
    intro networkId
    unfold Shape
    rw [h.named_deletePort_router hport hrouter]
    exact h.shape networkId

theorem localnetsOn_deleteLswitchPort_other {s : State} {name : Text} {networkId other : String}
    (hne : other ≠ networkId) :
    (deleteLswitchPort s name networkId).localnetsOn other = s.localnetsOn other := by
  simp only [State.localnetsOn, deleteLswitchPort, List.filter_filter]
  apply List.filter_congr
  intro l _
  by_cases hl : l.networkId = other
  · simp [hl, hne]
  · simp [hl]

theorem uplinkName_removeUplinkPrefix {name : Text} (h : isUplinkName name = true) :
    uplinkName (removeUplinkPrefix name) = name := by
  obtain ⟨rest, rfl⟩ := List.isPrefixOf_iff_prefix.mp h
  simp [uplinkName, removeUplinkPrefix, h]

/-- The effect of the cleanup: the uplink rows of the network go, nothing else changes. -/
structure Cleaned (s s' : State) (networkId : String) : Prop where
  ports : s'.ports.Sublist s.ports
  routerPorts : ∀ n, s'.routerPorts n = s.routerPorts n
  named : s'.named networkId = []
  localnets : s'.localnetsOn networkId = []
  other : ∀ n, n ≠ networkId → s'.named n = s.named n ∧ s'.localnetsOn n = s.localnetsOn n
  subports : ∀ p ∈ s'.ports, p.id ∈ s.subports.map SubPort.portId →
    p.id ∈ s'.subports.map SubPort.portId

theorem Base.cleaned {s : State} (h : Base s) (networkId : String) :
    Cleaned s (doUplinkCleanup s networkId) networkId := by
  have hfetch : fetchSharedRouterPort s networkId = (s.named networkId).head? := by
    rw [State.named, List.head?_filter, fetchSharedRouterPort]
  rcases h.shape networkId with ⟨hnamed, hlocal⟩ | ⟨p, l, hnamed, hlocal, hname, -⟩
  · have hsame : doUplinkCleanup s networkId = s := by
      simp [doUplinkCleanup, hfetch, hnamed]
    rw [hsame]
    exact ⟨List.Sublist.refl _, fun _ => rfl, hnamed, hlocal, fun _ _ => ⟨rfl, rfl⟩, fun _ _ hp => hp⟩
  · have hp : p ∈ s.named networkId := by simp [hnamed]
    obtain ⟨hmem, hnet, huplink⟩ := mem_named.mp hp
    have hunfold : doUplinkCleanup s networkId = deletePort (deleteLswitchPort (deleteLswitchPort
        (handleSubportRemoval s p) p.name networkId) p.id.toList networkId) p.id := by
      simp [doUplinkCleanup, hfetch, hnamed, uplinkName_removeUplinkPrefix huplink]
    rw [hunfold]
    constructor
    · exact List.filter_sublist
    · intro n
      rw [routerPorts_deletePort]
      apply h.filter_ne_self hmem (fun q hq => (mem_routerPorts.mp hq).1)
      intro hq
      have hrouter := (mem_routerPorts.mp hq).2.2
      rw [h.named_not_router hp] at hrouter
      cases hrouter
    · rw [named_deletePort]
      show (s.named networkId).filter _ = _
      simp [hnamed]
    · -- The only localnet port of the network carries the name of the shared port.
      rw [List.eq_nil_iff_forall_not_mem]
      intro x hx
      simp only [State.localnetsOn, deletePort, deleteLswitchPort, handleSubportRemoval,
        List.mem_filter, decide_eq_true_eq] at hx
      obtain ⟨⟨⟨hmemx, hkept⟩, -⟩, hnetx⟩ := hx
      have hxl : x ∈ s.localnetsOn networkId := by simp [State.localnetsOn, hmemx, hnetx]
      rw [hlocal, List.mem_singleton] at hxl
      exact hkept ⟨hxl ▸ hname, hnetx⟩
    · intro n hn
      constructor
      · rw [named_deletePort]
        apply h.filter_ne_self hmem (fun q hq => (mem_named.mp hq).1)
        intro hq
        exact hn ((mem_named.mp hq).2.1.symm.trans hnet)
      · show (deleteLswitchPort (deleteLswitchPort _ _ _) _ _).localnetsOn n = _
        rw [localnetsOn_deleteLswitchPort_other hn, localnetsOn_deleteLswitchPort_other hn]
        rfl
    · intro q hq hsub
      have hne : q.id ≠ p.id := by simpa using (List.mem_filter.mp hq).2
      obtain ⟨sp, hsp, heq⟩ := List.mem_map.mp hsub
      apply List.mem_map.mpr
      exact ⟨sp, List.mem_filter.mpr ⟨hsp, by simp [heq, hne]⟩, heq⟩

theorem Cleaned.base {s s' : State} {networkId : String} (h : Cleaned s s' networkId)
    (hs : Base s) : Base s' where
  ids := hs.ids.sublist (h.ports.map _)
  names := fun p hp => hs.names p (h.ports.subset hp)
  shape := by
    intro n
    by_cases hn : n = networkId
    · subst hn
      exact .inl ⟨h.named, h.localnets⟩
    · obtain ⟨hnamed, hlocal⟩ := h.other n hn
      rcases hs.shape n with ⟨he, hl⟩ | ⟨p, l, hp, hl, hname, hsub⟩
      · exact .inl ⟨hnamed.trans he, hlocal.trans hl⟩
      · have hmem : p ∈ s'.named n := by simp [hnamed, hp]
        exact .inr ⟨p, l, hnamed.trans hp, hlocal.trans hl, hname,
          h.subports p (mem_named.mp hmem).1 hsub⟩

/-! One removal, through either handler or both. -/

/-- The router port is gone, and nothing outside its network changed. -/
structure Detached (s s' : State) (port : Port) : Prop where
  base : Base s'
  routerPorts : ∀ n, s'.routerPorts n = (s.routerPorts n).filter fun p => p.id ≠ port.id
  other : ∀ n, n ≠ port.networkId → s'.named n = s.named n

/-- The uplink goes with the last router port, and only then. -/
structure Removed (s s' : State) (port : Port) : Prop extends Detached s s' port where
  kept : s'.routerPorts port.networkId ≠ [] → s'.named port.networkId = s.named port.networkId
  dropped : s'.routerPorts port.networkId = [] → s'.named port.networkId = []

theorem Base.only_iff {s : State} (h : Base s) {port : Port} (hport : port ∈ s.ports)
    (hrouter : port.deviceOwner.isRouter = true) :
    isOnlyRouterPortOnNetwork s port.networkId = true ↔
      ((s.routerPorts port.networkId).filter fun p => p.id ≠ port.id) = [] := by
  have hmem : port ∈ s.routerPorts port.networkId := mem_routerPorts.mpr ⟨hport, rfl, hrouter⟩
  have hnodup : (s.routerPorts port.networkId).Nodup := (h.ids.of_map _).filter _
  have herase : ((s.routerPorts port.networkId).filter fun p => p.id ≠ port.id) =
      (s.routerPorts port.networkId).erase port := by
    rw [hnodup.erase_eq_filter]
    apply List.filter_congr
    intro p hp
    rw [Bool.eq_iff_iff, decide_eq_true_iff, bne_iff_ne]
    exact not_congr ⟨h.eq_of_id (mem_routerPorts.mp hp).1 hport, congrArg Port.id⟩
  have hlength := List.length_erase_of_mem hmem
  rw [herase, isOnlyRouterPortOnNetwork, decide_eq_true_iff, ← List.length_eq_zero_iff, hlength]
  omega

theorem Base.detached {s : State} (h : Base s) {port : Port} (hport : port ∈ s.ports)
    (hrouter : port.deviceOwner.isRouter = true) : Detached s (deletePort s port.id) port where
  base := h.deletePort_router hport hrouter
  routerPorts := routerPorts_deletePort s port.id
  other := fun n _ => h.named_deletePort_router hport hrouter n

/-- The cleanup after the row deletion. -/
theorem Detached.cleanup {s s' : State} {port : Port} (h : Detached s s' port)
    (hlast : s'.routerPorts port.networkId = []) :
    Removed s (doUplinkCleanup s' port.networkId) port := by
  have hclean := h.base.cleaned port.networkId
  refine { base := hclean.base h.base, routerPorts := ?_, other := ?_, kept := ?_, dropped := ?_ }
  · intro n
    rw [hclean.routerPorts, h.routerPorts]
  · intro n hn
    rw [(hclean.other n hn).1, h.other n hn]
  · intro hleft
    rw [hclean.routerPorts] at hleft
    exact absurd hlast hleft
  · intro _
    exact hclean.named

/-- The cleanup before the row deletion. -/
theorem Base.cleanup_deletePort {s : State} (h : Base s) {port : Port} (hport : port ∈ s.ports)
    (hrouter : port.deviceOwner.isRouter = true)
    (hlast : (deletePort s port.id).routerPorts port.networkId = []) :
    Removed s (deletePort (doUplinkCleanup s port.networkId) port.id) port := by
  have hclean := h.cleaned port.networkId
  have hmem : port ∈ s.routerPorts port.networkId := mem_routerPorts.mpr ⟨hport, rfl, hrouter⟩
  rw [← hclean.routerPorts] at hmem
  have hdetached := (hclean.base h).detached (mem_routerPorts.mp hmem).1 hrouter
  have hnamed := (hclean.base h).named_deletePort_router (mem_routerPorts.mp hmem).1 hrouter
  refine { base := hdetached.base, routerPorts := ?_, other := ?_, kept := ?_, dropped := ?_ }
  · intro n
    rw [hdetached.routerPorts, hclean.routerPorts]
  · intro n hn
    rw [hnamed, (hclean.other n hn).1]
  · intro hleft
    rw [hdetached.routerPorts, hclean.routerPorts, ← routerPorts_deletePort] at hleft
    exact absurd hlast hleft
  · intro _
    rw [hnamed, hclean.named]

theorem Base.removed {s : State} (h : Base s) {port : Port} (hport : port ∈ s.ports)
    (hrouter : port.deviceOwner.isRouter = true) (events : RemovalEvents) :
    Removed s (removeRouterPort s port events) port := by
  have hdetached := h.detached hport hrouter
  have honly := h.only_iff hport hrouter
  rw [← routerPorts_deletePort] at honly
  by_cases hlast : (deletePort s port.id).routerPorts port.networkId = []
  · have hpre := h.cleanup_deletePort hport hrouter hlast
    have hleft : (deletePort (doUplinkCleanup s port.networkId) port.id).routerPorts
        port.networkId = [] := by
      rw [hpre.routerPorts, ← routerPorts_deletePort]
      exact hlast
    have honly' := honly.mpr hlast
    cases events with
    | precommitDelete =>
      simpa [removeRouterPort, handleRouterInterfaceRemoval, hrouter, honly'] using hpre
    | afterDelete =>
      simpa [removeRouterPort, handleRouterInterfaceAfterDelete, hrouter, hlast] using
        hdetached.cleanup hlast
    | both =>
      simpa [removeRouterPort, handleRouterInterfaceRemoval, handleRouterInterfaceAfterDelete,
        hrouter, honly', hleft] using hpre.toDetached.cleanup hleft
  · have hkept : Removed s (deletePort s port.id) port :=
      { hdetached with
        kept := fun _ => h.named_deletePort_router hport hrouter _
        dropped := fun he => absurd he hlast }
    have honly' := mt honly.mp hlast
    cases events with
    | precommitDelete =>
      simpa [removeRouterPort, handleRouterInterfaceRemoval, hrouter, honly'] using hkept
    | afterDelete =>
      simpa [removeRouterPort, handleRouterInterfaceAfterDelete, hrouter, hlast] using hkept
    | both =>
      simpa [removeRouterPort, handleRouterInterfaceRemoval, handleRouterInterfaceAfterDelete,
        hrouter, honly', hlast] using hkept

end Understack.Neutron.Uplink
