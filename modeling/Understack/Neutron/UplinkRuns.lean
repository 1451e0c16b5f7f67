import Understack.Neutron.UplinkTables

/-! The uplink contract of a network over every serial run of router-port creations and
removals. -/
namespace Understack.Neutron.Uplink

structure Inv (config : Config) (s : State) : Prop extends Base s where
  present : ∀ p ∈ s.ports, p.deviceOwner.isRouter = true → isUnflavored config p = true →
    s.named p.networkId ≠ []
  absent : ∀ n, s.routerPorts n = [] → s.named n = []

theorem Inv.contract {config : Config} {s : State} (h : Inv config s) (networkId : String) :
    UplinkContract config s networkId := by
  have hshared := h.sharedPorts_eq networkId
  rcases h.shape networkId with ⟨hnamed, hlocal⟩ | ⟨p, l, hnamed, hlocal, hname, hsub⟩
  · refine ⟨by simp [hshared, hnamed, hlocal], ?_, by simp [hshared, hnamed, hlocal]⟩
    rintro ⟨q, hq, hun⟩
    obtain ⟨hmem, rfl, hrouter⟩ := mem_routerPorts.mp hq
    exact absurd hnamed (h.present q hmem hrouter hun)
  · refine ⟨by simp [hshared, hnamed, hlocal], ?_, ?_⟩
    · intro _
      exact ⟨p, by simp [hshared, hnamed], hsub, l, by simp [hlocal], hname⟩
    · intro hnone
      rw [h.absent networkId hnone] at hnamed
      cases hnamed

theorem Inv.remove {config : Config} {s : State} (h : Inv config s) {port : Port}
    (hport : port ∈ s.ports) (hrouter : port.deviceOwner.isRouter = true)
    (events : RemovalEvents) : Inv config (removeRouterPort s port events) := by
  have hrem := h.removed hport hrouter events
  refine { hrem.base with present := ?_, absent := ?_ }
  · intro p hp hprouter hun
    have hmem : p ∈ (removeRouterPort s port events).routerPorts p.networkId :=
      mem_routerPorts.mpr ⟨hp, rfl, hprouter⟩
    have hold := hmem
    rw [hrem.routerPorts] at hold
    have hpresent := h.present p (mem_routerPorts.mp (List.mem_filter.mp hold).1).1 hprouter hun
    by_cases hn : p.networkId = port.networkId
    · rw [hn] at hmem hpresent ⊢
      rwa [hrem.kept (List.ne_nil_of_mem hmem)]
    · rwa [hrem.other _ hn]
  · intro n hnone
    by_cases hn : n = port.networkId
    · subst hn
      exact hrem.dropped hnone
    · rw [hrem.other n hn]
      apply h.absent
      -- The removed port was on another network.
      rw [hrem.routerPorts, List.filter_eq_nil_iff] at hnone
      rw [List.eq_nil_iff_forall_not_mem]
      intro p hp
      have hsame := hnone p hp
      rw [decide_eq_true_iff, not_not] at hsame
      obtain rfl := h.eq_of_id (mem_routerPorts.mp hp).1 hport hsame
      exact hn (mem_routerPorts.mp hp).2.1.symm

theorem named_addPort (s : State) (port : Port) (networkId : String) :
    (s.addPort port).named networkId =
      s.named networkId ++ if port.isSharedOn networkId then [port] else [] := by
  simp only [State.named, State.addPort, List.filter_append, List.filter_singleton,
    Bool.cond_eq_ite]

theorem routerPorts_addPort (s : State) (port : Port) (networkId : String) :
    (s.addPort port).routerPorts networkId =
      s.routerPorts networkId ++ if port.isRouterPortOn networkId then [port] else [] := by
  simp only [State.routerPorts, State.addPort, List.filter_append, List.filter_singleton,
    Bool.cond_eq_ite]

theorem isSharedOn_eq_false {port : Port} (h : isUplinkName port.name = false)
    (networkId : String) : port.isSharedOn networkId = false := by
  simp [Port.isSharedOn, h]

theorem Base.addPort {s : State} (h : Base s) {port : Port} (hid : port.id ∉ s.ports.map Port.id)
    (hname : isUplinkName port.name = false) : Base (s.addPort port) where
  ids := by
    simp only [State.addPort, List.map_append, List.map_cons, List.map_nil]
    exact List.nodup_append.mpr ⟨h.ids, by simp, by simp_all⟩
  names := by
    intro p hp hrouter
    rcases List.mem_append.mp hp with hp | hp
    · exact h.names p hp hrouter
    · rw [List.mem_singleton.mp hp, hname]
  shape := by
    intro n
    unfold Shape
    rw [named_addPort, isSharedOn_eq_false hname, if_neg Bool.false_ne_true, List.append_nil]
    exact h.shape n

theorem Base.localnets_of_named {s : State} (h : Base s) {networkId : String}
    (hnamed : s.named networkId = []) : s.localnetsOn networkId = [] := by
  rcases h.shape networkId with ⟨-, hlocal⟩ | ⟨p, l, hp, -⟩
  · exact hlocal
  · rw [hnamed] at hp
    cases hp

/-- The rows that the first port of an unflavored router adds. -/
def addUplink (s : State) (segment : Segment) (networkId sharedId : String) : State :=
  createUplinkPort (addSubportToTrunk (createNeutronPortForSegment s segment networkId sharedId)
    sharedId segment) segment networkId

def sharedPort (segment : Segment) (networkId portId : String) : Port :=
  { id := portId, networkId := networkId, name := uplinkName segment.id,
    deviceOwner := .other "", deviceId := "" }

theorem addUplink_ports (s : State) (segment : Segment) (networkId sharedId : String) :
    (addUplink s segment networkId sharedId).ports =
      s.ports ++ [sharedPort segment networkId sharedId] := by
  unfold addUplink createUplinkPort
  split <;> rfl

theorem addUplink_subports (s : State) (segment : Segment) (networkId sharedId : String) :
    (addUplink s segment networkId sharedId).subports =
      s.subports ++ [⟨sharedId, segment.segmentationId⟩] := by
  unfold addUplink createUplinkPort
  split <;> rfl

theorem addUplink_localnets {s : State} {networkId : String} (h : s.localnetsOn networkId = [])
    (segment : Segment) (sharedId : String) :
    (addUplink s segment networkId sharedId).localnets = s.localnets ++
      [⟨uplinkName segment.id, networkId, segment.segmentationId, segment.physicalNetwork⟩] := by
  unfold addUplink createUplinkPort
  rw [if_neg]
  · rfl
  · intro hany
    obtain ⟨l, hl, hc⟩ := List.any_eq_true.mp hany
    have hmem : l ∈ s.localnetsOn networkId :=
      List.mem_filter.mpr ⟨hl, decide_eq_true (of_decide_eq_true hc).2⟩
    rw [h] at hmem
    cases hmem

theorem named_addUplink (s : State) (segment : Segment) (networkId sharedId n : String) :
    (addUplink s segment networkId sharedId).named n =
      s.named n ++ if networkId = n then [sharedPort segment networkId sharedId] else [] := by
  have hPrefixed : isUplinkName (uplinkName segment.id) = true :=
    List.isPrefixOf_iff_prefix.mpr (List.prefix_append _ _)
  simp [State.named, addUplink_ports, List.filter_append, List.filter_singleton, Port.isSharedOn,
    sharedPort, hPrefixed]

theorem routerPorts_addUplink (s : State) (segment : Segment) (networkId sharedId n : String) :
    (addUplink s segment networkId sharedId).routerPorts n = s.routerPorts n := by
  simp [State.routerPorts, addUplink_ports, List.filter_append, Port.isRouterPortOn,
    DeviceOwner.isRouter, sharedPort]

theorem Base.addUplink {s : State} (h : Base s) {networkId sharedId : String} (segment : Segment)
    (hid : sharedId ∉ s.ports.map Port.id) (hnamed : s.named networkId = []) :
    Base (addUplink s segment networkId sharedId) := by
  have hlocal := h.localnets_of_named hnamed
  constructor
  · rw [addUplink_ports, List.map_append, List.nodup_append]
    exact ⟨h.ids, by simp, by simpa [sharedPort] using hid⟩
  · intro p hp hrouter
    rw [addUplink_ports] at hp
    rcases List.mem_append.mp hp with hp | hp
    · exact h.names p hp hrouter
    · rw [List.mem_singleton.mp hp] at hrouter
      cases hrouter
  · intro n
    unfold Shape State.localnetsOn
    rw [named_addUplink, addUplink_localnets hlocal, List.filter_append, addUplink_subports]
    by_cases hn : networkId = n
    · -- The first rows of the network's uplink.
      subst hn
      rw [State.localnetsOn] at hlocal
      rw [hnamed, hlocal, if_pos rfl]
      right
      exact ⟨_, _, rfl, by simp; rfl, rfl, by simp [sharedPort]⟩
    · rw [if_neg hn, List.append_nil]
      have hsame : ([⟨uplinkName segment.id, networkId, segment.segmentationId,
          segment.physicalNetwork⟩] : List LocalnetPort).filter
            (fun l => decide (l.networkId = n)) = [] := by
        simp [hn]
      rw [hsame, List.append_nil]
      rcases h.shape n with hempty | ⟨p, l, hp, hl, hname, hsub⟩
      · exact .inl hempty
      · exact .inr ⟨p, l, hp, hl, hname, by simp_all⟩

/-- What a successful `create_port_postcommit` can do. -/
theorem createPortPostcommit_cases {config : Config} {s s' : State} {port : Port}
    {allocated : Option Segment} {sharedId : String}
    (h : createPortPostcommit config s port allocated sharedId = .ok s') :
    (isOnlyRouterPortOnNetwork s port.networkId = false ∧ s' = s) ∨
    (isUnflavored config port = false ∧ s' = s) ∨
    (isOnlyRouterPortOnNetwork s port.networkId = true ∧
      ∃ segment, s' = addUplink s segment port.networkId sharedId) := by
  cases honly : isOnlyRouterPortOnNetwork s port.networkId with
  | false =>
    simp only [createPortPostcommit, honly, Bool.false_eq_true, not_false_eq_true,
      ↓reduceIte] at h
    exact .inl ⟨rfl, (Except.ok.inj h).symm⟩
  | true =>
    simp only [createPortPostcommit, honly, not_true_eq_false, ↓reduceIte] at h
    obtain ⟨flavored, hflavor, h⟩ := Runs.bind_eq_ok h
    cases flavored with
    | true =>
      right; left
      simp only [isUnflavored, hflavor, Except.toOption]
      exact ⟨rfl, (Except.ok.inj h).symm⟩
    | false =>
      right; right
      obtain ⟨segment, -, h⟩ := Runs.bind_eq_ok h
      exact ⟨rfl, segment, (Except.ok.inj h).symm⟩

section Creation

variable {config : Config} {s : State} {port : Port}

theorem named_addPort_router (hname : isUplinkName port.name = false) (n : String) :
    (s.addPort port).named n = s.named n := by
  rw [named_addPort, isSharedOn_eq_false hname, if_neg Bool.false_ne_true, List.append_nil]

theorem routerPorts_addPort_router (hrouter : port.deviceOwner.isRouter = true) (n : String) :
    (s.addPort port).routerPorts n =
      s.routerPorts n ++ if port.networkId = n then [port] else [] := by
  rw [routerPorts_addPort]
  simp [Port.isRouterPortOn, hrouter]

theorem Inv.absent_addPort (h : Inv config s) (hrouter : port.deviceOwner.isRouter = true)
    {n : String} (hnone : (s.addPort port).routerPorts n = []) :
    port.networkId ≠ n ∧ s.named n = [] := by
  rw [routerPorts_addPort_router hrouter, List.append_eq_nil_iff] at hnone
  constructor
  · intro hn
    simp [hn] at hnone
  · exact h.absent n hnone.1

/-- Where no rows are created, only the new port has to be looked at. -/
theorem Inv.addPort (h : Inv config s) (hid : port.id ∉ s.ports.map Port.id)
    (hrouter : port.deviceOwner.isRouter = true) (hname : isUplinkName port.name = false)
    (hnew : isUnflavored config port = true → s.named port.networkId ≠ []) :
    Inv config (s.addPort port) := by
  refine { h.toBase.addPort hid hname with present := ?_, absent := ?_ }
  · intro p hp hprouter hun
    rw [named_addPort_router hname]
    rcases List.mem_append.mp hp with hp | hp
    · exact h.present p hp hprouter hun
    · rw [List.mem_singleton.mp hp] at hun ⊢
      exact hnew hun
  · intro n hnone
    rw [named_addPort_router hname]
    exact (h.absent_addPort hrouter hnone).2

theorem Inv.addUplink (h : Inv config s) {sharedId : String} (segment : Segment)
    (hids : (port.id :: sharedId :: s.ports.map Port.id).Nodup)
    (hrouter : port.deviceOwner.isRouter = true) (hname : isUplinkName port.name = false)
    (hfirst : s.routerPorts port.networkId = []) :
    Inv config (addUplink (s.addPort port) segment port.networkId sharedId) := by
  rw [List.nodup_cons, List.nodup_cons] at hids
  obtain ⟨hid, hshared, -⟩ := hids
  have hbase := h.toBase.addPort (fun hm => hid (List.mem_cons_of_mem _ hm)) hname
  have hnone : (s.addPort port).named port.networkId = [] := by
    rw [named_addPort_router hname]
    exact h.absent _ hfirst
  have hshared' : sharedId ∉ (s.addPort port).ports.map Port.id := by
    simp only [State.addPort, List.map_append, List.map_cons, List.map_nil, List.mem_append,
      List.mem_singleton, not_or]
    exact ⟨hshared, fun he => hid (he ▸ List.mem_cons_self)⟩
  refine { hbase.addUplink segment hshared' hnone with present := ?_, absent := ?_ }
  · intro p hp hprouter hun
    rw [named_addUplink]
    by_cases hn : port.networkId = p.networkId
    · simp [hn]
    · rw [if_neg hn, List.append_nil, named_addPort_router hname]
      -- On another network the port is an old one.
      rw [addUplink_ports] at hp
      rcases List.mem_append.mp hp with hp | hp
      · rcases List.mem_append.mp hp with hp | hp
        · exact h.present p hp hprouter hun
        · exact absurd (congrArg Port.networkId (List.mem_singleton.mp hp).symm) hn
      · rw [List.mem_singleton.mp hp] at hprouter
        cases hprouter
  · intro n hnone'
    rw [routerPorts_addUplink] at hnone'
    obtain ⟨hn, he⟩ := h.absent_addPort hrouter hnone'
    rw [named_addUplink, if_neg hn, named_addPort_router hname, he]
    rfl

theorem Inv.create {s' : State} {allocated : Option Segment} {sharedId : String}
    (h : Inv config s) (hrouter : port.deviceOwner.isRouter = true)
    (hids : (port.id :: sharedId :: s.ports.map Port.id).Nodup)
    (hok : ¬ MissesUplink config s (.create port allocated sharedId))
    (hs' : createPortPostcommit config (s.addPort port) port allocated sharedId = .ok s') :
    Inv config s' := by
  simp only [MissesUplink, not_or, Bool.not_eq_true] at hok
  obtain ⟨hname, hmiss⟩ := hok
  have hid : port.id ∉ s.ports.map Port.id := by
    intro hm
    exact (List.nodup_cons.mp hids).1 (List.mem_cons_of_mem _ hm)
  have hlength : ((s.addPort port).routerPorts port.networkId).length =
      (s.routerPorts port.networkId).length + 1 := by
    simp [routerPorts_addPort_router hrouter]
  rcases createPortPostcommit_cases hs' with ⟨honly, rfl⟩ | ⟨hflavored, rfl⟩ | ⟨honly, segment, rfl⟩
  · apply h.addPort hid hrouter hname
    intro hun hnone
    apply hmiss
    refine ⟨hun, ?_, ?_⟩
    · simp only [isOnlyRouterPortOnNetwork, hlength, decide_eq_false_iff_not, not_not] at honly
      exact List.ne_nil_of_length_pos (by omega)
    · rw [fetchSharedRouterPort, ← List.head?_filter]
      show (s.named port.networkId).head? = none
      rw [hnone]
      rfl
  · apply h.addPort hid hrouter hname
    intro hun
    rw [hun] at hflavored
    cases hflavored
  · apply h.addUplink segment hids hrouter hname
    simp only [isOnlyRouterPortOnNetwork, hlength, decide_eq_true_eq] at honly
    rw [← List.length_eq_zero_iff]
    omega

end Creation

theorem Inv.applyOp {config : Config} {s : State} {op : UplinkOp} (h : Inv config s)
    (hok : (tryOp config s op).isSome = true ∧ ¬ MissesUplink config s op) :
    Inv config (applyOp config s op) := by
  obtain ⟨s', hs'⟩ := Option.isSome_iff_exists.mp hok.1
  rw [Uplink.applyOp, hs', Option.getD_some]
  cases op with
  | create port allocated sharedId =>
    simp only [tryOp, Option.ite_none_right_eq_some] at hs'
    obtain ⟨⟨hrouter, hids⟩, hs'⟩ := hs'
    apply h.create hrouter hids hok.2
    cases hresult : createPortPostcommit config (s.addPort port) port allocated sharedId with
    | error e =>
      rw [hresult] at hs'
      cases hs'
    | ok s'' =>
      rw [hresult] at hs'
      exact congrArg _ (Option.some.inj hs')
  | remove port events =>
    simp only [tryOp, Option.ite_none_right_eq_some, Option.some.injEq] at hs'
    obtain ⟨⟨hport, hrouter⟩, rfl⟩ := hs'
    exact h.remove hport hrouter events

theorem Inv.empty (config : Config) : Inv config State.empty where
  ids := List.nodup_nil
  names := by simp [State.empty]
  shape := fun _ => .inl ⟨rfl, rfl⟩
  present := by simp [State.empty]
  absent := fun _ _ => rfl

/-- Every network keeps its uplink contract over every serial run of successful operations in
which no unflavored router joins a network that only flavored routers use. -/
theorem uplinkRun_contract (config : Config) (ops : List UplinkOp)
    (h : Runs.Along (applyOp config)
      (fun s op => (tryOp config s op).isSome = true ∧ ¬ MissesUplink config s op) State.empty ops) :
    ∀ pre, pre <+: ops → ∀ networkId,
      UplinkContract config (pre.foldl (applyOp config) State.empty) networkId := by
  intro pre hpre networkId
  have hinv := h.invariant (fun s op hs hop => hs.applyOp hop) (Inv.empty config) hpre
  exact hinv.contract networkId

/-- `svi` is a flavored router, `plain` and `spare` are not. -/
def smallConfig : Config where
  getRouterFlavor := fun r =>
    if r = "svi" then some (.value "svi-flavor")
    else if r = "plain" ∨ r = "spare" then some .null
    else none
  networkNodeSwitchportPhysnet := some "physnet"

def routerPort (id networkId routerId : String) : Port :=
  { id := id, networkId := networkId, name := [], deviceOwner := .routerInterface,
    deviceId := routerId }

def smallSegment : Segment := { id := ['7'], segmentationId := 7, physicalNetwork := "physnet" }

/-- The uplink outlives the unflavored routers as long as the flavored one stays. -/
def sharedNetworkOps : List UplinkOp :=
  [.create (routerPort "a" "n" "plain") (some smallSegment) "u",
    .create (routerPort "b" "n" "svi") none "v", .create (routerPort "c" "n" "spare") none "w",
    .remove (routerPort "a" "n" "plain") .both, .remove (routerPort "c" "n" "spare") .afterDelete,
    .remove (routerPort "b" "n" "svi") .precommitDelete,
    .create (routerPort "d" "n" "svi") none "x"]

theorem uplinkRun_contract_sharedNetwork :
    Runs.Along (applyOp smallConfig)
      (fun s op => (tryOp smallConfig s op).isSome = true ∧ ¬ MissesUplink smallConfig s op)
      State.empty sharedNetworkOps ∧
    ((sharedNetworkOps.take 5).foldl (applyOp smallConfig) State.empty).localnetsOn "n" ≠ [] ∧
    ∀ pre, pre <+: sharedNetworkOps → ∀ networkId,
      UplinkContract smallConfig (pre.foldl (applyOp smallConfig) State.empty) networkId :=
  have h : Runs.Along (applyOp smallConfig)
      (fun s op => (tryOp smallConfig s op).isSome = true ∧ ¬ MissesUplink smallConfig s op)
      State.empty sharedNetworkOps := by decide
  ⟨h, by decide, uplinkRun_contract smallConfig sharedNetworkOps h⟩

/-- The port of an unflavored router that follows a flavored one gets no uplink. -/
theorem uplinkRun_flavored_first :
    ¬ ∀ (config : Config) (ops : List UplinkOp),
      Runs.Along (applyOp config) (fun s op => (tryOp config s op).isSome = true)
        State.empty ops →
      ∀ pre, pre <+: ops → ∀ networkId,
        UplinkContract config (pre.foldl (applyOp config) State.empty) networkId := by
  intro hall
  have hcontract := hall smallConfig
    [.create (routerPort "a" "n" "svi") none "u",
      .create (routerPort "b" "n" "plain") (some smallSegment) "v"]
    (by decide) _ (List.prefix_refl _) "n"
  obtain ⟨p, hshared, -⟩ := hcontract.present
    ⟨routerPort "b" "n" "plain", by decide, by decide⟩
  have hnone : State.sharedPorts (List.foldl (applyOp smallConfig) State.empty
      [.create (routerPort "a" "n" "svi") none "u",
        .create (routerPort "b" "n" "plain") (some smallSegment) "v"]) "n" = [] := by decide
  rw [hnone] at hshared
  cases hshared

end Understack.Neutron.Uplink
