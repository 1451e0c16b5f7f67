import Mathlib.Data.List.Dedup
import Understack.Lib.Runs
import Understack.Workflows.NetappNetwork

/-! A run of the network setup that stopped after any of its calls leaves a state from which ports
and interfaces are completed. Routes that it created are in the way of the next run. -/
namespace Understack.Workflows.NetappNet
open PyText PyIpaddress Attempts

/-! Where an interface goes, and what is there. -/

structure Home where
  node : Text
  basePort : Text
  domain : Text

/-- The home node, the base port and the broadcast domain of an interface exist. -/
structure Located (o : Ontap) (c : NetappIPInterfaceConfig) (h : Home) : Prop where
  node : ∃ node, homeNode o.nodes c = .ok node ∧ node.name = h.node
  basePort : homePortName c = .ok h.basePort
  domain : broadcastDomain o.ports h.node h.basePort = .ok h.domain

/-- There is exactly one VLAN port for the interface, and exactly one interface of its name, with
its address and netmask and on that port. -/
def Ready (svmName : Text) (o : Ontap) (c : NetappIPInterfaceConfig) : Prop :=
  ∃ h port lif, Located o c h ∧ o.vlanPorts h.node h.basePort c.vlanTag = [port] ∧
    o.lifs svmName c.name = [lif] ∧ lif.address = ipv4Text c.address ∧
    lif.netmask = ipv4Text c.network.netmask ∧ lif.homePortUuid = port.uuid

/-- What the setup finds: the SVM, the nodes and the broadcast domains exist, no VLAN port exists
twice, and an interface under a name of the list is the one that is asked for. -/
structure Compatible (svmName : Text) (configs : List NetappIPInterfaceConfig) (o : Ontap) :
    Prop where
  svm : svmName ∈ o.svms
  located : ∀ c ∈ configs, ∃ h, Located o c h
  ports : ∀ node basePort tag, (o.vlanPorts node basePort tag).length ≤ 1
  lifs : ∀ c ∈ configs, o.lifs svmName c.name = [] ∨ Ready svmName o c

/-- The state between two calls, when the interfaces `done` have been dealt with and no route has
been created since `routes` were there. -/
structure Progress (svmName : Text) (configs done : List NetappIPInterfaceConfig)
    (routes : List NetworkRoute) (o : Ontap) : Prop where
  compatible : Compatible svmName configs o
  ready : ∀ c ∈ done, Ready svmName o c
  routes_eq : o.routes = routes

section Additions
variable {o : Ontap} {svmName : Text} {c : NetappIPInterfaceConfig} {h : Home}

theorem vlanPortName_inj {b b' : Text} {t t' : VlanTag} (h : vlanPortName b t = vlanPortName b' t') :
    b = b' ∧ t = t' := by
  have hdash (t : VlanTag) : '-' ∉ (ofInt t.val).reverse := fun hm =>
    absurd (mem_ofInt_of_nonneg (by have := t.property; omega) (List.mem_reverse.mp hm)) (by decide)
  have hrev := congrArg (fun s => splitOnce '-' s.reverse) h
  simp only [vlanPortName, List.reverse_append, List.reverse_cons, List.append_assoc,
    List.singleton_append] at hrev
  rw [splitOnce_append (hdash t), splitOnce_append (hdash t')] at hrev
  obtain ⟨htag, hbase⟩ := Prod.mk.inj (Option.some.inj hrev)
  have htext := congrArg int? (List.reverse_injective htag)
  rw [int?_ofInt, int?_ofInt] at htext
  exact ⟨List.reverse_injective hbase, Subtype.ext (Option.some.inj htext)⟩

/-- The query for a VLAN port by its name finds the first port with the tag. -/
theorem find?_vlanPort (spec : PortSpec) :
    (o.ports.find? fun p => p.isVlan ∧ p.name = vlanPortName spec.basePortName spec.vlanId ∧
      p.node = spec.nodeName) =
      (o.vlanPorts spec.nodeName spec.basePortName spec.vlanId).head? := by
  rw [Ontap.vlanPorts, List.head?_filter]
  congr 1
  funext p
  rw [decide_eq_decide]
  obtain ⟨uuid, node, kind, domain⟩ := p
  cases kind with
  | other name => simp [Port.isVlan]
  | vlan basePort tag =>
    simp only [Port.isVlan, Port.name, true_and, PortKind.vlan.injEq]
    constructor
    · rintro ⟨hname, hnode⟩
      exact ⟨hnode, vlanPortName_inj hname⟩
    · rintro ⟨hnode, rfl, rfl⟩
      exact ⟨rfl, hnode⟩

theorem vlanPorts_addPort (spec : PortSpec) (uuid : Text) :
    (o.addPort (spec.port uuid)).vlanPorts spec.nodeName spec.basePortName spec.vlanId =
      o.vlanPorts spec.nodeName spec.basePortName spec.vlanId ++ [spec.port uuid] := by
  rw [Ontap.vlanPorts, Ontap.addPort, List.filter_append]
  simp [Ontap.vlanPorts, PortSpec.port]

theorem vlanPorts_addPort_of_ne {spec : PortSpec} {node basePort : Text} {tag : VlanTag}
    (hne : ¬ (spec.nodeName = node ∧ spec.basePortName = basePort ∧ spec.vlanId = tag))
    (uuid : Text) :
    (o.addPort (spec.port uuid)).vlanPorts node basePort tag = o.vlanPorts node basePort tag := by
  rw [Ontap.vlanPorts, Ontap.addPort, List.filter_append]
  simp [Ontap.vlanPorts, PortSpec.port, hne]

theorem lifs_addInterface_of_ne {lif : IpInterface} {name : Text}
    (hne : ¬ (lif.svm = svmName ∧ lif.name = name)) :
    (o.addInterface lif).lifs svmName name = o.lifs svmName name := by
  rw [Ontap.lifs, Ontap.addInterface, List.filter_append]
  simp [Ontap.lifs, hne]

theorem lifs_addInterface {lif : IpInterface} {name : Text} (hs : lif.svm = svmName)
    (hn : lif.name = name) :
    (o.addInterface lif).lifs svmName name = o.lifs svmName name ++ [lif] := by
  rw [Ontap.lifs, Ontap.addInterface, List.filter_append]
  simp [Ontap.lifs, hs, hn]

theorem Located.unique {h' : Home} (h₁ : Located o c h) (h₂ : Located o c h') : h = h' := by
  obtain ⟨⟨node, hnode, hname⟩, hbase, hdomain⟩ := h₁
  obtain ⟨⟨node', hnode', hname'⟩, hbase', hdomain'⟩ := h₂
  obtain ⟨n, b, d⟩ := h
  obtain ⟨n', b', d'⟩ := h'
  obtain rfl := Except.ok.inj (hnode.symm.trans hnode')
  obtain rfl : n = n' := hname.symm.trans hname'
  obtain rfl : b = b' := Except.ok.inj (hbase.symm.trans hbase')
  obtain rfl : d = d' := Except.ok.inj (hdomain.symm.trans hdomain')
  rfl

theorem Located.addPort (hl : Located o c h) (p : Port) : Located (o.addPort p) c h where
  node := hl.node
  basePort := hl.basePort
  domain := by
    have hdomain := hl.domain
    unfold broadcastDomain at hdomain ⊢
    rw [Ontap.addPort, List.find?_append]
    cases hfind : o.ports.find? fun p => p.name = h.basePort ∧ p.node = h.node with
    | none =>
      rw [hfind] at hdomain
      cases hdomain
    | some q =>
      rw [hfind] at hdomain
      exact hdomain

theorem Located.addInterface (hl : Located o c h) (lif : IpInterface) :
    Located (o.addInterface lif) c h := ⟨hl.node, hl.basePort, hl.domain⟩

theorem Located.addRoute (hl : Located o c h) (r : NetworkRoute) : Located (o.addRoute r) c h :=
  ⟨hl.node, hl.basePort, hl.domain⟩

theorem Ready.addPort (hr : Ready svmName o c) {spec : PortSpec}
    (hnone : o.vlanPorts spec.nodeName spec.basePortName spec.vlanId = []) (uuid : Text) :
    Ready svmName (o.addPort (spec.port uuid)) c := by
  obtain ⟨h, port, lif, hl, hport, hlif⟩ := hr
  refine ⟨h, port, lif, hl.addPort _, ?_, hlif⟩
  rw [vlanPorts_addPort_of_ne _ uuid, hport]
  rintro ⟨hnode, hbase, htag⟩
  rw [hnode, hbase, htag, hport] at hnone
  cases hnone

theorem Ready.addInterface (hr : Ready svmName o c) {lif : IpInterface}
    (hne : ¬ (lif.svm = svmName ∧ lif.name = c.name)) : Ready svmName (o.addInterface lif) c := by
  obtain ⟨h, port, lif', hl, hport, hlif, hrest⟩ := hr
  refine ⟨h, port, lif', hl.addInterface lif, hport, ?_, hrest⟩
  rwa [lifs_addInterface_of_ne hne]

theorem Ready.addRoute (hr : Ready svmName o c) (r : NetworkRoute) :
    Ready svmName (o.addRoute r) c := by
  obtain ⟨h, port, lif, hl, hrest⟩ := hr
  exact ⟨h, port, lif, hl.addRoute r, hrest⟩

/-- A setup can start where the SVM has no interfaces yet. -/
theorem compatible_of_fresh {configs : List NetappIPInterfaceConfig} (hsvm : svmName ∈ o.svms)
    (hlocated : ∀ c ∈ configs, ∃ h, Located o c h)
    (hports : ∀ node basePort tag, (o.vlanPorts node basePort tag).length ≤ 1)
    (hfresh : ∀ i ∈ o.interfaces, i.svm ≠ svmName) : Compatible svmName configs o where
  svm := hsvm
  located := hlocated
  ports := hports
  lifs := by
    intro c hc
    refine .inl (List.filter_eq_nil_iff.mpr fun i hi h => ?_)
    exact hfresh i hi (of_decide_eq_true h).1

end Additions

section Calls
variable {faults : ℕ → Option (Fault NetAppManagerError)} {uuids : ℕ → Text} {svmName : Text}
  {configs done : List NetappIPInterfaceConfig} {routes : List NetworkRoute}

/-- What holds where a run has stopped: a call has failed. -/
def Stopped (faults : ℕ → Option (Fault NetAppManagerError)) (P : Ontap → Prop) :
    NetAppManagerError → Ontap → Prop :=
  fun _ o => P o ∧ ∃ n, (faults n).isSome = true

theorem Stopped.mono {P P' : Ontap → Prop} (h : ∀ o, P o → P' o) {e : NetAppManagerError} {o : Ontap}
    (hs : Stopped faults P e o) : Stopped faults P' e o := ⟨h o hs.1, hs.2⟩

/-- A request that changes nothing. -/
theorem read_spec {α : Type} {get : Ontap → Except NetAppManagerError α} {P P' : Ontap → Prop}
    {Q : α → Ontap → Prop} (hP : ∀ o, P o → P' o) (h : ∀ o, P o → ∃ a, get o = .ok a ∧ Q a o) :
    Triple P (call faults fun _ o => (get o, o)) Q (Stopped faults P') := by
  apply Triple.call
  · intro n o a o' ho hserve
    obtain ⟨b, hget, hQ⟩ := h o ho
    rw [hget] at hserve
    cases hserve
    exact hQ
  · intro n o e o' ho hserve
    obtain ⟨b, hget, -⟩ := h o ho
    rw [hget] at hserve
    cases hserve
  · intro n o f ho hf
    have hfault : ∃ n, (faults n).isSome = true := ⟨n, by rw [hf]; rfl⟩
    exact ⟨⟨hP o ho, hfault⟩, hP o ho, hfault⟩

/-- What is posted where it does not exist. -/
theorem post_spec {α : Type} {existing : Ontap → List α} {error : NetAppManagerError}
    {add : Ontap → Text → Ontap} {P P' : Ontap → Prop} {Q : Text → Ontap → Prop}
    (hnone : ∀ o, P o → existing o = []) (hP : ∀ o, P o → P' o)
    (hadd : ∀ o uuid, P o → P' (add o uuid)) (hQ : ∀ o uuid, P o → Q uuid (add o uuid)) :
    Triple P (post faults uuids existing error add) Q (Stopped faults P') := by
  apply Triple.call
  · intro n o a o' h hserve
    rw [if_pos (hnone o h)] at hserve
    cases hserve
    exact hQ o _ h
  · intro n o e o' h hserve
    rw [if_pos (hnone o h)] at hserve
    cases hserve
  · intro n o f h hf
    have hfault : ∃ n, (faults n).isSome = true := ⟨n, by rw [hf]; rfl⟩
    rw [if_pos (hnone o h)]
    exact ⟨⟨hP o h, hfault⟩, hadd o _ h, hfault⟩

theorem Progress.addPort {o : Ontap} (hp : Progress svmName configs done routes o) {spec : PortSpec}
    (hnone : o.vlanPorts spec.nodeName spec.basePortName spec.vlanId = []) (uuid : Text) :
    Progress svmName configs done routes (o.addPort (spec.port uuid)) where
  compatible := {
    svm := hp.compatible.svm
    located := by
      intro c hc
      obtain ⟨h, hl⟩ := hp.compatible.located c hc
      exact ⟨h, hl.addPort _⟩
    ports := by
      intro node basePort tag
      by_cases hkey : spec.nodeName = node ∧ spec.basePortName = basePort ∧ spec.vlanId = tag
      · obtain ⟨rfl, rfl, rfl⟩ := hkey
        rw [vlanPorts_addPort, hnone]
        exact le_refl 1
      · rw [vlanPorts_addPort_of_ne hkey]
        exact hp.compatible.ports node basePort tag
    lifs := by
      intro c hc
      exact (hp.compatible.lifs c hc).imp id fun hr => hr.addPort hnone uuid }
  ready := fun c hc => (hp.ready c hc).addPort hnone uuid
  routes_eq := hp.routes_eq

theorem Progress.addInterface {o : Ontap} (hp : Progress svmName configs done routes o)
    (hnames : (configs.map (·.name)).Nodup) (hdone : ∀ c ∈ done, c ∈ configs)
    {c : NetappIPInterfaceConfig} (hc : c ∈ configs) {lif : IpInterface}
    (hname : lif.name = c.name)
    (hready : Ready svmName (o.addInterface lif) c) :
    Progress svmName configs done routes (o.addInterface lif) := by
  -- the interfaces of the other names are as before
  have hother (c' : NetappIPInterfaceConfig) (hc' : c' ∈ configs) (hne : c' ≠ c) :
      ¬ (lif.svm = svmName ∧ lif.name = c'.name) := by
    rintro ⟨-, hname'⟩
    exact hne (List.inj_on_of_nodup_map hnames hc' hc (hname'.symm.trans hname))
  have hkeep (c' : NetappIPInterfaceConfig) (hc' : c' ∈ configs) (hr : Ready svmName o c') :
      Ready svmName (o.addInterface lif) c' := by
    by_cases heq : c' = c
    · rwa [heq]
    · exact hr.addInterface (hother c' hc' heq)
  constructor
  · constructor
    · exact hp.compatible.svm
    · intro c' hc'
      obtain ⟨h, hl⟩ := hp.compatible.located c' hc'
      exact ⟨h, hl.addInterface lif⟩
    · exact hp.compatible.ports
    · intro c' hc'
      by_cases heq : c' = c
      · exact .inr (heq ▸ hready)
      · rw [lifs_addInterface_of_ne (hother c' hc' heq)]
        exact (hp.compatible.lifs c' hc').imp id (hkeep c' hc')
  · exact fun c' hc' => hkeep c' (hdone c' hc') (hp.ready c' hc')
  · exact hp.routes_eq

/-- The state in which the interface `c` with its home is being dealt with. -/
def AtHome (svmName : Text) (configs done : List NetappIPInterfaceConfig)
    (routes : List NetworkRoute) (c : NetappIPInterfaceConfig) (h : Home) (o : Ontap) : Prop :=
  Progress svmName configs done routes o ∧ Located o c h

theorem getOrCreatePort_spec {c : NetappIPInterfaceConfig} {h : Home} (spec : PortSpec) :
    Triple (AtHome svmName configs done routes c h) (getOrCreatePort faults uuids spec)
      (fun uuid o => AtHome svmName configs done routes c h o ∧
        ∃ port, o.vlanPorts spec.nodeName spec.basePortName spec.vlanId = [port] ∧
          port.uuid = uuid)
      (Stopped faults (Progress svmName configs done routes)) := by
  apply Triple.bind (Q := fun found o => AtHome svmName configs done routes c h o ∧
    found = (o.vlanPorts spec.nodeName spec.basePortName spec.vlanId).head?)
  · apply read_spec fun o hat => hat.1
    intro o hat
    exact ⟨_, rfl, hat, find?_vlanPort spec⟩
  intro found
  cases found with
  | some port =>
    apply Triple.pure
    rintro o ⟨hat, hhead⟩
    obtain ⟨rest, hrest⟩ := List.head?_eq_some_iff.mp hhead.symm
    have hlen := hat.1.compatible.ports spec.nodeName spec.basePortName spec.vlanId
    rw [hrest, List.length_cons] at hlen
    obtain rfl : rest = [] := List.length_eq_zero_iff.mp (by omega)
    exact ⟨hat, port, hrest, rfl⟩
  | none =>
    have hnone (o : Ontap) (hs : AtHome svmName configs done routes c h o ∧
        none = (o.vlanPorts spec.nodeName spec.basePortName spec.vlanId).head?) :
        o.vlanPorts spec.nodeName spec.basePortName spec.vlanId = [] :=
      List.head?_eq_none_iff.mp hs.2.symm
    have hadd (o : Ontap) (uuid : Text) (hs : AtHome svmName configs done routes c h o ∧
        none = (o.vlanPorts spec.nodeName spec.basePortName spec.vlanId).head?) :
        AtHome svmName configs done routes c h (o.addPort (spec.port uuid)) :=
      ⟨hs.1.1.addPort (hnone o hs) uuid, hs.1.2.addPort _⟩
    apply post_spec hnone (fun o hs => hs.1.1) fun o uuid hs => (hadd o uuid hs).1
    intro o uuid hs
    refine ⟨hadd o uuid hs, spec.port uuid, ?_, rfl⟩
    rw [vlanPorts_addPort, hnone o hs, List.nil_append]

/-- The interface that `createLif` asks for. -/
def interfaceSpec (svmName : Text) (c : NetappIPInterfaceConfig) (homePortUuid domain : Text) :
    InterfaceSpec where
  name := c.name
  address := ipv4Text c.address
  netmask := ipv4Text c.network.netmask
  svmName := svmName
  homePortUuid := homePortUuid
  broadcastDomainName := domain
  servicePolicy := "default-data-nvme-tcp".toList

theorem Progress.concat {o : Ontap} {c : NetappIPInterfaceConfig}
    (hp : Progress svmName configs done routes o) (hr : Ready svmName o c) :
    Progress svmName configs (done ++ [c]) routes o where
  compatible := hp.compatible
  ready := by
    intro c' hc'
    rcases List.mem_append.mp hc' with hc' | hc'
    · exact hp.ready c' hc'
    · exact List.mem_singleton.mp hc' ▸ hr
  routes_eq := hp.routes_eq

theorem getOrCreateIpInterface_spec {c : NetappIPInterfaceConfig} {h : Home} {uuid domain : Text}
    (hnames : (configs.map (·.name)).Nodup) (hdone : ∀ c ∈ done, c ∈ configs) (hc : c ∈ configs) :
    Triple (fun o => AtHome svmName configs done routes c h o ∧
        ∃ port, o.vlanPorts h.node h.basePort c.vlanTag = [port] ∧ port.uuid = uuid)
      (getOrCreateIpInterface faults uuids (interfaceSpec svmName c uuid domain))
      (fun _ o => Progress svmName configs (done ++ [c]) routes o)
      (Stopped faults (Progress svmName configs done routes)) := by
  apply Triple.bind (Q := fun found o => (AtHome svmName configs done routes c h o ∧
    ∃ port, o.vlanPorts h.node h.basePort c.vlanTag = [port] ∧ port.uuid = uuid) ∧
      found = (o.lifs svmName c.name).head?)
  · apply read_spec fun o hs => hs.1.1
    intro o hs
    refine ⟨_, rfl, hs, ?_⟩
    rw [Ontap.lifs, List.head?_filter]
    rfl
  intro found
  cases found with
  | some lif =>
    apply Triple.pure
    rintro o ⟨⟨hat, -⟩, hhead⟩
    rcases hat.1.compatible.lifs c hc with hnone | hready
    · rw [hnone] at hhead
      cases hhead
    · exact hat.1.concat hready
  | none =>
    -- the posted interface is the only one of its name, on the port that was just looked up
    have hnew (o : Ontap) (new : Text) (hs : (AtHome svmName configs done routes c h o ∧
        ∃ port, o.vlanPorts h.node h.basePort c.vlanTag = [port] ∧ port.uuid = uuid) ∧
          none = (o.lifs svmName c.name).head?) :
        Ready svmName (o.addInterface ((interfaceSpec svmName c uuid domain).interface new)) c ∧
          Progress svmName configs done routes
            (o.addInterface ((interfaceSpec svmName c uuid domain).interface new)) := by
      obtain ⟨⟨hat, port, hport, rfl⟩, hhead⟩ := hs
      have hnone : o.lifs svmName c.name = [] := List.head?_eq_none_iff.mp hhead.symm
      have hlifs : (o.addInterface ((interfaceSpec svmName c port.uuid domain).interface new)).lifs
          svmName c.name = _ := lifs_addInterface rfl rfl
      rw [hnone, List.nil_append] at hlifs
      have hready : Ready svmName
          (o.addInterface ((interfaceSpec svmName c port.uuid domain).interface new)) c :=
        ⟨h, port, _, hat.2.addInterface _, hport, hlifs, rfl, rfl, rfl⟩
      exact ⟨hready, hat.1.addInterface hnames hdone hc rfl hready⟩
    apply post_spec
    · rintro o ⟨-, hhead⟩
      exact List.head?_eq_none_iff.mp hhead.symm
    · exact fun o hs => hs.1.1.1
    · exact fun o new hs => (hnew o new hs).2
    · exact fun o new hs => (hnew o new hs).2.concat (hnew o new hs).1

/-- A request whose answer the home of the interface decides. -/
theorem read_atHome {α : Type} {get : Ontap → Except NetAppManagerError α} {p : α → Prop}
    {c : NetappIPInterfaceConfig} {h : Home}
    (hget : ∀ o, AtHome svmName configs done routes c h o → ∃ a, get o = .ok a ∧ p a) :
    Triple (AtHome svmName configs done routes c h) (call faults fun _ o => (get o, o))
      (fun a o => AtHome svmName configs done routes c h o ∧ p a)
      (Stopped faults (Progress svmName configs done routes)) := by
  apply read_spec fun o hat => hat.1
  intro o hat
  obtain ⟨a, ha, hp⟩ := hget o hat
  exact ⟨a, ha, hat, hp⟩

theorem identifyHomeNode_spec {c : NetappIPInterfaceConfig} {h : Home} :
    Triple (AtHome svmName configs done routes c h) (identifyHomeNode faults c)
      (fun node o => AtHome svmName configs done routes c h o ∧ node.name = h.node)
      (Stopped faults (Progress svmName configs done routes)) := by
  apply Triple.bind (read_atHome (p := fun nodes => ∃ node, homeNode nodes c = .ok node ∧
    node.name = h.node) fun o hat => ⟨o.nodes, rfl, hat.2.node⟩)
  intro nodes
  apply Triple.assume
  rintro ⟨node, hnode, hname⟩
  apply Triple.lift
  · intro a o ha hat
    rw [hnode] at ha
    cases ha
    exact ⟨hat, hname⟩
  · intro e o he hat
    rw [hnode] at he
    cases he

/-- One interface is completed, whatever of it was there. -/
theorem createLif_spec {projectId : Text} {c : NetappIPInterfaceConfig}
    (hnames : (configs.map (·.name)).Nodup) (hdone : ∀ c ∈ done, c ∈ configs) (hc : c ∈ configs) :
    Triple (Progress (svmNameOf projectId) configs done routes) (createLif faults uuids projectId c)
      (fun _ => Progress (svmNameOf projectId) configs (done ++ [c]) routes)
      (Stopped faults (Progress (svmNameOf projectId) configs done routes)) := by
  apply Triple.of_state
  intro o₀ ho₀
  obtain ⟨h, hl⟩ := ho₀.compatible.located c hc
  apply Triple.conseq (P := AtHome (svmNameOf projectId) configs done routes c h) ?_
    (by rintro o rfl; exact ⟨ho₀, hl⟩) (fun _ o hs => hs) fun e o hs => hs
  apply Triple.bind (read_atHome (p := fun found => found = true) fun o hat =>
    ⟨_, rfl, decide_eq_true hat.1.compatible.svm⟩)
  rintro svmResult
  apply Triple.assume
  rintro rfl
  apply Triple.bind identifyHomeNode_spec
  intro node
  apply Triple.assume
  intro hnode
  apply Triple.bind (Q := fun basePort o => AtHome (svmNameOf projectId) configs done routes c h o ∧
    basePort = h.basePort)
  · apply Triple.lift
    · intro a o ha hat
      rw [hl.basePort] at ha
      cases ha
      exact ⟨hat, rfl⟩
    · intro e o he hat
      rw [hl.basePort] at he
      cases he
  intro basePort
  apply Triple.assume
  rintro rfl
  apply Triple.bind (read_atHome fun o hat => ⟨h.domain, by rw [hnode]; exact hat.2.domain, rfl⟩)
  intro domain
  apply Triple.assume
  rintro rfl
  apply Triple.bind (getOrCreatePort_spec _)
  intro homePortUuid
  show Triple _ (getOrCreateIpInterface faults uuids
    (interfaceSpec (svmNameOf projectId) c homePortUuid h.domain) >>= _) _ _
  apply Triple.bind (Triple.conseq (getOrCreateIpInterface_spec hnames hdone hc)
    (fun o hs => hnode ▸ hs) (fun _ o hs => hs) fun e o hs => hs)
  intro lif
  exact Triple.pure fun o hs => hs

theorem createLifs_spec {projectId : Text} (hnames : (configs.map (·.name)).Nodup)
    (routes : List NetworkRoute) :
    Triple (Progress (svmNameOf projectId) configs [] routes)
      (configs.forM (createLif faults uuids projectId))
      (fun _ => Progress (svmNameOf projectId) configs configs routes)
      (Stopped faults fun o => Compatible (svmNameOf projectId) configs o ∧ o.routes = routes) := by
  apply Triple.forM (I := fun done => Progress (svmNameOf projectId) configs done routes)
  intro done c rest hsplit
  have hdone (c' : NetappIPInterfaceConfig) (hc' : c' ∈ done) : c' ∈ configs := by
    rw [hsplit]
    exact List.mem_append_left _ hc'
  have hc : c ∈ configs := by
    rw [hsplit]
    exact List.mem_append_right _ List.mem_cons_self
  exact Triple.conseq (createLif_spec hnames hdone hc) (fun o hp => hp) (fun _ o hp => hp)
    fun e o hs => hs.mono fun o hp => ⟨hp.compatible, hp.routes_eq⟩

end Calls

/-! The routes. -/

section Routes
variable {faults : ℕ → Option (Fault NetAppManagerError)} {uuids : ℕ → Text} {svmName : Text}
  {configs : List NetappIPInterfaceConfig}

theorem Compatible.addRoute {o : Ontap} (hc : Compatible svmName configs o) (r : NetworkRoute) :
    Compatible svmName configs (o.addRoute r) where
  svm := hc.svm
  located := by
    intro c hmem
    obtain ⟨h, hl⟩ := hc.located c hmem
    exact ⟨h, hl.addRoute r⟩
  ports := hc.ports
  lifs := fun c hmem => (hc.lifs c hmem).imp id fun hr => hr.addRoute r

theorem routesFor_addRoute (o : Ontap) (spec : RouteSpec) (r : NetworkRoute) :
    (o.addRoute r).routesFor spec = o.routesFor spec ++ if r.isFor spec then [r] else [] := by
  rw [Ontap.routesFor, Ontap.addRoute, List.filter_append, List.filter_singleton]
  cases r.isFor spec <;> rfl

theorem isFor_route (spec : RouteSpec) (uuid : Text) : (spec.route uuid).isFor spec = true := by
  simp [NetworkRoute.isFor, RouteSpec.route]

/-- The texts are of next hops in the carrier-grade range. -/
def Hops (hops : List Text) : Prop :=
  ∀ t ∈ hops, ∃ a, carrierGradeNat.contains a = true ∧ t = ipv4Text a

/-- The route via a next hop of the list. -/
theorem Hops.spec {hops : List Text} (h : Hops hops) {t : Text} (ht : t ∈ hops) (svmName : Text) :
    ∃ spec, RouteSpec.fromNexthopIp svmName t = .ok spec ∧ ipv4Text spec.gateway = t := by
  obtain ⟨a, ha, rfl⟩ := h t ht
  exact ⟨_, fromNexthopIp_ok svmName ha, rfl⟩

/-- While routes are being created, there is one for each next hop that has been dealt with and
none for the others. -/
def Routed (svmName : Text) (hops visited : List Text) (o : Ontap) : Prop :=
  ∀ t ∈ hops, ∀ spec, RouteSpec.fromNexthopIp svmName t = .ok spec →
    (o.routesFor spec).length = if t ∈ visited then 1 else 0

theorem Routed.addRoute {o : Ontap} {hops visited : List Text} (hr : Routed svmName hops visited o)
    (hhops : Hops hops) {t : Text} (ht : t ∈ hops) (hnew : t ∉ visited) {spec : RouteSpec}
    (hspec : RouteSpec.fromNexthopIp svmName t = .ok spec) (uuid : Text) :
    Routed svmName hops (visited ++ [t]) (o.addRoute (spec.route uuid)) := by
  intro t' ht' spec' hspec'
  have hold := hr t' ht' spec' hspec'
  rw [routesFor_addRoute, List.length_append, hold]
  by_cases heq : t' = t
  · subst heq
    obtain rfl := Except.ok.inj (hspec'.symm.trans hspec)
    rw [isFor_route, if_neg hnew, if_pos rfl, if_pos (List.mem_append_right _ List.mem_cons_self)]
    rfl
  · obtain ⟨s, hs, hgateway⟩ := hhops.spec ht svmName
    obtain rfl := Except.ok.inj (hs.symm.trans hspec)
    obtain ⟨s', hs', hgateway'⟩ := hhops.spec ht' svmName
    obtain rfl := Except.ok.inj (hs'.symm.trans hspec')
    have hfor : (s.route uuid).isFor s' = false := by
      have hne : ipv4Text s.gateway ≠ ipv4Text s'.gateway := by
        rw [hgateway, hgateway']
        exact Ne.symm heq
      simp [NetworkRoute.isFor, RouteSpec.route, hne]
    have hmem : t' ∈ visited ++ [t] ↔ t' ∈ visited := by simp [heq]
    rw [hfor]
    simp only [hmem]
    rfl

/-- The state of a setup whose interfaces are completed. -/
def Routing (svmName : Text) (configs : List NetappIPInterfaceConfig) (hops visited : List Text)
    (o : Ontap) : Prop :=
  (Compatible svmName configs o ∧ ∀ c ∈ configs, Ready svmName o c) ∧ Routed svmName hops visited o

theorem createRouteVia_spec {projectId : Text} {hops visited : List Text} (hhops : Hops hops)
    {t : Text} (ht : t ∈ hops) (hnew : t ∉ visited) :
    Triple (Routing (svmNameOf projectId) configs hops visited)
      (createRouteVia faults uuids projectId t)
      (fun _ => Routing (svmNameOf projectId) configs hops (visited ++ [t]))
      (Stopped faults (Compatible (svmNameOf projectId) configs)) := by
  obtain ⟨spec, hspec, -⟩ := hhops.spec ht (svmNameOf projectId)
  unfold createRouteVia
  rw [hspec]
  apply Triple.bind (Triple.lift (Q := fun a o =>
    Routing (svmNameOf projectId) configs hops visited o ∧ a = spec) ?_ ?_)
  · intro a
    apply Triple.assume
    rintro rfl
    apply Triple.bind (Q := fun _ => Routing (svmNameOf projectId) configs hops (visited ++ [t]))
    · apply post_spec
      · intro o hr
        have hlen := hr.2 t ht a hspec
        rw [if_neg hnew] at hlen
        exact List.length_eq_zero_iff.mp hlen
      · exact fun o hr => hr.1.1
      · exact fun o uuid hr => hr.1.1.addRoute _
      · exact fun o uuid hr => ⟨⟨hr.1.1.addRoute _, fun c hc => (hr.1.2 c hc).addRoute _⟩,
          hr.2.addRoute hhops ht hnew hspec uuid⟩
    · exact fun _ => Triple.pure fun o hr => hr
  · intro a o ha hr
    cases ha
    exact ⟨hr, rfl⟩
  · intro e o he
    cases he

theorem createRoutes_spec {projectId : Text} {hops : List Text} (hhops : Hops hops)
    (hnodup : hops.Nodup) :
    Triple (Routing (svmNameOf projectId) configs hops [])
      (hops.forM (createRouteVia faults uuids projectId))
      (fun _ => Routing (svmNameOf projectId) configs hops hops)
      (Stopped faults (Compatible (svmNameOf projectId) configs)) := by
  apply Triple.forM (I := Routing (svmNameOf projectId) configs hops)
  intro visited t rest hsplit
  have ht : t ∈ hops := by
    rw [hsplit]
    exact List.mem_append_right _ List.mem_cons_self
  apply createRouteVia_spec hhops ht
  rw [hsplit] at hnodup
  intro hm
  exact List.disjoint_of_nodup_append hnodup hm List.mem_cons_self

/-- What a post keeps, whether or not it is refused. -/
theorem post_keeps {α : Type} {existing : Ontap → List α} {error : NetAppManagerError}
    {add : Ontap → Text → Ontap} {P : Ontap → Prop} (hadd : ∀ o uuid, P o → P (add o uuid)) :
    Triple P (post faults uuids existing error add) (fun _ => P) fun _ => P := by
  have hserve (n : ℕ) (o : Ontap) (ho : P o) : P (if existing o = [] then
      ((.ok (uuids n), add o (uuids n)) : Except NetAppManagerError Text × Ontap)
      else (.error error, o)).2 := by
    split
    · exact hadd o _ ho
    · exact ho
  apply Triple.call
  · intro n o a o' ho h
    have := hserve n o ho
    rwa [h] at this
  · intro n o e o' ho h
    have := hserve n o ho
    rwa [h] at this
  · exact fun n o f ho _ => ⟨ho, hserve n o ho⟩

theorem createRouteVia_keeps {projectId : Text} {P : Ontap → Prop}
    (hadd : ∀ o r, P o → P (o.addRoute r)) (t : Text) :
    Triple P (createRouteVia faults uuids projectId t) (fun _ => P) fun _ => P := by
  apply Triple.bind (Triple.lift (fun a o _ ho => ho) fun e o _ ho => ho)
  intro spec
  exact Triple.bind (post_keeps fun o uuid ho => hadd o _ ho) fun _ => Triple.pure fun o ho => ho

/-- A route that exists is in the way: the run does not return. -/
theorem createRoutes_rejected {projectId : Text} {hops : List Text} {t : Text} (ht : t ∈ hops)
    {spec : RouteSpec} (hspec : RouteSpec.fromNexthopIp (svmNameOf projectId) t = .ok spec) :
    Triple (fun o => o.routesFor spec ≠ []) (hops.forM (createRouteVia faults uuids projectId))
      (fun _ _ => False) fun _ _ => True := by
  have hloop : Triple (fun o => o.routesFor spec ≠ [] ∧ t ∉ ([] : List Text))
      (hops.forM (createRouteVia faults uuids projectId))
      (fun _ o => o.routesFor spec ≠ [] ∧ t ∉ hops) fun _ _ => True := by
    apply Triple.forM (I := fun visited (o : Ontap) => o.routesFor spec ≠ [] ∧ t ∉ visited)
    intro visited t' rest hsplit
    apply Triple.assume
    intro hnew
    by_cases heq : t' = t
    · rw [heq, createRouteVia, hspec]
      apply Triple.bind (Triple.lift (Q := fun a o => o.routesFor spec ≠ [] ∧ a = spec)
        (fun a o ha ho => ⟨ho, (Except.ok.inj ha).symm⟩) fun _ _ _ _ => trivial)
      intro a
      apply Triple.assume
      rintro rfl
      apply Triple.bind (Q := fun _ _ => False)
      · unfold createRoute post
        apply Triple.call
        · intro n o uuid o' ho h
          rw [if_neg ho] at h
          cases h
        · exact fun _ _ _ _ _ _ => trivial
        · exact fun _ _ _ _ _ => ⟨trivial, trivial⟩
      · exact fun _ => Triple.pure fun o h => h.elim
    · have hmem : t ∉ visited ++ [t'] := by
        simp [hnew, Ne.symm heq]
      apply Triple.conseq (createRouteVia_keeps (P := fun o => o.routesFor spec ≠ []) ?_ t')
        (fun o ho => ho) (fun _ o ho => ⟨ho, hmem⟩) fun _ _ _ => trivial
      intro o r ho
      rw [routesFor_addRoute]
      exact List.append_ne_nil_of_left_ne_nil ho _
  exact Triple.conseq hloop (fun o ho => ⟨ho, List.not_mem_nil⟩) (fun _ o ho => ho.2 ht)
    fun _ _ _ => trivial

end Routes

/-! Whole runs. -/

/-- The next hop of every interface lies in `100.64.0.0/10`. -/
def NextHopsValid (configs : List NetappIPInterfaceConfig) : Prop :=
  ∀ c ∈ configs, ∃ a, c.routeNexthop = .ok a ∧ carrierGradeNat.contains a = true

/-- No route via a next hop of the list exists. -/
def NoRoute (svmName : Text) (configs : List NetappIPInterfaceConfig) (o : Ontap) : Prop :=
  ∀ c ∈ configs, ∀ t spec, nexthopText c = .ok t → RouteSpec.fromNexthopIp svmName t = .ok spec →
    o.routesFor spec = []

/-- What the setup has to end with: one VLAN port and one interface for each configuration, and
one route for each next hop. -/
def Complete (svmName : Text) (configs : List NetappIPInterfaceConfig) (o : Ontap) : Prop :=
  ∀ c ∈ configs, Ready svmName o c ∧ ∃ t spec route, nexthopText c = .ok t ∧
    RouteSpec.fromNexthopIp svmName t = .ok spec ∧ o.routesFor spec = [route]

theorem nexthopText_of_valid {configs : List NetappIPInterfaceConfig} (h : NextHopsValid configs)
    {c : NetappIPInterfaceConfig} (hc : c ∈ configs) :
    ∃ a, carrierGradeNat.contains a = true ∧ nexthopText c = .ok (ipv4Text a) := by
  obtain ⟨a, ha, hcontains⟩ := h c hc
  exact ⟨a, hcontains, by rw [nexthopText, ha]; rfl⟩

theorem mapM_nexthopText {configs : List NetappIPInterfaceConfig} (h : NextHopsValid configs) :
    ∃ hops, configs.mapM nexthopText = .ok hops ∧ Hops hops ∧
      ∀ t, t ∈ hops ↔ ∃ c ∈ configs, nexthopText c = .ok t := by
  obtain ⟨hops, hhops⟩ := Runs.mapM_returns fun c hc => by
    obtain ⟨a, -, ha⟩ := nexthopText_of_valid h hc
    exact ⟨_, ha⟩
  have hmem (t : Text) : t ∈ hops ↔ ∃ c ∈ configs, nexthopText c = .ok t := by
    constructor
    · exact Runs.mem_of_mapM_ok hhops
    · rintro ⟨c, hc, ht⟩
      obtain ⟨t', ht', heq⟩ := Runs.exists_of_mapM_ok hhops hc
      rw [ht] at heq
      cases heq
      exact ht'
  refine ⟨hops, hhops, fun t ht => ?_, hmem⟩
  obtain ⟨c, hc, htext⟩ := (hmem t).mp ht
  obtain ⟨a, hcontains, ha⟩ := nexthopText_of_valid h hc
  rw [htext] at ha
  cases ha
  exact ⟨a, hcontains, rfl⟩

section Resume
variable {faults : ℕ → Option (Fault NetAppManagerError)} {uuids : ℕ → Text} {order : SetOrder}
  {projectId : Text} {configs : List NetappIPInterfaceConfig}

/-- Wherever a run stops, it leaves a state that a run can start from. -/
theorem compatible_kept (hnames : (configs.map (·.name)).Nodup) :
    Triple (Compatible (svmNameOf projectId) configs)
      (netappCreateInterfacesAndRoutes faults uuids order projectId configs)
      (fun _ => Compatible (svmNameOf projectId) configs)
      fun _ => Compatible (svmNameOf projectId) configs := by
  apply Triple.bind (Q := fun _ => Compatible (svmNameOf projectId) configs)
  · apply Triple.of_state
    intro o ho
    apply Triple.conseq (createLifs_spec hnames o.routes)
    · rintro o' rfl
      exact ⟨ho, fun c hc => absurd hc List.not_mem_nil, rfl⟩
    · exact fun _ o' hp => hp.compatible
    · exact fun e o' hs => hs.1.1
  · intro _
    apply Triple.bind (Triple.lift (fun a o _ ho => ho) fun e o _ ho => ho)
    intro hops
    apply Triple.forM (I := fun _ => Compatible (svmNameOf projectId) configs)
    intro _ t _ _
    exact createRouteVia_keeps (fun o r ho => ho.addRoute r) t

/-- From a state in which no route via the next hops exists, a run whose calls do not fail
completes the setup. -/
theorem setup_completes (hnames : (configs.map (·.name)).Nodup) (hvalid : NextHopsValid configs)
    {o : Ontap} (ho : Compatible (svmNameOf projectId) configs o)
    (hnone : NoRoute (svmNameOf projectId) configs o) :
    Triple (· = o) (netappCreateInterfacesAndRoutes faults uuids order projectId configs)
      (fun _ => Complete (svmNameOf projectId) configs)
      fun _ _ => ∃ n, (faults n).isSome = true := by
  obtain ⟨hops, hmap, hhops, hmem⟩ := mapM_nexthopText hvalid
  have helements : Hops (order.elements hops) := fun t ht => hhops t ((order.mem hops t).mp ht)
  apply Triple.bind (Q := fun _ => Progress (svmNameOf projectId) configs configs o.routes)
  · apply Triple.conseq (createLifs_spec hnames o.routes)
    · rintro o' rfl
      exact ⟨ho, fun c hc => absurd hc List.not_mem_nil, rfl⟩
    · exact fun _ o' hp => hp
    · exact fun e o' hs => hs.2
  intro _
  unfold createRoutesFromInterfaces
  rw [hmap]
  apply Triple.bind (Triple.lift (Q := fun a o' =>
    Progress (svmNameOf projectId) configs configs o.routes o' ∧ a = hops) ?_ ?_)
  · intro a
    apply Triple.assume
    rintro rfl
    apply Triple.conseq (createRoutes_spec helements (order.nodup a))
    · intro o' hp
      refine ⟨⟨hp.compatible, hp.ready⟩, fun t ht spec hspec => ?_⟩
      obtain ⟨c, hc, htext⟩ := (hmem t).mp ((order.mem a t).mp ht)
      have hfree := hnone c hc t spec htext hspec
      rw [Ontap.routesFor] at hfree ⊢
      rw [hp.routes_eq, hfree, if_neg List.not_mem_nil]
      rfl
    · rintro _ o' ⟨⟨-, hready⟩, hrouted⟩ c hc
      obtain ⟨b, hcontains, htext⟩ := nexthopText_of_valid hvalid hc
      have ht : ipv4Text b ∈ order.elements a :=
        (order.mem a _).mpr ((hmem _).mpr ⟨c, hc, htext⟩)
      have hspec := fromNexthopIp_ok (svmNameOf projectId) hcontains
      have hlen := hrouted _ ht _ hspec
      rw [if_pos ht] at hlen
      obtain ⟨route, hroute⟩ := List.length_eq_one_iff.mp hlen
      exact ⟨hready c hc, _, _, route, htext, hspec, hroute⟩
    · exact fun e o' hs => hs.2
  · intro a o' ha hp
    cases ha
    exact ⟨hp, rfl⟩
  · intro e o' he
    cases he

/-- From a state in which a route via a next hop exists, no run returns. -/
theorem setup_rejected (hnames : (configs.map (·.name)).Nodup) (hvalid : NextHopsValid configs)
    {o : Ontap} (ho : Compatible (svmNameOf projectId) configs o)
    (hroute : ¬ NoRoute (svmNameOf projectId) configs o) :
    Triple (· = o) (netappCreateInterfacesAndRoutes faults uuids order projectId configs)
      (fun _ _ => False) fun _ _ => True := by
  obtain ⟨hops, hmap, hhops, hmem⟩ := mapM_nexthopText hvalid
  obtain ⟨c, hc, t, spec, htext, hspec, hne⟩ : ∃ c ∈ configs, ∃ t spec, nexthopText c = .ok t ∧
      RouteSpec.fromNexthopIp (svmNameOf projectId) t = .ok spec ∧ o.routesFor spec ≠ [] := by
    simpa only [NoRoute, not_forall, exists_prop] using hroute
  have ht : t ∈ order.elements hops := (order.mem hops t).mpr ((hmem t).mpr ⟨c, hc, htext⟩)
  apply Triple.bind (Q := fun _ o' => o'.routes = o.routes)
  · apply Triple.conseq (createLifs_spec hnames o.routes)
    · rintro o' rfl
      exact ⟨ho, fun c hc => absurd hc List.not_mem_nil, rfl⟩
    · exact fun _ o' hp => hp.routes_eq
    · exact fun e o' hs => trivial
  intro _
  unfold createRoutesFromInterfaces
  rw [hmap]
  apply Triple.bind (Triple.lift (Q := fun a o' => o'.routes = o.routes ∧ a = hops)
    (fun a o' ha hr => ⟨hr, (Except.ok.inj ha).symm⟩) fun _ _ _ _ => trivial)
  intro a
  apply Triple.assume
  rintro rfl
  apply Triple.conseq (createRoutes_rejected ht hspec) (fun o' hr => ?_) (fun _ _ h => h)
    fun _ _ h => h
  rwa [Ontap.routesFor, hr]

end Resume

/-- No call fails. -/
def noFaults : ℕ → Option (Fault NetAppManagerError) := fun _ => none

theorem network_setup_resumes_iff {projectId : Text} {configs : List NetappIPInterfaceConfig}
    (hnames : (configs.map (·.name)).Nodup) (hvalid : NextHopsValid configs)
    {before : Counted Ontap} (hbefore : Compatible (svmNameOf projectId) configs before.state)
    (faults : ℕ → Option (Fault NetAppManagerError)) (uuids uuids' : ℕ → Text)
    (order order' : SetOrder) :
    let left := leaves (netappCreateInterfacesAndRoutes faults uuids order projectId configs) before
    (∃ ended, netappCreateInterfacesAndRoutes noFaults uuids' order' projectId configs left =
        .ok ⟨⟩ ended ∧ Complete (svmNameOf projectId) configs ended.state) ↔
      NoRoute (svmNameOf projectId) configs left.state := by
  intro left
  have hleft : Compatible (svmNameOf projectId) configs left.state :=
    Triple.leaves (compatible_kept hnames) hbefore
  constructor
  · rintro ⟨ended, hrun, -⟩
    by_contra hroute
    have hrejected : Triple _ (netappCreateInterfacesAndRoutes noFaults uuids' order' projectId
      configs) _ _ := setup_rejected hnames hvalid hleft hroute
    have hrejected := hrejected left rfl
    rw [hrun] at hrejected
    exact hrejected
  · intro hnone
    have hcompletes : Triple (· = left.state) (netappCreateInterfacesAndRoutes noFaults uuids' order'
        projectId configs) (fun _ => Complete (svmNameOf projectId) configs) fun _ _ => False := by
      apply Triple.conseq (setup_completes hnames hvalid hleft hnone) (fun o h => h) fun _ o h => h
      rintro e o ⟨n, hn⟩
      cases hn
    obtain ⟨_, ended, hrun, hcomplete⟩ := hcompletes.returns (w := left) rfl
    exact ⟨ended, hrun, hcomplete⟩

def oneNode : Ontap where
  svms := ["os-p".toList]
  nodes := [⟨"1".toList, "node-1".toList⟩]
  ports := [⟨"2".toList, "node-1".toList, .other "e4a".toList, some "Fabric-A".toList⟩]
  interfaces := []
  routes := []

def listOrder : SetOrder where
  elements := List.dedup
  nodup := List.nodup_dedup
  mem := fun _ _ => List.mem_dedup

def numbered (n : ℕ) : Text := ofInt n

theorem nextHops_lifOfA : NextHopsValid [lifOfA] := by
  intro c hc
  obtain rfl := List.mem_singleton.mp hc
  exact ⟨_, rfl, by decide⟩

theorem compatible_oneNode : Compatible (svmNameOf "p".toList) [lifOfA] oneNode := by
  apply compatible_of_fresh (by decide)
  · intro c hc
    obtain rfl := List.mem_singleton.mp hc
    exact ⟨⟨"node-1".toList, "e4a".toList, "Fabric-A".toList⟩, ⟨_, rfl, rfl⟩, rfl, rfl⟩
  · intro node basePort tag
    simp [Ontap.vlanPorts, oneNode]
  · intro i hi
    cases hi

/-- The route's call fails before it reaches ONTAP. -/
theorem network_setup_resumes_stopped :
    ∃ ended, netappCreateInterfacesAndRoutes noFaults numbered listOrder "p".toList [lifOfA]
        (leaves (netappCreateInterfacesAndRoutes
          (fun n => if n = 7 then some ⟨.manager, false⟩ else none) numbered listOrder "p".toList
            [lifOfA]) ⟨oneNode, 0⟩) = .ok ⟨⟩ ended ∧
      Complete (svmNameOf "p".toList) [lifOfA] ended.state := by
  apply (network_setup_resumes_iff (by simp) nextHops_lifOfA compatible_oneNode _ _ _ _ _).mpr
  intro c hc t spec ht hspec
  have hroutes : (leaves (netappCreateInterfacesAndRoutes
      (fun n => if n = 7 then some ⟨.manager, false⟩ else none) numbered listOrder "p".toList
        [lifOfA]) ⟨oneNode, 0⟩).state.routes = [] := by
    decide
  rw [Ontap.routesFor, hroutes]
  rfl

/-- The state that a completed run leaves is no start of another run. -/
theorem completed_setup_rejected :
    let run := netappCreateInterfacesAndRoutes noFaults numbered listOrder "p".toList [lifOfA]
    Compatible (svmNameOf "p".toList) [lifOfA] oneNode ∧ NextHopsValid [lifOfA] ∧
      (∃ ended, run ⟨oneNode, 0⟩ = .ok ⟨⟩ ended) ∧
      ¬ ∃ ended, run (leaves run ⟨oneNode, 0⟩) = .ok ⟨⟩ ended := by
  intro run
  have hcompletes : ∃ ended, run ⟨oneNode, 0⟩ = .ok ⟨⟩ ended := ⟨_, rfl⟩
  have hrejected : ∃ e ended, run (leaves run ⟨oneNode, 0⟩) = .error e ended := ⟨_, _, rfl⟩
  refine ⟨compatible_oneNode, nextHops_lifOfA, hcompletes, ?_⟩
  rintro ⟨ended, hended⟩
  obtain ⟨e, ended', herror⟩ := hrejected
  rw [hended] at herror
  cases herror

end Understack.Workflows.NetappNet
