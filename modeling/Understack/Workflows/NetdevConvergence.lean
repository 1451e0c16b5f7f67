import Understack.Workflows.NetdevEffects
import Understack.Workflows.NetdevMetadata

/-! Convergence of `enroll`: after a run that returns, the node holds the request and a second
run only reads, exactly when the metadata of a reused node survives its text encoding. -/
namespace Understack.Workflows.Netdev

open PyText Json Calls

variable {lower : Text → Text} {F : Type} [FloatOps F]

/-! The metadata patch. -/

omit [FloatOps F] in
theorem Node.patch_append (node : Node F) (a b : Patch F) :
    node.patch (a ++ b) = (node.patch a).bind fun n => n.patch b := by
  unfold Node.patch
  rw [List.foldlM_append]
  rfl

theorem argsArrayToPatch_append {a b : List Text} {ops : Patch F}
    (h : argsArrayToPatch (a ++ b) = some ops) :
    ∃ p q, argsArrayToPatch a = some p ∧ argsArrayToPatch b = some q ∧ ops = p ++ q := by
  unfold argsArrayToPatch at h ⊢
  rw [List.mapM_append] at h
  obtain ⟨p, hp, h⟩ := Option.bind_eq_some_iff.mp h
  obtain ⟨q, hq, h⟩ := Option.bind_eq_some_iff.mp h
  cases h
  exact ⟨p, q, hp, hq, rfl⟩

theorem patch_driverInfo {es : List (Text × Scalar)} {ops : Patch F}
    (h : argsArrayToPatch (es.map fun e =>
      "driver_info".toList ++ '/' :: (e.1 ++ '=' :: e.2.format)) = some ops) (node : Node F) :
    node.patch ops = (es.foldlM writeKey node.driverInfo).map fun ms =>
      { node with driverInfo := ms } :=
  patch_field Node.driverInfo (fun node ms => { node with driverInfo := ms })
    (by decide) (by decide) (fun _ _ _ => rfl) (fun _ => rfl) (fun _ _ => rfl)
    (fun _ _ _ => rfl) h node

theorem patch_extra {es : List (Text × Scalar)} {ops : Patch F}
    (h : argsArrayToPatch (es.map fun e =>
      "extra".toList ++ '/' :: (e.1 ++ '=' :: e.2.format)) = some ops) (node : Node F) :
    node.patch ops = (es.foldlM writeKey node.extra).map fun ms => { node with extra := ms } :=
  patch_field Node.extra (fun node ms => { node with extra := ms })
    (by decide) (by decide) (fun _ _ _ => rfl) (fun _ => rfl) (fun _ _ => rfl)
    (fun _ _ _ => rfl) h node

theorem attributeToOperation_resourceClass (rc : Text) :
    attributeToOperation (F := F) ("resource_class=".toList ++ rc) =
      some ("/resource_class".toList, deserialize rc) := by
  have hsplit : splitOnce '=' ("/resource_class".toList ++ '=' :: rc) =
      some ("/resource_class".toList, rc) := splitOnce_append (by decide)
  have htext : '/' :: ("resource_class=".toList ++ rc) = "/resource_class".toList ++ '=' :: rc := rfl
  have hhead : ("resource_class=".toList ++ rc).head? ≠ some '/' := by
    rw [show ("resource_class=".toList ++ rc).head? = some 'r' from rfl]
    decide
  rw [attributeToOperation, if_neg hhead, htext, hsplit]
  rfl

omit [FloatOps F] in
theorem patch_resourceClass (node : Node F) (v : Value F) :
    node.patch [("/resource_class".toList, v)] = some { node with resourceClass := v } := by
  have hp : pointer "/resource_class".toList = some ["resource_class".toList] := by
    decide +kernel
  have hadd : node.addOperation ["resource_class".toList] v =
      some { node with resourceClass := v } := by
    rw [Node.addOperation, if_pos rfl, if_pos rfl]
  rw [Node.patch, List.foldlM_cons, hp, Option.bind_some, hadd]
  rfl

def Request.patchedResourceClass (req : Request F) (node : Node F) : Value F :=
  if equals (some node.resourceClass) (.str req.effectiveResourceClass) then node.resourceClass
  else deserialize req.effectiveResourceClass

/-- Where the patch of a reused node leaves its metadata. -/
theorem metadataPatch_spec {req : Request F} {node node' : Node F}
    (h : node.patch (req.metadataPatch node) = some node') :
    node'.resourceClass = req.patchedResourceClass node ∧
      (differing node.driverInfo req.driverInfo).foldlM writeKey node.driverInfo =
        some node'.driverInfo ∧
      (differing node.extra req.nodeExtra).foldlM writeKey node.extra = some node'.extra := by
  have hargs := argsArrayToPatch_updates req node
  unfold Request.updates metadataUpdates at hargs
  obtain ⟨ab, c, hab, hc, hpatch⟩ := argsArrayToPatch_append hargs
  obtain ⟨a, b, ha, hb, rfl⟩ := argsArrayToPatch_append hab
  have hrc : node.patch a = some { node with resourceClass := req.patchedResourceClass node } := by
    unfold Request.patchedResourceClass
    split_ifs at ha ⊢
    · cases ha
      rfl
    · rw [argsArrayToPatch, List.mapM_cons, attributeToOperation_resourceClass] at ha
      have hop : [("/resource_class".toList, deserialize req.effectiveResourceClass)] = a :=
        Option.some.inj ha
      rw [← hop]
      exact patch_resourceClass node _
  rw [hpatch, Node.patch_append, Node.patch_append, hrc, Option.bind_some, patch_driverInfo hb] at h
  obtain ⟨n, hn, h⟩ := Option.bind_eq_some_iff.mp h
  obtain ⟨di, hdi, rfl⟩ := Option.map_eq_some_iff.mp hn
  rw [patch_extra hc] at h
  obtain ⟨ex, hex, rfl⟩ := Option.map_eq_some_iff.mp h
  exact ⟨rfl, hdi, hex⟩

theorem equals_str {v : Value F} {s : Text} : equals (some v) (.str s) = true ↔ v = .str s := by
  cases v <;> simp [equals]

theorem patchedResourceClass_eq {req : Request F} {node : Node F} :
    req.patchedResourceClass node = .str req.effectiveResourceClass ↔
      node.resourceClass = .str req.effectiveResourceClass ∨
        loads (F := F) req.effectiveResourceClass = none := by
  unfold Request.patchedResourceClass
  split_ifs with h
  · simp [equals_str.mp h]
  · rw [deserialize_eq_str, or_iff_right (mt equals_str.mpr h)]

/-! The converged node. -/

def HoldsPort (lower : Text → Text) (req : Request F) (node : Node F) (port : NetdevPort) : Prop :=
  ∃ p ∈ node.ports.1, p.name = some (portName req.name port.label) ∧
    lower p.address = lower port.mac ∧ p.physicalNetwork = some req.physicalNetwork ∧
    p.category = some "network".toList ∧
    (p.localLinkConnection.getD []).lookup "switch_info".toList = some port.switch ∧
    (p.localLinkConnection.getD []).lookup "port_id".toList = some port.interface

/-- The node holds exactly what the request asks for. -/
structure Converged (lower : Text → Text) (req : Request F) (node : Node F) : Prop where
  resourceClass : node.resourceClass = .str req.effectiveResourceClass
  driverInfo : ∀ e ∈ req.driverInfo.1, node.driverInfo.lookup e.1 = some e.2.toJson
  extra : ∀ e ∈ req.nodeExtra.1, node.extra.lookup e.1 = some e.2.toJson
  ports : ∀ ports, buildNetdevPorts lower req.ports = .ok ports →
    ∀ port ∈ ports, HoldsPort lower req node port

/-- Nothing that `enroll` has to write is lost in its text: the node is new, or each value of
the request is stored already or survives. -/
def MetadataSurvives (req : Request F) : Option (Node F) → Prop
  | none => True
  | some node =>
    (node.resourceClass = .str req.effectiveResourceClass ∨
        loads (F := F) req.effectiveResourceClass = none) ∧
      (∀ e ∈ req.driverInfo.1, RoundTrips (node.driverInfo.lookup e.1) e) ∧
      ∀ e ∈ req.nodeExtra.1, RoundTrips (node.extra.lookup e.1) e

omit [FloatOps F] in
theorem holdsPort_of_settled {req : Request F} {node : Node F} {port : NetdevPort} {p : Port}
    (hp : portsByName node.ports.1 (portName req.name port.label) = some p)
    (hs : Settled lower req.physicalNetwork port p) : HoldsPort lower req node port := by
  obtain ⟨hmem, hname⟩ := portsByName_mem hp
  obtain ⟨hpn, hcat, hlink⟩ := planOther_eq_nil.mp hs.2
  have hlookup : ∀ e ∈ desiredLlc port (p.localLinkConnection.getD []),
      (p.localLinkConnection.getD []).lookup e.1 = some e.2 := fun e he =>
    of_decide_eq_true (List.all_eq_true.mp hlink e he)
  refine ⟨p, hmem, hname, hs.1, hpn, hcat, ?_, ?_⟩
  · exact hlookup ("switch_info".toList, port.switch) (by simp [desiredLlc])
  · exact hlookup ("port_id".toList, port.interface) (by simp [desiredLlc])

omit [FloatOps F] in
theorem lookup_storeFields {d : Fields} {e : Text × Scalar} (he : e ∈ d.1) :
    (storeFields d : List (Text × Value F)).lookup e.1 = some e.2.toJson := by
  have hkeys : ((storeFields d : List (Text × Value F)).map Prod.fst).Nodup := by
    have hmap : (storeFields d : List (Text × Value F)).map Prod.fst = d.1.map Prod.fst := by
      simp [storeFields]
    rw [hmap]
    exact d.2
  exact PyDict.lookup_of_mem hkeys (List.mem_map.mpr ⟨e, he, rfl⟩)

/-- The state after a run that returns. -/
theorem enroll_ok (I : Ironic lower) (outcome : ℕ → Outcome) {req : Request F}
    {s : Option (Node F)} {w : World (Option (Node F)) (Call F)}
    (h : enroll (I.api outcome) lower req ⟨s, []⟩ = (.ok (), w)) :
    ∃ opening node created ports plans patched, Found I req s opening node created ∧
      buildNetdevPorts lower req.ports = .ok ports ∧
      planPorts lower req.name req.physicalNetwork node.ports.1 ports = .ok plans ∧
      node.patch (req.ownPatch node created) = some patched ∧
      w.state = some ((patched.withPorts (applyPlans I.toPortServer req.name req.physicalNetwork
        plans.reduceOption node.ports)).withState .available) := by
  rw [enroll_eq] at h
  obtain ⟨es, r, -, ht, hres⟩ := (I.api outcome).follow_trace (script I req s) ⟨s, []⟩
  rw [h] at ht hres
  rcases hres with ⟨rfl, hres⟩ | ⟨c, -, hres⟩
  · rcases script_cases I req s with ⟨err, herr, -, -⟩ | ⟨opening, node, created, ports, plans, hf,
      hb, hp, he⟩
    · cases hres.trans herr
    · have hserve := ht.serveAll_of_ok
      rw [he, before, Api.serveAll_append, hf.serveAll outcome, Option.bind_some,
        serveAll_reconcile I outcome req created _ hf.reenrollable] at hserve
      obtain ⟨patched, hpatch, hw⟩ := Option.map_eq_some_iff.mp hserve
      rw [hf.ports] at hp
      exact ⟨opening, node, created, ports, plans, patched, hf, hb, hp, hpatch, hw.symm⟩
  · cases hres

/-! The second run. -/

theorem fieldUpdates_eq_nil {field : Text} {stored : List (Text × Value F)} {wanted : Fields}
    (h : ∀ e ∈ wanted.1, stored.lookup e.1 = some e.2.toJson) :
    fieldUpdates field stored wanted = [] := by
  have hfilter : (wanted.1.filter fun e => !equals (stored.lookup e.1) e.2) = [] := by
    rw [List.filter_eq_nil_iff]
    intro e he
    rw [h e he, equals_toJson]
    simp
  rw [fieldUpdates, hfilter]
  rfl

theorem updates_of_converged {req : Request F} {node : Node F} (h : Converged lower req node) :
    req.updates node = [] := by
  have hrc := equals_str.mpr h.resourceClass
  rw [Request.updates, metadataUpdates, if_pos hrc, fieldUpdates_eq_nil h.driverInfo,
    fieldUpdates_eq_nil h.extra]
  rfl

/-- From an available node that holds the request the script only reads. -/
theorem script_of_converged (I : Ironic lower) {req : Request F} {node : Node F}
    (hd : node.driver = "netdev".toList) (hs : node.provisionState = .available)
    (hc : Converged lower req node) {ports : List NetdevPort}
    (hb : buildNetdevPorts lower req.ports = .ok ports)
    (hp : planPorts lower req.name req.physicalNetwork node.ports.1 ports =
      .ok (ports.map fun _ => none)) :
    (script I req (some node)).1 = [.getNode req.name, .listPorts] := by
  have hprep : prepareCalls req node false [] = ([] : List (Call F)) := by
    simp [prepareCalls, stepDownCalls, metadataCalls, updates_of_converged hc]
  have hre : node.provisionState ∈ reenrollableStates := by
    rw [hs]
    decide
  have hplanned : plannedScript lower req node false ports = ([], .ok ()) := by
    simp [plannedScript, hp, reconcileScript, steppedState, hs, hprep]
  simp [script, hb, hd, hre, hplanned, before]

theorem reads_of_converged (I : Ironic lower) (outcome : ℕ → Outcome) {req : Request F}
    {node : Node F} (hd : node.driver = "netdev".toList) (hs : node.provisionState = .available)
    (hc : Converged lower req node) {ports : List NetdevPort}
    (hb : buildNetdevPorts lower req.ports = .ok ports)
    (hp : planPorts lower req.name req.physicalNetwork node.ports.1 ports =
      .ok (ports.map fun _ => none)) :
    ∀ e ∈ (enroll (I.api outcome) lower req ⟨some node, []⟩).2.log, e.call.isRead = true := by
  rw [enroll_eq]
  obtain ⟨es, r, hlog, ht, -⟩ :=
    (I.api outcome).follow_trace (script I req (some node)) ⟨some node, []⟩
  have hcalls := ht.calls_isPrefix
  rw [script_of_converged I hd hs hc hb hp] at hcalls
  rw [hlog, List.nil_append]
  intro e he
  have hmem := hcalls.subset (List.mem_map_of_mem he)
  simp only [List.mem_cons, List.not_mem_nil, or_false] at hmem
  rcases hmem with h | h <;> rw [h] <;> rfl

/-- The metadata that a run leaves is the requested one exactly if it survives. -/
theorem metadata_iff {I : Ironic lower} {req : Request F} {s : Option (Node F)}
    {opening : List (Call F)} {node patched : Node F} {created : Bool}
    (hf : Found I req s opening node created)
    (hpatch : node.patch (req.ownPatch node created) = some patched) :
    (patched.resourceClass = .str req.effectiveResourceClass ∧
        (∀ e ∈ req.driverInfo.1, patched.driverInfo.lookup e.1 = some e.2.toJson) ∧
        ∀ e ∈ req.nodeExtra.1, patched.extra.lookup e.1 = some e.2.toJson) ↔
      MetadataSurvives req s := by
  cases hf with
  | created =>
    cases hpatch
    refine iff_of_true ⟨rfl, fun e he => ?_, fun e he => ?_⟩ trivial
    · exact lookup_storeFields he
    · exact lookup_storeFields he
  | reused node hd hs =>
    obtain ⟨hrc, hdi, hex⟩ := metadataPatch_spec hpatch
    rw [hrc, patchedResourceClass_eq, held_iff_roundTrips hdi, held_iff_roundTrips hex]
    exact Iff.rfl

/-- After a run of `enroll` that returns, the node holds the request and a repeated run only
reads, if and only if no metadata of a reused node is lost in its text. -/
theorem enroll_converges_iff (I : Ironic lower) (outcome : ℕ → Outcome) (req : Request F)
    (s : Option (Node F)) {w : World (Option (Node F)) (Call F)}
    (h : enroll (I.api outcome) lower req ⟨s, []⟩ = (.ok (), w)) :
    ((∃ node, w.state = some node ∧ Converged lower req node) ∧
        ∀ outcome', ∀ e ∈ (enroll (I.api outcome') lower req ⟨w.state, []⟩).2.log,
          e.call.isRead = true) ↔
      MetadataSurvives req s := by
  obtain ⟨opening, node, created, ports, plans, patched, hf, hb, hp, hpatch, hw⟩ :=
    enroll_ok I outcome h
  obtain ⟨hlabels, -⟩ := buildNetdevPorts_distinct hb
  have hprogress := progress_applyPlans I.toPortServer hlabels hp
  have hmeta := metadata_iff hf hpatch
  have hdriver : patched.driver = "netdev".toList :=
    (Node.patch_same hpatch).2.1.trans hf.driver
  rw [hw]
  constructor
  · intro hconv
    obtain ⟨⟨n, hn, hc⟩, -⟩ := hconv
    cases hn
    exact hmeta.mp ⟨hc.resourceClass, hc.driverInfo, hc.extra⟩
  · intro hsurv
    obtain ⟨hrc, hdi, hex⟩ := hmeta.mpr hsurv
    -- the ports need nothing more, whatever became of the metadata
    have hc : Converged lower req ((patched.withPorts (applyPlans I.toPortServer req.name
        req.physicalNetwork plans.reduceOption node.ports)).withState .available) := by
      refine ⟨hrc, hdi, hex, fun ports' hb' port hport => ?_⟩
      cases hb.symm.trans hb'
      obtain ⟨e, he, hs⟩ := hprogress.settled port hport
      exact holdsPort_of_settled he hs
    refine ⟨⟨_, rfl, hc⟩, fun outcome' => ?_⟩
    exact reads_of_converged I outcome' hdriver rfl hc hb (planPorts_of_settled hprogress.settled)

/-- A new key whose value is not JSON arrives as it is. -/
theorem enroll_converges_host :
    ∃ w, enroll ((Ironic.prompt id).api fun _ => .done) id
        (onePortRequest (some ("host".toList, .str "fw1".toList))) ⟨some bareNode, []⟩ = (.ok (), w) ∧
      ∃ node, w.state = some node ∧
        Converged id (onePortRequest (some ("host".toList, .str "fw1".toList))) node := by
  have hok : (enroll ((Ironic.prompt id).api fun _ => .done) id
      (onePortRequest (some ("host".toList, .str "fw1".toList))) ⟨some bareNode, []⟩).1.isOk = true := by
    decide +kernel
  refine ⟨_, eq_ok_of_isOk hok, ((enroll_converges_iff _ _ _ _ (eq_ok_of_isOk hok)).mpr ?_).1⟩
  refine ⟨Or.inr rfl, fun e he => ?_, fun e he => ?_⟩
  · rw [List.mem_singleton.mp he]
    exact Or.inr ⟨rfl, by decide, rfl⟩
  · have hextra : (onePortRequest (some ("host".toList, .str "fw1".toList))).nodeExtra.1 = [] := rfl
    rw [hextra] at he
    cases he

/-- A string of digits becomes an integer on a reused node. -/
theorem enroll_loses_digits :
    ¬ ∀ (req : Request Text) (s : Option (Node Text)) (w : World (Option (Node Text)) (Call Text)),
      enroll ((Ironic.prompt id).api fun _ => .done) id req ⟨s, []⟩ = (.ok (), w) →
      (∃ node, w.state = some node ∧ Converged id req node) ∧
        ∀ outcome', ∀ e ∈ (enroll ((Ironic.prompt id).api outcome') id req ⟨w.state, []⟩).2.log,
          e.call.isRead = true := by
  intro h
  have hok : (enroll ((Ironic.prompt id).api fun _ => .done) id
      (onePortRequest (some ("pin".toList, .str "123".toList))) ⟨some bareNode, []⟩).1.isOk = true := by
    decide +kernel
  have hstored : ((enroll ((Ironic.prompt id).api fun _ => .done) id
      (onePortRequest (some ("pin".toList, .str "123".toList))) ⟨some bareNode, []⟩).2.state.bind
        fun node => asStr (node.driverInfo.lookup "pin".toList)) = none := by
    decide +kernel
  obtain ⟨⟨node, hnode, hc⟩, -⟩ := h _ _ _ (eq_ok_of_isOk hok)
  rw [hnode, Option.bind_some, hc.driverInfo ("pin".toList, .str "123".toList)
    List.mem_cons_self] at hstored
  cases hstored

end Understack.Workflows.Netdev
