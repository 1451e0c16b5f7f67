import Understack.Workflows.EnrollFw

/-! `enroll_fw` on a node in service: it raises after reads alone, or it writes metadata of the
request and nothing else. -/
namespace Understack.Workflows.Firewall

open PyText Json Calls Netdev

variable {lower : Text → Text} {F : Type}

/-- What a run leaves: its result, and the world with its log. -/
abbrev Ended (F : Type) := Except (FirewallError F) Unit × World (Option (Node F)) (Call F)

structure RaisedUnwritten (node : Node F) (run : Ended F) : Prop where
  raised : ∃ err, run.1 = .error err
  reads : ∀ e ∈ run.2.log, e.call.isRead = true
  state : run.2.state = some node

/-- The paths of the metadata that the request supplies. -/
def suppliedPaths (req : FirewallRequest F) : List Text :=
  (req.driverInfo.1.map fun e => "/driver_info/".toList ++ e.1) ++
    req.activeExtra.1.map fun e => "/extra/".toList ++ e.1

/-- `node'` is `node` up to the metadata that the request supplies. -/
structure SameBesides (req : FirewallRequest F) (node node' : Node F) : Prop where
  uuid : node'.uuid = node.uuid
  driver : node'.driver = node.driver
  provisionState : node'.provisionState = node.provisionState
  resourceClass : node'.resourceClass = node.resourceClass
  ports : node'.ports = node.ports
  driverInfo : ∀ k, k ∉ req.driverInfo.1.map Prod.fst →
    node'.driverInfo.lookup k = node.driverInfo.lookup k
  extra : ∀ k, k ∉ req.activeExtra.1.map Prod.fst → node'.extra.lookup k = node.extra.lookup k

theorem SameBesides.refl (req : FirewallRequest F) (node : Node F) : SameBesides req node node :=
  ⟨rfl, rfl, rfl, rfl, rfl, fun _ _ => rfl, fun _ _ => rfl⟩

/-- One patch of supplied metadata at most, and no other write. -/
structure MetadataOnly (req : FirewallRequest F) (node : Node F) (run : Ended F) : Prop where
  writes : ∃ patches : List (Patch F), patches.length ≤ 1 ∧
    (∀ patch ∈ patches, ∀ op ∈ patch, op.1 ∈ suppliedPaths req) ∧
      (run.2.log.map Event.call).filter (fun c => !c.isRead) = patches.map .updateNode
  completed : run.1 = .ok () ∨ ∃ e ∈ run.2.log, e.call.isRead = false ∧ e.succeeded = false
  state : ∃ node', run.2.state = some node' ∧ SameBesides req node node'

theorem RaisedUnwritten.not_metadataOnly {req : FirewallRequest F} {node : Node F} {run : Ended F}
    (h : RaisedUnwritten node run) : ¬MetadataOnly req node run := by
  intro hmeta
  obtain ⟨err, herr⟩ := h.raised
  rcases hmeta.completed with hok | ⟨e, he, hwrite, -⟩
  · rw [hok] at herr
    cases herr
  · rw [h.reads e he] at hwrite
    cases hwrite

/-- The resource class that is asked for. -/
def FirewallRequest.normalized (req : FirewallRequest F) : Text := strip (req.resourceClass.getD [])

/-- What `enroll_fw` demands of a node in service and of the request for it. -/
structure Admitted [FloatOps F] (lower : Text → Text) (req : FirewallRequest F) (node : Node F) :
    Prop where
  specific : req.normalized ≠ [] ∧ lower req.normalized ≠ defaultResourceClass
  driver : node.driver = "netdev".toList
  resourceClass : node.resourceClass = .str req.normalized
  ports : ∃ ports, buildNetdevPorts lower req.ports = .ok ports ∧
    ∀ port ∈ ports, planAgainst lower req.name req.physicalNetwork node.ports.1 port = .ok none

theorem rejectDrift_ok_iff {uuid name physicalNetwork : Text} {nodePorts : List Port}
    {ports : List NetdevPort} :
    (rejectDrift lower uuid name physicalNetwork nodePorts ports : Except (FirewallError F) Unit) =
        .ok () ↔
      ∀ port ∈ ports, planAgainst lower name physicalNetwork nodePorts port = .ok none := by
  induction ports with
  | nil => exact iff_of_true rfl (List.forall_mem_nil _)
  | cons port ports ih =>
    rw [List.forall_mem_cons, rejectDrift, ← ih]
    rcases planAgainst lower name physicalNetwork nodePorts port with err | _ | plan <;> simp

/-! The metadata patch. -/

theorem plainKey_nonEmpty {fields : List (Text × Text)} (h : ∀ e ∈ fields, PlainKey e.1) :
    ∀ e ∈ nonEmpty fields, PlainKey e.1 := by
  intro e he
  obtain ⟨e', he', rfl⟩ := List.mem_map.mp he
  exact h e' (List.mem_of_mem_filter he')

theorem plainKey_driverInfo (req : FirewallRequest F) : ∀ e ∈ req.driverInfo.1, PlainKey e.1 := by
  refine plainKey_nonEmpty fun e he => ?_
  simp only [List.mem_cons, List.not_mem_nil, or_false] at he
  rcases he with rfl | rfl | rfl
  · show PlainKey "management_ip".toList
    decide
  · show PlainKey "management_switch".toList
    decide
  · show PlainKey "management_switch_port".toList
    decide

theorem plainKey_activeExtra (req : FirewallRequest F) : ∀ e ∈ req.activeExtra.1, PlainKey e.1 := by
  have hextra : ∀ e ∈ req.extra.1, PlainKey e.1 := by
    refine plainKey_nonEmpty fun e he => ?_
    obtain rfl := List.mem_singleton.mp he
    show PlainKey "mate_serial".toList
    decide
  unfold FirewallRequest.activeExtra
  split_ifs
  · intro e he
    rcases PyDict.mem_put he with rfl | he
    · show PlainKey "external_cmdb_id".toList
      decide
    · exact hextra e he
  · exact hextra

section
variable [FloatOps F]

theorem exists_attribute {attributes : List Text} {patch : Patch F}
    (h : argsArrayToPatch attributes = some patch) {op : Text × Value F} (hop : op ∈ patch) :
    ∃ u ∈ attributes, attributeToOperation u = some op := by
  induction attributes generalizing patch with
  | nil =>
    cases h
    cases hop
  | cons u us ih =>
    rw [argsArrayToPatch, List.mapM_cons] at h
    obtain ⟨op', hop', h⟩ := Option.bind_eq_some_iff.mp h
    obtain ⟨ops, hops, h⟩ := Option.bind_eq_some_iff.mp h
    cases h
    rcases List.mem_cons.mp hop with rfl | hop
    · exact ⟨u, List.mem_cons_self, hop'⟩
    · obtain ⟨u', hu', hop⟩ := ih hops hop
      exact ⟨u', List.mem_cons_of_mem u hu', hop⟩

/-- The update of a plain key is an operation at the path of the key. -/
theorem path_of_fieldUpdates {field : Text} (hfield : PlainKey field) (hne : field ≠ [])
    {stored : List (Text × Value F)} {wanted : Fields} (hplain : ∀ e ∈ wanted.1, PlainKey e.1)
    {u : Text} (hu : u ∈ fieldUpdates field stored wanted) {op : Text × Value F}
    (hop : attributeToOperation u = some op) :
    ∃ e ∈ wanted.1, op.1 = '/' :: (field ++ '/' :: e.1) := by
  obtain ⟨e, he, rfl⟩ := List.mem_map.mp hu
  have hmem := List.mem_of_mem_filter he
  rw [attributeToOperation_field hfield hne, splitOnce_append (hplain e hmem).1] at hop
  cases hop
  exact ⟨e, hmem, rfl⟩

variable {req : FirewallRequest F} {node : Node F} {resourceClass : Text}

omit [FloatOps F] in
theorem effectiveResourceClass_engineRequest (hne : resourceClass ≠ []) :
    (req.engineRequest resourceClass).effectiveResourceClass = resourceClass := by
  obtain ⟨c, cs, rfl⟩ := List.exists_cons_of_ne_nil hne
  rfl

/-- For the class that the node has, the engine's updates are those of the metadata alone. -/
theorem updates_engineRequest (hne : resourceClass ≠ [])
    (h : node.resourceClass = .str resourceClass) :
    (req.engineRequest resourceClass).updates node =
      fieldUpdates "driver_info".toList node.driverInfo req.driverInfo ++
        fieldUpdates "extra".toList node.extra req.activeExtra := by
  rw [Request.updates, metadataUpdates, effectiveResourceClass_engineRequest hne,
    if_pos (equals_str.mpr h), List.nil_append]
  rfl

theorem applyNodeMetadata_eq (req : FirewallRequest F)
    (A : Api (Option (Node F)) (Call F) (EnrollError F)) (hne : resourceClass ≠ []) (h : node.resourceClass = .str resourceClass) :
    applyNodeMetadata A node req.driverInfo req.activeExtra =
      A.callAll (metadataCalls (req.engineRequest resourceClass) node) := by
  have hpatch := argsArrayToPatch_updates (req.engineRequest resourceClass) node
  unfold metadataCalls
  rw [updates_engineRequest hne h] at hpatch ⊢
  unfold applyNodeMetadata
  dsimp only
  split_ifs with hupdates
  · rfl
  · rw [hpatch]
    exact (bind_pure_unit).symm

theorem path_of_metadataPatch (hne : resourceClass ≠ [])
    (h : node.resourceClass = .str resourceClass) {op : Text × Value F} (hop : op ∈ (req.engineRequest resourceClass).metadataPatch node) :
    op.1 ∈ suppliedPaths req := by
  obtain ⟨u, hu, hattr⟩ := exists_attribute (argsArrayToPatch_updates _ node) hop
  rw [updates_engineRequest hne h] at hu
  rw [suppliedPaths, List.mem_append]
  rcases List.mem_append.mp hu with hu | hu
  · obtain ⟨e, he, hpath⟩ := path_of_fieldUpdates (by decide) (by decide) (plainKey_driverInfo req)
      hu hattr
    exact Or.inl (List.mem_map.mpr ⟨e, he, hpath.symm⟩)
  · obtain ⟨e, he, hpath⟩ := path_of_fieldUpdates (by decide) (by decide) (plainKey_activeExtra req)
      hu hattr
    exact Or.inr (List.mem_map.mpr ⟨e, he, hpath.symm⟩)

theorem lookup_of_notMem {stored final : List (Text × Value F)} {wanted : Fields}
    (hplain : ∀ e ∈ wanted.1, PlainKey e.1)
    (h : (differing stored wanted).foldlM writeKey stored = some final) {k : Text}
    (hk : k ∉ wanted.1.map Prod.fst) : final.lookup k = stored.lookup k := by
  refine (lookup_of_plain (fun e he => hplain e (mem_differing.mp he).1) ?_ h).2 k fun hmem => ?_
  · exact (List.filter_sublist.map Prod.fst).nodup wanted.2
  · exact hk ((List.filter_sublist.map Prod.fst).subset hmem)

theorem sameBesides_patch (hne : resourceClass ≠ []) (h : node.resourceClass = .str resourceClass)
    {node' : Node F}
    (hpatch : node.patch ((req.engineRequest resourceClass).metadataPatch node) = some node') :
    SameBesides req node node' := by
  obtain ⟨huuid, hdriver, hstate, hports⟩ := Node.patch_same hpatch
  obtain ⟨hclass, hdriverInfo, hextra⟩ := metadataPatch_spec hpatch
  rw [Request.patchedResourceClass, effectiveResourceClass_engineRequest hne,
    if_pos (equals_str.mpr h)] at hclass
  exact ⟨huuid, hdriver, hstate, hclass, hports,
    fun k hk => lookup_of_notMem (plainKey_driverInfo req) hdriverInfo hk,
    fun k hk => lookup_of_notMem (plainKey_activeExtra req) hextra hk⟩

/-! The run on a node in service. -/

/-- The calls of `_update_active_firewall`, and the result after them. -/
def updateScript (lower : Text → Text) (req : FirewallRequest F) (node : Node F)
    (resourceClass : Text) : List (Call F) × Except (FirewallError F) Unit :=
  if node.driver ≠ "netdev".toList then ([], .error (.notNetdev req.name node.uuid node.driver))
  else if !equals (some node.resourceClass) (.str resourceClass) then
    ([], .error (.otherResourceClass node.uuid node.resourceClass resourceClass))
  else
    match buildNetdevPorts lower req.ports with
    | .error e => ([], .error (.engine (.ports e)))
    | .ok ports =>
      match rejectDrift lower node.uuid req.name req.physicalNetwork node.ports.1 ports with
      | .error e => ([.listPorts], .error e)
      | .ok () => ([.listPorts] ++ metadataCalls (req.engineRequest resourceClass) node, .ok ())

/-- The calls of `enroll_fw` for a node in service. -/
def activeScript (lower : Text → Text) (req : FirewallRequest F) (node : Node F) :
    List (Call F) × Except (FirewallError F) Unit :=
  match requireSpecificResourceClass lower req.resourceClass with
  | .error e => ([], .error e)
  | .ok resourceClass =>
    ([.getNode req.name] ++ (updateScript lower req node resourceClass).1,
      (updateScript lower req node resourceClass).2)

omit [FloatOps F] in
theorem requireSpecificResourceClass_eq (lower : Text → Text) (req : FirewallRequest F) :
    requireSpecificResourceClass (F := F) lower req.resourceClass =
      if req.normalized = [] ∨ lower req.normalized = defaultResourceClass then
        .error (.genericResourceClass req.resourceClass)
      else .ok req.normalized := rfl

/-- An admitted request gets to its metadata patch; any other ends in an error after reads. -/
theorem activeScript_cases (req : FirewallRequest F) (node : Node F) :
    Admitted lower req node ∧ activeScript lower req node =
        ([.getNode req.name, .listPorts] ++
          metadataCalls (req.engineRequest req.normalized) node, .ok ()) ∨
      ¬Admitted lower req node ∧ ∃ reads err, (∀ c ∈ reads, c.isRead = true) ∧
        activeScript lower req node = (reads, .error err) := by
  unfold activeScript
  rw [requireSpecificResourceClass_eq]
  by_cases hspecific : req.normalized = [] ∨ lower req.normalized = defaultResourceClass
  · rw [if_pos hspecific]
    refine Or.inr ⟨fun h => ?_, [], .genericResourceClass req.resourceClass, by simp, rfl⟩
    exact hspecific.elim h.specific.1 h.specific.2
  rw [if_neg hspecific]
  dsimp only
  unfold updateScript
  by_cases hdriver : node.driver ≠ "netdev".toList
  · rw [if_pos hdriver]
    exact Or.inr ⟨fun h => hdriver h.driver, _, _, by simp [Call.isRead], rfl⟩
  rw [if_neg hdriver]
  by_cases hclass : (!equals (some node.resourceClass) (.str req.normalized)) = true
  · rw [if_pos hclass]
    refine Or.inr ⟨fun h => ?_, _, _, by simp [Call.isRead], rfl⟩
    rw [equals_str.mpr h.resourceClass] at hclass
    cases hclass
  rw [if_neg hclass]
  cases hports : buildNetdevPorts lower req.ports with
  | error e =>
    refine Or.inr ⟨fun h => ?_, _, _, by simp [Call.isRead], rfl⟩
    obtain ⟨ports, hok, -⟩ := h.ports
    rw [hports] at hok
    cases hok
  | ok ports =>
    dsimp only
    cases hdrift : (rejectDrift lower node.uuid req.name req.physicalNetwork node.ports.1 ports :
        Except (FirewallError F) Unit) with
    | error e =>
      refine Or.inr ⟨fun h => ?_, _, _, by simp [Call.isRead], rfl⟩
      obtain ⟨ports', hok, hplans⟩ := h.ports
      rw [hports] at hok
      cases hok
      rw [rejectDrift_ok_iff.mpr hplans] at hdrift
      cases hdrift
    | ok u =>
      rw [not_or] at hspecific
      refine Or.inl ⟨⟨hspecific, not_not.mp hdriver, ?_, ports, hports, ?_⟩, rfl⟩
      · exact equals_str.mp (by simpa using hclass)
      · exact rejectDrift_ok_iff.mp hdrift

variable (I : Ironic lower) (outcome : ℕ → Outcome)

/-- The server as `enroll_fw` sees it. -/
def firewallApi : Api (Option (Node F)) (Call F) (FirewallError F) :=
  (I.api outcome).mapError .engine

omit [FloatOps F] in
theorem listPorts_bind {node : Node F} {w : World (Option (Node F)) (Call F)}
    (hw : w.state = some node)
    (f : PortTable → Client (Option (Node F)) (Call F) (FirewallError F) Unit) :
    (mapError .engine (listPorts (I.api outcome)) >>= f) w =
      ((firewallApi I outcome).call .listPorts >>= fun _ => f node.ports) w := by
  rw [listPorts, mapError_bind, Api.mapError_call, bind_assoc]
  refine (firewallApi I outcome).call_bind_congr fun w' hw' => ?_
  have hstate : w'.state = some node := by
    rw [hw] at hw'
    exact (Option.some.inj hw').symm
  have hread : mapError .engine (readNode .listPorts) w' =
      ((.ok node, w') : Except (FirewallError F) (Node F) × _) := by
    rw [mapError, readNode_of_state hstate]
    rfl
  rw [mapError_bind, bind_assoc, bind_ok hread]
  rfl

theorem updateActiveFirewall_eq (req : FirewallRequest F) {resourceClass : Text}
    (hne : resourceClass ≠ []) {node : Node F} {w : World (Option (Node F)) (Call F)}
    (hw : w.state = some node) :
    updateActiveFirewall (I.api outcome) lower node req resourceClass w =
      (firewallApi I outcome).follow (updateScript lower req node resourceClass) w := by
  unfold updateActiveFirewall updateScript
  split_ifs with hdriver hclass
  · rfl
  · rfl
  cases buildNetdevPorts lower req.ports with
  | error e => rfl
  | ok ports =>
    have hmetadata := applyNodeMetadata_eq req (I.api outcome) hne
      (equals_str.mp (by simpa using hclass))
    show (rejectStructuralDrift (I.api outcome) lower node req.name req.physicalNetwork ports >>=
      fun _ => mapError .engine (applyNodeMetadata (I.api outcome) node req.driverInfo
        req.activeExtra)) w = _
    rw [hmetadata, Api.mapError_callAll, rejectStructuralDrift, bind_assoc,
      listPorts_bind I outcome hw]
    dsimp only
    cases (rejectDrift lower node.uuid req.name req.physicalNetwork node.ports.1 ports :
        Except (FirewallError F) Unit) with
    | error e =>
      simp only [Api.follow, Api.callAll_cons, Api.callAll_nil, bind_assoc, pure_bind]
      rfl
    | ok u =>
      simp only [Api.follow_ok, Api.callAll_append, Api.callAll_cons, Api.callAll_nil, bind_assoc,
        pure_bind]
      rfl

theorem enrollFw_eq (req : FirewallRequest F) {node : Node F}
    (hactive : node.provisionState = active) (log : List (Event (Option (Node F)) (Call F))) :
    enrollFw (I.api outcome) lower req ⟨some node, log⟩ =
      (firewallApi I outcome).follow (activeScript lower req node) ⟨some node, log⟩ := by
  unfold enrollFw activeScript
  rw [requireSpecificResourceClass_eq]
  by_cases hspecific : req.normalized = [] ∨ lower req.normalized = defaultResourceClass
  · rw [if_pos hspecific]
    rfl
  rw [if_neg hspecific]
  show (getNodeOrNone (I.api outcome) req.name >>= _) _ = _
  simp only [Api.follow_append, getNodeOrNone, Api.mapError_call, Api.callAll_cons, Api.callAll_nil,
    bind_assoc, pure_bind]
  refine (firewallApi I outcome).call_bind_congr fun w' hw' => ?_
  have hstate : w'.state = some node := (Option.some.inj hw').symm
  rw [current_bind, hstate]
  dsimp only
  rw [if_pos hactive]
  exact updateActiveFirewall_eq I outcome req (fun hnil => hspecific (Or.inl hnil)) hstate

omit [FloatOps F] in
theorem serve_read {c : Call F} (hc : c.isRead = true) (node : Node F) :
    (firewallApi I outcome).serve c (some node) = some (some node) := by
  cases c with
  | getNode name => rfl
  | listPorts => rfl
  | _ => cases hc

omit [FloatOps F] in
/-- A node is not changed by the calls that read it; they raise where the server fails. -/
theorem callAll_reads {reads : List (Call F)} (hreads : ∀ c ∈ reads, c.isRead = true)
    (node : Node F) (log : List (Event (Option (Node F)) (Call F))) :
    ∃ es, (∀ e ∈ es, e.call.isRead = true) ∧
      ((∀ i < reads.length, outcome (log.length + i) = .done) ∧
          (firewallApi I outcome).callAll reads ⟨some node, log⟩ =
            (.ok (), ⟨some node, log ++ es⟩) ∨
        (∃ i < reads.length, outcome (log.length + i) ≠ .done) ∧
          ∃ err, (firewallApi I outcome).callAll reads ⟨some node, log⟩ =
            (.error err, ⟨some node, log ++ es⟩)) := by
  induction reads generalizing log with
  | nil =>
    refine ⟨[], List.forall_mem_nil _, Or.inl ⟨by simp, ?_⟩⟩
    rw [List.append_nil]
    rfl
  | cons c reads ih =>
    obtain ⟨hc, hrest⟩ := List.forall_mem_cons.mp hreads
    have hserve := serve_read I outcome hc node
    rw [Api.callAll_cons, List.length_cons, Nat.forall_lt_succ_left, Nat.exists_lt_succ_left,
      Nat.add_zero]
    by_cases hfirst : outcome log.length = .done
    · obtain ⟨es, hes, hrun⟩ := ih hrest (log ++ [⟨c, some node, some node, true⟩])
      refine ⟨⟨c, some node, some node, true⟩ :: es, List.forall_mem_cons.mpr ⟨hc, hes⟩, ?_⟩
      rw [bind_ok (Api.call_of_done _ hserve hfirst)]
      simp only [List.length_append, List.length_singleton, List.append_assoc,
        List.singleton_append, Nat.add_assoc, Nat.add_comm 1] at hrun
      exact hrun.imp (fun h => ⟨⟨hfirst, h.1⟩, h.2⟩) fun h => ⟨Or.inr h.1, h.2⟩
    · refine ⟨[⟨c, some node, some node, false⟩], by simpa using hc, Or.inr ⟨Or.inl hfirst, ?_⟩⟩
      exact ⟨_, bind_error (Api.call_of_not_done _ hserve hfirst)⟩

omit [FloatOps F] in
theorem raisedUnwritten_of_reads {reads : List (Call F)} (hreads : ∀ c ∈ reads, c.isRead = true)
    (err : FirewallError F) (node : Node F) :
    RaisedUnwritten node ((firewallApi I outcome).follow (reads, .error err) ⟨some node, []⟩) := by
  obtain ⟨es, hes, ⟨-, hrun⟩ | ⟨-, err', hrun⟩⟩ := callAll_reads I outcome hreads node []
  · rw [Api.follow, bind_ok hrun]
    exact ⟨⟨err, rfl⟩, hes, rfl⟩
  · rw [Api.follow, bind_error hrun]
    exact ⟨⟨err', rfl⟩, hes, rfl⟩

/-- After reads alone the metadata calls write supplied metadata only. -/
theorem metadataOnly_of_calls {req : FirewallRequest F} {node : Node F}
    (h : Admitted lower req node) {log : List (Event (Option (Node F)) (Call F))}
    (hlog : ∀ e ∈ log, e.call.isRead = true) :
    MetadataOnly req node ((firewallApi I outcome).callAll
      (metadataCalls (req.engineRequest req.normalized) node) ⟨some node, log⟩) := by
  have hfilter : (log.map Event.call).filter (fun c => !c.isRead) = [] := by
    simpa [List.filter_eq_nil_iff] using hlog
  unfold metadataCalls
  split_ifs with hupdates
  · exact ⟨⟨[], Nat.zero_le 1, List.forall_mem_nil _, hfilter⟩, Or.inl rfl, node, rfl,
      .refl req node⟩
  have hwrites (e : Event (Option (Node F)) (Call F))
      (he : e.call = .updateNode ((req.engineRequest req.normalized).metadataPatch node)) :
      ∃ patches : List (Patch F), patches.length ≤ 1 ∧
        (∀ patch ∈ patches, ∀ op ∈ patch, op.1 ∈ suppliedPaths req) ∧
          ((log ++ [e]).map Event.call).filter (fun c => !c.isRead) = patches.map .updateNode := by
    refine ⟨[(req.engineRequest req.normalized).metadataPatch node], Nat.le_refl 1, ?_, ?_⟩
    · intro patch hpatch op hop
      obtain rfl := List.mem_singleton.mp hpatch
      exact path_of_metadataPatch h.specific.1 h.resourceClass hop
    · rw [List.map_append, List.filter_append, hfilter, List.map_singleton, he]
      rfl
  have hsame (s : Option (Node F))
      (hs : (firewallApi I outcome).serve
        (.updateNode ((req.engineRequest req.normalized).metadataPatch node)) (some node) =
          some s) :
      ∃ node', s = some node' ∧ SameBesides req node node' := by
    obtain ⟨node', hpatch, rfl⟩ := Option.map_eq_some_iff.mp hs
    exact ⟨node', rfl, sameBesides_patch h.specific.1 h.resourceClass hpatch⟩
  rw [Api.callAll_cons, Api.callAll_nil]
  obtain ⟨s, hs, hcall⟩ | ⟨s, hs, hcall⟩ := (firewallApi I outcome).call_cases
    (.updateNode ((req.engineRequest req.normalized).metadataPatch node)) ⟨some node, log⟩
  · rw [bind_ok hcall]
    exact ⟨hwrites _ rfl, Or.inl rfl, hsame s hs⟩
  · rw [bind_error hcall]
    refine ⟨hwrites _ rfl, Or.inr ⟨_, List.mem_append_right log (List.mem_singleton.mpr rfl), rfl,
      rfl⟩, ?_⟩
    obtain rfl | hs := hs
    · exact ⟨node, rfl, .refl req node⟩
    · exact hsame s hs

/-- A node in service is either not written to, or written the supplied metadata alone, which
happens exactly when it may be read and the request asks for nothing else to change. -/
theorem active_update_metadata_only (I : Ironic lower) (outcome : ℕ → Outcome)
    (req : FirewallRequest F) {node : Node F} (hactive : node.provisionState = active) :
    (RaisedUnwritten node (enrollFw (I.api outcome) lower req ⟨some node, []⟩) ∨
        MetadataOnly req node (enrollFw (I.api outcome) lower req ⟨some node, []⟩)) ∧
      (MetadataOnly req node (enrollFw (I.api outcome) lower req ⟨some node, []⟩) ↔
        (outcome 0 = .done ∧ outcome 1 = .done) ∧ Admitted lower req node) := by
  rw [enrollFw_eq I outcome req hactive]
  obtain ⟨hadmitted, hscript⟩ | ⟨hnot, reads, err, hreads, hscript⟩ :=
    activeScript_cases req node
  · have hreads : ∀ c ∈ ([.getNode req.name, .listPorts] : List (Call F)), c.isRead = true := by
      simp [Call.isRead]
    rw [hscript, Api.follow_ok, Api.callAll_append]
    obtain ⟨es, hes, ⟨hdone, hrun⟩ | ⟨hnot, err, hrun⟩⟩ := callAll_reads I outcome hreads node []
    · have hmetadata := metadataOnly_of_calls I outcome hadmitted hes
      rw [bind_ok hrun]
      exact ⟨Or.inr hmetadata, iff_of_true hmetadata
        ⟨⟨hdone 0 (by simp), hdone 1 (by simp)⟩, hadmitted⟩⟩
    · have hraised : RaisedUnwritten node
          ((.error err, ⟨some node, [] ++ es⟩) : Ended F) := ⟨⟨err, rfl⟩, hes, rfl⟩
      rw [bind_error hrun]
      refine ⟨Or.inl hraised, iff_of_false hraised.not_metadataOnly fun h => ?_⟩
      obtain ⟨i, hi, hfailed⟩ := hnot
      obtain rfl | rfl : i = 0 ∨ i = 1 := by
        simp only [List.length_cons, List.length_nil] at hi
        omega
      · exact hfailed h.1.1
      · exact hfailed h.1.2
  · have hraised := raisedUnwritten_of_reads I outcome hreads err node
    rw [hscript]
    exact ⟨Or.inl hraised, iff_of_false hraised.not_metadataOnly fun h => hnot h.2⟩

end

/-! A firewall in service with one port, whose MAC address is stored in upper case. -/

def toLower (s : Text) : Text := s.map Char.toLower

def servicePort : Port :=
  ⟨['p'], some "fw1:a".toList, "AA:01".toList, some "net".toList, some "network".toList,
    some [("switch_id".toList, placeholderSwitchId), ("switch_info".toList, ['s']),
      ("port_id".toList, ['i'])]⟩

def serviceNode (resourceClass : Text) : Node Text :=
  ⟨['u'], "netdev".toList, active, .str resourceClass, [], [], ⟨[servicePort], by simp⟩⟩

def serviceRequest (resourceClass : Text) : FirewallRequest Text :=
  ⟨"fw1".toList, "net".toList, [portEntry ['a'] "aa:01".toList], some resourceClass, .int 7,
    "192.0.2.1".toList, [], [], []⟩

theorem buildNetdevPorts_service (resourceClass : Text) :
    buildNetdevPorts toLower (serviceRequest resourceClass).ports =
      .ok [⟨['a'], "aa:01".toList, ['s'], ['i'], none⟩] := by
  rfl

theorem planAgainst_service (resourceClass : Text) :
    ∀ port ∈ [(⟨['a'], "aa:01".toList, ['s'], ['i'], none⟩ : NetdevPort)],
      planAgainst toLower (serviceRequest resourceClass).name
        (serviceRequest resourceClass).physicalNetwork (serviceNode resourceClass).ports.1 port =
          .ok none := by
  intro port hport
  obtain rfl := List.mem_singleton.mp hport
  rfl

theorem management_address_updated :
    MetadataOnly (serviceRequest " pair ".toList) (serviceNode "pair".toList)
      (enrollFw ((Ironic.prompt toLower).api fun _ => .done) toLower
        (serviceRequest " pair ".toList) ⟨some (serviceNode "pair".toList), []⟩) :=
  (active_update_metadata_only (Ironic.prompt toLower) (fun _ => .done) _ rfl).2.mpr
    ⟨⟨rfl, rfl⟩, by decide, rfl, rfl, _, buildNetdevPorts_service _, planAgainst_service _⟩

/-- The class that both have is the general one. -/
theorem generic_firewall_refused :
    ((serviceNode defaultResourceClass).provisionState = active ∧
      (serviceNode defaultResourceClass).driver = "netdev".toList ∧
      (serviceNode defaultResourceClass).resourceClass =
        .str (serviceRequest defaultResourceClass).normalized ∧
      ∃ ports, buildNetdevPorts toLower (serviceRequest defaultResourceClass).ports = .ok ports ∧
        ∀ port ∈ ports, planAgainst toLower (serviceRequest defaultResourceClass).name
          (serviceRequest defaultResourceClass).physicalNetwork
          (serviceNode defaultResourceClass).ports.1 port = .ok none) ∧
      RaisedUnwritten (serviceNode defaultResourceClass)
        (enrollFw ((Ironic.prompt toLower).api fun _ => .done) toLower
          (serviceRequest defaultResourceClass)
          ⟨some (serviceNode defaultResourceClass), []⟩) :=
  ⟨⟨rfl, rfl, rfl, _, buildNetdevPorts_service _, planAgainst_service _⟩,
    ⟨_, rfl⟩, List.forall_mem_nil _, rfl⟩

end Understack.Workflows.Firewall
