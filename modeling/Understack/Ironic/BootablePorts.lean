import Understack.Ironic.PortBiosName

/-! What the port hook leaves where Ironic saves its ports: a port to boot from, the BIOS names,
and nothing to do for a second run. -/
namespace Understack.Ironic.PortBiosName
open PyText KeyedTable Runs

variable {V : Type} [DecidableEq V] {upper : Char → Text}
  {refuses : List (Port V) → Port V → Bool} {node : Node} {nodeName required : Option Text}
  {interfaces : List Interface} {port port' : Port V} {ports : List (Port V)}
  {db db' : PortTable V}

/-! The ports of the node after a run. -/

omit [DecidableEq V] in
theorem unique_of_nodup {rows : List (Port V)} (h : (rows.map Port.id).Nodup) :
    Unique Port.id rows := fun _ hr _ hs => List.inj_on_of_nodup_map h hr hs

omit [DecidableEq V] in
theorem pending_ironicPortsForNode (hids : (db.rows.map Port.id).Nodup) (nodeId : ℕ) :
    Pending (ironicPortsForNode nodeId db) db :=
  ⟨fun _ h => (List.mem_filter.mp h).1, hids.sublist (List.filter_sublist.map _),
    unique_of_nodup hids⟩

omit [DecidableEq V] in
theorem mem_ids_iff (hids : (db.rows.map Port.id).Nodup) {nodeId : ℕ} (h : port ∈ db.rows) :
    port.id ∈ (ironicPortsForNode nodeId db).map Port.id ↔ port.nodeId = nodeId := by
  constructor
  · intro hid
    obtain ⟨q, hq, heq⟩ := List.mem_map.mp hid
    obtain ⟨hmem, hnode⟩ := List.mem_filter.mp hq
    rw [← unique_of_nodup hids q hmem port h heq]
    exact of_decide_eq_true hnode
  · intro hnode
    exact List.mem_map_of_mem (List.mem_filter.mpr ⟨h, decide_eq_true hnode⟩)

omit [DecidableEq V] in
theorem filter_map_of_nodeId {f : Port V → Port V} (hf : ∀ port, (f port).nodeId = port.nodeId)
    (nodeId : ℕ) (rows : List (Port V)) :
    (rows.map f).filter (fun port => port.nodeId = nodeId) =
      (rows.filter fun port => port.nodeId = nodeId).map f := by
  rw [List.filter_map]
  congr 1
  exact List.filter_congr fun r _ => by simp [hf]

/-- The loop updates the ports of the node. -/
theorem ports_of_updatePorts (hids : (db.rows.map Port.id).Nodup) {nodeId : ℕ}
    (hrows : db'.rows = rowsAfter upper nodeName interfaces
      ((ironicPortsForNode nodeId db).map Port.id) db.rows) :
    ironicPortsForNode nodeId db' =
        (ironicPortsForNode nodeId db).map (portAfter upper nodeName interfaces) ∧
      db'.rows.map Port.id = db.rows.map Port.id := by
  have hmap : db'.rows = db.rows.map fun r =>
      if r.nodeId = nodeId then portAfter upper nodeName interfaces r else r := by
    rw [hrows]
    exact List.map_congr_left fun r hr => if_congr (mem_ids_iff hids hr) rfl rfl
  constructor
  · rw [ironicPortsForNode, hmap, filter_map_of_nodeId (fun r => by split_ifs <;> rfl)]
    exact List.map_congr_left fun r hr =>
      if_pos (of_decide_eq_true (List.mem_filter.mp hr).2)
  · rw [hmap, List.map_map]
    refine List.map_congr_left fun r _ => ?_
    rw [Function.comp]
    split_ifs <;> rfl

/-- The ports after the loop and the choice of a port to boot from. -/
def portsAfter (upper : Char → Text) (nodeName : Option Text) (interfaces : List Interface)
    (ports : List (Port V)) : List (Port V) :=
  let ports := ports.map (portAfter upper nodeName interfaces)
  if ports.any Port.pxeEnabled then ports
  else match ports with
    | port :: rest => setPortPxePlaceholder port :: rest
    | [] => []

omit [DecidableEq V] in
theorem writes_ensurePxe {ports : List (Port V)} {port : Port V}
    (hids : (db.rows.map Port.id).Nodup) {nodeId : ℕ}
    (hports : ironicPortsForNode nodeId db = port :: ports) :
    ironicPortsForNode nodeId { db with
        rows := replace Port.id (setPortPxePlaceholder port) db.rows } =
      setPortPxePlaceholder port :: ports := by
  have hnode : ∀ r ∈ port :: ports, r.nodeId = nodeId ∧ r ∈ db.rows := by
    intro r hr
    rw [← hports] at hr
    obtain ⟨hmem, hdecide⟩ := List.mem_filter.mp hr
    exact ⟨of_decide_eq_true hdecide, hmem⟩
  have hsame : ∀ r ∈ db.rows, (if r.id = port.id then setPortPxePlaceholder port else r).nodeId =
      r.nodeId := by
    intro r hr
    split_ifs with hid
    · rw [unique_of_nodup hids r hr port (hnode port List.mem_cons_self).2 hid]
      rfl
    · rfl
  have hfilter : (replace Port.id (setPortPxePlaceholder port) db.rows).filter
      (fun r => r.nodeId = nodeId) =
        (port :: ports).map fun r => if r.id = port.id then setPortPxePlaceholder port else r := by
    rw [← hports, replace, List.filter_map, ironicPortsForNode]
    congr 1
    refine List.filter_congr fun r hr => ?_
    rw [Function.comp]
    exact decide_eq_decide.mpr (by rw [show (setPortPxePlaceholder port).id = port.id from rfl,
      hsame r hr])
  rw [ironicPortsForNode, hfilter, List.map_cons, if_pos rfl]
  congr 1
  refine (List.map_congr_left fun r hr => if_neg fun hid => ?_).trans (List.map_id ports)
  have hnodup := (pending_ironicPortsForNode hids nodeId).nodup
  rw [hports, List.map_cons] at hnodup
  exact (List.nodup_cons.mp hnodup).1 (List.mem_map.mpr ⟨r, hr, hid⟩)

theorem ports_of_hook (hids : (db.rows.map Port.id).Nodup) (hinterfaces : interfaces ≠ [])
    (h : portBiosNameHook upper refuses node interfaces db = .ok db') :
    ironicPortsForNode node.id db' =
        portsAfter upper node.name interfaces (ironicPortsForNode node.id db) ∧
      (db'.rows.map Port.id).Nodup := by
  unfold portBiosNameHook at h
  rw [if_neg hinterfaces] at h
  dsimp only at h
  split_ifs at h with hnone
  · cases h
    rw [hnone]
    exact ⟨rfl, hids⟩
  · obtain ⟨⟨ports, mid⟩, hloop, h⟩ := bind_eq_ok h
    obtain ⟨rfl, hrows⟩ := updatePorts_eq_ok (pending_ironicPortsForNode hids node.id) hloop
    obtain ⟨hports, hmid⟩ := ports_of_updatePorts hids hrows
    have hmidNodup : (mid.rows.map Port.id).Nodup := hmid ▸ hids
    unfold ensurePxe at h
    unfold portsAfter
    dsimp only at h ⊢
    split_ifs at h ⊢ with hany
    · cases h
      exact ⟨hports, hmidNodup⟩
    · rw [← hports] at h ⊢
      cases hlist : ironicPortsForNode node.id mid with
      | nil =>
        rw [hlist] at h
        cases h
        exact ⟨hlist, hmidNodup⟩
      | cons port rest =>
        rw [hlist] at h
        dsimp only at h ⊢
        unfold save at h
        split_ifs at h
        cases h
        refine ⟨writes_ensurePxe hmidNodup hlist, ?_⟩
        have hsame : (replace Port.id (setPortPxePlaceholder port) mid.rows).map Port.id =
            mid.rows.map Port.id := by
          rw [replace, List.map_map]
          refine List.map_congr_left fun r _ => ?_
          rw [Function.comp]
          split_ifs with hid
          · exact hid.symm
          · rfl
        rw [hsame]
        exact hmidNodup

/-! The BIOS names. -/

/-- The name of the last interface with the MAC address, whatever its case. -/
def inventoryName (upper : Char → Text) (interfaces : List Interface) (address : Text) :
    Option Text :=
  (interfaces.reverse.find? fun i =>
    upperCase upper i.macAddress = upperCase upper address).map Interface.name

omit [DecidableEq V] in
theorem biosName_eq (port : Port V) :
    biosName upper interfaces port = inventoryName upper interfaces port.address := by
  unfold biosName interfaceNames inventoryName
  rw [PyDict.lookup_foldl_put (fun i => upperCase upper i.macAddress) Interface.name]
  simp

theorem inventoryName_ne_nil (hnames : ∀ i ∈ interfaces, i.name ≠ []) {address name : Text}
    (h : inventoryName upper interfaces address = some name) : name ≠ [] := by
  obtain ⟨i, hi, rfl⟩ := Option.map_eq_some_iff.mp h
  exact hnames i (List.mem_reverse.mp (List.mem_of_find?_eq_some hi))

theorem filter_inventoryName (hnames : ∀ i ∈ interfaces, i.name ≠ []) (address : Text) :
    (inventoryName upper interfaces address).filter (· ≠ []) =
      inventoryName upper interfaces address := by
  cases h : inventoryName upper interfaces address with
  | none => rfl
  | some name => exact Option.filter_some_pos (decide_eq_true (inventoryName_ne_nil hnames h))

theorem lookup_extraAfter_of_ne {extra : Extra V} {key : Text} (hkey : key ≠ biosNameKey) :
    (extraAfter required extra).lookup key = extra.lookup key := by
  unfold extraAfter
  split_ifs
  · split
    · exact PyDict.lookup_put_of_ne _ _ hkey
    · rw [PyDict.lookup_filter_key extra (fun k => k ≠ biosNameKey) key,
        if_pos (by simpa using hkey)]
  · rfl

/-- The key is absent without a name, unless it was there with `null`. -/
theorem lookup_extraAfter_iff {extra : Extra V} (hrequired : required.filter (· ≠ []) = required) :
    (extraAfter required extra).lookup biosNameKey = required.map .str ↔
      (required = none → extra.lookup biosNameKey ≠ some .null) := by
  unfold extraAfter
  rw [hrequired]
  cases required with
  | none =>
    have hcurrent : currentBiosName extra = .null ↔
        extra.lookup biosNameKey = none ∨ extra.lookup biosNameKey = some .null := by
      unfold currentBiosName
      cases extra.lookup biosNameKey <;> simp
    split_ifs with hne
    · have hfilter : (extra.filter fun item => item.1 ≠ biosNameKey).lookup biosNameKey = none := by
        rw [PyDict.lookup_filter_key extra (fun k => k ≠ biosNameKey) biosNameKey]
        simp
      exact ⟨fun _ _ hnull => hne (hcurrent.mpr (Or.inr hnull)), fun _ => hfilter⟩
    · rw [not_not] at hne
      rcases hcurrent.mp hne with hnone | hnull
      · simp [hnone]
      · simp [hnull]
  | some name =>
    refine ⟨fun _ h => (Option.some_ne_none name h).elim, fun _ => ?_⟩
    split_ifs with hne
    · exact PyDict.lookup_put_self _ _ _
    · rw [not_not, currentBiosName, requiredValue] at hne
      cases hlookup : extra.lookup biosNameKey with
      | none =>
        rw [hlookup] at hne
        cases hne
      | some value =>
        rw [hlookup] at hne
        exact congrArg some hne

/-! A second run. -/

theorem currentBiosName_extraAfter {extra : Extra V}
    (hrequired : required.filter (· ≠ []) = required) :
    currentBiosName (extraAfter required extra) = requiredValue required := by
  by_cases hnull : required = none ∧ extra.lookup biosNameKey = some .null
  · obtain ⟨rfl, hnull⟩ := hnull
    have hcurrent : currentBiosName extra = requiredValue none := by
      rw [currentBiosName, hnull]
      rfl
    rw [extraAfter, if_neg (not_not.mpr hcurrent), hcurrent]
  · have hlookup := (lookup_extraAfter_iff hrequired).mpr fun h hn => hnull ⟨h, hn⟩
    rw [currentBiosName, hlookup]
    cases required <;> rfl

/-- A port that a turn does not change. -/
structure Settled (upper : Char → Text) (nodeName : Option Text) (interfaces : List Interface)
    (port : Port V) : Prop where
  extra : currentBiosName port.extra = requiredValue (biosName upper interfaces port)
  named : Named nodeName (biosName upper interfaces port)
  name : nameAfter nodeName (biosName upper interfaces port) port.name = port.name
  pxe : port.pxeEnabled = true → hasNetwork port = true

theorem updatePort_of_settled (h : Settled upper nodeName interfaces port) (db : PortTable V) :
    updatePort upper refuses nodeName interfaces port db = .ok (port, db) := by
  have hextra : setPortExtra refuses (biosName upper interfaces port) port db = .ok (port, db) := by
    rw [setPortExtra, if_neg (not_not.mpr h.extra)]
    rfl
  have hname : setPortName refuses nodeName (biosName upper interfaces port) port db =
      .ok (port, db) := by
    have hsame := h.name
    unfold nameAfter at hsame
    unfold setPortName
    split
    · rfl
    · next hsome =>
      rcases h.named with hnode | hnone
      · cases hnode
      · rw [hsome] at hnone
        cases hnone
    · next hsome =>
      rw [hsome] at hsame
      rw [if_neg (not_not.mpr hsame.symm)]
      rfl
  have hpxe : clearUnwantedPxe refuses port db = .ok (port, db) := by
    unfold clearUnwantedPxe
    split_ifs with hnetwork hnot
    · rfl
    · rfl
    · rw [Bool.not_eq_true', Bool.not_eq_false] at hnot
      exact (hnetwork (h.pxe hnot)).elim
  unfold updatePort
  simp only [bind, Except.bind, hextra, hname, hpxe]

theorem updatePorts_of_settled (h : ∀ port ∈ ports, Settled upper nodeName interfaces port)
    (db : PortTable V) :
    updatePorts upper refuses nodeName interfaces ports db = .ok (ports, db) := by
  induction ports with
  | nil => rfl
  | cons port ports ih =>
    obtain ⟨hport, hports⟩ := List.forall_mem_cons.mp h
    simp only [updatePorts, updatePort_of_settled hport, ih hports, bind, Except.bind]
    rfl

theorem hook_of_settled (h : ∀ port ∈ ironicPortsForNode node.id db,
      Settled upper node.name interfaces port)
    (hpxe : ∃ port ∈ ironicPortsForNode node.id db, port.pxeEnabled = true) :
    portBiosNameHook upper refuses node interfaces db = .ok db := by
  unfold portBiosNameHook
  split_ifs
  · rfl
  · dsimp only
    split_ifs
    · rfl
    · rw [updatePorts_of_settled h]
      simp only [bind, Except.bind, ensurePxe]
      rw [if_pos (List.any_eq_true.mpr hpxe)]
      rfl

/-! The result of a run. -/

theorem mem_portsAfter (h : port' ∈ portsAfter upper nodeName interfaces ports) :
    ∃ port ∈ ports, port' = portAfter upper nodeName interfaces port ∨
      (ports.head? = some port ∧
        (∀ q ∈ ports, (portAfter upper nodeName interfaces q).pxeEnabled = false) ∧
        port' = setPortPxePlaceholder (portAfter upper nodeName interfaces port)) := by
  unfold portsAfter at h
  dsimp only at h
  split_ifs at h with hany
  · obtain ⟨port, hport, rfl⟩ := List.mem_map.mp h
    exact ⟨port, hport, Or.inl rfl⟩
  · have hnone : ∀ q ∈ ports, (portAfter upper nodeName interfaces q).pxeEnabled = false := by
      intro q hq
      rw [Bool.not_eq_true, List.any_eq_false] at hany
      exact Bool.not_eq_true _ ▸ hany _ (List.mem_map_of_mem hq)
    cases ports with
    | nil => cases h
    | cons port rest =>
      rcases List.mem_cons.mp h with rfl | hrest
      · exact ⟨port, List.mem_cons_self, Or.inr ⟨rfl, hnone, rfl⟩⟩
      · obtain ⟨q, hq, rfl⟩ := List.mem_map.mp hrest
        exact ⟨q, List.mem_cons_of_mem port hq, Or.inl rfl⟩

theorem exists_pxe_portsAfter (hne : ports ≠ []) :
    ∃ port ∈ portsAfter upper nodeName interfaces ports, port.pxeEnabled = true := by
  unfold portsAfter
  dsimp only
  split_ifs with hany
  · exact List.any_eq_true.mp hany
  · cases ports with
    | nil => exact (hne rfl).elim
    | cons port rest => exact ⟨_, List.mem_cons_self, rfl⟩

theorem ids_portsAfter :
    (portsAfter upper nodeName interfaces ports).map Port.id = ports.map Port.id := by
  have hmap : (ports.map (portAfter upper nodeName interfaces)).map Port.id =
      ports.map Port.id := by
    rw [List.map_map]
    rfl
  unfold portsAfter
  dsimp only
  split_ifs
  · exact hmap
  · cases ports with
    | nil => rfl
    | cons port rest =>
      rw [← hmap]
      rfl

omit [DecidableEq V] in
theorem hasNetwork_iff : hasNetwork port = true ↔
    ∃ network, network ≠ [] ∧ port.physicalNetwork = some network := by
  rw [hasNetwork, Option.isSome_iff_exists]
  simp [Option.filter_eq_some_iff, and_comm]

theorem settled_portAfter (hnames : ∀ i ∈ interfaces, i.name ≠ [])
    (hnamed : Named nodeName (biosName upper interfaces port)) :
    Settled upper nodeName interfaces (portAfter upper nodeName interfaces port) := by
  have hsame : biosName upper interfaces (portAfter upper nodeName interfaces port) =
      biosName upper interfaces port := rfl
  constructor
  · rw [hsame]
    apply currentBiosName_extraAfter
    rw [biosName_eq]
    exact filter_inventoryName hnames port.address
  · exact hnamed
  · rw [hsame]
    show nameAfter nodeName _ (nameAfter nodeName _ port.name) = nameAfter nodeName _ port.name
    unfold nameAfter
    split <;> simp_all
  · intro hpxe
    exact (Bool.and_eq_true _ _ ▸ hpxe).2

omit [DecidableEq V] in
theorem Settled.placeholder (h : Settled upper nodeName interfaces port) :
    Settled upper nodeName interfaces (setPortPxePlaceholder port) :=
  ⟨h.extra, h.named, h.name, fun _ => rfl⟩

/-! When a run returns. -/

omit [DecidableEq V] in
theorem named_of_setPortName {result : Port V × PortTable V}
    (h : setPortName refuses nodeName required port db = .ok result) : Named nodeName required := by
  unfold setPortName at h
  split at h
  · next hnone => exact Or.inr hnone
  · cases h
  · exact Or.inl rfl

theorem named_of_updatePorts {result : List (Port V) × PortTable V}
    (h : updatePorts upper refuses nodeName interfaces ports db = .ok result) :
    ∀ port ∈ ports, Named nodeName (biosName upper interfaces port) := by
  induction ports generalizing db result with
  | nil => exact List.forall_mem_nil _
  | cons port ports ih =>
    obtain ⟨mid, hport, h⟩ := bind_eq_ok h
    obtain ⟨rest, hrest, -⟩ := bind_eq_ok h
    obtain ⟨first, -, hport⟩ := bind_eq_ok hport
    obtain ⟨second, hname, -⟩ := bind_eq_ok hport
    exact List.forall_mem_cons.mpr ⟨named_of_setPortName hname, ih hrest⟩

theorem named_of_hook (hinterfaces : interfaces ≠ [])
    (h : portBiosNameHook upper refuses node interfaces db = .ok db') :
    ∀ port ∈ ironicPortsForNode node.id db, Named node.name (biosName upper interfaces port) := by
  unfold portBiosNameHook at h
  rw [if_neg hinterfaces] at h
  dsimp only at h
  split_ifs at h with hnone
  · rw [hnone]
    exact List.forall_mem_nil _
  · obtain ⟨result, hloop, -⟩ := bind_eq_ok h
    exact named_of_updatePorts hloop

omit [DecidableEq V] in
theorem ensurePxe_returns
    (h : ∀ port ∈ ports, refuses db.rows (setPortPxePlaceholder port) = false) :
    ∃ db', ensurePxe refuses ports db = .ok db' := by
  unfold ensurePxe
  split_ifs
  · exact ⟨db, rfl⟩
  · cases ports with
    | nil => exact ⟨db, rfl⟩
    | cons port rest =>
      dsimp only
      rw [save, h port List.mem_cons_self]
      exact ⟨_, rfl⟩

theorem hook_returns_of_loop {result : List (Port V) × PortTable V}
    (hloop : updatePorts upper refuses node.name interfaces (ironicPortsForNode node.id db) db =
      .ok result)
    (hplaceholder : ∀ port ∈ result.1,
      refuses result.2.rows (setPortPxePlaceholder port) = false) :
    ∃ db', portBiosNameHook upper refuses node interfaces db = .ok db' := by
  unfold portBiosNameHook
  split_ifs
  · exact ⟨db, rfl⟩
  · dsimp only
    split_ifs
    · exact ⟨db, rfl⟩
    · rw [hloop]
      exact ensurePxe_returns hplaceholder

theorem hook_returns (hrefuses : ∀ rows port, refuses rows port = false)
    (hids : (db.rows.map Port.id).Nodup)
    (hnamed : ∀ port ∈ ironicPortsForNode node.id db,
      Named node.name (biosName upper interfaces port)) :
    ∃ db', portBiosNameHook upper refuses node interfaces db = .ok db' := by
  have haccepts (rows : List (Port V)) (id : ℕ) (name : Option Text) :
      AcceptsName refuses rows id name := fun rows' port _ _ _ => hrefuses rows' port
  obtain ⟨result, hloop⟩ := updatePorts_returns (pending_ironicPortsForNode hids node.id)
    hnamed fun _ _ _ _ => ⟨haccepts _ _ _, haccepts _ _ _⟩
  exact hook_returns_of_loop hloop fun _ _ => hrefuses _ _

omit [DecidableEq V] in
theorem named_iff (hnames : ∀ i ∈ interfaces, i.name ≠ []) :
    Named nodeName (biosName upper interfaces port) ↔
      (nodeName = none → inventoryName upper interfaces port.address = none) := by
  rw [Named, biosName_eq, filter_inventoryName hnames]
  cases nodeName <;> simp

/-- What the hook is to leave of the ports of a node. -/
structure Bootable (upper : Char → Text) (interfaces : List Interface)
    (ports ports' : List (Port V)) : Prop where
  ids : ports'.map Port.id = ports.map Port.id
  pxe : ∃ port ∈ ports', port.pxeEnabled = true
  network : ∀ port ∈ ports', port.pxeEnabled = true →
    ∃ network, network ≠ [] ∧ port.physicalNetwork = some network
  kept : ∀ port ∈ ports, ∀ port' ∈ ports', port'.id = port.id → port.pxeEnabled = true →
    (∃ network, network ≠ [] ∧ port.physicalNetwork = some network) →
      port'.pxeEnabled = true ∧ port'.physicalNetwork = port.physicalNetwork
  placeholder : ∃ id, ∀ port ∈ ports, ∀ port' ∈ ports', port'.id = port.id → port.id ≠ id →
    port'.physicalNetwork = port.physicalNetwork ∧
      port'.localLinkConnection = port.localLinkConnection ∧
      (port'.pxeEnabled = true → port.pxeEnabled = true)
  biosName : ∀ port ∈ ports, ∀ port' ∈ ports', port'.id = port.id →
    port'.extra.lookup biosNameKey = (inventoryName upper interfaces port.address).map .str
  otherExtra : ∀ port ∈ ports, ∀ port' ∈ ports', port'.id = port.id → ∀ key, key ≠ biosNameKey →
    port'.extra.lookup key = port.extra.lookup key

/-- The loop and the placeholder leave all of it but the BIOS names of ports that have `null`
there. -/
theorem bootable_portsAfter_iff (hids : (ports.map Port.id).Nodup) (hne : ports ≠ [])
    (hnames : ∀ i ∈ interfaces, i.name ≠ []) :
    Bootable upper interfaces ports (portsAfter upper nodeName interfaces ports) ↔
      ∀ port ∈ ports, inventoryName upper interfaces port.address = none →
        port.extra.lookup biosNameKey ≠ some .null := by
  have hsame {p q : Port V} (hp : p ∈ ports) (hq : q ∈ ports) (hid : p.id = q.id) : p = q :=
    List.inj_on_of_nodup_map hids hp hq hid
  have hextra {port port' : Port V} (hport : port ∈ ports)
      (hport' : port' ∈ portsAfter upper nodeName interfaces ports) (hid : port'.id = port.id) :
      port'.extra = extraAfter (inventoryName upper interfaces port.address) port.extra := by
    rw [← biosName_eq]
    obtain ⟨q, hq, rfl | ⟨-, -, rfl⟩⟩ := mem_portsAfter hport'
    · rw [hsame hport hq hid.symm]
      rfl
    · rw [hsame hport hq hid.symm]
      rfl
  have hlookup {port port' : Port V} (hport : port ∈ ports)
      (hport' : port' ∈ portsAfter upper nodeName interfaces ports) (hid : port'.id = port.id) :
      port'.extra.lookup biosNameKey = (inventoryName upper interfaces port.address).map .str ↔
        (inventoryName upper interfaces port.address = none →
          port.extra.lookup biosNameKey ≠ some .null) := by
    rw [hextra hport hport' hid]
    exact lookup_extraAfter_iff (filter_inventoryName hnames port.address)
  constructor
  · intro h port hport
    have hmem : port.id ∈ (portsAfter upper nodeName interfaces ports).map Port.id := by
      rw [ids_portsAfter]
      exact List.mem_map_of_mem hport
    obtain ⟨port', hport', hid⟩ := List.mem_map.mp hmem
    exact (hlookup hport hport' hid).mp (h.biosName port hport port' hport' hid)
  · intro hnull
    refine ⟨ids_portsAfter, exists_pxe_portsAfter hne, ?_, ?_, ?_, ?_, ?_⟩
    · intro port' hport' hpxe
      obtain ⟨q, hq, rfl | ⟨-, -, rfl⟩⟩ := mem_portsAfter hport'
      · exact hasNetwork_iff.mp (Bool.and_eq_true _ _ ▸ hpxe).2
      · exact ⟨_, by decide, rfl⟩
    · intro port hport port' hport' hid hpxe hnetwork
      have hafter : (portAfter upper nodeName interfaces port).pxeEnabled = true := by
        show (port.pxeEnabled && hasNetwork port) = true
        rw [hpxe, hasNetwork_iff.mpr hnetwork]
        rfl
      obtain ⟨q, hq, rfl | ⟨-, hnone, rfl⟩⟩ := mem_portsAfter hport'
      · rw [← hsame hport hq hid.symm]
        exact ⟨hafter, rfl⟩
      · rw [hnone port hport] at hafter
        cases hafter
    · obtain ⟨first, hfirst⟩ : ∃ first, ports.head? = some first := by
        cases ports with
        | nil => exact (hne rfl).elim
        | cons port rest => exact ⟨port, rfl⟩
      refine ⟨first.id, fun port hport port' hport' hid hother => ?_⟩
      obtain ⟨q, hq, rfl | ⟨hhead, -, rfl⟩⟩ := mem_portsAfter hport'
      · obtain rfl := hsame hport hq hid.symm
        exact ⟨rfl, rfl, fun hpxe => (Bool.and_eq_true _ _ ▸ hpxe).1⟩
      · rw [hfirst] at hhead
        cases hhead
        exact (hother hid.symm).elim
    · exact fun port hport port' hport' hid =>
        (hlookup hport hport' hid).mpr (hnull port hport)
    · intro port hport port' hport' hid key hkey
      rw [hextra hport hport' hid, lookup_extraAfter_of_ne hkey]

theorem settled_portsAfter (hnames : ∀ i ∈ interfaces, i.name ≠ [])
    (hnamed : ∀ port ∈ ports, Named nodeName (biosName upper interfaces port)) :
    ∀ port ∈ portsAfter upper nodeName interfaces ports,
      Settled upper nodeName interfaces port := by
  intro port' hport'
  obtain ⟨port, hport, rfl | ⟨-, -, rfl⟩⟩ := mem_portsAfter hport'
  · exact settled_portAfter hnames (hnamed port hport)
  · exact (settled_portAfter hnames (hnamed port hport)).placeholder

/-- Where Ironic saves the ports, a run on a node with ports and interfaces leaves them bootable
and a second run saves nothing, exactly when the node has a name where one is needed and no port
that is not in the inventory has the BIOS name `null`. -/
theorem ports_bootable_iff (hrefuses : ∀ rows port, refuses rows port = false)
    (hids : (db.rows.map Port.id).Nodup) (hports : ironicPortsForNode node.id db ≠ [])
    (hinterfaces : interfaces ≠ []) (hnames : ∀ i ∈ interfaces, i.name ≠ []) :
    (∃ db', portBiosNameHook upper refuses node interfaces db = .ok db' ∧
      Bootable upper interfaces (ironicPortsForNode node.id db)
        (ironicPortsForNode node.id db') ∧
      portBiosNameHook upper refuses node interfaces db' = .ok db') ↔
    ∀ port ∈ ironicPortsForNode node.id db, inventoryName upper interfaces port.address = none ∧
        port.extra.lookup biosNameKey ≠ some .null ∨
      inventoryName upper interfaces port.address ≠ none ∧ node.name ≠ none := by
  have hnodup := (pending_ironicPortsForNode hids node.id).nodup
  constructor
  · rintro ⟨db', hrun, hbootable, -⟩ port hport
    rw [(ports_of_hook hids hinterfaces hrun).1, bootable_portsAfter_iff hnodup hports hnames]
      at hbootable
    have hnamed := (named_iff hnames).mp (named_of_hook hinterfaces hrun port hport)
    by_cases hnone : inventoryName upper interfaces port.address = none
    · exact Or.inl ⟨hnone, hbootable port hport hnone⟩
    · exact Or.inr ⟨hnone, fun hname => hnone (hnamed hname)⟩
  · intro h
    have hnamed : ∀ port ∈ ironicPortsForNode node.id db,
        Named node.name (biosName upper interfaces port) := by
      intro port hport
      refine (named_iff hnames).mpr fun hname => ?_
      rcases h port hport with ⟨hnone, -⟩ | ⟨-, hsome⟩
      · exact hnone
      · exact (hsome hname).elim
    obtain ⟨db', hrun⟩ := hook_returns hrefuses hids hnamed
    obtain ⟨hafter, -⟩ := ports_of_hook hids hinterfaces hrun
    refine ⟨db', hrun, ?_, ?_⟩
    · rw [hafter, bootable_portsAfter_iff hnodup hports hnames]
      intro port hport hnone
      rcases h port hport with ⟨-, hnull⟩ | ⟨hsome, -⟩
      · exact hnull
      · exact (hsome hnone).elim
    · apply hook_of_settled
      · rw [hafter]
        exact settled_portsAfter hnames hnamed
      · rw [hafter]
        exact exists_pxe_portsAfter hports

/-! Two ports, of which one is in the inventory. -/

def accepting : List (Port Unit) → Port Unit → Bool := fun _ _ => false

def upperAscii (c : Char) : Text := [c.toUpper]

def sampleInterfaces : List Interface := [⟨"aa:01".toList, "NIC.Slot.1-1".toList⟩]

def samplePort (id : ℕ) (address : String) : Port Unit where
  id := id
  nodeId := 1
  address := address.toList
  name := none
  extra := [("bios_name".toList, .str "old".toList)]
  pxeEnabled := true
  physicalNetwork := none
  localLinkConnection := []

def sampleTable : PortTable Unit := ⟨[samplePort 1 "AA:01", samplePort 2 "AA:02"], []⟩

theorem ports_bootable_sample :
    ∃ db', portBiosNameHook upperAscii accepting ⟨1, some "Dell-CR1MB0".toList⟩ sampleInterfaces
        sampleTable = .ok db' ∧
      Bootable upperAscii sampleInterfaces (ironicPortsForNode 1 sampleTable)
        (ironicPortsForNode 1 db') ∧
      portBiosNameHook upperAscii accepting ⟨1, some "Dell-CR1MB0".toList⟩ sampleInterfaces db' =
        .ok db' :=
  (ports_bootable_iff (fun _ _ => rfl) (by decide) (by decide) (by decide) (by decide)).mpr
    (by decide)

/-- A node without a name cannot name its ports. -/
theorem nameless_node_raises :
    ironicPortsForNode 1 sampleTable ≠ [] ∧ sampleInterfaces ≠ [] ∧
      (∀ i ∈ sampleInterfaces, i.name ≠ []) ∧
      ¬∃ db', portBiosNameHook upperAscii accepting ⟨1, none⟩ sampleInterfaces sampleTable =
          .ok db' ∧
        Bootable upperAscii sampleInterfaces (ironicPortsForNode 1 sampleTable)
          (ironicPortsForNode 1 db') ∧
        portBiosNameHook upperAscii accepting ⟨1, none⟩ sampleInterfaces db' = .ok db' := by
  refine ⟨by decide, by decide, by decide, ?_⟩
  rintro ⟨db', hrun, -⟩
  have hraises : portBiosNameHook upperAscii accepting ⟨1, none⟩ sampleInterfaces sampleTable =
      .error .typeError := by decide
  rw [hraises] at hrun
  cases hrun

end Understack.Ironic.PortBiosName
