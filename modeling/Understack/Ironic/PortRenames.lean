import Understack.Ironic.BootablePorts

/-! Renaming the ports of a node one after the other, where Ironic does not save a port under the
name of another. -/
namespace Understack.Ironic.PortBiosName
open PyText KeyedTable Runs

variable {V : Type} [DecidableEq V] {upper : Char → Text} {node : Node} {nodeName : Text}
  {interfaces : List Interface} {port port' : Port V} {db db' : PortTable V}

/-- Names are unique over all ports. -/
def nameTaken (rows : List (Port V)) (port : Port V) : Bool :=
  port.name.isSome && rows.any fun r => r.id ≠ port.id && r.name = port.name

omit [DecidableEq V] in
theorem nameTaken_iff {rows : List (Port V)} : nameTaken rows port = true ↔
    ∃ name, port.name = some name ∧ ∃ r ∈ rows, r.id ≠ port.id ∧ r.name = some name := by
  rw [nameTaken, Bool.and_eq_true, List.any_eq_true, Option.isSome_iff_exists]
  constructor
  · rintro ⟨⟨name, hname⟩, r, hr, htaken⟩
    rw [Bool.and_eq_true, decide_eq_true_eq, decide_eq_true_eq] at htaken
    exact ⟨name, hname, r, hr, htaken.1, htaken.2.trans hname⟩
  · rintro ⟨name, hname, r, hr, hne, htaken⟩
    refine ⟨⟨name, hname⟩, r, hr, ?_⟩
    rw [Bool.and_eq_true, decide_eq_true_eq, decide_eq_true_eq]
    exact ⟨hne, htaken.trans hname.symm⟩

/-- The inventory has a name for the port. -/
def Renamed (upper : Char → Text) (interfaces : List Interface) (port : Port V) (name : Text) :
    Prop :=
  inventoryName upper interfaces port.address = some name ∧ name ≠ []

def Before (ports : List (Port V)) (q p : Port V) : Prop :=
  ∃ front back, ports = front ++ p :: back ∧ q ∈ front

/-- A port that has the name of another is renamed before it. -/
structure Disentangled (upper : Char → Text) (nodeName : Text) (interfaces : List Interface)
    (ports : List (Port V)) : Prop where
  unnamed : ∀ port ∈ ports, inventoryName upper interfaces port.address = some [] →
    port.name = some (requiredPortName nodeName [])
  renamed : ∀ port ∈ ports, ∀ name, Renamed upper interfaces port name → ∀ q ∈ ports, q ≠ port →
    q.name = some (requiredPortName nodeName name) →
      Before ports q port ∧ ∃ name', Renamed upper interfaces q name'

omit [DecidableEq V] in
theorem nameAfter_of_renamed {name : Text} (h : Renamed upper interfaces port name) :
    nameAfter (some nodeName) (biosName upper interfaces port) port.name =
      some (requiredPortName nodeName name) := by
  have hsome : (some name).filter (· ≠ []) = some name :=
    Option.filter_some_pos (decide_eq_true h.2)
  rw [biosName_eq, h.1]
  unfold nameAfter
  rw [hsome]

omit [DecidableEq V] in
theorem nameAfter_of_not_renamed (h : ∀ name, ¬Renamed upper interfaces port name) :
    nameAfter (some nodeName) (biosName upper interfaces port) port.name = port.name := by
  rw [biosName_eq]
  cases hname : inventoryName upper interfaces port.address with
  | none => rfl
  | some name =>
    by_cases hne : name = []
    · subst hne
      rfl
    · exact (h name ⟨hname, hne⟩).elim

theorem name_portAfter : (portAfter upper (some nodeName) interfaces port).name =
    nameAfter (some nodeName) (biosName upper interfaces port) port.name := rfl

theorem requiredPortName_inj {name name' : Text}
    (h : requiredPortName nodeName name = requiredPortName nodeName name') : name = name' :=
  List.append_cancel_left h

/-! The state of the names after some of the turns. -/

/-- The name of a port when those of the ids have had their turns. -/
def nameIn (upper : Char → Text) (nodeName : Text) (interfaces : List Interface) (ids : List ℕ)
    (port : Port V) : Option Text :=
  if port.id ∈ ids then nameAfter (some nodeName) (biosName upper interfaces port) port.name
  else port.name

theorem mem_rowsAfter {ids : List ℕ} {rows : List (Port V)} {r : Port V}
    (h : r ∈ rowsAfter upper (some nodeName) interfaces ids rows) :
    ∃ port ∈ rows, r.id = port.id ∧ r.name = nameIn upper nodeName interfaces ids port := by
  obtain ⟨port, hport, rfl⟩ := List.mem_map.mp h
  refine ⟨port, hport, ?_⟩
  unfold nameIn
  split_ifs
  · exact ⟨rfl, rfl⟩
  · exact ⟨rfl, rfl⟩

theorem acceptsName_rowsAfter {ids : List ℕ} {rows : List (Port V)} {name : Option Text}
    {id : ℕ} (h : ∀ r ∈ rows, r.id ≠ id → ∀ x, name = some x →
      nameIn upper nodeName interfaces ids r ≠ some x) :
    AcceptsName nameTaken (rowsAfter upper (some nodeName) interfaces ids rows) id name := by
  intro rows' port hrows hid hname
  by_contra htaken
  rw [Bool.not_eq_false] at htaken
  obtain ⟨x, hx, r, hr, hne, hrname⟩ := nameTaken_iff.mp htaken
  rw [hid] at hne
  obtain ⟨q, hq, hqid, hqname⟩ := mem_rowsAfter ((hrows r hne).mp hr)
  exact h q hq (hqid ▸ hne) x (hname.symm.trans hx) (hqname.symm.trans hrname)

/-- What is known of the names before the run: they are unique, the inventory tells the ports of
the node apart, and no other node has names of this one. -/
structure Distinguished (upper : Char → Text) (node : Node) (nodeName : Text)
    (interfaces : List Interface) (db : PortTable V) : Prop where
  ids : (db.rows.map Port.id).Nodup
  names : ∀ r ∈ db.rows, ∀ s ∈ db.rows, ∀ name, r.name = some name → s.name = some name → r = s
  interfaces : ∀ p ∈ ironicPortsForNode node.id db, ∀ q ∈ ironicPortsForNode node.id db, ∀ name,
    inventoryName upper interfaces p.address = some name →
      inventoryName upper interfaces q.address = some name → p = q
  foreign : ∀ r ∈ db.rows, r.nodeId ≠ node.id → ∀ name,
    r.name ≠ some (requiredPortName nodeName name)

omit [DecidableEq V] in
theorem mem_front_of_before {ports front back : List (Port V)} (hnodup : (ports.map Port.id).Nodup)
    (hsplit : ports = front ++ back) {p q : Port V} (h : Before ports q p) (hp : p ∈ front) :
    q ∈ front := by
  obtain ⟨front', back', hsplit', hq⟩ := h
  have hports : ports.Nodup := List.Nodup.of_map Port.id hnodup
  rcases List.append_eq_append_iff.mp (hsplit.symm.trans hsplit') with
    ⟨c, rfl, -⟩ | ⟨c, rfl, -⟩
  · -- then `p` would be in front of itself
    rw [hsplit'] at hports
    exact (List.disjoint_of_nodup_append hports (List.mem_append_left c hp)
      List.mem_cons_self).elim
  · exact List.mem_append_left c hq

theorem names_unique (h : Distinguished upper node nodeName interfaces db)
    (hdis : Disentangled upper nodeName interfaces (ironicPortsForNode node.id db))
    {front back : List (Port V)} (hsplit : ironicPortsForNode node.id db = front ++ back)
    {r s : Port V} (hr : r ∈ db.rows) (hs : s ∈ db.rows) {name : Text}
    (hrname : nameIn upper nodeName interfaces (front.map Port.id) r = some name)
    (hsname : nameIn upper nodeName interfaces (front.map Port.id) s = some name) : r = s := by
  have hnodup := (pending_ironicPortsForNode h.ids node.id).nodup
  have hfront {p : Port V} (hp : p ∈ db.rows) (hid : p.id ∈ front.map Port.id) :
      p ∈ front ∧ p ∈ ironicPortsForNode node.id db := by
    obtain ⟨q, hq, heq⟩ := List.mem_map.mp hid
    have hq' : q ∈ ironicPortsForNode node.id db := hsplit ▸ List.mem_append_left back hq
    rw [← unique_of_nodup h.ids q (List.mem_filter.mp hq').1 p hp heq]
    exact ⟨hq, hq'⟩
  -- the name of a port is its own, or the one that its turn has given it
  have hcases {p : Port V} (hp : p ∈ db.rows)
      (hname : nameIn upper nodeName interfaces (front.map Port.id) p = some name) :
      (p.name = some name ∧ ∀ x, Renamed upper interfaces p x → p ∉ front) ∨
        ∃ x, p ∈ front ∧ p ∈ ironicPortsForNode node.id db ∧ Renamed upper interfaces p x ∧
          name = requiredPortName nodeName x := by
    unfold nameIn at hname
    split_ifs at hname with hid
    · obtain ⟨hmem, hport⟩ := hfront hp hid
      by_cases hren : ∃ x, Renamed upper interfaces p x
      · obtain ⟨x, hx⟩ := hren
        rw [nameAfter_of_renamed hx, Option.some.injEq] at hname
        exact Or.inr ⟨x, hmem, hport, hx, hname.symm⟩
      · rw [nameAfter_of_not_renamed (not_exists.mp hren)] at hname
        exact Or.inl ⟨hname, fun x hx => (hren ⟨x, hx⟩).elim⟩
    · exact Or.inl ⟨hname, fun _ _ hmem => hid (List.mem_map_of_mem hmem)⟩
  -- a port that keeps its name does not stand in the way of one that has been renamed
  have hkept {p q : Port V} (hp : p ∈ db.rows) (hpname : p.name = some name)
      (hpfront : ∀ x, Renamed upper interfaces p x → p ∉ front) {x : Text} (hqfront : q ∈ front)
      (hq : q ∈ ironicPortsForNode node.id db) (hren : Renamed upper interfaces q x)
      (hname : name = requiredPortName nodeName x) : p = q := by
    by_contra hne
    have hnode : p.nodeId = node.id := by
      by_contra hforeign
      exact h.foreign p hp hforeign x (hname ▸ hpname)
    obtain ⟨hbefore, y, hy⟩ := hdis.renamed q hq x hren p
      (List.mem_filter.mpr ⟨hp, decide_eq_true hnode⟩) hne (hname ▸ hpname)
    exact hpfront y hy (mem_front_of_before hnodup hsplit hbefore hqfront)
  rcases hcases hr hrname with ⟨hrname, hrfront⟩ | ⟨x, hrfront, hrport, hrx, hrname⟩ <;>
    rcases hcases hs hsname with ⟨hsname, hsfront⟩ | ⟨y, hsfront, hsport, hsy, hsname⟩
  · exact h.names r hr s hs name hrname hsname
  · exact hkept hr hrname hrfront hsfront hsport hsy hsname
  · exact (hkept hs hsname hsfront hrfront hrport hrx hrname).symm
  · have hxy : x = y := requiredPortName_inj (hrname.symm.trans hsname)
    exact h.interfaces r hrport s hsport x hrx.1 (hxy ▸ hsy.1)

/-! A run that returns has found no name taken. -/

theorem updatePorts_split {front back : List (Port V)} {refuses : List (Port V) → Port V → Bool}
    {result : List (Port V) × PortTable V}
    (h : updatePorts upper refuses (some nodeName) interfaces (front ++ port :: back) db =
      .ok result) :
    ∃ mid, updatePorts upper refuses (some nodeName) interfaces front db = .ok mid ∧
      ∃ turn, updatePort upper refuses (some nodeName) interfaces port mid.2 = .ok turn := by
  induction front generalizing db result with
  | nil =>
    obtain ⟨turn, hturn, -⟩ := bind_eq_ok h
    exact ⟨([], db), rfl, turn, hturn⟩
  | cons q front ih =>
    obtain ⟨first, hfirst, h⟩ := bind_eq_ok h
    obtain ⟨rest, hrest, -⟩ := bind_eq_ok h
    obtain ⟨mid, hmid, hturn⟩ := ih hrest
    refine ⟨(first.1 :: mid.1, mid.2), ?_, hturn⟩
    unfold updatePorts
    simp only [bind, Except.bind, hfirst, hmid]
    rfl

theorem loop_of_hook {refuses : List (Port V) → Port V → Bool} (hinterfaces : interfaces ≠ [])
    (h : portBiosNameHook upper refuses node interfaces db = .ok db')
    (hports : ironicPortsForNode node.id db ≠ []) :
    ∃ result, updatePorts upper refuses node.name interfaces (ironicPortsForNode node.id db) db =
      .ok result := by
  unfold portBiosNameHook at h
  rw [if_neg hinterfaces] at h
  dsimp only at h
  rw [if_neg hports] at h
  obtain ⟨result, hloop, -⟩ := bind_eq_ok h
  exact ⟨result, hloop⟩

omit [DecidableEq V] in
theorem not_taken_of_saved {new : Port V} {result : Port V × PortTable V}
    (h : saved nameTaken new db = .ok result) : nameTaken db.rows new = false := by
  obtain ⟨mid, hsave, -⟩ := bind_eq_ok h
  unfold save at hsave
  split_ifs at hsave with htaken
  exact Bool.eq_false_iff.mpr htaken

theorem not_taken_of_updatePort {name : Text} (hlisted : Listed port db)
    (hren : Renamed upper interfaces port name)
    (hname : port.name ≠ some (requiredPortName nodeName name)) {result : Port V × PortTable V}
    (h : updatePort upper nameTaken (some nodeName) interfaces port db = .ok result) :
    ∀ r ∈ db.rows, r.id ≠ port.id → r.name ≠ some (requiredPortName nodeName name) := by
  obtain ⟨⟨port₁, db₁⟩, h₁, h⟩ := bind_eq_ok h
  obtain ⟨second, h₂, -⟩ := bind_eq_ok h
  have hwrites := writes_setPortExtra hlisted h₁
  obtain rfl := hwrites.port
  have hsome : (some name).filter (· ≠ []) = some name :=
    Option.filter_some_pos (decide_eq_true hren.2)
  unfold setPortName at h₂
  rw [biosName_eq, hren.1, hsome] at h₂
  dsimp only at h₂
  rw [if_pos (by exact hname)] at h₂
  have hfree := not_taken_of_saved h₂
  intro r hr hne htaken
  have hmem : r ∈ db₁.rows := by
    rw [show db₁.rows = _ from hwrites.rows, mem_replace]
    exact Or.inr ⟨hr, hne⟩
  exact Bool.eq_false_iff.mp hfree (nameTaken_iff.mpr ⟨_, rfl, r, hmem, hne, htaken⟩)

theorem disentangled_of_updatePorts (h : Distinguished upper node nodeName interfaces db)
    {result : List (Port V) × PortTable V}
    (hloop : updatePorts upper nameTaken (some nodeName) interfaces
      (ironicPortsForNode node.id db) db = .ok result)
    {q : Port V} (hport : port ∈ ironicPortsForNode node.id db)
    (hq : q ∈ ironicPortsForNode node.id db) (hne : q ≠ port) {name : Text}
    (hren : Renamed upper interfaces port name)
    (hqname : q.name = some (requiredPortName nodeName name)) :
    Before (ironicPortsForNode node.id db) q port ∧ ∃ name', Renamed upper interfaces q name' := by
  have hpending := pending_ironicPortsForNode h.ids node.id
  obtain ⟨front, back, hsplit⟩ := List.append_of_mem hport
  rw [hsplit] at hloop
  obtain ⟨⟨front', mid⟩, hfront, turn, hturn⟩ := updatePorts_split hloop
  have hmem {p : Port V} (hp : p ∈ front) : p ∈ ironicPortsForNode node.id db :=
    hsplit ▸ List.mem_append_left _ hp
  have hpendingFront : Pending front db :=
    ⟨fun p hp => hpending.mem p (hmem hp), hpending.nodup.sublist
      (hsplit ▸ (List.sublist_append_left front (port :: back)).map _), hpending.ids⟩
  obtain ⟨-, hrows⟩ := updatePorts_eq_ok hpendingFront hfront
  have hunique := unique_of_nodup h.ids
  -- the row of a port of the node at this turn
  have hrow {p : Port V} (hp : p ∈ ironicPortsForNode node.id db) :
      (if p.id ∈ front.map Port.id then portAfter upper (some nodeName) interfaces p else p) ∈
        mid.rows := by
    rw [hrows]
    exact List.mem_map_of_mem (hpending.mem p hp)
  have hid {p : Port V} (hp : p ∈ ironicPortsForNode node.id db)
      (hmem' : p.id ∈ front.map Port.id) : p ∈ front := by
    obtain ⟨p', hp', heq⟩ := List.mem_map.mp hmem'
    rw [← hunique p' (hpending.mem p' (hmem hp')) p (hpending.mem p hp) heq]
    exact hp'
  have hnot : port.id ∉ front.map Port.id := by
    intro hmem'
    have hnodup : (front ++ port :: back).Nodup :=
      hsplit ▸ List.Nodup.of_map Port.id hpending.nodup
    exact List.disjoint_of_nodup_append hnodup (hid hport hmem') List.mem_cons_self
  have hlisted : Listed port mid := by
    constructor
    · have hself := hrow hport
      rwa [if_neg hnot] at hself
    · rw [hrows]
      exact unique_rowsAfter hunique
  have hname : port.name ≠ some (requiredPortName nodeName name) := fun heq =>
    hne (h.names q (hpending.mem q hq) port (hpending.mem port hport) _ hqname heq)
  have hfree := not_taken_of_updatePort hlisted hren hname hturn
  have hidne : q.id ≠ port.id := fun heq =>
    hne (hunique q (hpending.mem q hq) port (hpending.mem port hport) heq)
  have hqrow := hrow hq
  by_cases hqfront : q.id ∈ front.map Port.id
  · rw [if_pos hqfront] at hqrow
    refine ⟨⟨front, back, hsplit, hid hq hqfront⟩, ?_⟩
    by_contra hkept
    refine hfree _ hqrow hidne ?_
    rw [name_portAfter, nameAfter_of_not_renamed (not_exists.mp hkept)]
    exact hqname
  · rw [if_neg hqfront] at hqrow
    exact (hfree q hqrow hidne hqname).elim

/-! The names after a run. -/

theorem name_of_mem_portsAfter {ports : List (Port V)}
    (h : port' ∈ portsAfter upper (some nodeName) interfaces ports) :
    ∃ port ∈ ports, port'.id = port.id ∧ port'.address = port.address ∧
      port'.name = nameAfter (some nodeName) (biosName upper interfaces port) port.name := by
  obtain ⟨port, hport, rfl | ⟨-, -, rfl⟩⟩ := mem_portsAfter h
  · exact ⟨port, hport, rfl, rfl, rfl⟩
  · exact ⟨port, hport, rfl, rfl, rfl⟩

/-- Every port of the inventory has its name. -/
def AllNamed (upper : Char → Text) (nodeName : Text) (interfaces : List Interface)
    (ports : List (Port V)) : Prop :=
  ∀ port ∈ ports, ∀ name, inventoryName upper interfaces port.address = some name →
    port.name = some (requiredPortName nodeName name)

theorem allNamed_portsAfter_iff {ports : List (Port V)} (hids : (ports.map Port.id).Nodup) :
    AllNamed upper nodeName interfaces (portsAfter upper (some nodeName) interfaces ports) ↔
      ∀ port ∈ ports, inventoryName upper interfaces port.address = some [] →
        port.name = some (requiredPortName nodeName []) := by
  have hunnamed (port : Port V) (h : inventoryName upper interfaces port.address = some []) :
      nameAfter (some nodeName) (biosName upper interfaces port) port.name = port.name := by
    refine nameAfter_of_not_renamed fun name hren => hren.2 ?_
    exact (Option.some.inj (h.symm.trans hren.1)).symm
  constructor
  · intro h port hport hempty
    have hmem : port.id ∈
        (portsAfter upper (some nodeName) interfaces ports).map Port.id := by
      rw [ids_portsAfter]
      exact List.mem_map_of_mem hport
    obtain ⟨port', hport', hid⟩ := List.mem_map.mp hmem
    obtain ⟨q, hq, hqid, haddress, hname⟩ := name_of_mem_portsAfter hport'
    obtain rfl := List.inj_on_of_nodup_map hids hq hport (hqid.symm.trans hid)
    rw [← hunnamed q hempty, ← hname]
    exact h port' hport' [] (haddress ▸ hempty)
  · intro h port' hport' name hname
    obtain ⟨q, hq, -, haddress, hafter⟩ := name_of_mem_portsAfter hport'
    rw [haddress] at hname
    rw [hafter]
    by_cases hempty : name = []
    · subst hempty
      rw [hunnamed q hname]
      exact h q hq hname
    · exact nameAfter_of_renamed ⟨hname, hempty⟩

/-! When a run completes. -/

theorem acceptsName_nameIn (h : Distinguished upper node nodeName interfaces db)
    (hdis : Disentangled upper nodeName interfaces (ironicPortsForNode node.id db))
    {front back : List (Port V)} (hsplit : ironicPortsForNode node.id db = front ++ back)
    (hport : port ∈ db.rows) {ids : List ℕ}
    (hids : ∀ id, id ≠ port.id → (id ∈ ids ↔ id ∈ front.map Port.id)) :
    AcceptsName nameTaken (rowsAfter upper (some nodeName) interfaces ids db.rows) port.id
      (nameIn upper nodeName interfaces (front.map Port.id) port) := by
  refine acceptsName_rowsAfter fun r hr hne name hname hrname => hne ?_
  have hsame : nameIn upper nodeName interfaces ids r =
      nameIn upper nodeName interfaces (front.map Port.id) r :=
    if_congr (hids r.id hne) rfl rfl
  rw [names_unique h hdis hsplit hr hport (hsame ▸ hrname) hname]

theorem updatePorts_completes (h : Distinguished upper node nodeName interfaces db)
    (hdis : Disentangled upper nodeName interfaces (ironicPortsForNode node.id db)) :
    ∃ result, updatePorts upper nameTaken (some nodeName) interfaces
      (ironicPortsForNode node.id db) db = .ok result := by
  have hpending := pending_ironicPortsForNode h.ids node.id
  refine updatePorts_returns hpending (fun _ _ => Or.inl rfl) fun before port after hsplit => ?_
  have hport : port ∈ db.rows :=
    hpending.mem port (hsplit ▸ List.mem_append_right before List.mem_cons_self)
  have hnot : port.id ∉ before.map Port.id := by
    have hnodup := hpending.nodup
    rw [hsplit, List.map_append, List.map_cons] at hnodup
    exact fun hmem => List.disjoint_of_nodup_append hnodup hmem List.mem_cons_self
  constructor
  · have hold := acceptsName_nameIn h hdis hsplit hport fun _ _ => Iff.rfl
    rwa [nameIn, if_neg hnot] at hold
  · have hsplit' : ironicPortsForNode node.id db = (before ++ [port]) ++ after := by
      rw [hsplit, List.append_assoc]
      rfl
    have hnew := @acceptsName_nameIn V _ upper node nodeName interfaces port db h hdis _ _ hsplit'
      hport (before.map Port.id) fun id hne => by simp [hne]
    rwa [nameIn, if_pos (by simp)] at hnew

/-- The hook renames the ports of a node, whose interfaces have different names, exactly when a
port that has the name of another is renamed before it. -/
theorem renaming_completes_iff (h : Distinguished upper node nodeName interfaces db)
    (hnode : node.name = some nodeName) :
    (∃ db', portBiosNameHook upper nameTaken node interfaces db = .ok db' ∧
      AllNamed upper nodeName interfaces (ironicPortsForNode node.id db')) ↔
      Disentangled upper nodeName interfaces (ironicPortsForNode node.id db) := by
  have hpending := pending_ironicPortsForNode h.ids node.id
  have hafter {db' : PortTable V} (hinterfaces : interfaces ≠ [])
      (hrun : portBiosNameHook upper nameTaken node interfaces db = .ok db') :
      AllNamed upper nodeName interfaces (ironicPortsForNode node.id db') ↔
        ∀ port ∈ ironicPortsForNode node.id db,
          inventoryName upper interfaces port.address = some [] →
            port.name = some (requiredPortName nodeName []) := by
    rw [(ports_of_hook h.ids hinterfaces hrun).1, hnode]
    exact allNamed_portsAfter_iff hpending.nodup
  by_cases hinterfaces : interfaces = []
  · -- nothing is renamed
    subst hinterfaces
    constructor
    · exact fun _ => ⟨fun _ _ hname => (by cases hname), fun _ _ _ hren => (by cases hren.1)⟩
    · exact fun _ => ⟨db, rfl, fun _ _ _ hname => (by cases hname)⟩
  constructor
  · rintro ⟨db', hrun, hall⟩
    refine ⟨(hafter hinterfaces hrun).mp hall, fun port hport name hren q hq hne hqname => ?_⟩
    obtain ⟨result, hloop⟩ := loop_of_hook hinterfaces hrun (List.ne_nil_of_mem hport)
    rw [hnode] at hloop
    exact disentangled_of_updatePorts h hloop hport hq hne hren hqname
  · intro hdis
    obtain ⟨⟨ports, mid⟩, hloop⟩ := updatePorts_completes h hdis
    obtain ⟨hports, hrows⟩ := updatePorts_eq_ok hpending hloop
    have hplaceholder : ∀ port ∈ ports, nameTaken mid.rows (setPortPxePlaceholder port) =
        false := by
      intro port' hport'
      rw [hports] at hport'
      obtain ⟨port, hport, rfl⟩ := List.mem_map.mp hport'
      have haccepts := acceptsName_nameIn h hdis (List.append_nil _).symm (hpending.mem port hport)
        fun _ _ => Iff.rfl
      rw [nameIn, if_pos (List.mem_map_of_mem hport)] at haccepts
      rw [hrows]
      exact haccepts _ _ (fun _ _ => Iff.rfl) rfl rfl
    obtain ⟨db', hrun⟩ := hook_returns_of_loop (hnode ▸ hloop) hplaceholder
    exact ⟨db', hrun, (hafter hinterfaces hrun).mpr hdis.unnamed⟩

/-! Two cards in two slots. -/

def slots : List Interface := [⟨"AA:01".toList, "A".toList⟩, ⟨"AA:02".toList, "B".toList⟩]

def slotNode : Node := ⟨1, some "n".toList⟩

def slotPort (id : ℕ) (address : String) (name : Text) : Port Unit where
  id := id
  nodeId := 1
  address := address.toList
  name := some name
  extra := []
  pxeEnabled := true
  physicalNetwork := some "dc1-network".toList
  localLinkConnection := []

def slotTable (first second : Text) : PortTable Unit :=
  ⟨[slotPort 1 "AA:01" first, slotPort 2 "AA:02" second], []⟩

theorem slot_of_mem {first second : Text} {r : Port Unit}
    (h : r ∈ (slotTable first second).rows) :
    r = slotPort 1 "AA:01" first ∨ r = slotPort 2 "AA:02" second := by
  simpa [slotTable] using h

theorem inventoryName_slots :
    inventoryName upperAscii slots "AA:01".toList = some "A".toList ∧
      inventoryName upperAscii slots "AA:02".toList = some "B".toList := by decide

theorem distinguished_slotTable {first second : Text} (h : first ≠ second) :
    Distinguished upperAscii slotNode "n".toList slots (slotTable first second) := by
  have hrows (r : Port Unit) (hr : r ∈ (slotTable first second).rows) := slot_of_mem hr
  have hslots : inventoryName upperAscii slots "AA:01".toList ≠
      inventoryName upperAscii slots "AA:02".toList := by decide
  constructor
  · show [1, 2].Nodup
    decide
  · intro r hr s hs name hrname hsname
    rcases hrows r hr with rfl | rfl <;> rcases hrows s hs with rfl | rfl
    · rfl
    · exact (h (Option.some.inj (hrname.trans hsname.symm))).elim
    · exact (h (Option.some.inj (hsname.trans hrname.symm))).elim
    · rfl
  · intro p hp q hq name hpname hqname
    have hname := hpname.trans hqname.symm
    rcases hrows p (List.mem_filter.mp hp).1 with rfl | rfl <;>
      rcases hrows q (List.mem_filter.mp hq).1 with rfl | rfl
    · rfl
    · exact (hslots hname).elim
    · exact (hslots hname.symm).elim
    · rfl
  · intro r hr hforeign
    rcases hrows r hr with rfl | rfl <;> exact (hforeign rfl).elim

/-- The first card comes from the second slot, the second from a slot that no card has now. -/
theorem disentangled_slotTable : Disentangled upperAscii "n".toList slots
    (ironicPortsForNode slotNode.id (slotTable "n:B".toList "n:C".toList)) := by
  obtain ⟨hfirst, hsecond⟩ := inventoryName_slots
  constructor
  · intro port hport hempty
    rcases slot_of_mem (List.mem_filter.mp hport).1 with rfl | rfl
    · cases hfirst.symm.trans hempty
    · cases hsecond.symm.trans hempty
  · intro port hport name hren q hq hne hqname
    rcases slot_of_mem (List.mem_filter.mp hport).1 with rfl | rfl <;>
      rcases slot_of_mem (List.mem_filter.mp hq).1 with rfl | rfl
    · exact (hne rfl).elim
    · obtain rfl := Option.some.inj (hfirst.symm.trans hren.1)
      exact absurd hqname (by decide)
    · exact ⟨⟨[_], [], rfl, List.mem_singleton_self _⟩, "A".toList, hfirst, by decide⟩
    · exact (hne rfl).elim

theorem renaming_completes_in_order :
    ∃ db', portBiosNameHook upperAscii nameTaken slotNode slots
        (slotTable "n:B".toList "n:C".toList) = .ok db' ∧
      AllNamed upperAscii "n".toList slots (ironicPortsForNode slotNode.id db') :=
  (renaming_completes_iff (distinguished_slotTable (by decide)) rfl).mpr disentangled_slotTable

/-- The cards have changed places. -/
theorem swapped_cards_collide :
    Distinguished upperAscii slotNode "n".toList slots (slotTable "n:B".toList "n:A".toList) ∧
      slotNode.name = some "n".toList ∧
      ¬∃ db', portBiosNameHook upperAscii nameTaken slotNode slots
          (slotTable "n:B".toList "n:A".toList) = .ok db' ∧
        AllNamed upperAscii "n".toList slots (ironicPortsForNode slotNode.id db') := by
  refine ⟨distinguished_slotTable (by decide), rfl, ?_⟩
  rintro ⟨db', hrun, -⟩
  have hraises : portBiosNameHook upperAscii nameTaken slotNode slots
      (slotTable "n:B".toList "n:A".toList) =
        .error (.duplicateName (some "n:A".toList)) := by decide
  rw [hraises] at hrun
  cases hrun

end Understack.Ironic.PortBiosName
