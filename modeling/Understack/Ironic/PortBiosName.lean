import Understack.Lib.Json
import Understack.Lib.KeyedTable
import Understack.Lib.Runs

/-! The inspection hook of `port_bios_name_hook.py`, over the ports of all nodes in Ironic. -/
namespace Understack.Ironic.PortBiosName
open PyText KeyedTable Runs

/-- A value of `extra`; `V` is for the JSON values that are neither `null` nor a string. -/
inductive ExtraValue (V : Type) where
  | null
  | str (s : Text)
  | other (v : V)
  deriving DecidableEq, Repr

abbrev Extra (V : Type) := List (Text × ExtraValue V)

abbrev Link := List (Text × Text)

structure Port (V : Type) where
  id : ℕ
  nodeId : ℕ
  address : Text
  name : Option Text
  extra : Extra V
  pxeEnabled : Bool
  physicalNetwork : Option Text
  localLinkConnection : Link
  deriving DecidableEq, Repr

structure Node where
  id : ℕ
  name : Option Text
  deriving DecidableEq, Repr

structure Interface where
  macAddress : Text
  name : Text
  deriving DecidableEq, Repr

/-- The ports in the order in which they are listed, and the ports as they were saved. -/
structure PortTable (V : Type) where
  rows : List (Port V)
  saves : List (Port V)
  deriving DecidableEq, Repr

inductive HookError where
  /-- `save` of a port whose name another port has. -/
  | duplicateName (name : Option Text)
  /-- `None + ":"`. -/
  | typeError
  deriving DecidableEq, Repr

variable {V : Type} {refuses : List (Port V) → Port V → Bool} {port port' : Port V}
  {db db' : PortTable V}

/-- `port.save()`; `refuses` says which ports Ironic does not save. -/
def save (refuses : List (Port V) → Port V → Bool) (port : Port V) (db : PortTable V) :
    Except HookError (PortTable V) :=
  if refuses db.rows port then .error (.duplicateName port.name)
  else .ok { rows := replace Port.id port db.rows, saves := db.saves ++ [port] }

/-- The attributes are set and the port is saved. -/
def saved (refuses : List (Port V) → Port V → Bool) (port : Port V) (db : PortTable V) :
    Except HookError (Port V × PortTable V) := do
  let db ← save refuses port db
  return (port, db)

def ironicPortsForNode (nodeId : ℕ) (db : PortTable V) : List (Port V) :=
  db.rows.filter fun port => port.nodeId = nodeId

/-! The table around a save. -/

theorem replace_of_mem {rows : List (Port V)} (hids : Unique Port.id rows) (h : port ∈ rows) :
    replace Port.id port rows = rows := by
  refine (List.map_congr_left fun r hr => ?_).trans (List.map_id rows)
  split_ifs with hid
  · exact (hids r hr port h hid).symm
  · rfl

theorem replace_replace {rows : List (Port V)} (h : port'.id = port.id) :
    replace Port.id port' (replace Port.id port rows) = replace Port.id port' rows := by
  rw [replace, replace, replace, List.map_map]
  refine List.map_congr_left fun r _ => ?_
  by_cases hr : r.id = port.id
  · simp [hr, h]
  · simp [hr, h]

/-- The port is in Ironic as the hook holds it. -/
structure Listed (port : Port V) (db : PortTable V) : Prop where
  mem : port ∈ db.rows
  ids : Unique Port.id db.rows

/-- A step that saves the new port, or keeps a port that is the new one. -/
structure Writes (new : Port V) (db : PortTable V) (result : Port V × PortTable V) : Prop where
  port : result.1 = new
  rows : result.2.rows = replace Port.id new db.rows

theorem Writes.listed {new : Port V} {result : Port V × PortTable V} (h : Writes new db result)
    (hlisted : Listed port db) (hid : new.id = port.id) : Listed new result.2 := by
  constructor
  · rw [h.rows, mem_replace]
    exact Or.inl ⟨rfl, port, hlisted.mem, hid.symm⟩
  · rw [h.rows]
    exact hlisted.ids.replace fun r _ hne => hne

theorem Writes.trans {new new' : Port V} {result result' : Port V × PortTable V}
    (h : Writes new db result) (h' : Writes new' result.2 result') (hid : new'.id = new.id) :
    Writes new' db result' := by
  refine ⟨h'.port, ?_⟩
  rw [h'.rows, h.rows, replace_replace hid]

theorem writes_saved {new : Port V} {result : Port V × PortTable V}
    (h : saved refuses new db = .ok result) : Writes new db result := by
  obtain ⟨db', hsave, h⟩ := bind_eq_ok h
  cases h
  unfold save at hsave
  split_ifs at hsave
  cases hsave
  exact ⟨rfl, rfl⟩

theorem writes_same (h : Listed port db) : Writes port db (port, db) :=
  ⟨rfl, (replace_of_mem h.ids h.mem).symm⟩

/-! The hook. -/

variable [DecidableEq V]

def biosNameKey : Text := "bios_name".toList

/-- `extra.get("bios_name")`. -/
def currentBiosName (extra : Extra V) : ExtraValue V := (extra.lookup biosNameKey).getD .null

def requiredValue : Option Text → ExtraValue V
  | some name => .str name
  | none => .null

def setPortExtra (refuses : List (Port V) → Port V → Bool) (requiredBiosName : Option Text)
    (port : Port V) (db : PortTable V) : Except HookError (Port V × PortTable V) :=
  if currentBiosName port.extra ≠ requiredValue requiredBiosName then
    let extra := match requiredBiosName.filter (· ≠ []) with
      | some name => PyDict.put biosNameKey (.str name) port.extra
      | none => port.extra.filter fun item => item.1 ≠ biosNameKey
    saved refuses { port with extra } db
  else return (port, db)

def requiredPortName (nodeName biosName : Text) : Text := nodeName ++ ":".toList ++ biosName

def setPortName (refuses : List (Port V) → Port V → Bool) (nodeName requiredBiosName : Option Text)
    (port : Port V) (db : PortTable V) : Except HookError (Port V × PortTable V) :=
  match requiredBiosName.filter (· ≠ []), nodeName with
  | none, _ => return (port, db)
  | some _, none => throw .typeError
  | some biosName, some nodeName =>
    if port.name ≠ some (requiredPortName nodeName biosName) then
      saved refuses { port with name := some (requiredPortName nodeName biosName) } db
    else return (port, db)

def clearUnwantedPxe (refuses : List (Port V) → Port V → Bool) (port : Port V) (db : PortTable V) :
    Except HookError (Port V × PortTable V) :=
  if (port.physicalNetwork.filter (· ≠ [])).isSome then return (port, db)
  else if !port.pxeEnabled then return (port, db)
  else saved refuses { port with pxeEnabled := false } db

def setPortPxePlaceholder (port : Port V) : Port V :=
  { port with
    pxeEnabled := true
    physicalNetwork := some "enrol".toList
    localLinkConnection := [("port_id".toList, "None".toList),
      ("switch_id".toList, "00:00:00:00:00:00".toList), ("switch_info".toList, "None".toList)] }

/-- `str.upper`, character by character. -/
def upperCase (upper : Char → Text) (s : Text) : Text := s.flatMap upper

/-- `interface_names`, by MAC address in upper case. -/
def interfaceNames (upper : Char → Text) (interfaces : List Interface) : List (Text × Text) :=
  interfaces.foldl (fun d i => PyDict.put (upperCase upper i.macAddress) i.name d) []

/-- `interface_names.get(mac)`. -/
def biosName (upper : Char → Text) (interfaces : List Interface) (port : Port V) : Option Text :=
  (interfaceNames upper interfaces).lookup (upperCase upper port.address)

/-- The turn of one port. -/
def updatePort (upper : Char → Text) (refuses : List (Port V) → Port V → Bool)
    (nodeName : Option Text) (interfaces : List Interface) (port : Port V) (db : PortTable V) :
    Except HookError (Port V × PortTable V) := do
  let required := biosName upper interfaces port
  let (port, db) ← setPortExtra refuses required port db
  let (port, db) ← setPortName refuses nodeName required port db
  clearUnwantedPxe refuses port db

def updatePorts (upper : Char → Text) (refuses : List (Port V) → Port V → Bool)
    (nodeName : Option Text) (interfaces : List Interface) :
    List (Port V) → PortTable V → Except HookError (List (Port V) × PortTable V)
  | [], db => return ([], db)
  | port :: ports, db => do
    let (port, db) ← updatePort upper refuses nodeName interfaces port db
    let (ports, db) ← updatePorts upper refuses nodeName interfaces ports db
    return (port :: ports, db)

/-- The end of the hook, with the ports as the loop leaves them. -/
def ensurePxe (refuses : List (Port V) → Port V → Bool) (ports : List (Port V)) (db : PortTable V) :
    Except HookError (PortTable V) :=
  if ports.any Port.pxeEnabled then return db
  else match ports with
    | port :: _ => save refuses (setPortPxePlaceholder port) db
    | [] => return db

def portBiosNameHook (upper : Char → Text) (refuses : List (Port V) → Port V → Bool)
    (node : Node) (interfaces : List Interface) (db : PortTable V) :
    Except HookError (PortTable V) :=
  if interfaces = [] then return db
  else do
    let ports := ironicPortsForNode node.id db
    if ports = [] then return db
    let (ports, db) ← updatePorts upper refuses node.name interfaces ports db
    ensurePxe refuses ports db

/-! What the turns leave. -/

variable {upper : Char → Text} {nodeName : Option Text} {interfaces : List Interface}
  {required : Option Text}

def extraAfter (required : Option Text) (extra : Extra V) : Extra V :=
  if currentBiosName extra ≠ requiredValue required then
    match required.filter (· ≠ []) with
    | some name => PyDict.put biosNameKey (.str name) extra
    | none => extra.filter fun item => item.1 ≠ biosNameKey
  else extra

def nameAfter (nodeName required name : Option Text) : Option Text :=
  match required.filter (· ≠ []), nodeName with
  | some biosName, some nodeName => some (requiredPortName nodeName biosName)
  | _, _ => name

def hasNetwork (port : Port V) : Bool := (port.physicalNetwork.filter (· ≠ [])).isSome

def withExtra (required : Option Text) (port : Port V) : Port V :=
  { port with extra := extraAfter required port.extra }

def withName (nodeName required : Option Text) (port : Port V) : Port V :=
  { port with name := nameAfter nodeName required port.name }

def withPxe (port : Port V) : Port V :=
  { port with pxeEnabled := port.pxeEnabled && hasNetwork port }

def portAfter (upper : Char → Text) (nodeName : Option Text) (interfaces : List Interface)
    (port : Port V) : Port V :=
  withPxe (withName nodeName (biosName upper interfaces port)
    (withExtra (biosName upper interfaces port) port))

theorem writes_setPortExtra (hlisted : Listed port db) {result : Port V × PortTable V}
    (h : setPortExtra refuses required port db = .ok result) :
    Writes (withExtra required port) db result := by
  unfold setPortExtra at h
  unfold withExtra extraAfter
  split_ifs at h ⊢ with hne
  · exact writes_saved h
  · cases h
    exact writes_same hlisted

omit [DecidableEq V] in
theorem writes_setPortName (hlisted : Listed port db) {result : Port V × PortTable V}
    (h : setPortName refuses nodeName required port db = .ok result) :
    Writes (withName nodeName required port) db result := by
  unfold setPortName at h
  unfold withName nameAfter
  split at h
  · next hnone =>
    cases h
    rw [hnone]
    exact writes_same hlisted
  · cases h
  · next biosName nodeName hsome =>
    rw [hsome]
    split_ifs at h with hne
    · exact writes_saved h
    · cases h
      dsimp only
      rw [not_not] at hne
      rw [← hne]
      exact writes_same hlisted

omit [DecidableEq V] in
theorem writes_clearUnwantedPxe (hlisted : Listed port db) {result : Port V × PortTable V}
    (h : clearUnwantedPxe refuses port db = .ok result) :
    Writes (withPxe port) db result := by
  unfold clearUnwantedPxe at h
  unfold withPxe hasNetwork
  split_ifs at h with hnetwork hpxe
  · cases h
    rw [hnetwork, Bool.and_true]
    exact writes_same hlisted
  · cases h
    rw [Bool.not_eq_true'] at hpxe
    rw [hpxe, Bool.false_and, ← hpxe]
    exact writes_same hlisted
  · rw [Bool.not_eq_true] at hnetwork
    rw [hnetwork, Bool.and_false]
    exact writes_saved h

/-- A turn that returns leaves the port as `portAfter` has it, in the table too. -/
theorem writes_updatePort (hlisted : Listed port db) {result : Port V × PortTable V}
    (h : updatePort upper refuses nodeName interfaces port db = .ok result) :
    Writes (portAfter upper nodeName interfaces port) db result := by
  obtain ⟨⟨port₁, db₁⟩, h₁, h⟩ := bind_eq_ok h
  obtain ⟨⟨port₂, db₂⟩, h₂, h₃⟩ := bind_eq_ok h
  have hwrites₁ := writes_setPortExtra hlisted h₁
  obtain rfl := hwrites₁.port
  have hlisted₁ := hwrites₁.listed hlisted rfl
  have hwrites₂ := writes_setPortName hlisted₁ h₂
  obtain rfl := hwrites₂.port
  have hwrites₃ := writes_clearUnwantedPxe (hwrites₂.listed hlisted₁ rfl) h₃
  exact (hwrites₁.trans hwrites₂ rfl).trans hwrites₃ rfl

/-! When the turns return. -/

/-- Ironic saves the port of this id under the name, whatever else it changes. -/
def AcceptsName (refuses : List (Port V) → Port V → Bool) (rows : List (Port V)) (id : ℕ)
    (name : Option Text) : Prop :=
  ∀ (rows' : List (Port V)) (port : Port V), (∀ r, r.id ≠ id → (r ∈ rows' ↔ r ∈ rows)) →
    port.id = id → port.name = name → refuses rows' port = false

omit [DecidableEq V] in
theorem AcceptsName.replace {rows : List (Port V)} {id : ℕ} {name : Option Text}
    (h : AcceptsName refuses rows id name) (hid : port.id = id) :
    AcceptsName refuses (replace Port.id port rows) id name := by
  intro rows' q hrows
  refine h rows' q fun r hr => (hrows r hr).trans ?_
  rw [mem_replace]
  constructor
  · rintro (⟨rfl, -⟩ | ⟨hmem, -⟩)
    · exact (hr hid).elim
    · exact hmem
  · exact fun hmem => Or.inr ⟨hmem, hid ▸ hr⟩

omit [DecidableEq V] in
theorem saved_returns (h : AcceptsName refuses db.rows port.id port.name) :
    ∃ result, saved refuses port db = .ok result := by
  rw [saved, save, h db.rows port (fun _ _ => Iff.rfl) rfl rfl]
  exact ⟨_, rfl⟩

theorem setPortExtra_returns (required : Option Text)
    (h : AcceptsName refuses db.rows port.id port.name) :
    ∃ result, setPortExtra refuses required port db = .ok result := by
  unfold setPortExtra
  split_ifs with hne
  · exact saved_returns h
  · exact ⟨_, rfl⟩

/-- A port that is to get a name belongs to a node that has one. -/
def Named (nodeName required : Option Text) : Prop :=
  nodeName.isSome ∨ required.filter (· ≠ []) = none

omit [DecidableEq V] in
theorem setPortName_returns (hnamed : Named nodeName required)
    (h : AcceptsName refuses db.rows port.id (nameAfter nodeName required port.name)) :
    ∃ result, setPortName refuses nodeName required port db = .ok result := by
  unfold setPortName
  unfold nameAfter at h
  split
  · exact ⟨_, rfl⟩
  · next hsome =>
    rcases hnamed with hnode | hnone
    · cases hnode
    · rw [hsome] at hnone
      cases hnone
  · next hsome =>
    rw [hsome] at h
    split_ifs
    · exact saved_returns h
    · exact ⟨_, rfl⟩

omit [DecidableEq V] in
theorem clearUnwantedPxe_returns (h : AcceptsName refuses db.rows port.id port.name) :
    ∃ result, clearUnwantedPxe refuses port db = .ok result := by
  unfold clearUnwantedPxe
  split_ifs
  · exact ⟨_, rfl⟩
  · exact ⟨_, rfl⟩
  · exact saved_returns h

theorem updatePort_returns (hlisted : Listed port db)
    (hnamed : Named nodeName (biosName upper interfaces port))
    (hold : AcceptsName refuses db.rows port.id port.name)
    (hnew : AcceptsName refuses db.rows port.id (portAfter upper nodeName interfaces port).name) :
    ∃ result, updatePort upper refuses nodeName interfaces port db = .ok result := by
  obtain ⟨⟨port₁, db₁⟩, h₁⟩ := setPortExtra_returns (biosName upper interfaces port) hold
  have hwrites₁ := writes_setPortExtra hlisted h₁
  obtain rfl := hwrites₁.port
  have hlisted₁ := hwrites₁.listed hlisted rfl
  have hnew₁ : AcceptsName refuses db₁.rows port.id
      (portAfter upper nodeName interfaces port).name := by
    rw [show db₁.rows = _ from hwrites₁.rows]
    exact hnew.replace rfl
  obtain ⟨⟨port₂, db₂⟩, h₂⟩ := @setPortName_returns V refuses
    (withExtra (biosName upper interfaces port) port) db₁ nodeName _ hnamed hnew₁
  have hwrites₂ := writes_setPortName hlisted₁ h₂
  obtain rfl := hwrites₂.port
  have hnew₂ : AcceptsName refuses db₂.rows port.id
      (portAfter upper nodeName interfaces port).name := by
    rw [show db₂.rows = _ from hwrites₂.rows]
    exact hnew₁.replace rfl
  obtain ⟨result, h₃⟩ := @clearUnwantedPxe_returns V refuses
    (withName nodeName (biosName upper interfaces port)
      (withExtra (biosName upper interfaces port) port)) db₂ hnew₂
  refine ⟨result, ?_⟩
  unfold updatePort
  simp only [bind, Except.bind, h₁, h₂, h₃]

/-! The loop. -/

/-- The rows with the listed ports updated. -/
def rowsAfter (upper : Char → Text) (nodeName : Option Text) (interfaces : List Interface)
    (ids : List ℕ) (rows : List (Port V)) : List (Port V) :=
  rows.map fun r => if r.id ∈ ids then portAfter upper nodeName interfaces r else r

theorem rowsAfter_cons {ids : List ℕ} {rows : List (Port V)} (hids : Unique Port.id rows)
    (h : port ∈ rows) (hnot : port.id ∉ ids) :
    rowsAfter upper nodeName interfaces ids
        (replace Port.id (portAfter upper nodeName interfaces port) rows) =
      rowsAfter upper nodeName interfaces (port.id :: ids) rows := by
  rw [rowsAfter, rowsAfter, replace, List.map_map]
  refine List.map_congr_left fun r hr => ?_
  by_cases hid : r.id = port.id
  · obtain rfl := hids r hr port h hid
    have hafter : (portAfter upper nodeName interfaces r).id = r.id := rfl
    simp [hafter, hnot]
  · have hafter : (portAfter upper nodeName interfaces port).id = port.id := rfl
    simp [hafter, hid]

theorem unique_rowsAfter {ids : List ℕ} {rows : List (Port V)} (hids : Unique Port.id rows) :
    Unique Port.id (rowsAfter upper nodeName interfaces ids rows) := by
  have hid (r : Port V) :
      (if r.id ∈ ids then portAfter upper nodeName interfaces r else r).id = r.id := by
    split_ifs <;> rfl
  intro r hr s hs heq
  obtain ⟨r', hr', rfl⟩ := List.mem_map.mp hr
  obtain ⟨s', hs', rfl⟩ := List.mem_map.mp hs
  rw [hid, hid] at heq
  rw [hids r' hr' s' hs' heq]

/-- The ports that a loop still has before it. -/
structure Pending (ports : List (Port V)) (db : PortTable V) : Prop where
  mem : ∀ port ∈ ports, port ∈ db.rows
  nodup : (ports.map Port.id).Nodup
  ids : Unique Port.id db.rows

theorem Pending.tail {ports : List (Port V)} (h : Pending (port :: ports) db)
    {result : Port V × PortTable V}
    (hwrites : Writes (portAfter upper nodeName interfaces port) db result) :
    Pending ports result.2 := by
  have hlisted : Listed port db := ⟨h.mem port List.mem_cons_self, h.ids⟩
  obtain ⟨hnot, hnodup⟩ := List.nodup_cons.mp h.nodup
  refine ⟨fun q hq => ?_, hnodup, (hwrites.listed hlisted rfl).ids⟩
  rw [hwrites.rows, mem_replace]
  refine Or.inr ⟨h.mem q (List.mem_cons_of_mem port hq), fun hid => hnot ?_⟩
  exact List.mem_map.mpr ⟨q, hq, hid⟩

theorem updatePorts_eq_ok {ports ports' : List (Port V)} (hpending : Pending ports db)
    (h : updatePorts upper refuses nodeName interfaces ports db = .ok (ports', db')) :
    ports' = ports.map (portAfter upper nodeName interfaces) ∧
      db'.rows = rowsAfter upper nodeName interfaces (ports.map Port.id) db.rows := by
  induction ports generalizing db ports' with
  | nil =>
    cases h
    simp [rowsAfter]
  | cons port ports ih =>
    obtain ⟨result, hport, h⟩ := bind_eq_ok h
    obtain ⟨⟨rest, db₂⟩, hrest, h⟩ := bind_eq_ok h
    cases h
    have hwrites := writes_updatePort ⟨hpending.mem port List.mem_cons_self, hpending.ids⟩ hport
    obtain ⟨rfl, hrows⟩ := ih (hpending.tail hwrites) hrest
    refine ⟨by rw [hwrites.port]; rfl, ?_⟩
    rw [hrows, hwrites.rows]
    exact rowsAfter_cons hpending.ids (hpending.mem port List.mem_cons_self)
      (List.nodup_cons.mp hpending.nodup).1

/-- The loop returns when at each turn the port has its old and its new name to itself. -/
theorem updatePorts_returns {ports : List (Port V)} (hpending : Pending ports db)
    (hnamed : ∀ port ∈ ports, Named nodeName (biosName upper interfaces port))
    (haccepts : ∀ before port after, ports = before ++ port :: after →
      AcceptsName refuses (rowsAfter upper nodeName interfaces (before.map Port.id) db.rows) port.id
          port.name ∧
        AcceptsName refuses (rowsAfter upper nodeName interfaces (before.map Port.id) db.rows)
          port.id (portAfter upper nodeName interfaces port).name) :
    ∃ result, updatePorts upper refuses nodeName interfaces ports db = .ok result := by
  induction ports generalizing db with
  | nil => exact ⟨_, rfl⟩
  | cons port ports ih =>
    obtain ⟨hport, hports⟩ := List.forall_mem_cons.mp hnamed
    have hmem := hpending.mem port List.mem_cons_self
    have hfirst := haccepts [] port ports rfl
    rw [show rowsAfter upper nodeName interfaces (List.map Port.id []) db.rows = db.rows by
      simp [rowsAfter]] at hfirst
    obtain ⟨result, hresult⟩ := updatePort_returns ⟨hmem, hpending.ids⟩ hport hfirst.1 hfirst.2
    have hwrites := writes_updatePort ⟨hmem, hpending.ids⟩ hresult
    have hrest : ∃ rest, updatePorts upper refuses nodeName interfaces ports result.2 =
        .ok rest := by
      refine ih (hpending.tail hwrites) hports fun before q after hsplit => ?_
      have hnot : port.id ∉ before.map Port.id := fun hmem =>
        (List.nodup_cons.mp hpending.nodup).1 (by
          rw [hsplit, List.map_append]
          exact List.mem_append_left _ hmem)
      rw [hwrites.rows, rowsAfter_cons hpending.ids hmem hnot]
      exact haccepts (port :: before) q after (by rw [hsplit]; rfl)
    obtain ⟨rest, hrest⟩ := hrest
    refine ⟨(result.1 :: rest.1, rest.2), ?_⟩
    unfold updatePorts
    rw [hresult]
    simp only [bind, Except.bind]
    rw [hrest]
    rfl

end Understack.Ironic.PortBiosName
