import Understack.Workflows.InterfaceEvents

/-! The record that the update event of a port leaves and the one that the node sync leaves: when
the two agree, whichever comes last. -/
namespace Understack.Workflows.Interfaces
open PyText KeyedTable

/-- The event that Ironic sends for a port of the node. -/
def IronicPort.event (port : IronicPort) (nodeUuid : Text) : IronicPortEvent where
  uuid := port.uuid
  name := port.name.getD []
  address := port.address.text
  nodeUuid := nodeUuid
  biosName := port.biosName

/-- The handler ends well. -/
def Succeeds (handle : Nautobot → ℕ × Nautobot) (n : Nautobot) : Prop := (handle n).1 = 0

instance (handle : Nautobot → ℕ × Nautobot) (n : Nautobot) : Decidable (Succeeds handle n) :=
  instDecidableEqNat _ _

section Fields

variable (C : Casing) (I : IdSource) (nodeUuid : Text) (inventory : Inventory)
  (ports : List IronicPort) (port : IronicPort) (n : Nautobot)

/-- Name, type and MAC address of the record of a port, the address without regard to case. -/
def fields : Option (Text × Text × Option Text) :=
  (n.table.get port.uuid).map fun r => (r.name, r.type, r.macAddress.map C.lower)

def portName : Text := syncName C (buildInterfaceMapFromInventory C inventory) port

variable {C I nodeUuid inventory ports port n}

theorem fields_of_mem {r : Interface} (hr : r ∈ n.table.rows) (hid : r.id = port.uuid) :
    fields C port n = some (r.name, r.type, r.macAddress.map C.lower) := by
  have hg : n.table.get port.uuid = some r := Table.get_eq_some_iff.mpr ⟨hr, hid⟩
  rw [fields, hg]
  rfl

theorem mem_of_fields {name type : Text} {mac : Option Text}
    (h : fields C port n = some (name, type, mac)) :
    ∃ r ∈ n.table.rows, r.id = port.uuid ∧ r.name = name ∧ r.type = type := by
  obtain ⟨r, hg, heq⟩ := Option.map_eq_some_iff.mp h
  obtain ⟨hr, hid⟩ := Table.get_eq_some_iff.mp hg
  simp only [Prod.mk.injEq] at heq
  exact ⟨r, hr, hid, heq.1, heq.2.1⟩

theorem event_fields (h : Succeeds (handlePortCreateUpdate (port.event nodeUuid)) n) :
    fields C port (handlePortCreateUpdate (port.event nodeUuid) n).2 =
      some ((port.event nodeUuid).interfaceName, sfp28, some (C.lower port.address.text)) := by
  have hset : ∀ intf, ((port.event nodeUuid).set intf).id = intf.id := fun _ => rfl
  obtain ⟨intf, hid, hrow⟩ := createOrUpdate_success hset h
  exact fields_of_mem hrow hid

/-- A record that the port has after the sync is the one that the sync wrote, unless Nautobot gave
its id to the interface of the BMC. -/
theorem sync_fields_of_present (hids : (ports.map IronicPort.uuid).Nodup)
    (hnames : (ports.map (portName C inventory)).Nodup) (hport : port ∈ ports)
    (h : Succeeds (syncInterfacesFromData C I nodeUuid inventory ports) n) {name type : Text}
    {mac : Option Text}
    (hf : fields C port (syncInterfacesFromData C I nodeUuid inventory ports n).2 =
      some (name, type, mac)) :
    type = "1000base-t".toList ∨
      (name = portName C inventory port ∧ type = getInterfaceType C (portName C inventory port)) := by
  obtain ⟨r, hr, hid, rfl, rfl⟩ := mem_of_fields hf
  obtain ⟨hok, m, honly, heq⟩ := syncInterfacesFromData_success h
  rw [heq] at hr
  have hrm := (mem_cleanup.mp hr).1
  rcases honly.new r hrm with ⟨s, hs, hsid⟩ | htype
  · right
    have hw := syncInterfaces_present (wantedInterfaces_wanted hids hnames) hok
      (List.mem_map_of_mem hport) hs (hsid.trans hid)
    obtain ⟨t, ht, htid, -, htname, httype⟩ := honly.kept s hs
    have htr : t = r := m.table.ids t ht r hrm (htid.trans hsid)
    rw [← htr, htname, httype]
    exact ⟨hw.name, hw.type⟩
  · exact Or.inl htype

/-- An event that fails changes nothing where there is a record. -/
theorem event_fails {r : Interface} (hr : r ∈ n.table.rows) (hid : r.id = port.uuid)
    (h : ¬Succeeds (handlePortCreateUpdate (port.event nodeUuid)) n) :
    fields C port (handlePortCreateUpdate (port.event nodeUuid) n).2 = fields C port n := by
  have hg : n.table.get port.uuid = some r := Table.get_eq_some_iff.mpr ⟨hr, hid⟩
  have heq : handlePortCreateUpdate (port.event nodeUuid) n =
      saveAttrs (port.event nodeUuid).set r n := by
    unfold handlePortCreateUpdate createOrUpdate
    rw [show n.table.get ((port.event nodeUuid).set
      (newInterface (port.event nodeUuid).uuid)).id = some r from hg]
  rw [Succeeds, heq] at h
  rw [heq]
  unfold saveAttrs at h ⊢
  simp only at h ⊢
  cases hs : n.table.save ((port.event nodeUuid).set r) with
  | none =>
    simp only [Nautobot.save, hs]
    rfl
  | some t =>
    simp only [Nautobot.save, hs] at h
    exact absurd rfl h

/-- A record that has the right name is in nobody's way: it is as before if an error ends the sync
early, or else as the port says. -/
theorem sync_fields_of_named (hids : (ports.map IronicPort.uuid).Nodup)
    (hnames : (ports.map (portName C inventory)).Nodup) (hport : port ∈ ports)
    (hne : portName C inventory port ≠ idrac) {type : Text} {mac : Option Text}
    (hf : fields C port n = some (portName C inventory port, type, mac)) :
    (¬Succeeds (syncInterfacesFromData C I nodeUuid inventory ports) n ∧
      fields C port (syncInterfacesFromData C I nodeUuid inventory ports n).2 =
        fields C port n) ∨
    fields C port (syncInterfacesFromData C I nodeUuid inventory ports n).2 =
      some (portName C inventory port, getInterfaceType C (portName C inventory port),
        some (C.lower port.address.text)) := by
  obtain ⟨r, hr, hid, hname, -⟩ := mem_of_fields hf
  have hw : Wanted nodeUuid (wantedInterfaces C nodeUuid inventory ports) :=
    wantedInterfaces_wanted hids hnames
  have hinfo := List.mem_map_of_mem
    (f := buildInterface C nodeUuid (buildInterfaceMapFromInventory C inventory)) hport
  obtain ⟨s, hs, hor⟩ := syncInterfaces_named hw hinfo hr hid hname
  by_cases h : Succeeds (syncInterfacesFromData C I nodeUuid inventory ports) n
  · right
    have hsid : s.id = port.uuid := by
      rcases hor with rfl | hws
      · exact hid
      · exact hws.id
    have hws := syncInterfaces_present hw (syncInterfacesFromData_success h).1 hinfo hs hsid
    obtain ⟨t, ht, htid, htname, httype, hmac, -⟩ := syncInterfacesFromData_finish hport h hs hws
    have htn : t.name = portName C inventory port := htname
    rw [fields_of_mem ht htid, httype, hmac (htn.symm ▸ hne), htn, Option.map_some,
      C.lower_upper _ port.address.ascii]
  · rcases syncInterfacesFromData_failure h with ⟨-, heq⟩ | ⟨-, heq⟩
    · exact Or.inl ⟨h, by rw [heq]⟩
    · rw [heq]
      rcases hor with rfl | hws
      · exact Or.inl ⟨h, (fields_of_mem hs hid).trans (fields_of_mem hr hid).symm⟩
      · right
        have hmac : s.macAddress = some (C.upper (C.lower port.address.text)) := hws.macAddress
        have hsn : s.name = portName C inventory port := hws.name
        have hst : s.type = getInterfaceType C (portName C inventory port) := hws.type
        have hsid : s.id = port.uuid := hws.id
        have hsf := fields_of_mem (C := C) hs hsid
        rw [hsf, hsn, hst, hmac, Option.map_some, C.upper_lower _ port.address.ascii,
          C.lower_upper _ port.address.ascii]

/-- An event goes through where no other interface of the node has the name. -/
theorem event_succeeds (h : ∀ r ∈ n.table.rows, r.id ≠ port.uuid →
      ¬(r.device = nodeUuid ∧ r.name = (port.event nodeUuid).interfaceName)) :
    Succeeds (handlePortCreateUpdate (port.event nodeUuid)) n := by
  unfold Succeeds handlePortCreateUpdate createOrUpdate
  cases hg : n.table.get port.uuid with
  | some intf =>
    rw [show n.table.get ((port.event nodeUuid).set
      (newInterface (port.event nodeUuid).uuid)).id = some intf from hg]
    obtain ⟨-, hid⟩ := Table.get_eq_some_iff.mp hg
    have hid' : intf.id = port.uuid := hid
    apply saveAttrs_succeeds
    intro r hr hne
    exact h r hr (hid' ▸ hne)
  | none =>
    rw [show n.table.get ((port.event nodeUuid).set
      (newInterface (port.event nodeUuid).uuid)).id = none from hg]
    have hfree := Table.get_eq_none_iff.mp hg
    obtain ⟨n', hc, -, hrows⟩ := Nautobot.create_of_free n
      ((port.event nodeUuid).set (newInterface (port.event nodeUuid).uuid))
      fun r hr => ⟨hfree r hr, h r hr (hfree r hr)⟩
    simp only [hc, if_true]
    apply saveAttrs_succeeds
    intro r hr hne
    rcases (hrows r).mp hr with rfl | hmem
    · exact absurd rfl hne
    · exact h r hmem hne

theorem mem_of_mem_event {r : Interface}
    (hr : r ∈ (handlePortCreateUpdate (port.event nodeUuid) n).2.table.rows)
    (hid : r.id ≠ port.uuid) : r ∈ n.table.rows := by
  have hset : ∀ intf, ((port.event nodeUuid).set intf).id = intf.id := fun _ => rfl
  exact mem_of_mem_createOrUpdate hset hr hid

theorem event_device (h : Succeeds (handlePortCreateUpdate (port.event nodeUuid)) n)
    {r : Interface} (hr : r ∈ (handlePortCreateUpdate (port.event nodeUuid) n).2.table.rows)
    (hid : r.id = port.uuid) : r.device = nodeUuid := by
  have hset : ∀ intf, ((port.event nodeUuid).set intf).id = intf.id := fun _ => rfl
  obtain ⟨intf, hintf, hrow⟩ := createOrUpdate_success hset h
  have heq : r = (port.event nodeUuid).set intf := Table.ids _ r hr _ hrow (hid.trans hintf.symm)
  rw [heq]
  rfl

/-- A sync of one port goes through where no other interface is on the device of its record. -/
theorem sync_succeeds (hnode : nodeUuid ≠ []) (h : ∀ r ∈ n.table.rows, r.id ≠ port.uuid →
      ∀ s ∈ n.table.rows, s.id = port.uuid → s.device ≠ r.device) :
    Succeeds (syncInterfacesFromData C I nodeUuid inventory [port]) n := by
  by_contra hcon
  rcases syncInterfacesFromData_failure hcon with ⟨hempty, -⟩ | ⟨hloop, -⟩
  · exact hnode hempty
  · apply hloop
    simp only [wantedInterfaces, buildInterfacesFromPorts, List.map_cons, List.map_nil,
      syncInterfaces]
    have hstep : (syncInterface (buildInterface C nodeUuid
        (buildInterfaceMapFromInventory C inventory) port) n).1 = true := by
      by_cases hm : ∀ r ∈ n.table.rows, r.id ≠ port.uuid
      · rw [syncInterface_missing hm]
      · push Not at hm
        obtain ⟨intf, hi, hid⟩ := hm
        rw [syncInterface_found hi hid]
        apply update_succeeds
        intro r hr hne hd
        exact h r hr (hid ▸ hne) intf hi hid hd.symm
    rw [if_pos hstep]

/-- The interface of the BMC has a type of its own, which no port event sets. -/
theorem getInterfaceType_idrac (C : Casing) : getInterfaceType C idrac ≠ sfp28 := by
  have hlower : C.lower idrac = "idrac".toList := by
    rw [C.lower_ascii idrac (ascii_of_all (by decide))]
    decide
  have hnone : interfaceTypeMap.find? (fun e => isIn e.1 (C.lower idrac)) = none := by
    rw [hlower]
    decide
  rw [getInterfaceType, hnone]
  decide

end Fields

section Agreement

variable (C : Casing) (I : IdSource) (nodeUuid : Text) (inventory : Inventory)
  (ports : List IronicPort) (port : IronicPort) (n : Nautobot)

/-- The records after the event and the sync, in this order and in the other. -/
def eventThenSync : Nautobot :=
  (syncInterfacesFromData C I nodeUuid inventory ports
    (handlePortCreateUpdate (port.event nodeUuid) n).2).2

def syncThenEvent : Nautobot :=
  (handlePortCreateUpdate (port.event nodeUuid)
    (syncInterfacesFromData C I nodeUuid inventory ports n).2).2

/-- Running either handler again leaves the record as it is. -/
def Settled (m : Nautobot) : Prop :=
  fields C port (handlePortCreateUpdate (port.event nodeUuid) m).2 = fields C port m ∧
    fields C port (syncInterfacesFromData C I nodeUuid inventory ports m).2 = fields C port m

def Agree : Prop :=
  fields C port (eventThenSync C I nodeUuid inventory ports port n) =
      fields C port (syncThenEvent C I nodeUuid inventory ports port n) ∧
    Settled C I nodeUuid inventory ports port
      (eventThenSync C I nodeUuid inventory ports port n) ∧
    Settled C I nodeUuid inventory ports port
      (syncThenEvent C I nodeUuid inventory ports port n)

/-- Each handler can run before and after the other. -/
structure BothRun : Prop where
  event : Succeeds (handlePortCreateUpdate (port.event nodeUuid)) n
  eventSync : Succeeds (syncInterfacesFromData C I nodeUuid inventory ports)
    (handlePortCreateUpdate (port.event nodeUuid) n).2
  sync : Succeeds (syncInterfacesFromData C I nodeUuid inventory ports) n
  syncEvent : Succeeds (handlePortCreateUpdate (port.event nodeUuid))
    (syncInterfacesFromData C I nodeUuid inventory ports n).2

variable {C I nodeUuid inventory ports port n}

/-- All four handlings go through where every other interface is on another device than the node
and the port's own record. -/
theorem bothRun_alone (hnode : nodeUuid ≠ [])
    (hname : (port.event nodeUuid).interfaceName ≠ idrac)
    (halone : ∀ r ∈ n.table.rows, r.id ≠ port.uuid → r.device ≠ nodeUuid ∧
      ∀ s ∈ n.table.rows, s.id = port.uuid → s.device ≠ r.device) :
    BothRun C I nodeUuid inventory [port] port n := by
  have hevent : Succeeds (handlePortCreateUpdate (port.event nodeUuid)) n :=
    event_succeeds fun r hr hid hslot => (halone r hr hid).1 hslot.1
  have hsync : Succeeds (syncInterfacesFromData C I nodeUuid inventory [port]) n :=
    sync_succeeds hnode fun r hr hid => (halone r hr hid).2
  refine ⟨hevent, ?_, ?_, ?_⟩
  · apply sync_succeeds hnode
    intro r hr hid s hs hsid
    rw [event_device hevent hs hsid]
    exact (halone r (mem_of_mem_event hr hid) hid).1.symm
  · exact hsync
  · -- what the sweep leaves on the node is the port's or the BMC's
    apply event_succeeds
    rintro r hr hid ⟨hd, hrname⟩
    obtain ⟨-, m, -, heq⟩ := syncInterfacesFromData_success hsync
    rw [heq] at hr
    rcases (mem_cleanup.mp hr).2 with hne | hidrac | hport
    · exact hne hd
    · exact hname (hrname.symm.trans hidrac)
    · exact hid (List.mem_singleton.mp hport)

/-- The event and the sync agree on a port just if both give it the same name and the sync reads
from that name the one type that events set. -/
theorem port_event_node_sync_agree_iff (hids : (ports.map IronicPort.uuid).Nodup)
    (hnames : (ports.map (portName C inventory)).Nodup) (hport : port ∈ ports)
    (hrun : BothRun C I nodeUuid inventory ports port n) :
    Agree C I nodeUuid inventory ports port n ↔
      (port.event nodeUuid).interfaceName = portName C inventory port ∧
        getInterfaceType C (portName C inventory port) = sfp28 := by
  have hlast := event_fields (C := C) hrun.syncEvent
  constructor
  · rintro ⟨horder, -, -⟩
    rcases sync_fields_of_present hids hnames hport hrun.eventSync (horder.trans hlast) with
      hbmc | ⟨hname, htype⟩
    · exact absurd hbmc (by decide)
    · exact ⟨hname, htype.symm⟩
  · rintro ⟨hname, htype⟩
    have hne : portName C inventory port ≠ idrac := by
      intro heq
      rw [heq] at htype
      exact getInterfaceType_idrac C htype
    -- a handler that runs again writes what is there, and one that fails writes nothing else
    have hsettled : ∀ m, fields C port m =
        some (portName C inventory port, sfp28, some (C.lower port.address.text)) →
        Settled C I nodeUuid inventory ports port m := by
      intro m hm
      constructor
      · by_cases h : Succeeds (handlePortCreateUpdate (port.event nodeUuid)) m
        · rw [event_fields h, hm, hname]
        · obtain ⟨r, hr, hid, -⟩ := mem_of_fields hm
          exact event_fails hr hid h
      · rcases sync_fields_of_named hids hnames hport hne hm with ⟨-, hsame⟩ | hsync
        · exact hsame
        · rw [hsync, hm, htype]
    have hfirst := event_fields (C := C) hrun.event
    rw [hname] at hfirst hlast
    have hboth : fields C port (eventThenSync C I nodeUuid inventory ports port n) =
        some (portName C inventory port, sfp28, some (C.lower port.address.text)) := by
      rcases sync_fields_of_named hids hnames hport hne hfirst with ⟨hfail, -⟩ | hsync
      · exact absurd hrun.eventSync hfail
      · rw [eventThenSync, hsync, htype]
    exact ⟨hboth.trans hlast.symm, hsettled _ hboth, hsettled _ hlast⟩

/-- The record of a port that was on another node. -/
def movedRecord : Nautobot where
  table :=
    { rows := [{ newInterface "p1".toList with device := "other".toList, name := "eth9".toList }]
      ids := by decide
      slots := by decide }
  refused := []

theorem bios_port_agrees :
    Agree asciiCasing longerId "node".toList noInventory [onePort] onePort movedRecord :=
  (port_event_node_sync_agree_iff (by decide) (by decide) List.mem_cons_self
    (bothRun_alone (by decide) (by decide) (by decide))).mpr (by decide +kernel)

/-- A port that has only the name that an operator gave it. -/
def namedPort : IronicPort where
  uuid := ['p', '1']
  uuid_ne := List.cons_ne_nil _ _
  address := shortMac
  name := some "eth0".toList
  biosName := none

/-- The event makes the interface a 25G one and the node sync turns it back. -/
theorem named_port_disagrees :
    BothRun asciiCasing longerId "node".toList noInventory [namedPort] namedPort emptyNautobot ∧
    ¬Agree asciiCasing longerId "node".toList noInventory [namedPort] namedPort emptyNautobot := by
  constructor
  · exact ⟨by decide +kernel, by decide +kernel, by decide +kernel, by decide +kernel⟩
  · rintro ⟨horder, -, -⟩
    revert horder
    decide +kernel

end Agreement

end Understack.Workflows.Interfaces
