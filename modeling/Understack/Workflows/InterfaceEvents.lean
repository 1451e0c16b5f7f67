import Understack.Lib.Runs
import Understack.Workflows.InterfaceSync

/-! Histories of port, portgroup and node events: whether the interface of every port and
portgroup that has been announced and is still there survives the other handlers. -/
namespace Understack.Workflows.Interfaces
open PyText KeyedTable Runs Ironic.Portgroup

/-! The loop of a node sync that ends well, with or without refused requests. -/
section Successful

variable {nodeUuid : Text} {infos : List InterfaceInfo} {info : InterfaceInfo} {n : Nautobot}
  {r intf : Interface}

/-- The attributes that the sync writes, on whichever device the record is. -/
structure Written (r : Interface) (info : InterfaceInfo) : Prop where
  id : r.id = info.uuid
  name : r.name = info.name
  macAddress : r.macAddress = some info.macAddress
  type : r.type = info.interfaceType

theorem written_updatedRow (hf : info.Filled) (hid : intf.id = info.uuid) :
    Written (updatedRow info intf) info where
  id := hid
  name := if_pos hf.name
  macAddress := if_pos hf.macAddress
  type := if_pos hf.interfaceType

theorem Nautobot.create_refused (n : Nautobot) (row : Interface) :
    n.refused <:+ (n.create row).2.refused := by
  unfold Nautobot.create
  cases n.table.create row with
  | none => exact List.suffix_cons _ _
  | some t => exact List.suffix_refl _

theorem Nautobot.save_refused (n : Nautobot) (row : Interface) :
    n.refused <:+ (n.save row).2.refused := by
  unfold Nautobot.save
  cases n.table.save row with
  | none => exact List.suffix_cons _ _
  | some t => exact List.suffix_refl _

theorem syncInterface_refused : n.refused <:+ (syncInterface info n).2.refused := by
  unfold syncInterface
  cases n.table.get info.uuid with
  | none => exact Nautobot.create_refused n info.row
  | some intf =>
    simp only [updateNautobotInterface]
    split_ifs
    · rw [deleteNameConflict_refused]
    · have hsave := Nautobot.save_refused (deleteNameConflict info intf n) (updatedRow info intf)
      rw [deleteNameConflict_refused] at hsave
      exact hsave

theorem syncInterfaces_refused : n.refused <:+ (syncInterfaces infos n).2.refused := by
  induction infos generalizing n with
  | nil => exact List.suffix_refl _
  | cons info infos ih =>
    simp only [syncInterfaces]
    split_ifs
    · exact syncInterface_refused.trans ih
    · exact syncInterface_refused

/-- A create request goes through, or leaves the table as it was. -/
theorem create_written_or_refused (n : Nautobot) (row : Interface) :
    row ∈ (n.create row).2.table.rows ∨
      (n.create row).2 = { n with refused := row :: n.refused } := by
  by_cases ht : ∃ r ∈ n.table.rows, r.id = row.id ∨ (r.device = row.device ∧ r.name = row.name)
  · right
    rw [Nautobot.create_of_taken n row ht]
  · left
    push Not at ht
    obtain ⟨n', hc, -, hrows⟩ := Nautobot.create_of_free n row (by simpa using ht)
    rw [hc]
    exact (hrows row).mpr (Or.inl rfl)

theorem update_written (hi : intf ∈ n.table.rows) (hid : intf.id = info.uuid)
    (h : (updateNautobotInterface info intf n).1 = true) :
    updatedRow info intf ∈ (updateNautobotInterface info intf n).2.table.rows := by
  have hkept : intf ∈ (deleteNameConflict info intf n).table.rows :=
    mem_deleteNameConflict hi (Or.inl hid)
  unfold updateNautobotInterface at h ⊢
  simp only at h ⊢
  split_ifs at h ⊢ with hsame
  · rw [hsame]
    exact hkept
  · cases hs : (deleteNameConflict info intf n).table.save (updatedRow info intf) with
    | none =>
      simp only [Nautobot.save, hs] at h
      cases h
    | some t =>
      simp only [Nautobot.save, hs]
      exact (Table.mem_save hs).mpr (Or.inl ⟨rfl, intf, hkept, rfl⟩)

/-- An update goes through where no other interface is on the record's device. -/
theorem update_succeeds (h : ∀ r ∈ n.table.rows, r.id ≠ intf.id → r.device ≠ intf.device) :
    (updateNautobotInterface info intf n).1 = true := by
  unfold updateNautobotInterface
  simp only
  split_ifs
  · rfl
  · obtain ⟨n', hs, -, -⟩ := Nautobot.save_of_free (deleteNameConflict info intf n)
      (updatedRow info intf)
      fun r hr hid hslot => h r (mem_of_mem_deleteNameConflict hr) hid hslot.1
    rw [hs]

/-- The step of a port writes its record, or its create request is refused. -/
theorem syncInterface_written_or_refused (hf : info.Filled)
    (h : (syncInterface info n).1 = true) :
    (∃ r ∈ (syncInterface info n).2.table.rows, Written r info) ∨
      ((∀ r ∈ (syncInterface info n).2.table.rows, r.id ≠ info.uuid) ∧
        (syncInterface info n).2.refused ≠ n.refused) := by
  by_cases hm : ∀ r ∈ n.table.rows, r.id ≠ info.uuid
  · rw [syncInterface_missing hm]
    rcases create_written_or_refused n info.row with hrow | heq
    · exact Or.inl ⟨info.row, hrow, rfl, rfl, rfl, rfl⟩
    · right
      rw [heq]
      exact ⟨hm, List.cons_ne_self _ _⟩
  · push Not at hm
    obtain ⟨intf, hi, hid⟩ := hm
    rw [syncInterface_found hi hid] at h ⊢
    exact Or.inl ⟨_, update_written hi hid h, written_updatedRow hf hid⟩

/-- An interface whose id and name no port has stays through the loop. -/
theorem syncInterfaces_frame (hdev : ∀ info ∈ infos, info.deviceUuid = nodeUuid)
    (hr : r ∈ n.table.rows) (hid : r.id ∉ infos.map InterfaceInfo.uuid)
    (hname : ¬(r.device = nodeUuid ∧ r.name ∈ infos.map InterfaceInfo.name)) :
    r ∈ (syncInterfaces infos n).2.table.rows := by
  induction infos generalizing n with
  | nil => exact hr
  | cons info infos ih =>
    obtain ⟨hinfo, hinfos⟩ := List.forall_mem_cons.mp hdev
    rw [List.map_cons, List.mem_cons, not_or] at hid
    rw [List.map_cons, List.mem_cons] at hname
    have hstep : r ∈ (syncInterface info n).2.table.rows :=
      syncInterface_frame hr hid.1 fun h => hname ⟨h.1.trans hinfo, Or.inl h.2⟩
    simp only [syncInterfaces]
    split_ifs
    · exact ih hinfos hstep hid.2 fun h => hname ⟨h.1, Or.inr h.2⟩
    · exact hstep

theorem syncInterfaces_source (hdev : ∀ info ∈ infos, info.deviceUuid = nodeUuid)
    (hr : r ∈ (syncInterfaces infos n).2.table.rows) :
    (∃ s ∈ n.table.rows, s.id = r.id ∧ s.device = r.device) ∨ r.device = nodeUuid := by
  induction infos generalizing n with
  | nil => exact Or.inl ⟨r, hr, rfl, rfl⟩
  | cons info infos ih =>
    obtain ⟨hinfo, hinfos⟩ := List.forall_mem_cons.mp hdev
    have hstep : ∀ s ∈ (syncInterface info n).2.table.rows,
        (∃ t ∈ n.table.rows, t.id = s.id ∧ t.device = s.device) ∨ s.device = nodeUuid :=
      fun s hs => (syncInterface_source hs).imp_right fun h => h.2.trans hinfo
    simp only [syncInterfaces] at hr
    split_ifs at hr
    · rcases ih hinfos hr with ⟨s, hs, hid, hd⟩ | hd
      · rcases hstep s hs with ⟨t, ht, htid, htd⟩ | hsd
        · exact Or.inl ⟨t, ht, htid.trans hid, htd.trans hd⟩
        · exact Or.inr (hd.symm.trans hsd)
      · exact Or.inr hd
    · exact hstep r hr

theorem Wanted.tail {head : InterfaceInfo} (hw : Wanted nodeUuid (head :: infos)) :
    Wanted nodeUuid infos where
  filled := (List.forall_mem_cons.mp hw.filled).2
  device := (List.forall_mem_cons.mp hw.device).2
  ids := (List.nodup_cons.mp hw.ids).2
  names := (List.nodup_cons.mp hw.names).2

/-- What a step has written stays. -/
theorem Wanted.keeps (hw : Wanted nodeUuid (info :: infos)) (hr : r ∈ n.table.rows)
    (hwr : Written r info) : r ∈ (syncInterfaces infos n).2.table.rows := by
  apply syncInterfaces_frame hw.tail.device hr
  · rw [hwr.id]
    exact (List.nodup_cons.mp hw.ids).1
  · rw [hwr.name]
    exact fun hslot => (List.nodup_cons.mp hw.names).1 hslot.2

/-- Every port is written if the loop ends and nothing was refused. -/
theorem syncInterfaces_written (hw : Wanted nodeUuid infos)
    (h : (syncInterfaces infos n).1 = true)
    (href : (syncInterfaces infos n).2.refused = n.refused) (hinfo : info ∈ infos) :
    ∃ r ∈ (syncInterfaces infos n).2.table.rows, Written r info := by
  induction infos generalizing n with
  | nil => cases hinfo
  | cons head infos ih =>
    simp only [syncInterfaces] at h href ⊢
    split_ifs at h href ⊢ with hok
    -- the log only grows, so neither the step nor the rest adds to it
    have hhead : (syncInterface head n).2.refused = n.refused := by
      have hsuffix : (syncInterface head n).2.refused <:+
          (syncInterfaces infos (syncInterface head n).2).2.refused := syncInterfaces_refused
      rw [href] at hsuffix
      exact hsuffix.eq_of_length_le syncInterface_refused.length_le
    rcases List.mem_cons.mp hinfo with rfl | hinfo
    · rcases syncInterface_written_or_refused (hw.filled _ List.mem_cons_self) hok with
        ⟨r, hr, hwr⟩ | ⟨-, hne⟩
      · exact ⟨r, hw.keeps hr hwr, hwr⟩
      · exact absurd hhead hne
    · exact ih hw.tail h (href.trans hhead.symm) hinfo

/-- Whatever was refused, a record that a port has after the loop is as the port says. -/
theorem syncInterfaces_present (hw : Wanted nodeUuid infos)
    (h : (syncInterfaces infos n).1 = true) (hinfo : info ∈ infos)
    (hr : r ∈ (syncInterfaces infos n).2.table.rows) (hid : r.id = info.uuid) :
    Written r info := by
  induction infos generalizing n with
  | nil => cases hinfo
  | cons head infos ih =>
    simp only [syncInterfaces] at h hr
    split_ifs at h hr with hok
    rcases List.mem_cons.mp hinfo with rfl | hinfo
    · rcases syncInterface_written_or_refused (hw.filled _ List.mem_cons_self) hok with
        ⟨s, hs, hws⟩ | ⟨hm, -⟩
      · have hrs : r = s := Table.ids _ r hr s (hw.keeps hs hws) (hid.trans hws.id.symm)
        rw [hrs]
        exact hws
      · exact absurd hid (syncInterfaces_missing (List.nodup_cons.mp hw.ids).1 hm r hr)
    · exact ih hw.tail h hinfo hr

/-- Nothing deletes the record of a port that has its name already, even if an error ends the
loop. -/
theorem syncInterfaces_named (hw : Wanted nodeUuid infos) (hinfo : info ∈ infos)
    (hr : r ∈ n.table.rows) (hid : r.id = info.uuid) (hname : r.name = info.name) :
    ∃ s ∈ (syncInterfaces infos n).2.table.rows, s = r ∨ Written s info := by
  induction infos generalizing n with
  | nil => cases hinfo
  | cons head infos ih =>
    simp only [syncInterfaces]
    rcases List.mem_cons.mp hinfo with rfl | hinfo
    · have hwr := written_updatedRow (hw.filled _ List.mem_cons_self) hid
      rw [syncInterface_found hr hid]
      split_ifs with hok
      · exact ⟨_, hw.keeps (update_written hr hid hok) hwr, Or.inr hwr⟩
      · rcases update_self hr hid with hrow | hrow
        · exact ⟨r, hrow, Or.inl rfl⟩
        · exact ⟨_, hrow, Or.inr hwr⟩
    · have hne : r.id ≠ head.uuid := by
        rw [hid]
        exact fun heq => (List.nodup_cons.mp hw.ids).1 (heq ▸ List.mem_map_of_mem hinfo)
      have hns : r.name ≠ head.name := by
        rw [hname]
        exact fun heq => (List.nodup_cons.mp hw.names).1 (heq ▸ List.mem_map_of_mem hinfo)
      have hstep := syncInterface_frame hr hne fun hslot => hns hslot.2
      split_ifs
      · exact ih hw.tail hinfo hstep
      · exact ⟨r, hstep, Or.inl rfl⟩

end Successful

/-! The node sync as a whole. -/
section NodeSync

variable {C : Casing} {I : IdSource} {nodeUuid : Text} {inventory : Inventory}
  {ports : List IronicPort} {n : Nautobot} {r : Interface}

/-- An interface of another device keeps its id and its device. -/
theorem syncInterfacesFromData_other
    (h : (syncInterfacesFromData C I nodeUuid inventory ports n).1 = 0)
    (hr : r ∈ n.table.rows) (hd : r.device ≠ nodeUuid) :
    ∃ s ∈ (syncInterfacesFromData C I nodeUuid inventory ports n).2.table.rows,
      s.id = r.id ∧ s.device = r.device := by
  obtain ⟨s, hs, hid, hsd⟩ :=
    syncInterfaces_other (wantedInterfaces_device C nodeUuid inventory ports) hr hd
  have hsn : s.device ≠ nodeUuid := hsd ▸ hd
  exact ⟨s, (mem_syncInterfacesFromData h fun hslot => hsn hslot.1).mpr ⟨hs, Or.inl hsn⟩,
    hid, hsd⟩

/-- The record of a port after the loop is there at the end, with the address apart if it has the
name of the BMC's. -/
theorem syncInterfacesFromData_finish {port : IronicPort} (hport : port ∈ ports)
    (h : (syncInterfacesFromData C I nodeUuid inventory ports n).1 = 0)
    (hr : r ∈ (syncInterfaces (wantedInterfaces C nodeUuid inventory ports) n).2.table.rows)
    (hw : Written r (buildInterface C nodeUuid (buildInterfaceMapFromInventory C inventory) port)) :
    ∃ s ∈ (syncInterfacesFromData C I nodeUuid inventory ports n).2.table.rows,
      s.id = port.uuid ∧
      s.name = syncName C (buildInterfaceMapFromInventory C inventory) port ∧
      s.type = getInterfaceType C s.name ∧
      (s.name ≠ idrac → s.macAddress = some (C.upper port.address.text)) ∧
      s.device = r.device := by
  obtain ⟨-, m, honly, heq⟩ := syncInterfacesFromData_success h
  have htype : r.type = getInterfaceType C r.name :=
    hw.type.trans (congrArg (getInterfaceType C) hw.name.symm)
  by_cases hslot : r.device = nodeUuid ∧ r.name = idrac
  · obtain ⟨s, hs, hid, hd, hname, htype'⟩ := honly.kept r hr
    refine ⟨s, ?_, hid.trans hw.id, hname.trans hw.name, ?_, ?_, hd⟩
    · rw [heq]
      exact mem_cleanup.mpr ⟨hs, Or.inr (Or.inl (hname.trans hslot.2))⟩
    · rw [htype', hname]
      exact htype
    · intro hne
      exact absurd (hname.trans hslot.2) hne
  · refine ⟨r, ?_, hw.id, hw.name, htype, ?_, rfl⟩
    · refine (mem_syncInterfacesFromData h hslot).mpr ⟨hr, Or.inr ?_⟩
      rw [wantedInterfaces_uuid, show r.id = port.uuid from hw.id]
      exact List.mem_map_of_mem hport
    · intro _
      exact hw.macAddress.trans
        (congrArg some (C.upper_lower port.address.text port.address.ascii))

/-- Every port is written if the sync ends well and nothing was refused; its record is on the
device unless it was on another before. -/
theorem syncInterfacesFromData_written (hids : (ports.map IronicPort.uuid).Nodup)
    (hnames : (ports.map (syncName C (buildInterfaceMapFromInventory C inventory))).Nodup)
    (h : (syncInterfacesFromData C I nodeUuid inventory ports n).1 = 0)
    (href : (syncInterfacesFromData C I nodeUuid inventory ports n).2.refused = n.refused)
    {port : IronicPort} (hport : port ∈ ports) :
    ∃ r ∈ (syncInterfacesFromData C I nodeUuid inventory ports n).2.table.rows,
      r.id = port.uuid ∧
      (r.device = nodeUuid ∨ ∃ s ∈ n.table.rows, s.id = port.uuid ∧ s.device = r.device) := by
  obtain ⟨hok, m, honly, heq⟩ := syncInterfacesFromData_success h
  have href' : (syncInterfaces (wantedInterfaces C nodeUuid inventory ports) n).2.refused =
      n.refused := by
    rw [heq] at href
    exact honly.refused.symm.trans href
  obtain ⟨r, hr, hw⟩ := syncInterfaces_written (wantedInterfaces_wanted hids hnames) hok href'
    (List.mem_map_of_mem hport)
  have hsource := (syncInterfaces_source
    (wantedInterfaces_device C nodeUuid inventory ports) hr).symm
  rw [show r.id = port.uuid from hw.id] at hsource
  obtain ⟨s, hs, hid, -, -, -, hd⟩ := syncInterfacesFromData_finish hport h hr hw
  rw [← hd] at hsource
  exact ⟨s, hs, hid, hsource⟩

/-- An interface that no port names stays if it is of another device or has the name of the
BMC's. -/
theorem syncInterfacesFromData_frame
    (h : (syncInterfacesFromData C I nodeUuid inventory ports n).1 = 0)
    (hr : r ∈ n.table.rows) (hid : r.id ∉ ports.map IronicPort.uuid)
    (hname : r.device = nodeUuid → r.name = idrac ∧
      idrac ∉ ports.map (syncName C (buildInterfaceMapFromInventory C inventory))) :
    ∃ s ∈ (syncInterfacesFromData C I nodeUuid inventory ports n).2.table.rows,
      s.id = r.id ∧ s.device = r.device ∧ s.name = r.name := by
  obtain ⟨-, m, honly, heq⟩ := syncInterfacesFromData_success h
  have hloop : r ∈ (syncInterfaces (wantedInterfaces C nodeUuid inventory ports) n).2.table.rows := by
    apply syncInterfaces_frame (wantedInterfaces_device C nodeUuid inventory ports) hr
    · rw [wantedInterfaces_uuid]
      exact hid
    · rw [wantedInterfaces_name]
      rintro ⟨hd, hmem⟩
      obtain ⟨hidrac, hnot⟩ := hname hd
      exact hnot (hidrac ▸ hmem)
  obtain ⟨s, hs, hsid, hsd, hsname, -⟩ := honly.kept r hloop
  refine ⟨s, ?_, hsid, hsd, hsname⟩
  rw [heq]
  apply mem_cleanup.mpr
  refine ⟨hs, ?_⟩
  by_cases hd : r.device = nodeUuid
  · exact Or.inr (Or.inl (hsname.trans (hname hd).1))
  · exact Or.inl (hsd ▸ hd)

end NodeSync

/-! The port and portgroup handlers. -/
section Handlers

variable {new r : Interface} {set : Interface → Interface} {n : Nautobot}

theorem saveAttrs_success {intf : Interface} (hset : ∀ intf, (set intf).id = intf.id)
    (hi : intf ∈ n.table.rows) (h : (saveAttrs set intf n).1 = 0) :
    set intf ∈ (saveAttrs set intf n).2.table.rows := by
  unfold saveAttrs at h ⊢
  simp only at h ⊢
  cases hs : n.table.save (set intf) with
  | none =>
    simp only [Nautobot.save, hs] at h
    cases h
  | some t =>
    simp only [Nautobot.save, hs]
    exact (Table.mem_save hs).mpr (Or.inl ⟨rfl, intf, hi, (hset intf).symm⟩)

theorem mem_saveAttrs {intf : Interface} (hset : ∀ intf, (set intf).id = intf.id)
    (hr : r ∈ n.table.rows) (hne : r.id ≠ intf.id) :
    r ∈ (saveAttrs set intf n).2.table.rows := by
  unfold saveAttrs
  exact mem_save hr (hset intf ▸ hne)

/-- A handler that ends well has written the attributes of its event. -/
theorem createOrUpdate_success (hset : ∀ intf, (set intf).id = intf.id)
    (h : (createOrUpdate new set n).1 = 0) :
    ∃ intf : Interface, intf.id = new.id ∧
      set intf ∈ (createOrUpdate new set n).2.table.rows := by
  unfold createOrUpdate at h ⊢
  cases hg : n.table.get new.id with
  | some intf =>
    simp only [hg] at h ⊢
    obtain ⟨hi, hid⟩ := Table.get_eq_some_iff.mp hg
    exact ⟨intf, hid, saveAttrs_success hset hi h⟩
  | none =>
    simp only [hg] at h ⊢
    cases hc : n.table.create new with
    | none =>
      simp only [Nautobot.create, hc] at h
      cases h
    | some t =>
      simp only [Nautobot.create, hc] at h ⊢
      refine ⟨new, rfl, saveAttrs_success hset ?_ h⟩
      exact (Table.mem_create hc).mpr (Or.inl rfl)

theorem mem_createOrUpdate (hset : ∀ intf, (set intf).id = intf.id) (hr : r ∈ n.table.rows)
    (hne : r.id ≠ new.id) : r ∈ (createOrUpdate new set n).2.table.rows := by
  unfold createOrUpdate
  cases hg : n.table.get new.id with
  | some intf =>
    obtain ⟨-, hid⟩ := Table.get_eq_some_iff.mp hg
    have hid' : intf.id = new.id := hid
    exact mem_saveAttrs hset hr (hid' ▸ hne)
  | none =>
    simp only
    split_ifs
    · exact mem_saveAttrs hset (mem_create hr) hne
    · exact mem_create hr

theorem saveAttrs_succeeds {intf : Interface}
    (h : ∀ r ∈ n.table.rows, r.id ≠ (set intf).id →
      ¬(r.device = (set intf).device ∧ r.name = (set intf).name)) :
    (saveAttrs set intf n).1 = 0 := by
  obtain ⟨n', hs, -, -⟩ := Nautobot.save_of_free n (set intf) h
  simp only [saveAttrs, hs, if_true]

theorem mem_of_mem_saveAttrs {intf : Interface} (hset : ∀ intf, (set intf).id = intf.id)
    (hr : r ∈ (saveAttrs set intf n).2.table.rows) (hne : r.id ≠ intf.id) : r ∈ n.table.rows := by
  unfold saveAttrs at hr
  rcases mem_of_mem_save hr with heq | hr'
  · exact absurd ((congrArg Interface.id heq).trans (hset intf)) hne
  · exact hr'

/-- The handler of an event writes no record but its own. -/
theorem mem_of_mem_createOrUpdate (hset : ∀ intf, (set intf).id = intf.id)
    (hr : r ∈ (createOrUpdate new set n).2.table.rows) (hne : r.id ≠ new.id) :
    r ∈ n.table.rows := by
  have hcreate : r ∈ (n.create new).2.table.rows → r ∈ n.table.rows := by
    intro hr
    rcases mem_of_mem_create hr with heq | hr'
    · exact absurd (congrArg Interface.id heq) hne
    · exact hr'
  unfold createOrUpdate at hr
  cases hg : n.table.get new.id with
  | some intf =>
    obtain ⟨-, hid⟩ := Table.get_eq_some_iff.mp hg
    have hid' : intf.id = new.id := hid
    simp only [hg] at hr
    exact mem_of_mem_saveAttrs hset hr (hid' ▸ hne)
  | none =>
    simp only [hg] at hr
    split_ifs at hr
    · exact hcreate (mem_of_mem_saveAttrs hset hr hne)
    · exact hcreate hr

end Handlers

/-- What happens: the events of the handler table, where create and update have one handler and
update and provisioning of a node another, and the removal of a port or portgroup in Ironic whose
own event is still to come. A node event has what the handler finds: the device that it replaces,
if an older one has the node's name, the inventory and the ports. -/
inductive Event where
  | port (event : IronicPortEvent)
  | portDelete (event : IronicPortEvent)
  | portgroup (event : IronicPortgroupEvent)
  | portgroupDelete (event : IronicPortgroupEvent)
  | node (nodeUuid : Text) (replaced : Option Text) (inventory : Inventory)
      (ports : List IronicPort)
  | removed (uuid : Text)

/-- The last event of every port and portgroup, and what Ironic no longer has. No handler reads
them. -/
structure History where
  nautobot : Nautobot
  ports : List IronicPortEvent
  portgroups : List IronicPortgroupEvent
  gone : List Text

/-- Nautobot deletes the interfaces of a device with it. -/
def deleteDevice (replaced : Option Text) (n : Nautobot) : Nautobot :=
  { n with table := n.table.keep fun r => decide (some r.device ≠ replaced) }

section Histories

variable (C : Casing) (I : IdSource)

def handleNode (nodeUuid : Text) (replaced : Option Text) (inventory : Inventory)
    (ports : List IronicPort) (n : Nautobot) : ℕ × Nautobot :=
  syncInterfacesFromData C I nodeUuid inventory ports (deleteDevice replaced n)

def eventStep (s : History) : Event → History
  | .port e =>
    { s with
      nautobot := (handlePortCreateUpdate e s.nautobot).2
      ports := e :: s.ports.filter fun p => p.uuid ≠ e.uuid }
  | .portDelete e =>
    { s with nautobot := (handlePortDelete e s.nautobot).2, gone := e.uuid :: s.gone }
  | .portgroup e =>
    { s with
      nautobot := (handlePortgroupCreateUpdate e s.nautobot).2
      portgroups := e :: s.portgroups.filter fun g => g.uuid ≠ e.uuid }
  | .portgroupDelete e =>
    { s with nautobot := (handlePortgroupDelete e s.nautobot).2, gone := e.uuid :: s.gone }
  | .node nodeUuid replaced inventory ports =>
    { s with nautobot := (handleNode C I nodeUuid replaced inventory ports s.nautobot).2 }
  | .removed uuid => { s with gone := uuid :: s.gone }

namespace History

/-- The ports that have been announced and that Ironic still has. -/
def livePorts (s : History) : List IronicPortEvent := s.ports.filter fun p => p.uuid ∉ s.gone

def livePortgroups (s : History) : List IronicPortgroupEvent :=
  s.portgroups.filter fun g => g.uuid ∉ s.gone

theorem mem_livePorts {s : History} {p : IronicPortEvent} :
    p ∈ s.livePorts ↔ p ∈ s.ports ∧ p.uuid ∉ s.gone := by
  simp [livePorts]

theorem mem_livePortgroups {s : History} {g : IronicPortgroupEvent} :
    g ∈ s.livePortgroups ↔ g ∈ s.portgroups ∧ g.uuid ∉ s.gone := by
  simp [livePortgroups]

/-- Every live port and portgroup that has been announced has its interface. -/
def Preserved (s : History) : Prop :=
  (∀ p ∈ s.livePorts, ∃ r ∈ s.nautobot.table.rows, r.id = p.uuid) ∧
    ∀ g ∈ s.livePortgroups, ∃ r ∈ s.nautobot.table.rows, r.id = g.uuid

instance (s : History) : Decidable s.Preserved := by
  unfold Preserved
  infer_instance

end History

/-- The names of the ports of a node differ from each other and from those of its portgroups, and
the device that the node replaces is of no port or portgroup that Ironic still has. -/
def NamesDistinct (s : History) (nodeUuid : Text) (replaced : Option Text)
    (names : List Text) : Prop :=
  names.Nodup ∧ (∀ g ∈ s.livePortgroups, g.nodeUuid = nodeUuid → g.lagName ∉ names) ∧
    (∀ p ∈ s.livePorts, some p.nodeUuid ≠ replaced) ∧
    ∀ g ∈ s.livePortgroups, some g.nodeUuid ≠ replaced

instance (s : History) (nodeUuid : Text) (replaced : Option Text) (names : List Text) :
    Decidable (NamesDistinct s nodeUuid replaced names) := by
  unfold NamesDistinct
  infer_instance

/-- The handler ends well and no request is refused. Ironic gives no uuid twice. -/
def Handled (s : History) : Event → Prop
  | .port e =>
    (handlePortCreateUpdate e s.nautobot).1 = 0 ∧ ∀ g ∈ s.portgroups, g.uuid ≠ e.uuid
  | .portDelete e =>
    (handlePortDelete e s.nautobot).1 = 0 ∧ ∀ g ∈ s.portgroups, g.uuid ≠ e.uuid
  | .portgroup e =>
    (handlePortgroupCreateUpdate e s.nautobot).1 = 0 ∧ ∀ p ∈ s.ports, p.uuid ≠ e.uuid
  | .portgroupDelete e =>
    (handlePortgroupDelete e s.nautobot).1 = 0 ∧ ∀ p ∈ s.ports, p.uuid ≠ e.uuid
  | .node nodeUuid replaced inventory ports =>
    ((handleNode C I nodeUuid replaced inventory ports s.nautobot).1 = 0 ∧
      (handleNode C I nodeUuid replaced inventory ports s.nautobot).2.refused =
        s.nautobot.refused) ∧
    ((ports.map IronicPort.uuid).Nodup ∧
      ∀ g ∈ s.livePortgroups, g.uuid ∉ ports.map IronicPort.uuid) ∧
    NamesDistinct s nodeUuid replaced
      (ports.map (syncName C (buildInterfaceMapFromInventory C inventory)))
  | .removed _ => True

instance (s : History) : ∀ e, Decidable (Handled C I s e)
  | .port _ | .portDelete _ | .portgroup _ | .portgroupDelete _ | .node .. => by
    unfold Handled
    infer_instance
  | .removed _ => instDecidableTrue

/-- A node sync finds every port that has been announced for the node and is still there, and the
node has no portgroup but such as have the name of the interface of the BMC, which the sync does
not sweep. -/
def SparesLive (s : History) : Event → Prop
  | .node nodeUuid _ _ ports =>
    (∀ p ∈ s.livePorts, p.nodeUuid = nodeUuid → p.uuid ∈ ports.map IronicPort.uuid) ∧
      ∀ g ∈ s.livePortgroups, g.nodeUuid = nodeUuid → g.lagName = idrac
  | _ => True

instance (s : History) : ∀ e, Decidable (SparesLive s e)
  | .node .. => by
    unfold SparesLive
    infer_instance
  | .port _ | .portDelete _ | .portgroup _ | .portgroupDelete _ | .removed _ => instDecidableTrue

/-- Every live port and portgroup has its interface on its node, and a portgroup under its name. -/
structure Tracked (s : History) : Prop where
  ports : ∀ p ∈ s.livePorts, ∃ r ∈ s.nautobot.table.rows, r.id = p.uuid ∧ r.device = p.nodeUuid
  portgroups : ∀ g ∈ s.livePortgroups, ∃ r ∈ s.nautobot.table.rows,
    r.id = g.uuid ∧ r.device = g.nodeUuid ∧ r.name = g.lagName

variable {C I} {s : History}

theorem Tracked.preserved (h : Tracked s) : s.Preserved := by
  constructor
  · intro p hp
    obtain ⟨r, hr, hid, -⟩ := h.ports p hp
    exact ⟨r, hr, hid⟩
  · intro g hg
    obtain ⟨r, hr, hid, -, -⟩ := h.portgroups g hg
    exact ⟨r, hr, hid⟩

/-- What Ironic loses, and the interface of what it has lost, may go. -/
theorem Tracked.lose {n : Nautobot} {uuid : Text} (h : Tracked s)
    (hkeep : ∀ r ∈ s.nautobot.table.rows, r.id ≠ uuid → r ∈ n.table.rows) :
    Tracked { s with nautobot := n, gone := uuid :: s.gone } := by
  constructor
  · intro p hp
    obtain ⟨hmem, hlive⟩ := History.mem_livePorts.mp hp
    rw [List.mem_cons, not_or] at hlive
    obtain ⟨r, hr, hid, hd⟩ := h.ports p (History.mem_livePorts.mpr ⟨hmem, hlive.2⟩)
    exact ⟨r, hkeep r hr (hid ▸ hlive.1), hid, hd⟩
  · intro g hg
    obtain ⟨hmem, hlive⟩ := History.mem_livePortgroups.mp hg
    rw [List.mem_cons, not_or] at hlive
    obtain ⟨r, hr, hid, hrest⟩ :=
      h.portgroups g (History.mem_livePortgroups.mpr ⟨hmem, hlive.2⟩)
    exact ⟨r, hkeep r hr (hid ▸ hlive.1), hid, hrest⟩

theorem mem_handlePortDelete {e : IronicPortEvent} {n : Nautobot} {r : Interface}
    (hr : r ∈ n.table.rows) (hne : r.id ≠ e.uuid) : r ∈ (handlePortDelete e n).2.table.rows := by
  unfold handlePortDelete
  cases hg : n.table.get e.uuid with
  | none => exact hr
  | some intf =>
    have hid : intf.id = e.uuid := (Table.get_eq_some_iff.mp hg).2
    exact mem_delete.mpr ⟨hr, hid ▸ hne⟩

theorem mem_handlePortgroupDelete {e : IronicPortgroupEvent} {n : Nautobot} {r : Interface}
    (hr : r ∈ n.table.rows) (hne : r.id ≠ e.uuid) :
    r ∈ (handlePortgroupDelete e n).2.table.rows := by
  unfold handlePortgroupDelete
  cases hg : n.table.get e.uuid with
  | none => exact hr
  | some intf =>
    have hid : intf.id = e.uuid := (Table.get_eq_some_iff.mp hg).2
    exact mem_delete.mpr ⟨hr, hid ▸ hne⟩

theorem tracked_port {e : IronicPortEvent} (h : Tracked s) (ha : Handled C I s (.port e)) :
    Tracked (eventStep C I s (.port e)) := by
  obtain ⟨hok, huuid⟩ := ha
  have hset : ∀ intf, (e.set intf).id = intf.id := fun _ => rfl
  constructor
  · intro p hp
    obtain ⟨hmem, hlive⟩ := History.mem_livePorts.mp hp
    simp only [eventStep, List.mem_cons, List.mem_filter, decide_eq_true_eq] at hmem
    rcases hmem with rfl | ⟨hmem, hne⟩
    · obtain ⟨intf, hid, hrow⟩ := createOrUpdate_success hset hok
      exact ⟨_, hrow, hid, rfl⟩
    · obtain ⟨r, hr, hid, hd⟩ := h.ports p (History.mem_livePorts.mpr ⟨hmem, hlive⟩)
      exact ⟨r, mem_createOrUpdate hset hr (hid ▸ hne), hid, hd⟩
  · intro g hg
    obtain ⟨r, hr, hid, hrest⟩ := h.portgroups g hg
    have hne := huuid g (History.mem_livePortgroups.mp hg).1
    exact ⟨r, mem_createOrUpdate hset hr (hid ▸ hne), hid, hrest⟩

theorem tracked_portgroup {e : IronicPortgroupEvent} (h : Tracked s)
    (ha : Handled C I s (.portgroup e)) : Tracked (eventStep C I s (.portgroup e)) := by
  obtain ⟨hok, huuid⟩ := ha
  have hset : ∀ intf, (setPortgroup e intf).id = intf.id := fun _ => rfl
  constructor
  · intro p hp
    obtain ⟨r, hr, hid, hd⟩ := h.ports p hp
    have hne := huuid p (History.mem_livePorts.mp hp).1
    exact ⟨r, mem_createOrUpdate hset hr (hid ▸ hne), hid, hd⟩
  · intro g hg
    obtain ⟨hmem, hlive⟩ := History.mem_livePortgroups.mp hg
    simp only [eventStep, List.mem_cons, List.mem_filter, decide_eq_true_eq] at hmem
    rcases hmem with rfl | ⟨hmem, hne⟩
    · obtain ⟨intf, hid, hrow⟩ := createOrUpdate_success hset hok
      exact ⟨_, hrow, hid, rfl, rfl⟩
    · obtain ⟨r, hr, hid, hrest⟩ :=
        h.portgroups g (History.mem_livePortgroups.mpr ⟨hmem, hlive⟩)
      exact ⟨r, mem_createOrUpdate hset hr (hid ▸ hne), hid, hrest⟩

theorem mem_deleteDevice {replaced : Option Text} {n : Nautobot} {r : Interface} :
    r ∈ (deleteDevice replaced n).table.rows ↔ r ∈ n.table.rows ∧ some r.device ≠ replaced := by
  simp [deleteDevice]

theorem tracked_node {nodeUuid : Text} {replaced : Option Text} {inventory : Inventory}
    {ports : List IronicPort} (h : Tracked s)
    (ha : Handled C I s (.node nodeUuid replaced inventory ports))
    (hc : SparesLive s (.node nodeUuid replaced inventory ports)) :
    Tracked (eventStep C I s (.node nodeUuid replaced inventory ports)) := by
  obtain ⟨⟨hok, href⟩, ⟨hids, huuid⟩, hnames, hlag, hports, hgroups⟩ := ha
  obtain ⟨hfound, hidrac⟩ := hc
  constructor
  · intro p hp
    obtain ⟨r, hr, hid, hd⟩ := h.ports p hp
    have hr' : r ∈ (deleteDevice replaced s.nautobot).table.rows :=
      mem_deleteDevice.mpr ⟨hr, hd.symm ▸ hports p hp⟩
    by_cases hnode : p.nodeUuid = nodeUuid
    · obtain ⟨port, hport, huuid'⟩ := List.mem_map.mp (hfound p hp hnode)
      obtain ⟨t, ht, htid, htd⟩ :=
        syncInterfacesFromData_written hids hnames hok href hport
      refine ⟨t, ht, htid.trans huuid', ?_⟩
      rcases htd with htd | ⟨q, hq, hqid, hqd⟩
      · exact htd.trans hnode.symm
      · have hqr : q = r :=
          (deleteDevice replaced s.nautobot).table.ids q hq r hr'
            ((hqid.trans huuid').trans hid.symm)
        exact hqd.symm.trans (hqr ▸ hd)
    · obtain ⟨t, ht, htid, htd⟩ := syncInterfacesFromData_other hok hr' (hd ▸ hnode)
      exact ⟨t, ht, htid.trans hid, htd.trans hd⟩
  · intro g hg
    obtain ⟨r, hr, hid, hd, hname⟩ := h.portgroups g hg
    have hr' : r ∈ (deleteDevice replaced s.nautobot).table.rows :=
      mem_deleteDevice.mpr ⟨hr, hd.symm ▸ hgroups g hg⟩
    obtain ⟨t, ht, htid, htd, htname⟩ := syncInterfacesFromData_frame hok hr'
      (hid ▸ huuid g hg) (by
        intro hrd
        have hnode : g.nodeUuid = nodeUuid := hd.symm.trans hrd
        have heq := hidrac g hg hnode
        exact ⟨hname.trans heq, heq ▸ hlag g hg hnode⟩)
    exact ⟨t, ht, htid.trans hid, htd.trans hd, htname.trans hname⟩

theorem eventStep_tracked (e : Event) (h : Tracked s) (ha : Handled C I s e)
    (hc : SparesLive s e) : Tracked (eventStep C I s e) := by
  cases e with
  | port e => exact tracked_port h ha
  | portDelete e => exact h.lose fun r hr hne => mem_handlePortDelete hr hne
  | portgroup e => exact tracked_portgroup h ha
  | portgroupDelete e => exact h.lose fun r hr hne => mem_handlePortgroupDelete hr hne
  | node nodeUuid replaced inventory ports => exact tracked_node h ha hc
  | removed uuid => exact h.lose fun r hr _ => hr

/-- Nothing has been announced yet. -/
def startHistory (n : Nautobot) : History := ⟨n, [], [], []⟩

theorem startHistory_tracked (n : Nautobot) : Tracked (startHistory n) :=
  ⟨fun _ hp => absurd hp List.not_mem_nil, fun _ hg => absurd hg List.not_mem_nil⟩

/-- In a history in which node syncs spare what is live, the handlers keep each other's
interfaces after every event. -/
theorem live_interfaces_preserved {n : Nautobot} {events pre : List Event}
    (h : Along (eventStep C I) (fun s e => Handled C I s e ∧ SparesLive s e)
      (startHistory n) events) (hp : pre <+: events) :
    (pre.foldl (eventStep C I) (startHistory n)).Preserved :=
  (Along.invariant (fun _ e hs hok => eventStep_tracked e hs hok.1 hok.2)
    (startHistory_tracked n) h hp).preserved

def onePort : IronicPort := biosPort '1' "Slot 1".toList

def onePortEvent : IronicPortEvent where
  uuid := "p1".toList
  name := []
  address := "aa:bb".toList
  nodeUuid := "node".toList
  biosName := some "Slot 1".toList

/-- A portgroup of the given node. -/
def bondEvent (nodeUuid : Text) : IronicPortgroupEvent where
  uuid := "g1".toList
  name := some "node_bond0".toList
  nodeUuid := nodeUuid
  address := none
  mode := none

def emptyNautobot : Nautobot := ⟨Table.empty, []⟩

/-- A node with one port, and a portgroup of another node. -/
def sparingEvents : List Event :=
  [.port onePortEvent, .portgroup (bondEvent "other".toList),
    .node "node".toList none noInventory [onePort], .removed "p1".toList,
    .node "node".toList none noInventory [], .portDelete onePortEvent]

theorem sparingEvents_preserved :
    (sparingEvents.foldl (eventStep asciiCasing longerId)
      (startHistory emptyNautobot)).Preserved :=
  live_interfaces_preserved (by decide +kernel) (List.prefix_refl sparingEvents)

/-- The portgroup is of the node whose event comes next. -/
def sweepingEvents : List Event :=
  [.port onePortEvent, .portgroup (bondEvent "node".toList),
    .node "node".toList none noInventory [onePort]]

/-- The node sync takes the interface of the portgroup for stale. -/
theorem portgroup_interface_swept :
    Along (eventStep asciiCasing longerId) (Handled asciiCasing longerId)
      (startHistory emptyNautobot) sweepingEvents ∧
    ¬(sweepingEvents.foldl (eventStep asciiCasing longerId)
      (startHistory emptyNautobot)).Preserved := by
  constructor
  · decide +kernel
  · decide +kernel

end Histories

end Understack.Workflows.Interfaces
