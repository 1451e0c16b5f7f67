import Understack.Workflows.NautobotInterfaces
import Mathlib.Data.List.Nodup
import Mathlib.Data.List.Infix

/-! The node sync of the interfaces of one device: when it leaves exactly the ports of the node
and the interface of the BMC. -/
namespace Understack.Workflows.Interfaces
open PyText KeyedTable

section Requests

variable (n : Nautobot) (row : Interface)

theorem Nautobot.create_of_taken
    (h : ∃ r ∈ n.table.rows, r.id = row.id ∨ (r.device = row.device ∧ r.name = row.name)) :
    n.create row = (false, { n with refused := row :: n.refused }) := by
  have hn : n.table.create row = none := by
    rw [Table.create_eq_none_iff]
    obtain ⟨r, hr, hid | ⟨hd, hname⟩⟩ := h
    · exact ⟨r, hr, Or.inl hid⟩
    · exact ⟨r, hr, Or.inr (Prod.ext hd hname)⟩
  simp only [Nautobot.create, hn]

theorem Nautobot.create_of_free
    (h : ∀ r ∈ n.table.rows, r.id ≠ row.id ∧ ¬(r.device = row.device ∧ r.name = row.name)) :
    ∃ n', n.create row = (true, n') ∧ n'.refused = n.refused ∧
      ∀ r, r ∈ n'.table.rows ↔ r = row ∨ r ∈ n.table.rows := by
  cases hc : n.table.create row with
  | none =>
    obtain ⟨r, hr, hid | hslot⟩ := Table.create_eq_none_iff.mp hc
    · exact absurd hid (h r hr).1
    · exact absurd (Prod.mk.inj hslot) (h r hr).2
  | some t => exact ⟨{ n with table := t }, by simp only [Nautobot.create, hc], rfl,
      fun r => Table.mem_create hc⟩

theorem Nautobot.save_of_taken
    (h : ∃ r ∈ n.table.rows, r.id ≠ row.id ∧ r.device = row.device ∧ r.name = row.name) :
    n.save row = (false, { n with refused := row :: n.refused }) := by
  have hn : n.table.save row = none := by
    rw [Table.save_eq_none_iff]
    obtain ⟨r, hr, hid, hd, hname⟩ := h
    exact ⟨r, hr, hid, Prod.ext hd hname⟩
  simp only [Nautobot.save, hn]

theorem Nautobot.save_of_free
    (h : ∀ r ∈ n.table.rows, r.id ≠ row.id → ¬(r.device = row.device ∧ r.name = row.name)) :
    ∃ n', n.save row = (true, n') ∧ n'.refused = n.refused ∧
      ∀ r, r ∈ n'.table.rows ↔
        (r = row ∧ ∃ s ∈ n.table.rows, s.id = row.id) ∨ (r ∈ n.table.rows ∧ r.id ≠ row.id) := by
  cases hs : n.table.save row with
  | none =>
    obtain ⟨r, hr, hid, hslot⟩ := Table.save_eq_none_iff.mp hs
    exact absurd (Prod.mk.inj hslot) (h r hr hid)
  | some t => exact ⟨{ n with table := t }, by simp only [Nautobot.save, hs], rfl,
      fun r => Table.mem_save hs⟩

variable {n row} {r : Interface}

theorem mem_of_mem_create (hr : r ∈ (n.create row).2.table.rows) : r = row ∨ r ∈ n.table.rows := by
  by_cases h : ∃ r ∈ n.table.rows, r.id = row.id ∨ (r.device = row.device ∧ r.name = row.name)
  · rw [Nautobot.create_of_taken n row h] at hr
    exact Or.inr hr
  · push Not at h
    obtain ⟨n', hc, -, hrows⟩ := Nautobot.create_of_free n row (by simpa using h)
    rw [hc] at hr
    exact (hrows r).mp hr

theorem mem_create (hr : r ∈ n.table.rows) : r ∈ (n.create row).2.table.rows := by
  by_cases h : ∃ r ∈ n.table.rows, r.id = row.id ∨ (r.device = row.device ∧ r.name = row.name)
  · rw [Nautobot.create_of_taken n row h]
    exact hr
  · push Not at h
    obtain ⟨n', hc, -, hrows⟩ := Nautobot.create_of_free n row (by simpa using h)
    rw [hc]
    exact (hrows r).mpr (Or.inr hr)

theorem mem_of_mem_save (hr : r ∈ (n.save row).2.table.rows) : r = row ∨ r ∈ n.table.rows := by
  by_cases h : ∃ r ∈ n.table.rows, r.id ≠ row.id ∧ r.device = row.device ∧ r.name = row.name
  · rw [Nautobot.save_of_taken n row h] at hr
    exact Or.inr hr
  · push Not at h
    obtain ⟨n', hs, -, hrows⟩ := Nautobot.save_of_free n row (by simpa using h)
    rw [hs] at hr
    exact ((hrows r).mp hr).imp And.left And.left

theorem mem_save (hr : r ∈ n.table.rows) (hne : r.id ≠ row.id) :
    r ∈ (n.save row).2.table.rows := by
  by_cases h : ∃ r ∈ n.table.rows, r.id ≠ row.id ∧ r.device = row.device ∧ r.name = row.name
  · rw [Nautobot.save_of_taken n row h]
    exact hr
  · push Not at h
    obtain ⟨n', hs, -, hrows⟩ := Nautobot.save_of_free n row (by simpa using h)
    rw [hs]
    exact (hrows r).mpr (Or.inr ⟨hr, hne⟩)

/-- Saved or not, a record stays under its id. -/
theorem save_self (hr : r ∈ n.table.rows) (hid : r.id = row.id) :
    r ∈ (n.save row).2.table.rows ∨ row ∈ (n.save row).2.table.rows := by
  by_cases h : ∃ r ∈ n.table.rows, r.id ≠ row.id ∧ r.device = row.device ∧ r.name = row.name
  · rw [Nautobot.save_of_taken n row h]
    exact Or.inl hr
  · push Not at h
    obtain ⟨n', hs, -, hrows⟩ := Nautobot.save_of_free n row (by simpa using h)
    rw [hs]
    exact Or.inr ((hrows row).mpr (Or.inl ⟨rfl, r, hr, hid⟩))

theorem mem_delete {id : Text} :
    r ∈ (n.delete id).table.rows ↔ r ∈ n.table.rows ∧ r.id ≠ id := Table.mem_delete

end Requests

/-- The attributes that the update writes only where they are not empty. -/
structure InterfaceInfo.Filled (info : InterfaceInfo) : Prop where
  name : info.name ≠ []
  macAddress : info.macAddress ≠ []
  interfaceType : info.interfaceType ≠ []

/-- The interface is the one that the sync wants for a port. -/
structure Shows (r : Interface) (info : InterfaceInfo) : Prop where
  id : r.id = info.uuid
  device : r.device = info.deviceUuid
  name : r.name = info.name
  macAddress : r.macAddress = some info.macAddress
  type : r.type = info.interfaceType

section OneInterface

variable {n : Nautobot} {info : InterfaceInfo} {intf r : Interface}

theorem shows_row : Shows info.row info := ⟨rfl, rfl, rfl, rfl, rfl⟩

theorem shows_updatedRow (hf : info.Filled) (hid : intf.id = info.uuid)
    (hd : intf.device = info.deviceUuid) : Shows (updatedRow info intf) info where
  id := hid
  device := hd
  name := if_pos hf.name
  macAddress := if_pos hf.macAddress
  type := if_pos hf.interfaceType

theorem deleteNameConflict_refused : (deleteNameConflict info intf n).refused = n.refused := by
  unfold deleteNameConflict
  split_ifs with hname
  · cases n.table.getSlot (info.deviceUuid, info.name) with
    | none => rfl
    | some existing =>
      simp only
      split_ifs <;> rfl
  · rfl

theorem mem_of_mem_deleteNameConflict
    (hr : r ∈ (deleteNameConflict info intf n).table.rows) : r ∈ n.table.rows := by
  unfold deleteNameConflict at hr
  split_ifs at hr with hname
  · cases hg : n.table.getSlot (info.deviceUuid, info.name) with
    | none =>
      rw [hg] at hr
      exact hr
    | some existing =>
      simp only [hg] at hr
      split_ifs at hr with hne
      · exact (mem_delete.mp hr).1
      · exact hr
  · exact hr

theorem mem_deleteNameConflict (hr : r ∈ n.table.rows)
    (h : r.id = info.uuid ∨ ¬(r.device = info.deviceUuid ∧ r.name = info.name)) :
    r ∈ (deleteNameConflict info intf n).table.rows := by
  unfold deleteNameConflict
  split_ifs with hname
  · cases hg : n.table.getSlot (info.deviceUuid, info.name) with
    | none => exact hr
    | some existing =>
      simp only
      split_ifs with hne
      · obtain ⟨hex, hslot⟩ := Table.getSlot_eq_some_iff.mp hg
        rw [mem_delete]
        constructor
        · exact hr
        · intro heq
          rcases h with hid | hns
          · exact hne (heq.symm.trans hid)
          · have : r = existing := n.table.ids r hr existing hex heq
            exact hns (this ▸ Prod.mk.inj hslot)
      · exact hr
  · exact hr

/-- After the deletion no other interface of the device has the new name. -/
theorem deleteNameConflict_clears (hf : info.Filled) (hi : intf ∈ n.table.rows)
    (hid : intf.id = info.uuid) (hd : intf.device = info.deviceUuid)
    (hr : r ∈ (deleteNameConflict info intf n).table.rows) :
    r.id = info.uuid ∨ ¬(r.device = info.deviceUuid ∧ r.name = info.name) := by
  have hrn := mem_of_mem_deleteNameConflict hr
  by_contra hcon
  push Not at hcon
  obtain ⟨hrid, hrd, hrname⟩ := hcon
  by_cases hname : intf.name = info.name
  · -- both rows would have the same slot
    have heq : r = intf := n.table.slots r hrn intf hi
      (Prod.ext (hrd.trans hd.symm) (hrname.trans hname.symm))
    exact hrid (heq ▸ hid)
  · have hg : n.table.getSlot (info.deviceUuid, info.name) = some r :=
      Table.getSlot_eq_some_iff.mpr ⟨hrn, Prod.ext hrd hrname⟩
    simp only [deleteNameConflict, hg] at hr
    rw [if_pos ⟨hf.name, hname⟩, if_pos hrid] at hr
    exact (mem_delete.mp hr).2 rfl

theorem syncInterface_missing (h : ∀ r ∈ n.table.rows, r.id ≠ info.uuid) :
    syncInterface info n = (true, (n.create info.row).2) := by
  have hg : n.table.get info.uuid = none := Table.get_eq_none_iff.mpr h
  simp only [syncInterface, hg, createNautobotInterface]

theorem syncInterface_found (hi : intf ∈ n.table.rows) (hid : intf.id = info.uuid) :
    syncInterface info n = updateNautobotInterface info intf n := by
  have hg : n.table.get info.uuid = some intf := Table.get_eq_some_iff.mpr ⟨hi, hid⟩
  simp only [syncInterface, hg]

/-- The update of an interface that belongs to the device always goes through. -/
theorem updateNautobotInterface_home (hf : info.Filled) (hi : intf ∈ n.table.rows)
    (hid : intf.id = info.uuid) (hd : intf.device = info.deviceUuid) :
    ∃ n', updateNautobotInterface info intf n = (true, n') ∧ n'.refused = n.refused ∧
      ∀ r, r ∈ n'.table.rows ↔ r = updatedRow info intf ∨
        (r ∈ n.table.rows ∧ r.id ≠ info.uuid ∧
          ¬(r.device = info.deviceUuid ∧ r.name = info.name)) := by
  have hshows := shows_updatedRow hf hid hd
  have hclear : ∀ r ∈ (deleteNameConflict info intf n).table.rows, r.id ≠ info.uuid →
      ¬(r.device = info.deviceUuid ∧ r.name = info.name) := by
    intro r hr hne
    exact (deleteNameConflict_clears hf hi hid hd hr).resolve_left hne
  have hkept : intf ∈ (deleteNameConflict info intf n).table.rows :=
    mem_deleteNameConflict hi (Or.inl hid)
  unfold updateNautobotInterface
  simp only
  split_ifs with hsame
  · refine ⟨_, rfl, deleteNameConflict_refused, ?_⟩
    intro r
    rw [hsame]
    constructor
    · intro hr
      by_cases hrid : r.id = info.uuid
      · left
        exact n.table.ids r (mem_of_mem_deleteNameConflict hr) intf hi (hrid.trans hid.symm)
      · right
        exact ⟨mem_of_mem_deleteNameConflict hr, hrid, hclear r hr hrid⟩
    · rintro (rfl | ⟨hr, -, hns⟩)
      · exact hkept
      · exact mem_deleteNameConflict hr (Or.inr hns)
  · obtain ⟨n', hsave, hrefused, hrows⟩ :=
      Nautobot.save_of_free (deleteNameConflict info intf n) (updatedRow info intf)
        (by rw [hshows.id, hshows.device, hshows.name]; exact hclear)
    refine ⟨n', hsave, hrefused.trans deleteNameConflict_refused, ?_⟩
    intro r
    rw [hrows, hshows.id]
    constructor
    · rintro (⟨hr, -⟩ | ⟨hr, hrid⟩)
      · exact Or.inl hr
      · exact Or.inr ⟨mem_of_mem_deleteNameConflict hr, hrid, hclear r hr hrid⟩
    · rintro (hr | ⟨hr, hrid, hns⟩)
      · exact Or.inl ⟨hr, intf, hkept, hid⟩
      · exact Or.inr ⟨mem_deleteNameConflict hr (Or.inr hns), hrid⟩

theorem mem_of_mem_update (hr : r ∈ (updateNautobotInterface info intf n).2.table.rows) :
    r = updatedRow info intf ∨ r ∈ n.table.rows := by
  unfold updateNautobotInterface at hr
  simp only at hr
  split_ifs at hr with hsame
  · exact Or.inr (mem_of_mem_deleteNameConflict hr)
  · exact (mem_of_mem_save hr).imp_right mem_of_mem_deleteNameConflict

theorem mem_update (hid : intf.id = info.uuid) (hr : r ∈ n.table.rows) (hne : r.id ≠ info.uuid)
    (hns : ¬(r.device = info.deviceUuid ∧ r.name = info.name)) :
    r ∈ (updateNautobotInterface info intf n).2.table.rows := by
  have hkept : r ∈ (deleteNameConflict info intf n).table.rows :=
    mem_deleteNameConflict hr (Or.inr hns)
  unfold updateNautobotInterface
  simp only
  split_ifs with hsame
  · exact hkept
  · exact mem_save hkept fun heq => hne (heq.trans hid)

theorem update_self (hi : intf ∈ n.table.rows) (hid : intf.id = info.uuid) :
    intf ∈ (updateNautobotInterface info intf n).2.table.rows ∨
      updatedRow info intf ∈ (updateNautobotInterface info intf n).2.table.rows := by
  have hkept : intf ∈ (deleteNameConflict info intf n).table.rows :=
    mem_deleteNameConflict hi (Or.inl hid)
  unfold updateNautobotInterface
  simp only
  split_ifs with hsame
  · exact Or.inl hkept
  · exact save_self hkept rfl

/-- Every interface after a step was there before under its id and device, or is the new one. -/
theorem syncInterface_source (hr : r ∈ (syncInterface info n).2.table.rows) :
    (∃ s ∈ n.table.rows, s.id = r.id ∧ s.device = r.device) ∨
      (r.id = info.uuid ∧ r.device = info.deviceUuid) := by
  by_cases hm : ∀ r ∈ n.table.rows, r.id ≠ info.uuid
  · rw [syncInterface_missing hm] at hr
    rcases mem_of_mem_create hr with hr' | hr'
    · right
      rw [hr']
      exact ⟨rfl, rfl⟩
    · exact Or.inl ⟨r, hr', rfl, rfl⟩
  · push Not at hm
    obtain ⟨intf, hi, hid⟩ := hm
    rw [syncInterface_found hi hid] at hr
    left
    rcases mem_of_mem_update hr with hr' | hr'
    · exact ⟨intf, hi, by rw [hr']; rfl, by rw [hr']; rfl⟩
    · exact ⟨r, hr', rfl, rfl⟩

/-- An interface in nobody's way stays as it is. -/
theorem syncInterface_frame (hr : r ∈ n.table.rows) (hne : r.id ≠ info.uuid)
    (hns : ¬(r.device = info.deviceUuid ∧ r.name = info.name)) :
    r ∈ (syncInterface info n).2.table.rows := by
  by_cases hm : ∀ r ∈ n.table.rows, r.id ≠ info.uuid
  · rw [syncInterface_missing hm]
    exact mem_create hr
  · push Not at hm
    obtain ⟨intf, hi, hid⟩ := hm
    rw [syncInterface_found hi hid]
    exact mem_update hid hr hne hns

/-- An interface of another device keeps its id and its device. -/
theorem syncInterface_other (hr : r ∈ n.table.rows) (hd : r.device ≠ info.deviceUuid) :
    ∃ s ∈ (syncInterface info n).2.table.rows, s.id = r.id ∧ s.device = r.device := by
  by_cases hid : r.id = info.uuid
  · rw [syncInterface_found hr hid]
    rcases update_self hr hid with h | h
    · exact ⟨r, h, rfl, rfl⟩
    · exact ⟨updatedRow info r, h, rfl, rfl⟩
  · exact ⟨r, syncInterface_frame hr hid fun h => hd h.1, rfl, rfl⟩

end OneInterface

/-- What the sync may assume of the interfaces that it builds. -/
structure Wanted (nodeUuid : Text) (infos : List InterfaceInfo) : Prop where
  filled : ∀ info ∈ infos, info.Filled
  device : ∀ info ∈ infos, info.deviceUuid = nodeUuid
  ids : (infos.map InterfaceInfo.uuid).Nodup
  names : (infos.map InterfaceInfo.name).Nodup

/-- The record of a port, if there is one, belongs to the device. Where there is none, or where
an earlier port takes its name, no interface but those of earlier ports has the new name: the
create request would be refused. -/
def Fits (nodeUuid : Text) (rows : List Interface) (done : List InterfaceInfo)
    (info : InterfaceInfo) : Prop :=
  (∀ r ∈ rows, r.id = info.uuid → r.device = nodeUuid) ∧
    ((∀ r ∈ rows, r.id = info.uuid → r.name ∈ done.map InterfaceInfo.name) →
      ∀ r ∈ rows, r.device = nodeUuid → r.name = info.name →
        r.id ∈ done.map InterfaceInfo.uuid)

instance (nodeUuid : Text) (rows : List Interface) (done : List InterfaceInfo)
    (info : InterfaceInfo) : Decidable (Fits nodeUuid rows done info) := by
  unfold Fits
  infer_instance

/-- Every interface of the list fits after those before it. -/
def Unobstructed (nodeUuid : Text) (rows : List Interface) :
    List InterfaceInfo → List InterfaceInfo → Prop
  | _, [] => True
  | done, info :: infos =>
    Fits nodeUuid rows done info ∧ Unobstructed nodeUuid rows (done ++ [info]) infos

instance Unobstructed.decidable (nodeUuid : Text) (rows : List Interface) :
    ∀ done infos, Decidable (Unobstructed nodeUuid rows done infos)
  | _, [] => instDecidableTrue
  | done, info :: infos =>
    have := Unobstructed.decidable nodeUuid rows (done ++ [info]) infos
    inferInstanceAs
      (Decidable (Fits nodeUuid rows done info ∧ Unobstructed nodeUuid rows (done ++ [info]) infos))

/-- The interfaces after a part of the loop, by those before it. -/
structure Synced (nodeUuid : Text) (rows : List Interface) (done : List InterfaceInfo)
    (n : Nautobot) : Prop where
  shown : ∀ info ∈ done, ∃ r ∈ n.table.rows, Shows r info
  rest : ∀ r : Interface, r.id ∉ done.map InterfaceInfo.uuid →
    (r ∈ n.table.rows ↔
      r ∈ rows ∧ ¬(r.device = nodeUuid ∧ r.name ∈ done.map InterfaceInfo.name))

section Loop

variable {nodeUuid : Text} {rows : List Interface} {done infos : List InterfaceInfo}
  {info : InterfaceInfo} {n : Nautobot} {r : Interface}

theorem Wanted.new (hw : Wanted nodeUuid (done ++ [info])) :
    ∀ j ∈ done, j.uuid ≠ info.uuid ∧ j.name ≠ info.name := by
  intro j hj
  have hids := hw.ids
  have hnames := hw.names
  rw [List.map_append, List.nodup_append] at hids hnames
  exact ⟨hids.2.2 _ (List.mem_map_of_mem hj) _ (by simp),
    hnames.2.2 _ (List.mem_map_of_mem hj) _ (by simp)⟩

theorem Wanted.uuid_notMem (hw : Wanted nodeUuid (done ++ [info])) :
    info.uuid ∉ done.map InterfaceInfo.uuid := by
  intro h
  obtain ⟨j, hj, heq⟩ := List.mem_map.mp h
  exact (hw.new j hj).1 heq

theorem Wanted.name_notMem (hw : Wanted nodeUuid (done ++ [info])) :
    info.name ∉ done.map InterfaceInfo.name := by
  intro h
  obtain ⟨j, hj, heq⟩ := List.mem_map.mp h
  exact (hw.new j hj).2 heq

/-- An interface of the device that has a new name and is not of an earlier port was there
before the loop. -/
theorem Synced.holder (hw : Wanted nodeUuid (done ++ [info])) (hs : Synced nodeUuid rows done n)
    (hname : r.name = info.name) :
    r ∈ n.table.rows ↔ r ∈ rows ∧ r.id ∉ done.map InterfaceInfo.uuid := by
  constructor
  · intro hr
    have hnot : r.id ∉ done.map InterfaceInfo.uuid := by
      intro hmem
      obtain ⟨j, hj, heq⟩ := List.mem_map.mp hmem
      obtain ⟨s, hsr, hsh⟩ := hs.shown j hj
      have hrs : r = s := n.table.ids r hr s hsr (heq.symm.trans hsh.id.symm)
      exact (hw.new j hj).2 (hsh.name.symm.trans (hrs ▸ hname))
    exact ⟨((hs.rest r hnot).mp hr).1, hnot⟩
  · rintro ⟨hr, hnot⟩
    exact (hs.rest r hnot).mpr ⟨hr, fun h => hw.name_notMem (hname ▸ h.2)⟩

/-- The record of a port whose turn comes is missing just if it never was or if an earlier port
has taken its name. -/
theorem Synced.missing_iff (hw : Wanted nodeUuid (done ++ [info]))
    (hs : Synced nodeUuid rows done n)
    (hhome : ∀ r ∈ rows, r.id = info.uuid → r.device = nodeUuid) :
    (∀ r ∈ n.table.rows, r.id ≠ info.uuid) ↔
      ∀ r ∈ rows, r.id = info.uuid → r.name ∈ done.map InterfaceInfo.name := by
  constructor
  · intro hm r hr hid
    by_contra hname
    have hnot : r.id ∉ done.map InterfaceInfo.uuid := hid ▸ hw.uuid_notMem
    exact hm r ((hs.rest r hnot).mpr ⟨hr, fun h => hname h.2⟩) hid
  · intro h r hr hid
    have hnot : r.id ∉ done.map InterfaceInfo.uuid := hid ▸ hw.uuid_notMem
    obtain ⟨hrow, hkeep⟩ := (hs.rest r hnot).mp hr
    exact hkeep ⟨hhome r hrow hid, h r hrow hid⟩

theorem syncInterface_synced_found {intf : Interface}
    (hw : Wanted nodeUuid (done ++ [info])) (hs : Synced nodeUuid rows done n)
    (hi : intf ∈ n.table.rows) (hid : intf.id = info.uuid) (hd : intf.device = nodeUuid) :
    (syncInterface info n).1 = true ∧
      Synced nodeUuid rows (done ++ [info]) (syncInterface info n).2 := by
  have hmem : info ∈ done ++ [info] := by simp
  have hdev : info.deviceUuid = nodeUuid := hw.device info hmem
  obtain ⟨n', hu, -, hrows⟩ :=
    updateNautobotInterface_home (hw.filled info hmem) hi hid (hd.trans hdev.symm)
  rw [syncInterface_found hi hid, hu]
  refine ⟨rfl, ?_, ?_⟩
  · intro j hj
    rcases List.mem_append.mp hj with hj | hj
    · obtain ⟨r, hr, hsh⟩ := hs.shown j hj
      obtain ⟨hjid, hjname⟩ := hw.new j hj
      exact ⟨r, (hrows r).mpr (Or.inr ⟨hr, fun h => hjid (hsh.id.symm.trans h),
        fun h => hjname (hsh.name.symm.trans h.2)⟩), hsh⟩
    · obtain rfl : j = info := by simpa using hj
      exact ⟨_, (hrows _).mpr (Or.inl rfl),
        shows_updatedRow (hw.filled j hmem) hid (hd.trans hdev.symm)⟩
  · intro r hr
    simp only [List.map_append, List.map_cons, List.map_nil, List.mem_append,
      List.mem_singleton, not_or] at hr
    have hne : r ≠ updatedRow info intf := by
      intro heq
      rw [heq] at hr
      exact hr.2 hid
    rw [hrows, hs.rest r hr.1, hdev]
    simp only [List.map_append, List.map_cons, List.map_nil, List.mem_append, List.mem_singleton]
    tauto

theorem syncInterface_synced_missing (hw : Wanted nodeUuid (done ++ [info]))
    (hs : Synced nodeUuid rows done n) (hfit : Fits nodeUuid rows done info)
    (hm : ∀ r ∈ n.table.rows, r.id ≠ info.uuid) :
    (syncInterface info n).1 = true ∧
      Synced nodeUuid rows (done ++ [info]) (syncInterface info n).2 := by
  have hdev : info.deviceUuid = nodeUuid := hw.device info (by simp)
  have hfree := hfit.2 ((hs.missing_iff hw hfit.1).mp hm)
  obtain ⟨n', hc, -, hrows⟩ := Nautobot.create_of_free n info.row (by
    intro r hr
    refine ⟨hm r hr, ?_⟩
    rintro ⟨hd, hname⟩
    obtain ⟨hrow, hnot⟩ := (hs.holder hw hname).mp hr
    exact hnot (hfree r hrow (hd.trans hdev) hname))
  rw [syncInterface_missing hm, hc]
  refine ⟨rfl, ?_, ?_⟩
  · intro j hj
    rcases List.mem_append.mp hj with hj | hj
    · obtain ⟨r, hr, hsh⟩ := hs.shown j hj
      exact ⟨r, (hrows r).mpr (Or.inr hr), hsh⟩
    · obtain rfl : j = info := by simpa using hj
      exact ⟨j.row, (hrows _).mpr (Or.inl rfl), shows_row⟩
  · intro r hr
    simp only [List.map_append, List.map_cons, List.map_nil, List.mem_append,
      List.mem_singleton, not_or] at hr
    have hne : r ≠ info.row := by
      intro heq
      rw [heq] at hr
      exact hr.2 rfl
    rw [hrows, or_iff_right hne, hs.rest r hr.1]
    simp only [List.map_append, List.map_cons, List.map_nil, List.mem_append, List.mem_singleton]
    have := hfree r
    tauto

theorem syncInterface_synced (hw : Wanted nodeUuid (done ++ [info]))
    (hs : Synced nodeUuid rows done n) (hfit : Fits nodeUuid rows done info) :
    (syncInterface info n).1 = true ∧
      Synced nodeUuid rows (done ++ [info]) (syncInterface info n).2 := by
  by_cases hm : ∀ r ∈ n.table.rows, r.id ≠ info.uuid
  · exact syncInterface_synced_missing hw hs hfit hm
  · push Not at hm
    obtain ⟨intf, hi, hid⟩ := hm
    have hrow := ((hs.rest intf (hid ▸ hw.uuid_notMem)).mp hi).1
    exact syncInterface_synced_found hw hs hi hid (hfit.1 intf hrow hid)

theorem Wanted.upTo (hw : Wanted nodeUuid (done ++ info :: infos)) :
    Wanted nodeUuid (done ++ [info]) := by
  have heq : done ++ info :: infos = (done ++ [info]) ++ infos := by simp
  rw [heq] at hw
  have hids := hw.ids
  have hnames := hw.names
  rw [List.map_append] at hids hnames
  exact ⟨fun j hj => hw.filled j (List.mem_append_left _ hj),
    fun j hj => hw.device j (List.mem_append_left _ hj),
    (List.nodup_append.mp hids).1, (List.nodup_append.mp hnames).1⟩

/-- Where nothing is in the way the loop ends with every port shown. -/
theorem syncInterfaces_synced (hw : Wanted nodeUuid (done ++ infos))
    (hs : Synced nodeUuid rows done n) (hu : Unobstructed nodeUuid rows done infos) :
    (syncInterfaces infos n).1 = true ∧
      Synced nodeUuid rows (done ++ infos) (syncInterfaces infos n).2 := by
  induction infos generalizing done n with
  | nil =>
    rw [List.append_nil]
    exact ⟨rfl, hs⟩
  | cons info infos ih =>
    obtain ⟨hok, hs'⟩ := syncInterface_synced hw.upTo hs hu.1
    have heq : done ++ info :: infos = (done ++ [info]) ++ infos := by simp
    rw [heq] at hw ⊢
    simp only [syncInterfaces, hok, if_true]
    exact ih hw hs' hu.2

/-- A record that is missing stays missing until its own turn. -/
theorem syncInterfaces_missing {id : Text} (hid : id ∉ infos.map InterfaceInfo.uuid)
    (hm : ∀ r ∈ n.table.rows, r.id ≠ id) :
    ∀ r ∈ (syncInterfaces infos n).2.table.rows, r.id ≠ id := by
  induction infos generalizing n with
  | nil => exact hm
  | cons info infos ih =>
    rw [List.map_cons, List.mem_cons, not_or] at hid
    have hstep : ∀ r ∈ (syncInterface info n).2.table.rows, r.id ≠ id := by
      intro r hr heq
      rcases syncInterface_source hr with ⟨s, hs, hsid, -⟩ | ⟨hrid, -⟩
      · exact hm s hs (hsid.trans heq)
      · exact hid.1 (heq.symm.trans hrid)
    simp only [syncInterfaces]
    split_ifs with hok
    · exact ih hid.2 hstep
    · exact hstep

theorem syncInterfaces_other (hdev : ∀ info ∈ infos, info.deviceUuid = nodeUuid)
    (hr : r ∈ n.table.rows) (hd : r.device ≠ nodeUuid) :
    ∃ s ∈ (syncInterfaces infos n).2.table.rows, s.id = r.id ∧ s.device = r.device := by
  induction infos generalizing n r with
  | nil => exact ⟨r, hr, rfl, rfl⟩
  | cons info infos ih =>
    obtain ⟨hinfo, hinfos⟩ := List.forall_mem_cons.mp hdev
    obtain ⟨s, hs, hid, hdv⟩ := syncInterface_other hr (hinfo.symm ▸ hd)
    simp only [syncInterfaces]
    split_ifs with hok
    · obtain ⟨s', hs', hid', hdv'⟩ := ih hinfos hs (hdv ▸ hd)
      exact ⟨s', hs', hid'.trans hid, hdv'.trans hdv⟩
    · exact ⟨s, hs, hid, hdv⟩

/-- A port that is shown at the end had nothing in its way. -/
theorem unobstructed_of_shown (hw : Wanted nodeUuid (done ++ infos))
    (hs : Synced nodeUuid rows done n) (hok : (syncInterfaces infos n).1 = true)
    (hhome : ∀ info ∈ infos, ∀ r ∈ rows, r.id = info.uuid → r.device = nodeUuid)
    (hshown : ∀ info ∈ infos, ∃ r ∈ (syncInterfaces infos n).2.table.rows, Shows r info) :
    Unobstructed nodeUuid rows done infos := by
  induction infos generalizing done n with
  | nil => trivial
  | cons info infos ih =>
    obtain ⟨hh, hhs⟩ := List.forall_mem_cons.mp hhome
    have hwp := hw.upTo
    have hfit : Fits nodeUuid rows done info := by
      refine ⟨hh, ?_⟩
      intro hgone r hr hd hname
      have hm := (hs.missing_iff hwp hh).mpr hgone
      by_contra hnot
      -- the create request is refused, and no later step creates the record
      have htaken := Nautobot.create_of_taken n info.row
        ⟨r, (hs.holder hwp hname).mpr ⟨hr, hnot⟩,
          Or.inr ⟨hd.trans (hwp.device info (by simp)).symm, hname⟩⟩
      have hstep : syncInterfaces (info :: infos) n =
          syncInterfaces infos { n with refused := info.row :: n.refused } := by
        simp only [syncInterfaces, syncInterface_missing hm, htaken, if_true]
      obtain ⟨s, hs', hsh⟩ := hshown info List.mem_cons_self
      rw [hstep] at hs'
      have hlater : info.uuid ∉ infos.map InterfaceInfo.uuid := by
        have hids := hw.ids
        rw [List.map_append, List.map_cons] at hids
        exact (List.nodup_cons.mp (List.nodup_append.mp hids).2.1).1
      exact syncInterfaces_missing (n := { n with refused := info.row :: n.refused }) hlater hm
        s hs' hsh.id
    obtain ⟨hok', hs'⟩ := syncInterface_synced hwp hs hfit
    have hstep : syncInterfaces (info :: infos) n =
        syncInterfaces infos (syncInterface info n).2 := by
      simp only [syncInterfaces, hok', if_true]
    rw [hstep] at hok hshown
    have heq : done ++ info :: infos = (done ++ [info]) ++ infos := by simp
    rw [heq] at hw
    exact ⟨hfit, ih hw hs' hok hhs fun j hj => hshown j (List.mem_cons_of_mem _ hj)⟩

end Loop

/-! What the sync builds of the ports. -/
section Build

theorem firstNonempty_ne_nil {texts : List Text} {last : Text} (h : last ≠ []) :
    firstNonempty texts last ≠ [] := by
  unfold firstNonempty
  cases hf : texts.find? (· ≠ []) with
  | none => exact h
  | some text => simpa using List.find?_some hf

variable (C : Casing)

/-- Casing is a map on ASCII, and the second casing undoes the first. -/
theorem map_map_ascii {f g : Char → Char} {second : Text → Text} {s : Text}
    (hsecond : ∀ s : Text, (∀ c ∈ s, c.toNat < 128) → second s = s.map g)
    (hall : ∀ k < 128, (f (Char.ofNat k)).toNat < 128 ∧ g (f (Char.ofNat k)) = g (Char.ofNat k))
    (h : ∀ c ∈ s, c.toNat < 128) : second (s.map f) = second s := by
  have hchar : ∀ c ∈ s, (f c).toNat < 128 ∧ g (f c) = g c := by
    intro c hc
    have hc' := hall c.toNat (h c hc)
    rwa [Char.ofNat_toNat] at hc'
  rw [hsecond s h, hsecond, List.map_map]
  · exact List.map_congr_left fun c hc => (hchar c hc).2
  · intro c hc
    obtain ⟨d, hd, rfl⟩ := List.mem_map.mp hc
    exact (hchar d hd).1

theorem Casing.upper_lower (s : Text) (h : ∀ c ∈ s, c.toNat < 128) :
    C.upper (C.lower s) = C.upper s := by
  rw [C.lower_ascii s h]
  exact map_map_ascii C.upper_ascii (by decide) h

theorem Casing.lower_upper (s : Text) (h : ∀ c ∈ s, c.toNat < 128) :
    C.lower (C.upper s) = C.lower s := by
  rw [C.upper_ascii s h]
  exact map_map_ascii C.lower_ascii (by decide) h

theorem getInterfaceType_eq (name : Text) :
    getInterfaceType C name = sfp28 ∨ getInterfaceType C name = defaultInterfaceType := by
  unfold getInterfaceType
  cases hf : interfaceTypeMap.find? fun e => isIn e.1 (C.lower name) with
  | none => exact Or.inr rfl
  | some e =>
    left
    have he := List.mem_of_find?_eq_some hf
    simp only [interfaceTypeMap, List.mem_cons, List.not_mem_nil, or_false] at he
    rcases he with rfl | rfl | rfl <;> rfl

theorem buildInterface_filled (nodeUuid : Text) (inventoryMap : List (Text × Text))
    (port : IronicPort) : (buildInterface C nodeUuid inventoryMap port).Filled where
  name := firstNonempty_ne_nil port.uuid_ne
  macAddress := by
    show C.upper (C.lower port.address.text) ≠ []
    rw [C.upper_lower _ port.address.ascii, C.upper_ascii _ port.address.ascii]
    simpa using port.address.nonempty
  interfaceType := by
    show getInterfaceType C _ ≠ []
    rcases getInterfaceType_eq C (syncName C inventoryMap port) with h | h <;> rw [h] <;> decide

end Build

/-! The last two steps of the sync. -/
section Finish

variable (C : Casing) (I : IdSource) {nodeUuid : Text} {n : Nautobot} {r : Interface}

/-- Only the interface of the BMC differs, and no interface is lost. One that is new has the type
of a BMC's. -/
structure IdracOnly (nodeUuid : Text) (n n' : Nautobot) : Prop where
  refused : n'.refused = n.refused
  rest : ∀ r : Interface, ¬(r.device = nodeUuid ∧ r.name = idrac) →
    (r ∈ n'.table.rows ↔ r ∈ n.table.rows)
  kept : ∀ r ∈ n.table.rows, ∃ s ∈ n'.table.rows,
    s.id = r.id ∧ s.device = r.device ∧ s.name = r.name ∧ s.type = r.type
  new : ∀ r ∈ n'.table.rows,
    (∃ s ∈ n.table.rows, s.id = r.id) ∨ r.type = "1000base-t".toList

theorem IdracOnly.refl (nodeUuid : Text) (n : Nautobot) : IdracOnly nodeUuid n n :=
  ⟨rfl, fun _ _ => Iff.rfl, fun r hr => ⟨r, hr, rfl, rfl, rfl, rfl⟩,
    fun r hr => Or.inl ⟨r, hr, rfl⟩⟩

theorem idracOnly_save {existing : Interface} (mac : Option Text) (he : existing ∈ n.table.rows)
    (hslot : existing.device = nodeUuid ∧ existing.name = idrac) :
    ∃ n', n.save { existing with macAddress := mac } = (true, n') ∧ IdracOnly nodeUuid n n' := by
  obtain ⟨n', hs, hrefused, hrows⟩ :=
    Nautobot.save_of_free n { existing with macAddress := mac } (by
      intro r hr hid hsame
      have heq : r = existing := n.table.slots r hr existing he (Prod.ext hsame.1 hsame.2)
      exact hid (heq ▸ rfl))
  refine ⟨n', hs, hrefused, ?_, ?_, ?_⟩
  · intro r hr
    rw [hrows]
    constructor
    · rintro (⟨heq, -⟩ | ⟨hmem, -⟩)
      · rw [heq] at hr
        exact absurd hslot hr
      · exact hmem
    · intro hmem
      right
      refine ⟨hmem, ?_⟩
      intro hid
      have heq : r = existing := n.table.ids r hmem existing he hid
      exact hr (heq ▸ hslot)
  · intro r hr
    by_cases hid : r.id = existing.id
    · have heq : r = existing := n.table.ids r hr existing he hid
      rw [heq]
      exact ⟨_, (hrows _).mpr (Or.inl ⟨rfl, existing, he, rfl⟩), rfl, rfl, rfl, rfl⟩
    · exact ⟨r, (hrows r).mpr (Or.inr ⟨hr, hid⟩), rfl, rfl, rfl, rfl⟩
  · intro r hr
    left
    rcases (hrows r).mp hr with ⟨heq, -⟩ | ⟨hmem, -⟩
    · exact ⟨existing, he, by rw [heq]⟩
    · exact ⟨r, hmem, rfl⟩

theorem idracOnly_create {row : Interface} (hid : ∀ r ∈ n.table.rows, r.id ≠ row.id)
    (hslot : row.device = nodeUuid ∧ row.name = idrac) (htype : row.type = "1000base-t".toList)
    (hfree : ∀ r ∈ n.table.rows, ¬(r.device = nodeUuid ∧ r.name = idrac)) :
    ∃ n', n.create row = (true, n') ∧ IdracOnly nodeUuid n n' := by
  obtain ⟨n', hc, hrefused, hrows⟩ := Nautobot.create_of_free n row
    fun r hr => ⟨hid r hr, by rw [hslot.1, hslot.2]; exact hfree r hr⟩
  refine ⟨n', hc, hrefused, ?_, ?_, ?_⟩
  · intro r hr
    have hne : r ≠ row := fun heq => hr (heq ▸ hslot)
    rw [hrows, or_iff_right hne]
  · intro r hr
    exact ⟨r, (hrows r).mpr (Or.inr hr), rfl, rfl, rfl, rfl⟩
  · intro r hr
    rcases (hrows r).mp hr with rfl | hmem
    · exact Or.inr htype
    · exact Or.inl ⟨r, hmem, rfl⟩

theorem syncIdracInterface_idracOnly (mac : Text) :
    ∃ n', syncIdracInterface C I nodeUuid mac n = (true, n') ∧ IdracOnly nodeUuid n n' := by
  unfold syncIdracInterface
  cases hg : n.table.getSlot (nodeUuid, idrac) with
  | some existing =>
    obtain ⟨he, hslot⟩ := Table.getSlot_eq_some_iff.mp hg
    simp only
    split_ifs with hmac
    · exact idracOnly_save _ he (Prod.mk.inj hslot)
    · exact ⟨n, rfl, IdracOnly.refl nodeUuid n⟩
  | none =>
    have hfree := Table.getSlot_eq_none_iff.mp hg
    refine idracOnly_create ?_ ⟨rfl, rfl⟩ rfl
      fun r hr hslot => hfree r hr (Prod.ext hslot.1 hslot.2)
    intro r hr heq
    have hmem : r.id ∈ n.table.rows.map Interface.id := List.mem_map_of_mem hr
    rw [heq] at hmem
    exact I.fresh _ hmem

theorem mem_cleanup {valid : List Text} :
    r ∈ (cleanupStaleInterfaces nodeUuid valid n).table.rows ↔
      r ∈ n.table.rows ∧ (r.device ≠ nodeUuid ∨ r.name = idrac ∨ r.id ∈ valid) := by
  simp [cleanupStaleInterfaces]

variable {C I} {inventory : Inventory} {ports : List IronicPort}

/-- The interfaces that the sync builds of a node's ports. -/
def wantedInterfaces (C : Casing) (nodeUuid : Text) (inventory : Inventory)
    (ports : List IronicPort) : List InterfaceInfo :=
  buildInterfacesFromPorts C nodeUuid ports (buildInterfaceMapFromInventory C inventory)

theorem syncInterfacesFromData_success
    (h : (syncInterfacesFromData C I nodeUuid inventory ports n).1 = 0) :
    (syncInterfaces (wantedInterfaces C nodeUuid inventory ports) n).1 = true ∧
      ∃ m, IdracOnly nodeUuid
          (syncInterfaces (wantedInterfaces C nodeUuid inventory ports) n).2 m ∧
        (syncInterfacesFromData C I nodeUuid inventory ports n).2 =
          cleanupStaleInterfaces nodeUuid
            ((wantedInterfaces C nodeUuid inventory ports).map InterfaceInfo.uuid) m := by
  unfold syncInterfacesFromData at h ⊢
  unfold wantedInterfaces
  simp only at h ⊢
  generalize buildInterfacesFromPorts C nodeUuid ports
    (buildInterfaceMapFromInventory C inventory) = infos at h ⊢
  split_ifs at h ⊢ with hnode hsynced hmac hmanaged hmanaged
  · obtain ⟨m, hm, honly⟩ := syncIdracInterface_idracOnly C I (n := (syncInterfaces infos n).2)
      (inventory.bmcMac.getD [])
    exact ⟨hsynced, m, honly, by rw [hm]⟩
  · exact ⟨hsynced, _, IdracOnly.refl nodeUuid _, rfl⟩

/-- A sync that fails does so before the loop or in it. -/
theorem syncInterfacesFromData_failure
    (h : (syncInterfacesFromData C I nodeUuid inventory ports n).1 ≠ 0) :
    (nodeUuid = [] ∧ (syncInterfacesFromData C I nodeUuid inventory ports n).2 = n) ∨
      ((syncInterfaces (wantedInterfaces C nodeUuid inventory ports) n).1 ≠ true ∧
        (syncInterfacesFromData C I nodeUuid inventory ports n).2 =
          (syncInterfaces (wantedInterfaces C nodeUuid inventory ports) n).2) := by
  unfold syncInterfacesFromData at h ⊢
  unfold wantedInterfaces
  simp only at h ⊢
  generalize buildInterfacesFromPorts C nodeUuid ports
    (buildInterfaceMapFromInventory C inventory) = infos at h ⊢
  split_ifs at h ⊢ with hnode hsynced hmac hmanaged hmanaged
  · exact Or.inl ⟨hnode, rfl⟩
  · exact absurd rfl h
  · obtain ⟨m, hm, -⟩ := syncIdracInterface_idracOnly C I (n := (syncInterfaces infos n).2)
      (inventory.bmcMac.getD [])
    rw [hm] at hmanaged
    exact absurd rfl hmanaged
  · exact absurd rfl h
  · exact absurd rfl hmanaged
  · exact Or.inr ⟨hsynced, rfl⟩

end Finish

/-- The interface of the device that is as the port says. -/
structure Mirrors (C : Casing) (nodeUuid : Text) (inventory : Inventory) (r : Interface)
    (port : IronicPort) : Prop where
  id : r.id = port.uuid
  device : r.device = nodeUuid
  name : r.name = syncName C (buildInterfaceMapFromInventory C inventory) port
  macAddress : r.macAddress = some (C.upper port.address.text)
  type : r.type = getInterfaceType C r.name

/-- The interfaces of the device are one for each port, and at most one for the BMC. -/
structure Exact (C : Casing) (nodeUuid : Text) (inventory : Inventory) (ports : List IronicPort)
    (rows : List Interface) : Prop where
  present : ∀ port ∈ ports, ∃ r ∈ rows, Mirrors C nodeUuid inventory r port
  only : ∀ r ∈ rows, r.device = nodeUuid →
    r.name = idrac ∨ ∃ port ∈ ports, Mirrors C nodeUuid inventory r port
  once : ∀ r ∈ rows, ∀ s ∈ rows, r.device = nodeUuid → s.device = nodeUuid →
    r.id = s.id ∨ (r.name = idrac ∧ s.name = idrac) → r = s

section Exactness

variable {C : Casing} {I : IdSource} {nodeUuid : Text} {inventory : Inventory}
  {ports : List IronicPort} {n : Nautobot}

theorem mirrors_iff {r : Interface} {port : IronicPort} :
    Mirrors C nodeUuid inventory r port ↔
      Shows r (buildInterface C nodeUuid (buildInterfaceMapFromInventory C inventory) port) := by
  have hmac := C.upper_lower port.address.text port.address.ascii
  constructor
  · intro h
    exact ⟨h.id, h.device, h.name, h.macAddress.trans (congrArg some hmac.symm),
      h.type.trans (congrArg (getInterfaceType C) h.name)⟩
  · intro h
    exact ⟨h.id, h.device, h.name, h.macAddress.trans (congrArg some hmac),
      h.type.trans (congrArg (getInterfaceType C) h.name.symm)⟩

theorem wantedInterfaces_uuid (C : Casing) (nodeUuid : Text) (inventory : Inventory)
    (ports : List IronicPort) :
    (wantedInterfaces C nodeUuid inventory ports).map InterfaceInfo.uuid =
      ports.map IronicPort.uuid := by
  simp [wantedInterfaces, buildInterfacesFromPorts, Function.comp_def, buildInterface]

theorem wantedInterfaces_name (C : Casing) (nodeUuid : Text) (inventory : Inventory)
    (ports : List IronicPort) :
    (wantedInterfaces C nodeUuid inventory ports).map InterfaceInfo.name =
      ports.map (syncName C (buildInterfaceMapFromInventory C inventory)) := by
  simp [wantedInterfaces, buildInterfacesFromPorts, Function.comp_def, buildInterface]

theorem wantedInterfaces_device (C : Casing) (nodeUuid : Text) (inventory : Inventory)
    (ports : List IronicPort) :
    ∀ info ∈ wantedInterfaces C nodeUuid inventory ports, info.deviceUuid = nodeUuid := by
  intro info hinfo
  obtain ⟨port, -, rfl⟩ := List.mem_map.mp hinfo
  rfl

theorem wantedInterfaces_wanted (hids : (ports.map IronicPort.uuid).Nodup)
    (hnames : (ports.map (syncName C (buildInterfaceMapFromInventory C inventory))).Nodup) :
    Wanted nodeUuid (wantedInterfaces C nodeUuid inventory ports) := by
  refine ⟨?_, wantedInterfaces_device C nodeUuid inventory ports, ?_, ?_⟩
  · intro info hinfo
    obtain ⟨port, -, rfl⟩ := List.mem_map.mp hinfo
    exact buildInterface_filled C nodeUuid _ port
  · rw [wantedInterfaces_uuid]
    exact hids
  · rw [wantedInterfaces_name]
    exact hnames

/-- A row that is not the BMC's is there after the sync if the loop left it and it is of another
device or of a port. -/
theorem mem_syncInterfacesFromData
    (h : (syncInterfacesFromData C I nodeUuid inventory ports n).1 = 0) {r : Interface}
    (hr : ¬(r.device = nodeUuid ∧ r.name = idrac)) :
    r ∈ (syncInterfacesFromData C I nodeUuid inventory ports n).2.table.rows ↔
      r ∈ (syncInterfaces (wantedInterfaces C nodeUuid inventory ports) n).2.table.rows ∧
        (r.device ≠ nodeUuid ∨
          r.id ∈ (wantedInterfaces C nodeUuid inventory ports).map InterfaceInfo.uuid) := by
  obtain ⟨-, m, honly, heq⟩ := syncInterfacesFromData_success h
  rw [heq, mem_cleanup, honly.rest r hr]
  tauto

theorem exact_of_unobstructed
    (hw : Wanted nodeUuid (wantedInterfaces C nodeUuid inventory ports))
    (hidrac : idrac ∉ ports.map (syncName C (buildInterfaceMapFromInventory C inventory)))
    (h : (syncInterfacesFromData C I nodeUuid inventory ports n).1 = 0)
    (hu : Unobstructed nodeUuid n.table.rows [] (wantedInterfaces C nodeUuid inventory ports)) :
    Exact C nodeUuid inventory ports
      (syncInterfacesFromData C I nodeUuid inventory ports n).2.table.rows := by
  have hstart : Synced nodeUuid n.table.rows [] n := ⟨by simp, by simp⟩
  obtain ⟨-, hs⟩ := syncInterfaces_synced hw hstart hu
  rw [List.nil_append] at hs
  refine ⟨?_, ?_, ?_⟩
  · intro port hport
    have hname : syncName C (buildInterfaceMapFromInventory C inventory) port ≠ idrac :=
      fun heq => hidrac (heq ▸ List.mem_map_of_mem hport)
    have hinfo := List.mem_map_of_mem
      (f := buildInterface C nodeUuid (buildInterfaceMapFromInventory C inventory)) hport
    obtain ⟨r, hr, hsh⟩ := hs.shown _ hinfo
    have hm := mirrors_iff.mpr hsh
    refine ⟨r, (mem_syncInterfacesFromData h ?_).mpr ⟨hr, Or.inr ?_⟩, hm⟩
    · intro hslot
      exact hname (hm.name.symm.trans hslot.2)
    · rw [hsh.id]
      exact List.mem_map_of_mem hinfo
  · intro r hr hd
    by_cases hname : r.name = idrac
    · exact Or.inl hname
    · right
      obtain ⟨hloop, hvalid⟩ := (mem_syncInterfacesFromData h fun hslot => hname hslot.2).mp hr
      obtain ⟨info, hinfo, hid⟩ := List.mem_map.mp (hvalid.resolve_left (not_not.mpr hd))
      obtain ⟨s, hsr, hsh⟩ := hs.shown info hinfo
      have hrs : r = s := (syncInterfaces _ n).2.table.ids r hloop s hsr
        (hid.symm.trans hsh.id.symm)
      obtain ⟨port, hport, rfl⟩ := List.mem_map.mp hinfo
      exact ⟨port, hport, mirrors_iff.mpr (hrs ▸ hsh)⟩
  · intro r hr s hs' hrd hsd hsame
    rcases hsame with hid | hnames
    · exact Table.ids _ r hr s hs' hid
    · exact Table.slots _ r hr s hs'
        (Prod.ext (hrd.trans hsd.symm) (hnames.1.trans hnames.2.symm))

theorem unobstructed_of_exact
    (hw : Wanted nodeUuid (wantedInterfaces C nodeUuid inventory ports))
    (hidrac : idrac ∉ ports.map (syncName C (buildInterfaceMapFromInventory C inventory)))
    (h : (syncInterfacesFromData C I nodeUuid inventory ports n).1 = 0)
    (he : Exact C nodeUuid inventory ports
      (syncInterfacesFromData C I nodeUuid inventory ports n).2.table.rows) :
    Unobstructed nodeUuid n.table.rows [] (wantedInterfaces C nodeUuid inventory ports) := by
  have hstart : Synced nodeUuid n.table.rows [] n := ⟨by simp, by simp⟩
  apply unobstructed_of_shown hw hstart (syncInterfacesFromData_success h).1
  · -- an interface of another device would still be there under the same id
    intro info hinfo r hr hid
    by_contra hd
    obtain ⟨s, hs, hsid, hsd⟩ := syncInterfaces_other hw.device hr hd
    have hsn : s.device ≠ nodeUuid := hsd ▸ hd
    have hsr := (mem_syncInterfacesFromData h fun hslot => hsn hslot.1).mpr ⟨hs, Or.inl hsn⟩
    obtain ⟨port, hport, rfl⟩ := List.mem_map.mp hinfo
    obtain ⟨t, ht, hm⟩ := he.present port hport
    have hst : s = t := Table.ids _ s hsr t ht ((hsid.trans hid).trans hm.id.symm)
    exact hsn (hst ▸ hm.device)
  · intro info hinfo
    obtain ⟨port, hport, rfl⟩ := List.mem_map.mp hinfo
    obtain ⟨r, hr, hm⟩ := he.present port hport
    have hname : r.name ≠ idrac := by
      rw [hm.name]
      exact fun heq => hidrac (heq ▸ List.mem_map_of_mem hport)
    exact ⟨r, ((mem_syncInterfacesFromData h fun hslot => hname hslot.2).mp hr).1,
      mirrors_iff.mp hm⟩

theorem replicate_notMem (ids : List Text) :
    List.replicate (ids.flatten.length + 1) '0' ∉ ids := by
  intro hmem
  have hle := (List.sublist_flatten_of_mem hmem).length_le
  rw [List.length_replicate] at hle
  exact Nat.not_succ_le_self _ hle

/-- An id longer than all others. -/
def longerId : IdSource where
  next := fun ids => List.replicate (ids.flatten.length + 1) '0'
  fresh := replicate_notMem

def noInventory : Inventory := ⟨[], none⟩

def shortMac : MacAddress := ⟨"aa:bb".toList, by decide, ascii_of_all (by decide)⟩

/-- A numbered port, which has its name from the BIOS. -/
def biosPort (number : Char) (name : Text) : IronicPort where
  uuid := ['p', number]
  uuid_ne := List.cons_ne_nil _ _
  address := shortMac
  name := none
  biosName := some name

/-- An interface of the node. -/
def nodeInterface (id name : Text) : Interface :=
  { newInterface id with device := "node".toList, name := name, type := sfp28 }

/-- A successful sync is exact just if no port is in the way of another or of a record that the
sync cannot move. -/
theorem syncInterfacesFromData_exact_iff (hids : (ports.map IronicPort.uuid).Nodup)
    (hnames : (ports.map (syncName C (buildInterfaceMapFromInventory C inventory))).Nodup)
    (hidrac : idrac ∉ ports.map (syncName C (buildInterfaceMapFromInventory C inventory)))
    (h : (syncInterfacesFromData C I nodeUuid inventory ports n).1 = 0) :
    Exact C nodeUuid inventory ports
        (syncInterfacesFromData C I nodeUuid inventory ports n).2.table.rows ↔
      Unobstructed nodeUuid n.table.rows [] (wantedInterfaces C nodeUuid inventory ports) := by
  have hw : Wanted nodeUuid (wantedInterfaces C nodeUuid inventory ports) :=
    wantedInterfaces_wanted hids hnames
  exact ⟨unobstructed_of_exact hw hidrac h, exact_of_unobstructed hw hidrac h⟩

/-- Two ports that have exchanged their names. -/
def exchangedPorts : List IronicPort :=
  [biosPort '1' "Slot 1".toList, biosPort '2' "Slot 2".toList]

def exchangedRecords : Nautobot where
  table :=
    { rows := [nodeInterface "p1".toList "Slot 2".toList, nodeInterface "p2".toList "Slot 1".toList]
      ids := by decide
      slots := by decide }
  refused := []

theorem exchanged_names_exact :
    Exact asciiCasing "node".toList noInventory exchangedPorts
      (syncInterfacesFromData asciiCasing longerId "node".toList noInventory exchangedPorts
        exchangedRecords).2.table.rows :=
  (syncInterfacesFromData_exact_iff (by decide) (by decide) (by decide)
    (by decide +kernel)).mpr (by decide +kernel)

/-- A new port that has the name of an interface whose port is gone. -/
def staleRecord : Nautobot where
  table :=
    { rows := [nodeInterface "p0".toList "Slot 1".toList]
      ids := by decide
      slots := by decide }
  refused := []

def newPort : IronicPort := biosPort '1' "Slot 1".toList

/-- The create request is refused, the record in its way is then swept, and nothing is left. -/
theorem new_port_lost :
    (syncInterfacesFromData asciiCasing longerId "node".toList noInventory [newPort]
      staleRecord).1 = 0 ∧
    ([newPort].map (syncName asciiCasing
      (buildInterfaceMapFromInventory asciiCasing noInventory))).Nodup ∧
    idrac ∉ [newPort].map (syncName asciiCasing
      (buildInterfaceMapFromInventory asciiCasing noInventory)) ∧
    ¬Exact asciiCasing "node".toList noInventory [newPort]
      (syncInterfacesFromData asciiCasing longerId "node".toList noInventory [newPort]
        staleRecord).2.table.rows := by
  have hrows : (syncInterfacesFromData asciiCasing longerId "node".toList noInventory [newPort]
      staleRecord).2.table.rows = [] := by decide +kernel
  refine ⟨by decide +kernel, by decide +kernel, by decide +kernel, ?_⟩
  intro he
  obtain ⟨r, hr, -⟩ := he.present newPort List.mem_cons_self
  rw [hrows] at hr
  exact absurd hr List.not_mem_nil

end Exactness

end Understack.Workflows.Interfaces
