import Mathlib.Algebra.Group.Int.Defs
import Mathlib.Data.Char
import Mathlib.Data.Int.Order.Basic
import Mathlib.Data.List.Perm.Basic
import Mathlib.Data.Prod.Lex
import Mathlib.Tactic.Common
import Understack.Lib.Grouping
import Understack.Lib.PyText

/-! The RAID configuration of `raid.py`: the disks behind RAID controllers, grouped by size and
controller into logical disks. -/
namespace Understack.Workflows.Raid
open PyText Grouping Runs

structure PhysicalDisk where
  id : Text
  controller : Text
  sizeGb : ℤ
  deriving DecidableEq, Repr

structure Drive where
  id : Option Text
  size : Option ℤ
  deriving DecidableEq, Repr

structure StorageController where
  id : Option Text
  drives : Option (List Drive)
  deriving DecidableEq, Repr

/-- The inspection data; `none` is a key that is not there. -/
structure Inventory where
  storageControllers : Option (List StorageController)
  deriving DecidableEq, Repr

structure KeyError where
  key : Text
  deriving DecidableEq, Repr

structure LogicalDisk where
  controller : Text
  physicalDisks : List Text
  raidLevel : Text
  sizeGb : Text
  isRootVolume : Bool
  deriving DecidableEq, Repr

def physicalDisk (controllerId : Text) (disk : Drive) : Except KeyError PhysicalDisk :=
  match disk.id with
  | none => .error ⟨"id".toList⟩
  | some id =>
    match disk.size with
    | none => .error ⟨"size".toList⟩
    | some size => .ok { id := id, controller := controllerId, sizeGb := size / 10 ^ 9 }

section Inventories
-- `str.upper`
variable (upper : Text → Text)

/-- `str(storage_controller.get("id"))`. -/
def controllerId (storageController : StorageController) : Text :=
  storageController.id.getD "None".toList

def isRaid (storageController : StorageController) : Bool :=
  isIn "RAID".toList (upper (controllerId storageController))

def physicalDisksForController (storageController : StorageController) :
    Except KeyError (List PhysicalDisk) :=
  if isRaid upper storageController then
    PySets.collect (physicalDisk (controllerId storageController))
      (storageController.drives.getD [])
  else .ok []

/-- `inventory` is what `inventory.get("inventory", {})` finds. -/
def physicalDisksFromInventory (inventory : Option Inventory) :
    Except KeyError (List PhysicalDisk) := do
  let storageControllers := (inventory.bind Inventory.storageControllers).getD []
  let disks ← storageControllers.mapM (physicalDisksForController upper)
  return disks.flatten.dedup

end Inventories

/-- Python's order of the tuples `(disk.size_gb, disk.controller)`. -/
abbrev Key := ℤ ×ₗ Text

def PhysicalDisk.key (disk : PhysicalDisk) : Key := toLex (disk.sizeGb, disk.controller)

def groupBySizeAndController (disks : List PhysicalDisk) : List (Key × List PhysicalDisk) :=
  group PhysicalDisk.key disks

def raidLevel (diskCount : ℕ) : Text :=
  match diskCount with
  | 1 => "0".toList
  | 2 => "1".toList
  | _ => "5".toList

def logicalDisk (isRootVolume : Bool) (item : Key × List PhysicalDisk) : LogicalDisk where
  controller := (ofLex item.1).2
  physicalDisks := PySets.sorted (item.2.map PhysicalDisk.id)
  raidLevel := raidLevel item.2.length
  sizeGb := "MAX".toList
  isRootVolume := isRootVolume

/-- The loop of `_logical_disks` with its `is_root_volume`. -/
def logicalDisksFrom : Bool → List (Key × List PhysicalDisk) → List LogicalDisk
  | _, [] => []
  | isRootVolume, item :: items => logicalDisk isRootVolume item :: logicalDisksFrom false items

/-- The list gives the disks in the iteration order of the set. -/
def logicalDisks (disks : List PhysicalDisk) : List LogicalDisk :=
  logicalDisksFrom true (sortedItems (groupBySizeAndController disks))

def generateRaidConfig (physicalDisks : List PhysicalDisk) : List LogicalDisk :=
  logicalDisks physicalDisks

/-! The groups in the order of their keys. -/

/-- The sizes and controllers that occur, in Python's order. -/
def sortedKeys (disks : List PhysicalDisk) : List Key :=
  (disks.map PhysicalDisk.key).toFinset.sort (· ≤ ·)

theorem sortedItems_eq (disks : List PhysicalDisk) :
    sortedItems (groupBySizeAndController disks) =
      (sortedKeys disks).map fun k => (k, disks.filter fun disk => disk.key = k) :=
  sortedItems_group PhysicalDisk.key disks

theorem mem_sortedKeys {disks : List PhysicalDisk} {k : Key} :
    k ∈ sortedKeys disks ↔ ∃ disk ∈ disks, disk.key = k := by
  simp [sortedKeys]

theorem nodup_sortedKeys (disks : List PhysicalDisk) : (sortedKeys disks).Nodup :=
  Finset.sort_nodup _ _

/-- What a logical disk holds, whether or not it is the root volume. -/
def LogicalDisk.volume (l : LogicalDisk) : Text × List Text := (l.controller, l.physicalDisks)

/-- The logical disk is on the controller of the disk and lists its id. -/
def Holds (l : LogicalDisk) (disk : PhysicalDisk) : Prop :=
  l.controller = disk.controller ∧ disk.id ∈ l.physicalDisks

instance (l : LogicalDisk) (disk : PhysicalDisk) : Decidable (Holds l disk) :=
  inferInstanceAs (Decidable (_ ∧ _))

theorem mem_logicalDisksFrom {b : Bool} {items : List (Key × List PhysicalDisk)}
    {l : LogicalDisk} (h : l ∈ logicalDisksFrom b items) :
    ∃ root, ∃ item ∈ items, l = logicalDisk root item := by
  induction items generalizing b with
  | nil => cases h
  | cons item items ih =>
    rcases List.mem_cons.mp h with rfl | h
    · exact ⟨b, item, by simp, rfl⟩
    · obtain ⟨root, item', hm, he⟩ := ih h
      exact ⟨root, item', by simp [hm], he⟩

theorem map_volume_logicalDisksFrom (b : Bool) (items : List (Key × List PhysicalDisk)) :
    (logicalDisksFrom b items).map LogicalDisk.volume =
      items.map fun item => ((ofLex item.1).2, PySets.sorted (item.2.map PhysicalDisk.id)) := by
  induction items generalizing b with
  | nil => rfl
  | cons item items ih => simp only [logicalDisksFrom, List.map_cons, ih]; rfl

theorem countP_root_false (items : List (Key × List PhysicalDisk)) :
    (logicalDisksFrom false items).countP LogicalDisk.isRootVolume = 0 := by
  induction items with
  | nil => rfl
  | cons item items ih => simpa [logicalDisksFrom, logicalDisk] using ih

/-- The first logical disk is the root volume, and no other one is. -/
theorem countP_root (items : List (Key × List PhysicalDisk)) :
    (logicalDisksFrom true items).countP LogicalDisk.isRootVolume =
      if items = [] then 0 else 1 := by
  cases items with
  | nil => rfl
  | cons item items => simp [logicalDisksFrom, logicalDisk, countP_root_false]

theorem root_eq_head {items : List (Key × List PhysicalDisk)} {l : LogicalDisk}
    (h : l ∈ logicalDisksFrom true items) (hroot : l.isRootVolume = true) :
    ∃ item rest, items = item :: rest ∧ l = logicalDisk true item := by
  cases items with
  | nil => cases h
  | cons item items =>
    refine ⟨item, items, rfl, ?_⟩
    rcases List.mem_cons.mp h with rfl | h
    · rfl
    · have hnone := List.countP_eq_zero.mp (countP_root_false items) l h
      exact absurd hroot hnone

/-! Permuting the disks. -/

theorem sorted_perm {xs ys : List Text} (h : xs.Perm ys) : PySets.sorted xs = PySets.sorted ys :=
  (((List.perm_insertionSort _ xs).trans h).trans (List.perm_insertionSort _ ys).symm).eq_of_pairwise'
    (List.pairwise_insertionSort _ _) (List.pairwise_insertionSort _ _)

theorem logicalDisk_perm (root : Bool) (k : Key) {xs ys : List PhysicalDisk} (h : xs.Perm ys) :
    logicalDisk root (k, xs) = logicalDisk root (k, ys) := by
  simp only [logicalDisk, h.length_eq, sorted_perm (h.map PhysicalDisk.id)]

theorem logicalDisksFrom_perm {f g : Key → List PhysicalDisk} (h : ∀ k, (f k).Perm (g k))
    (b : Bool) (ks : List Key) :
    logicalDisksFrom b (ks.map fun k => (k, f k)) =
      logicalDisksFrom b (ks.map fun k => (k, g k)) := by
  induction ks generalizing b with
  | nil => rfl
  | cons k ks ih => simp only [List.map_cons, logicalDisksFrom, ih, logicalDisk_perm b k (h k)]

theorem generateRaidConfig_perm {disks disks' : List PhysicalDisk} (h : disks.Perm disks') :
    generateRaidConfig disks = generateRaidConfig disks' := by
  have hkeys : sortedKeys disks = sortedKeys disks' := by
    rw [sortedKeys, sortedKeys, List.toFinset_eq_of_perm _ _ (h.map PhysicalDisk.key)]
  unfold generateRaidConfig logicalDisks
  rw [sortedItems_eq, sortedItems_eq, hkeys]
  exact logicalDisksFrom_perm (fun k => h.filter _) true (sortedKeys disks')

/-! Reordering the inventory. -/

section Reordering
variable (upper : Text → Text)

def controllers (inventory : Option Inventory) : List StorageController :=
  (inventory.bind Inventory.storageControllers).getD []

/-- The disk comes from a drive behind a RAID controller. -/
def Attached (inventory : Option Inventory) (disk : PhysicalDisk) : Prop :=
  ∃ sc ∈ controllers inventory, isRaid upper sc = true ∧
    ∃ drive ∈ sc.drives.getD [], physicalDisk (controllerId sc) drive = .ok disk

/-- Every drive behind a RAID controller has an id and a size. -/
def Complete (inventory : Option Inventory) : Prop :=
  ∀ sc ∈ controllers inventory, isRaid upper sc = true →
    ∀ drive ∈ sc.drives.getD [], ∃ disk, physicalDisk (controllerId sc) drive = .ok disk

variable {upper} {inventory inventory' : Option Inventory}

theorem mem_physicalDisksForController {sc : StorageController} {disks : List PhysicalDisk}
    (h : physicalDisksForController upper sc = .ok disks) {disk : PhysicalDisk} :
    disk ∈ disks ↔ isRaid upper sc = true ∧
      ∃ drive ∈ sc.drives.getD [], physicalDisk (controllerId sc) drive = .ok disk := by
  unfold physicalDisksForController at h
  split at h
  next hraid => rw [PySets.mem_collect h, and_iff_right hraid]
  next hraid =>
    cases h
    simp [hraid]

theorem physicalDisksForController_returns {sc : StorageController} :
    (∃ disks, physicalDisksForController upper sc = .ok disks) ↔
      (isRaid upper sc = true → ∀ drive ∈ sc.drives.getD [],
        ∃ disk, physicalDisk (controllerId sc) drive = .ok disk) := by
  unfold physicalDisksForController
  split
  next hraid =>
    refine ⟨fun ⟨disks, h⟩ _ => PySets.collect_isOk h, fun h => PySets.collect_returns (h hraid)⟩
  next hraid => simp [hraid]

theorem physicalDisksFromInventory_spec {disks : List PhysicalDisk}
    (h : physicalDisksFromInventory upper inventory = .ok disks) :
    disks.Nodup ∧ (∀ disk, disk ∈ disks ↔ Attached upper inventory disk) ∧
      Complete upper inventory := by
  obtain ⟨sets, hsets, h⟩ := bind_eq_ok h
  cases h
  refine ⟨List.nodup_dedup _, fun disk => ?_, fun sc hsc => ?_⟩
  · rw [List.mem_dedup, List.mem_flatten]
    constructor
    · rintro ⟨set, hset, hdisk⟩
      obtain ⟨sc, hsc, hok⟩ := mem_of_mapM_ok hsets hset
      exact ⟨sc, hsc, (mem_physicalDisksForController hok).mp hdisk⟩
    · rintro ⟨sc, hsc, hdisk⟩
      obtain ⟨set, hset, hok⟩ := exists_of_mapM_ok hsets hsc
      exact ⟨set, hset, (mem_physicalDisksForController hok).mpr hdisk⟩
  · obtain ⟨set, -, hok⟩ := exists_of_mapM_ok hsets hsc
    exact physicalDisksForController_returns.mp ⟨set, hok⟩

theorem physicalDisksFromInventory_returns (h : Complete upper inventory) :
    ∃ disks, physicalDisksFromInventory upper inventory = .ok disks := by
  have hall : ∀ sc ∈ controllers inventory,
      ∃ disks, physicalDisksForController upper sc = .ok disks := fun sc hsc =>
    physicalDisksForController_returns.mpr (h sc hsc)
  obtain ⟨sets, hsets⟩ := mapM_returns hall
  refine ⟨sets.flatten.dedup, ?_⟩
  unfold controllers at hsets
  simp only [physicalDisksFromInventory, hsets]
  rfl

/-- The same controller with its drives in another order. -/
def SameDrives (a b : StorageController) : Prop :=
  a.id = b.id ∧ (a.drives.getD []).Perm (b.drives.getD [])

/-- The same inventory with its controllers and their drives in another order. -/
def Reordered (inventory inventory' : Option Inventory) : Prop :=
  ∃ mid, (controllers inventory).Perm mid ∧ List.Forall₂ SameDrives mid (controllers inventory')

theorem SameDrives.symm {a b : StorageController} (h : SameDrives a b) : SameDrives b a :=
  ⟨h.1.symm, h.2.symm⟩

theorem Reordered.symm (h : Reordered inventory inventory') : Reordered inventory' inventory := by
  obtain ⟨mid, hperm, hsame⟩ := h
  have hback : List.Forall₂ SameDrives (controllers inventory') mid :=
    hsame.flip.imp fun _ _ => SameDrives.symm
  have hcomp : Relation.Comp (List.Forall₂ SameDrives) List.Perm (controllers inventory')
      (controllers inventory) := ⟨mid, hback, hperm.symm⟩
  rw [List.forall₂_comp_perm_eq_perm_comp_forall₂] at hcomp
  exact hcomp

theorem exists_sameDrives {as bs : List StorageController} (h : List.Forall₂ SameDrives as bs)
    {a : StorageController} (ha : a ∈ as) : ∃ b ∈ bs, SameDrives a b := by
  induction h with
  | nil => cases ha
  | cons hab hrest ih =>
    rcases List.mem_cons.mp ha with rfl | ha
    · exact ⟨_, List.mem_cons_self, hab⟩
    · obtain ⟨b, hb, hs⟩ := ih ha
      exact ⟨b, List.mem_cons_of_mem _ hb, hs⟩

theorem Reordered.forth (h : Reordered inventory inventory') {sc : StorageController}
    (hsc : sc ∈ controllers inventory) : ∃ sc' ∈ controllers inventory', SameDrives sc sc' := by
  obtain ⟨mid, hperm, hsame⟩ := h
  exact exists_sameDrives hsame (hperm.mem_iff.mp hsc)

theorem SameDrives.controllerId_eq {a b : StorageController} (h : SameDrives a b) :
    controllerId a = controllerId b := by rw [controllerId, controllerId, h.1]

theorem SameDrives.isRaid_eq {a b : StorageController} (h : SameDrives a b) :
    isRaid upper a = isRaid upper b := by rw [isRaid, isRaid, h.controllerId_eq]

theorem Reordered.attached (h : Reordered inventory inventory') {disk : PhysicalDisk}
    (hd : Attached upper inventory disk) : Attached upper inventory' disk := by
  obtain ⟨sc, hsc, hraid, drive, hdrive, hok⟩ := hd
  obtain ⟨sc', hsc', hs⟩ := h.forth hsc
  exact ⟨sc', hsc', hs.isRaid_eq ▸ hraid, drive, hs.2.mem_iff.mp hdrive, hs.controllerId_eq ▸ hok⟩

theorem Reordered.complete (h : Reordered inventory inventory') (hc : Complete upper inventory) :
    Complete upper inventory' := by
  intro sc' hsc' hraid drive hdrive
  obtain ⟨sc, hsc, hs⟩ := h.symm.forth hsc'
  rw [hs.controllerId_eq]
  exact hc sc hsc (hs.isRaid_eq ▸ hraid) drive (hs.2.mem_iff.mp hdrive)

/-- A reordered inventory gives the same set of disks. -/
theorem physicalDisksFromInventory_reordered {disks : List PhysicalDisk}
    (h : physicalDisksFromInventory upper inventory = .ok disks)
    (hr : Reordered inventory inventory') :
    ∃ disks', physicalDisksFromInventory upper inventory' = .ok disks' ∧ disks'.Perm disks := by
  obtain ⟨hnd, hmem, hc⟩ := physicalDisksFromInventory_spec h
  obtain ⟨disks', h'⟩ := physicalDisksFromInventory_returns (hr.complete hc)
  obtain ⟨hnd', hmem', -⟩ := physicalDisksFromInventory_spec h'
  refine ⟨disks', h', (List.perm_ext_iff_of_nodup hnd' hnd).mpr fun disk => ?_⟩
  rw [hmem, hmem']
  exact ⟨hr.symm.attached, hr.attached⟩

end Reordering

/-! The layout. -/

/-- The ids are distinct on each controller. -/
def DistinctIds (disks : List PhysicalDisk) : Prop :=
  ∀ d ∈ disks, ∀ e ∈ disks, d.controller = e.controller → d.id = e.id → d = e

/-- A partition of the disks by controller and size, with the least group as the only root
volume. -/
structure Layout (disks : List PhysicalDisk) (logical : List LogicalDisk) : Prop where
  placed : ∀ d ∈ disks, logical.countP (fun l => Holds l d) = 1
  members : ∀ l ∈ logical, l.physicalDisks ≠ [] ∧ l.physicalDisks.Nodup ∧
    ∃ size, ∀ id ∈ l.physicalDisks,
      ∃ d ∈ disks, d.id = id ∧ d.controller = l.controller ∧ d.sizeGb = size
  apart : logical.Pairwise fun l m => ∀ d ∈ disks, ∀ e ∈ disks, Holds l d → Holds m e →
    ¬ (d.controller = e.controller ∧ d.sizeGb = e.sizeGb)
  raidLevels : ∀ l ∈ logical,
    (l.physicalDisks.length = 1 → l.raidLevel = "0".toList) ∧
      (l.physicalDisks.length = 2 → l.raidLevel = "1".toList) ∧
      (2 < l.physicalDisks.length → l.raidLevel = "5".toList)
  oneRoot : logical.countP LogicalDisk.isRootVolume = if disks = [] then 0 else 1
  leastRoot : ∀ l ∈ logical, l.isRootVolume = true → ∀ d ∈ disks, Holds l d → ∀ e ∈ disks,
    d.sizeGb < e.sizeGb ∨ (d.sizeGb = e.sizeGb ∧ d.controller ≤ e.controller)

section Layouts
variable {disks : List PhysicalDisk}

/-- The ids of the disks of a key, as a logical disk lists them. -/
def groupIds (disks : List PhysicalDisk) (k : Key) : List Text :=
  PySets.sorted ((disks.filter fun disk => disk.key = k).map PhysicalDisk.id)

theorem mem_groupIds {k : Key} {id : Text} :
    id ∈ groupIds disks k ↔ ∃ d ∈ disks, d.key = k ∧ d.id = id := by
  simp [groupIds, PySets.sorted, and_assoc]

theorem length_groupIds (k : Key) :
    (groupIds disks k).length = (disks.filter fun disk => disk.key = k).length := by
  simp [groupIds, PySets.sorted]

theorem map_volume_generateRaidConfig (disks : List PhysicalDisk) :
    (generateRaidConfig disks).map LogicalDisk.volume =
      (sortedKeys disks).map fun k => ((ofLex k).2, groupIds disks k) := by
  rw [generateRaidConfig, logicalDisks, sortedItems_eq, map_volume_logicalDisksFrom, List.map_map]
  rfl

theorem exists_key {l : LogicalDisk} (h : l ∈ generateRaidConfig disks) :
    ∃ root, ∃ k ∈ sortedKeys disks,
      l = logicalDisk root (k, disks.filter fun disk => disk.key = k) := by
  obtain ⟨root, item, hitem, hl⟩ := mem_logicalDisksFrom h
  rw [sortedItems_eq] at hitem
  obtain ⟨k, hk, rfl⟩ := List.mem_map.mp hitem
  exact ⟨root, k, hk, hl⟩

/-- A group lists a disk of its controller only when the disk has the key of the group: another
disk of the controller has another id. -/
theorem listed_iff (h : DistinctIds disks) {d : PhysicalDisk} (hd : d ∈ disks) {k : Key} :
    ((ofLex k).2 = d.controller ∧ d.id ∈ groupIds disks k) ↔ k = d.key := by
  constructor
  · rintro ⟨hc, hid⟩
    obtain ⟨e, he, rfl, heid⟩ := mem_groupIds.mp hid
    rw [h e he d hd hc heid]
  · rintro rfl
    exact ⟨rfl, mem_groupIds.mpr ⟨d, hd, rfl, rfl⟩⟩

theorem countP_holds (h : DistinctIds disks) {d : PhysicalDisk} (hd : d ∈ disks) :
    (generateRaidConfig disks).countP (fun l => Holds l d) = 1 := by
  have hvolume : (generateRaidConfig disks).countP (fun l => Holds l d) =
      ((generateRaidConfig disks).map LogicalDisk.volume).countP
        fun v => v.1 = d.controller ∧ d.id ∈ v.2 := by
    rw [List.countP_map]
    rfl
  have hkey : (sortedKeys disks).count d.key = 1 :=
    List.count_eq_one_of_mem (nodup_sortedKeys disks) (mem_sortedKeys.mpr ⟨d, hd, rfl⟩)
  rw [hvolume, map_volume_generateRaidConfig, List.countP_map, ← hkey, List.count]
  refine List.countP_congr fun k _ => ?_
  simp only [Function.comp_apply, decide_eq_true_eq, beq_iff_eq]
  exact listed_iff h hd

theorem nodup_groupIds (h : DistinctIds disks) (hnd : disks.Nodup) (k : Key) :
    (groupIds disks k).Nodup := by
  refine (List.perm_insertionSort _ _).nodup_iff.mpr ?_
  refine (List.nodup_map_iff_inj_on (hnd.filter _)).mpr fun d hd e he hid => ?_
  rw [List.mem_filter, decide_eq_true_eq] at hd he
  have hkey : d.key = e.key := hd.2.trans he.2.symm
  exact h d hd.1 e he.1 (congrArg (fun k => (ofLex k).2) hkey) hid

theorem raidLevel_of_length (n : ℕ) :
    (n = 1 → raidLevel n = "0".toList) ∧ (n = 2 → raidLevel n = "1".toList) ∧
      (2 < n → raidLevel n = "5".toList) := by
  refine ⟨fun h => h ▸ rfl, fun h => h ▸ rfl, fun h => ?_⟩
  obtain ⟨m, rfl⟩ : ∃ m, n = m + 3 := ⟨n - 3, by omega⟩
  rfl

theorem apart_generateRaidConfig (h : DistinctIds disks) :
    (generateRaidConfig disks).Pairwise fun l m => ∀ d ∈ disks, ∀ e ∈ disks, Holds l d →
      Holds m e → ¬ (d.controller = e.controller ∧ d.sizeGb = e.sizeGb) := by
  -- stated of the volumes, which are those of distinct keys
  have hvolumes : ((generateRaidConfig disks).map LogicalDisk.volume).Pairwise fun v w =>
      ∀ d ∈ disks, ∀ e ∈ disks, (v.1 = d.controller ∧ d.id ∈ v.2) →
        (w.1 = e.controller ∧ e.id ∈ w.2) →
        ¬ (d.controller = e.controller ∧ d.sizeGb = e.sizeGb) := by
    rw [map_volume_generateRaidConfig, List.pairwise_map]
    refine (nodup_sortedKeys disks).imp fun {k k'} hne d hd e he hl hm ⟨hc, hs⟩ => hne ?_
    rw [(listed_iff h hd).mp hl, (listed_iff h he).mp hm, PhysicalDisk.key, PhysicalDisk.key, hc, hs]
  exact List.pairwise_map.mp hvolumes

theorem key_le_iff {d e : PhysicalDisk} :
    d.key ≤ e.key ↔ d.sizeGb < e.sizeGb ∨ (d.sizeGb = e.sizeGb ∧ d.controller ≤ e.controller) :=
  Prod.Lex.toLex_le_toLex

theorem least_of_root (h : DistinctIds disks) {l : LogicalDisk} (hl : l ∈ generateRaidConfig disks)
    (hroot : l.isRootVolume = true) {d e : PhysicalDisk} (hd : d ∈ disks) (hld : Holds l d)
    (he : e ∈ disks) : d.key ≤ e.key := by
  obtain ⟨item, rest, hitems, rfl⟩ := root_eq_head hl hroot
  rw [sortedItems_eq] at hitems
  obtain ⟨k, ks, hks, rfl, -⟩ := List.map_eq_cons_iff.mp hitems
  have hsorted : (k :: ks).Pairwise (· ≤ ·) := hks ▸ Finset.pairwise_sort _ _
  have hmem : e.key ∈ k :: ks := hks ▸ mem_sortedKeys.mpr ⟨e, he, rfl⟩
  rw [← (listed_iff h hd).mp hld]
  rcases List.mem_cons.mp hmem with heq | hmem
  · exact heq.ge
  · exact (List.pairwise_cons.mp hsorted).1 _ hmem

theorem layout_generateRaidConfig (h : DistinctIds disks) (hnd : disks.Nodup) :
    Layout disks (generateRaidConfig disks) where
  placed d hd := countP_holds h hd
  members l hl := by
    obtain ⟨root, k, hk, rfl⟩ := exists_key hl
    obtain ⟨d, hd, hdk⟩ := mem_sortedKeys.mp hk
    refine ⟨List.ne_nil_of_mem (mem_groupIds.mpr ⟨d, hd, hdk, rfl⟩), nodup_groupIds h hnd k,
      (ofLex k).1, fun id hid => ?_⟩
    obtain ⟨e, he, rfl, heid⟩ := mem_groupIds.mp hid
    exact ⟨e, he, heid, rfl, rfl⟩
  apart := apart_generateRaidConfig h
  raidLevels l hl := by
    obtain ⟨root, k, hk, rfl⟩ := exists_key hl
    have hlength : (logicalDisk root (k, disks.filter fun disk => disk.key = k)).physicalDisks.length =
        (disks.filter fun disk => disk.key = k).length := length_groupIds k
    rw [hlength]
    exact raidLevel_of_length _
  oneRoot := by
    have hempty : sortedKeys disks = [] ↔ disks = [] := by
      simp only [List.eq_nil_iff_forall_not_mem, mem_sortedKeys]
      exact ⟨fun h d hd => h d.key ⟨d, hd, rfl⟩, fun h k ⟨d, hd, _⟩ => h d hd⟩
    rw [generateRaidConfig, logicalDisks, sortedItems_eq, countP_root]
    simp only [List.map_eq_nil_iff, hempty]
  leastRoot l hl hroot d hd hld e he := key_le_iff.mp (least_of_root h hl hroot hd hld he)

end Layouts

theorem raid_layout {upper : Text → Text} {inventory : Option Inventory}
    {disks : List PhysicalDisk} (h : physicalDisksFromInventory upper inventory = .ok disks)
    (hids : DistinctIds disks) :
    Layout disks (generateRaidConfig disks) ∧
      (∀ disks', disks'.Perm disks → generateRaidConfig disks' = generateRaidConfig disks) ∧
      ∀ inventory', Reordered inventory inventory' →
        ∃ disks', physicalDisksFromInventory upper inventory' = .ok disks' ∧
          generateRaidConfig disks' = generateRaidConfig disks := by
  refine ⟨layout_generateRaidConfig hids (physicalDisksFromInventory_spec h).1,
    fun disks' hp => generateRaidConfig_perm hp, fun inventory' hr => ?_⟩
  obtain ⟨disks', h', hp⟩ := physicalDisksFromInventory_reordered h hr
  exact ⟨disks', h', generateRaidConfig_perm hp⟩

/-- Two sizes on one RAID controller, and a controller of another kind. -/
theorem raid_layout_two_sizes :
    ∃ disks, physicalDisksFromInventory id (some ⟨some [
        ⟨some "RAID.1".toList, some [⟨some "b".toList, some 960999999999⟩,
          ⟨some "a".toList, some 479559942144⟩, ⟨some "c".toList, some 479999999999⟩]⟩,
        ⟨some "AHCI.1".toList, some [⟨some "a".toList, some 1⟩]⟩]⟩) = .ok disks ∧
      Layout disks (generateRaidConfig disks) := by
  have h : physicalDisksFromInventory id (some ⟨some [
        ⟨some "RAID.1".toList, some [⟨some "b".toList, some 960999999999⟩,
          ⟨some "a".toList, some 479559942144⟩, ⟨some "c".toList, some 479999999999⟩]⟩,
        ⟨some "AHCI.1".toList, some [⟨some "a".toList, some 1⟩]⟩]⟩) =
      .ok [⟨"b".toList, "RAID.1".toList, 960⟩, ⟨"a".toList, "RAID.1".toList, 479⟩,
        ⟨"c".toList, "RAID.1".toList, 479⟩] := by decide +kernel
  exact ⟨_, h, (raid_layout h (by unfold DistinctIds; decide +kernel)).1⟩

end Understack.Workflows.Raid
