import Mathlib.Data.List.Dedup
import Understack.Lib.Excerpts
import Understack.Lib.PyUuid
import Understack.Lib.References

/-! The tables of the OVN Northbound DB that the repair of HA chassis groups reads and edits, and
the commit of a transaction. OVSDB counts the references before it collects the rows that nothing
refers to: a row may not be destroyed while another row refers to it, even one that is about to be
collected. `HA_Chassis` and `Logical_Switch_Port` rows are collected, groups and switches are not. -/
namespace Understack.Ovn
open PyText References KeyedTable

structure HaChassis where
  uuid : ℕ
  chassisName : Text
  priority : ℕ
  deriving DecidableEq, Repr

structure HaChassisGroup where
  uuid : ℕ
  name : Text
  haChassis : List ℕ
  externalIds : List (Text × Text)
  deriving DecidableEq, Repr

structure LogicalRouter where
  name : Text
  options : List (Text × Text)
  deriving DecidableEq, Repr

structure LogicalSwitch where
  uuid : ℕ
  name : Text
  ports : List ℕ
  deriving DecidableEq, Repr

/-- A `Logical_Switch_Port` or a `Logical_Router_Port`. -/
structure Port where
  uuid : ℕ
  name : Text
  haChassisGroup : Option ℕ
  deriving DecidableEq, Repr

/-- The tables, and the next row id. -/
@[ext]
structure Northbound where
  haChassis : List HaChassis
  groups : List HaChassisGroup
  routers : List LogicalRouter
  switches : List LogicalSwitch
  switchPorts : List Port
  routerPorts : List Port
  nextUuid : ℕ
  deriving DecidableEq, Repr

/-- No strong reference dangles. -/
structure Integrity (nb : Northbound) : Prop where
  members : ∀ g ∈ nb.groups, Resolves HaChassis.uuid nb.haChassis g.haChassis
  ports : ∀ s ∈ nb.switches, Resolves Port.uuid nb.switchPorts s.ports
  switchPorts : ∀ p ∈ nb.switchPorts,
    Resolves HaChassisGroup.uuid nb.groups p.haChassisGroup.toList
  routerPorts : ∀ p ∈ nb.routerPorts,
    Resolves HaChassisGroup.uuid nb.groups p.haChassisGroup.toList

instance (nb : Northbound) : Decidable (Integrity nb) :=
  decidable_of_iff
    ((∀ g ∈ nb.groups, Resolves HaChassis.uuid nb.haChassis g.haChassis) ∧
      (∀ s ∈ nb.switches, Resolves Port.uuid nb.switchPorts s.ports) ∧
      (∀ p ∈ nb.switchPorts, Resolves HaChassisGroup.uuid nb.groups p.haChassisGroup.toList) ∧
      ∀ p ∈ nb.routerPorts, Resolves HaChassisGroup.uuid nb.groups p.haChassisGroup.toList)
    ⟨fun ⟨h₁, h₂, h₃, h₄⟩ => ⟨h₁, h₂, h₃, h₄⟩, fun h => ⟨h.1, h.2, h.3, h.4⟩⟩

def isMember (groups : List HaChassisGroup) (r : HaChassis) : Bool :=
  groups.any fun g => r.uuid ∈ g.haChassis

def isOnSwitch (switches : List LogicalSwitch) (p : Port) : Bool :=
  switches.any fun s => p.uuid ∈ s.ports

/-- The rows that nothing refers to go. -/
def Northbound.collect (nb : Northbound) : Northbound :=
  { nb with
    haChassis := nb.haChassis.filter (isMember nb.groups)
    switchPorts := nb.switchPorts.filter (isOnSwitch nb.switches) }

/-- `none` where the transaction is refused. -/
def Northbound.commit (nb : Northbound) : Option Northbound :=
  if Integrity nb then some nb.collect else none

/-- What holds of the tables after every transaction. -/
structure Committed (nb : Northbound) : Prop where
  integrity : Integrity nb
  haChassis : ∀ r ∈ nb.haChassis, ∃ g ∈ nb.groups, r.uuid ∈ g.haChassis
  switchPorts : ∀ p ∈ nb.switchPorts, ∃ s ∈ nb.switches, p.uuid ∈ s.ports
  chassisIds : (nb.haChassis.map HaChassis.uuid).Nodup
  groupIds : (nb.groups.map HaChassisGroup.uuid).Nodup
  groupNames : (nb.groups.map HaChassisGroup.name).Nodup
  portIds : (nb.switchPorts.map Port.uuid).Nodup
  routerPortIds : (nb.routerPorts.map Port.uuid).Nodup
  fresh : ∀ r ∈ nb.haChassis, r.uuid < nb.nextUuid

variable {nb nb' : Northbound}

theorem isMember_iff {groups : List HaChassisGroup} {r : HaChassis} :
    isMember groups r = true ↔ ∃ g ∈ groups, r.uuid ∈ g.haChassis := by
  simp [isMember]

theorem isOnSwitch_iff {switches : List LogicalSwitch} {p : Port} :
    isOnSwitch switches p = true ↔ ∃ s ∈ switches, p.uuid ∈ s.ports := by
  simp [isOnSwitch]

theorem Committed.collect_eq (h : Committed nb) : nb.collect = nb := by
  have hchassis : nb.haChassis.filter (isMember nb.groups) = nb.haChassis :=
    List.filter_eq_self.mpr fun r hr => isMember_iff.mpr (h.haChassis r hr)
  have hports : nb.switchPorts.filter (isOnSwitch nb.switches) = nb.switchPorts :=
    List.filter_eq_self.mpr fun p hp => isOnSwitch_iff.mpr (h.switchPorts p hp)
  rw [Northbound.collect, hchassis, hports]

/-- Collecting rows leaves no reference dangling. -/
theorem Integrity.collect (h : Integrity nb) : Integrity nb.collect where
  members := by
    intro g hg
    refine (h.members g hg).filter_rows fun r _ hr => ?_
    exact isMember_iff.mpr ⟨g, hg, hr⟩
  ports := by
    intro s hs
    refine (h.ports s hs).filter_rows fun p _ hp => ?_
    exact isOnSwitch_iff.mpr ⟨s, hs, hp⟩
  switchPorts := fun p hp => h.switchPorts p (List.mem_filter.mp hp).1
  routerPorts := h.routerPorts

/-- A transaction that leaves no reference dangling, gives each row an id of its own and each group
a name of its own. -/
theorem committed_commit (h : Integrity nb) (hchassis : (nb.haChassis.map HaChassis.uuid).Nodup)
    (hgroups : (nb.groups.map HaChassisGroup.uuid).Nodup)
    (hnames : (nb.groups.map HaChassisGroup.name).Nodup)
    (hports : (nb.switchPorts.map Port.uuid).Nodup)
    (hrouterPorts : (nb.routerPorts.map Port.uuid).Nodup)
    (hfresh : ∀ r ∈ nb.haChassis, r.uuid < nb.nextUuid) :
    nb.commit = some nb.collect ∧ Committed nb.collect := by
  refine ⟨if_pos h, h.collect, ?_, ?_, (List.filter_sublist.map _).nodup hchassis, hgroups,
    hnames, (List.filter_sublist.map _).nodup hports, hrouterPorts, ?_⟩
  · intro r hr
    exact isMember_iff.mp (List.mem_filter.mp hr).2
  · intro p hp
    exact isOnSwitch_iff.mp (List.mem_filter.mp hp).2
  · intro r hr
    exact hfresh r (List.mem_filter.mp hr).1

/-- `{r["_uuid"]: r["chassis_name"] for r in rows}`, read for the members of a group. -/
def memberRows (nb : Northbound) (members : List ℕ) : List HaChassis :=
  resolve HaChassis.uuid nb.haChassis members

end Understack.Ovn
