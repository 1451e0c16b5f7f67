import Mathlib.Data.Char
import Understack.Lib.PySets
import Understack.Ovn.GatewayRepair

/-! The last phase of `cleanup_dead_ovn_ha_chassis.py`: switches of networks that Neutron does not
have any more are removed with their ports and their HA chassis group. -/
namespace Understack.Ovn
open PyText

/-- A finished command. -/
structure Completed where
  returncode : ℤ
  stdout : Text
  stderr : Text
  deriving DecidableEq, Repr

/-- What the `openstack` client answers. -/
structure Openstack where
  networkList : Completed
  networkShow : Text → Completed

/-- `str.splitlines` ends a line at these. -/
def isLineBreak (c : Char) : Bool :=
  c.toNat ∈ [0x0a, 0x0b, 0x0c, 0x0d, 0x1c, 0x1d, 0x1e, 0x85, 0x2028, 0x2029]

/-- `none` where the script exits. -/
def getLiveNeutronNetworkIds (o : Openstack) : Option (List Text) :=
  if o.networkList.returncode ≠ 0 then none
  else
    let ids := ((o.networkList.stdout.splitOnP isLineBreak).map strip).filter (· ≠ [])
    if ids = [] then none else some ids

def notFoundMarkers : List Text :=
  ["no network found".toList, "network not found".toList, "could not be found".toList,
    "no network with a name or id".toList]

/-- `none` where the answer is unclear. -/
def neutronNetworkExists (lower : Text → Text) (o : Openstack) (networkId : Text) : Option Bool :=
  let result := o.networkShow networkId
  if result.returncode = 0 then some true
  else if notFoundMarkers.any fun marker => isIn marker (lower result.stderr) then some false
  else none

/-- Read at the id of a group: the ports that refer to it. -/
def buildHcgRefMap (rows : List Port) (hcgUuid : ℕ) : List Port :=
  rows.filter fun r => r.haChassisGroup = some hcgUuid

structure Teardown where
  switchName : Text
  networkId : Text
  hcgUuid : Option ℕ
  hcgName : Option Text
  portCount : ℕ
  refLsps : List (ℕ × Text)
  refLrps : List (ℕ × Text)
  deriving DecidableEq, Repr

def netSwitches (switches : List LogicalSwitch) : List LogicalSwitch :=
  switches.filter fun s => neutronPrefix.isPrefixOf s.name

/-- A later switch with the port takes the place of an earlier one. -/
def switchOfLsp (switches : List LogicalSwitch) (lspUuid : ℕ) : Option Text :=
  ((netSwitches switches).flatMap fun s => s.ports.map fun uuid => (uuid, s.name)).reverse.lookup
    lspUuid

def hcgByName (groups : List HaChassisGroup) (name : Text) : Option HaChassisGroup :=
  groups.reverse.find? fun g => g.name = name

/-- A turn of the loop over the candidates. -/
def planSwitch (lower : Text → Text) (o : Openstack) (groups : List HaChassisGroup)
    (switches : List LogicalSwitch) (lsps lrps : List Port) (s : LogicalSwitch) :
    Except (Text × Text) Teardown :=
  let networkId := removePrefix neutronPrefix s.name
  match neutronNetworkExists lower o networkId with
  | some true => .error (s.name, "neutron still has this network (live)".toList)
  | none => .error (s.name, "could not confirm network is gone; skipping".toList)
  | some false =>
    let hcg := hcgByName groups s.name
    let refLsps := (hcg.map fun g => buildHcgRefMap lsps g.uuid).getD []
    let foreignLsps := refLsps.filter fun lsp => switchOfLsp switches lsp.uuid ≠ some s.name
    if foreignLsps ≠ [] then
      let others := PySets.sorted (foreignLsps.map fun lsp =>
        (switchOfLsp switches lsp.uuid).getD "<orphan LSP>".toList)
      .error (s.name, "HCG also referenced by LSP(s) on other switch(es): ".toList ++
        ", ".toList.intercalate others)
    else
      let refLrps := (hcg.map fun g => buildHcgRefMap lrps g.uuid).getD []
      .ok ⟨s.name, networkId, hcg.map HaChassisGroup.uuid, hcg.map HaChassisGroup.name,
        s.ports.length, refLsps.map fun p => (p.uuid, p.name), refLrps.map fun p => (p.uuid, p.name)⟩

/-- More than half of the networks look orphaned. -/
def tooManyOrphans (candidates netSwitches : List LogicalSwitch) : Bool :=
  netSwitches.length < 2 * candidates.length

/-- `none` where the script exits. -/
def planOrphanCleanup (lower : Text → Text) (o : Openstack) (force : Bool)
    (groups : List HaChassisGroup) (switches : List LogicalSwitch) (lsps lrps : List Port) :
    Option (List Teardown × List (Text × Text)) := do
  let liveNetworks ← getLiveNeutronNetworkIds o
  let candidates := (netSwitches switches).filter fun s =>
    removePrefix neutronPrefix s.name ∉ liveNetworks
  if tooManyOrphans candidates (netSwitches switches) ∧ ¬force then none
  else
    let turns := candidates.map (planSwitch lower o groups switches lsps lrps)
    some (turns.filterMap fun t => t.toOption,
      turns.filterMap fun t => match t with | .error e => some e | .ok _ => none)

/-- The commands of `ovn-nbctl` that a transaction is made of; all say `--if-exists`. -/
inductive NbCommand
  | clearSwitchPort (uuid : ℕ)
  | clearRouterPort (uuid : ℕ)
  | lsDel (name : Text)
  | destroyGroup (uuid : ℕ)
  deriving DecidableEq, Repr

def clearGroup (uuid : ℕ) (ports : List Port) : List Port :=
  ports.map fun p => if p.uuid = uuid then { p with haChassisGroup := none } else p

/-- `none` where `ovn-nbctl` gives up. -/
def NbCommand.run (nb : Northbound) : NbCommand → Option Northbound
  | .clearSwitchPort uuid => some { nb with switchPorts := clearGroup uuid nb.switchPorts }
  | .clearRouterPort uuid => some { nb with routerPorts := clearGroup uuid nb.routerPorts }
  | .lsDel name =>
    -- A name that several switches have does not say which one to delete.
    if 1 < nb.switches.countP (·.name = name) then none
    else some { nb with switches := nb.switches.filter (·.name ≠ name) }
  | .destroyGroup uuid => some { nb with groups := nb.groups.filter (·.uuid ≠ uuid) }

def orphanTxnArgs (p : Teardown) : List NbCommand :=
  p.refLsps.map (fun lsp => .clearSwitchPort lsp.1) ++
    p.refLrps.map (fun lrp => .clearRouterPort lrp.1) ++ [.lsDel p.switchName] ++
    p.hcgUuid.toList.map .destroyGroup

/-- `none` where the transaction is not made or refused. -/
def orphanTxn (nb : Northbound) (p : Teardown) : Option Northbound :=
  (orphanTxnArgs p).foldlM NbCommand.run nb >>= Northbound.commit

/-- The options and answers of the operator for this phase, and of which switches the transactions
reach the DB. -/
structure OrphanAnswers where
  deleteOrphanedNetworks : Bool
  osCloud : Text
  force : Bool
  confirmDeletion : Bool
  deletionReturns : Text → Bool

/-- A turn of the loop, with the number of the transactions that failed. -/
def deleteNetwork (a : OrphanAnswers) (s : Northbound × ℕ) (p : Teardown) : Northbound × ℕ :=
  match if a.deletionReturns p.switchName then orphanTxn s.1 p else none with
  | some nb => (nb, s.2)
  | none => (s.1, s.2 + 1)

def executeOrphanCleanup (a : OrphanAnswers) (nb : Northbound) (plan : List Teardown) :
    Northbound × ℕ :=
  if plan = [] then (nb, 0)
  else if ¬a.confirmDeletion then (nb, 0)
  else plan.foldl (deleteNetwork a) (nb, 0)

/-- A run of the script: who is alive, what the operator answers, what Neutron says. -/
structure Invocation where
  live : List Text
  answers : Answers
  orphanAnswers : OrphanAnswers
  openstack : Openstack

/-- The groups are those that were read at the start. -/
def orphanCleanup (lower : Text → Text) (i : Invocation) (groups : List HaChassisGroup)
    (nb : Northbound) : Northbound :=
  if ¬i.orphanAnswers.deleteOrphanedNetworks then nb
  else if i.orphanAnswers.osCloud = [] then nb
  else
    match planOrphanCleanup lower i.openstack i.orphanAnswers.force groups nb.switches
      nb.switchPorts nb.routerPorts with
    | none => nb
    | some (plan, _) =>
      if ¬i.answers.execute then nb else (executeOrphanCleanup i.orphanAnswers nb plan).1

def main (lower : Text → Text) (nb : Northbound) (i : Invocation) : Northbound :=
  let (repaired, exited) := repair i.live i.answers nb
  if exited then repaired else orphanCleanup lower i nb.groups repaired

end Understack.Ovn
