import Understack.Ovn.Northbound

/-! `cleanup_dead_ovn_ha_chassis.py`: members of HA chassis groups whose chassis is not alive are
removed, and the groups of networks that are left with no member get one again. -/
namespace Understack.Ovn
open PyText References

def neutronPrefix : Text := "neutron-".toList

def ovnNetworkIdExtIdKey : Text := "neutron:network_id".toList

def ovnRouterIdExtIdKey : Text := "neutron:router_id".toList

def haChassisGroupHighestPriority : ℕ := 32767

/-- A value that is missing or empty is falsy. -/
def externalId (key : Text) (externalIds : List (Text × Text)) : Option Text :=
  (externalIds.lookup key).filter (· ≠ [])

/-- `get_router_chassis_by_id`. -/
def routerChassisById (routers : List LogicalRouter) (routerId : Text) : Option Text :=
  ((routers.reverse.find? fun r => removePrefix neutronPrefix r.name = routerId).bind fun r =>
    r.options.lookup "chassis".toList).filter (· ≠ [])

/-! Phase 1. -/

def findStaleHaChassis (allHaChassis : List HaChassis) (live : List Text) : List HaChassis :=
  allHaChassis.filter fun r => ¬decide (r.chassisName ∈ live)

structure CleanupRecord where
  groupUuid : ℕ
  groupName : Text
  memberUuid : ℕ
  remainingAfter : ℕ
  deriving DecidableEq, Repr

def mapGroupsToStaleMembers (groups : List HaChassisGroup) (staleUuids : List ℕ) :
    List CleanupRecord :=
  groups.flatMap fun g =>
    let staleMembers := g.haChassis.filter fun m => m ∈ staleUuids
    staleMembers.map fun m => ⟨g.uuid, g.name, m, g.haChassis.length - staleMembers.length⟩

/-- `remove HA_Chassis_Group … ha_chassis …`. -/
def removeMember (groups : List HaChassisGroup) (r : CleanupRecord) : List HaChassisGroup :=
  groups.map fun g =>
    if g.uuid = r.groupUuid then
      { g with haChassis := g.haChassis.filter fun m => m ≠ r.memberUuid }
    else g

/-! Phase 2. -/

structure Repopulation where
  groupUuid : ℕ
  groupName : Text
  networkId : Text
  routerId : Text
  targetChassis : Text
  deriving DecidableEq, Repr

/-- The chassis for the group of a network, or why there is none. -/
def sourceChassis (live : List Text) (nb : Northbound) (staleUuids : List ℕ) (routerId : Text) :
    Except Text Text :=
  match routerChassisById nb.routers routerId with
  | some centralized =>
    if centralized ∈ live then .ok centralized
    else .error ("router's options:chassis (".toList ++ centralized ++
      ") is not a live chassis".toList)
  | none =>
    match nb.groups.reverse.find? fun g => g.name = neutronPrefix ++ routerId with
    | none => .error ("router is not centralized and its HCG neutron-".toList ++ routerId ++
        " was not found".toList)
    | some routerGroup =>
      let remaining := routerGroup.haChassis.filter fun m => m ∉ staleUuids
      match ((memberRows nb remaining).map HaChassis.chassisName).dedup with
      | [name] => .ok name
      | names => .error ("router HCG resolves to ".toList ++ ofInt names.length ++
          " distinct live chassis (expected exactly 1)".toList)

/-- A turn of the loop; `none` where the group is passed over. -/
def planGroup (live : List Text) (nb : Northbound) (staleUuids : List ℕ) (g : HaChassisGroup) :
    Option (Except (Text × Text) Repopulation) :=
  match externalId ovnNetworkIdExtIdKey g.externalIds with
  | none => none
  | some networkId =>
    if g.haChassis.filter (fun m => m ∉ staleUuids) ≠ [] then none
    else
      match externalId ovnRouterIdExtIdKey g.externalIds with
      | none => some (.error (g.name, "no router_id in HCG external_ids".toList))
      | some routerId =>
        match sourceChassis live nb staleUuids routerId with
        | .error reason => some (.error (g.name, reason))
        | .ok chassis => some (.ok ⟨g.uuid, g.name, networkId, routerId, chassis⟩)

def planRepopulation (live : List Text) (nb : Northbound) (staleUuids : List ℕ) :
    List Repopulation × List (Text × Text) :=
  let turns := nb.groups.filterMap (planGroup live nb staleUuids)
  (turns.filterMap fun t => t.toOption,
    turns.filterMap fun t => match t with | .error e => some e | .ok _ => none)

/-- `create HA_Chassis …` and `add HA_Chassis_Group … ha_chassis …`. -/
def addMember (nb : Northbound) (p : Repopulation) : Northbound :=
  { nb with
    haChassis := nb.haChassis ++ [⟨nb.nextUuid, p.targetChassis, haChassisGroupHighestPriority⟩]
    groups := nb.groups.map fun g =>
      if g.uuid = p.groupUuid then { g with haChassis := g.haChassis ++ [nb.nextUuid] } else g
    nextUuid := nb.nextUuid + 1 }

/-! A run of the script. -/

/-- The options and answers of the operator, and whether the transactions reach the DB. -/
structure Answers where
  execute : Bool
  confirmCleanup : Bool
  cleanupReturns : Bool
  skipRepopulate : Bool
  confirmRepopulation : Bool
  repopulationReturns : Bool
  deriving DecidableEq, Repr

/-- `none` where the script exits. -/
def executeCleanup (a : Answers) (nb : Northbound) (records : List CleanupRecord) :
    Option Northbound :=
  if records = [] then some nb
  else if ¬a.confirmCleanup then some nb
  else if ¬a.cleanupReturns then none
  else ({ nb with groups := records.foldl removeMember nb.groups } : Northbound).commit

def executeRepopulation (a : Answers) (nb : Northbound) (plan : List Repopulation) :
    Option Northbound :=
  if plan = [] then some nb
  else if ¬a.confirmRepopulation then some nb
  else if ¬a.repopulationReturns then none
  else (plan.foldl addMember nb).commit

/-- The two phases; the plan is made from the tables that were read at the start. The flag says
whether the script exits early. -/
def repair (live : List Text) (a : Answers) (nb : Northbound) : Northbound × Bool :=
  if ¬a.execute then (nb, false)
  else
    let staleUuids := (findStaleHaChassis nb.haChassis live).map HaChassis.uuid
    match executeCleanup a nb (mapGroupsToStaleMembers nb.groups staleUuids) with
    | none => (nb, true)
    | some cleaned =>
      if a.skipRepopulate then (cleaned, false)
      else
        match executeRepopulation a cleaned (planRepopulation live nb staleUuids).1 with
        | none => (cleaned, true)
        | some filled => (filled, false)

end Understack.Ovn
