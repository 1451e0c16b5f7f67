import Understack.Ovn.GatewayRepair

/-! What the repair is for: every network whose router says on which chassis it is has a chassis
that is alive in its group. The script refines this on the candidates of the groups, whatever the
operator answers and however often it runs. -/
namespace Understack.Ovn
open PyText References

/-- A group as gateway for its ports: names and priorities of the chassis that may claim them. -/
structure Gateway where
  uuid : ℕ
  name : Text
  externalIds : List (Text × Text)
  candidates : List (Text × ℕ)
  deriving DecidableEq, Repr

def alive (live : List Text) (rows : List HaChassis) : List (Text × ℕ) :=
  (rows.filter fun r => r.chassisName ∈ live).map fun r => (r.chassisName, r.priority)

theorem alive_append (live : List Text) (rows rows' : List HaChassis) :
    alive live (rows ++ rows') = alive live rows ++ alive live rows' := by
  rw [alive, List.filter_append, List.map_append]
  rfl

def candidates (live : List Text) (nb : Northbound) (members : List ℕ) : List (Text × ℕ) :=
  alive live (memberRows nb members)

def gatewayOf (live : List Text) (nb : Northbound) (g : HaChassisGroup) : Gateway :=
  ⟨g.uuid, g.name, g.externalIds, candidates live nb g.haChassis⟩

def gateways (live : List Text) (nb : Northbound) : List Gateway :=
  nb.groups.map (gatewayOf live nb)

/-- The only name in a list, however often it is there. -/
def onlyOne (names : List Text) : Option Text :=
  match names.dedup with
  | [name] => some name
  | _ => none

/-- The chassis of a router: the one it is pinned to, else the only one in its own group. -/
def chosen (live : List Text) (routers : List LogicalRouter) (gs : List Gateway) (g : Gateway) :
    Option Text := do
  let routerId ← externalId ovnRouterIdExtIdKey g.externalIds
  match routerChassisById routers routerId with
  | some centralized => if centralized ∈ live then some centralized else none
  | none =>
    let routerGroup ← gs.reverse.find? fun r => r.name = neutronPrefix ++ routerId
    onlyOne (routerGroup.candidates.map Prod.fst)

def isNetworkGroup (g : Gateway) : Bool := (externalId ovnNetworkIdExtIdKey g.externalIds).isSome

/-- The gateway of a network without candidates gets the chassis of its router. -/
def refillGroup (live : List Text) (routers : List LogicalRouter) (gs : List Gateway) (g : Gateway) :
    Gateway :=
  if isNetworkGroup g ∧ g.candidates = [] then
    { g with candidates := (chosen live routers gs g).toList.map fun c =>
        (c, haChassisGroupHighestPriority) }
  else g

def refill (live : List Text) (routers : List LogicalRouter) (gs : List Gateway) : List Gateway :=
  gs.map (refillGroup live routers gs)

variable {live : List Text} {nb nb' : Northbound}

/-! Phase 1. -/

def staleUuids (live : List Text) (nb : Northbound) : List ℕ :=
  (findStaleHaChassis nb.haChassis live).map HaChassis.uuid

theorem foldl_removeMember (records : List CleanupRecord) (groups : List HaChassisGroup) :
    records.foldl removeMember groups = groups.map fun g => { g with
      haChassis := g.haChassis.filter fun m =>
        ¬records.any fun r => r.groupUuid = g.uuid ∧ r.memberUuid = m } := by
  induction records generalizing groups with
  | nil => simp
  | cons r records ih =>
    rw [List.foldl_cons, ih, removeMember, List.map_map]
    apply List.map_congr_left
    intro g _
    simp only [Function.comp_apply]
    split
    next he =>
      rw [List.filter_filter]
      congr 1
      apply List.filter_congr
      intro m _
      by_cases hm : r.memberUuid = m
      · simp [he, hm]
      · simp [he, hm, Ne.symm hm]
    next he =>
      congr 1
      apply List.filter_congr
      intro m _
      simp [Ne.symm he]

/-- The groups without their stale members. -/
def withoutStale (live : List Text) (nb : Northbound) : Northbound :=
  { nb with groups := nb.groups.map fun g => { g with
      haChassis := g.haChassis.filter fun m => m ∉ staleUuids live nb } }

theorem removed_eq (live : List Text) (nb : Northbound) :
    (mapGroupsToStaleMembers nb.groups (staleUuids live nb)).foldl removeMember nb.groups =
      (withoutStale live nb).groups := by
  rw [foldl_removeMember, withoutStale]
  apply List.map_congr_left
  intro g hg
  congr 1
  apply List.filter_congr
  intro m hm
  have hiff : ((mapGroupsToStaleMembers nb.groups (staleUuids live nb)).any fun r =>
      r.groupUuid = g.uuid ∧ r.memberUuid = m) = true ↔ m ∈ staleUuids live nb := by
    simp only [List.any_eq_true, mapGroupsToStaleMembers, List.mem_flatMap, List.mem_map,
      List.mem_filter, decide_eq_true_eq]
    constructor
    · rintro ⟨r, ⟨g', hg', m', ⟨-, hstale⟩, rfl⟩, -, rfl⟩
      exact hstale
    · intro hstale
      exact ⟨_, ⟨g, hg, m, ⟨hm, hstale⟩, rfl⟩, rfl, rfl⟩
  exact decide_eq_decide.mpr (not_congr hiff)

/-- The tables that the repair does not write are the same. -/
structure SameRest (nb nb' : Northbound) : Prop where
  routers : nb'.routers = nb.routers
  switches : nb'.switches = nb.switches
  switchPorts : nb'.switchPorts = nb.switchPorts
  routerPorts : nb'.routerPorts = nb.routerPorts
  groups : nb'.groups.map (fun g => (g.uuid, g.name, g.externalIds)) =
    nb.groups.map fun g => (g.uuid, g.name, g.externalIds)

theorem SameRest.refl (nb : Northbound) : SameRest nb nb := ⟨rfl, rfl, rfl, rfl, rfl⟩

theorem SameRest.trans {nb₁ nb₂ nb₃ : Northbound} (h : SameRest nb₁ nb₂) (h' : SameRest nb₂ nb₃) :
    SameRest nb₁ nb₃ :=
  ⟨h'.routers.trans h.routers, h'.switches.trans h.switches, h'.switchPorts.trans h.switchPorts,
    h'.routerPorts.trans h.routerPorts, h'.groups.trans h.groups⟩

theorem SameRest.groupIds (h : SameRest nb nb') :
    nb'.groups.map HaChassisGroup.uuid = nb.groups.map HaChassisGroup.uuid := by
  have hmap := congrArg (List.map Prod.fst) h.groups
  rwa [List.map_map, List.map_map] at hmap

theorem SameRest.groupNames (h : SameRest nb nb') :
    nb'.groups.map HaChassisGroup.name = nb.groups.map HaChassisGroup.name := by
  have hmap := congrArg (List.map fun g => g.2.1) h.groups
  rwa [List.map_map, List.map_map] at hmap

theorem SameRest.resolves (h : SameRest nb nb') {refs : List ℕ}
    (hrefs : Resolves HaChassisGroup.uuid nb.groups refs) :
    Resolves HaChassisGroup.uuid nb'.groups refs := by
  intro i hi
  obtain ⟨g, hg, rfl⟩ := hrefs i hi
  have hmem : g.uuid ∈ nb'.groups.map HaChassisGroup.uuid := by
    rw [h.groupIds]
    exact List.mem_map_of_mem hg
  exact List.mem_map.mp hmem

theorem candidates_withoutStale (h : Committed nb) (members : List ℕ) :
    candidates live nb (members.filter fun m => m ∉ staleUuids live nb) =
      candidates live nb members := by
  have hresolve : memberRows nb (members.filter fun m => m ∉ staleUuids live nb) =
      (memberRows nb members).filter fun r => decide (r.chassisName ∈ live) :=
    resolve_filter_refs (Excerpts.unique_of_nodup h.chassisIds) _
  rw [candidates, candidates, hresolve, alive, alive, List.filter_filter]
  simp

/-- Rows that no group refers to are no candidates. -/
theorem gateways_collect (live : List Text) (nb : Northbound) :
    gateways live nb.collect = gateways live nb := by
  apply List.map_congr_left
  intro g hg
  have hrows : memberRows nb.collect g.haChassis = memberRows nb g.haChassis :=
    resolve_filter_rows fun r _ hr => isMember_iff.mpr ⟨g, hg, hr⟩
  exact congrArg (fun rows => Gateway.mk g.uuid g.name g.externalIds (alive live rows)) hrows

theorem withoutStale_spec (live : List Text) (h : Committed nb) :
    (withoutStale live nb).commit = some (withoutStale live nb).collect ∧
      Committed (withoutStale live nb).collect ∧
      SameRest nb (withoutStale live nb).collect ∧
      gateways live (withoutStale live nb).collect = gateways live nb ∧
      findStaleHaChassis (withoutStale live nb).collect.haChassis live = [] := by
  have hrest : SameRest nb (withoutStale live nb) :=
    ⟨rfl, rfl, rfl, rfl, by simp [withoutStale, Function.comp_def]⟩
  have hintegrity : Integrity (withoutStale live nb) := by
    refine ⟨?_, h.integrity.ports, fun p hp => hrest.resolves (h.integrity.switchPorts p hp),
      fun p hp => hrest.resolves (h.integrity.routerPorts p hp)⟩
    intro g hg
    obtain ⟨old, hold, rfl⟩ := List.mem_map.mp hg
    exact fun m hm => h.integrity.members old hold m (List.mem_filter.mp hm).1
  obtain ⟨hcommit, hcommitted⟩ := committed_commit hintegrity h.chassisIds
    (hrest.groupIds ▸ h.groupIds) (hrest.groupNames ▸ h.groupNames) h.portIds h.routerPortIds
    h.fresh
  have hports : nb.collect.switchPorts = nb.switchPorts := by rw [h.collect_eq]
  refine ⟨hcommit, hcommitted, ⟨rfl, rfl, hports, rfl, hrest.groups⟩, ?_, ?_⟩
  · rw [gateways_collect, gateways, withoutStale, List.map_map]
    apply List.map_congr_left
    intro g _
    exact congrArg (Gateway.mk g.uuid g.name g.externalIds) (candidates_withoutStale h g.haChassis)
  · rw [findStaleHaChassis, List.filter_eq_nil_iff]
    intro r hr hstale
    obtain ⟨hr, hreferred⟩ := List.mem_filter.mp hr
    obtain ⟨g, hg, hmem⟩ := isMember_iff.mp hreferred
    obtain ⟨old, -, rfl⟩ := List.mem_map.mp hg
    have hkept := (List.mem_filter.mp hmem).2
    rw [decide_eq_true_iff] at hkept
    exact hkept (List.mem_map_of_mem (List.mem_filter.mpr ⟨hr, hstale⟩))

/-- A stale row is a member of some group. -/
theorem noStale_of_noRecords (h : Committed nb)
    (hnone : mapGroupsToStaleMembers nb.groups (staleUuids live nb) = []) :
    findStaleHaChassis nb.haChassis live = [] := by
  rw [List.eq_nil_iff_forall_not_mem]
  intro r hr
  obtain ⟨g, hg, hmem⟩ := h.haChassis r (List.mem_filter.mp hr).1
  have hstale : r.uuid ∈ g.haChassis.filter fun m => m ∈ staleUuids live nb :=
    List.mem_filter.mpr ⟨hmem, decide_eq_true (List.mem_map_of_mem hr)⟩
  have hgroup := List.flatMap_eq_nil_iff.mp hnone g hg
  rw [List.map_eq_nil_iff] at hgroup
  rw [hgroup] at hstale
  cases hstale

/-! Phase 2. -/

def addCandidate (p : Repopulation) (g : Gateway) : Gateway :=
  if g.uuid = p.groupUuid then
    { g with candidates := g.candidates ++ [(p.targetChassis, haChassisGroupHighestPriority)] }
  else g

theorem addMember_spec (h : Committed nb) {p : Repopulation} (hlive : p.targetChassis ∈ live)
    (hgroup : ∃ g ∈ nb.groups, g.uuid = p.groupUuid) :
    Committed (addMember nb p) ∧ SameRest nb (addMember nb p) ∧
      gateways live (addMember nb p) = (gateways live nb).map (addCandidate p) ∧
      findStaleHaChassis (addMember nb p).haChassis live = findStaleHaChassis nb.haChassis live := by
  have hmembers (g : HaChassisGroup) (hg : g ∈ nb.groups) : ∀ m ∈ g.haChassis, m < nb.nextUuid := by
    intro m hm
    obtain ⟨r, hr, rfl⟩ := h.integrity.members g hg m hm
    exact h.fresh r hr
  have hrest : SameRest nb (addMember nb p) := by
    refine ⟨rfl, rfl, rfl, rfl, ?_⟩
    rw [addMember, List.map_map]
    apply List.map_congr_left
    intro g _
    simp only [Function.comp_apply]
    split <;> rfl
  refine ⟨⟨⟨?_, h.integrity.ports, fun q hq => hrest.resolves (h.integrity.switchPorts q hq),
    fun q hq => hrest.resolves (h.integrity.routerPorts q hq)⟩, ?_, h.switchPorts, ?_,
    hrest.groupIds ▸ h.groupIds, hrest.groupNames ▸ h.groupNames, h.portIds, h.routerPortIds, ?_⟩,
    hrest, ?_, ?_⟩
  · intro g hg m hm
    obtain ⟨old, hold, rfl⟩ := List.mem_map.mp hg
    have hkept (hm : m ∈ old.haChassis) : ∃ r ∈ (addMember nb p).haChassis, r.uuid = m := by
      obtain ⟨r, hr, he⟩ := h.integrity.members old hold m hm
      exact ⟨r, List.mem_append_left _ hr, he⟩
    split at hm
    next =>
      rcases List.mem_append.mp hm with hm | hm
      · exact hkept hm
      · rw [List.mem_singleton.mp hm]
        exact ⟨_, List.mem_append_right _ (List.mem_singleton_self _), rfl⟩
    next => exact hkept hm
  · intro r hr
    rcases List.mem_append.mp hr with hr | hr
    · obtain ⟨g, hg, hmem⟩ := h.haChassis r hr
      refine ⟨_, List.mem_map_of_mem hg, ?_⟩
      split
      next => exact List.mem_append_left _ hmem
      next => exact hmem
    · obtain ⟨g, hg, he⟩ := hgroup
      refine ⟨_, List.mem_map_of_mem hg, ?_⟩
      rw [if_pos he, List.mem_singleton.mp hr]
      exact List.mem_append_right _ (List.mem_singleton_self _)
  · rw [addMember, List.map_append, List.nodup_append]
    refine ⟨h.chassisIds, by simp, ?_⟩
    intro a ha b hb
    obtain ⟨r, hr, rfl⟩ := List.mem_map.mp ha
    have hlt := h.fresh r hr
    simp only [List.map_cons, List.map_nil, List.mem_singleton] at hb
    omega
  · intro r hr
    rcases List.mem_append.mp hr with hr | hr
    · exact Nat.lt_succ_of_lt (h.fresh r hr)
    · rw [List.mem_singleton.mp hr]
      exact Nat.lt_succ_self _
  · rw [gateways, gateways, List.map_map]
    refine List.map_map.trans (List.map_congr_left fun g hg => ?_)
    have hold : memberRows (addMember nb p) g.haChassis = memberRows nb g.haChassis := by
      apply resolve_append_rows
      intro r hr hmem
      have hlt := hmembers g hg _ hmem
      rw [List.mem_singleton.mp hr] at hlt
      exact Nat.lt_irrefl _ hlt
    have hnew : memberRows (addMember nb p) [nb.nextUuid] =
        [⟨nb.nextUuid, p.targetChassis, haChassisGroupHighestPriority⟩] := by
      have hnone : nb.haChassis.find? (fun r => r.uuid = nb.nextUuid) = none := by
        rw [List.find?_eq_none]
        intro r hr
        have hlt := h.fresh r hr
        rw [decide_eq_true_iff]
        omega
      simp [memberRows, resolve, addMember, List.find?_append, hnone]
    simp only [Function.comp_apply, addCandidate]
    by_cases he : g.uuid = p.groupUuid
    · have hboth : candidates live (addMember nb p) (g.haChassis ++ [nb.nextUuid]) =
          candidates live nb g.haChassis ++
            [(p.targetChassis, haChassisGroupHighestPriority)] := by
        have happend : memberRows (addMember nb p) (g.haChassis ++ [nb.nextUuid]) =
            memberRows (addMember nb p) g.haChassis ++ memberRows (addMember nb p) [nb.nextUuid] :=
          resolve_append _ _ _ _
        rw [candidates, happend, alive_append, hold, hnew]
        simp [candidates, alive, hlive]
      rw [if_pos he, gatewayOf, if_pos (show (gatewayOf live nb g).uuid = p.groupUuid from he)]
      exact congrArg (Gateway.mk g.uuid g.name g.externalIds) hboth
    · rw [if_neg he, if_neg (show ¬(gatewayOf live nb g).uuid = p.groupUuid from he)]
      exact congrArg (fun rows => Gateway.mk g.uuid g.name g.externalIds (alive live rows)) hold
  · rw [addMember, findStaleHaChassis, List.filter_append]
    simp [findStaleHaChassis, hlive]

theorem memberRows_remaining (h : Committed nb) (members : List ℕ) :
    memberRows nb (members.filter fun m => m ∉ staleUuids live nb) =
      (memberRows nb members).filter fun r => decide (r.chassisName ∈ live) :=
  resolve_filter_refs (Excerpts.unique_of_nodup h.chassisIds) _

theorem remaining_eq_nil_iff (h : Committed nb) {g : HaChassisGroup} (hg : g ∈ nb.groups) :
    g.haChassis.filter (fun m => m ∉ staleUuids live nb) = [] ↔
      candidates live nb g.haChassis = [] := by
  have hresolves : Resolves HaChassis.uuid nb.haChassis
      (g.haChassis.filter fun m => m ∉ staleUuids live nb) :=
    fun m hm => h.integrity.members g hg m (List.mem_filter.mp hm).1
  rw [← resolve_eq_nil_iff hresolves, candidates, alive, List.map_eq_nil_iff]
  exact (congrArg (· = []) (memberRows_remaining h g.haChassis)).to_iff

/-- The script finds the chassis of a router as the abstract choice does. -/
theorem toOption_sourceChassis (h : Committed nb) {g : Gateway} {routerId : Text}
    (hrouter : externalId ovnRouterIdExtIdKey g.externalIds = some routerId) :
    (sourceChassis live nb (staleUuids live nb) routerId).toOption =
      chosen live nb.routers (gateways live nb) g := by
  have hfind : (gateways live nb).reverse.find? (fun r => r.name = neutronPrefix ++ routerId) =
      (nb.groups.reverse.find? fun r => r.name = neutronPrefix ++ routerId).map
        (gatewayOf live nb) := by
    rw [gateways, ← List.map_reverse, List.find?_map]
    rfl
  unfold sourceChassis chosen
  rw [hrouter, Option.bind_eq_bind, Option.bind_some]
  cases routerChassisById nb.routers routerId with
  | some centralized =>
    dsimp only
    split <;> rfl
  | none =>
    rw [hfind]
    cases nb.groups.reverse.find? fun r => r.name = neutronPrefix ++ routerId with
    | none => rfl
    | some routerGroup =>
      have hnames : (memberRows nb (routerGroup.haChassis.filter fun m =>
            m ∉ staleUuids live nb)).map HaChassis.chassisName =
          (gatewayOf live nb routerGroup).candidates.map Prod.fst := by
        rw [memberRows_remaining h, gatewayOf, candidates, alive, List.map_map]
        rfl
      simp only [hnames, Option.map_some, Option.bind_eq_bind, Option.bind_some, onlyOne]
      generalize ((gatewayOf live nb routerGroup).candidates.map Prod.fst).dedup = names
      rcases names with _ | ⟨name, _ | ⟨other, rest⟩⟩ <;> rfl

/-- The group that the script plans for, if any. -/
def planned (live : List Text) (nb : Northbound) (g : HaChassisGroup) : Option Repopulation :=
  (planGroup live nb (staleUuids live nb) g).bind Except.toOption

theorem planRepopulation_eq (live : List Text) (nb : Northbound) :
    (planRepopulation live nb (staleUuids live nb)).1 = nb.groups.filterMap (planned live nb) :=
  List.filterMap_filterMap

theorem planned_uuid {g : HaChassisGroup} {p : Repopulation} (hp : planned live nb g = some p) :
    p.groupUuid = g.uuid := by
  obtain ⟨turn, hturn, hok⟩ := Option.bind_eq_some_iff.mp hp
  unfold planGroup at hturn
  repeat' split at hturn
  all_goals cases hturn
  all_goals cases hok
  rfl

/-- The script plans for the networks without candidates, and takes the abstract choice. -/
theorem planned_target (live : List Text) (h : Committed nb) {g : HaChassisGroup} (hg : g ∈ nb.groups) :
    (planned live nb g).map Repopulation.targetChassis =
      if isNetworkGroup (gatewayOf live nb g) ∧ (gatewayOf live nb g).candidates = [] then
        chosen live nb.routers (gateways live nb) (gatewayOf live nb g)
      else none := by
  have hnetwork : isNetworkGroup (gatewayOf live nb g) =
      (externalId ovnNetworkIdExtIdKey g.externalIds).isSome := rfl
  have hcandidates : (gatewayOf live nb g).candidates = [] ↔
      g.haChassis.filter (fun m => m ∉ staleUuids live nb) = [] := (remaining_eq_nil_iff h hg).symm
  unfold planned planGroup
  cases hid : externalId ovnNetworkIdExtIdKey g.externalIds with
  | none =>
    rw [if_neg fun hboth => by simp [hnetwork, hid] at hboth]
    rfl
  | some networkId =>
    by_cases hremaining : g.haChassis.filter (fun m => m ∉ staleUuids live nb) = []
    · rw [if_pos ⟨by rw [hnetwork, hid, Option.isSome_some], hcandidates.mpr hremaining⟩]
      dsimp only
      rw [if_neg (not_not.mpr hremaining)]
      cases hrouter : externalId ovnRouterIdExtIdKey g.externalIds with
      | none =>
        unfold chosen
        rw [show (gatewayOf live nb g).externalIds = g.externalIds from rfl, hrouter]
        rfl
      | some routerId =>
        rw [← toOption_sourceChassis h (g := gatewayOf live nb g) hrouter]
        dsimp only
        cases sourceChassis live nb (staleUuids live nb) routerId <;> rfl
    · rw [if_neg fun hboth => hremaining (hcandidates.mp hboth.2)]
      dsimp only
      rw [if_pos hremaining]
      rfl

theorem chosen_live {routers : List LogicalRouter} {g : Gateway} {c : Text}
    (hc : chosen live routers (gateways live nb) g = some c) : c ∈ live := by
  unfold chosen at hc
  obtain ⟨routerId, -, hc⟩ := Option.bind_eq_some_iff.mp hc
  cases hcentral : routerChassisById routers routerId with
  | some centralized =>
    simp only [hcentral, Option.ite_none_right_eq_some, Option.some.injEq] at hc
    exact hc.2 ▸ hc.1
  | none =>
    rw [hcentral] at hc
    obtain ⟨routerGroup, hfind, hc⟩ := Option.bind_eq_some_iff.mp hc
    have hmem := List.mem_reverse.mp (List.mem_of_find?_eq_some hfind)
    obtain ⟨group, -, rfl⟩ := List.mem_map.mp hmem
    have hname : c ∈ ((gatewayOf live nb group).candidates.map Prod.fst).dedup := by
      unfold onlyOne at hc
      split at hc
      next hdedup =>
        cases hc
        simp [hdedup]
      next => cases hc
    obtain ⟨e, he, rfl⟩ := List.mem_map.mp (List.mem_dedup.mp hname)
    obtain ⟨r, hr, rfl⟩ := List.mem_map.mp he
    exact of_decide_eq_true (List.mem_filter.mp hr).2

theorem foldl_addMember (h : Committed nb) {plan : List Repopulation}
    (hplan : ∀ p ∈ plan, p.targetChassis ∈ live ∧ ∃ g ∈ nb.groups, g.uuid = p.groupUuid) :
    Committed (plan.foldl addMember nb) ∧ SameRest nb (plan.foldl addMember nb) ∧
      gateways live (plan.foldl addMember nb) = (gateways live nb).map (fun g => { g with
        candidates := g.candidates ++ (plan.filter fun p => p.groupUuid = g.uuid).map fun p =>
          (p.targetChassis, haChassisGroupHighestPriority) }) ∧
      findStaleHaChassis (plan.foldl addMember nb).haChassis live =
        findStaleHaChassis nb.haChassis live := by
  induction plan generalizing nb with
  | nil => exact ⟨h, SameRest.refl nb, by simp, rfl⟩
  | cons p plan ih =>
    obtain ⟨hlive, hgroup⟩ := hplan p List.mem_cons_self
    obtain ⟨h₁, hrest₁, hgateways₁, hstale₁⟩ := addMember_spec h hlive hgroup
    have hplan₁ : ∀ q ∈ plan, q.targetChassis ∈ live ∧
        ∃ g ∈ (addMember nb p).groups, g.uuid = q.groupUuid := by
      intro q hq
      obtain ⟨hq, g, hg, he⟩ := hplan q (List.mem_cons_of_mem _ hq)
      refine ⟨hq, List.mem_map.mp ?_⟩
      rw [hrest₁.groupIds, ← he]
      exact List.mem_map_of_mem hg
    obtain ⟨h₂, hrest₂, hgateways₂, hstale₂⟩ := ih h₁ hplan₁
    refine ⟨h₂, hrest₁.trans hrest₂, ?_, hstale₂.trans hstale₁⟩
    rw [List.foldl_cons, hgateways₂, hgateways₁, List.map_map]
    apply List.map_congr_left
    intro g _
    simp only [Function.comp_apply, addCandidate]
    by_cases he : g.uuid = p.groupUuid
    · simp [he]
    · simp [he, Ne.symm he]

/-- What the plan adds is what the abstract refill does. -/
theorem added_eq_refill (h : Committed nb) :
    (gateways live nb).map (fun g => { g with
      candidates := g.candidates ++ ((planRepopulation live nb (staleUuids live nb)).1.filter
        fun p => p.groupUuid = g.uuid).map fun p =>
          (p.targetChassis, haChassisGroupHighestPriority) }) =
      refill live nb.routers (gateways live nb) := by
  rw [planRepopulation_eq, refill]
  apply List.map_congr_left
  intro gw hgw
  obtain ⟨g, hg, rfl⟩ := List.mem_map.mp hgw
  have hpicked : (nb.groups.filterMap (planned live nb)).filter (fun p => p.groupUuid = g.uuid) =
      (planned live nb g).toList :=
    filterMap_filter_id (fun _ _ hp => planned_uuid hp) h.groupIds hg
  have hadded : ((planned live nb g).toList.map fun p =>
      (p.targetChassis, haChassisGroupHighestPriority)) =
      ((planned live nb g).map Repopulation.targetChassis).toList.map fun c =>
        (c, haChassisGroupHighestPriority) := by
    cases planned live nb g <;> rfl
  rw [show (gatewayOf live nb g).uuid = g.uuid from rfl, hpicked, hadded, planned_target live h hg,
    refillGroup]
  split_ifs with hempty
  · rw [hempty.2, List.nil_append]
    rfl
  · rw [Option.toList_none, List.map_nil, List.append_nil]
    rfl

/-! A run. -/

/-- The cleanup is carried out, unless there is nothing to clean up. -/
def Answers.cleans (a : Answers) : Bool := a.execute && a.confirmCleanup && a.cleanupReturns

/-- The script exits in the first phase. -/
def exits (live : List Text) (nb : Northbound) (a : Answers) : Bool :=
  findStaleHaChassis nb.haChassis live ≠ [] && a.confirmCleanup && !a.cleanupReturns

/-- The script gets to the second phase and carries it out, unless there is nothing to add. -/
def fills (live : List Text) (nb : Northbound) (a : Answers) : Bool :=
  a.execute && !exits live nb a && !a.skipRepopulate && a.confirmRepopulation &&
    a.repopulationReturns

theorem noRecords_iff (h : Committed nb) :
    mapGroupsToStaleMembers nb.groups (staleUuids live nb) = [] ↔
      findStaleHaChassis nb.haChassis live = [] := by
  refine ⟨noStale_of_noRecords h, fun hnone => ?_⟩
  simp [mapGroupsToStaleMembers, staleUuids, hnone]

theorem executeCleanup_spec (live : List Text) (h : Committed nb) (a : Answers) :
    (exits live nb a = true ∧
      executeCleanup a nb (mapGroupsToStaleMembers nb.groups (staleUuids live nb)) = none) ∨
    (exits live nb a = false ∧ ∃ cleaned,
      executeCleanup a nb (mapGroupsToStaleMembers nb.groups (staleUuids live nb)) = some cleaned ∧
      Committed cleaned ∧ SameRest nb cleaned ∧ gateways live cleaned = gateways live nb ∧
      findStaleHaChassis cleaned.haChassis live =
        if a.confirmCleanup && a.cleanupReturns then []
        else findStaleHaChassis nb.haChassis live) := by
  unfold executeCleanup
  by_cases hnone : findStaleHaChassis nb.haChassis live = []
  · rw [if_pos ((noRecords_iff h).mpr hnone)]
    exact .inr ⟨by simp [exits, hnone], nb, rfl, h, SameRest.refl nb, rfl, by simp [hnone]⟩
  · rw [if_neg (mt (noRecords_iff h).mp hnone)]
    cases hconfirm : a.confirmCleanup with
    | false =>
      exact .inr ⟨by simp [exits, hconfirm], nb, rfl, h, SameRest.refl nb, rfl, rfl⟩
    | true =>
      cases hreturns : a.cleanupReturns with
      | false => exact .inl ⟨by simp [exits, hnone, hconfirm, hreturns], rfl⟩
      | true =>
        have hremoved : ({ nb with groups := (mapGroupsToStaleMembers nb.groups
            (staleUuids live nb)).foldl removeMember nb.groups } : Northbound) =
            withoutStale live nb := by
          rw [removed_eq]
          rfl
        obtain ⟨hcommit, hcommitted, hrest, hgateways, hstale⟩ := withoutStale_spec live h
        rw [hremoved]
        exact .inr ⟨by simp [exits, hreturns], _, hcommit, hcommitted, hrest, hgateways, hstale⟩

/-- The plan was made from the tables before the cleanup. -/
theorem executeRepopulation_spec {cleaned : Northbound} (h : Committed nb)
    (hcleaned : Committed cleaned) (hrest : SameRest nb cleaned)
    (hgateways : gateways live cleaned = gateways live nb) (a : Answers) :
    ((a.confirmRepopulation && a.repopulationReturns) = true → ∃ filled,
      executeRepopulation a cleaned (planRepopulation live nb (staleUuids live nb)).1 =
        some filled ∧
      Committed filled ∧ SameRest nb filled ∧
      gateways live filled = refill live nb.routers (gateways live nb) ∧
      findStaleHaChassis filled.haChassis live = findStaleHaChassis cleaned.haChassis live) ∧
    ((a.confirmRepopulation && a.repopulationReturns) = false →
      (executeRepopulation a cleaned (planRepopulation live nb (staleUuids live nb)).1).getD
        cleaned = cleaned) := by
  have hplan : ∀ p ∈ (planRepopulation live nb (staleUuids live nb)).1,
      p.targetChassis ∈ live ∧ ∃ g ∈ cleaned.groups, g.uuid = p.groupUuid := by
    intro p hp
    rw [planRepopulation_eq] at hp
    obtain ⟨g, hg, hplanned⟩ := List.mem_filterMap.mp hp
    have htarget := planned_target live h hg
    rw [hplanned, Option.map_some] at htarget
    split at htarget
    next =>
      refine ⟨chosen_live htarget.symm, List.mem_map.mp ?_⟩
      rw [hrest.groupIds, planned_uuid hplanned]
      exact List.mem_map_of_mem hg
    next => cases htarget
  obtain ⟨hcommitted, hrest', hadded, hstale⟩ := foldl_addMember hcleaned hplan
  rw [hgateways, added_eq_refill h] at hadded
  have hcommit := (committed_commit hcommitted.integrity hcommitted.chassisIds hcommitted.groupIds
    hcommitted.groupNames hcommitted.portIds hcommitted.routerPortIds hcommitted.fresh).1
  rw [hcommitted.collect_eq] at hcommit
  constructor
  · intro hboth
    obtain ⟨hconfirm, hreturns⟩ := Bool.and_eq_true_iff.mp hboth
    unfold executeRepopulation
    split
    next hnone =>
      refine ⟨cleaned, rfl, hcleaned, hrest, ?_, rfl⟩
      rw [hnone] at hadded
      exact hgateways ▸ hadded
    next =>
      exact ⟨_, hcommit, hcommitted, hrest.trans hrest', hadded, hstale⟩
  · intro hnot
    unfold executeRepopulation
    split
    next => rfl
    next =>
      split
      next => rfl
      next hconfirm =>
        rw [not_not.mp hconfirm, Bool.true_and] at hnot
        rw [hnot]
        rfl

/-- One run refines the abstract refill. -/
theorem repair_spec (live : List Text) (h : Committed nb) (a : Answers) :
    Committed (repair live a nb).1 ∧ SameRest nb (repair live a nb).1 ∧
      gateways live (repair live a nb).1 =
        (if fills live nb a then refill live nb.routers (gateways live nb)
        else gateways live nb) ∧
      findStaleHaChassis (repair live a nb).1.haChassis live =
        if a.cleans then [] else findStaleHaChassis nb.haChassis live := by
  unfold repair
  cases hexecute : a.execute with
  | false =>
    exact ⟨h, SameRest.refl nb, by simp [fills, hexecute], by simp [Answers.cleans, hexecute]⟩
  | true =>
    rw [if_neg (not_not.mpr rfl)]
    dsimp only
    rw [show (findStaleHaChassis nb.haChassis live).map HaChassis.uuid = staleUuids live nb from rfl]
    have hcleans : a.cleans = (a.confirmCleanup && a.cleanupReturns) := by
      rw [Answers.cleans, hexecute, Bool.true_and]
    rcases executeCleanup_spec live h a with
      ⟨hexits, hnone⟩ | ⟨hstays, cleaned, hsome, hcleaned, hrest, hgateways, hstale⟩
    · rw [hnone]
      refine ⟨h, SameRest.refl nb, by simp [fills, hexits], ?_⟩
      have hreturns : a.cleanupReturns = false := by
        simp only [exits, Bool.and_eq_true, Bool.not_eq_true'] at hexits
        exact hexits.2
      rw [hcleans, hreturns, Bool.and_false]
      rfl
    · rw [hsome]
      dsimp only
      rw [← hcleans] at hstale
      obtain ⟨hdone, hnot⟩ := executeRepopulation_spec h hcleaned hrest hgateways a
      have hkeeps : fills live nb a = false → gateways live cleaned =
          if fills live nb a then refill live nb.routers (gateways live nb)
          else gateways live nb := by
        intro hfills
        rw [hgateways, hfills]
        rfl
      cases hskip : a.skipRepopulate with
      | true => exact ⟨hcleaned, hrest, hkeeps (by simp [fills, hskip]), hstale⟩
      | false =>
        rw [if_neg (by simp)]
        cases hboth : a.confirmRepopulation && a.repopulationReturns with
        | true =>
          obtain ⟨filled, hfilled, hcommitted, hrest', hrefill, hstale'⟩ := hdone hboth
          rw [hfilled]
          have hfills : fills live nb a = true := by
            rw [fills, hexecute, hstays, hskip, Bool.and_assoc, hboth]
            rfl
          exact ⟨hcommitted, hrest', by rw [hfills]; exact hrefill, hstale'.trans hstale⟩
        | false =>
          have hfills : fills live nb a = false := by
            rw [fills, Bool.and_assoc, hboth, Bool.and_false]
          have hsame := hnot hboth
          cases hfilled : executeRepopulation a cleaned
              (planRepopulation live nb (staleUuids live nb)).1 with
          | none => exact ⟨hcleaned, hrest, hkeeps hfills, hstale⟩
          | some filled =>
            rw [hfilled, Option.getD_some] at hsame
            rw [hsame]
            exact ⟨hcleaned, hrest, hkeeps hfills, hstale⟩

/-! Runs. -/

/-- The group of a network is not the own group of a router: their ids differ. -/
def Apart (gs : List Gateway) : Prop :=
  ∀ g ∈ gs, isNetworkGroup g = true → ∀ r ∈ gs,
    ∀ routerId ∈ externalId ovnRouterIdExtIdKey r.externalIds, g.name ≠ neutronPrefix ++ routerId

variable {routers : List LogicalRouter} {gs : List Gateway}

theorem refillGroup_fixed (live : List Text) (routers : List LogicalRouter) (gs : List Gateway)
    (g : Gateway) : (refillGroup live routers gs g).name = g.name ∧
      (refillGroup live routers gs g).externalIds = g.externalIds := by
  unfold refillGroup
  split_ifs <;> exact ⟨rfl, rfl⟩

/-- The groups that the choice depends on are not refilled. -/
theorem chosen_refill (live : List Text) (routers : List LogicalRouter) (hapart : Apart gs) {g : Gateway} (hg : g ∈ gs) :
    chosen live routers (refill live routers gs) (refillGroup live routers gs g) =
      chosen live routers gs g := by
  unfold chosen
  rw [(refillGroup_fixed live routers gs g).2]
  cases hrouter : externalId ovnRouterIdExtIdKey g.externalIds with
  | none => rfl
  | some routerId =>
    rw [Option.bind_eq_bind, Option.bind_some, Option.bind_some]
    cases routerChassisById routers routerId with
    | some centralized => rfl
    | none =>
      have hfind : (refill live routers gs).reverse.find?
            (fun r => r.name = neutronPrefix ++ routerId) =
          gs.reverse.find? fun r => r.name = neutronPrefix ++ routerId := by
        have hnames : ((fun r : Gateway => decide (r.name = neutronPrefix ++ routerId)) ∘
            refillGroup live routers gs) = fun r => decide (r.name = neutronPrefix ++ routerId) := by
          funext r
          simp only [Function.comp_apply, (refillGroup_fixed live routers gs r).1]
        rw [refill, ← List.map_reverse, List.find?_map, hnames]
        cases hfound : gs.reverse.find? fun r => r.name = neutronPrefix ++ routerId with
        | none => rfl
        | some r =>
          have hr := List.mem_reverse.mp (List.mem_of_find?_eq_some hfound)
          have hname : r.name = neutronPrefix ++ routerId := by
            simpa using List.find?_some hfound
          have hnot : ¬(isNetworkGroup r = true ∧ r.candidates = []) := fun hboth =>
            hapart r hr hboth.1 g hg routerId hrouter hname
          rw [Option.map_some, refillGroup, if_neg hnot]
      simp only [hfind]

theorem refill_refill (hapart : Apart gs) :
    refill live routers (refill live routers gs) = refill live routers gs := by
  have hmap : refill live routers (refill live routers gs) = gs.map fun g =>
      refillGroup live routers (refill live routers gs) (refillGroup live routers gs g) :=
    List.map_map
  rw [hmap]
  apply List.map_congr_left
  intro g hg
  have hchosen := chosen_refill live routers hapart hg
  have hnetwork : isNetworkGroup (refillGroup live routers gs g) = isNetworkGroup g := by
    rw [isNetworkGroup, (refillGroup_fixed live routers gs g).2]
    rfl
  by_cases hempty : isNetworkGroup g ∧ g.candidates = []
  · have hcandidates : (refillGroup live routers gs g).candidates =
        (chosen live routers gs g).toList.map fun c => (c, haChassisGroupHighestPriority) := by
      rw [refillGroup, if_pos hempty]
    rw [refillGroup, hchosen, hnetwork]
    split_ifs with hagain
    · rw [← hcandidates]
    · rfl
  · have hsame : refillGroup live routers gs g = g := by rw [refillGroup, if_neg hempty]
    rw [hsame, refillGroup, if_neg hempty]

theorem Apart.refill (hapart : Apart gs) : Apart (refill live routers gs) := by
  intro g' hg' hnetwork r' hr' routerId hrouter
  obtain ⟨g, hg, rfl⟩ := List.mem_map.mp hg'
  obtain ⟨r, hr, rfl⟩ := List.mem_map.mp hr'
  rw [(refillGroup_fixed live routers gs r).2] at hrouter
  rw [(refillGroup_fixed live routers gs g).1]
  refine hapart g hg ?_ r hr routerId hrouter
  rwa [isNetworkGroup, (refillGroup_fixed live routers gs g).2] at hnetwork

/-- Run after run of the script. -/
def repairs (live : List Text) (nb : Northbound) (runs : List Answers) : Northbound :=
  runs.foldl (fun nb a => (repair live a nb).1) nb

/-- Some run of the script carries out its second phase. -/
def filled (live : List Text) : Northbound → List Answers → Bool
  | _, [] => false
  | nb, a :: rest => fills live nb a || filled live (repair live a nb).1 rest

/-- However the operator answers, however often the script runs and whatever transactions fail:
the groups keep exactly their members on live chassis, and the groups of networks that had none
have the chassis of their router once a run got to it; the dead members are gone once a run
removed them. Nothing else changes. -/
theorem repairs_settle (live : List Text) (nb : Northbound) (h : Committed nb)
    (hapart : Apart (gateways live nb)) (runs : List Answers) :
    Committed (repairs live nb runs) ∧ SameRest nb (repairs live nb runs) ∧
      gateways live (repairs live nb runs) =
        (if filled live nb runs then refill live nb.routers (gateways live nb)
        else gateways live nb) ∧
      findStaleHaChassis (repairs live nb runs).haChassis live =
        if runs.any Answers.cleans then [] else findStaleHaChassis nb.haChassis live := by
  unfold repairs
  induction runs generalizing nb with
  | nil => exact ⟨h, SameRest.refl nb, rfl, rfl⟩
  | cons a runs ih =>
    obtain ⟨h₁, hrest₁, hgateways₁, hstale₁⟩ := repair_spec live h a
    have hapart₁ : Apart (gateways live (repair live a nb).1) := by
      rw [hgateways₁]
      split_ifs
      · exact hapart.refill
      · exact hapart
    obtain ⟨h₂, hrest₂, hgateways₂, hstale₂⟩ := ih (repair live a nb).1 h₁ hapart₁
    refine ⟨h₂, hrest₁.trans hrest₂, ?_, ?_⟩
    · rw [List.foldl_cons, hgateways₂, hrest₁.routers, hgateways₁, filled]
      cases fills live nb a with
      | true =>
        rw [if_pos rfl, refill_refill hapart, ite_self]
        rfl
      | false => rfl
    · rw [List.foldl_cons, hstale₂, hstale₁, List.any_cons]
      cases a.cleans with
      | true =>
        rw [if_pos rfl, ite_self]
        rfl
      | false => rfl

/-- The host of chassis `c1` was replaced: the router of the one network is pinned to the new
chassis, that of the other network has it in its own group. -/
def replacedHost : Northbound where
  haChassis := [⟨1, "c1".toList, 3⟩, ⟨2, "c1".toList, 3⟩, ⟨3, "c2".toList, 1⟩]
  groups :=
    [⟨10, "neutron-n1".toList, [1],
      [(ovnNetworkIdExtIdKey, "n1".toList), (ovnRouterIdExtIdKey, "r1".toList)]⟩,
    ⟨11, "neutron-n2".toList, [2],
      [(ovnNetworkIdExtIdKey, "n2".toList), (ovnRouterIdExtIdKey, "r2".toList)]⟩,
    ⟨12, "neutron-r2".toList, [3], [(ovnRouterIdExtIdKey, "r2".toList)]⟩]
  routers := [⟨"neutron-r1".toList, [("chassis".toList, "c2".toList)]⟩, ⟨"neutron-r2".toList, []⟩]
  switches := []
  switchPorts := []
  routerPorts := []
  nextUuid := 4

theorem replacedHost_committed : Committed replacedHost where
  integrity := by decide
  haChassis := by decide
  switchPorts := by decide
  chassisIds := by decide
  groupIds := by decide
  groupNames := by decide
  portIds := by decide
  routerPortIds := by decide
  fresh := by decide

/-- The operator first declines the cleanup, then its transaction fails. -/
def replacedHostRuns : List Answers :=
  [⟨true, false, true, true, true, true⟩, ⟨true, true, false, false, true, true⟩,
    ⟨true, true, true, false, true, true⟩]

theorem repairs_settle_replacedHost :
    Committed replacedHost ∧ Apart (gateways ["c2".toList] replacedHost) ∧
    (gateways ["c2".toList] (repairs ["c2".toList] replacedHost replacedHostRuns)).map
      Gateway.candidates = [[("c2".toList, 32767)], [("c2".toList, 32767)], [("c2".toList, 1)]] ∧
    findStaleHaChassis (repairs ["c2".toList] replacedHost replacedHostRuns).haChassis
      ["c2".toList] = [] := by
  have hapart : Apart (gateways ["c2".toList] replacedHost) := by
    unfold Apart
    decide
  obtain ⟨-, -, hgateways, hstale⟩ :=
    repairs_settle ["c2".toList] replacedHost replacedHost_committed hapart replacedHostRuns
  refine ⟨replacedHost_committed, hapart, ?_, ?_⟩
  · rw [hgateways]
    decide
  · rw [hstale]
    decide

end Understack.Ovn
