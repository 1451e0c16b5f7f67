import Understack.Ovn.GatewayRuns
import Understack.Ovn.OrphanNetworks

/-! What the removal of orphaned networks is for: the networks that Neutron denies are gone whole,
and every other network is as it was. The transactions of the script, one network each, add up to
one removal of all of them. -/
namespace Understack.Ovn
open PyText References KeyedTable

/-! The removal of all networks at once. -/

def groupsOf (gone : Text → Bool) (nb : Northbound) : List ℕ :=
  (nb.groups.filter fun g => gone g.name).map HaChassisGroup.uuid

/-- The port without its reference to one of the groups. -/
def release (groups : List ℕ) (p : Port) : Port :=
  { p with haChassisGroup := p.haChassisGroup.filter fun u => u ∉ groups }

def withoutNetworks (gone : Text → Bool) (nb : Northbound) : Northbound :=
  { nb with
    groups := nb.groups.filter fun g => ¬gone g.name
    switches := nb.switches.filter fun s => ¬gone s.name
    switchPorts := nb.switchPorts.map (release (groupsOf gone nb))
    routerPorts := nb.routerPorts.map (release (groupsOf gone nb)) }

/-- The networks of these names are gone: their switches with the ports that no other switch has,
their groups with the members that no other group has. -/
def removeNetworks (gone : Text → Bool) (nb : Northbound) : Northbound :=
  (withoutNetworks gone nb).collect

variable {nb : Northbound} {gone gone' : Text → Bool}

theorem release_release (groups groups' : List ℕ) (p : Port) :
    release groups' (release groups p) = release (groups ++ groups') p := by
  rw [release, release, release, Option.filter_filter]
  simp only [List.mem_append, not_or, Bool.decide_and]

theorem release_comm (groups groups' : List ℕ) (p : Port) :
    release groups' (release groups p) = release groups (release groups' p) := by
  rw [release_release, release_release, release, release]
  simp only [List.mem_append, or_comm]

theorem map_uuid_release (groups : List ℕ) (ports : List Port) :
    (ports.map (release groups)).map Port.uuid = ports.map Port.uuid := List.map_map

theorem withoutNetworks_integrity (h : Integrity nb) (gone : Text → Bool) :
    Integrity (withoutNetworks gone nb) := by
  have hports {ports : List Port}
      (hports : ∀ p ∈ ports, Resolves HaChassisGroup.uuid nb.groups p.haChassisGroup.toList) :
      ∀ p ∈ ports.map (release (groupsOf gone nb)),
        Resolves HaChassisGroup.uuid (withoutNetworks gone nb).groups p.haChassisGroup.toList := by
    intro p' hp' u hu
    obtain ⟨p, hp, rfl⟩ := List.mem_map.mp hp'
    obtain ⟨hpu, hkept⟩ := Option.filter_eq_some_iff.mp (Option.mem_toList.mp hu)
    obtain ⟨g, hg, rfl⟩ := hports p hp u (Option.mem_toList.mpr hpu)
    refine ⟨g, List.mem_filter.mpr ⟨hg, ?_⟩, rfl⟩
    rw [decide_eq_true_iff] at hkept ⊢
    exact fun hgone => hkept (List.mem_map_of_mem (List.mem_filter.mpr ⟨hg, hgone⟩))
  refine ⟨fun g hg => h.members g (List.mem_filter.mp hg).1, ?_, hports h.switchPorts,
    hports h.routerPorts⟩
  intro s hs u hu
  obtain ⟨p, hp, rfl⟩ := h.ports s (List.mem_filter.mp hs).1 u hu
  exact ⟨_, List.mem_map_of_mem hp, rfl⟩

theorem removeNetworks_spec (h : Committed nb) (gone : Text → Bool) :
    (withoutNetworks gone nb).commit = some (removeNetworks gone nb) ∧
      Committed (removeNetworks gone nb) :=
  committed_commit (withoutNetworks_integrity h.integrity gone) h.chassisIds
    ((List.filter_sublist.map _).nodup h.groupIds) ((List.filter_sublist.map _).nodup h.groupNames)
    ((map_uuid_release _ _).symm ▸ h.portIds) ((map_uuid_release _ _).symm ▸ h.routerPortIds)
    h.fresh

/-- Removing some networks and then others is removing them at once. -/
theorem removeNetworks_removeNetworks (gone gone' : Text → Bool) (nb : Northbound) :
    removeNetworks gone' (removeNetworks gone nb) =
      removeNetworks (fun n => gone n || gone' n) nb := by
  have hgroups : (nb.groups.filter fun g => ¬gone g.name).filter (fun g => ¬gone' g.name) =
      nb.groups.filter fun g => ¬(gone g.name || gone' g.name) := by
    rw [List.filter_filter]
    apply List.filter_congr
    intro g _
    simp [Bool.and_comm]
  have hswitches : (nb.switches.filter fun s => ¬gone s.name).filter (fun s => ¬gone' s.name) =
      nb.switches.filter fun s => ¬(gone s.name || gone' s.name) := by
    rw [List.filter_filter]
    apply List.filter_congr
    intro s _
    simp [Bool.and_comm]
  have hrelease (p : Port) : release (groupsOf gone' (removeNetworks gone nb))
      (release (groupsOf gone nb) p) = release (groupsOf (fun n => gone n || gone' n) nb) p := by
    have hmem (u : ℕ) : u ∈ groupsOf gone nb ++ groupsOf gone' (removeNetworks gone nb) ↔
        u ∈ groupsOf (fun n => gone n || gone' n) nb := by
      simp only [groupsOf, removeNetworks, withoutNetworks, Northbound.collect, List.mem_append,
        List.mem_map, List.mem_filter]
      grind
    rw [release_release, release, release]
    simp only [hmem]
  have hmap (ports : List Port) :
      (ports.map (release (groupsOf gone nb))).map
        (release (groupsOf gone' (removeNetworks gone nb))) =
      ports.map (release (groupsOf (fun n => gone n || gone' n) nb)) := by
    rw [List.map_map]
    exact List.map_congr_left fun p _ => hrelease p
  have hmember (r : HaChassis) (hr : isMember ((nb.groups.filter fun g => ¬gone g.name).filter
      fun g => ¬gone' g.name) r = true) :
      isMember (nb.groups.filter fun g => ¬gone g.name) r = true := by
    obtain ⟨g, hg, hmem⟩ := isMember_iff.mp hr
    exact isMember_iff.mpr ⟨g, (List.mem_filter.mp hg).1, hmem⟩
  have hon (p : Port) (hp : isOnSwitch ((nb.switches.filter fun s => ¬gone s.name).filter
      fun s => ¬gone' s.name) p = true) :
      isOnSwitch (nb.switches.filter fun s => ¬gone s.name) p = true := by
    obtain ⟨s, hs, hmem⟩ := isOnSwitch_iff.mp hp
    exact isOnSwitch_iff.mpr ⟨s, (List.mem_filter.mp hs).1, hmem⟩
  apply Northbound.ext
  · have hchassis := filter_map_filter (f := id) (fun _ => rfl) hmember nb.haChassis
    rw [List.map_id, List.map_id] at hchassis
    exact hchassis.trans (congrArg (fun gs => nb.haChassis.filter (isMember gs)) hgroups)
  · exact hgroups
  · rfl
  · exact hswitches
  · have hports := filter_map_filter (f := release (groupsOf gone' (removeNetworks gone nb)))
      (fun _ => rfl) hon (nb.switchPorts.map (release (groupsOf gone nb)))
    rw [hmap] at hports
    exact hports.trans (congrArg (fun switches => List.filter (isOnSwitch switches) _) hswitches)
  · exact hmap nb.routerPorts
  · rfl

/-! One transaction. -/

def clearRefs (uuids : List ℕ) (q : Port) : Port :=
  if q.uuid ∈ uuids then { q with haChassisGroup := none } else q

theorem clearRefs_release (uuids groups : List ℕ) (q : Port) :
    clearRefs uuids (release groups q) = release groups (clearRefs uuids q) := by
  unfold clearRefs
  by_cases hq : q.uuid ∈ uuids
  · rw [if_pos hq]
    exact if_pos hq
  · rw [if_neg hq]
    exact if_neg hq

/-- The commands of a teardown are those for the network of its name. -/
structure Planned (nb : Northbound) (p : Teardown) : Prop where
  group : p.hcgUuid.toList = groupsOf (· = p.switchName) nb
  lsps : ∀ q ∈ nb.switchPorts,
    clearRefs (p.refLsps.map Prod.fst) q = release p.hcgUuid.toList q
  lrps : ∀ q ∈ nb.routerPorts,
    clearRefs (p.refLrps.map Prod.fst) q = release p.hcgUuid.toList q

theorem clearGroup_clearRefs (uuid : ℕ) (uuids : List ℕ) (ports : List Port) :
    (clearGroup uuid ports).map (clearRefs uuids) = ports.map (clearRefs (uuid :: uuids)) := by
  rw [clearGroup, List.map_map]
  apply List.map_congr_left
  intro q _
  by_cases hq : q.uuid = uuid
  · simp [clearRefs, hq]
  · simp [clearRefs, hq]

theorem map_clearRefs_nil (ports : List Port) : ports.map (clearRefs []) = ports :=
  List.map_id'' (fun _ => if_neg List.not_mem_nil) ports

theorem run_clearSwitchPorts (refs : List (ℕ × Text)) (nb : Northbound) :
    (refs.map fun r => NbCommand.clearSwitchPort r.1).foldlM NbCommand.run nb =
      some { nb with switchPorts := nb.switchPorts.map (clearRefs (refs.map Prod.fst)) } := by
  induction refs generalizing nb with
  | nil => simp [map_clearRefs_nil]
  | cons r refs ih =>
    rw [List.map_cons, List.foldlM_cons, NbCommand.run, Option.bind_eq_bind, Option.bind_some, ih,
      clearGroup_clearRefs, List.map_cons]

theorem run_clearRouterPorts (refs : List (ℕ × Text)) (nb : Northbound) :
    (refs.map fun r => NbCommand.clearRouterPort r.1).foldlM NbCommand.run nb =
      some { nb with routerPorts := nb.routerPorts.map (clearRefs (refs.map Prod.fst)) } := by
  induction refs generalizing nb with
  | nil => simp [map_clearRefs_nil]
  | cons r refs ih =>
    rw [List.map_cons, List.foldlM_cons, NbCommand.run, Option.bind_eq_bind, Option.bind_some, ih,
      clearGroup_clearRefs, List.map_cons]

theorem run_destroyGroup (hcg : Option ℕ) (nb : Northbound) :
    (hcg.toList.map NbCommand.destroyGroup).foldlM NbCommand.run nb =
      some { nb with groups := nb.groups.filter fun g => g.uuid ∉ hcg.toList } := by
  cases hcg with
  | none => simp
  | some uuid => simp [NbCommand.run]

/-- No transaction is refused: the references to the group are cleared before it goes. -/
theorem orphanTxn_eq (h : Committed nb) {p : Teardown} (hp : Planned nb p) :
    orphanTxn nb p =
      if 1 < nb.switches.countP (·.name = p.switchName) then none
      else some (removeNetworks (· = p.switchName) nb) := by
  have hgroups : nb.groups.filter (fun g => g.uuid ∉ p.hcgUuid.toList) =
      nb.groups.filter fun g => ¬decide (g.name = p.switchName) = true := by
    rw [hp.group]
    apply List.filter_congr
    intro g hg
    have hmem : g.uuid ∈ groupsOf (· = p.switchName) nb ↔ g.name = p.switchName := by
      rw [groupsOf, List.mem_map]
      constructor
      · rintro ⟨g', hg', he⟩
        obtain ⟨hg', hname⟩ := List.mem_filter.mp hg'
        obtain rfl := Excerpts.unique_of_nodup h.groupIds g' hg' g hg he
        exact of_decide_eq_true hname
      · intro hname
        exact ⟨g, List.mem_filter.mpr ⟨hg, decide_eq_true hname⟩, rfl⟩
    simp [hmem]
  have hlsps := List.map_congr_left hp.lsps
  have hlrps := List.map_congr_left hp.lrps
  simp only [orphanTxn, orphanTxnArgs, List.foldlM_append, Option.bind_eq_bind,
    run_clearSwitchPorts, Option.bind_some, run_clearRouterPorts, List.foldlM_cons,
    List.foldlM_nil, NbCommand.run, hlsps, hlrps]
  split_ifs with hseveral
  · rfl
  · rw [← (removeNetworks_spec h fun n => decide (n = p.switchName)).1]
    simp only [Option.bind_some, Option.pure_def, run_destroyGroup, hgroups, withoutNetworks,
      ← hp.group]
    simp

/-! The transactions one after the other. -/

theorem filter_kept {ρ : Type} (name : ρ → Text) (rows : List ρ) {n : Text} (hkept : gone n = false) :
    (rows.filter fun r => ¬gone (name r)).filter (fun r => decide (name r = n)) =
      rows.filter fun r => decide (name r = n) := by
  rw [List.filter_filter]
  apply List.filter_congr
  intro r _
  by_cases hname : name r = n
  · simp [hname, hkept]
  · simp [hname]

theorem Planned.removeNetworks {p : Teardown} (hp : Planned nb p)
    (hkept : gone p.switchName = false) : Planned (removeNetworks gone nb) p where
  group := hp.group.trans
    (congrArg (List.map HaChassisGroup.uuid) (filter_kept HaChassisGroup.name nb.groups hkept).symm)
  lsps := by
    intro q' hq'
    obtain ⟨q, hq, rfl⟩ := List.mem_map.mp (List.mem_filter.mp hq').1
    rw [clearRefs_release, hp.lsps q hq, release_comm]
  lrps := by
    intro q' hq'
    obtain ⟨q, hq, rfl⟩ := List.mem_map.mp hq'
    rw [clearRefs_release, hp.lrps q hq, release_comm]

theorem countP_removeNetworks {n : Text} (hkept : gone n = false) :
    (removeNetworks gone nb).switches.countP (·.name = n) = nb.switches.countP (·.name = n) := by
  rw [List.countP_eq_length_filter, List.countP_eq_length_filter]
  exact congrArg List.length (filter_kept LogicalSwitch.name nb.switches hkept)

theorem removeNetworks_none (h : Committed nb) : removeNetworks (fun _ => false) nb = nb := by
  have hgroups : groupsOf (fun _ => false) nb = [] := by simp [groupsOf]
  have hrelease : release [] = id := by
    funext p
    rcases p with ⟨uuid, name, _ | u⟩ <;> rfl
  rw [removeNetworks, withoutNetworks, hgroups, hrelease]
  simpa using h.collect_eq

/-- The transaction of a planned network is made and accepted. -/
def succeeds (a : OrphanAnswers) (nb : Northbound) (n : Text) : Bool :=
  a.deletionReturns n && decide (nb.switches.countP (·.name = n) ≤ 1)

def deleted (a : OrphanAnswers) (nb : Northbound) (plan : List Teardown) (n : Text) : Bool :=
  plan.any (·.switchName = n) && succeeds a nb n

theorem deleteNetwork_eq (a : OrphanAnswers) (h : Committed nb) {p : Teardown} (hp : Planned nb p)
    (failed : ℕ) : deleteNetwork a (nb, failed) p =
      if succeeds a nb p.switchName then (removeNetworks (· = p.switchName) nb, failed)
      else (nb, failed + 1) := by
  rw [deleteNetwork, orphanTxn_eq h hp, succeeds]
  cases a.deletionReturns p.switchName with
  | false => rfl
  | true =>
    by_cases hseveral : 1 < nb.switches.countP (·.name = p.switchName)
    · simp [hseveral, Nat.not_le.mpr hseveral]
    · simp [hseveral, Nat.not_lt.mp hseveral]

/-- The plan names no switch more often than there are switches of the name. -/
theorem foldl_deleteNetwork (a : OrphanAnswers) (h : Committed nb) {plan : List Teardown}
    (hplan : ∀ p ∈ plan, Planned nb p)
    (hcount : ∀ n, plan.countP (·.switchName = n) ≤ nb.switches.countP (·.name = n))
    (failed : ℕ) : plan.foldl (deleteNetwork a) (nb, failed) =
      (removeNetworks (deleted a nb plan) nb,
        failed + plan.countP fun p => ¬succeeds a nb p.switchName) := by
  induction plan generalizing nb failed with
  | nil =>
    have hnone : deleted a nb [] = fun _ => false := rfl
    rw [hnone, removeNetworks_none h]
    rfl
  | cons p plan ih =>
    rw [List.foldl_cons, deleteNetwork_eq a h (hplan p List.mem_cons_self)]
    have hrest := fun q hq => hplan q (List.mem_cons_of_mem p hq)
    cases hsucceeds : succeeds a nb p.switchName with
    | false =>
      have hsame : deleted a nb (p :: plan) = deleted a nb plan := by
        funext n
        by_cases hn : p.switchName = n
        · simp [deleted, ← hn, hsucceeds]
        · simp [deleted, hn]
      have hcount' (n : Text) : plan.countP (·.switchName = n) ≤
          nb.switches.countP (·.name = n) :=
        ((List.sublist_cons_self p plan).countP_le).trans (hcount n)
      rw [if_neg Bool.false_ne_true, ih h hrest hcount', hsame, List.countP_cons_of_pos
        (by simp [hsucceeds])]
      congr 1
      omega
    | true =>
      have honce : plan.countP (·.switchName = p.switchName) = 0 := by
        have hle := hcount p.switchName
        rw [List.countP_cons_of_pos (by simp)] at hle
        simp only [succeeds, Bool.and_eq_true, decide_eq_true_eq] at hsucceeds
        omega
      have hother : ∀ q ∈ plan, q.switchName ≠ p.switchName := by simpa using honce
      have hcommitted := (removeNetworks_spec h fun n => decide (n = p.switchName)).2
      have hcountP (n : Text) (hn : n ≠ p.switchName) :
          (removeNetworks (fun m => decide (m = p.switchName)) nb).switches.countP (·.name = n) =
            nb.switches.countP (·.name = n) := countP_removeNetworks (decide_eq_false hn)
      have hcount' (n : Text) : plan.countP (·.switchName = n) ≤
          (removeNetworks (fun m => decide (m = p.switchName)) nb).switches.countP
            (·.name = n) := by
        by_cases hn : n = p.switchName
        · rw [hn, honce]
          exact Nat.zero_le _
        · rw [hcountP n hn]
          exact ((List.sublist_cons_self p plan).countP_le).trans (hcount n)
      have hsucceeds' (n : Text) (hn : n ≠ p.switchName) :
          succeeds a (removeNetworks (fun m => decide (m = p.switchName)) nb) n =
            succeeds a nb n := by
        rw [succeeds, succeeds, hcountP n hn]
      rw [if_pos rfl, ih hcommitted (fun q hq => (hrest q hq).removeNetworks
        (decide_eq_false (hother q hq))) hcount', removeNetworks_removeNetworks,
        List.countP_cons_of_neg (by simp [hsucceeds])]
      have hfailed : plan.countP (fun q => ¬succeeds a
            (removeNetworks (fun m => decide (m = p.switchName)) nb) q.switchName) =
          plan.countP fun q => ¬succeeds a nb q.switchName := by
        apply List.countP_congr
        intro q hq
        rw [hsucceeds' _ (hother q hq)]
      have hdeleted : (fun n => decide (n = p.switchName) ||
          deleted a (removeNetworks (fun m => decide (m = p.switchName)) nb) plan n) =
          deleted a nb (p :: plan) := by
        funext n
        by_cases hn : n = p.switchName
        · simp [deleted, hn, hsucceeds]
        · simp [deleted, hn, Ne.symm hn, hsucceeds' n hn]
      rw [hfailed, hdeleted]

/-! The plan. -/

def refersTo (groups : List ℕ) (q : Port) : Bool := q.haChassisGroup.any fun u => u ∈ groups

theorem refersTo_iff {groups : List ℕ} {q : Port} :
    refersTo groups q = true ↔ ∃ u ∈ groups, q.haChassisGroup = some u := by
  rcases q with ⟨uuid, name, _ | u⟩ <;> simp [refersTo]

theorem mem_groupsOf {u : ℕ} : u ∈ groupsOf gone nb ↔
    ∃ g ∈ nb.groups, gone g.name = true ∧ g.uuid = u := by
  simp only [groupsOf, List.mem_map, List.mem_filter, and_assoc]

theorem clearRefs_referring {ports : List Port} (hn : (ports.map Port.uuid).Nodup)
    (groups : List ℕ) {q : Port} (hq : q ∈ ports) :
    clearRefs ((ports.filter (refersTo groups)).map Port.uuid) q = release groups q := by
  have hmem : q.uuid ∈ (ports.filter (refersTo groups)).map Port.uuid ↔
      refersTo groups q = true := by
    rw [List.mem_map]
    constructor
    · rintro ⟨r, hr, he⟩
      obtain ⟨hr, hrefers⟩ := List.mem_filter.mp hr
      exact Excerpts.unique_of_nodup hn r hr q hq he ▸ hrefers
    · intro hrefers
      exact ⟨q, List.mem_filter.mpr ⟨hq, hrefers⟩, rfl⟩
  rcases q with ⟨uuid, name, _ | u⟩
  · rw [clearRefs, if_neg (mt hmem.mp (by simp [refersTo]))]
    rfl
  · by_cases hu : u ∈ groups
    · rw [clearRefs, if_pos (hmem.mpr (by simpa [refersTo] using hu))]
      simp [release, Option.filter, hu]
    · rw [clearRefs, if_neg (mt hmem.mp (by simpa [refersTo] using hu))]
      simp [release, Option.filter, hu]

theorem hcgRefs_eq (hcg : Option HaChassisGroup) (ports : List Port) :
    (hcg.map fun g => buildHcgRefMap ports g.uuid).getD [] =
      ports.filter (refersTo (hcg.map HaChassisGroup.uuid).toList) := by
  cases hcg with
  | none =>
    symm
    rw [Option.map_none, Option.map_none, Option.getD_none, List.filter_eq_nil_iff]
    intro q _
    simp [refersTo]
  | some g =>
    rw [Option.map_some, Option.map_some, Option.getD_some, buildHcgRefMap]
    apply List.filter_congr
    intro q _
    cases hq : q.haChassisGroup <;> simp [refersTo, hq]

theorem release_of_refersTo {groups : List ℕ} {q : Port} (hq : refersTo groups q = false) :
    release groups q = q := by
  rcases q with ⟨uuid, name, _ | u⟩
  · rfl
  · have hu : u ∉ groups := by simpa [refersTo] using hq
    simp [release, Option.filter, hu]

/-- The groups that were read at the start have the names and ids of those that are there. -/
theorem hcgByName_eq (h : Committed nb) {groups : List HaChassisGroup}
    (hsame : nb.groups.map (fun g => (g.uuid, g.name, g.externalIds)) =
      groups.map fun g => (g.uuid, g.name, g.externalIds)) (n : Text) :
    ((hcgByName groups n).map HaChassisGroup.uuid).toList = groupsOf (· = n) nb := by
  have hpairs (gs : List HaChassisGroup) :
      (gs.filter fun g => decide (g.name = n)).map HaChassisGroup.uuid =
        ((gs.map fun g => (g.uuid, g.name, g.externalIds)).filter
          fun g => decide (g.2.1 = n)).map Prod.fst := by
    rw [List.filter_map, List.map_map]
    rfl
  have hnames : (groups.map HaChassisGroup.name).Nodup := by
    have hmap := congrArg (List.map fun g => g.2.1) hsame
    rw [List.map_map, List.map_map] at hmap
    exact hmap ▸ h.groupNames
  rw [groupsOf, hpairs, hsame, ← hpairs]
  cases hfind : hcgByName groups n with
  | none =>
    have hnone : groups.filter (fun g => decide (g.name = n)) = [] := by
      rw [List.filter_eq_nil_iff]
      intro g hg
      exact List.find?_eq_none.mp hfind g (List.mem_reverse.mpr hg)
    rw [hnone]
    rfl
  | some g =>
    have hg := List.mem_reverse.mp (List.mem_of_find?_eq_some hfind)
    have hname : g.name = n := by
      rw [hcgByName] at hfind
      simpa using List.find?_some hfind
    have hone := filterMap_filter_id (f := some) (fun _ _ he => by rw [Option.some.inj he])
      hnames hg
    rw [List.filterMap_some, hname] at hone
    rw [hone]
    rfl

/-- Only ports of the network's switch refer to its group. -/
def selfContained (nb : Northbound) (n : Text) : Bool :=
  nb.switchPorts.all fun q =>
    !refersTo (groupsOf (· = n) nb) q || decide (switchOfLsp nb.switches q.uuid = some n)

variable {lower : Text → Text} {o : Openstack} {groups : List HaChassisGroup}

theorem selfContained_iff (nb : Northbound) (n : Text) : selfContained nb n = true ↔
    (nb.switchPorts.filter (refersTo (groupsOf (· = n) nb))).filter
      (fun q => switchOfLsp nb.switches q.uuid ≠ some n) = [] := by
  rw [selfContained, List.all_eq_true, List.filter_filter, List.filter_eq_nil_iff]
  apply forall₂_congr
  intro q _
  cases refersTo (groupsOf (· = n) nb) q <;> simp

theorem planSwitch_spec (lower : Text → Text) (o : Openstack) (h : Committed nb)
    (hsame : nb.groups.map (fun g => (g.uuid, g.name, g.externalIds)) =
      groups.map fun g => (g.uuid, g.name, g.externalIds)) (s : LogicalSwitch) :
    if neutronNetworkExists lower o (removePrefix neutronPrefix s.name) = some false ∧
        selfContained nb s.name = true then
      ∃ p, planSwitch lower o groups nb.switches nb.switchPorts nb.routerPorts s = .ok p ∧
        p.switchName = s.name ∧ Planned nb p
    else
      ∃ e, planSwitch lower o groups nb.switches nb.switchPorts nb.routerPorts s = .error e := by
  unfold planSwitch
  dsimp only
  rcases hexists : neutronNetworkExists lower o (removePrefix neutronPrefix s.name) with
    _ | _ | _
  · exact ⟨_, rfl⟩
  · dsimp only
    rw [hcgRefs_eq, hcgRefs_eq, hcgByName_eq h hsame]
    by_cases hself : selfContained nb s.name = true
    · rw [if_pos ⟨rfl, hself⟩, if_neg (not_not.mpr ((selfContained_iff nb s.name).mp hself))]
      have huuids (ports : List Port) : (ports.map fun q => (q.uuid, q.name)).map Prod.fst =
          ports.map Port.uuid := List.map_map
      refine ⟨_, rfl, rfl, hcgByName_eq h hsame s.name, ?_, ?_⟩
      · intro q hq
        dsimp only
        rw [huuids, hcgByName_eq h hsame]
        exact clearRefs_referring h.portIds _ hq
      · intro q hq
        dsimp only
        rw [huuids, hcgByName_eq h hsame]
        exact clearRefs_referring h.routerPortIds _ hq
    · rw [if_neg fun hboth => hself hboth.2,
        if_pos (mt (selfContained_iff nb s.name).mpr hself)]
      exact ⟨_, rfl⟩
  · exact ⟨_, rfl⟩

/-- The network is removed: Neutron does not list it and says that it is gone, and the script can
tell its one switch and its group from the others. -/
def orphaned (lower : Text → Text) (i : Invocation) (nb : Northbound) (n : Text) : Bool :=
  neutronPrefix.isPrefixOf n &&
  decide (removePrefix neutronPrefix n ∉ (getLiveNeutronNetworkIds i.openstack).getD []) &&
  decide (neutronNetworkExists lower i.openstack (removePrefix neutronPrefix n) = some false) &&
  selfContained nb n && decide (nb.switches.countP (·.name = n) = 1) &&
  i.orphanAnswers.deletionReturns n

def orphanCandidates (ids : List Text) (switches : List LogicalSwitch) : List LogicalSwitch :=
  (netSwitches switches).filter fun s => removePrefix neutronPrefix s.name ∉ ids

/-- The plan for the candidates. -/
def teardowns (lower : Text → Text) (o : Openstack) (groups : List HaChassisGroup)
    (nb : Northbound) (ids : List Text) : List Teardown :=
  (orphanCandidates ids nb.switches).filterMap fun s =>
    (planSwitch lower o groups nb.switches nb.switchPorts nb.routerPorts s).toOption

theorem mem_orphanCandidates {ids : List Text} {switches : List LogicalSwitch}
    {s : LogicalSwitch} : s ∈ orphanCandidates ids switches ↔ s ∈ switches ∧
      neutronPrefix.isPrefixOf s.name = true ∧ removePrefix neutronPrefix s.name ∉ ids := by
  simp only [orphanCandidates, netSwitches, List.mem_filter, decide_eq_true_eq, and_assoc]

section
variable (h : Committed nb) (hsame : nb.groups.map (fun g => (g.uuid, g.name, g.externalIds)) =
  groups.map fun g => (g.uuid, g.name, g.externalIds)) (ids : List Text)
include h hsame

theorem mem_teardowns {p : Teardown} (hp : p ∈ teardowns lower o groups nb ids) :
    Planned nb p ∧ ∃ s ∈ orphanCandidates ids nb.switches, s.name = p.switchName ∧
      neutronNetworkExists lower o (removePrefix neutronPrefix s.name) = some false ∧
      selfContained nb s.name = true := by
  obtain ⟨s, hs, hok⟩ := List.mem_filterMap.mp hp
  have hspec := planSwitch_spec lower o h hsame s
  split at hspec
  next hboth =>
    obtain ⟨q, hq, hname, hplanned⟩ := hspec
    rw [hq] at hok
    obtain rfl := Option.some.inj hok
    exact ⟨hplanned, s, hs, hname.symm, hboth⟩
  next =>
    obtain ⟨e, he⟩ := hspec
    rw [he] at hok
    cases hok

theorem countP_teardowns (n : Text) :
    (teardowns lower o groups nb ids).countP (·.switchName = n) ≤
      nb.switches.countP (·.name = n) := by
  rw [teardowns, List.countP_filterMap]
  have hsub : (orphanCandidates ids nb.switches).Sublist nb.switches :=
    List.filter_sublist.trans List.filter_sublist
  refine le_trans (List.countP_mono_left fun s _ hs => ?_) hsub.countP_le
  have hspec := planSwitch_spec lower o h hsame s
  split at hspec
  next hboth =>
    obtain ⟨q, hq, hname, -⟩ := hspec
    simpa [hq, Except.toOption, hname] using hs
  next =>
    obtain ⟨e, he⟩ := hspec
    simp [he, Except.toOption] at hs

theorem deleted_teardowns (i : Invocation)
    (hids : getLiveNeutronNetworkIds i.openstack = some ids) :
    deleted i.orphanAnswers nb (teardowns lower i.openstack groups nb ids) =
      orphaned lower i nb := by
  funext n
  rw [Bool.eq_iff_iff]
  simp only [deleted, succeeds, orphaned, hids, Option.getD_some, Bool.and_eq_true,
    decide_eq_true_eq, List.any_eq_true]
  constructor
  · rintro ⟨⟨p, hp, rfl⟩, hreturns, hcount⟩
    obtain ⟨-, s, hs, hname, hgone, hself⟩ := mem_teardowns h hsame ids hp
    obtain ⟨hs, hstarts, hnot⟩ := mem_orphanCandidates.mp hs
    have hpos : 0 < nb.switches.countP (·.name = p.switchName) :=
      List.countP_pos_iff.mpr ⟨s, hs, decide_eq_true hname⟩
    rw [hname] at hstarts hnot hgone hself
    exact ⟨⟨⟨⟨⟨hstarts, hnot⟩, hgone⟩, hself⟩, by omega⟩, hreturns⟩
  · rintro ⟨⟨⟨⟨⟨hstarts, hnot⟩, hgone⟩, hself⟩, hcount⟩, hreturns⟩
    obtain ⟨s, hs, hname⟩ := List.countP_pos_iff.mp (by omega :
      0 < nb.switches.countP (·.name = n))
    obtain rfl := of_decide_eq_true hname
    have hspec := planSwitch_spec lower i.openstack h hsame s
    rw [if_pos ⟨hgone, hself⟩] at hspec
    obtain ⟨p, hp, hp', -⟩ := hspec
    refine ⟨⟨p, List.mem_filterMap.mpr ⟨s, mem_orphanCandidates.mpr ⟨hs, hstarts, hnot⟩, ?_⟩, hp'⟩,
      hreturns, by omega⟩
    rw [hp]
    rfl

end

/-! A run of the script. -/

/-- The ids that Neutron lists, unless too few of them are networks here. -/
def plausibleIds (i : Invocation) (nb : Northbound) : Option (List Text) :=
  (getLiveNeutronNetworkIds i.openstack).filter fun ids => i.orphanAnswers.force ||
    !tooManyOrphans (orphanCandidates ids nb.switches) (netSwitches nb.switches)

/-- The operator lets the script delete, and Neutron's list is plausible. -/
def deletes (i : Invocation) (nb : Northbound) : Bool :=
  i.orphanAnswers.deleteOrphanedNetworks && decide (i.orphanAnswers.osCloud ≠ []) &&
  (plausibleIds i nb).isSome && i.answers.execute && i.orphanAnswers.confirmDeletion

theorem planOrphanCleanup_eq (lower : Text → Text) (i : Invocation)
    (groups : List HaChassisGroup) (nb : Northbound) :
    (planOrphanCleanup lower i.openstack i.orphanAnswers.force groups nb.switches nb.switchPorts
      nb.routerPorts).map Prod.fst =
        (plausibleIds i nb).map (teardowns lower i.openstack groups nb) := by
  unfold planOrphanCleanup plausibleIds
  cases getLiveNeutronNetworkIds i.openstack with
  | none => rfl
  | some ids =>
    rw [Option.bind_eq_bind, Option.bind_some, Option.filter_some]
    change Option.map _ (if tooManyOrphans (orphanCandidates ids nb.switches)
      (netSwitches nb.switches) = true ∧ ¬i.orphanAnswers.force = true then none else _) = _
    cases tooManyOrphans (orphanCandidates ids nb.switches) (netSwitches nb.switches) with
    | false =>
      rw [if_neg (by simp), if_pos (by simp), Option.map_some, Option.map_some,
        List.filterMap_map]
      rfl
    | true =>
      cases i.orphanAnswers.force with
      | false => rfl
      | true =>
        rw [if_neg (by simp), if_pos (by simp), Option.map_some, Option.map_some,
          List.filterMap_map]
        rfl

theorem executeOrphanCleanup_eq (a : OrphanAnswers) (nb : Northbound) (plan : List Teardown) :
    executeOrphanCleanup a nb plan =
      if a.confirmDeletion then plan.foldl (deleteNetwork a) (nb, 0) else (nb, 0) := by
  unfold executeOrphanCleanup
  cases a.confirmDeletion with
  | false => exact ite_self _
  | true =>
    by_cases hnone : plan = []
    · rw [if_pos hnone, hnone]
      rfl
    · rw [if_neg hnone]
      rfl

theorem orphanCleanup_eq (lower : Text → Text) (h : Committed nb)
    (hsame : nb.groups.map (fun g => (g.uuid, g.name, g.externalIds)) =
      groups.map fun g => (g.uuid, g.name, g.externalIds)) (i : Invocation) :
    orphanCleanup lower i groups nb =
      if deletes i nb then removeNetworks (orphaned lower i nb) nb else nb := by
  have hplan := planOrphanCleanup_eq lower i groups nb
  unfold orphanCleanup deletes
  cases i.orphanAnswers.deleteOrphanedNetworks with
  | false => rfl
  | true =>
    by_cases hcloud : i.orphanAnswers.osCloud = []
    · rw [if_neg (by simp), if_pos hcloud, hcloud]
      rfl
    rw [if_neg (by simp), if_neg hcloud, decide_eq_true hcloud, Bool.true_and, Bool.true_and]
    cases hlisted : plausibleIds i nb with
    | none =>
      rw [hlisted, Option.map_none, Option.map_eq_none_iff] at hplan
      rw [hplan]
      rfl
    | some ids =>
      have hids : getLiveNeutronNetworkIds i.openstack = some ids :=
        (Option.filter_eq_some_iff.mp hlisted).1
      rw [hlisted, Option.map_some] at hplan
      obtain ⟨⟨plan, skipped⟩, hplanned, rfl⟩ := Option.map_eq_some_iff.mp hplan
      rw [hplanned, Option.isSome_some, Bool.true_and]
      dsimp only
      rw [executeOrphanCleanup_eq]
      cases i.answers.execute with
      | false => rfl
      | true =>
        cases i.orphanAnswers.confirmDeletion with
        | false => rfl
        | true =>
          rw [if_neg (by simp), if_pos rfl, foldl_deleteNetwork i.orphanAnswers h
            (fun p hp => (mem_teardowns h hsame ids hp).1) (countP_teardowns h hsame ids),
            deleted_teardowns h hsame ids i hids]
          rfl

/-- A run of the script on these tables removes the network. -/
def removes (lower : Text → Text) (i : Invocation) (nb : Northbound) (n : Text) : Bool :=
  !(repair i.live i.answers nb).2 && deletes i (repair i.live i.answers nb).1 &&
  orphaned lower i (repair i.live i.answers nb).1 n

theorem main_eq (lower : Text → Text) (h : Committed nb) (i : Invocation) :
    main lower nb i = removeNetworks (removes lower i nb) (repair i.live i.answers nb).1 := by
  obtain ⟨hrepaired, hrest, -, -⟩ := repair_spec i.live h i.answers
  change (if (repair i.live i.answers nb).2 then (repair i.live i.answers nb).1
    else orphanCleanup lower i nb.groups (repair i.live i.answers nb).1) = _
  unfold removes
  cases (repair i.live i.answers nb).2 with
  | true => exact (removeNetworks_none hrepaired).symm
  | false =>
    rw [if_neg Bool.false_ne_true, orphanCleanup_eq lower hrepaired hrest.groups i]
    cases deletes i (repair i.live i.answers nb).1 with
    | true => rfl
    | false => exact (removeNetworks_none hrepaired).symm

theorem main_committed (lower : Text → Text) (h : Committed nb) (i : Invocation) :
    Committed (main lower nb i) := by
  rw [main_eq lower h i]
  exact (removeNetworks_spec (repair_spec i.live h i.answers).1 _).2

/-- No run makes a switch or a group. -/
structure Shrinks (nb nb' : Northbound) : Prop where
  switches : nb'.switches.Sublist nb.switches
  groups : (nb'.groups.map HaChassisGroup.name).Sublist (nb.groups.map HaChassisGroup.name)

theorem Shrinks.trans {nb₁ nb₂ nb₃ : Northbound} (h : Shrinks nb₁ nb₂) (h' : Shrinks nb₂ nb₃) :
    Shrinks nb₁ nb₃ :=
  ⟨h'.switches.trans h.switches, h'.groups.trans h.groups⟩

theorem main_shrinks (lower : Text → Text) (h : Committed nb) (i : Invocation) :
    Shrinks nb (main lower nb i) := by
  obtain ⟨-, hrest, -, -⟩ := repair_spec i.live h i.answers
  rw [main_eq lower h i]
  exact ⟨hrest.switches ▸ List.filter_sublist, hrest.groupNames ▸ List.filter_sublist.map _⟩

theorem foldl_main (lower : Text → Text) (h : Committed nb) (runs : List Invocation) :
    Committed (runs.foldl (main lower) nb) ∧ Shrinks nb (runs.foldl (main lower) nb) := by
  induction runs generalizing nb with
  | nil => exact ⟨h, .refl _, .refl _⟩
  | cons i runs ih =>
    obtain ⟨hcommitted, hshrinks⟩ := ih (main_committed lower h i)
    exact ⟨hcommitted, (main_shrinks lower h i).trans hshrinks⟩

/-- Every run of the script, with one transaction for each network, is a repair and one removal of
all orphaned networks; the networks that a run removes stay away. -/
theorem orphans_removed_whole (lower : Text → Text) (nb : Northbound) (h : Committed nb)
    (runs : List Invocation) (i : Invocation) (later : List Invocation) :
    Committed ((runs ++ i :: later).foldl (main lower) nb) ∧
      main lower (runs.foldl (main lower) nb) i =
        removeNetworks (removes lower i (runs.foldl (main lower) nb))
          (repair i.live i.answers (runs.foldl (main lower) nb)).1 ∧
      ∀ n, removes lower i (runs.foldl (main lower) nb) n = true →
        (∀ s ∈ ((runs ++ i :: later).foldl (main lower) nb).switches, s.name ≠ n) ∧
        ∀ g ∈ ((runs ++ i :: later).foldl (main lower) nb).groups, g.name ≠ n := by
  have hbefore := (foldl_main lower h runs).1
  have hmain := main_eq lower hbefore i
  obtain ⟨hcommitted, hshrinks⟩ := foldl_main lower (main_committed lower hbefore i) later
  rw [List.foldl_append, List.foldl_cons]
  refine ⟨hcommitted, hmain, fun n hn => ⟨?_, ?_⟩⟩
  · rintro s hs rfl
    have hkept := hshrinks.switches.subset hs
    rw [hmain] at hkept
    exact of_decide_eq_true (List.mem_filter.mp hkept).2 hn
  · rintro g hg rfl
    have hname := hshrinks.groups.subset (List.mem_map_of_mem hg)
    rw [hmain] at hname
    obtain ⟨g', hg', he⟩ := List.mem_map.mp hname
    exact of_decide_eq_true (List.mem_filter.mp hg').2 (he ▸ hn)

/-- Neutron has the network `n1` and deleted `n2`; a port of `n2` still refers to its group. -/
def halfDeleted : Northbound where
  haChassis := [⟨1, "c2".toList, 1⟩, ⟨2, "c2".toList, 1⟩]
  groups :=
    [⟨10, "neutron-n1".toList, [1], [(ovnNetworkIdExtIdKey, "n1".toList)]⟩,
    ⟨11, "neutron-n2".toList, [2], [(ovnNetworkIdExtIdKey, "n2".toList)]⟩]
  routers := []
  switches := [⟨20, "neutron-n1".toList, [30, 31]⟩, ⟨21, "neutron-n2".toList, [32]⟩]
  switchPorts :=
    [⟨30, "p1".toList, some 10⟩, ⟨31, "p2".toList, none⟩, ⟨32, "p3".toList, some 11⟩]
  routerPorts := [⟨40, "lrp".toList, some 11⟩]
  nextUuid := 3

theorem halfDeleted_committed : Committed halfDeleted where
  integrity := by decide
  haChassis := by decide
  switchPorts := by decide
  chassisIds := by decide
  groupIds := by decide
  groupNames := by decide
  portIds := by decide
  routerPortIds := by decide
  fresh := by decide

def asciiLower (s : Text) : Text := s.map Char.toLower

def halfDeletedRun : Invocation where
  live := ["c2".toList]
  answers := ⟨true, true, true, false, true, true⟩
  orphanAnswers := ⟨true, "prod".toList, false, true, fun _ => true⟩
  openstack :=
    ⟨⟨0, "n1\n".toList, []⟩, fun id => if id = "n1".toList then ⟨0, "n1\n".toList, []⟩
      else ⟨1, [], "No Network found for ".toList ++ id⟩⟩

theorem orphans_removed_whole_halfDeleted :
    removes asciiLower halfDeletedRun halfDeleted "neutron-n2".toList = true ∧
    Committed (([] ++ halfDeletedRun :: [halfDeletedRun]).foldl (main asciiLower) halfDeleted) ∧
    ∀ g ∈ (([] ++ halfDeletedRun :: [halfDeletedRun]).foldl (main asciiLower) halfDeleted).groups,
      g.name ≠ "neutron-n2".toList := by
  have hremoves : removes asciiLower halfDeletedRun halfDeleted "neutron-n2".toList = true := by
    decide
  obtain ⟨hcommitted, -, hgone⟩ := orphans_removed_whole asciiLower halfDeleted
    halfDeleted_committed [] halfDeletedRun [halfDeletedRun]
  exact ⟨hremoves, hcommitted, (hgone _ hremoves).2⟩

end Understack.Ovn
