import Mathlib.Data.List.Flatten
import Understack.Ovn.OrphanRuns

/-! A network that Neutron knows keeps what it has in OVN, whatever runs of the script there are. -/
namespace Understack.Ovn
open PyText References

/-- Neutron lists the network, or does not say that it is gone. -/
def KnownTo (lower : Text → Text) (o : Openstack) (networkId : Text) : Prop :=
  networkId ∈ (getLiveNeutronNetworkIds o).getD [] ∨
    neutronNetworkExists lower o networkId ≠ some false

/-- A chassis, with a priority, may claim the ports of the network with this name. -/
def Claims (nb : Northbound) (n : Text) (e : Text × ℕ) : Prop :=
  ∃ g ∈ nb.groups, g.name = n ∧ ∃ r ∈ memberRows nb g.haChassis, (r.chassisName, r.priority) = e

/-- The switch of the network with this name, its ports, its group, the router ports that the group
is for, and the claims of the chassis that are alive are still there. -/
structure Keeps (isAlive : Text → Prop) (n : Text) (nb nb' : Northbound) : Prop where
  switches : nb'.switches.filter (·.name = n) = nb.switches.filter (·.name = n)
  ports : ∀ s ∈ nb.switches, s.name = n →
    resolve Port.uuid nb'.switchPorts s.ports = resolve Port.uuid nb.switchPorts s.ports
  groups : (nb'.groups.filter (·.name = n)).map (fun g => (g.uuid, g.externalIds)) =
    (nb.groups.filter (·.name = n)).map fun g => (g.uuid, g.externalIds)
  routerPorts : ∀ p ∈ nb.routerPorts, refersTo (groupsOf (· = n) nb) p = true → p ∈ nb'.routerPorts
  claims : ∀ e, isAlive e.1 → Claims nb n e → Claims nb' n e

variable {isAlive : Text → Prop} {n : Text} {nb nb' : Northbound} {live : List Text}

theorem Keeps.refl (isAlive : Text → Prop) (n : Text) (nb : Northbound) : Keeps isAlive n nb nb :=
  ⟨rfl, fun _ _ _ => rfl, rfl, fun _ hp _ => hp, fun _ _ h => h⟩

theorem Keeps.trans {nb₁ nb₂ nb₃ : Northbound} (h : Keeps isAlive n nb₁ nb₂)
    (h' : Keeps isAlive n nb₂ nb₃) : Keeps isAlive n nb₁ nb₃ where
  switches := h'.switches.trans h.switches
  ports := by
    intro s hs hname
    have hs' : s ∈ nb₂.switches.filter (·.name = n) := by
      rw [h.switches]
      exact List.mem_filter.mpr ⟨hs, decide_eq_true hname⟩
    exact (h'.ports s (List.mem_filter.mp hs').1 hname).trans (h.ports s hs hname)
  groups := h'.groups.trans h.groups
  routerPorts := by
    intro p hp hrefers
    have hgroups : groupsOf (· = n) nb₂ = groupsOf (· = n) nb₁ := by
      have hmap := congrArg (List.map Prod.fst) h.groups
      rwa [List.map_map, List.map_map] at hmap
    exact h'.routerPorts p (h.routerPorts p hp hrefers) (hgroups.symm ▸ hrefers)
  claims := fun e he hclaims => h'.claims e he (h.claims e he hclaims)

theorem claims_iff {e : Text × ℕ} (he : e.1 ∈ live) :
    Claims nb n e ↔ ∃ g ∈ gateways live nb, g.name = n ∧ e ∈ g.candidates := by
  constructor
  · rintro ⟨g, hg, hname, r, hr, rfl⟩
    refine ⟨_, List.mem_map_of_mem hg, hname, List.mem_map.mpr ⟨r, ?_, rfl⟩⟩
    exact List.mem_filter.mpr ⟨hr, decide_eq_true he⟩
  · rintro ⟨g', hg', hname, hmem⟩
    obtain ⟨g, hg, rfl⟩ := List.mem_map.mp hg'
    obtain ⟨r, hr, rfl⟩ := List.mem_map.mp hmem
    exact ⟨g, hg, hname, r, (List.mem_filter.mp hr).1, rfl⟩

/-- The repair only adds to groups without candidates. -/
theorem repair_keeps (h : Committed nb) (hlive : ∀ c, isAlive c → c ∈ live) (n : Text)
    (a : Answers) : Keeps isAlive n nb (repair live a nb).1 := by
  obtain ⟨-, hrest, hgateways, -⟩ := repair_spec live h a
  refine ⟨by rw [hrest.switches], fun s _ _ => by rw [hrest.switchPorts], ?_,
    fun p hp _ => hrest.routerPorts.symm ▸ hp, ?_⟩
  · have hpairs (gs : List HaChassisGroup) :
        (gs.filter (·.name = n)).map (fun g => (g.uuid, g.externalIds)) =
          ((gs.map fun g => (g.uuid, g.name, g.externalIds)).filter fun g =>
            decide (g.2.1 = n)).map fun g => (g.1, g.2.2) := by
      rw [List.filter_map, List.map_map]
      rfl
    rw [hpairs, hpairs, hrest.groups]
  · intro e he hclaims
    obtain ⟨g, hg, hname, hmem⟩ := (claims_iff (hlive e.1 he)).mp hclaims
    rw [claims_iff (hlive e.1 he), hgateways]
    split_ifs
    · refine ⟨_, List.mem_map_of_mem hg, ?_, ?_⟩
      · rw [(refillGroup_fixed live nb.routers (gateways live nb) g).1, hname]
      · have hsome : ¬(isNetworkGroup g = true ∧ g.candidates = []) := fun hboth => by
          rw [hboth.2] at hmem
          cases hmem
        rwa [refillGroup, if_neg hsome]
    · exact ⟨g, hg, hname, hmem⟩

theorem gateways_removeNetworks (live : List Text) (gone : Text → Bool) (nb : Northbound) :
    gateways live (removeNetworks gone nb) =
      (gateways live nb).filter fun g => ¬gone g.name := by
  rw [removeNetworks, gateways_collect, gateways, gateways, List.filter_map]
  rfl

/-- Other networks keep what they have, if their ports refer to no group that goes. -/
theorem removeNetworks_keeps (h : Committed nb) {gone : Text → Bool} (hkept : gone n = false)
    (hports : ∀ s ∈ nb.switches, s.name = n → ∀ q ∈ nb.switchPorts, q.uuid ∈ s.ports →
      refersTo (groupsOf gone nb) q = false) (isAlive : Text → Prop) :
    Keeps isAlive n nb (removeNetworks gone nb) where
  switches := filter_kept LogicalSwitch.name nb.switches hkept
  ports := by
    intro s hs hname
    have hs' : s ∈ nb.switches.filter fun s => ¬gone s.name :=
      List.mem_filter.mpr ⟨hs, by simp [hname, hkept]⟩
    calc resolve Port.uuid (removeNetworks gone nb).switchPorts s.ports
        = resolve Port.uuid (nb.switchPorts.map (release (groupsOf gone nb))) s.ports :=
          resolve_filter_rows fun q _ hq => isOnSwitch_iff.mpr ⟨s, hs', hq⟩
      _ = resolve Port.uuid nb.switchPorts s.ports :=
          resolve_map_rows (fun _ => rfl) fun q hq hmem =>
            release_of_refersTo (hports s hs hname q hq hmem)
  groups := congrArg (List.map _) (filter_kept HaChassisGroup.name nb.groups hkept)
  routerPorts := by
    intro p hp hrefers
    have hnot : refersTo (groupsOf gone nb) p = false := by
      rw [Bool.eq_false_iff]
      intro hgone
      obtain ⟨u, hmem, hu⟩ := refersTo_iff.mp hrefers
      obtain ⟨v, hmem', hv⟩ := refersTo_iff.mp hgone
      obtain rfl := Option.some.inj (hu.symm.trans hv)
      obtain ⟨g, hg, hname, rfl⟩ := mem_groupsOf.mp hmem
      obtain ⟨g', hg', hgone, he⟩ := mem_groupsOf.mp hmem'
      obtain rfl := Excerpts.unique_of_nodup h.groupIds g' hg' g hg he
      rw [of_decide_eq_true hname, hkept] at hgone
      cases hgone
    exact List.mem_map.mpr ⟨p, hp, release_of_refersTo hnot⟩
  claims := by
    intro e _ hclaims
    have he : e.1 ∈ [e.1] := List.mem_singleton_self _
    obtain ⟨g, hg, hname, hmem⟩ := (claims_iff he).mp hclaims
    rw [claims_iff he, gateways_removeNetworks]
    exact ⟨g, List.mem_filter.mpr ⟨hg, by simp [hname, hkept]⟩, hname, hmem⟩

theorem switchOfLsp_eq {switches : List LogicalSwitch}
    (hn : (switches.flatMap LogicalSwitch.ports).Nodup) {s : LogicalSwitch} (hs : s ∈ switches)
    (hstarts : neutronPrefix.isPrefixOf s.name = true) {uuid : ℕ} (hmem : uuid ∈ s.ports) :
    switchOfLsp switches uuid = some s.name := by
  have hkeys : ((netSwitches switches).flatMap fun s => s.ports.map fun uuid =>
      (uuid, s.name)).map Prod.fst = (netSwitches switches).flatMap LogicalSwitch.ports := by
    rw [List.map_flatMap]
    simp [Function.comp_def]
  have hnodup : (((netSwitches switches).flatMap fun s => s.ports.map fun uuid =>
      (uuid, s.name)).reverse.map Prod.fst).Nodup := by
    rw [List.map_reverse, List.nodup_reverse, hkeys]
    exact (List.filter_sublist.flatMap _).nodup hn
  have hpair : (uuid, s.name) ∈ ((netSwitches switches).flatMap fun s => s.ports.map fun uuid =>
      (uuid, s.name)).reverse := by
    rw [List.mem_reverse, List.mem_flatMap]
    exact ⟨s, List.mem_filter.mpr ⟨hs, hstarts⟩, List.mem_map_of_mem hmem⟩
  obtain ⟨before, after, hsplit⟩ := List.append_of_mem hpair
  rw [switchOfLsp, List.lookup_eq_some_iff]
  refine ⟨before, after, hsplit, fun e he => ?_⟩
  rw [hsplit, List.map_append, List.map_cons, List.nodup_append] at hnodup
  rw [bne_iff_ne]
  exact (hnodup.2.2 e.1 (List.mem_map_of_mem he) uuid List.mem_cons_self).symm

/-- The ports of a known network refer to no group that the script removes. -/
theorem known_kept {lower : Text → Text} {networkId : Text} {i : Invocation}
    (hn : (nb.switches.flatMap LogicalSwitch.ports).Nodup)
    (hknown : KnownTo lower i.openstack networkId) :
    orphaned lower i nb (neutronPrefix ++ networkId) = false ∧
      ∀ s ∈ nb.switches, s.name = neutronPrefix ++ networkId → ∀ q ∈ nb.switchPorts,
        q.uuid ∈ s.ports → refersTo (groupsOf (orphaned lower i nb) nb) q = false := by
  have hkept : orphaned lower i nb (neutronPrefix ++ networkId) = false := by
    rw [Bool.eq_false_iff]
    intro horphaned
    simp only [orphaned, removePrefix_append, Bool.and_eq_true,
      decide_eq_true_eq] at horphaned
    rcases hknown with hlisted | hshown
    · exact horphaned.1.1.1.1.2 hlisted
    · exact hshown horphaned.1.1.1.2
  refine ⟨hkept, fun s hs hname q hq hmem => ?_⟩
  rw [Bool.eq_false_iff]
  intro hrefers
  obtain ⟨u, hu, hgroup⟩ := refersTo_iff.mp hrefers
  obtain ⟨g, hg, horphaned, rfl⟩ := mem_groupsOf.mp hu
  have hself : selfContained nb g.name = true := by
    simp only [orphaned, Bool.and_eq_true] at horphaned
    exact horphaned.1.1.2
  have hown : refersTo (groupsOf (· = g.name) nb) q = true :=
    refersTo_iff.mpr ⟨g.uuid, mem_groupsOf.mpr ⟨g, hg, decide_eq_true rfl, rfl⟩, hgroup⟩
  have hswitch := List.all_eq_true.mp hself q hq
  rw [hown, Bool.not_true, Bool.false_or, decide_eq_true_eq,
    switchOfLsp_eq hn hs (by simp [hname]) hmem, Option.some.injEq] at hswitch
  rw [← hswitch, hname, hkept] at horphaned
  cases horphaned

theorem main_keeps (lower : Text → Text) (h : Committed nb)
    (hn : (nb.switches.flatMap LogicalSwitch.ports).Nodup) {networkId : Text} {i : Invocation}
    (hlive : ∀ c, isAlive c → c ∈ i.live) (hknown : KnownTo lower i.openstack networkId) :
    Keeps isAlive (neutronPrefix ++ networkId) nb (main lower nb i) := by
  obtain ⟨hrepaired, hrest, -, -⟩ := repair_spec i.live h i.answers
  obtain ⟨hkept, hports⟩ := known_kept (hrest.switches.symm ▸ hn) hknown
  have hremoves : removes lower i nb (neutronPrefix ++ networkId) = false := by
    rw [removes, hkept, Bool.and_false]
  rw [main_eq lower h i]
  refine (repair_keeps h hlive _ i.answers).trans
    (removeNetworks_keeps hrepaired hremoves (fun s hs hname q hq hmem => ?_) isAlive)
  have hnot := hports s hs hname q hq hmem
  rw [Bool.eq_false_iff] at hnot ⊢
  intro hrefers
  obtain ⟨u, hu, hgroup⟩ := refersTo_iff.mp hrefers
  obtain ⟨g, hg, hgone, rfl⟩ := mem_groupsOf.mp hu
  simp only [removes, Bool.and_eq_true] at hgone
  exact hnot (refersTo_iff.mpr ⟨g.uuid, mem_groupsOf.mpr ⟨g, hg, hgone.2, rfl⟩, hgroup⟩)

theorem foldl_main_keeps (lower : Text → Text) (networkId : Text) (runs : List Invocation)
    (hlive : ∀ i ∈ runs, ∀ c, isAlive c → c ∈ i.live)
    (hknown : ∀ i ∈ runs, KnownTo lower i.openstack networkId) (h : Committed nb)
    (hn : (nb.switches.flatMap LogicalSwitch.ports).Nodup) :
    Keeps isAlive (neutronPrefix ++ networkId) nb (runs.foldl (main lower) nb) := by
  induction runs generalizing nb with
  | nil => exact Keeps.refl _ _ _
  | cons i runs ih =>
    have hstep := main_keeps lower h hn (hlive i List.mem_cons_self)
      (hknown i List.mem_cons_self)
    exact hstep.trans (ih (fun j hj => hlive j (List.mem_cons_of_mem i hj))
      (fun j hj => hknown j (List.mem_cons_of_mem i hj)) (main_committed lower h i)
      (((main_shrinks lower h i).switches.flatMap _).nodup hn))

/-- Whatever runs of the script there are: a network that Neutron knows in each of them keeps its
switch with its ports as they are, its group, and the claims of chassis that are alive throughout. -/
theorem known_networks_kept (lower : Text → Text) (nb : Northbound) (h : Committed nb)
    (hn : (nb.switches.flatMap LogicalSwitch.ports).Nodup) (networkId : Text)
    (runs : List Invocation) (hknown : ∀ i ∈ runs, KnownTo lower i.openstack networkId) :
    Committed (runs.foldl (main lower) nb) ∧
      Keeps (fun c => ∀ i ∈ runs, c ∈ i.live) (neutronPrefix ++ networkId) nb
        (runs.foldl (main lower) nb) :=
  ⟨(foldl_main lower h runs).1,
    foldl_main_keeps lower networkId runs (fun i hi _ hc => hc i hi) hknown h hn⟩

/-- Neutron answers nothing in the second run. -/
def silentRun : Invocation where
  live := ["c2".toList, "c3".toList]
  answers := ⟨true, true, true, false, true, true⟩
  orphanAnswers := ⟨true, "prod".toList, true, true, fun _ => true⟩
  openstack := ⟨⟨0, "n3\n".toList, []⟩, fun _ => ⟨1, [], "timeout".toList⟩⟩

theorem known_networks_kept_halfDeleted :
    (∀ i ∈ [halfDeletedRun, silentRun], KnownTo asciiLower i.openstack "n1".toList) ∧
    Keeps (fun c => ∀ i ∈ [halfDeletedRun, silentRun], c ∈ i.live)
      (neutronPrefix ++ "n1".toList) halfDeleted
      ([halfDeletedRun, silentRun].foldl (main asciiLower) halfDeleted) := by
  have hknown : ∀ i ∈ [halfDeletedRun, silentRun],
      KnownTo asciiLower i.openstack "n1".toList := by
    unfold KnownTo
    decide
  exact ⟨hknown, (known_networks_kept asciiLower halfDeleted halfDeleted_committed (by decide)
    "n1".toList [halfDeletedRun, silentRun] hknown).2⟩

end Understack.Ovn
