import Understack.Lib.Json
import Understack.Lib.PySets
import Mathlib.Data.Char

/-! `vlan_group_names` of `vlan_group_name_convention.py`, over the switch names that
`InspectedPort` parses. -/
namespace Understack.Ironic.VlanGroup
open PyText PySets Runs

structure InspectedPort where
  macAddress : Text
  name : Text
  switchSystemName : Text
  switchPortId : Text
  switchChassisId : Text
  deriving DecidableEq, Repr

structure ParsedName where
  rackName : Text
  switchSuffix : Text
  dataCenterName : Text
  deriving DecidableEq, Repr

/-- The first two are `ValueError`s and the last is a `KeyError`; the others are `TopologyError`s
with the data of their messages. -/
inductive NamingError where
  | hostnameFormat (port : InspectedPort)
  | switchNameFormat (switchName : Text)
  | multipleDataCenters (ports : List InspectedPort)
  | moreThanTwoRacks (ports : List InspectedPort)
  | unknownSuffix (switchSystemName : Text) (recognised : List Text)
  | networkSwitches (networkPorts : List InspectedPort)
  | noSuchKey (switchSuffix : Text)
  deriving DecidableEq, Repr

def InspectedPort.parsedName (port : InspectedPort) : Except NamingError ParsedName :=
  match split '.' port.switchSystemName with
  | switchName :: dataCenterName :: _ =>
    match rsplitOnce '-' switchName with
    | some (rackName, switchSuffix) => .ok ⟨rackName, switchSuffix, dataCenterName⟩
    | none => .error (.switchNameFormat switchName)
  | _ => .error (.hostnameFormat port)

def InspectedPort.rackName (port : InspectedPort) : Except NamingError Text := do
  let parsed ← port.parsedName
  return parsed.rackName

def InspectedPort.switchSuffix (port : InspectedPort) : Except NamingError Text := do
  let parsed ← port.parsedName
  return parsed.switchSuffix

def InspectedPort.dataCenterName (port : InspectedPort) : Except NamingError Text := do
  let parsed ← port.parsedName
  return parsed.dataCenterName

/-- A suffix mapping: the category of each switch name suffix. -/
abbrev Mapping := List (Text × Text)

abbrev Groups := List (Text × List InspectedPort)

def assertConsistentDataCenter (ports : List InspectedPort) : Except NamingError Unit := do
  let dataCenters ← collect InspectedPort.dataCenterName ports
  if dataCenters.length > 1 then throw (.multipleDataCenters ports)

def assertSingleOrPairedRacks (ports : List InspectedPort) : Except NamingError Unit := do
  let networkRackNames ← collect InspectedPort.rackName ports
  if networkRackNames.length > 2 then throw (.moreThanTwoRacks ports)

def assertSwitchNamesHaveKnownSuffixes (mapping : Mapping) :
    List InspectedPort → Except NamingError Unit
  | [] => return ()
  | port :: ports => do
    let suffix ← port.switchSuffix
    if (mapping.lookup suffix).isNone then
      throw (.unknownSuffix port.switchSystemName (mapping.map Prod.fst))
    assertSwitchNamesHaveKnownSuffixes mapping ports

/-- One turn of the loop of `group_by_switch_category`. -/
def addToGroup (mapping : Mapping) (groups : Groups) (port : InspectedPort) :
    Except NamingError Groups := do
  let suffix ← port.switchSuffix
  match mapping.lookup suffix with
  | none => throw (.noSuchKey suffix)
  | some category =>
    return PyDict.put category ((groups.lookup category).getD [] ++ [port]) groups

def groupBySwitchCategory (ports : List InspectedPort) (mapping : Mapping) :
    Except NamingError Groups :=
  ports.foldlM (addToGroup mapping) []

def network : Text := "network".toList

def assertRedundantNetworkConnections (vlanGroups : Groups) : Except NamingError Unit :=
  let networkPorts := (vlanGroups.lookup network).getD []
  let switchNames := (networkPorts.map InspectedPort.switchSystemName).dedup
  if switchNames.length ≠ 2 then throw (.networkSwitches networkPorts) else return ()

def vlanGroupName (rackNames : List Text) (category : Text) : Text :=
  join '/' rackNames ++ "-".toList ++ category

/-- One turn of the loop over the groups: all ports of the group get its name. -/
def nameGroup (names : List (Text × Text)) (group : Text × List InspectedPort) :
    Except NamingError (List (Text × Text)) := do
  let rackNames ← collect InspectedPort.rackName group.2
  let name := vlanGroupName (sorted rackNames) group.1
  return group.2.foldl (fun names p => PyDict.put p.switchSystemName name names) names

def vlanGroupNames (ports : List InspectedPort) (mapping : Mapping) :
    Except NamingError (List (Text × Text)) := do
  assertConsistentDataCenter ports
  assertSingleOrPairedRacks ports
  assertSwitchNamesHaveKnownSuffixes mapping ports
  let vlanGroups ← groupBySwitchCategory ports mapping
  assertRedundantNetworkConnections vlanGroups
  vlanGroups.foldlM nameGroup []

/-! What a set of switch names is worth, without the ports and their order. -/

def parse? (switch : Text) : Option ParsedName :=
  match split '.' switch with
  | switchName :: dataCenterName :: _ =>
    (rsplitOnce '-' switchName).map fun p => ⟨p.1, p.2, dataCenterName⟩
  | _ => none

def rackOf (switch : Text) : Text := ((parse? switch).map ParsedName.rackName).getD []

def dataCenterOf (switch : Text) : Text :=
  ((parse? switch).map ParsedName.dataCenterName).getD []

variable (mapping : Mapping)

def categoryOf (switch : Text) : Option Text :=
  (parse? switch).bind fun p => mapping.lookup p.switchSuffix

def inCategory (switches : Finset Text) (category : Text) : Finset Text :=
  switches.filter (categoryOf mapping · = some category)

/-- The switches of a node that can be given names. -/
structure Topology (switches : Finset Text) : Prop where
  parsed : ∀ s ∈ switches, (parse? s).isSome
  dataCenter : (switches.image dataCenterOf).card ≤ 1
  racks : (switches.image rackOf).card ≤ 2
  suffixes : ∀ s ∈ switches, (categoryOf mapping s).isSome
  networkPair : (inCategory mapping switches network).card = 2

/-- The distinct racks of a category in order. -/
def groupRacks (switches : Finset Text) (category : Text) : List Text :=
  ((inCategory mapping switches category).image rackOf).sort (· ≤ ·)

def nameOf (switches : Finset Text) (switch : Text) : Option Text :=
  if switch ∈ switches then
    (categoryOf mapping switch).map fun c => vlanGroupName (groupRacks mapping switches c) c
  else none

def switchesOf (ports : List InspectedPort) : Finset Text :=
  (ports.map InspectedPort.switchSystemName).toFinset

/-! Every attribute of a port is that of its switch name. -/

theorem parsedName_eq_ok_iff {port : InspectedPort} {parsed : ParsedName} :
    port.parsedName = .ok parsed ↔ parse? port.switchSystemName = some parsed := by
  unfold InspectedPort.parsedName parse?
  split
  · next switchName dataCenterName rest _ =>
    cases rsplitOnce '-' switchName with
    | none => simp
    | some p => simp
  · simp

theorem rackName_eq_ok {port : InspectedPort} (h : (parse? port.switchSystemName).isSome) :
    port.rackName = .ok (rackOf port.switchSystemName) := by
  obtain ⟨parsed, hp⟩ := Option.isSome_iff_exists.mp h
  simp only [InspectedPort.rackName, parsedName_eq_ok_iff.mpr hp, rackOf, hp]
  rfl

theorem dataCenterName_eq_ok {port : InspectedPort} (h : (parse? port.switchSystemName).isSome) :
    port.dataCenterName = .ok (dataCenterOf port.switchSystemName) := by
  obtain ⟨parsed, hp⟩ := Option.isSome_iff_exists.mp h
  simp only [InspectedPort.dataCenterName, parsedName_eq_ok_iff.mpr hp, dataCenterOf, hp]
  rfl

theorem parsed_of_attribute {port : InspectedPort} {f : ParsedName → Text} {text : Text}
    (h : (do let parsed ← port.parsedName; return f parsed) = Except.ok text) :
    ∃ parsed, parse? port.switchSystemName = some parsed ∧ f parsed = text := by
  obtain ⟨parsed, hp, hf⟩ := bind_eq_ok h
  exact ⟨parsed, parsedName_eq_ok_iff.mp hp, Except.ok.inj hf⟩

theorem image_switchesOf (f : Text → Text) (ports : List InspectedPort) :
    (ports.map fun p => f p.switchSystemName).toFinset = (switchesOf ports).image f := by
  ext a
  simp [switchesOf]

theorem mem_switchesOf {ports : List InspectedPort} {switch : Text} :
    switch ∈ switchesOf ports ↔ ∃ p ∈ ports, p.switchSystemName = switch := by
  simp [switchesOf]

/-- A bound on the number of values that an attribute takes. -/
theorem assert_attribute_iff {attr : InspectedPort → Except NamingError Text} {f : Text → Text}
    (hattr : ∀ port, (parse? port.switchSystemName).isSome →
      attr port = .ok (f port.switchSystemName))
    (hparse : ∀ port text, attr port = .ok text → (parse? port.switchSystemName).isSome)
    {ports : List InspectedPort} {bound : ℕ} {e : NamingError} :
    (do let values ← collect attr ports
        if values.length > bound then throw e) = .ok () ↔
      (∀ s ∈ switchesOf ports, (parse? s).isSome) ∧
        ((switchesOf ports).image f).card ≤ bound := by
  have hvalue (hparsed : ∀ s ∈ switchesOf ports, (parse? s).isSome) :
      collect attr ports = .ok (ports.map fun p => f p.switchSystemName).dedup :=
    collect_eq_ok fun p hp => hattr p (hparsed _ (mem_switchesOf.mpr ⟨p, hp, rfl⟩))
  have hcard : (ports.map fun p => f p.switchSystemName).dedup.length =
      ((switchesOf ports).image f).card := by
    rw [length_dedup, image_switchesOf]
  constructor
  · intro h
    obtain ⟨values, hset, hlen⟩ := bind_eq_ok h
    have hparsed : ∀ s ∈ switchesOf ports, (parse? s).isSome := by
      intro s hs
      obtain ⟨p, hp, rfl⟩ := mem_switchesOf.mp hs
      obtain ⟨text, htext⟩ := collect_isOk hset p hp
      exact hparse p text htext
    rw [hvalue hparsed] at hset
    obtain rfl := Except.ok.inj hset
    rw [hcard] at hlen
    by_cases hc : ((switchesOf ports).image f).card > bound
    · rw [if_pos hc] at hlen
      cases hlen
    · exact ⟨hparsed, by omega⟩
  · rintro ⟨hparsed, hle⟩
    rw [hvalue hparsed]
    simp only [bind, Except.bind]
    rw [hcard, if_neg (by omega)]
    rfl

theorem assertConsistentDataCenter_iff {ports : List InspectedPort} :
    assertConsistentDataCenter ports = .ok () ↔
      (∀ s ∈ switchesOf ports, (parse? s).isSome) ∧
        ((switchesOf ports).image dataCenterOf).card ≤ 1 := by
  apply assert_attribute_iff
  · intro port h
    exact dataCenterName_eq_ok h
  · intro port text h
    obtain ⟨parsed, hp, -⟩ := parsed_of_attribute h
    simp [hp]

theorem assertSingleOrPairedRacks_iff {ports : List InspectedPort} :
    assertSingleOrPairedRacks ports = .ok () ↔
      (∀ s ∈ switchesOf ports, (parse? s).isSome) ∧
        ((switchesOf ports).image rackOf).card ≤ 2 := by
  apply assert_attribute_iff
  · intro port h
    exact rackName_eq_ok h
  · intro port text h
    obtain ⟨parsed, hp, -⟩ := parsed_of_attribute h
    simp [hp]

variable {mapping}

/-- A port whose suffix is known. -/
theorem switchSuffix_of_category {port : InspectedPort} {category : Text}
    (h : categoryOf mapping port.switchSystemName = some category) :
    ∃ suffix, port.switchSuffix = .ok suffix ∧ mapping.lookup suffix = some category := by
  obtain ⟨parsed, hp, hl⟩ := Option.bind_eq_some_iff.mp h
  use parsed.switchSuffix
  simp only [InspectedPort.switchSuffix, parsedName_eq_ok_iff.mpr hp]
  exact ⟨rfl, hl⟩

theorem assertSwitchNamesHaveKnownSuffixes_iff {ports : List InspectedPort} :
    assertSwitchNamesHaveKnownSuffixes mapping ports = .ok () ↔
      ∀ p ∈ ports, (categoryOf mapping p.switchSystemName).isSome := by
  induction ports with
  | nil => simp [assertSwitchNamesHaveKnownSuffixes, pure, Except.pure]
  | cons port ports ih =>
    rw [List.forall_mem_cons, ← ih]
    constructor
    · intro h
      obtain ⟨suffix, hs, h⟩ := bind_eq_ok h
      obtain ⟨parsed, hp, rfl⟩ := parsed_of_attribute hs
      cases hl : mapping.lookup parsed.switchSuffix with
      | none => simp [hl, bind, Except.bind, throw, throwThe, MonadExceptOf.throw] at h
      | some category =>
        simp only [hl, bind, Except.bind, Option.isNone_some, Bool.false_eq_true, if_false] at h
        exact ⟨by simp [categoryOf, hp, hl], h⟩
    · rintro ⟨hcat, hrest⟩
      obtain ⟨category, hc⟩ := Option.isSome_iff_exists.mp hcat
      obtain ⟨suffix, hs, hl⟩ := switchSuffix_of_category hc
      simp only [assertSwitchNamesHaveKnownSuffixes, hs, hl, bind, Except.bind, Option.isNone_some,
        Bool.false_eq_true, if_false, hrest]

/-- The groups hold the ports seen so far by category. -/
structure Grouped (mapping : Mapping) (ports : List InspectedPort) (groups : Groups) : Prop where
  keys : (groups.map Prod.fst).Nodup
  members : ∀ c, (groups.lookup c).getD [] =
    ports.filter fun p => categoryOf mapping p.switchSystemName = some c

theorem addToGroup_grouped {done : List InspectedPort} {groups : Groups}
    (h : Grouped mapping done groups) {port : InspectedPort}
    (hp : (categoryOf mapping port.switchSystemName).isSome) :
    ∃ groups', addToGroup mapping groups port = .ok groups' ∧
      Grouped mapping (done ++ [port]) groups' := by
  obtain ⟨category, hc⟩ := Option.isSome_iff_exists.mp hp
  obtain ⟨suffix, hs, hl⟩ := switchSuffix_of_category hc
  use PyDict.put category ((groups.lookup category).getD [] ++ [port]) groups
  constructor
  · simp only [addToGroup, hs, bind, Except.bind, hl]
    rfl
  · constructor
    · exact PyDict.nodup_keys_put _ _ h.keys
    · intro c
      rw [List.filter_append, ← h.members c]
      by_cases hcc : c = category
      · subst hcc
        simp [hc]
      · have hne : some category ≠ some c := fun he => hcc (Option.some.inj he).symm
        rw [PyDict.lookup_put_of_ne _ _ hcc]
        simp [hc, hne]

theorem groupBySwitchCategory_grouped {ports : List InspectedPort}
    (hcat : ∀ p ∈ ports, (categoryOf mapping p.switchSystemName).isSome) :
    ∃ groups, groupBySwitchCategory ports mapping = .ok groups ∧ Grouped mapping ports groups := by
  have key (rest done : List InspectedPort) (groups : Groups) (h : Grouped mapping done groups)
      (hrest : ∀ p ∈ rest, (categoryOf mapping p.switchSystemName).isSome) :
      ∃ groups', rest.foldlM (addToGroup mapping) groups = .ok groups' ∧
        Grouped mapping (done ++ rest) groups' := by
    induction rest generalizing done groups with
    | nil => exact ⟨groups, rfl, by simpa using h⟩
    | cons port rest ih =>
      obtain ⟨groups₁, hstep, h₁⟩ := addToGroup_grouped h (hrest port (by simp))
      obtain ⟨groups', hrun, h'⟩ := ih _ _ h₁ fun p hp => hrest p (by simp [hp])
      use groups'
      rw [List.foldlM_cons, hstep]
      exact ⟨hrun, by simpa using h'⟩
  have hempty : Grouped mapping [] [] := ⟨by simp, by simp⟩
  exact key ports [] [] hempty hcat

theorem Grouped.mem {ports : List InspectedPort} {groups : Groups}
    (h : Grouped mapping ports groups) {group : Text × List InspectedPort} (hg : group ∈ groups) :
    group.2 = ports.filter fun p => categoryOf mapping p.switchSystemName = some group.1 := by
  rw [← h.members group.1, PyDict.lookup_of_mem h.keys hg]
  rfl

theorem Grouped.exists_group {ports : List InspectedPort} {groups : Groups}
    (h : Grouped mapping ports groups) {port : InspectedPort} (hp : port ∈ ports) {c : Text}
    (hc : categoryOf mapping port.switchSystemName = some c) :
    ∃ group ∈ groups, port ∈ group.2 := by
  have hmem : port ∈ (groups.lookup c).getD [] := by
    rw [h.members c]
    simp [hp, hc]
  cases hl : groups.lookup c with
  | none => simp [hl] at hmem
  | some ps =>
    obtain ⟨l, r, hsplit, -⟩ := List.lookup_eq_some_iff.mp hl
    exact ⟨(c, ps), by simp [hsplit], by simpa [hl] using hmem⟩

theorem toFinset_group (ports : List InspectedPort) (c : Text) :
    ((ports.filter fun p => categoryOf mapping p.switchSystemName = some c).map
      InspectedPort.switchSystemName).toFinset = inCategory mapping (switchesOf ports) c := by
  ext s
  simp only [List.mem_toFinset, List.mem_map, List.mem_filter, decide_eq_true_eq, inCategory,
    Finset.mem_filter, mem_switchesOf]
  constructor
  · rintro ⟨p, ⟨hp, hc⟩, rfl⟩
    exact ⟨⟨p, hp, rfl⟩, hc⟩
  · rintro ⟨⟨p, hp, rfl⟩, hc⟩
    exact ⟨p, ⟨hp, hc⟩, rfl⟩

theorem assertRedundantNetworkConnections_iff {ports : List InspectedPort} {groups : Groups}
    (h : Grouped mapping ports groups) :
    assertRedundantNetworkConnections groups = .ok () ↔
      (inCategory mapping (switchesOf ports) network).card = 2 := by
  unfold assertRedundantNetworkConnections
  simp only [h.members network, length_dedup, toFinset_group]
  by_cases hc : (inCategory mapping (switchesOf ports) network).card = 2
  · simp [hc, pure, Except.pure]
  · simp [hc, throw, throwThe, MonadExceptOf.throw]

theorem lookup_foldl_put (name : Text) (ps : List InspectedPort) (names : List (Text × Text))
    (s : Text) :
    (ps.foldl (fun names p => PyDict.put p.switchSystemName name names) names).lookup s =
      if ∃ p ∈ ps, p.switchSystemName = s then some name else names.lookup s := by
  induction ps generalizing names with
  | nil => simp
  | cons p ps ih =>
    rw [List.foldl_cons, ih]
    by_cases hrest : ∃ q ∈ ps, q.switchSystemName = s
    · rw [if_pos hrest, if_pos]
      obtain ⟨q, hq, hs⟩ := hrest
      exact ⟨q, by simp [hq], hs⟩
    · rw [if_neg hrest]
      by_cases hp : p.switchSystemName = s
      · rw [if_pos ⟨p, by simp, hp⟩, ← hp, PyDict.lookup_put_self]
      · rw [if_neg, PyDict.lookup_put_of_ne _ _ (Ne.symm hp)]
        rintro ⟨q, hq, hs⟩
        rcases List.mem_cons.mp hq with rfl | hq
        · exact hp hs
        · exact hrest ⟨q, hq, hs⟩

/-- Naming a group gives its switches the name of their category and keeps the others. -/
theorem nameGroup_lookup {ports : List InspectedPort}
    (hparsed : ∀ s ∈ switchesOf ports, (parse? s).isSome) {group : Text × List InspectedPort}
    (hg : group.2 = ports.filter fun p => categoryOf mapping p.switchSystemName = some group.1)
    (names : List (Text × Text)) :
    ∃ names', nameGroup names group = .ok names' ∧ ∀ s, names'.lookup s =
      if ∃ p ∈ group.2, p.switchSystemName = s then nameOf mapping (switchesOf ports) s
      else names.lookup s := by
  have hracks : collect InspectedPort.rackName group.2 =
      .ok (group.2.map fun p => rackOf p.switchSystemName).dedup := by
    apply collect_eq_ok
    intro p hp
    rw [hg, List.mem_filter] at hp
    exact rackName_eq_ok (hparsed _ (mem_switchesOf.mpr ⟨p, hp.1, rfl⟩))
  have hsorted : sorted (group.2.map fun p => rackOf p.switchSystemName).dedup =
      groupRacks mapping (switchesOf ports) group.1 := by
    rw [sorted_dedup, image_switchesOf, groupRacks, ← toFinset_group, ← hg]
    rfl
  use group.2.foldl (fun names p => PyDict.put p.switchSystemName
    (vlanGroupName (groupRacks mapping (switchesOf ports) group.1) group.1) names) names
  constructor
  · simp only [nameGroup, hracks, bind, Except.bind, hsorted]
    rfl
  · intro s
    rw [lookup_foldl_put]
    by_cases hs : ∃ p ∈ group.2, p.switchSystemName = s
    · rw [if_pos hs, if_pos hs]
      obtain ⟨p, hp, rfl⟩ := hs
      rw [hg, List.mem_filter, decide_eq_true_eq] at hp
      rw [nameOf, if_pos (mem_switchesOf.mpr ⟨p, hp.1, rfl⟩), hp.2]
      rfl
    · rw [if_neg hs, if_neg hs]

theorem nameGroups_lookup {ports : List InspectedPort}
    (hparsed : ∀ s ∈ switchesOf ports, (parse? s).isSome) {groups : Groups}
    (hg : ∀ group ∈ groups, group.2 =
      ports.filter fun p => categoryOf mapping p.switchSystemName = some group.1)
    (names : List (Text × Text)) :
    ∃ names', groups.foldlM nameGroup names = .ok names' ∧ ∀ s, names'.lookup s =
      if ∃ group ∈ groups, ∃ p ∈ group.2, p.switchSystemName = s then
        nameOf mapping (switchesOf ports) s
      else names.lookup s := by
  induction groups generalizing names with
  | nil => exact ⟨names, rfl, by simp⟩
  | cons group groups ih =>
    obtain ⟨names₁, hstep, h₁⟩ := nameGroup_lookup hparsed (hg group (by simp)) names
    obtain ⟨names', hrun, h'⟩ := ih (fun g hm => hg g (by simp [hm])) names₁
    use names'
    constructor
    · rw [List.foldlM_cons, hstep]
      exact hrun
    · intro s
      rw [h' s, h₁ s]
      simp only [List.exists_mem_cons_iff]
      by_cases h1 : ∃ p ∈ group.2, p.switchSystemName = s <;>
        by_cases h2 : ∃ g ∈ groups, ∃ p ∈ g.2, p.switchSystemName = s <;> simp [h1, h2]

/-- On the switches of a node that can be named, the names are those of their set. -/
theorem vlanGroupNames_of_topology {ports : List InspectedPort}
    (h : Topology mapping (switchesOf ports)) :
    ∃ names, vlanGroupNames ports mapping = .ok names ∧
      ∀ s, names.lookup s = nameOf mapping (switchesOf ports) s := by
  have hcat : ∀ p ∈ ports, (categoryOf mapping p.switchSystemName).isSome := fun p hp =>
    h.suffixes _ (mem_switchesOf.mpr ⟨p, hp, rfl⟩)
  obtain ⟨groups, hgroups, hgrouped⟩ := groupBySwitchCategory_grouped hcat
  obtain ⟨names, hnames, hlookup⟩ :=
    nameGroups_lookup h.parsed (fun g (hg : g ∈ groups) => hgrouped.mem hg) []
  use names
  constructor
  · simp only [vlanGroupNames, assertConsistentDataCenter_iff.mpr ⟨h.parsed, h.dataCenter⟩,
      assertSingleOrPairedRacks_iff.mpr ⟨h.parsed, h.racks⟩,
      assertSwitchNamesHaveKnownSuffixes_iff.mpr hcat, hgroups,
      (assertRedundantNetworkConnections_iff hgrouped).mpr h.networkPair, bind, Except.bind]
    exact hnames
  · intro s
    rw [hlookup s]
    by_cases hs : s ∈ switchesOf ports
    · rw [if_pos]
      obtain ⟨p, hp, rfl⟩ := mem_switchesOf.mp hs
      obtain ⟨c, hc⟩ := Option.isSome_iff_exists.mp (hcat p hp)
      obtain ⟨group, hg, hmem⟩ := hgrouped.exists_group hp hc
      exact ⟨group, hg, p, hmem, rfl⟩
    · rw [nameOf, if_neg hs]
      split_ifs <;> rfl

theorem topology_of_vlanGroupNames {ports : List InspectedPort} {names : List (Text × Text)}
    (h : vlanGroupNames ports mapping = .ok names) : Topology mapping (switchesOf ports) := by
  obtain ⟨_, hdc, h⟩ := bind_eq_ok h
  obtain ⟨_, hracks, h⟩ := bind_eq_ok h
  obtain ⟨_, hsuffix, h⟩ := bind_eq_ok h
  obtain ⟨groups, hgroups, h⟩ := bind_eq_ok h
  obtain ⟨_, hnetwork, -⟩ := bind_eq_ok h
  have hcat := assertSwitchNamesHaveKnownSuffixes_iff.mp hsuffix
  obtain ⟨groups', hgroups', hgrouped⟩ := groupBySwitchCategory_grouped hcat
  obtain rfl : groups' = groups := Except.ok.inj (hgroups'.symm.trans hgroups)
  constructor
  · exact (assertConsistentDataCenter_iff.mp hdc).1
  · exact (assertConsistentDataCenter_iff.mp hdc).2
  · exact (assertSingleOrPairedRacks_iff.mp hracks).2
  · intro s hs
    obtain ⟨p, hp, rfl⟩ := mem_switchesOf.mp hs
    exact hcat p hp
  · exact (assertRedundantNetworkConnections_iff hgrouped).mp hnetwork

/-- The result is a dictionary. -/
theorem nodup_keys_vlanGroupNames {ports : List InspectedPort} {names : List (Text × Text)}
    (h : vlanGroupNames ports mapping = .ok names) : (names.map Prod.fst).Nodup := by
  obtain ⟨_, -, h⟩ := bind_eq_ok h
  obtain ⟨_, -, h⟩ := bind_eq_ok h
  obtain ⟨_, -, h⟩ := bind_eq_ok h
  obtain ⟨groups, -, h⟩ := bind_eq_ok h
  obtain ⟨_, -, h⟩ := bind_eq_ok h
  have run (groups : Groups) (done : List (Text × Text)) (hdone : (done.map Prod.fst).Nodup)
      (hrun : groups.foldlM nameGroup done = .ok names) : (names.map Prod.fst).Nodup := by
    induction groups generalizing done with
    | nil =>
      cases hrun
      exact hdone
    | cons group groups ih =>
      rw [List.foldlM_cons] at hrun
      obtain ⟨next, hnext, hrun⟩ := bind_eq_ok hrun
      obtain ⟨rackNames, -, hnext⟩ := bind_eq_ok hnext
      cases hnext
      exact ih _ (PyDict.nodup_keys_foldl_put _ _ group.2 hdone) hrun
  exact run groups [] List.nodup_nil h

/-- What a caller sees: nothing when an error is raised, else the dictionary as a function. -/
def outcome (ports : List InspectedPort) (mapping : Mapping) : Option (Text → Option Text) :=
  (vlanGroupNames ports mapping).toOption.map fun names s => names.lookup s

theorem outcome_eq_some_iff {ports : List InspectedPort} {f : Text → Option Text} :
    outcome ports mapping = some f ↔
      Topology mapping (switchesOf ports) ∧ f = nameOf mapping (switchesOf ports) := by
  constructor
  · intro h
    obtain ⟨names, hnames, rfl⟩ := Option.map_eq_some_iff.mp h
    cases hv : vlanGroupNames ports mapping with
    | error e => simp [hv, Except.toOption] at hnames
    | ok names' =>
      have htop := topology_of_vlanGroupNames hv
      obtain ⟨names'', hv', hlookup⟩ := vlanGroupNames_of_topology htop
      obtain rfl : names'' = names := by simpa [hv', Except.toOption] using hnames
      exact ⟨htop, funext hlookup⟩
  · rintro ⟨htop, rfl⟩
    obtain ⟨names, hv, hlookup⟩ := vlanGroupNames_of_topology htop
    simp only [outcome, hv, Except.toOption, Option.map_some, Option.some.injEq]
    exact funext hlookup

/-- Ports on the same set of switches have the same outcome. -/
theorem outcome_congr {ports ports' : List InspectedPort}
    (h : switchesOf ports' = switchesOf ports) : outcome ports' mapping = outcome ports mapping := by
  apply Option.ext
  intro f
  rw [outcome_eq_some_iff, outcome_eq_some_iff, h]

theorem nameOf_eq_some {switches : Finset Text} {c s : Text}
    (h : s ∈ inCategory mapping switches c) :
    nameOf mapping switches s = some (vlanGroupName (groupRacks mapping switches c) c) := by
  obtain ⟨hs, hc⟩ := Finset.mem_filter.mp h
  rw [nameOf, if_pos hs, hc]
  rfl

theorem lookup_eq_nameOf {ports : List InspectedPort} {names : List (Text × Text)}
    (h : vlanGroupNames ports mapping = .ok names) (s : Text) :
    names.lookup s = nameOf mapping (switchesOf ports) s := by
  obtain ⟨names', h', hlookup⟩ := vlanGroupNames_of_topology (topology_of_vlanGroupNames h)
  obtain rfl : names' = names := Except.ok.inj (h'.symm.trans h)
  exact hlookup s

/-- The names depend only on the set of switches: a run that does not raise names exactly the
connected switches, each by the sorted distinct racks of its category, on a topology that meets
the assertions; every other list of ports on these switches has the same outcome; and in a
category with the same switches two nodes get the same names. -/
theorem vlanGroupNames_set_determined (mapping : Mapping) (ports : List InspectedPort) :
    (∀ names, vlanGroupNames ports mapping = .ok names →
      Topology mapping (switchesOf ports) ∧
      (∀ s, (names.lookup s).isSome ↔ ∃ p ∈ ports, p.switchSystemName = s) ∧
      ∀ p ∈ ports, ∃ c, categoryOf mapping p.switchSystemName = some c ∧
        names.lookup p.switchSystemName =
          some (join '/' (groupRacks mapping (switchesOf ports) c) ++ "-".toList ++ c)) ∧
    (∀ ports', switchesOf ports' = switchesOf ports →
      outcome ports' mapping = outcome ports mapping) ∧
    ∀ ports' names names' c, vlanGroupNames ports mapping = .ok names →
      vlanGroupNames ports' mapping = .ok names' →
      inCategory mapping (switchesOf ports') c = inCategory mapping (switchesOf ports) c →
      ∀ s ∈ inCategory mapping (switchesOf ports) c, names'.lookup s = names.lookup s := by
  constructor
  · intro names h
    have htop := topology_of_vlanGroupNames h
    constructor
    · exact htop
    constructor
    · intro s
      rw [lookup_eq_nameOf h s, ← mem_switchesOf, nameOf]
      by_cases hs : s ∈ switchesOf ports
      · simpa [hs] using htop.suffixes s hs
      · simp [hs]
    · intro p hp
      have hs : p.switchSystemName ∈ switchesOf ports := mem_switchesOf.mpr ⟨p, hp, rfl⟩
      obtain ⟨c, hc⟩ := Option.isSome_iff_exists.mp (htop.suffixes _ hs)
      use c, hc
      rw [lookup_eq_nameOf h, nameOf_eq_some (Finset.mem_filter.mpr ⟨hs, hc⟩)]
      rfl
  constructor
  · intro ports' hset
    exact outcome_congr hset
  · intro ports' names names' c h h' hset s hs
    rw [lookup_eq_nameOf h, lookup_eq_nameOf h', nameOf_eq_some hs,
      nameOf_eq_some (hset.symm ▸ hs), groupRacks, groupRacks, hset]

def examplePort (switchSystemName : String) : InspectedPort where
  macAddress := []
  name := []
  switchSystemName := switchSystemName.toList
  switchPortId := []
  switchChassisId := []

def examplePorts : List InspectedPort := [examplePort "a1-2-1.abc1", examplePort "a1-1-1.abc1"]

def exampleMapping : Mapping := [("1".toList, network), ("1f".toList, "storage".toList)]

/-- Two network switches in paired racks. -/
theorem vlanGroupNames_paired_racks :
    vlanGroupNames examplePorts exampleMapping =
      .ok [("a1-2-1.abc1".toList, "a1-1/a1-2-network".toList),
        ("a1-1-1.abc1".toList, "a1-1/a1-2-network".toList)] ∧
    Topology exampleMapping (switchesOf examplePorts) ∧
    outcome examplePorts.reverse exampleMapping = outcome examplePorts exampleMapping := by
  have h : vlanGroupNames examplePorts exampleMapping =
      .ok [("a1-2-1.abc1".toList, "a1-1/a1-2-network".toList),
        ("a1-1-1.abc1".toList, "a1-1/a1-2-network".toList)] := by decide +kernel
  obtain ⟨hnames, hperm, -⟩ := vlanGroupNames_set_determined exampleMapping examplePorts
  exact ⟨h, (hnames _ h).1, hperm _ (by decide +kernel)⟩

end Understack.Ironic.VlanGroup
