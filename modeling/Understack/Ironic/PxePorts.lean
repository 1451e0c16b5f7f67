import Understack.Ironic.BaremetalPorts

/-! Which ports the inspection hook leaves with PXE, and that the order of its inputs does not
matter. -/
namespace Understack.Ironic.BaremetalPorts
open PyText PySets VlanGroup Runs

variable {mapping : Mapping} {inspected : List InspectedPort} {names : List (Text × Text)}

theorem mem_names_iff (h : vlanGroupNames inspected mapping = .ok names) {s group : Text} :
    (s, group) ∈ names ↔ nameOf mapping (switchesOf inspected) s = some group := by
  rw [← lookup_eq_nameOf h]
  exact ⟨PyDict.lookup_of_mem (nodup_keys_vlanGroupNames h), PyDict.mem_of_lookup⟩

theorem switch_of_name {switches : Finset Text} {s group : Text}
    (h : nameOf mapping switches s = some group) : s ∈ switches := by
  unfold nameOf at h
  split_ifs at h with hs
  exact hs

/-! The switches that PXE uses. -/

theorem firstSwitchName_spec {entries : List (Text × Text)}
    (hkeys : ∀ e ∈ entries, ∃ key, naturalSortKey e.1 = .ok key) (hne : entries ≠ []) :
    ∃ s, firstSwitchName entries = .ok s ∧ (∃ e ∈ entries, e.1 = s) ∧
      ∀ e ∈ entries, orderOf s ≤ orderOf e.1 := by
  obtain ⟨s, rest, hsorted, hs, hle⟩ :=
    @naturalSortedSwitchNames_spec (entries.map Prod.fst)
      (by simpa using fun a b hab => hkeys (a, b) hab) (by simpa using hne)
  refine ⟨s, ?_, List.mem_map.mp hs, fun e he => hle e.1 (List.mem_map_of_mem he)⟩
  unfold firstSwitchName
  rw [hsorted]
  rfl

theorem mem_networkGroups {group : Text × List (Text × Text)} (h : group ∈ networkGroups names) :
    endsWithNetwork group.1 = true ∧ group.2 ≠ [] ∧
      ∀ e, e ∈ group.2 ↔ e ∈ names ∧ e.2 = group.1 := by
  have hgrouped := Grouping.grouped_group Prod.snd
    (names.filter fun entry => endsWithNetwork entry.2)
  have hkey := hgrouped.mem_keys.mp (List.mem_map_of_mem h)
  obtain ⟨e, he, hgroup⟩ := List.mem_map.mp hkey
  have hends : endsWithNetwork group.1 = true := by
    rw [← hgroup]
    exact (List.mem_filter.mp he).2
  refine ⟨hends, hgrouped.nonempty group h, fun e => ?_⟩
  rw [hgrouped.snd_eq h]
  simp only [List.mem_filter, decide_eq_true_eq]
  constructor
  · rintro ⟨⟨hmem, -⟩, heq⟩
    exact ⟨hmem, heq⟩
  · rintro ⟨hmem, heq⟩
    exact ⟨⟨hmem, heq ▸ hends⟩, heq⟩

theorem exists_networkGroup {e : Text × Text} (h : e ∈ names)
    (hends : endsWithNetwork e.2 = true) : ∃ group ∈ networkGroups names, group.1 = e.2 := by
  have hgrouped := Grouping.grouped_group Prod.snd
    (names.filter fun entry => endsWithNetwork entry.2)
  exact List.mem_map.mp
    (hgrouped.mem_keys.mpr (List.mem_map_of_mem (List.mem_filter.mpr ⟨h, hends⟩)))

/-- The first switch of a VLAN group of the network. -/
def IsFirst (mapping : Mapping) (switches : Finset Text) (s : Text) : Prop :=
  ∃ group, nameOf mapping switches s = some group ∧ endsWithNetwork group = true ∧
    ∀ t ∈ switches, nameOf mapping switches t = some group → orderOf s ≤ orderOf t

theorem pxeSwitchNames_spec (h : vlanGroupNames inspected mapping = .ok names)
    (hascii : ∀ s ∈ switchesOf inspected, IsAscii s)
    (hinj : Set.InjOn orderOf (switchesOf inspected)) :
    ∃ pxe, pxeSwitchNames names = .ok pxe ∧
      ∀ s, s ∈ pxe ↔ IsFirst mapping (switchesOf inspected) s := by
  have hswitch {e : Text × Text} (he : e ∈ names) : e.1 ∈ switchesOf inspected :=
    switch_of_name ((mem_names_iff h).mp he)
  have hfirst : ∀ group ∈ networkGroups names, ∃ s, firstSwitchName group.2 = .ok s ∧
      (∃ e ∈ group.2, e.1 = s) ∧ ∀ e ∈ group.2, orderOf s ≤ orderOf e.1 := by
    intro group hgroup
    obtain ⟨-, hne, hmem⟩ := mem_networkGroups hgroup
    exact firstSwitchName_spec
      (fun e he => ⟨_, naturalSortKey_ascii (hascii _ (hswitch ((hmem e).mp he).1))⟩) hne
  have hall : ((networkGroups names).filter fun group => group.2 ≠ []) = networkGroups names :=
    List.filter_eq_self.mpr fun group hgroup => decide_eq_true (mem_networkGroups hgroup).2.1
  obtain ⟨pxe, hpxe⟩ := collect_returns fun group hgroup =>
    (hfirst group hgroup).imp fun _ hs => hs.1
  refine ⟨pxe, by rw [pxeSwitchNames, hall, hpxe], fun s => ?_⟩
  rw [mem_collect hpxe]
  constructor
  · rintro ⟨group, hgroup, hs⟩
    obtain ⟨hends, -, hmem⟩ := mem_networkGroups hgroup
    obtain ⟨s', hs', ⟨e, he, rfl⟩, hle⟩ := hfirst group hgroup
    cases hs.symm.trans hs'
    obtain ⟨hname, heq⟩ := (hmem e).mp he
    refine ⟨group.1, (mem_names_iff h).mp (heq ▸ hname), hends, fun t _ ht => ?_⟩
    exact hle (t, group.1) ((hmem _).mpr ⟨(mem_names_iff h).mpr ht, rfl⟩)
  · rintro ⟨group, hname, hends, hle⟩
    have he := (mem_names_iff h).mpr hname
    obtain ⟨g, hg, rfl⟩ := exists_networkGroup he hends
    obtain ⟨-, -, hmem⟩ := mem_networkGroups hg
    obtain ⟨s', hs', ⟨e, he', rfl⟩, hle'⟩ := hfirst g hg
    have hmem' := (hmem e).mp he'
    have hname' : nameOf mapping (switchesOf inspected) e.1 = some g.1 :=
      (mem_names_iff h).mp (hmem'.2 ▸ hmem'.1)
    have heq : orderOf s = orderOf e.1 :=
      le_antisymm (hle e.1 (hswitch hmem'.1) hname') (hle' _ ((hmem _).mpr ⟨he, rfl⟩))
    refine ⟨g, hg, ?_⟩
    rwa [hinj (switch_of_name hname) (hswitch hmem'.1) heq]

/-! The update of one port. -/

theorem lookup_portsByMac (inspected : List InspectedPort) (address : Text) :
    (inspected.foldl (fun d p => PyDict.put p.macAddress p d) []).lookup address =
      inspected.reverse.find? fun p => p.macAddress = address :=
  (PyDict.lookup_foldl_put InspectedPort.macAddress id inspected [] address).trans (by simp)

/-- The link of a port afterwards: the old one when that has the same items. -/
def linkAfter (old : Option Link) (link : Link) : Option Link :=
  if (old.map fun old => sameItems old link) = some true then old else some link

theorem lookup_of_sameItems {d e : Link} (h : sameItems d e = true) {item : Text × Text}
    (hitem : item ∈ e) : d.lookup item.1 = some item.2 := by
  simp only [sameItems, Bool.and_eq_true, List.all_eq_true, decide_eq_true_eq] at h
  exact h.2 item hitem

theorem sameItems_localLinkConnection (p : InspectedPort) :
    sameItems (localLinkConnection p) (localLinkConnection p) = true := by
  simp [sameItems, localLinkConnection, List.lookup_cons]

theorem linkAfter_spec (old : Option Link) (p : InspectedPort) :
    ∃ link, linkAfter old (localLinkConnection p) = some link ∧
      sameItems link (localLinkConnection p) = true := by
  unfold linkAfter
  split_ifs with hold
  · obtain ⟨link, rfl, hsame⟩ := Option.map_eq_some_iff.mp hold
    exact ⟨link, rfl, hsame⟩
  · exact ⟨_, rfl, sameItems_localLinkConnection p⟩

theorem linkAfter_again (old : Option Link) (p : InspectedPort) :
    linkAfter (linkAfter old (localLinkConnection p)) (localLinkConnection p) =
      linkAfter old (localLinkConnection p) := by
  obtain ⟨link, hlink, hsame⟩ := linkAfter_spec old p
  rw [hlink, linkAfter, Option.map_some, hsame, if_pos rfl]

/-- A link with the items of both gives one from the other. -/
theorem localLinkConnection_eq {p q : InspectedPort} {link : Link}
    (hp : sameItems link (localLinkConnection p) = true)
    (hq : sameItems link (localLinkConnection q) = true) :
    localLinkConnection q = localLinkConnection p := by
  have hvalue {key value value' : Text} (h : (key, value) ∈ localLinkConnection p)
      (h' : (key, value') ∈ localLinkConnection q) : value' = value :=
    Option.some.inj ((lookup_of_sameItems hq h').symm.trans (lookup_of_sameItems hp h))
  have hport : q.switchPortId = p.switchPortId :=
    hvalue List.mem_cons_self List.mem_cons_self
  have hid : q.switchChassisId = p.switchChassisId :=
    hvalue (List.mem_cons_of_mem _ List.mem_cons_self) (List.mem_cons_of_mem _ List.mem_cons_self)
  have hinfo : q.switchSystemName = p.switchSystemName :=
    hvalue (List.mem_cons_of_mem _ (List.mem_cons_of_mem _ List.mem_cons_self))
      (List.mem_cons_of_mem _ (List.mem_cons_of_mem _ List.mem_cons_self))
  rw [localLinkConnection, localLinkConnection, hport, hid, hinfo]

theorem switchSystemName_eq {p q : InspectedPort}
    (h : localLinkConnection q = localLinkConnection p) :
    q.switchSystemName = p.switchSystemName := by
  simp only [localLinkConnection, List.cons.injEq, Prod.mk.injEq] at h
  exact h.2.2.1.2

/-- A connected port that is saved. -/
def connectedPort (port : BaremetalPort) (link : Link) (group : Option Text) (pxe : Bool) :
    BaremetalPort where
  address := port.address
  localLinkConnection := linkAfter port.localLinkConnection link
  physicalNetwork := group.filter fun group => group = [] || endsWithNetwork group
  category := (group.filter (· ≠ [])).map lastPart
  pxeEnabled := pxe

/-- A port without a connection that is saved. -/
def clearedPort (address : Text) : BaremetalPort where
  address := address
  localLinkConnection := some []
  physicalNetwork := none
  category := none
  pxeEnabled := false

theorem setPortAttributes_saved {save : BaremetalPort → Bool} (hsave : ∀ port, save port = true)
    (port : BaremetalPort) (p : InspectedPort) (group : Option Text) (pxe : Bool) :
    setPortAttributes save port p group pxe =
      connectedPort port (localLinkConnection p) group pxe := by
  cases port
  simp only [setPortAttributes, connectedPort, linkAfter, hsave, if_true]
  split_ifs <;> simp_all

theorem clearPortAttributes_saved {save : BaremetalPort → Bool} (hsave : ∀ port, save port = true)
    (port : BaremetalPort) : clearPortAttributes save port = clearedPort port.address := by
  simp only [clearPortAttributes, hsave, if_true, clearedPort]

theorem connectedPort_again (port : BaremetalPort) (p : InspectedPort) (group : Option Text)
    (pxe : Bool) :
    connectedPort (connectedPort port (localLinkConnection p) group pxe) (localLinkConnection p)
      group pxe = connectedPort port (localLinkConnection p) group pxe := by
  rw [connectedPort, connectedPort, linkAfter_again]

/-! A call of the hook. -/

variable {env : Env} {data : PluginData} {pxe : List Text} {port : BaremetalPort}

/-- The entry that counts for an address. -/
def entryAt (inspected : List InspectedPort) (address : Text) : Option InspectedPort :=
  inspected.reverse.find? fun p => p.macAddress = address

theorem entryAt_some {address : Text} {p : InspectedPort} (h : entryAt inspected address = some p) :
    p ∈ inspected ∧ p.macAddress = address := by
  have hmac := List.find?_some h
  exact ⟨List.mem_reverse.mp (List.mem_of_find?_eq_some h), of_decide_eq_true hmac⟩

theorem entryAt_none {address : Text} :
    entryAt inspected address = none ↔ ∀ p ∈ inspected, p.macAddress ≠ address := by
  simp [entryAt]

def portAfter (inspected : List InspectedPort) (names : List (Text × Text)) (pxe : List Text)
    (port : BaremetalPort) : BaremetalPort :=
  match entryAt inspected port.address with
  | some p => connectedPort port (localLinkConnection p) (names.lookup p.switchSystemName)
      (decide (p.switchSystemName ∈ pxe))
  | none => clearedPort port.address

theorem portAfter_connected {p : InspectedPort} (h : entryAt inspected port.address = some p) :
    portAfter inspected names pxe port = connectedPort port (localLinkConnection p)
      (names.lookup p.switchSystemName) (decide (p.switchSystemName ∈ pxe)) := by
  rw [portAfter, h]

theorem portAfter_cleared (h : entryAt inspected port.address = none) :
    portAfter inspected names pxe port = clearedPort port.address := by
  rw [portAfter, h]

theorem address_portAfter (port : BaremetalPort) :
    (portAfter inspected names pxe port).address = port.address := by
  unfold portAfter
  split <;> rfl

theorem portAfter_again (port : BaremetalPort) :
    portAfter inspected names pxe (portAfter inspected names pxe port) =
      portAfter inspected names pxe port := by
  have haddress := @address_portAfter inspected names pxe port
  cases h : entryAt inspected port.address with
  | none => rw [portAfter_cleared (haddress.symm ▸ h), haddress, portAfter_cleared h]
  | some p =>
    rw [portAfter_connected (haddress.symm ▸ h), portAfter_connected h]
    exact connectedPort_again port p _ _

/-- What the hook computes from the LLDP data. -/
structure Plan (env : Env) (mapping : Mapping) (data : PluginData)
    (inspected : List InspectedPort) (names : List (Text × Text)) (pxe : List Text) : Prop where
  parsed : parsePluginData env.lower data = .ok inspected
  named : vlanGroupNames inspected mapping = .ok names
  sorted : pxeSwitchNames names = .ok pxe

theorem ne_nil_of_named (h : vlanGroupNames inspected mapping = .ok names) : inspected ≠ [] := by
  rintro rfl
  have hpair := (topology_of_vlanGroupNames h).networkPair
  simp [inCategory, switchesOf] at hpair

theorem Plan.inspectHook (h : Plan env mapping data inspected names pxe)
    (hsave : ∀ port, env.save port = true) (node : Node) :
    inspectHook env mapping data node = .ok {
      ports := node.ports.map (portAfter inspected names pxe)
      traits := setNodeTraits env.upper node.traits
        ((names.map Prod.snd).filter (· ≠ [])).toFinset } := by
  have hports : updatePortAttrs env.save node.ports
      (inspected.foldl (fun d p => PyDict.put p.macAddress p d) []) names pxe =
        node.ports.map (portAfter inspected names pxe) := by
    apply List.map_congr_left
    intro port _
    rw [updatePort, lookup_portsByMac, portAfter, entryAt]
    cases inspected.reverse.find? fun p => p.macAddress = port.address with
    | none => exact clearPortAttributes_saved hsave port
    | some p => exact setPortAttributes_saved hsave port p _ _
  unfold BaremetalPorts.inspectHook
  simp only [h.parsed, h.named, h.sorted, bind, Except.bind, if_neg (ne_nil_of_named h.named),
    Except.mapError, hports]
  rfl

/-- No two switch names are equal up to leading zeros. -/
def DistinctNames (inspected : List InspectedPort) : Prop :=
  ∀ p ∈ inspected, ∀ q ∈ inspected,
    withoutLeadingZeros p.switchSystemName = withoutLeadingZeros q.switchSystemName →
      p.switchSystemName = q.switchSystemName

def AsciiNames (inspected : List InspectedPort) : Prop :=
  ∀ p ∈ inspected, IsAscii p.switchSystemName

theorem AsciiNames.switches (h : AsciiNames inspected) :
    ∀ s ∈ switchesOf inspected, IsAscii s := by
  intro s hs
  obtain ⟨p, hp, rfl⟩ := mem_switchesOf.mp hs
  exact h p hp

theorem DistinctNames.injOn (h : DistinctNames inspected) (hascii : AsciiNames inspected) :
    Set.InjOn orderOf (switchesOf inspected) := by
  intro s hs t ht hst
  obtain ⟨p, hp, rfl⟩ := mem_switchesOf.mp hs
  obtain ⟨q, hq, rfl⟩ := mem_switchesOf.mp ht
  exact h p hp q hq (withoutLeadingZeros_eq (hascii p hp) (hascii q hq) hst)

theorem exists_plan (hparse : parsePluginData env.lower data = .ok inspected)
    (hnames : vlanGroupNames inspected mapping = .ok names) (hascii : AsciiNames inspected)
    (hdistinct : DistinctNames inspected) :
    ∃ pxe, Plan env mapping data inspected names pxe ∧
      ∀ s, s ∈ pxe ↔ IsFirst mapping (switchesOf inspected) s := by
  obtain ⟨pxe, hpxe, hmem⟩ := pxeSwitchNames_spec hnames hascii.switches (hdistinct.injOn hascii)
  exact ⟨pxe, ⟨hparse, hnames, hpxe⟩, hmem⟩

/-- The same entries in another order. -/
theorem exists_plan_perm (hparse : parsePluginData env.lower data = .ok inspected)
    (hnames : vlanGroupNames inspected mapping = .ok names) (hascii : AsciiNames inspected)
    (hdistinct : DistinctNames inspected) {data' : PluginData}
    (hinterfaces : data'.allInterfaces = data.allInterfaces)
    (hlldp : data'.parsedLldp.Perm data.parsedLldp) :
    ∃ inspected' names' pxe', Plan env mapping data' inspected' names' pxe' ∧
      inspected'.Perm inspected ∧ (∀ s, names'.lookup s = names.lookup s) ∧
      ∀ s, s ∈ pxe' ↔ IsFirst mapping (switchesOf inspected) s := by
  obtain ⟨inspected', hparse', hperm⟩ := mapM_perm hparse hlldp
  have hswitches : switchesOf inspected' = switchesOf inspected :=
    List.toFinset_eq_of_perm _ _ (hperm.map _)
  obtain ⟨names', hnames', hlookup⟩ := vlanGroupNames_of_topology
    (hswitches.symm ▸ topology_of_vlanGroupNames hnames)
  have hmem (p : InspectedPort) : p ∈ inspected' ↔ p ∈ inspected := hperm.mem_iff
  obtain ⟨pxe', hplan, hpxe⟩ := @exists_plan mapping inspected' names' env data'
    (by rw [parsePluginData, hinterfaces]; exact hparse') hnames'
    (fun p hp => hascii p ((hmem p).mp hp))
    (fun p hp q hq => hdistinct p ((hmem p).mp hp) q ((hmem q).mp hq))
  refine ⟨inspected', names', pxe', hplan, hperm, fun s => ?_, fun s => ?_⟩
  · rw [hlookup s, lookup_eq_nameOf hnames, hswitches]
  · rw [hpxe s, hswitches]

/-! The network switches, and the categories whose VLAN groups end like theirs. -/

theorem endsWithNetwork_vlanGroupName (rackNames : List Text) (category : Text) :
    endsWithNetwork (vlanGroupName rackNames category) = true ↔
      category = network ∨ endsWithNetwork category = true := by
  have hdash : '-' ∉ network := by decide
  have hname : vlanGroupName rackNames category = join '/' rackNames ++ '-' :: category := by
    simp [vlanGroupName]
  have hcons : "-network".toList = '-' :: network := rfl
  rw [endsWithNetwork, endsWithNetwork, List.isSuffixOf_iff_suffix, List.isSuffixOf_iff_suffix,
    hname, hcons]
  constructor
  · intro h
    rcases List.suffix_or_suffix_of_suffix h (List.suffix_append _ _) with hshort | hlong
    · rcases List.suffix_cons_iff.mp hshort with heq | hsuffix
      · exact Or.inl (List.cons.inj heq).2.symm
      · exact Or.inr hsuffix
    · rcases List.suffix_cons_iff.mp hlong with heq | hsuffix
      · exact Or.inl (List.cons.inj heq).2
      · exact (hdash (hsuffix.mem List.mem_cons_self)).elim
  · rintro (rfl | hsuffix)
    · exact List.suffix_append _ _
    · exact (hsuffix.trans (List.suffix_cons _ _)).trans (List.suffix_append _ _)

theorem nameOf_of_category {switches : Finset Text} {s category : Text} (hs : s ∈ switches)
    (h : categoryOf mapping s = some category) : nameOf mapping switches s =
      some (vlanGroupName (groupRacks mapping switches category) category) :=
  nameOf_eq_some (Finset.mem_filter.mpr ⟨hs, h⟩)

variable (mapping) in
/-- The first of the two network switches. -/
def IsFirstNetwork (switches : Finset Text) (s : Text) : Prop :=
  s ∈ inCategory mapping switches network ∧
    ∀ t ∈ inCategory mapping switches network, t ≠ s → Precedes s t

theorem exists_isFirstNetwork {switches : Finset Text} (hascii : ∀ s ∈ switches, IsAscii s)
    (hinj : Set.InjOn orderOf switches) (hpair : (inCategory mapping switches network).card = 2) :
    ∃ first, IsFirstNetwork mapping switches first := by
  have hne : (inCategory mapping switches network).Nonempty := by
    rw [← Finset.card_pos, hpair]
    decide
  have hmem {s : Text} (hs : s ∈ inCategory mapping switches network) : s ∈ switches :=
    (Finset.mem_filter.mp hs).1
  obtain ⟨first, hfirst, hle⟩ := Finset.exists_min_image _ orderOf hne
  refine ⟨first, hfirst, fun t ht hne => ?_⟩
  rw [precedes_iff (hascii _ (hmem hfirst)) (hascii _ (hmem ht))]
  exact lt_of_le_of_ne (hle t ht) fun heq => hne (hinj (hmem ht) (hmem hfirst) heq.symm)

/-- Only the first network switch of the switches with a VLAN group of the network is the first
of its group. -/
structure Regular (mapping : Mapping) (switches : Finset Text) (s : Text) : Prop where
  other : ∀ category, categoryOf mapping s = some category → category ≠ network →
    endsWithNetwork category = true →
      ∃ t ∈ switches, nameOf mapping switches t = nameOf mapping switches s ∧ Precedes t s
  network : s ∈ inCategory mapping switches network →
    (∀ t ∈ inCategory mapping switches network, ¬Precedes t s) →
      ∀ t ∈ switches, nameOf mapping switches t = nameOf mapping switches s → ¬Precedes t s

theorem regular_iff {switches : Finset Text} (hascii : ∀ s ∈ switches, IsAscii s)
    {s first : Text} (hs : s ∈ switches) (hcategory : (categoryOf mapping s).isSome)
    (hfirst : IsFirstNetwork mapping switches first) :
    Regular mapping switches s ↔ (IsFirst mapping switches s ↔ s = first) := by
  obtain ⟨category, hcategory⟩ := Option.isSome_iff_exists.mp hcategory
  have hname := nameOf_of_category hs hcategory
  have hlt {t u : Text} (ht : t ∈ switches) (hu : u ∈ switches) :
      Precedes t u ↔ orderOf t < orderOf u := precedes_iff (hascii t ht) (hascii u hu)
  have hfirst' : first ∈ switches := (Finset.mem_filter.mp hfirst.1).1
  have hnetwork : s ∈ inCategory mapping switches VlanGroup.network ↔
      category = VlanGroup.network := by
    rw [inCategory, Finset.mem_filter, hcategory, Option.some.injEq]
    exact and_iff_right hs
  have hisFirst : IsFirst mapping switches s ↔
      (category = VlanGroup.network ∨ endsWithNetwork category = true) ∧
        ∀ t ∈ switches, nameOf mapping switches t = nameOf mapping switches s → ¬Precedes t s := by
    unfold IsFirst
    simp only [hname, Option.some.injEq, exists_eq_left', endsWithNetwork_vlanGroupName]
    refine and_congr_right fun _ => forall₂_congr fun t ht => imp_congr_right fun _ => ?_
    rw [hlt ht hs, not_lt]
  constructor
  · intro h
    constructor
    · intro hs'
      obtain ⟨hends, hnone⟩ := hisFirst.mp hs'
      by_cases hc : category = VlanGroup.network
      · by_contra hne
        refine hnone first hfirst' ?_ (hfirst.2 s (hnetwork.mpr hc) hne)
        rw [nameOf_eq_some hfirst.1, hname, hc]
      · obtain ⟨t, ht, htname, hprecedes⟩ :=
          h.other category hcategory hc (hends.resolve_left hc)
        exact (hnone t ht htname hprecedes).elim
    · rintro rfl
      refine hisFirst.mpr ⟨Or.inl (hnetwork.mp hfirst.1), h.network hfirst.1 fun t ht => ?_⟩
      by_cases hts : t = s
      · rw [hts, hlt hs hs]
        exact lt_irrefl _
      · have ht' : t ∈ switches := (Finset.mem_filter.mp ht).1
        rw [hlt ht' hs]
        exact ((hlt hs ht').mp (hfirst.2 t ht hts)).asymm
  · intro h
    constructor
    · intro c hc hne hends
      cases hcategory.symm.trans hc
      have hnot : ¬IsFirst mapping switches s := fun hs' =>
        hne (hnetwork.mp (h.mp hs' ▸ hfirst.1))
      rw [hisFirst] at hnot
      by_contra hnone
      exact hnot ⟨Or.inr hends, fun t ht htname hp => hnone ⟨t, ht, htname, hp⟩⟩
    · intro hs' hnone
      have heq : s = first := by
        by_contra hne
        exact hnone first hfirst.1 (hfirst.2 s hs' hne)
      exact (hisFirst.mp (h.mpr heq)).2

/-- Without another category that ends like the network one, all switches are regular. -/
theorem regular_of_categories {switches : Finset Text} {s : Text}
    (hparsed : ∀ t ∈ switches, (categoryOf mapping t).isSome)
    (h : ∀ category ∈ mapping.map Prod.snd, endsWithNetwork category = false) :
    Regular mapping switches s := by
  have hcategory {t category : Text} (ht : categoryOf mapping t = some category) :
      endsWithNetwork category = false := by
    obtain ⟨parsed, -, hlookup⟩ := Option.bind_eq_some_iff.mp ht
    exact h category (List.mem_map_of_mem (PyDict.mem_of_lookup hlookup))
  constructor
  · intro category hc _ hends
    rw [hcategory hc] at hends
    cases hends
  · intro hnetwork hnone t ht hname
    obtain ⟨category, hc⟩ := Option.isSome_iff_exists.mp (hparsed t ht)
    rw [nameOf_of_category ht hc, nameOf_eq_some hnetwork, Option.some.injEq] at hname
    have hends := (endsWithNetwork_vlanGroupName
      (groupRacks mapping switches VlanGroup.network) VlanGroup.network).mpr (Or.inl rfl)
    rw [← hname, endsWithNetwork_vlanGroupName, hcategory hc] at hends
    rcases hends with rfl | hfalse
    · exact hnone t (Finset.mem_filter.mpr ⟨ht, hc⟩)
    · cases hfalse

/-! The ports after an inspection. -/

/-- What holds of the ports when the hook has run, and of runs on the same data in other
orders. -/
structure FollowsLldp (env : Env) (mapping : Mapping) (data : PluginData)
    (inspected : List InspectedPort) (node out : Node) : Prop where
  addresses : out.ports.map BaremetalPort.address = node.ports.map BaremetalPort.address
  pxe : ∃ first, IsFirstNetwork mapping (switchesOf inspected) first ∧ ∀ port ∈ out.ports,
    (port.pxeEnabled = true ↔
      ∃ p ∈ inspected, p.macAddress = port.address ∧ p.switchSystemName = first)
  physicalNetwork : ∀ port ∈ out.ports, port.pxeEnabled = true →
    ∃ group, group ≠ [] ∧ port.physicalNetwork = some group
  cleared : ∀ port ∈ out.ports, (∀ p ∈ inspected, p.macAddress ≠ port.address) →
    port = clearedPort port.address
  ordered : ∀ (data' : PluginData) (node' : Node), data'.allInterfaces = data.allInterfaces →
    data'.parsedLldp.Perm data.parsedLldp → node'.ports.Perm node.ports →
      ∃ out', inspectHook env mapping data' node' = .ok out' ∧ out'.ports.Perm out.ports
  comparable : ∀ s ∈ switchesOf inspected, ∀ t ∈ switchesOf inspected, ∃ key key' less,
    naturalSortKey s = .ok key ∧ naturalSortKey t = .ok key' ∧ keyLt key key' = .ok less
  again : ∃ out', inspectHook env mapping data out = .ok out' ∧ out'.ports = out.ports

/-- The entries of the address of a port give one link, to a regular switch. -/
def RegularPort (mapping : Mapping) (inspected : List InspectedPort) (port : BaremetalPort) :
    Prop :=
  ∀ p ∈ inspected, p.macAddress = port.address →
    (∀ q ∈ inspected, q.macAddress = port.address →
      localLinkConnection q = localLinkConnection p) ∧
    Regular mapping (switchesOf inspected) p.switchSystemName

theorem portAfter_congr {inspected' : List InspectedPort} {names' : List (Text × Text)}
    {pxe' : List Text} (hperm : inspected'.Perm inspected)
    (hlinks : ∀ p ∈ inspected, p.macAddress = port.address → ∀ q ∈ inspected,
      q.macAddress = port.address → localLinkConnection q = localLinkConnection p)
    (hnames : ∀ s, names'.lookup s = names.lookup s) (hpxe : ∀ s, s ∈ pxe' ↔ s ∈ pxe) :
    portAfter inspected' names' pxe' port = portAfter inspected names pxe port := by
  cases h : entryAt inspected port.address with
  | none =>
    have h' : entryAt inspected' port.address = none := by
      rw [entryAt_none] at h ⊢
      exact fun p hp => h p (hperm.mem_iff.mp hp)
    rw [portAfter_cleared h, portAfter_cleared h']
  | some p =>
    obtain ⟨hp, hmac⟩ := entryAt_some h
    cases h' : entryAt inspected' port.address with
    | none => exact (entryAt_none.mp h' p (hperm.mem_iff.mpr hp) hmac).elim
    | some q =>
      obtain ⟨hq, hmac'⟩ := entryAt_some h'
      have hlink := hlinks p hp hmac q (hperm.mem_iff.mp hq) hmac'
      rw [portAfter_connected h, portAfter_connected h', hlink, switchSystemName_eq hlink, hnames,
        decide_eq_decide.mpr (hpxe p.switchSystemName)]

theorem pxeEnabled_portAfter :
    (portAfter inspected names pxe port).pxeEnabled = true ↔
      ∃ p, entryAt inspected port.address = some p ∧ p.switchSystemName ∈ pxe := by
  cases h : entryAt inspected port.address with
  | none => simp [portAfter_cleared h, clearedPort]
  | some p => simp [portAfter_connected h, connectedPort]

/-- With one link for the address, PXE is right when the switch is the first of its VLAN group
exactly when it is the first network switch. -/
theorem pxeEnabled_iff_connected {first : Text}
    (hlinks : ∀ p ∈ inspected, p.macAddress = port.address → ∀ q ∈ inspected,
      q.macAddress = port.address → localLinkConnection q = localLinkConnection p) :
    ((portAfter inspected names pxe port).pxeEnabled = true ↔
      ∃ p ∈ inspected, p.macAddress = port.address ∧ p.switchSystemName = first) ↔
    ∀ p ∈ inspected, p.macAddress = port.address →
      (p.switchSystemName ∈ pxe ↔ p.switchSystemName = first) := by
  rw [pxeEnabled_portAfter]
  have hsame {p q : InspectedPort} (hp : p ∈ inspected) (hpmac : p.macAddress = port.address)
      (hq : q ∈ inspected) (hqmac : q.macAddress = port.address) :
      q.switchSystemName = p.switchSystemName :=
    switchSystemName_eq (hlinks p hp hpmac q hq hqmac)
  cases h : entryAt inspected port.address with
  | none =>
    have hnone := entryAt_none.mp h
    constructor
    · exact fun _ p hp hmac => (hnone p hp hmac).elim
    · refine fun _ => ⟨fun hex => ?_, fun ⟨p, hp, hmac, _⟩ => (hnone p hp hmac).elim⟩
      obtain ⟨p, hp, -⟩ := hex
      cases hp
  | some p =>
    obtain ⟨hp, hmac⟩ := entryAt_some h
    have hleft : (∃ p', some p = some p' ∧ p'.switchSystemName ∈ pxe) ↔
        p.switchSystemName ∈ pxe := by simp
    have hright : (∃ q ∈ inspected, q.macAddress = port.address ∧ q.switchSystemName = first) ↔
        p.switchSystemName = first := by
      constructor
      · rintro ⟨q, hq, hqmac, rfl⟩
        exact hsame hq hqmac hp hmac
      · exact fun heq => ⟨p, hp, hmac, heq⟩
    rw [hleft, hright]
    constructor
    · intro hiff q hq hqmac
      rw [hsame hp hmac hq hqmac]
      exact hiff
    · exact fun hall => hall p hp hmac

theorem physicalNetwork_portAfter (hnames : vlanGroupNames inspected mapping = .ok names)
    (hpxe : ∀ s ∈ pxe, IsFirst mapping (switchesOf inspected) s)
    (h : (portAfter inspected names pxe port).pxeEnabled = true) :
    ∃ group, group ≠ [] ∧
      (portAfter inspected names pxe port).physicalNetwork = some group := by
  obtain ⟨p, hp, hmem⟩ := pxeEnabled_portAfter.mp h
  obtain ⟨group, hname, hends, -⟩ := hpxe _ hmem
  refine ⟨group, ?_, ?_⟩
  · rintro rfl
    exact absurd hends (by decide)
  · rw [portAfter_connected hp, lookup_eq_nameOf hnames, hname]
    simp [connectedPort, hends]

/-- An entry that comes last is the one that counts. -/
theorem entryAt_last {lower : Text → Text} {entry : Text × List (Text × Text)}
    {entries : List (Text × List (Text × Text))} {mac : List (Text × Text)} {p : InspectedPort}
    (hp : parseEntry lower mac entry = .ok p)
    (h : (entries ++ [entry]).mapM (parseEntry lower mac) = .ok inspected) :
    entryAt inspected p.macAddress = some p := by
  rw [mapM_eq_ok_iff, List.map_append, List.map_singleton, hp] at h
  have hlast : (inspected.reverse.map .ok : List (Except HookError InspectedPort)) =
      .ok p :: (entries.map (parseEntry lower mac)).reverse := by
    rw [List.map_reverse, ← h, List.reverse_append]
    rfl
  unfold entryAt
  cases hreverse : inspected.reverse with
  | nil =>
    rw [hreverse] at hlast
    cases hlast
  | cons q rest =>
    rw [hreverse] at hlast
    cases (List.cons.inj hlast).1
    exact List.find?_cons_of_pos (decide_eq_true rfl)

variable {node out : Node}

/-- When the order of the entries does not matter, each entry of the address of a port has
given it its link. -/
theorem exists_link (hsave : ∀ port, env.save port = true)
    (hparse : parsePluginData env.lower data = .ok inspected)
    (hnames : vlanGroupNames inspected mapping = .ok names) (hascii : AsciiNames inspected)
    (hdistinct : DistinctNames inspected) (h : FollowsLldp env mapping data inspected node out)
    (hport : port ∈ node.ports) {p : InspectedPort} (hp : p ∈ inspected)
    (hmac : p.macAddress = port.address) :
    ∃ port' ∈ out.ports, port'.address = port.address ∧ ∃ link,
      port'.localLinkConnection = some link ∧ sameItems link (localLinkConnection p) = true := by
  obtain ⟨entry, hentry, hparsed⟩ := mem_of_mapM_ok hparse hp
  have hlldp : (data.parsedLldp.erase entry ++ [entry]).Perm data.parsedLldp :=
    (List.perm_append_singleton entry _).trans (List.perm_cons_erase hentry).symm
  obtain ⟨inspected', names', pxe', hplan, -⟩ := @exists_plan_perm mapping inspected names env data
    hparse hnames hascii hdistinct
    ⟨data.allInterfaces, data.parsedLldp.erase entry ++ [entry]⟩ rfl hlldp
  obtain ⟨out', hout', hperm⟩ := h.ordered
    ⟨data.allInterfaces, data.parsedLldp.erase entry ++ [entry]⟩ node rfl hlldp (List.Perm.refl _)
  rw [hplan.inspectHook hsave] at hout'
  cases hout'
  have hlast : entryAt inspected' port.address = some p :=
    hmac ▸ entryAt_last hparsed hplan.parsed
  refine ⟨_, hperm.mem_iff.mp (List.mem_map_of_mem hport), address_portAfter port, ?_⟩
  rw [portAfter_connected hlast]
  exact linkAfter_spec port.localLinkConnection p

theorem links_agree (hsave : ∀ port, env.save port = true)
    (hparse : parsePluginData env.lower data = .ok inspected)
    (hnames : vlanGroupNames inspected mapping = .ok names) (hascii : AsciiNames inspected)
    (hdistinct : DistinctNames inspected)
    (hports : (node.ports.map BaremetalPort.address).Nodup)
    (h : FollowsLldp env mapping data inspected node out) (hport : port ∈ node.ports) :
    ∀ p ∈ inspected, p.macAddress = port.address → ∀ q ∈ inspected,
      q.macAddress = port.address → localLinkConnection q = localLinkConnection p := by
  intro p hp hpmac q hq hqmac
  obtain ⟨port₁, hport₁, haddress₁, link₁, hlink₁, hsame₁⟩ :=
    exists_link hsave hparse hnames hascii hdistinct h hport hp hpmac
  obtain ⟨port₂, hport₂, haddress₂, link₂, hlink₂, hsame₂⟩ :=
    exists_link hsave hparse hnames hascii hdistinct h hport hq hqmac
  have heq : port₁ = port₂ := List.inj_on_of_nodup_map (h.addresses.symm ▸ hports) hport₁ hport₂
    (haddress₁.trans haddress₂.symm)
  rw [heq, hlink₂] at hlink₁
  cases hlink₁
  exact localLinkConnection_eq hsame₁ hsame₂

/-- After an inspection whose switch names can be told apart the ports follow the LLDP data, in
whatever order it comes, exactly when the entries of the address of each port agree on its link
and, of the switches whose VLAN group ends like those of the network, a port is connected to the
first of its group only where that is the first network switch. -/
theorem ports_follow_lldp_iff (hsave : ∀ port, env.save port = true)
    (hparse : parsePluginData env.lower data = .ok inspected)
    (hnames : vlanGroupNames inspected mapping = .ok names) (hascii : AsciiNames inspected)
    (hdistinct : DistinctNames inspected)
    (hports : (node.ports.map BaremetalPort.address).Nodup) :
    (∃ out, inspectHook env mapping data node = .ok out ∧
      FollowsLldp env mapping data inspected node out) ↔
      ∀ port ∈ node.ports, RegularPort mapping inspected port := by
  have hinj := hdistinct.injOn hascii
  have htopology := topology_of_vlanGroupNames hnames
  obtain ⟨pxe, hplan, hpxe⟩ := exists_plan hparse hnames hascii hdistinct
  obtain ⟨first, hfirst⟩ := exists_isFirstNetwork hascii.switches hinj htopology.networkPair
  have hregular {p : InspectedPort} (hp : p ∈ inspected) :
      Regular mapping (switchesOf inspected) p.switchSystemName ↔
        (p.switchSystemName ∈ pxe ↔ p.switchSystemName = first) := by
    have hs := mem_switchesOf.mpr ⟨p, hp, rfl⟩
    rw [hpxe]
    exact regular_iff hascii.switches hs (htopology.suffixes _ hs) hfirst
  have hout := hplan.inspectHook hsave node
  constructor
  · rintro ⟨out, hrun, h⟩ port hport p hp hmac
    have hlinks := links_agree hsave hparse hnames hascii hdistinct hports h hport
    refine ⟨hlinks p hp hmac, (hregular hp).mpr ?_⟩
    obtain ⟨first', hfirst', hconnected⟩ := h.pxe
    have heq : first' = first := by
      by_contra hne
      have hlt := (precedes_iff (hascii.switches _ (Finset.mem_filter.mp hfirst.1).1)
        (hascii.switches _ (Finset.mem_filter.mp hfirst'.1).1)).mp (hfirst.2 _ hfirst'.1 hne)
      have hlt' := (precedes_iff (hascii.switches _ (Finset.mem_filter.mp hfirst'.1).1)
        (hascii.switches _ (Finset.mem_filter.mp hfirst.1).1)).mp
          (hfirst'.2 _ hfirst.1 (Ne.symm hne))
      exact hlt.asymm hlt'
    subst heq
    cases hout.symm.trans hrun
    have hiff := hconnected _ (List.mem_map_of_mem hport)
    rw [address_portAfter] at hiff
    exact (pxeEnabled_iff_connected hlinks).mp hiff p hp hmac
  · intro h
    refine ⟨_, hout, ?_⟩
    constructor
    · simp only [List.map_map, Function.comp_def, address_portAfter]
    · refine ⟨first, hfirst, List.forall_mem_map.mpr fun port hport => ?_⟩
      rw [address_portAfter]
      exact (pxeEnabled_iff_connected fun p hp hmac => (h port hport p hp hmac).1).mpr
        fun p hp hmac => (hregular hp).mp (h port hport p hp hmac).2
    · exact List.forall_mem_map.mpr fun port _ =>
        physicalNetwork_portAfter hnames fun s => (hpxe s).mp
    · refine List.forall_mem_map.mpr fun port _ hnone => ?_
      rw [address_portAfter] at hnone ⊢
      exact portAfter_cleared (entryAt_none.mpr hnone)
    · intro data' node' hinterfaces hlldp hperm
      obtain ⟨inspected', names', pxe', hplan', hinspected, hlookup, hpxe'⟩ :=
        exists_plan_perm hparse hnames hascii hdistinct hinterfaces hlldp
      refine ⟨_, hplan'.inspectHook hsave node', ?_⟩
      have hsame : node'.ports.map (portAfter inspected' names' pxe') =
          node'.ports.map (portAfter inspected names pxe) := by
        apply List.map_congr_left
        intro port hport
        exact portAfter_congr hinspected
          (fun p hp hmac => (h port (hperm.mem_iff.mp hport) p hp hmac).1) hlookup
          fun s => (hpxe' s).trans (hpxe s).symm
      dsimp only
      rw [hsame]
      exact hperm.map _
    · intro s hs t ht
      exact ⟨_, _, _, naturalSortKey_ascii (hascii.switches s hs),
        naturalSortKey_ascii (hascii.switches t ht), keyLt_keyOf s t⟩
    · refine ⟨_, hplan.inspectHook hsave _, ?_⟩
      simp only [List.map_map, Function.comp_def, portAfter_again]

/-! A category that ends like the network one. -/

def sampleEnv : Env where
  lower := id
  upper := fun c => [c.toUpper]
  save := fun _ => true

def lldpOf (switchSystemName : String) : List (Text × Text) :=
  [("switch_chassis_id".toList, "c1".toList),
    ("switch_port_id".toList, "e1".toList),
    ("switch_system_name".toList, switchSystemName.toList)]

def sampleData (third : String) : PluginData where
  allInterfaces := [⟨"ex1".toList, "m1".toList⟩, ⟨"ex2".toList, "m2".toList⟩,
    ⟨"ex3".toList, "m3".toList⟩]
  parsedLldp := [("ex1".toList, lldpOf "a-1.b"), ("ex2".toList, lldpOf "a-2.b"),
    ("ex3".toList, lldpOf third)]

def plainMapping : Mapping :=
  [("1".toList, network), ("2".toList, network), ("1f".toList, "storage".toList)]

def sampleMapping : Mapping :=
  ("1s".toList, "storage-network".toList) :: plainMapping

def freshPort (address : String) : BaremetalPort where
  address := address.toList
  localLinkConnection := some []
  physicalNetwork := none
  category := none
  pxeEnabled := false

def sampleNode : Node where
  ports := [freshPort "m1", freshPort "m2", freshPort "m3", freshPort "m4"]
  traits := ∅

def inspectedOf (name mac switchSystemName : String) : InspectedPort where
  macAddress := mac.toList
  name := name.toList
  switchSystemName := (switchSystemName ++ ".rackspace.net").toList
  switchPortId := "e1".toList
  switchChassisId := "c1".toList

def sampleInspected (third : String) : List InspectedPort :=
  [inspectedOf "ex1" "m1" "a-1.b", inspectedOf "ex2" "m2" "a-2.b",
    inspectedOf "ex3" "m3" third]

def sampleNames (third group : String) : List (Text × Text) :=
  [("a-1.b.rackspace.net".toList, "a-network".toList),
    ("a-2.b.rackspace.net".toList, "a-network".toList),
    ((third ++ ".rackspace.net").toList, group.toList)]

theorem ports_follow_lldp_sample :
    ∃ out, inspectHook sampleEnv plainMapping (sampleData "a-1f.b") sampleNode = .ok out ∧
      FollowsLldp sampleEnv plainMapping (sampleData "a-1f.b")
        (sampleInspected "a-1f.b") sampleNode out := by
  have hnames : vlanGroupNames (sampleInspected "a-1f.b") plainMapping =
      .ok (sampleNames "a-1f.b" "a-storage") := by decide +kernel
  refine (ports_follow_lldp_iff (fun _ => rfl) (by decide +kernel) hnames
    (show AsciiNames (sampleInspected "a-1f.b") by unfold AsciiNames; decide +kernel)
    (show DistinctNames (sampleInspected "a-1f.b") by unfold DistinctNames; decide +kernel)
    (by decide +kernel)).mpr fun port hport p hp hmac => ⟨?_, ?_⟩
  · have hmacs : ((sampleInspected "a-1f.b").map InspectedPort.macAddress).Nodup := by
      decide +kernel
    intro q hq hqmac
    rw [List.inj_on_of_nodup_map hmacs hq hp (hqmac.trans hmac.symm)]
  · exact regular_of_categories (topology_of_vlanGroupNames hnames).suffixes (by decide +kernel)

/-- The first switch of the `storage-network` category gets PXE too. -/
theorem pxe_on_second_switch :
    parsePluginData sampleEnv.lower (sampleData "a-1s.b") =
        .ok (sampleInspected "a-1s.b") ∧
      vlanGroupNames (sampleInspected "a-1s.b") sampleMapping =
        .ok (sampleNames "a-1s.b" "a-storage-network") ∧
      AsciiNames (sampleInspected "a-1s.b") ∧
      DistinctNames (sampleInspected "a-1s.b") ∧
      (sampleNode.ports.map BaremetalPort.address).Nodup ∧
      ¬∃ out, inspectHook sampleEnv sampleMapping (sampleData "a-1s.b") sampleNode =
          .ok out ∧
        FollowsLldp sampleEnv sampleMapping (sampleData "a-1s.b")
          (sampleInspected "a-1s.b") sampleNode out := by
  refine ⟨by decide +kernel, by decide +kernel, by unfold AsciiNames; decide +kernel,
    by unfold DistinctNames; decide +kernel, by decide +kernel, ?_⟩
  rintro ⟨out, hrun, h⟩
  have hports : (inspectHook sampleEnv sampleMapping (sampleData "a-1s.b")
      sampleNode).map (fun out => (out.ports.filter BaremetalPort.pxeEnabled).map
        BaremetalPort.address) = .ok ["m1".toList, "m3".toList] := by decide +kernel
  rw [hrun] at hports
  have hpxe := Except.ok.inj hports
  obtain ⟨first, -, hconnected⟩ := h.pxe
  have hswitch {address : Text} (haddress : address ∈ ["m1".toList, "m3".toList]) :
      ∃ p ∈ sampleInspected "a-1s.b", p.macAddress = address ∧
        p.switchSystemName = first := by
    rw [← hpxe] at haddress
    obtain ⟨port, hport, rfl⟩ := List.mem_map.mp haddress
    obtain ⟨hmem, hpxe⟩ := List.mem_filter.mp hport
    exact (hconnected port hmem).mp hpxe
  obtain ⟨p, hp, hmac, hname⟩ := hswitch (List.mem_cons_self)
  obtain ⟨q, hq, hmac', hname'⟩ := hswitch (List.mem_cons_of_mem _ List.mem_cons_self)
  have hdifferent : ∀ p ∈ sampleInspected "a-1s.b", p.macAddress = "m1".toList →
      ∀ q ∈ sampleInspected "a-1s.b", q.macAddress = "m3".toList →
        p.switchSystemName ≠ q.switchSystemName := by decide +kernel
  exact hdifferent p hp hmac q hq hmac' (hname.trans hname'.symm)

end Understack.Ironic.BaremetalPorts
