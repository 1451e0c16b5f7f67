import Understack.Ironic.PxePorts

/-! What the inspection hook recovers from VLAN group names: the categories of the ports and the
switch traits of the node, over runs of inspections. -/
namespace Understack.Ironic.BaremetalPorts
open PyText PySets VlanGroup Runs

variable {env : Env} {mapping : Mapping} {inspected : List InspectedPort}
  {names : List (Text × Text)} {data : PluginData} {node out : Node}

/-! The last part of a name. -/

theorem lastPart_append (s category : Text) : lastPart (s ++ '-' :: category) = lastPart category := by
  rw [lastPart, lastPart, split, List.splitOn_append_cons_self, List.getLastD_eq_getLast?,
    List.getLastD_eq_getLast?, List.getLast?_append_of_ne_nil _ (List.splitOn_ne_nil '-' category)]
  rfl

theorem lastPart_vlanGroupName (rackNames : List Text) (category : Text) :
    lastPart (vlanGroupName rackNames category) = lastPart category := by
  have hname : vlanGroupName rackNames category = join '/' rackNames ++ '-' :: category := by
    simp [vlanGroupName]
  rw [hname, lastPart_append]

theorem lastPart_eq_self {category : Text} : lastPart category = category ↔ '-' ∉ category := by
  constructor
  · intro h
    have hlast : lastPart category ∈ category.splitOn '-' := by
      rw [lastPart, split, List.getLastD_eq_getLast?,
        List.getLast?_eq_some_getLast (List.splitOn_ne_nil '-' category)]
      exact List.getLast_mem _
    rw [h] at hlast
    exact notMem_of_mem_split hlast
  · intro h
    rw [lastPart, split, List.splitOn_eq_singleton h]
    rfl

/-- The part of the trait of a category between its two ends. -/
def traitPart (upper : Char → Text) (category : Text) : Text :=
  lastPart (category.flatMap upper)

theorem traitName_eq (upper : Char → Text) (category : Text) : traitName upper category =
    "CUSTOM_".toList ++ traitPart upper category ++ "_SWITCH".toList := rfl

theorem traitName_inj {upper : Char → Text} {category category' : Text} :
    traitName upper category = traitName upper category' ↔
      traitPart upper category = traitPart upper category' := by
  rw [traitName_eq, traitName_eq, List.append_left_inj, List.append_right_inj]

/-- The racks do not matter. -/
theorem traitName_vlanGroupName {upper : Char → Text} (hupper : upper '-' = ['-'])
    (rackNames : List Text) (category : Text) :
    traitName upper (vlanGroupName rackNames category) = traitName upper category := by
  have hname : (vlanGroupName rackNames category).flatMap upper =
      (join '/' rackNames).flatMap upper ++ '-' :: category.flatMap upper := by
    simp [vlanGroupName, hupper]
  rw [traitName_inj, traitPart, hname, lastPart_append, traitPart]

/-- `[A-Z0-9]+` -/
def IsPlain (s : Text) : Prop := s ≠ [] ∧ ∀ c ∈ s, isUpperOrDigit c = true

theorem isOurTrait_traitName {upper : Char → Text} {category : Text} :
    isOurTrait (traitName upper category) = true ↔ IsPlain (traitPart upper category) := by
  have hlast : (traitName upper category).getLast? = some 'H' := by
    rw [traitName_eq, List.getLast?_append_of_ne_nil _ (by decide)]
    rfl
  have hdrop : (traitName upper category).drop 7 = traitPart upper category ++ "_SWITCH".toList := by
    rw [traitName_eq, List.append_assoc]
    exact List.drop_left' rfl
  have hlength : (traitName upper category).length - 14 = (traitPart upper category).length := by
    rw [traitName_eq, List.length_append, List.length_append,
      show "CUSTOM_".toList.length = 7 from rfl, show "_SWITCH".toList.length = 7 from rfl]
    omega
  have hbody : traitBody? (traitName upper category) = some (traitPart upper category) := by
    rw [traitBody?, if_pos, hdrop, hlength, List.take_left]
    rw [Bool.and_eq_true, List.isPrefixOf_iff_prefix, List.isSuffixOf_iff_suffix, hdrop]
    exact ⟨⟨_, (List.append_assoc _ _ _).symm⟩, List.suffix_append _ _⟩
  rw [isOurTrait, hlast, if_neg (by decide), hbody]
  simp [IsPlain]

/-! One inspection. -/

def Accepts (env : Env) (mapping : Mapping) (data : PluginData) : Prop :=
  ∃ inspected names, parsePluginData env.lower data = .ok inspected ∧
    vlanGroupNames inspected mapping = .ok names

/-- The data connects the node to a switch of the category. -/
def Connected (env : Env) (mapping : Mapping) (data : PluginData) (category : Text) : Prop :=
  ∃ inspected, parsePluginData env.lower data = .ok inspected ∧
    ∃ p ∈ inspected, categoryOf mapping p.switchSystemName = some category

/-- The names that the hook sorts have keys. -/
def HasKeys (env : Env) (mapping : Mapping) (data : PluginData) : Prop :=
  ∃ inspected, parsePluginData env.lower data = .ok inspected ∧ ∀ p ∈ inspected, ∀ group,
    nameOf mapping (switchesOf inspected) p.switchSystemName = some group →
      endsWithNetwork group = true → ∃ key, naturalSortKey p.switchSystemName = .ok key

/-- The traits that the hook makes of the categories of the mapping. -/
def Produced (env : Env) (mapping : Mapping) (name : Text) : Prop :=
  ∃ suffix category rackNames, mapping.lookup suffix = some category ∧
    name = traitName env.upper (vlanGroupName rackNames category)

theorem produced_iff (hupper : env.upper '-' = ['-']) {name : Text} :
    Produced env mapping name ↔
      ∃ suffix category, mapping.lookup suffix = some category ∧
        name = traitName env.upper category := by
  unfold Produced
  simp only [traitName_vlanGroupName hupper]
  constructor
  · rintro ⟨suffix, category, -, h⟩
    exact ⟨suffix, category, h⟩
  · rintro ⟨suffix, category, h⟩
    exact ⟨suffix, category, [], h⟩

theorem Connected.produced (hupper : env.upper '-' = ['-']) {category : Text}
    (h : Connected env mapping data category) :
    Produced env mapping (traitName env.upper category) := by
  obtain ⟨inspected, -, p, -, hcategory⟩ := h
  obtain ⟨parsed, -, hlookup⟩ := Option.bind_eq_some_iff.mp hcategory
  exact (produced_iff hupper).mpr ⟨parsed.switchSuffix, category, hlookup, rfl⟩

theorem pxeSwitchNames_returns_iff (h : vlanGroupNames inspected mapping = .ok names) :
    (∃ pxe, pxeSwitchNames names = .ok pxe) ↔ ∀ p ∈ inspected, ∀ group,
      nameOf mapping (switchesOf inspected) p.switchSystemName = some group →
        endsWithNetwork group = true → ∃ key, naturalSortKey p.switchSystemName = .ok key := by
  have hall : ((networkGroups names).filter fun group => group.2 ≠ []) = networkGroups names :=
    List.filter_eq_self.mpr fun group hgroup => decide_eq_true (mem_networkGroups hgroup).2.1
  rw [pxeSwitchNames, hall]
  constructor
  · rintro ⟨pxe, hpxe⟩ p hp group hname hends
    have he := (mem_names_iff h).mpr hname
    obtain ⟨g, hg, rfl⟩ := exists_networkGroup he hends
    obtain ⟨-, -, hmem⟩ := mem_networkGroups hg
    obtain ⟨first, hfirst⟩ := collect_isOk hpxe g hg
    obtain ⟨sorted, hsorted, -⟩ := bind_eq_ok hfirst
    obtain ⟨entries, hentries, -⟩ := bind_eq_ok hsorted
    obtain ⟨entry, hentry⟩ :=
      mapM_isOk hentries p.switchSystemName (List.mem_map.mpr ⟨_, (hmem _).mpr ⟨he, rfl⟩, rfl⟩)
    obtain ⟨key, hkey, -⟩ := bind_eq_ok hentry
    exact ⟨key, hkey⟩
  · intro hkeys
    apply collect_returns
    intro group hgroup
    obtain ⟨hends, hne, hmem⟩ := mem_networkGroups hgroup
    refine (firstSwitchName_spec (fun e he => ?_) hne).imp fun _ hs => hs.1
    obtain ⟨hname, heq⟩ := (hmem e).mp he
    have hnameOf := (mem_names_iff h).mp hname
    obtain ⟨p, hp, hswitch⟩ := mem_switchesOf.mp (switch_of_name hnameOf)
    rw [← hswitch] at hnameOf ⊢
    exact hkeys p hp e.2 hnameOf (heq ▸ hends)

theorem inspectHook_returns_iff (hsave : ∀ port, env.save port = true)
    (h : Accepts env mapping data) (node : Node) :
    (∃ out, inspectHook env mapping data node = .ok out) ↔ HasKeys env mapping data := by
  obtain ⟨inspected, names, hparse, hnames⟩ := h
  have hkeys : HasKeys env mapping data ↔ ∃ pxe, pxeSwitchNames names = .ok pxe := by
    rw [pxeSwitchNames_returns_iff hnames]
    constructor
    · rintro ⟨inspected', hparse', h⟩
      cases hparse.symm.trans hparse'
      exact h
    · exact fun h => ⟨inspected, hparse, h⟩
  rw [hkeys]
  constructor
  · rintro ⟨out, hout⟩
    cases hpxe : pxeSwitchNames names with
    | ok pxe => exact ⟨pxe, rfl⟩
    | error e =>
      simp [inspectHook, hparse, hnames, hpxe, bind, Except.bind, Except.mapError,
        ne_nil_of_named hnames] at hout
  · rintro ⟨pxe, hpxe⟩
    exact ⟨_, Plan.inspectHook ⟨hparse, hnames, hpxe⟩ hsave node⟩

theorem exists_plan_of_returns (hsave : ∀ port, env.save port = true)
    (hparse : parsePluginData env.lower data = .ok inspected)
    (hnames : vlanGroupNames inspected mapping = .ok names)
    (h : inspectHook env mapping data node = .ok out) :
    ∃ pxe, out.ports = node.ports.map (portAfter inspected names pxe) ∧
      out.traits = setNodeTraits env.upper node.traits
        ((names.map Prod.snd).filter (· ≠ [])).toFinset := by
  obtain ⟨inspected', hparse', hkeys⟩ :=
    (inspectHook_returns_iff hsave ⟨_, _, hparse, hnames⟩ node).mp ⟨out, h⟩
  cases hparse.symm.trans hparse'
  obtain ⟨pxe, hpxe⟩ := (pxeSwitchNames_returns_iff hnames).mpr hkeys
  rw [Plan.inspectHook ⟨hparse, hnames, hpxe⟩ hsave node] at h
  cases h
  exact ⟨pxe, rfl, rfl⟩

theorem mem_setNodeTraits {upper : Char → Text} {existing groups : Finset Text} {name : Text} :
    name ∈ setNodeTraits upper existing groups ↔
      (name ∈ existing ∧ isOurTrait name = false) ∨
        ∃ group ∈ groups, group ≠ [] ∧ name = traitName upper group := by
  have hrequired : setNodeTraits upper existing groups =
      existing.filter (fun name => !isOurTrait name) ∪
        (groups.filter (· ≠ [])).image (traitName upper) := by
    unfold setNodeTraits
    dsimp only
    split_ifs with heq
    · exact heq
    · rfl
  rw [hrequired, Finset.mem_union, Finset.mem_filter, Finset.mem_image]
  simp only [Finset.mem_filter, Bool.not_eq_true', and_assoc, @eq_comm _ name]

/-- A switch that is named, by its category. -/
theorem name_of_inspected (hnames : vlanGroupNames inspected mapping = .ok names)
    {p : InspectedPort} (hp : p ∈ inspected) :
    ∃ category, categoryOf mapping p.switchSystemName = some category ∧
      names.lookup p.switchSystemName =
        some (vlanGroupName (groupRacks mapping (switchesOf inspected) category) category) := by
  have hs := mem_switchesOf.mpr ⟨p, hp, rfl⟩
  obtain ⟨category, hcategory⟩ := Option.isSome_iff_exists.mp
    ((topology_of_vlanGroupNames hnames).suffixes _ hs)
  exact ⟨category, hcategory, (lookup_eq_nameOf hnames _).trans (nameOf_of_category hs hcategory)⟩

theorem vlanGroupName_ne_nil (rackNames : List Text) (category : Text) :
    vlanGroupName rackNames category ≠ [] := by
  simp [vlanGroupName]

/-- The traits after an inspection. -/
theorem mem_traits_iff (hsave : ∀ port, env.save port = true) (hupper : env.upper '-' = ['-'])
    (haccepts : Accepts env mapping data) (h : inspectHook env mapping data node = .ok out)
    {name : Text} :
    name ∈ out.traits ↔ (name ∈ node.traits ∧ isOurTrait name = false) ∨
      ∃ category, Connected env mapping data category ∧ name = traitName env.upper category := by
  obtain ⟨inspected, names, hparse, hnames⟩ := haccepts
  obtain ⟨pxe, -, htraits⟩ := exists_plan_of_returns hsave hparse hnames h
  rw [htraits, mem_setNodeTraits]
  refine or_congr_right ⟨?_, ?_⟩
  · rintro ⟨group, hgroup, -, rfl⟩
    obtain ⟨e, he, rfl⟩ := List.mem_map.mp
      (List.mem_filter.mp (List.mem_toFinset.mp hgroup)).1
    have hname := (mem_names_iff hnames).mp he
    obtain ⟨p, hp, hswitch⟩ := mem_switchesOf.mp (switch_of_name hname)
    obtain ⟨category, hcategory, hlookup⟩ := name_of_inspected hnames hp
    rw [hswitch, lookup_eq_nameOf hnames, hname] at hlookup
    refine ⟨category, ⟨inspected, hparse, p, hp, hcategory⟩, ?_⟩
    rw [Option.some.inj hlookup, traitName_vlanGroupName hupper]
  · rintro ⟨category, ⟨inspected', hparse', p, hp, hcategory⟩, rfl⟩
    cases hparse.symm.trans hparse'
    obtain ⟨category', hcategory', hlookup⟩ := name_of_inspected hnames hp
    cases hcategory.symm.trans hcategory'
    refine ⟨_, List.mem_toFinset.mpr (List.mem_filter.mpr
      ⟨List.mem_map_of_mem (PyDict.mem_of_lookup hlookup), ?_⟩), vlanGroupName_ne_nil _ _,
        (traitName_vlanGroupName hupper _ _).symm⟩
    exact decide_eq_true (vlanGroupName_ne_nil _ _)

/-! Runs. -/

/-- The inspections of a node one after the other. -/
def inspections (env : Env) (mapping : Mapping) (runs : List PluginData) (node : Node) :
    Except HookError Node :=
  runs.foldlM (fun node data => inspectHook env mapping data node) node

theorem inspections_cons {runs : List PluginData}
    (h : inspections env mapping (data :: runs) node = .ok out) :
    ∃ mid, inspectHook env mapping data node = .ok mid ∧
      inspections env mapping runs mid = .ok out := by
  rw [inspections, List.foldlM_cons] at h
  exact bind_eq_ok h

theorem inspections_concat_iff {runs : List PluginData} :
    inspections env mapping (runs ++ [data]) node = .ok out ↔
      ∃ mid, inspections env mapping runs node = .ok mid ∧
        inspectHook env mapping data mid = .ok out := by
  rw [inspections, List.foldlM_append]
  constructor
  · intro h
    obtain ⟨mid, hmid, h⟩ := bind_eq_ok h
    rw [List.foldlM_cons] at h
    obtain ⟨last, hlast, h⟩ := bind_eq_ok h
    cases h
    exact ⟨mid, hmid, hlast⟩
  · rintro ⟨mid, hmid, hlast⟩
    rw [show List.foldlM (fun node data => inspectHook env mapping data node) node runs = .ok mid
      from hmid]
    simp only [bind, Except.bind, List.foldlM_cons, hlast, List.foldlM_nil]
    rfl

theorem inspections_returns_iff (hsave : ∀ port, env.save port = true) {runs : List PluginData}
    (haccepts : ∀ data ∈ runs, Accepts env mapping data) (node : Node) :
    (∃ out, inspections env mapping runs node = .ok out) ↔
      ∀ data ∈ runs, HasKeys env mapping data := by
  induction runs generalizing node with
  | nil => exact ⟨fun _ => List.forall_mem_nil _, fun _ => ⟨node, rfl⟩⟩
  | cons data runs ih =>
    obtain ⟨hdata, hruns⟩ := List.forall_mem_cons.mp haccepts
    rw [List.forall_mem_cons, ← inspectHook_returns_iff hsave hdata node]
    constructor
    · rintro ⟨out, h⟩
      obtain ⟨mid, hmid, h⟩ := inspections_cons h
      exact ⟨⟨mid, hmid⟩, (ih hruns mid).mp ⟨out, h⟩⟩
    · rintro ⟨⟨mid, hmid⟩, hkeys⟩
      obtain ⟨out, h⟩ := (ih hruns mid).mpr hkeys
      use out
      rw [inspections, List.foldlM_cons, hmid]
      exact h

/-- What inspections leave of the traits that the hook does not recognise. -/
theorem mem_traits_inspections (hsave : ∀ port, env.save port = true)
    (hupper : env.upper '-' = ['-']) {runs : List PluginData}
    (haccepts : ∀ data ∈ runs, Accepts env mapping data)
    (h : inspections env mapping runs node = .ok out) {name : Text}
    (hname : isOurTrait name = false) :
    name ∈ out.traits ↔ name ∈ node.traits ∨ ∃ data ∈ runs, ∃ category,
      Connected env mapping data category ∧ name = traitName env.upper category := by
  induction runs generalizing node with
  | nil =>
    cases h
    simp
  | cons data runs ih =>
    obtain ⟨hdata, hruns⟩ := List.forall_mem_cons.mp haccepts
    obtain ⟨mid, hmid, h⟩ := inspections_cons h
    rw [ih hruns h, mem_traits_iff hsave hupper hdata hmid, and_iff_left hname, or_assoc]
    simp only [List.exists_mem_cons_iff]

theorem addresses_inspections (hsave : ∀ port, env.save port = true) {runs : List PluginData}
    (haccepts : ∀ data ∈ runs, Accepts env mapping data)
    (h : inspections env mapping runs node = .ok out) :
    out.ports.map BaremetalPort.address = node.ports.map BaremetalPort.address := by
  induction runs generalizing node with
  | nil =>
    cases h
    rfl
  | cons data runs ih =>
    obtain ⟨⟨inspected, names, hparse, hnames⟩, hruns⟩ := List.forall_mem_cons.mp haccepts
    obtain ⟨mid, hmid, h⟩ := inspections_cons h
    obtain ⟨pxe, hports, -⟩ := exists_plan_of_returns hsave hparse hnames hmid
    rw [ih hruns h, hports]
    simp only [List.map_map, Function.comp_def, address_portAfter]

/-- What holds after the last inspection: the categories of the mapping on the connected ports,
and of all traits that the hook makes the ones of these categories on the node. -/
structure Survives (env : Env) (mapping : Mapping) (inspected : List InspectedPort)
    (names : List (Text × Text)) (node out : Node) : Prop where
  category : ∀ port ∈ out.ports, ∀ p ∈ inspected, p.macAddress = port.address →
    port.category = categoryOf mapping p.switchSystemName
  distinct : ∀ p ∈ inspected, ∀ q ∈ inspected, ∀ group group',
    names.lookup p.switchSystemName = some group → names.lookup q.switchSystemName = some group' →
      categoryOf mapping p.switchSystemName ≠ categoryOf mapping q.switchSystemName →
        traitName env.upper group ≠ traitName env.upper group'
  traits : ∀ name, Produced env mapping name → (name ∈ out.traits ↔
    ∃ p ∈ inspected, ∃ group, names.lookup p.switchSystemName = some group ∧
      name = traitName env.upper group)
  untouched : ∀ name, ¬Produced env mapping name → (name ∈ out.traits ↔ name ∈ node.traits)

/-- Categories without hyphens that differ in upper case, and a node whose traits, like those of
the earlier inspections, are recognised where the hook has made them. -/
structure Recoverable (env : Env) (mapping : Mapping) (before : List PluginData)
    (last : PluginData) (inspected : List InspectedPort) (node : Node) : Prop where
  keys : ∀ data ∈ before ++ [last], HasKeys env mapping data
  hyphens : ∀ port ∈ node.ports, ∀ p ∈ inspected, p.macAddress = port.address → ∀ category,
    categoryOf mapping p.switchSystemName = some category → '-' ∉ category ∧
      ∀ q ∈ inspected, q.macAddress = port.address →
        categoryOf mapping q.switchSystemName = some category
  distinct : ∀ category category', Connected env mapping last category →
    Connected env mapping last category' →
      traitPart env.upper category = traitPart env.upper category' → category = category'
  earlier : ∀ data ∈ before, ∀ category, Connected env mapping data category →
    IsPlain (traitPart env.upper category) ∨ ∃ category', Connected env mapping last category' ∧
      traitPart env.upper category = traitPart env.upper category'
  traits : ∀ name ∈ node.traits, (Produced env mapping name → isOurTrait name = false →
      ∃ category, Connected env mapping last category ∧ name = traitName env.upper category) ∧
    (¬Produced env mapping name → isOurTrait name = false)

theorem exists_lookup_iff (hupper : env.upper '-' = ['-'])
    (hparse : parsePluginData env.lower data = .ok inspected)
    (hnames : vlanGroupNames inspected mapping = .ok names) {name : Text} :
    (∃ p ∈ inspected, ∃ group, names.lookup p.switchSystemName = some group ∧
      name = traitName env.upper group) ↔
    ∃ category, Connected env mapping data category ∧ name = traitName env.upper category := by
  constructor
  · rintro ⟨p, hp, group, hgroup, rfl⟩
    obtain ⟨category, hcategory, hlookup⟩ := name_of_inspected hnames hp
    cases hgroup.symm.trans hlookup
    exact ⟨category, ⟨inspected, hparse, p, hp, hcategory⟩, traitName_vlanGroupName hupper _ _⟩
  · rintro ⟨category, ⟨inspected', hparse', p, hp, hcategory⟩, rfl⟩
    cases hparse.symm.trans hparse'
    obtain ⟨category', hcategory', hlookup⟩ := name_of_inspected hnames hp
    cases hcategory.symm.trans hcategory'
    exact ⟨p, hp, _, hlookup, (traitName_vlanGroupName hupper _ _).symm⟩

/-- A connected port is given the last part of the category of the entry that counts. -/
theorem category_portAfter (hnames : vlanGroupNames inspected mapping = .ok names)
    {pxe : List Text} {port : BaremetalPort} {p : InspectedPort} (hp : p ∈ inspected)
    (hmac : p.macAddress = port.address) :
    ∃ q ∈ inspected, q.macAddress = port.address ∧ ∃ category,
      categoryOf mapping q.switchSystemName = some category ∧
        (portAfter inspected names pxe port).category = some (lastPart category) := by
  cases h : entryAt inspected port.address with
  | none => exact (entryAt_none.mp h p hp hmac).elim
  | some q =>
    obtain ⟨hq, hqmac⟩ := entryAt_some h
    obtain ⟨category, hcategory, hlookup⟩ := name_of_inspected hnames hq
    refine ⟨q, hq, hqmac, category, hcategory, ?_⟩
    rw [portAfter_connected h, hlookup, connectedPort]
    simp [vlanGroupName_ne_nil, lastPart_vlanGroupName]

theorem categories_iff (hnames : vlanGroupNames inspected mapping = .ok names) (pxe : List Text)
    (port : BaremetalPort) :
    (∀ p ∈ inspected, p.macAddress = port.address →
      (portAfter inspected names pxe port).category = categoryOf mapping p.switchSystemName) ↔
    ∀ p ∈ inspected, p.macAddress = port.address → ∀ category,
      categoryOf mapping p.switchSystemName = some category → '-' ∉ category ∧
        ∀ q ∈ inspected, q.macAddress = port.address →
          categoryOf mapping q.switchSystemName = some category := by
  constructor
  · intro h p hp hmac category hcategory
    obtain ⟨q, hq, hqmac, category', hcategory', hafter⟩ :=
      @category_portAfter _ _ _ hnames pxe port p hp hmac
    have hlast : lastPart category' = category' := by
      have hself := h q hq hqmac
      rw [hafter, hcategory'] at hself
      exact Option.some.inj hself
    have hall : ∀ r ∈ inspected, r.macAddress = port.address →
        categoryOf mapping r.switchSystemName = some category' := by
      intro r hr hrmac
      rw [← h r hr hrmac, hafter, hlast]
    cases hcategory.symm.trans (hall p hp hmac)
    exact ⟨lastPart_eq_self.mp hlast, hall⟩
  · intro h p hp hmac
    obtain ⟨q, hq, hqmac, category, hcategory, hafter⟩ :=
      @category_portAfter _ _ _ hnames pxe port p hp hmac
    obtain ⟨hhyphen, hall⟩ := h q hq hqmac category hcategory
    rw [hafter, hall p hp hmac, lastPart_eq_self.mpr hhyphen]

/-! The three parts of the property. -/

/-- What a run of inspections leaves. -/
structure Outcome (env : Env) (mapping : Mapping) (before : List PluginData) (last : PluginData)
    (inspected : List InspectedPort) (names : List (Text × Text)) (node out : Node) : Prop where
  ports : ∃ (pxe : List Text) (ports : List BaremetalPort),
    ports.map BaremetalPort.address = node.ports.map BaremetalPort.address ∧
    out.ports = ports.map (portAfter inspected names pxe)
  traits : ∀ name, name ∈ out.traits ↔
    (isOurTrait name = false ∧ (name ∈ node.traits ∨ ∃ data ∈ before, ∃ category,
      Connected env mapping data category ∧ name = traitName env.upper category)) ∨
    ∃ category, Connected env mapping last category ∧ name = traitName env.upper category

variable {before : List PluginData} {last : PluginData}

theorem outcome_of_run (hsave : ∀ port, env.save port = true) (hupper : env.upper '-' = ['-'])
    (hbefore : ∀ data ∈ before, Accepts env mapping data)
    (hparse : parsePluginData env.lower last = .ok inspected)
    (hnames : vlanGroupNames inspected mapping = .ok names)
    (h : inspections env mapping (before ++ [last]) node = .ok out) :
    Outcome env mapping before last inspected names node out := by
  obtain ⟨mid, hmid, hout⟩ := inspections_concat_iff.mp h
  obtain ⟨pxe, hports, -⟩ := exists_plan_of_returns hsave hparse hnames hout
  refine ⟨⟨pxe, mid.ports, addresses_inspections hsave hbefore hmid, hports⟩, fun name => ?_⟩
  rw [mem_traits_iff hsave hupper ⟨inspected, names, hparse, hnames⟩ hout]
  refine or_congr_left ?_
  rw [and_comm]
  exact and_congr_right fun hour => mem_traits_inspections hsave hupper hbefore hmid hour

theorem Outcome.category_iff (h : Outcome env mapping before last inspected names node out)
    (hnames : vlanGroupNames inspected mapping = .ok names) :
    (∀ port ∈ out.ports, ∀ p ∈ inspected, p.macAddress = port.address →
      port.category = categoryOf mapping p.switchSystemName) ↔
    ∀ port ∈ node.ports, ∀ p ∈ inspected, p.macAddress = port.address → ∀ category,
      categoryOf mapping p.switchSystemName = some category → '-' ∉ category ∧
        ∀ q ∈ inspected, q.macAddress = port.address →
          categoryOf mapping q.switchSystemName = some category := by
  obtain ⟨pxe, ports, haddresses, hports⟩ := h.ports
  have hmem (address : Text) : (∃ port ∈ ports, port.address = address) ↔
      ∃ port ∈ node.ports, port.address = address := by
    rw [← List.mem_map, ← List.mem_map, haddresses]
  rw [hports, List.forall_mem_map]
  constructor
  · intro hall port hport
    obtain ⟨port', hport', haddress⟩ := (hmem port.address).mpr ⟨port, hport, rfl⟩
    rw [← haddress]
    refine (categories_iff hnames pxe port').mp fun p hp hmac => hall port' hport' p hp ?_
    rw [address_portAfter]
    exact hmac
  · intro hall port hport
    obtain ⟨port', hport', haddress⟩ := (hmem port.address).mp ⟨port, hport, rfl⟩
    rw [address_portAfter]
    exact (categories_iff hnames pxe port).mpr (haddress ▸ hall port' hport')

theorem distinct_iff (hupper : env.upper '-' = ['-'])
    (hparse : parsePluginData env.lower last = .ok inspected)
    (hnames : vlanGroupNames inspected mapping = .ok names) :
    (∀ p ∈ inspected, ∀ q ∈ inspected, ∀ group group',
      names.lookup p.switchSystemName = some group →
        names.lookup q.switchSystemName = some group' →
          categoryOf mapping p.switchSystemName ≠ categoryOf mapping q.switchSystemName →
            traitName env.upper group ≠ traitName env.upper group') ↔
    ∀ category category', Connected env mapping last category →
      Connected env mapping last category' →
        traitPart env.upper category = traitPart env.upper category' → category = category' := by
  constructor
  · rintro h category category' ⟨inspected₁, hparse₁, p, hp, hcategory⟩
      ⟨inspected₂, hparse₂, q, hq, hcategory'⟩ hpart
    cases hparse.symm.trans hparse₁
    cases hparse.symm.trans hparse₂
    obtain ⟨_, hc, hlookup⟩ := name_of_inspected hnames hp
    obtain ⟨_, hc', hlookup'⟩ := name_of_inspected hnames hq
    cases hcategory.symm.trans hc
    cases hcategory'.symm.trans hc'
    by_contra hne
    refine h p hp q hq _ _ hlookup hlookup' ?_ ?_
    · rw [hcategory, hcategory']
      exact fun heq => hne (Option.some.inj heq)
    · rw [traitName_vlanGroupName hupper, traitName_vlanGroupName hupper, traitName_inj, hpart]
  · intro h p hp q hq group group' hgroup hgroup' hne heq
    obtain ⟨category, hc, hlookup⟩ := name_of_inspected hnames hp
    obtain ⟨category', hc', hlookup'⟩ := name_of_inspected hnames hq
    cases hgroup.symm.trans hlookup
    cases hgroup'.symm.trans hlookup'
    rw [traitName_vlanGroupName hupper, traitName_vlanGroupName hupper, traitName_inj] at heq
    rw [hc, hc', h category category' ⟨_, hparse, p, hp, hc⟩ ⟨_, hparse, q, hq, hc'⟩ heq] at hne
    exact hne rfl

theorem Outcome.traits_iff (h : Outcome env mapping before last inspected names node out)
    (hupper : env.upper '-' = ['-']) :
    (∀ name, (Produced env mapping name → (name ∈ out.traits ↔
        ∃ category, Connected env mapping last category ∧ name = traitName env.upper category)) ∧
      (¬Produced env mapping name → (name ∈ out.traits ↔ name ∈ node.traits))) ↔
    (∀ data ∈ before, ∀ category, Connected env mapping data category →
      IsPlain (traitPart env.upper category) ∨ ∃ category', Connected env mapping last category' ∧
        traitPart env.upper category = traitPart env.upper category') ∧
    ∀ name ∈ node.traits, (Produced env mapping name → isOurTrait name = false →
        ∃ category, Connected env mapping last category ∧ name = traitName env.upper category) ∧
      (¬Produced env mapping name → isOurTrait name = false) := by
  constructor
  · intro hall
    refine ⟨fun data hdata category hc => ?_, fun name hname => ⟨fun hproduced hour => ?_,
      fun hproduced => ?_⟩⟩
    · by_cases hour : isOurTrait (traitName env.upper category) = true
      · exact Or.inl (isOurTrait_traitName.mp hour)
      · rw [Bool.not_eq_true] at hour
        have hmem := (h.traits _).mpr (Or.inl ⟨hour, Or.inr ⟨data, hdata, category, hc, rfl⟩⟩)
        obtain ⟨category', hc', heq⟩ := ((hall _).1 (hc.produced hupper)).mp hmem
        exact Or.inr ⟨category', hc', traitName_inj.mp heq⟩
    · exact ((hall name).1 hproduced).mp ((h.traits name).mpr (Or.inl ⟨hour, Or.inl hname⟩))
    · rcases (h.traits name).mp (((hall name).2 hproduced).mpr hname) with
        ⟨hour, -⟩ | ⟨category, hc, rfl⟩
      · exact hour
      · exact (hproduced (hc.produced hupper)).elim
  · rintro ⟨hearlier, hnode⟩ name
    refine ⟨fun hproduced => ?_, fun hproduced => ?_⟩
    · rw [h.traits name]
      refine ⟨fun hmem => ?_, Or.inr⟩
      rcases hmem with ⟨hour, hname | ⟨data, hdata, category, hc, rfl⟩⟩ | hc
      · exact (hnode name hname).1 hproduced hour
      · rcases hearlier data hdata category hc with hplain | ⟨category', hc', hpart⟩
        · rw [isOurTrait_traitName.mpr hplain] at hour
          cases hour
        · exact ⟨category', hc', traitName_inj.mpr hpart⟩
      · exact hc
    · have hnot {data : PluginData} {category : Text} (hc : Connected env mapping data category) :
          name ≠ traitName env.upper category := by
        rintro rfl
        exact hproduced (hc.produced hupper)
      rw [h.traits name]
      constructor
      · rintro (⟨-, hname | ⟨data, -, category, hc, heq⟩⟩ | ⟨category, hc, heq⟩)
        · exact hname
        · exact (hnot hc heq).elim
        · exact (hnot hc heq).elim
      · exact fun hname => Or.inl ⟨(hnode name hname).2 hproduced, Or.inl hname⟩

/-- After any run of inspections that can be named, the last of `last`, the categories and the
traits are those of the mapping exactly when they can be recovered from the names. -/
theorem categories_survive_iff (hsave : ∀ port, env.save port = true)
    (hupper : env.upper '-' = ['-']) (hbefore : ∀ data ∈ before, Accepts env mapping data)
    (hparse : parsePluginData env.lower last = .ok inspected)
    (hnames : vlanGroupNames inspected mapping = .ok names) :
    (∃ out, inspections env mapping (before ++ [last]) node = .ok out ∧
      Survives env mapping inspected names node out) ↔
      Recoverable env mapping before last inspected node := by
  have haccepts : ∀ data ∈ before ++ [last], Accepts env mapping data :=
    List.forall_mem_append.mpr ⟨hbefore, List.forall_mem_singleton.mpr ⟨_, _, hparse, hnames⟩⟩
  have hreturns := inspections_returns_iff hsave haccepts node
  constructor
  · rintro ⟨out, hrun, h⟩
    have houtcome := outcome_of_run hsave hupper hbefore hparse hnames hrun
    obtain ⟨hearlier, htraits⟩ := (houtcome.traits_iff hupper).mp fun name => ⟨fun hproduced => by
      rw [h.traits name hproduced, exists_lookup_iff hupper hparse hnames], h.untouched name⟩
    exact ⟨hreturns.mp ⟨out, hrun⟩, (houtcome.category_iff hnames).mp h.category,
      (distinct_iff hupper hparse hnames).mp h.distinct, hearlier, htraits⟩
  · intro h
    obtain ⟨out, hrun⟩ := hreturns.mpr h.keys
    have houtcome := outcome_of_run hsave hupper hbefore hparse hnames hrun
    have htraits := (houtcome.traits_iff hupper).mpr ⟨h.earlier, h.traits⟩
    refine ⟨out, hrun, (houtcome.category_iff hnames).mpr h.hyphens,
      (distinct_iff hupper hparse hnames).mpr h.distinct, fun name hproduced => ?_,
      fun name => (htraits name).2⟩
    rw [(htraits name).1 hproduced, exists_lookup_iff hupper hparse hnames]

/-! A mapping without hyphens, and the default one. -/

theorem Connected.mem {category : Text} (h : Connected env mapping data category) :
    category ∈ mapping.map Prod.snd := by
  obtain ⟨inspected, -, p, -, hcategory⟩ := h
  obtain ⟨parsed, -, hlookup⟩ := Option.bind_eq_some_iff.mp hcategory
  exact List.mem_map_of_mem (PyDict.mem_of_lookup hlookup)

theorem hasKeys_of_ascii (hparse : parsePluginData env.lower data = .ok inspected)
    (hascii : AsciiNames inspected) : HasKeys env mapping data :=
  ⟨inspected, hparse, fun p hp _ _ _ => ⟨_, naturalSortKey_ascii (hascii p hp)⟩⟩

def networkNames : List (Text × Text) :=
  [("a-1.b.rackspace.net".toList, "a-network".toList),
    ("a-2.b.rackspace.net".toList, "a-network".toList)]

theorem categories_survive_sample :
    ∃ out, inspections sampleEnv plainMapping ([sampleData "a-1f.b"] ++ [sampleData "a-1.b"])
        { sampleNode with traits := {"bar".toList} } = .ok out ∧
      Survives sampleEnv plainMapping (sampleInspected "a-1.b") networkNames
        { sampleNode with traits := {"bar".toList} } out := by
  have hstorage : parsePluginData sampleEnv.lower (sampleData "a-1f.b") =
      .ok (sampleInspected "a-1f.b") := by decide +kernel
  have hnetwork : parsePluginData sampleEnv.lower (sampleData "a-1.b") =
      .ok (sampleInspected "a-1.b") := by decide +kernel
  have haccepts : Accepts sampleEnv plainMapping (sampleData "a-1f.b") :=
    ⟨_, sampleNames "a-1f.b" "a-storage", hstorage, by decide +kernel⟩
  have hplain : ∀ category ∈ plainMapping.map Prod.snd, '-' ∉ category ∧
      traitPart sampleEnv.upper category ≠ [] ∧
        (traitPart sampleEnv.upper category).all isUpperOrDigit = true := by decide +kernel
  have hdistinct : ∀ category ∈ plainMapping.map Prod.snd, ∀ category' ∈ plainMapping.map Prod.snd,
      traitPart sampleEnv.upper category = traitPart sampleEnv.upper category' →
        category = category' := by decide +kernel
  have hmacs : ((sampleInspected "a-1.b").map InspectedPort.macAddress).Nodup := by
    decide +kernel
  refine (categories_survive_iff (fun _ => rfl) (by decide) (by simpa using haccepts) hnetwork
    (by decide +kernel)).mpr ⟨?_, ?_, ?_, ?_, ?_⟩
  · intro data hdata
    rcases List.mem_append.mp hdata with hdata | hdata
    · rw [List.mem_singleton.mp hdata]
      exact hasKeys_of_ascii hstorage (by unfold AsciiNames; decide +kernel)
    · rw [List.mem_singleton.mp hdata]
      exact hasKeys_of_ascii hnetwork (by unfold AsciiNames; decide +kernel)
  · intro port _ p hp hmac category hcategory
    have hc : Connected sampleEnv plainMapping (sampleData "a-1.b") category :=
      ⟨_, hnetwork, p, hp, hcategory⟩
    refine ⟨(hplain category hc.mem).1, fun q hq hqmac => ?_⟩
    rw [List.inj_on_of_nodup_map hmacs hq hp (hqmac.trans hmac.symm), hcategory]
  · exact fun category category' hc hc' => hdistinct category hc.mem category' hc'.mem
  · intro data _ category hc
    obtain ⟨-, hne, hall⟩ := hplain category hc.mem
    exact Or.inl ⟨hne, List.all_eq_true.mp hall⟩
  · intro name hname
    have hbar : isOurTrait "bar".toList = false := by decide
    have hnot : ∀ category ∈ plainMapping.map Prod.snd,
        "bar".toList ≠ traitName sampleEnv.upper category := by decide +kernel
    rw [Finset.mem_singleton.mp hname]
    refine ⟨fun hproduced => ?_, fun _ => hbar⟩
    obtain ⟨suffix, category, hlookup, heq⟩ := (produced_iff (by decide)).mp hproduced
    exact (hnot category (List.mem_map_of_mem (PyDict.mem_of_lookup hlookup)) heq).elim

/-- The default of the option. -/
def switchNameVlanGroupMapping : Mapping :=
  [("1".toList, network), ("2".toList, network), ("3".toList, network), ("4".toList, network),
    ("1f".toList, "storage".toList), ("2f".toList, "storage".toList),
    ("3f".toList, "storage-appliance".toList), ("4f".toList, "storage-appliance".toList),
    ("1d".toList, "bmc".toList)]

/-- A port on a switch `-3f` is given the category `appliance`. -/
theorem category_of_storage_appliance :
    parsePluginData sampleEnv.lower (sampleData "a-3f.b") = .ok (sampleInspected "a-3f.b") ∧
      vlanGroupNames (sampleInspected "a-3f.b") switchNameVlanGroupMapping =
        .ok (sampleNames "a-3f.b" "a-storage-appliance") ∧
      ¬∃ out, inspections sampleEnv switchNameVlanGroupMapping ([] ++ [sampleData "a-3f.b"])
          sampleNode = .ok out ∧
        Survives sampleEnv switchNameVlanGroupMapping (sampleInspected "a-3f.b")
          (sampleNames "a-3f.b" "a-storage-appliance") sampleNode out := by
  refine ⟨by decide +kernel, by decide +kernel, ?_⟩
  rintro ⟨out, hrun, h⟩
  have hports : (inspections sampleEnv switchNameVlanGroupMapping ([] ++ [sampleData "a-3f.b"])
      sampleNode).map (fun out => (out.ports.filter fun port =>
        port.category = some "appliance".toList).map BaremetalPort.address) =
          .ok ["m3".toList] := by decide +kernel
  rw [hrun] at hports
  have hm3 : "m3".toList ∈ (out.ports.filter fun port =>
      port.category = some "appliance".toList).map BaremetalPort.address := by
    have haddresses := Except.ok.inj hports
    dsimp only at haddresses
    rw [haddresses]
    exact List.mem_singleton_self _
  obtain ⟨port, hport, haddress⟩ := List.mem_map.mp hm3
  obtain ⟨hmem, hcategory⟩ := List.mem_filter.mp hport
  have hlast : inspectedOf "ex3" "m3" "a-3f.b" ∈ sampleInspected "a-3f.b" := by decide +kernel
  have hsurvives := h.category port hmem _ hlast haddress.symm
  rw [of_decide_eq_true hcategory] at hsurvives
  exact absurd hsurvives (by decide +kernel)

end Understack.Ironic.BaremetalPorts
