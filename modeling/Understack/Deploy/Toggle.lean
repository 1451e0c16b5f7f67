import Understack.Deploy.EnabledComponents

/-! `cmd/deploy/toggle.go` of understackctl: a component is switched on or off in the sections of a
type. The entry is written under the underscored name, while `enabledComponents` merges all
spellings of a name. -/
namespace Understack.Deploy
open PyText

def deployTypeGlobal : Text := "global".toList
def deployTypeSite : Text := "site".toList
def deployTypeAIO : Text := "aio".toList

inductive ToggleError where
  | invalidType (deployType : Text)
  | missingSection (sectionName : Text)
  | nilConfig
  deriving DecidableEq, Repr

def validateDeployType (deployType : Text) (allowedTypes : List Text) : Except ToggleError Unit :=
  if deployType ∈ allowedTypes then .ok () else .error (.invalidType deployType)

/-- `strings.ReplaceAll(name, "-", "_")`. -/
def normalizeDeployComponentName (name : Text) : Text := name.map fun c => if c = '-' then '_' else c

def deployTargetSections (componentType : Text) : List Text :=
  if componentType = deployTypeAIO then [deployTypeGlobal, deployTypeSite] else [componentType]

def switch (b : Bool) : Yaml := .map [(enabledKey, .bool b)]

/-- The map of a section, empty where the section is no map. -/
def sectionMap (config : YamlMap) (sectionName : Text) : YamlMap :=
  match config.lookup sectionName with
  | some (.map m) => m
  | _ => []

def enableSection (name : Text) (config : YamlMap) (sectionName : Text) : YamlMap :=
  PyDict.put sectionName (.map (PyDict.put (normalizeDeployComponentName name) (switch true)
    (PyDict.put enabledKey (.bool true) (sectionMap config sectionName)))) config

def disableSection (name : Text) (config : YamlMap) (sectionName : Text) :
    Except ToggleError YamlMap :=
  match config.lookup sectionName with
  | some (.map m) => .ok (PyDict.put sectionName
      (.map (PyDict.put (normalizeDeployComponentName name) (switch false) m)) config)
  | _ => .error (.missingSection sectionName)

/-- The config that is saved. An empty `deploy.yaml` is a nil map, to which nothing can be
assigned. -/
def runDeployEnable (config : Option YamlMap) (name componentType : Text) :
    Except ToggleError YamlMap := do
  validateDeployType componentType [deployTypeGlobal, deployTypeSite, deployTypeAIO]
  match config with
  | none => .error .nilConfig
  | some config => .ok ((deployTargetSections componentType).foldl (enableSection name) config)

def runDeployDisable (config : Option YamlMap) (name componentType : Text) :
    Except ToggleError YamlMap := do
  validateDeployType componentType [deployTypeGlobal, deployTypeSite, deployTypeAIO]
  (deployTargetSections componentType).foldlM (disableSection name) (config.getD [])

inductive Toggle where
  | enable
  | disable
  deriving DecidableEq, Repr

def Toggle.run : Toggle → Option YamlMap → Text → Text → Except ToggleError YamlMap
  | .enable => runDeployEnable
  | .disable => runDeployDisable

/-- A decoded `deploy.yaml`: a section has every key once. -/
structure DeployConfig where
  entries : YamlMap
  nodup : ∀ s, ((sectionMap entries s).map Prod.fst).Nodup

/-! What a toggle ought to do. -/

/-- The components that a section contributes by itself. -/
def sectionComponents (o : MapOrder) (config : YamlMap) (sectionName : Text) :
    List ComponentConfig :=
  (o.range sectionName (sectionEntries config sectionName)).foldl addEntry []

def report (o : MapOrder) (config : YamlMap) (name : Text) : Option ComponentConfig :=
  (enabledComponents o config).find? fun c => c.name = name

/-- A section that is enabled has a component of the name, with whatever options. -/
def Listed (config : YamlMap) (name : Text) : Prop :=
  ∃ key m, (key, Yaml.map m) ∈ allEntries config ∧ key ≠ enabledKey ∧ componentName key = name

/-- The component itself is off, or on with both options. -/
def Switched (o : MapOrder) (config : YamlMap) (name componentType : Text) : Toggle → Prop
  | .disable => ∀ s ∈ deployTargetSections componentType,
      componentName name ∉ (sectionComponents o config s).map ComponentConfig.name
  | .enable => report o config (componentName name) = some ⟨componentName name, true, true⟩

structure TookEffect (o o' : MapOrder) (toggle : Toggle) (config config' : YamlMap)
    (name componentType : Text) : Prop where
  switched : Switched o' config' name componentType toggle
  others : ∀ n, n ≠ componentName name → Listed config n → report o' config' n = report o config n

/-! When it does. -/

/-- The options that a report depends on. -/
def options : List (YamlMap → Bool) := [anyOption, installApp, installConfigs]

/-- An enabled section has the component under a spelling that is not written. -/
def OtherSpelling (config : YamlMap) (name sectionName : Text) : Prop :=
  ∃ key m, (key, Yaml.map m) ∈ sectionEntries config sectionName ∧ key ≠ enabledKey ∧
    key ≠ normalizeDeployComponentName name ∧ componentName key = componentName name ∧
    anyOption m = true

/-- No target section keeps the component under another spelling, for a disable; none has, for a
component that is listed already, an option that is not in force. -/
def NoInterference (config : YamlMap) (name componentType : Text) : Toggle → Prop
  | .disable => ∀ s ∈ deployTargetSections componentType, ¬ OtherSpelling config name s
  | .enable => ∀ s ∈ deployTargetSections componentType, ∀ n, n ≠ componentName name →
      Listed config n → ∀ option ∈ options, Wanted option (sectionMap config s) n →
        Wanted option (allEntries config) n

/-! The saved config. -/

/-- The map of a target section after the toggle. -/
def toggled (toggle : Toggle) (name : Text) (m : YamlMap) : YamlMap :=
  match toggle with
  | .enable => PyDict.put (normalizeDeployComponentName name) (switch true)
      (PyDict.put enabledKey (.bool true) m)
  | .disable => PyDict.put (normalizeDeployComponentName name) (switch false) m

def toggleSection (toggle : Toggle) (name : Text) (config : YamlMap) (s : Text) : YamlMap :=
  PyDict.put s (.map (toggled toggle name (sectionMap config s))) config

theorem disableSection_ok {name s : Text} {config config' : YamlMap}
    (h : disableSection name config s = .ok config') :
    config' = toggleSection .disable name config s := by
  unfold disableSection at h
  split at h
  · next m hm =>
    cases h
    rw [toggleSection, sectionMap, hm]
    rfl
  · cases h

theorem foldlM_disableSection {name : Text} {ss : List Text} {config config' : YamlMap}
    (h : ss.foldlM (disableSection name) config = .ok config') :
    config' = ss.foldl (toggleSection .disable name) config := by
  induction ss generalizing config with
  | nil =>
    cases h
    rfl
  | cons s ss ih =>
    rw [List.foldlM_cons] at h
    cases hs : disableSection name config s with
    | error e =>
      rw [hs] at h
      cases h
    | ok next =>
      rw [hs] at h
      rw [ih h, disableSection_ok hs]
      rfl

theorem run_ok {toggle : Toggle} {config config' : YamlMap} {name componentType : Text}
    (h : toggle.run (some config) name componentType = .ok config') :
    componentType ∈ [deployTypeGlobal, deployTypeSite, deployTypeAIO] ∧
      config' = (deployTargetSections componentType).foldl (toggleSection toggle name) config := by
  by_cases ht : componentType ∈ [deployTypeGlobal, deployTypeSite, deployTypeAIO]
  · refine ⟨ht, ?_⟩
    have hvalid : validateDeployType componentType
        [deployTypeGlobal, deployTypeSite, deployTypeAIO] = .ok () := if_pos ht
    cases toggle with
    | enable =>
      rw [Toggle.run, runDeployEnable, hvalid] at h
      cases h
      rfl
    | disable =>
      rw [Toggle.run, runDeployDisable, hvalid] at h
      exact foldlM_disableSection h
  · have hvalid : validateDeployType componentType
        [deployTypeGlobal, deployTypeSite, deployTypeAIO] = .error (.invalidType componentType) :=
      if_neg ht
    cases toggle with
    | enable =>
      rw [Toggle.run, runDeployEnable, hvalid] at h
      cases h
    | disable =>
      rw [Toggle.run, runDeployDisable, hvalid] at h
      cases h

theorem targets_nodup (componentType : Text) : (deployTargetSections componentType).Nodup := by
  unfold deployTargetSections
  split_ifs
  · decide
  · exact List.nodup_singleton _

theorem targets_subset {componentType : Text}
    (h : componentType ∈ [deployTypeGlobal, deployTypeSite, deployTypeAIO]) :
    ∀ s ∈ deployTargetSections componentType, s ∈ sections := by
  simp only [List.mem_cons, List.not_mem_nil, or_false] at h
  rcases h with rfl | rfl | rfl <;> decide

theorem lookup_foldl_toggleSection {toggle : Toggle} {name : Text} {ss : List Text}
    (hnd : ss.Nodup) (config : YamlMap) (s : Text) :
    (ss.foldl (toggleSection toggle name) config).lookup s =
      if s ∈ ss then some (.map (toggled toggle name (sectionMap config s)))
      else config.lookup s := by
  induction ss generalizing config with
  | nil => rfl
  | cons a ss ih =>
    obtain ⟨ha, hnd⟩ := List.nodup_cons.mp hnd
    rw [List.foldl_cons, ih hnd]
    by_cases hs : s = a
    · subst hs
      rw [if_neg ha, if_pos List.mem_cons_self, toggleSection, PyDict.lookup_put_self]
    · have hlookup : (toggleSection toggle name config a).lookup s = config.lookup s :=
        PyDict.lookup_put_of_ne _ _ hs
      have hmem : s ∈ a :: ss ↔ s ∈ ss := by simp [hs]
      rw [sectionMap, hlookup]
      simp only [hmem]
      rfl

/-! Names. -/

theorem componentName_normalize (name : Text) :
    componentName (normalizeDeployComponentName name) = componentName name := by
  unfold componentName normalizeDeployComponentName
  rw [List.map_map]
  refine List.map_congr_left fun c _ => ?_
  by_cases hdash : c = '-'
  · simp [hdash]
  · simp [hdash]

theorem normalize_ne_enabled {name : Text} (h : name ≠ enabledKey) :
    normalizeDeployComponentName name ≠ enabledKey := by
  intro he
  have hself : normalizeDeployComponentName name = name := by
    unfold normalizeDeployComponentName at he ⊢
    refine (List.map_congr_left fun c hc => ?_).trans (List.map_id name)
    split_ifs with hdash
    · have hmem : '_' ∈ enabledKey := by
        rw [← he]
        exact List.mem_map.mpr ⟨c, hc, if_pos hdash⟩
      exact absurd hmem (by decide)
    · rfl
  exact h (hself.symm.trans he)

/-! What the toggle changes of a section. -/

section
variable {toggle : Toggle} {name : Text} {m : YamlMap}

/-- A component of another name is wanted as before. -/
theorem wanted_toggled {option : YamlMap → Bool} {n : Text} (hn : n ≠ componentName name) :
    Wanted option (toggled toggle name m) n ↔ Wanted option m n := by
  have hmem {key : Text} {v : Yaml} (hkey : key ≠ enabledKey) (hname : componentName key = n) :
      (key, v) ∈ toggled toggle name m ↔ (key, v) ∈ m := by
    have hother : key ≠ normalizeDeployComponentName name := by
      rintro rfl
      exact hn (hname.symm.trans (componentName_normalize name))
    cases toggle with
    | enable => exact (PyDict.mem_put_of_ne hother).trans (PyDict.mem_put_of_ne hkey)
    | disable => exact PyDict.mem_put_of_ne hother
  unfold Wanted
  refine exists_congr fun key => exists_congr fun e => ?_
  constructor
  · rintro ⟨he, hkey, hname, ho⟩
    exact ⟨(hmem hkey hname).mp he, hkey, hname, ho⟩
  · rintro ⟨he, hkey, hname, ho⟩
    exact ⟨(hmem hkey hname).mpr he, hkey, hname, ho⟩

theorem lookup_enabled_toggled (hname : name ≠ enabledKey) :
    (toggled toggle name m).lookup enabledKey =
      if toggle = .enable then some (.bool true) else m.lookup enabledKey := by
  have hne := (normalize_ne_enabled hname).symm
  cases toggle with
  | enable => exact (PyDict.lookup_put_of_ne _ _ hne).trans (PyDict.lookup_put_self _ _ _)
  | disable => exact PyDict.lookup_put_of_ne _ _ hne

/-- A disabled component is wanted only under another spelling. -/
theorem wanted_disabled (hnd : (m.map Prod.fst).Nodup) :
    Wanted anyOption (toggled .disable name m) (componentName name) ↔
      ∃ key e, (key, Yaml.map e) ∈ m ∧ key ≠ enabledKey ∧
        key ≠ normalizeDeployComponentName name ∧ componentName key = componentName name ∧
        anyOption e = true := by
  unfold Wanted
  refine exists_congr fun key => exists_congr fun e => ?_
  by_cases hkey : key = normalizeDeployComponentName name
  · subst hkey
    refine iff_of_false ?_ fun h => h.2.2.1 rfl
    rintro ⟨he, -, -, ho⟩
    cases (PyDict.mem_put_self hnd).mp he
    cases ho
  · have hmem : (key, Yaml.map e) ∈ toggled .disable name m ↔ (key, Yaml.map e) ∈ m :=
      PyDict.mem_put_of_ne hkey
    rw [hmem]
    tauto

theorem wanted_enabled (hname : name ≠ enabledKey) {option : YamlMap → Bool}
    (ho : option [(enabledKey, .bool true)] = true) :
    Wanted option (toggled .enable name m) (componentName name) :=
  ⟨normalizeDeployComponentName name, _, PyDict.mem_of_lookup (PyDict.lookup_put_self _ _ _),
    normalize_ne_enabled hname, componentName_normalize name, ho⟩

end

def isOn : Option Yaml → Bool
  | some (.bool true) => true
  | _ => false

/-- The entries that a section contributes are those of its map, if it is enabled. -/
theorem sectionEntries_eq (config : YamlMap) (s : Text) :
    sectionEntries config s =
      if isOn ((sectionMap config s).lookup enabledKey) then sectionMap config s else [] := by
  unfold sectionEntries sectionMap
  cases config.lookup s with
  | none => rfl
  | some v =>
    cases v with
    | bool b => rfl
    | other => rfl
    | map m =>
      dsimp only
      cases m.lookup enabledKey with
      | none => rfl
      | some e =>
        cases e with
        | bool b => cases b <;> rfl
        | other => rfl
        | map e => rfl

section
variable {toggle : Toggle} {config config' : YamlMap} {name componentType : Text}

/-- What the sections contribute after the toggle. -/
theorem sectionEntries_run (hname : name ≠ enabledKey)
    (h : toggle.run (some config) name componentType = .ok config') (s : Text) :
    sectionEntries config' s =
      if s ∈ deployTargetSections componentType then
        if toggle = .enable ∨ isOn ((sectionMap config s).lookup enabledKey) = true then
          toggled toggle name (sectionMap config s)
        else []
      else sectionEntries config s := by
  obtain ⟨-, rfl⟩ := run_ok h
  have hmap : sectionMap ((deployTargetSections componentType).foldl (toggleSection toggle name)
      config) s = if s ∈ deployTargetSections componentType then
        toggled toggle name (sectionMap config s) else sectionMap config s := by
    rw [sectionMap, lookup_foldl_toggleSection (targets_nodup componentType) config s]
    split_ifs <;> rfl
  rw [sectionEntries_eq, sectionEntries_eq, hmap]
  by_cases hs : s ∈ deployTargetSections componentType
  · rw [if_pos hs, if_pos hs, lookup_enabled_toggled hname]
    cases toggle with
    | enable => rfl
    | disable => simp
  · rw [if_neg hs, if_neg hs]

/-- A component of another name is wanted where it was, and where a target section that was not
enabled now is. -/
theorem wanted_section_run (hname : name ≠ enabledKey)
    (h : toggle.run (some config) name componentType = .ok config') {n : Text}
    (hn : n ≠ componentName name) (option : YamlMap → Bool) (s : Text) :
    Wanted option (sectionEntries config' s) n ↔ Wanted option (sectionEntries config s) n ∨
      (toggle = .enable ∧ s ∈ deployTargetSections componentType ∧
        Wanted option (sectionMap config s) n) := by
  have hempty : ¬ Wanted option [] n := by
    rintro ⟨key, e, he, -⟩
    cases he
  rw [sectionEntries_run hname h s, sectionEntries_eq config s]
  by_cases hs : s ∈ deployTargetSections componentType
  · rw [if_pos hs]
    cases toggle with
    | enable =>
      rw [if_pos (Or.inl rfl), wanted_toggled hn]
      split_ifs
      · exact ⟨Or.inl, fun h => h.elim id fun h => h.2.2⟩
      · exact ⟨fun h => Or.inr ⟨rfl, hs, h⟩, fun h => h.elim (fun h => absurd h hempty) fun h => h.2.2⟩
    | disable =>
      have hnot : ¬(Toggle.disable = .enable ∧ s ∈ deployTargetSections componentType ∧
          Wanted option (sectionMap config s) n) := fun h => by cases h.1
      rw [or_iff_left hnot]
      simp only [reduceCtorEq, false_or]
      split_ifs
      · exact wanted_toggled hn
      · rfl
  · rw [if_neg hs, or_iff_left fun h => hs h.2.1]

theorem wanted_allEntries {option : YamlMap → Bool} {n : Text} (config : YamlMap) :
    Wanted option (allEntries config) n ↔
      ∃ s ∈ sections, Wanted option (sectionEntries config s) n := by
  unfold Wanted allEntries
  constructor
  · rintro ⟨key, e, he, hrest⟩
    obtain ⟨s, hs, he⟩ := List.mem_flatMap.mp he
    exact ⟨s, hs, key, e, he, hrest⟩
  · rintro ⟨s, hs, key, e, he, hrest⟩
    exact ⟨key, e, List.mem_flatMap.mpr ⟨s, hs, he⟩, hrest⟩

/-! The report of a name. -/

theorem Collects.find? {entries : YamlMap} {seen : List ComponentConfig}
    (h : Collects entries seen) {n : Text} {c : ComponentConfig} :
    seen.find? (fun c => c.name = n) = some c ↔ c.name = n ∧ Wanted anyOption entries n ∧
      (c.installApp = true ↔ Wanted installApp entries n) ∧
      (c.installConfigs = true ↔ Wanted installConfigs entries n) := by
  constructor
  · intro hf
    have hmem := List.mem_of_find?_eq_some hf
    have hcn : c.name = n := by simpa using List.find?_some hf
    subst hcn
    exact ⟨rfl, (h.name _).mp (List.mem_map_of_mem hmem), h.app c hmem, h.configs c hmem⟩
  · rintro ⟨rfl, hany, happ, hconfigs⟩
    obtain ⟨d, hd, hname⟩ := List.mem_map.mp ((h.name c.name).mpr hany)
    have heq : d = c := by
      obtain ⟨dn, da, dc⟩ := d
      obtain ⟨cn, ca, cc⟩ := c
      dsimp only at hname happ hconfigs ⊢
      subst hname
      have ha : da = ca := Bool.eq_iff_iff.mpr ((h.app _ hd).trans happ.symm)
      have hc : dc = cc := Bool.eq_iff_iff.mpr ((h.configs _ hd).trans hconfigs.symm)
      rw [ha, hc]
    subst heq
    cases hf : seen.find? (fun x => x.name = d.name) with
    | none =>
      rw [List.find?_eq_none] at hf
      exact absurd (decide_eq_true rfl) (hf d hd)
    | some x =>
      have hx : x.name = d.name := by simpa using List.find?_some hf
      rw [List.inj_on_of_nodup_map h.nodup (List.mem_of_find?_eq_some hf) hd hx]

theorem report_eq_some {o : MapOrder} {config : YamlMap} {n : Text} {c : ComponentConfig} :
    report o config n = some c ↔ c.name = n ∧ Wanted anyOption (allEntries config) n ∧
      (c.installApp = true ↔ Wanted installApp (allEntries config) n) ∧
      (c.installConfigs = true ↔ Wanted installConfigs (allEntries config) n) :=
  (collects_enabledComponents o config).find?

theorem report_isSome {o : MapOrder} {config : YamlMap} {n : Text} :
    (report o config n).isSome = true ↔ Wanted anyOption (allEntries config) n := by
  rw [← (collects_enabledComponents o config).name, report, List.find?_isSome]
  simp

/-- A report stays the same exactly if every option is wanted as before. -/
theorem report_eq_iff {o o' : MapOrder} {config config' : YamlMap} {n : Text} :
    report o' config' n = report o config n ↔ ∀ option ∈ options,
      (Wanted option (allEntries config') n ↔ Wanted option (allEntries config) n) := by
  simp only [options, List.forall_mem_cons, List.not_mem_nil, false_imp_iff, implies_true, and_true]
  constructor
  · intro heq
    have hany : Wanted anyOption (allEntries config') n ↔ Wanted anyOption (allEntries config) n := by
      rw [← report_isSome (o := o'), ← report_isSome (o := o), heq]
    cases hr : report o config n with
    | none =>
      have hnot : ¬ Wanted anyOption (allEntries config) n := by
        rw [← report_isSome (o := o), hr]
        exact Bool.false_ne_true
      have hnot' := mt hany.mp hnot
      exact ⟨hany, iff_of_false (fun h => hnot' (h.any anyOption_of_app))
        fun h => hnot (h.any anyOption_of_app),
        iff_of_false (fun h => hnot' (h.any anyOption_of_configs))
        fun h => hnot (h.any anyOption_of_configs)⟩
    | some c =>
      obtain ⟨-, -, happ, hconfigs⟩ := report_eq_some.mp hr
      obtain ⟨-, -, happ', hconfigs'⟩ := report_eq_some.mp (heq.trans hr)
      exact ⟨hany, happ'.symm.trans happ, hconfigs'.symm.trans hconfigs⟩
  · rintro ⟨hany, happ, hconfigs⟩
    refine Option.ext fun c => ?_
    rw [report_eq_some, report_eq_some, hany, happ, hconfigs]

theorem mem_sectionComponents {o : MapOrder} {config : YamlMap} {s n : Text} :
    n ∈ (sectionComponents o config s).map ComponentConfig.name ↔
      Wanted anyOption (sectionEntries config s) n := by
  have hempty : Collects [] [] := by
    refine ⟨List.nodup_nil, fun name => ?_, by simp, by simp⟩
    simp [Wanted]
  have hcollects := hempty.foldl (o.range s (sectionEntries config s))
  rw [List.nil_append] at hcollects
  rw [sectionComponents, hcollects.name]
  exact ⟨fun h => h.of_mem fun e he => (o.perm _ _).mem_iff.mp he,
    fun h => h.of_mem fun e he => (o.perm _ _).mem_iff.mpr he⟩

/-! The effect. -/

theorem report_others (o o' : MapOrder) (hname : name ≠ enabledKey)
    (h : toggle.run (some config) name componentType = .ok config') {n : Text}
    (hn : n ≠ componentName name) :
    report o' config' n = report o config n ↔
      (toggle = .enable → ∀ s ∈ deployTargetSections componentType, ∀ option ∈ options,
        Wanted option (sectionMap config s) n → Wanted option (allEntries config) n) := by
  have hsub := targets_subset (run_ok h).1
  rw [report_eq_iff]
  constructor
  · intro hsame ht s hs option ho hw
    refine (hsame option ho).mp ((wanted_allEntries config').mpr ⟨s, hsub s hs, ?_⟩)
    exact (wanted_section_run hname h hn option s).mpr (Or.inr ⟨ht, hs, hw⟩)
  · intro hcond option ho
    rw [wanted_allEntries config']
    constructor
    · rintro ⟨s, hs, hw⟩
      rcases (wanted_section_run hname h hn option s).mp hw with hw | ⟨ht, hts, hw⟩
      · exact (wanted_allEntries config).mpr ⟨s, hs, hw⟩
      · exact hcond ht s hts option ho hw
    · intro hw
      obtain ⟨s, hs, hw⟩ := (wanted_allEntries config).mp hw
      exact ⟨s, hs, (wanted_section_run hname h hn option s).mpr (Or.inl hw)⟩

theorem switched_enable (o' : MapOrder) (hname : name ≠ enabledKey)
    (h : Toggle.enable.run (some config) name componentType = .ok config') :
    Switched o' config' name componentType .enable := by
  have hvalid := (run_ok h).1
  obtain ⟨s, hs⟩ : ∃ s, s ∈ deployTargetSections componentType := by
    simp only [List.mem_cons, List.not_mem_nil, or_false] at hvalid
    rcases hvalid with rfl | rfl | rfl
    · exact ⟨deployTypeGlobal, by decide⟩
    · exact ⟨deployTypeSite, by decide⟩
    · exact ⟨deployTypeGlobal, by decide⟩
  have hwanted (option : YamlMap → Bool) (ho : option [(enabledKey, .bool true)] = true) :
      Wanted option (allEntries config') (componentName name) := by
    refine (wanted_allEntries config').mpr ⟨s, targets_subset hvalid s hs, ?_⟩
    rw [sectionEntries_run hname h s, if_pos hs, if_pos (Or.inl rfl)]
    exact wanted_enabled hname ho
  exact report_eq_some.mpr ⟨rfl, hwanted anyOption rfl,
    iff_of_true rfl (hwanted installApp rfl), iff_of_true rfl (hwanted installConfigs rfl)⟩

theorem switched_disable (o' : MapOrder) (config : DeployConfig) (hname : name ≠ enabledKey)
    (h : Toggle.disable.run (some config.entries) name componentType = .ok config') :
    Switched o' config' name componentType .disable ↔
      NoInterference config.entries name componentType .disable := by
  refine forall_congr' fun s => forall_congr' fun hs => not_congr ?_
  rw [mem_sectionComponents, sectionEntries_run hname h s, if_pos hs, OtherSpelling,
    sectionEntries_eq config.entries s]
  simp only [reduceCtorEq, false_or]
  split_ifs
  · exact wanted_disabled (config.nodup s)
  · refine iff_of_false ?_ ?_
    · rintro ⟨key, e, he, -⟩
      cases he
    · rintro ⟨key, e, he, -⟩
      cases he

end

/-- A toggle that succeeds takes effect, and on its component alone, exactly when nothing
interferes. -/
theorem toggle_effect_iff (o o' : MapOrder) (toggle : Toggle) (config : DeployConfig)
    (name : {n : Text // n ≠ enabledKey}) (componentType : Text) {config' : YamlMap}
    (h : toggle.run (some config.entries) name componentType = .ok config') :
    TookEffect o o' toggle config.entries config' name componentType ↔
      NoInterference config.entries name componentType toggle := by
  have hothers {n : Text} (hn : n ≠ componentName name) :=
    report_others o o' name.2 h hn
  cases toggle with
  | enable =>
    constructor
    · intro heffect s hs n hn hlisted option ho hw
      exact (hothers hn).mp (heffect.others n hn hlisted) rfl s hs option ho hw
    · intro hcond
      refine ⟨switched_enable o' name.2 h, fun n hn hlisted => (hothers hn).mpr ?_⟩
      exact fun _ s hs option ho hw => hcond s hs n hn hlisted option ho hw
  | disable =>
    have hswitched := switched_disable o' config name.2 h
    constructor
    · exact fun heffect => hswitched.mp heffect.switched
    · intro hcond
      refine ⟨hswitched.mpr hcond, fun n hn _ => (hothers hn).mpr fun ht => ?_⟩
      cases ht

/-- A global section with one enabled component under the given key. -/
def oneComponent (key : Text) (h : key ≠ enabledKey) : DeployConfig where
  entries := [(deployTypeGlobal, .map [(enabledKey, .bool true), (key, switch true)])]
  nodup s := by
    rw [sectionMap, List.lookup_cons]
    cases s == deployTypeGlobal with
    | true => simpa using h.symm
    | false => exact List.nodup_nil

def certManager : {n : Text // n ≠ enabledKey} := ⟨"cert-manager".toList, by decide⟩

theorem underscored_disabled :
    TookEffect keptOrder keptOrder .disable
      (oneComponent "cert_manager".toList (by decide)).entries
      [(deployTypeGlobal, .map [(enabledKey, .bool true),
        ("cert_manager".toList, switch false)])] certManager.1 deployTypeGlobal := by
  refine (toggle_effect_iff keptOrder keptOrder .disable
    (oneComponent "cert_manager".toList (by decide)) certManager deployTypeGlobal rfl).mpr ?_
  rintro s hs ⟨key, m, he, henabled, hkey, -⟩
  rw [show s = deployTypeGlobal from List.mem_singleton.mp hs] at he
  rcases List.mem_cons.mp he with he | he
  · cases he
  · cases List.mem_singleton.mp he
    exact hkey rfl

/-- A component that is spelled with a hyphen stays enabled. -/
theorem hyphenated_stays_enabled :
    ∃ config', Toggle.disable.run
        (some (oneComponent "cert-manager".toList (by decide)).entries) certManager.1
        deployTypeGlobal = .ok config' ∧
      ¬ TookEffect keptOrder keptOrder .disable
        (oneComponent "cert-manager".toList (by decide)).entries config' certManager.1
        deployTypeGlobal := by
  refine ⟨_, rfl, fun heffect => ?_⟩
  refine (switched_disable keptOrder (oneComponent "cert-manager".toList (by decide))
    certManager.2 rfl).mp heffect.switched deployTypeGlobal (List.mem_singleton.mpr rfl) ?_
  exact ⟨"cert-manager".toList, [(enabledKey, .bool true)],
    List.mem_cons_of_mem _ List.mem_cons_self, by decide, by decide, rfl, rfl⟩

end Understack.Deploy
