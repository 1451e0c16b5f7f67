import Understack.Deploy.EnabledComponents
import Understack.Lib.Runs

/-! `cmd/deploy/update.go` and `check.go` of understackctl: the directories of a cluster are brought
to the components of its `deploy.yaml`, and checked against them. -/
namespace Understack.Deploy
open PyText

inductive Node where
  | file (content : Text)
  | dir (entries : List (Text × Node))

abbrev Directory := List (Text × Node)

def Node.isDir : Node → Bool
  | .file _ => false
  | .dir _ => true

inductive Error where
  | readDeploy
  | parseDeploy
  | createDirectory (name : Text)
  | removeValues (name : Text)
  | missingFiles (count : ℕ)
  deriving DecidableEq

def deployYaml : Text := "deploy.yaml".toList

def valuesYaml : Text := "values.yaml".toList

def kustomizationYaml : Text := "kustomization.yaml".toList

def valuesContent : Text := "# Component-specific Helm values\n".toList

def kustomizationContent : Text :=
  "apiVersion: kustomize.config.k8s.io/v1beta1\nkind: Kustomization\nresources: []\n".toList

/-- `unmarshal` is the YAML decoder into a map. -/
def loadDeployConfig (unmarshal : Text → Option YamlMap) (cluster : Directory) :
    Except Error YamlMap :=
  match cluster.lookup deployYaml with
  | some (.file data) =>
    match unmarshal data with
    | some config => .ok config
    | none => .error .parseDeploy
  | _ => .error .readDeploy

/-- The entries of a directory that is made unless it is there; a file stands in its way. -/
def mkdirAll (name : Text) : Option Node → Except Error Directory
  | none => .ok []
  | some (.dir entries) => .ok entries
  | some (.file _) => .error (.createDirectory name)

/-- A file is written unless something has its name. -/
def ensureFile (name content : Text) (entries : Directory) : Directory :=
  if (entries.lookup name).isSome then entries else PyDict.put name (.file content) entries

/-- `os.Remove` of the values, which may be missing; a directory must be empty. -/
def removeValues (component : Text) (entries : Directory) : Except Error Directory :=
  match entries.lookup valuesYaml with
  | some (.dir (_ :: _)) => .error (.removeValues component)
  | _ => .ok (entries.filter fun e => e.1 ≠ valuesYaml)

def removeAllExcept (keep : Text) (entries : Directory) : Directory :=
  entries.filter fun e => e.1 = keep

def updateValues (comp : ComponentConfig) (entries : Directory) : Except Error Directory :=
  if comp.installApp then .ok (ensureFile valuesYaml valuesContent entries)
  else removeValues comp.name entries

def updateConfigs (comp : ComponentConfig) (entries : Directory) : Directory :=
  if comp.installConfigs then ensureFile kustomizationYaml kustomizationContent entries
  else removeAllExcept valuesYaml entries

/-- The entries of a component that is enabled. -/
def componentEntries (comp : ComponentConfig) (entries : Directory) : Except Error Directory := do
  let entries ← updateValues comp entries
  .ok (updateConfigs comp entries)

def updateComponent (cluster : Directory) (comp : ComponentConfig) : Except Error Directory := do
  let entries ← mkdirAll comp.name (cluster.lookup comp.name)
  let entries ← componentEntries comp entries
  .ok (PyDict.put comp.name (.dir entries) cluster)

/-- The directories of components that are not enabled go. -/
def removeDisabled (comps : List ComponentConfig) (cluster : Directory) : Directory :=
  cluster.filter fun e => !e.2.isDir || comps.any fun c => c.name = e.1

def runDeployUpdate (unmarshal : Text → Option YamlMap) (o : MapOrder) (cluster : Directory) :
    Except Error Directory := do
  let config ← loadDeployConfig unmarshal cluster
  let enabledComps := enabledComponents o config
  enabledComps.foldlM updateComponent (removeDisabled enabledComps cluster)

/-- `os.IsNotExist` of the error of `os.Stat`; a file in the place of the component's directory is
another error. -/
def isNotExist (cluster : Directory) (component file : Text) : Bool :=
  match cluster.lookup component with
  | none => true
  | some (.dir entries) => (entries.lookup file).isNone
  | some (.file _) => false

/-- The files of a component that are missing. -/
def missingFiles (cluster : Directory) (comp : ComponentConfig) : List Text :=
  (if comp.installApp && isNotExist cluster comp.name valuesYaml then [valuesYaml] else []) ++
  if comp.installConfigs && isNotExist cluster comp.name kustomizationYaml then
    [kustomizationYaml] else []

def runDeployCheck (unmarshal : Text → Option YamlMap) (o : MapOrder) (cluster : Directory) :
    Except Error Unit := do
  let config ← loadDeployConfig unmarshal cluster
  let missing := (enabledComponents o config).flatMap (missingFiles cluster)
  if missing.length > 0 then .error (.missingFiles missing.length) else .ok ()

/-! One component. -/

theorem lookup_ensureFile_isSome (name content : Text) (entries : Directory) :
    ((ensureFile name content entries).lookup name).isSome = true := by
  unfold ensureFile
  split_ifs with h
  · exact h
  · rw [PyDict.lookup_put_self]
    rfl

/-- A file that is ensured leaves every entry that is there. -/
theorem lookup_ensureFile {name content file : Text} {entries : Directory} {node : Node}
    (h : entries.lookup file = some node) :
    (ensureFile name content entries).lookup file = some node := by
  unfold ensureFile
  split_ifs with hs
  · exact h
  · have hne : file ≠ name := by
      rintro rfl
      exact hs (Option.isSome_iff_exists.mpr ⟨node, h⟩)
    rw [PyDict.lookup_put_of_ne _ _ hne, h]

theorem lookup_ensureFile_of_ne {name content file : Text} {entries : Directory} (h : file ≠ name) :
    (ensureFile name content entries).lookup file = entries.lookup file := by
  unfold ensureFile
  split_ifs
  · rfl
  · exact PyDict.lookup_put_of_ne _ _ h

theorem ensureFile_of_isSome {name content : Text} {entries : Directory}
    (h : (entries.lookup name).isSome = true) : ensureFile name content entries = entries :=
  if_pos h

theorem lookup_removeAllExcept (keep file : Text) (entries : Directory) :
    (removeAllExcept keep entries).lookup file = if file = keep then entries.lookup file else none := by
  have h := PyDict.lookup_filter_key entries (fun name => decide (name = keep)) file
  simpa only [removeAllExcept, decide_eq_true_eq] using h

theorem removeValues_ok {component : Text} {entries entries' : Directory}
    (h : removeValues component entries = .ok entries') :
    entries' = entries.filter fun e => e.1 ≠ valuesYaml := by
  unfold removeValues at h
  split at h
  · cases h
  · cases h
    rfl

theorem lookup_removeValues {component : Text} {entries entries' : Directory}
    (h : removeValues component entries = .ok entries') (file : Text) :
    entries'.lookup file = if file = valuesYaml then none else entries.lookup file := by
  rw [removeValues_ok h]
  have hl := PyDict.lookup_filter_key entries (fun name => decide (name ≠ valuesYaml)) file
  rw [hl]
  by_cases hf : file = valuesYaml
  · simp [hf]
  · simp [hf]

theorem kustomization_ne_values : kustomizationYaml ≠ valuesYaml := by decide

/-- What is left of a component: each of the two files exactly if it is to be installed, and every
entry that is still wanted. -/
structure Installed (comp : ComponentConfig) (entries entries' : Directory) : Prop where
  values : (entries'.lookup valuesYaml).isSome = comp.installApp
  kustomization : (entries'.lookup kustomizationYaml).isSome = comp.installConfigs
  kept : ∀ file node, entries.lookup file = some node →
    (if file = valuesYaml then comp.installApp else comp.installConfigs) = true →
      entries'.lookup file = some node
  others : comp.installConfigs = false → ∀ e ∈ entries', e.1 = valuesYaml

theorem installed_of_componentEntries {comp : ComponentConfig} {entries entries' : Directory}
    (h : componentEntries comp entries = .ok entries') : Installed comp entries entries' := by
  obtain ⟨mid, hmid, h⟩ := Runs.bind_eq_ok h
  cases h
  unfold updateValues at hmid
  -- the first step settles the values and leaves the rest
  have hvalues : (mid.lookup valuesYaml).isSome = comp.installApp := by
    split_ifs at hmid with happ
    · cases hmid
      rw [lookup_ensureFile_isSome, happ]
    · rw [lookup_removeValues hmid, if_pos rfl, eq_false_of_ne_true happ]
      rfl
  have hrest {file : Text} (hf : file ≠ valuesYaml) : mid.lookup file = entries.lookup file := by
    split_ifs at hmid
    · cases hmid
      exact lookup_ensureFile_of_ne hf
    · rw [lookup_removeValues hmid, if_neg hf]
  have hkept {node : Node} (hn : entries.lookup valuesYaml = some node)
      (happ : comp.installApp = true) : mid.lookup valuesYaml = some node := by
    rw [if_pos happ] at hmid
    cases hmid
    exact lookup_ensureFile hn
  unfold updateConfigs
  split_ifs with hconfigs
  · refine ⟨?_, ?_, fun file node hn hw => ?_, fun hno => ?_⟩
    · rw [lookup_ensureFile_of_ne kustomization_ne_values.symm, hvalues]
    · rw [lookup_ensureFile_isSome, hconfigs]
    · refine lookup_ensureFile ?_
      by_cases hf : file = valuesYaml
      · subst hf
        exact hkept hn (by simpa using hw)
      · rw [hrest hf, hn]
    · rw [hconfigs] at hno
      cases hno
  · refine ⟨?_, ?_, fun file node hn hw => ?_, fun _ e he => ?_⟩
    · rw [lookup_removeAllExcept, if_pos rfl, hvalues]
    · rw [lookup_removeAllExcept, if_neg kustomization_ne_values,
        eq_false_of_ne_true hconfigs]
      rfl
    · by_cases hf : file = valuesYaml
      · subst hf
        rw [lookup_removeAllExcept, if_pos rfl]
        exact hkept hn (by simpa using hw)
      · rw [if_neg hf] at hw
        exact absurd hw hconfigs
    · exact of_decide_eq_true (List.mem_filter.mp he).2

/-- A component that was updated stays as it is. -/
theorem componentEntries_fixed {comp : ComponentConfig} {entries entries' : Directory}
    (h : Installed comp entries entries') : componentEntries comp entries' = .ok entries' := by
  have hfirst : updateValues comp entries' = .ok entries' := by
    unfold updateValues
    split_ifs with happ
    · rw [ensureFile_of_isSome (h.values.trans happ)]
    · have hnone : entries'.lookup valuesYaml = none := by
        rw [← Option.isNone_iff_eq_none, ← Option.not_isSome, h.values]
        simpa using happ
      unfold removeValues
      rw [hnone]
      refine congrArg Except.ok (List.filter_eq_self.mpr fun e he => ?_)
      have hne := List.lookup_eq_none_iff.mp hnone e he
      exact decide_eq_true fun heq => (bne_iff_ne.mp hne) heq.symm
  have hsecond : updateConfigs comp entries' = entries' := by
    unfold updateConfigs
    split_ifs with hconfigs
    · exact ensureFile_of_isSome (h.kustomization.trans hconfigs)
    · refine List.filter_eq_self.mpr fun e he => decide_eq_true ?_
      exact h.others (eq_false_of_ne_true hconfigs) e he
  unfold componentEntries
  rw [hfirst]
  exact congrArg Except.ok hsecond

/-! The whole update. -/

/-- The entries that the component gets, from what stands under its name. -/
def Gets (cluster : Directory) (comp : ComponentConfig) (entries' : Directory) : Prop :=
  ∃ entries, mkdirAll comp.name (cluster.lookup comp.name) = .ok entries ∧
    componentEntries comp entries = .ok entries'

theorem Gets.unique {cluster : Directory} {comp : ComponentConfig} {es es' : Directory}
    (h : Gets cluster comp es) (h' : Gets cluster comp es') : es = es' := by
  obtain ⟨entries, hm, hc⟩ := h
  obtain ⟨entries', hm', hc'⟩ := h'
  cases hm.symm.trans hm'
  exact Except.ok.inj (hc.symm.trans hc')

theorem updateComponent_ok_iff {cluster cluster' : Directory} {comp : ComponentConfig} :
    updateComponent cluster comp = .ok cluster' ↔
      ∃ es, Gets cluster comp es ∧ cluster' = PyDict.put comp.name (.dir es) cluster := by
  constructor
  · intro h
    obtain ⟨entries, hm, h⟩ := Runs.bind_eq_ok h
    obtain ⟨es, hc, h⟩ := Runs.bind_eq_ok h
    exact ⟨es, ⟨entries, hm, hc⟩, (Except.ok.inj h).symm⟩
  · rintro ⟨es, ⟨entries, hm, hc⟩, rfl⟩
    unfold updateComponent
    rw [hm]
    show (componentEntries comp entries >>= _) = _
    rw [hc]
    rfl

theorem gets_congr {cluster cluster' : Directory} {comp : ComponentConfig} {es : Directory}
    (h : cluster'.lookup comp.name = cluster.lookup comp.name) :
    Gets cluster' comp es ↔ Gets cluster comp es := by
  unfold Gets
  rw [h]

/-- The components are brought in one after the other, and none touches another. -/
theorem foldlM_updateComponent {comps : List ComponentConfig}
    (hnodup : (comps.map ComponentConfig.name).Nodup) {cluster cluster' : Directory}
    (h : comps.foldlM updateComponent cluster = .ok cluster') :
    (∀ comp ∈ comps, ∃ es, Gets cluster comp es ∧ cluster'.lookup comp.name = some (.dir es)) ∧
      (∀ name, name ∉ comps.map ComponentConfig.name → cluster'.lookup name = cluster.lookup name) ∧
      ((cluster.map Prod.fst).Nodup → (cluster'.map Prod.fst).Nodup) := by
  induction comps generalizing cluster with
  | nil =>
    cases h
    exact ⟨by simp, fun _ _ => rfl, id⟩
  | cons comp comps ih =>
    obtain ⟨hnew, hnodup⟩ := List.nodup_cons.mp hnodup
    rw [List.foldlM_cons] at h
    obtain ⟨mid, hmid, h⟩ := Runs.bind_eq_ok h
    obtain ⟨es, hes, rfl⟩ := updateComponent_ok_iff.mp hmid
    obtain ⟨hdone, hrest, hkeys⟩ := ih hnodup h
    refine ⟨fun c hc => ?_, fun name hname => ?_, fun hn => hkeys (PyDict.nodup_keys_put _ _ hn)⟩
    · rcases List.mem_cons.mp hc with rfl | hc
      · refine ⟨es, hes, ?_⟩
        rw [hrest _ hnew, PyDict.lookup_put_self]
      · obtain ⟨es', hes', hl⟩ := hdone c hc
        have hne : c.name ≠ comp.name := fun heq => hnew (heq ▸ List.mem_map_of_mem hc)
        exact ⟨es', (gets_congr (PyDict.lookup_put_of_ne _ _ hne)).mp hes', hl⟩
    · rw [List.map_cons, List.mem_cons, not_or] at hname
      rw [hrest name hname.2, PyDict.lookup_put_of_ne _ _ hname.1]

theorem exists_foldlM_updateComponent {comps : List ComponentConfig}
    (hnodup : (comps.map ComponentConfig.name).Nodup) {cluster : Directory}
    (h : ∀ comp ∈ comps, ∃ es, Gets cluster comp es) :
    ∃ cluster', comps.foldlM updateComponent cluster = .ok cluster' := by
  induction comps generalizing cluster with
  | nil => exact ⟨cluster, rfl⟩
  | cons comp comps ih =>
    obtain ⟨hnew, hnodup⟩ := List.nodup_cons.mp hnodup
    obtain ⟨es, hes⟩ := h comp List.mem_cons_self
    have hrest : ∀ c ∈ comps, ∃ es', Gets (PyDict.put comp.name (.dir es) cluster) c es' := by
      intro c hc
      obtain ⟨es', hes'⟩ := h c (List.mem_cons_of_mem comp hc)
      have hne : c.name ≠ comp.name := fun heq => hnew (heq ▸ List.mem_map_of_mem hc)
      exact ⟨es', (gets_congr (PyDict.lookup_put_of_ne _ _ hne)).mpr hes'⟩
    obtain ⟨cluster', hc⟩ := ih hnodup hrest
    refine ⟨cluster', ?_⟩
    rw [List.foldlM_cons, updateComponent_ok_iff.mpr ⟨es, hes, rfl⟩]
    exact hc

theorem lookup_removeDisabled {cluster : Directory} (hnames : (cluster.map Prod.fst).Nodup)
    (comps : List ComponentConfig) (name : Text) :
    (name ∈ comps.map ComponentConfig.name →
      (removeDisabled comps cluster).lookup name = cluster.lookup name) ∧
    (name ∉ comps.map ComponentConfig.name → (removeDisabled comps cluster).lookup name =
      (cluster.lookup name).filter fun n => !n.isDir) := by
  rw [removeDisabled, PyDict.lookup_filter hnames]
  dsimp only
  refine ⟨fun h => ?_, fun h => ?_⟩
  · obtain ⟨c, hc, heq⟩ := List.mem_map.mp h
    cases cluster.lookup name with
    | none => rfl
    | some n =>
      rw [Option.filter_some, if_pos]
      exact Bool.or_eq_true_iff.mpr (Or.inr (List.any_eq_true.mpr ⟨c, hc, decide_eq_true heq⟩))
  · refine congrArg (fun p => (cluster.lookup name).filter p) (funext fun n => ?_)
    rw [List.any_eq_false.mpr fun c hc hd => h (List.mem_map.mpr ⟨c, hc, of_decide_eq_true hd⟩),
      Bool.or_false]

/-- What an update has made of the entries of the cluster. -/
structure Updated (comps : List ComponentConfig) (cluster cluster' : Directory) : Prop where
  component : ∀ comp ∈ comps, ∃ es, Gets cluster comp es ∧
    cluster'.lookup comp.name = some (.dir es)
  rest : ∀ name, name ∉ comps.map ComponentConfig.name →
    cluster'.lookup name = (cluster.lookup name).filter fun n => !n.isDir
  names : (cluster'.map Prod.fst).Nodup

theorem updated_of_foldlM {comps : List ComponentConfig}
    (hnodup : (comps.map ComponentConfig.name).Nodup) {cluster cluster' : Directory}
    (hnames : (cluster.map Prod.fst).Nodup)
    (h : comps.foldlM updateComponent (removeDisabled comps cluster) = .ok cluster') :
    Updated comps cluster cluster' := by
  obtain ⟨hdone, hrest, hkeys⟩ := foldlM_updateComponent hnodup h
  refine ⟨fun comp hc => ?_, fun name hname => ?_, hkeys ?_⟩
  · obtain ⟨es, hes, hl⟩ := hdone comp hc
    have hsame := (lookup_removeDisabled hnames comps comp.name).1 (List.mem_map_of_mem hc)
    exact ⟨es, (gets_congr hsame).mp hes, hl⟩
  · rw [hrest name hname]
    exact (lookup_removeDisabled hnames comps name).2 hname
  · exact (List.filter_sublist.map Prod.fst).nodup hnames

theorem Updated.lookup_file {comps : List ComponentConfig} {cluster cluster' : Directory}
    (h : Updated comps cluster cluster') (name content : Text) :
    cluster'.lookup name = some (.file content) ↔ cluster.lookup name = some (.file content) := by
  by_cases hname : name ∈ comps.map ComponentConfig.name
  · -- neither before nor after a component is a file
    obtain ⟨comp, hc, rfl⟩ := List.mem_map.mp hname
    obtain ⟨es, ⟨entries, hm, -⟩, hl⟩ := h.component comp hc
    constructor
    · intro hf
      cases hl.symm.trans hf
    · intro hf
      rw [hf] at hm
      cases hm
  · rw [h.rest name hname]
    cases cluster.lookup name with
    | none => simp
    | some n =>
      cases n with
      | file c => simp [Node.isDir]
      | dir es => simp [Node.isDir]

theorem Updated.lookup_dir {comps : List ComponentConfig} {cluster cluster' : Directory}
    (h : Updated comps cluster cluster') {name : Text} {es : Directory}
    (hes : cluster'.lookup name = some (.dir es)) : ∃ comp ∈ comps, comp.name = name := by
  by_contra hno
  have hname : name ∉ comps.map ComponentConfig.name := by
    intro hmem
    obtain ⟨comp, hc, heq⟩ := List.mem_map.mp hmem
    exact hno ⟨comp, hc, heq⟩
  rw [h.rest name hname] at hes
  obtain ⟨-, hfilter⟩ := Option.filter_eq_some_iff.mp hes
  cases hfilter

/-- The entries of a component after an update. -/
theorem Updated.installed {comps : List ComponentConfig} {cluster cluster' : Directory}
    (h : Updated comps cluster cluster') {comp : ComponentConfig} (hc : comp ∈ comps) :
    ∃ entries es, mkdirAll comp.name (cluster.lookup comp.name) = .ok entries ∧
      cluster'.lookup comp.name = some (.dir es) ∧ Installed comp entries es := by
  obtain ⟨es, ⟨entries, hm, hes⟩, hl⟩ := h.component comp hc
  exact ⟨entries, es, hm, hl, installed_of_componentEntries hes⟩

/-- An updated cluster is a fixed point of the update. -/
theorem Updated.fixed {comps : List ComponentConfig} {cluster cluster' : Directory}
    (h : Updated comps cluster cluster') :
    comps.foldlM updateComponent (removeDisabled comps cluster') = .ok cluster' := by
  have hkept : removeDisabled comps cluster' = cluster' := by
    refine List.filter_eq_self.mpr fun e he => ?_
    obtain ⟨name, node⟩ := e
    cases node with
    | file content => rfl
    | dir es =>
      obtain ⟨comp, hc, heq⟩ := h.lookup_dir (PyDict.lookup_of_mem h.names he)
      simp only [Node.isDir, Bool.not_true, Bool.false_or]
      exact List.any_eq_true.mpr ⟨comp, hc, decide_eq_true heq⟩
  have hsame : ∀ comp ∈ comps, updateComponent cluster' comp = .ok cluster' := by
    intro comp hc
    obtain ⟨entries, es, -, hl, hi⟩ := h.installed hc
    refine updateComponent_ok_iff.mpr ⟨es, ⟨es, ?_, componentEntries_fixed hi⟩,
      (PyDict.put_of_lookup hl).symm⟩
    rw [hl]
    rfl
  rw [hkept]
  have hrun (cs : List ComponentConfig) (hcs : ∀ c ∈ cs, updateComponent cluster' c = .ok cluster') :
      cs.foldlM updateComponent cluster' = .ok cluster' := by
    induction cs with
    | nil => rfl
    | cons c cs ih =>
      rw [List.foldlM_cons, hcs c List.mem_cons_self]
      exact ih fun d hd => hcs d (List.mem_cons_of_mem c hd)
  exact hrun comps hsame

/-! Two orders give the same components. -/

theorem Collects.mem {entries : YamlMap} {seen seen' : List ComponentConfig}
    (h : Collects entries seen) (h' : Collects entries seen') {c : ComponentConfig} (hc : c ∈ seen) :
    c ∈ seen' := by
  have hname := (h'.name c.name).mpr ((h.name c.name).mp (List.mem_map_of_mem hc))
  obtain ⟨c', hc', heq⟩ := List.mem_map.mp hname
  have happ : c'.installApp = c.installApp := by
    rw [Bool.eq_iff_iff, h'.app c' hc', h.app c hc, heq]
  have hconfigs : c'.installConfigs = c.installConfigs := by
    rw [Bool.eq_iff_iff, h'.configs c' hc', h.configs c hc, heq]
  have hsame : c' = c := by
    cases c
    cases c'
    simp_all
  exact hsame ▸ hc'

theorem Updated.congr {comps comps' : List ComponentConfig} {cluster cluster' : Directory}
    (h : Updated comps cluster cluster') (hmem : ∀ c, c ∈ comps' ↔ c ∈ comps) :
    Updated comps' cluster cluster' := by
  refine ⟨fun comp hc => h.component comp ((hmem comp).mp hc), fun name hname => ?_, h.names⟩
  refine h.rest name fun hn => hname ?_
  obtain ⟨c, hc, heq⟩ := List.mem_map.mp hn
  exact List.mem_map.mpr ⟨c, (hmem c).mpr hc, heq⟩

/-- What stands under a name after an update is decided by the components and what stood there. -/
theorem Updated.lookup_eq {comps : List ComponentConfig} {cluster c₁ c₂ : Directory}
    (h₁ : Updated comps cluster c₁) (h₂ : Updated comps cluster c₂) (name : Text) :
    c₁.lookup name = c₂.lookup name := by
  by_cases hname : name ∈ comps.map ComponentConfig.name
  · obtain ⟨comp, hc, rfl⟩ := List.mem_map.mp hname
    obtain ⟨es₁, hg₁, hl₁⟩ := h₁.component comp hc
    obtain ⟨es₂, hg₂, hl₂⟩ := h₂.component comp hc
    rw [hl₁, hl₂, hg₁.unique hg₂]
  · rw [h₁.rest name hname, h₂.rest name hname]

def IsFileName (name : Text) : Prop :=
  name ≠ [] ∧ '/' ∉ name ∧ name ≠ ".".toList ∧ name ≠ "..".toList

/-- A value of `deploy.yaml` whose component keys are file names, so that the directory of a
component is the entry of that name. -/
structure DeployYaml where
  config : YamlMap
  fileNames : ∀ key m, (key, Yaml.map m) ∈ allEntries config → key ≠ enabledKey → IsFileName key

/-- The outcome of an update: the directories are the enabled components, each with the files that
some section installs, what is still wanted has kept its content, and the files beside the
components are as before. -/
structure Outcome (deploy : DeployYaml) (cluster cluster' : Directory) : Prop where
  directories : ∀ name, (∃ es, cluster'.lookup name = some (.dir es)) ↔
    Wanted anyOption (allEntries deploy.config) name
  values : ∀ name es, cluster'.lookup name = some (.dir es) →
    ((es.lookup valuesYaml).isSome ↔ Wanted installApp (allEntries deploy.config) name)
  kustomization : ∀ name es, cluster'.lookup name = some (.dir es) →
    ((es.lookup kustomizationYaml).isSome ↔ Wanted installConfigs (allEntries deploy.config) name)
  kept : ∀ name es file node, cluster.lookup name = some (.dir es) → es.lookup file = some node →
    Wanted anyOption (allEntries deploy.config) name →
    Wanted (if file = valuesYaml then installApp else installConfigs)
      (allEntries deploy.config) name →
    ∃ es', cluster'.lookup name = some (.dir es') ∧ es'.lookup file = some node
  files : ∀ name content,
    cluster'.lookup name = some (.file content) ↔ cluster.lookup name = some (.file content)

theorem Updated.outcome {deploy : DeployYaml} {comps : List ComponentConfig}
    {cluster cluster' : Directory} (h : Updated comps cluster cluster')
    (hc : Collects (allEntries deploy.config) comps) : Outcome deploy cluster cluster' := by
  have hdir {name : Text} {es : Directory} (hes : cluster'.lookup name = some (.dir es)) :
      ∃ comp ∈ comps, comp.name = name ∧ ∃ entries, Installed comp entries es := by
    obtain ⟨comp, hcomp, heq⟩ := h.lookup_dir hes
    obtain ⟨entries, es', -, hl, hi⟩ := h.installed hcomp
    rw [heq, hes] at hl
    cases hl
    exact ⟨comp, hcomp, heq, entries, hi⟩
  refine ⟨fun name => ?_, fun name es hes => ?_, fun name es hes => ?_, ?_, h.lookup_file⟩
  · rw [← hc.name, List.mem_map]
    constructor
    · rintro ⟨es, hes⟩
      exact h.lookup_dir hes
    · rintro ⟨comp, hcomp, rfl⟩
      obtain ⟨es, -, hl⟩ := h.component comp hcomp
      exact ⟨es, hl⟩
  · obtain ⟨comp, hcomp, rfl, entries, hi⟩ := hdir hes
    rw [hi.values]
    exact hc.app comp hcomp
  · obtain ⟨comp, hcomp, rfl, entries, hi⟩ := hdir hes
    rw [hi.kustomization]
    exact hc.configs comp hcomp
  · intro name es file node hes hnode henabled hwanted
    obtain ⟨comp, hcomp, rfl⟩ := List.mem_map.mp ((hc.name name).mpr henabled)
    obtain ⟨entries, es', hm, hl, hi⟩ := h.installed hcomp
    rw [hes] at hm
    cases hm
    refine ⟨es', hl, hi.kept file node hnode ?_⟩
    split_ifs at hwanted ⊢
    · exact (hc.app comp hcomp).mpr hwanted
    · exact (hc.configs comp hcomp).mpr hwanted

theorem Updated.loadDeployConfig {unmarshal : Text → Option YamlMap} {config : YamlMap}
    {comps : List ComponentConfig} {cluster cluster' : Directory}
    (h : Updated comps cluster cluster')
    (hload : loadDeployConfig unmarshal cluster = .ok config) :
    Deploy.loadDeployConfig unmarshal cluster' = .ok config := by
  unfold Deploy.loadDeployConfig at hload ⊢
  split at hload
  · next data hdata =>
    rw [(h.lookup_file _ _).mpr hdata]
    exact hload
  · cases hload

/-- No file of an updated component is missing. -/
theorem Updated.missingFiles {comps : List ComponentConfig} {cluster cluster' : Directory}
    (h : Updated comps cluster cluster') {comp : ComponentConfig} (hc : comp ∈ comps) :
    Deploy.missingFiles cluster' comp = [] := by
  obtain ⟨entries, es, -, hl, hi⟩ := h.installed hc
  have hfile (file : Text) : isNotExist cluster' comp.name file = (es.lookup file).isNone := by
    rw [isNotExist, hl]
  unfold Deploy.missingFiles
  rw [hfile, hfile, ← hi.values, ← hi.kustomization, ← Option.not_isSome, ← Option.not_isSome,
    Bool.and_not_self, Bool.and_not_self]
  rfl

theorem runDeployUpdate_eq {unmarshal : Text → Option YamlMap} {config : YamlMap}
    {cluster : Directory} (hload : loadDeployConfig unmarshal cluster = .ok config) (o : MapOrder) :
    runDeployUpdate unmarshal o cluster = (enabledComponents o config).foldlM updateComponent
      (removeDisabled (enabledComponents o config) cluster) := by
  rw [runDeployUpdate, hload]
  rfl

/-- An update that succeeds brings the cluster to its `deploy.yaml`. Then the check succeeds, a
further update changes nothing, and an update with the maps in another order gives the same. -/
theorem deploy_update_fixed_point (unmarshal : Text → Option YamlMap) (deploy : DeployYaml)
    (o : MapOrder) {cluster cluster' : Directory} (hnames : (cluster.map Prod.fst).Nodup)
    (hload : loadDeployConfig unmarshal cluster = .ok deploy.config)
    (h : runDeployUpdate unmarshal o cluster = .ok cluster') :
    Outcome deploy cluster cluster' ∧
    ∀ o', runDeployCheck unmarshal o' cluster' = .ok () ∧
      runDeployUpdate unmarshal o' cluster' = .ok cluster' ∧
      ∃ cluster'', runDeployUpdate unmarshal o' cluster = .ok cluster'' ∧
        ∀ name, cluster''.lookup name = cluster'.lookup name := by
  have hcollects (o : MapOrder) := collects_enabledComponents o deploy.config
  rw [runDeployUpdate_eq hload] at h
  have hup := updated_of_foldlM (hcollects o).nodup hnames h
  refine ⟨hup.outcome (hcollects o), fun o' => ?_⟩
  have hmem (c : ComponentConfig) :
      c ∈ enabledComponents o' deploy.config ↔ c ∈ enabledComponents o deploy.config :=
    ⟨fun hc => (hcollects o').mem (hcollects o) hc, fun hc => (hcollects o).mem (hcollects o') hc⟩
  have hup' := hup.congr hmem
  have hload' := hup.loadDeployConfig hload
  refine ⟨?_, ?_, ?_⟩
  · have hmissing : (enabledComponents o' deploy.config).flatMap (missingFiles cluster') = [] :=
      List.flatMap_eq_nil_iff.mpr fun comp hc => hup'.missingFiles hc
    rw [runDeployCheck, hload']
    show (if ((enabledComponents o' deploy.config).flatMap (missingFiles cluster')).length > 0
      then _ else _) = _
    rw [hmissing]
    rfl
  · rw [runDeployUpdate_eq hload']
    exact hup'.fixed
  · have hgets : ∀ comp ∈ enabledComponents o' deploy.config, ∃ es,
        Gets (removeDisabled (enabledComponents o' deploy.config) cluster) comp es := by
      intro comp hc
      obtain ⟨es, hes, -⟩ := hup'.component comp hc
      have hsame := (lookup_removeDisabled hnames (enabledComponents o' deploy.config) comp.name).1
        (List.mem_map_of_mem hc)
      exact ⟨es, (gets_congr hsame).mpr hes⟩
    obtain ⟨cluster'', hc⟩ := exists_foldlM_updateComponent (hcollects o').nodup hgets
    refine ⟨cluster'', ?_, fun name => ?_⟩
    · rw [runDeployUpdate_eq hload]
      exact hc
    · exact (updated_of_foldlM (hcollects o').nodup hnames hc).lookup_eq hup' name

/-! A component under both spellings, with an old one beside it. -/

def demoDeploy : DeployYaml where
  config := [("site".toList, .map [(enabledKey, .bool true),
    ("a_b".toList, .map [("installApp".toList, .bool true)]),
    ("a-b".toList, .map [("installConfigs".toList, .bool true)])])]
  fileNames := by
    intro key m hm hkey
    simp only [allEntries, sections, List.flatMap_cons, List.flatMap_nil, List.append_nil] at hm
    rcases List.mem_cons.mp (List.mem_append.mp hm |>.resolve_left List.not_mem_nil) with h | hm
    · cases h
    · rcases List.mem_cons.mp hm with h | hm
      · cases h
        exact ⟨by decide, by decide, by decide, by decide⟩
      · cases List.mem_singleton.mp hm
        exact ⟨by decide, by decide, by decide, by decide⟩

def demoCluster : Directory :=
  [(deployYaml, .file []), ("old".toList, .dir []), ("a-b".toList, .dir [(valuesYaml, .file [])])]

theorem deploy_update_fixed_point_demo :
    ∃ cluster', runDeployUpdate (fun _ => some demoDeploy.config) keptOrder demoCluster =
      .ok cluster' ∧ Outcome demoDeploy demoCluster cluster' ∧
        cluster'.lookup "a-b".toList = some (.dir [(valuesYaml, .file []),
          (kustomizationYaml, .file kustomizationContent)]) :=
  ⟨_, rfl, (deploy_update_fixed_point (fun _ => some demoDeploy.config) demoDeploy keptOrder
    (by decide) rfl rfl).1, rfl⟩

end Understack.Deploy
