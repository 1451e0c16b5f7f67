import Mathlib.Data.List.Perm.Basic
import Understack.Lib.Json

/-! `cmd/deploy/config.go` of understackctl: the components that a `deploy.yaml` enables, merged over
its two sections and over the two spellings of a name. Maps are ranged over in any order. -/
namespace Understack.Deploy
open PyText

/-- A decoded value, as far as the code tells its type. -/
inductive Yaml where
  | bool (b : Bool)
  | map (entries : List (Text × Yaml))
  | other

abbrev YamlMap := List (Text × Yaml)

structure ComponentConfig where
  name : Text
  installApp : Bool
  installConfigs : Bool
  deriving DecidableEq

/-- The orders in which `range` goes through the map of a section. -/
structure MapOrder where
  range : Text → YamlMap → YamlMap
  perm : ∀ s m, (range s m).Perm m

/-- Maps ranged over in the order of their entries. -/
def keptOrder : MapOrder := ⟨fun _ m => m, fun _ _ => .refl _⟩

def boolOption (m : YamlMap) (key : Text) (defaultVal : Bool) : Bool :=
  match m.lookup key with
  | some (.bool v) => v
  | _ => defaultVal

/-- `strings.ReplaceAll(key, "_", "-")`. -/
def componentName (key : Text) : Text := key.map fun c => if c = '_' then '-' else c

def enabledKey : Text := "enabled".toList

def compEnabled (m : YamlMap) : Bool := boolOption m enabledKey false

def installApp (m : YamlMap) : Bool := boolOption m "installApp".toList (compEnabled m)

def installConfigs (m : YamlMap) : Bool := boolOption m "installConfigs".toList (compEnabled m)

/-- A component joins the one of its name, or is appended. -/
def addComponent (seen : List ComponentConfig) (comp : ComponentConfig) : List ComponentConfig :=
  if seen.any fun c => c.name = comp.name then
    seen.map fun c =>
      if c.name = comp.name then
        ⟨c.name, c.installApp || comp.installApp, c.installConfigs || comp.installConfigs⟩
      else c
  else seen ++ [comp]

/-- The turn of one entry of a section. -/
def addEntry (seen : List ComponentConfig) (e : Text × Yaml) : List ComponentConfig :=
  if e.1 = enabledKey then seen
  else
    match e.2 with
    | .map m =>
      if !compEnabled m && !installApp m && !installConfigs m then seen
      else addComponent seen ⟨componentName e.1, installApp m, installConfigs m⟩
    | _ => seen

/-- The entries that a section contributes: none unless it is an enabled map. -/
def sectionEntries (config : YamlMap) (sectionName : Text) : YamlMap :=
  match config.lookup sectionName with
  | some (.map m) =>
    match m.lookup enabledKey with
    | some (.bool true) => m
    | _ => []
  | _ => []

def sections : List Text := ["global".toList, "site".toList]

def enabledComponents (o : MapOrder) (config : YamlMap) : List ComponentConfig :=
  sections.foldl (fun seen s => (o.range s (sectionEntries config s)).foldl addEntry seen) []

/-! What is enabled, said for a name. -/

/-- Some map under a spelling of the name has the option. -/
def Wanted (option : YamlMap → Bool) (entries : YamlMap) (name : Text) : Prop :=
  ∃ key m, (key, Yaml.map m) ∈ entries ∧ key ≠ enabledKey ∧ componentName key = name ∧
    option m = true

def anyOption (m : YamlMap) : Bool := compEnabled m || installApp m || installConfigs m

def allEntries (config : YamlMap) : YamlMap := sections.flatMap (sectionEntries config)

/-- The components of a list of entries: one for each name with some option, and with what is wanted
under its name. -/
structure Collects (entries : YamlMap) (seen : List ComponentConfig) : Prop where
  nodup : (seen.map ComponentConfig.name).Nodup
  name : ∀ name, name ∈ seen.map ComponentConfig.name ↔ Wanted anyOption entries name
  app : ∀ c ∈ seen, c.installApp = true ↔ Wanted installApp entries c.name
  configs : ∀ c ∈ seen, c.installConfigs = true ↔ Wanted installConfigs entries c.name

theorem wanted_append {option : YamlMap → Bool} {entries : YamlMap} {e : Text × Yaml} {name : Text} :
    Wanted option (entries ++ [e]) name ↔ Wanted option entries name ∨ Wanted option [e] name := by
  unfold Wanted
  constructor
  · rintro ⟨key, m, hm, h⟩
    rcases List.mem_append.mp hm with hm | hm
    · exact Or.inl ⟨key, m, hm, h⟩
    · exact Or.inr ⟨key, m, hm, h⟩
  · rintro (⟨key, m, hm, h⟩ | ⟨key, m, hm, h⟩)
    · exact ⟨key, m, List.mem_append_left _ hm, h⟩
    · exact ⟨key, m, List.mem_append_right _ hm, h⟩

theorem wanted_singleton {option : YamlMap → Bool} {key : Text} {m : YamlMap} {name : Text}
    (hkey : key ≠ enabledKey) :
    Wanted option [(key, .map m)] name ↔ componentName key = name ∧ option m = true := by
  constructor
  · rintro ⟨key', m', hm, -, h⟩
    cases List.mem_singleton.mp hm
    exact h
  · exact fun h => ⟨key, m, List.mem_singleton_self _, hkey, h⟩

theorem Wanted.any {option : YamlMap → Bool} {entries : YamlMap} {name : Text}
    (h : Wanted option entries name) (hopt : ∀ m, option m = true → anyOption m = true) :
    Wanted anyOption entries name := by
  obtain ⟨key, m, hm, hkey, hname, ho⟩ := h
  exact ⟨key, m, hm, hkey, hname, hopt m ho⟩

theorem anyOption_of_app (m : YamlMap) (h : installApp m = true) : anyOption m = true := by
  simp [anyOption, h]

theorem anyOption_of_configs (m : YamlMap) (h : installConfigs m = true) : anyOption m = true := by
  simp [anyOption, h]

theorem map_name_merge (seen : List ComponentConfig) (comp : ComponentConfig) :
    (seen.map fun c => if c.name = comp.name then
      (⟨c.name, c.installApp || comp.installApp, c.installConfigs || comp.installConfigs⟩ :
        ComponentConfig) else c).map ComponentConfig.name = seen.map ComponentConfig.name := by
  rw [List.map_map]
  refine List.map_congr_left fun c _ => ?_
  rw [Function.comp_apply]
  split_ifs
  · rfl
  · rfl

theorem names_addComponent (seen : List ComponentConfig) (comp : ComponentConfig) (name : Text) :
    name ∈ (addComponent seen comp).map ComponentConfig.name ↔
      name = comp.name ∨ name ∈ seen.map ComponentConfig.name := by
  unfold addComponent
  split_ifs with h
  · rw [map_name_merge]
    obtain ⟨c, hc, hname⟩ := List.any_eq_true.mp h
    have hmem : comp.name ∈ seen.map ComponentConfig.name :=
      List.mem_map.mpr ⟨c, hc, of_decide_eq_true hname⟩
    exact ⟨Or.inr, fun h => h.elim (fun h => h ▸ hmem) id⟩
  · rw [List.map_append, List.mem_append, List.map_singleton, List.mem_singleton, or_comm]

theorem nodup_addComponent {seen : List ComponentConfig} (comp : ComponentConfig)
    (h : (seen.map ComponentConfig.name).Nodup) :
    ((addComponent seen comp).map ComponentConfig.name).Nodup := by
  unfold addComponent
  split_ifs with hany
  · rw [map_name_merge]
    exact h
  · rw [List.map_append, List.map_singleton]
    refine List.nodup_append.mpr ⟨h, List.nodup_singleton _, ?_⟩
    rintro name hname _ hcomp rfl
    rw [List.mem_singleton.mp hcomp] at hname
    obtain ⟨c, hc, heq⟩ := List.mem_map.mp hname
    exact hany (List.any_eq_true.mpr ⟨c, hc, decide_eq_true heq⟩)

/-- A component after an addition is an old one of another name, or of this name the old one, if
any, with what is added. -/
theorem mem_addComponent {seen : List ComponentConfig} {comp c : ComponentConfig}
    (hc : c ∈ addComponent seen comp) :
    (c ∈ seen ∧ c.name ≠ comp.name) ∨
      (c = comp ∧ comp.name ∉ seen.map ComponentConfig.name) ∨
      ∃ old ∈ seen, old.name = comp.name ∧ c = ⟨old.name, old.installApp || comp.installApp,
        old.installConfigs || comp.installConfigs⟩ := by
  unfold addComponent at hc
  split_ifs at hc with hany
  · obtain ⟨old, hold, rfl⟩ := List.mem_map.mp hc
    split_ifs with hname
    · exact Or.inr (Or.inr ⟨old, hold, hname, rfl⟩)
    · exact Or.inl ⟨hold, hname⟩
  · have hnew : comp.name ∉ seen.map ComponentConfig.name := by
      intro h
      obtain ⟨old, hold, heq⟩ := List.mem_map.mp h
      exact hany (List.any_eq_true.mpr ⟨old, hold, decide_eq_true heq⟩)
    rcases List.mem_append.mp hc with hold | hcomp
    · refine Or.inl ⟨hold, fun heq => hnew (List.mem_map.mpr ⟨c, hold, heq⟩)⟩
    · exact Or.inr (Or.inl ⟨List.mem_singleton.mp hcomp, hnew⟩)

/-- One option of the components after an addition. -/
theorem option_addComponent {entries : YamlMap} {seen : List ComponentConfig} {key : Text}
    {m : YamlMap} {option : YamlMap → Bool} {read : ComponentConfig → Bool} {comp : ComponentConfig}
    (hkey : key ≠ enabledKey) (hname : comp.name = componentName key)
    (hread : read comp = option m)
    (hmerge : ∀ old : ComponentConfig, read ⟨old.name, old.installApp || comp.installApp,
      old.installConfigs || comp.installConfigs⟩ = (read old || read comp))
    (hopt : ∀ m, option m = true → anyOption m = true) (h : Collects entries seen)
    (hold : ∀ c ∈ seen, read c = true ↔ Wanted option entries c.name) :
    ∀ c ∈ addComponent seen comp,
      read c = true ↔ Wanted option (entries ++ [(key, .map m)]) c.name := by
  intro c hc
  rw [wanted_append, wanted_singleton hkey, ← hname, ← hread]
  rcases mem_addComponent hc with ⟨hc, hne⟩ | ⟨rfl, hnew⟩ | ⟨old, hmem, heq, rfl⟩
  · rw [hold c hc]
    exact ⟨Or.inl, fun h => h.resolve_right fun h => hne h.1.symm⟩
  · have hnot : ¬ Wanted option entries c.name := fun hw => hnew ((h.name _).mpr (hw.any hopt))
    exact ⟨fun hr => Or.inr ⟨rfl, hr⟩, fun h => (h.resolve_left hnot).2⟩
  · rw [hmerge, Bool.or_eq_true, hold old hmem]
    exact or_congr_right ⟨fun hr => ⟨heq.symm, hr⟩, fun h => h.2⟩

theorem Collects.addEntry {entries : YamlMap} {seen : List ComponentConfig}
    (h : Collects entries seen) (e : Text × Yaml) : Collects (entries ++ [e]) (addEntry seen e) := by
  -- an entry without a component changes nothing
  have hskip (hnone : ∀ option name, (∀ m, option m = true → anyOption m = true) →
      ¬ Wanted option [e] name) : Collects (entries ++ [e]) seen := by
    have hsame {option : YamlMap → Bool} {name : Text}
        (hopt : ∀ m, option m = true → anyOption m = true) :
        Wanted option (entries ++ [e]) name ↔ Wanted option entries name := by
      rw [wanted_append, or_iff_left (hnone option name hopt)]
    refine ⟨h.nodup, fun name => ?_, fun c hc => ?_, fun c hc => ?_⟩
    · rw [hsame fun _ ho => ho]
      exact h.name name
    · rw [hsame anyOption_of_app]
      exact h.app c hc
    · rw [hsame anyOption_of_configs]
      exact h.configs c hc
  obtain ⟨key, v⟩ := e
  unfold Deploy.addEntry
  split_ifs with hkey
  · refine hskip fun option name hopt => ?_
    rintro ⟨key', m, hm, hkey', -⟩
    cases List.mem_singleton.mp hm
    exact hkey' hkey
  · cases v with
    | bool b =>
      refine hskip fun option name hopt => ?_
      rintro ⟨key', m, hm, -⟩
      cases List.mem_singleton.mp hm
    | other =>
      refine hskip fun option name hopt => ?_
      rintro ⟨key', m, hm, -⟩
      cases List.mem_singleton.mp hm
    | map m =>
      dsimp only
      split_ifs with hoff
      · refine hskip fun option name hopt => ?_
        rw [wanted_singleton hkey]
        rintro ⟨-, ho⟩
        have hany := hopt m ho
        simp only [Bool.and_eq_true, Bool.not_eq_true'] at hoff
        simp [anyOption, hoff] at hany
      · have hany : anyOption m = true := by
          by_contra hno
          exact hoff (by simpa [anyOption, and_assoc] using hno)
        refine ⟨nodup_addComponent _ h.nodup, fun name => ?_,
          option_addComponent hkey rfl rfl (fun _ => rfl) anyOption_of_app h h.app,
          option_addComponent hkey rfl rfl (fun _ => rfl) anyOption_of_configs h h.configs⟩
        rw [names_addComponent, wanted_append, wanted_singleton hkey, h.name, or_comm]
        exact or_congr_right ⟨fun hn => ⟨hn.symm, hany⟩, fun hn => hn.1.symm⟩

theorem Collects.foldl {entries : YamlMap} {seen : List ComponentConfig}
    (h : Collects entries seen) (es : YamlMap) :
    Collects (entries ++ es) (es.foldl Deploy.addEntry seen) := by
  induction es generalizing entries seen with
  | nil => simpa using h
  | cons e es ih =>
    have hrest := ih (h.addEntry e)
    rw [List.append_assoc] at hrest
    exact hrest

theorem Wanted.of_mem {option : YamlMap → Bool} {entries entries' : YamlMap} {name : Text}
    (h : Wanted option entries name) (hmem : ∀ e ∈ entries, e ∈ entries') :
    Wanted option entries' name := by
  obtain ⟨key, m, hm, hrest⟩ := h
  exact ⟨key, m, hmem _ hm, hrest⟩

/-- The components of a config are those of its entries, whatever the order of the maps. -/
theorem collects_enabledComponents (o : MapOrder) (config : YamlMap) :
    Collects (allEntries config) (enabledComponents o config) := by
  have hranged : Collects (sections.flatMap fun s => o.range s (sectionEntries config s))
      (enabledComponents o config) := by
    have hempty : Collects [] [] := by
      refine ⟨List.nodup_nil, fun name => ?_, by simp, by simp⟩
      simp [Wanted]
    have hglobal := hempty.foldl (o.range "global".toList (sectionEntries config "global".toList))
    have hsite := hglobal.foldl (o.range "site".toList (sectionEntries config "site".toList))
    simpa [sections, enabledComponents] using hsite
  have hmem (e : Text × Yaml) : e ∈ (sections.flatMap fun s => o.range s (sectionEntries config s)) ↔
      e ∈ allEntries config := by
    simp only [allEntries, List.mem_flatMap, (o.perm _ _).mem_iff]
  have hsame {option : YamlMap → Bool} {name : Text} :
      Wanted option (sections.flatMap fun s => o.range s (sectionEntries config s)) name ↔
        Wanted option (allEntries config) name :=
    ⟨fun h => h.of_mem fun e he => (hmem e).mp he, fun h => h.of_mem fun e he => (hmem e).mpr he⟩
  exact ⟨hranged.nodup, fun name => (hranged.name name).trans hsame,
    fun c hc => (hranged.app c hc).trans hsame, fun c hc => (hranged.configs c hc).trans hsame⟩

end Understack.Deploy
