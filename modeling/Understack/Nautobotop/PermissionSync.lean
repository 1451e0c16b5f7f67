import Understack.Lib.Json
import Understack.Lib.Runs

/-! `internal/nautobot/sync/admin/permissionGroup.go` with the services it calls: permissions and the
groups that they are granted to. Every call succeeds. -/
namespace Understack.Nautobotop.Permissions
open PyText Json

/-- A declared permission. -/
structure Permission where
  name : Text
  description : Text
  enabled : Option Bool
  canView : Bool
  canAdd : Bool
  canChange : Bool
  canDelete : Bool
  additionalActions : List Text
  objectTypes : List Text
  groups : List Text
  constraints : Text

def Permission.buildActions (p : Permission) : List Text :=
  (if p.canView then ["view".toList] else []) ++ (if p.canAdd then ["add".toList] else []) ++
    (if p.canChange then ["change".toList] else []) ++
    (if p.canDelete then ["delete".toList] else []) ++ p.additionalActions

def Permission.isEnabled (p : Permission) : Bool := p.enabled.getD true

variable {F : Type}

/-- A permission in Nautobot; its groups by id. -/
structure ObjectPermission (F : Type) where
  id : ℕ
  name : Text
  description : Text
  enabled : Bool
  actions : List Text
  objectTypes : List Text
  constraints : Option (Value F)
  groups : List ℕ

structure Nautobot (F : Type) where
  groups : List (ℕ × Text)
  permissions : List (ObjectPermission F)

/-- What the client has logged as errors, under a key each, and the report that it keeps of them. -/
structure Reports where
  log : List (Text × Text)
  report : List (Text × List Text)

def maxReportLinesPerKey : ℕ := 20

/-- `NautobotClient.AddReport`: every line is logged, and the first ones of each key are kept. -/
def Reports.addReport (key : Text) (line : List Text) (r : Reports) : Reports :=
  let combined := PyText.join ' ' line
  let lines := (r.report.lookup key).getD []
  { log := r.log ++ [(key, combined)]
    report :=
      if maxReportLinesPerKey ≤ lines.length then
        if lines.length = maxReportLinesPerKey then
          PyDict.put key (lines ++ ["further errors suppressed, see operator logs".toList]) r.report
        else r.report
      else PyDict.put key (lines ++ [combined]) r.report }

/-- The line is logged under the key. -/
def Reports.Logged (r : Reports) (key : Text) (line : List Text) : Prop :=
  (key, PyText.join ' ' line) ∈ r.log

/-- What the code takes from outside: the decoders, with the texts of their errors, and the ids that
Nautobot gives out. -/
structure Env (F : Type) where
  unmarshalYaml : Text → Except Text (List Permission)
  unmarshalJson : Text → Except Text (Value F)
  newGroupId : List (ℕ × Text) → ℕ
  newGroupId_fresh : ∀ rows r, r ∈ rows → r.1 ≠ newGroupId rows
  newPermissionId : List (ObjectPermission F) → ℕ
  newPermissionId_fresh : ∀ rows r, r ∈ rows → r.id ≠ newPermissionId rows

namespace Env

variable (env : Env F)

/-- `GroupService.GetOrCreate`: the id of the group, and the groups then. -/
def getOrCreate (name : Text) (groups : List (ℕ × Text)) : ℕ × List (ℕ × Text) :=
  match groups.find? fun g => g.2 = name with
  | some g => (g.1, groups)
  | none => (env.newGroupId groups, groups ++ [(env.newGroupId groups, name)])

/-- The groups in Nautobot with the ids that the run has looked up. -/
structure Lookups where
  groups : List (ℕ × Text)
  groupNameToID : List (Text × ℕ)

def resolveGroupID (name : Text) (l : Lookups) : ℕ × Lookups :=
  match l.groupNameToID.lookup name with
  | some id => (id, l)
  | none =>
    let (id, groups) := env.getOrCreate name l.groups
    (id, ⟨groups, PyDict.put name id l.groupNameToID⟩)

def resolveGroupIDs : List Text → Lookups → List ℕ × Lookups
  | [], l => ([], l)
  | name :: names, l =>
    let (id, l) := env.resolveGroupID name l
    let (ids, l) := resolveGroupIDs names l
    (id :: ids, l)

/-- The decoded constraints; `nil` also where the text is no JSON. -/
def parseConstraints (perm : Permission) : Option (Value F) :=
  if perm.constraints = [] then none
  else
    match env.unmarshalJson perm.constraints with
    | .ok .null => none
    | .ok v => some v
    | .error _ => none

def reportConstraints (perm : Permission) (r : Reports) : Reports :=
  if perm.constraints = [] then r
  else
    match env.unmarshalJson perm.constraints with
    | .ok _ => r
    | .error err =>
      r.addReport "constraintsInvalid".toList
        ["invalid JSON constraints".toList, "name".toList, perm.name, "error".toList, err]

def getByName (name : Text) (permissions : List (ObjectPermission F)) :
    Option (ObjectPermission F) :=
  permissions.find? fun p => p.name = name

/-- The full update: a description is sent only if there is one, all else always. -/
def update (perm : Permission) (groupIDs : List ℕ) (old : ObjectPermission F) :
    ObjectPermission F where
  id := old.id
  name := perm.name
  description := if perm.description = [] then old.description else perm.description
  enabled := perm.isEnabled
  actions := perm.buildActions
  objectTypes := perm.objectTypes
  constraints := env.parseConstraints perm
  groups := groupIDs

def create (perm : Permission) (groupIDs : List ℕ) (permissions : List (ObjectPermission F)) :
    ObjectPermission F where
  id := env.newPermissionId permissions
  name := perm.name
  description := perm.description
  enabled := perm.isEnabled
  actions := perm.buildActions
  objectTypes := perm.objectTypes
  constraints := env.parseConstraints perm
  groups := groupIDs

/-- Nautobot in a run, the ids looked up so far, and what the client has reported. -/
structure Progress (F : Type) where
  nautobot : Nautobot F
  groupNameToID : List (Text × ℕ)
  reports : Reports

def syncSinglePermission (perm : Permission) (r : Progress F) : Progress F :=
  if perm.name = [] then
    { r with
      reports := r.reports.addReport "permissionInvalid".toList
        ["permission has no name, skipping".toList] }
  else if perm.buildActions = [] then
    { r with
      reports := r.reports.addReport "permissionInvalid".toList
        ["permission has no actions, skipping".toList, "name".toList, perm.name] }
  else
    let (groupIDs, l) := env.resolveGroupIDs perm.groups ⟨r.nautobot.groups, r.groupNameToID⟩
    let permissions :=
      match getByName perm.name r.nautobot.permissions with
      | some existing =>
        r.nautobot.permissions.map fun p =>
          if p.id = existing.id then env.update perm groupIDs p else p
      | none => r.nautobot.permissions ++ [env.create perm groupIDs r.nautobot.permissions]
    ⟨⟨l.groups, permissions⟩, l.groupNameToID, env.reportConstraints perm r.reports⟩

def syncPermissions (perms : List Permission) (r : Progress F) : Progress F :=
  perms.foldl (fun r perm => env.syncSinglePermission perm r) r

/-- The permissions of all files, in the order in which the map is ranged over, or the first file
that is no YAML with the error. -/
def loadPermissions (data : List (Text × Text)) : Except (Text × Text) (List Permission) :=
  (data.mapM fun e => (env.unmarshalYaml e.2).mapError fun err => (e.1, err)).map List.flatten

/-- `SyncAll`, with the text of its error: a file that is no YAML is reported, and nothing is
written. -/
def syncAll (data : List (Text × Text)) (s : Nautobot F) (reports : Reports) :
    Option Text × Progress F :=
  match env.loadPermissions data with
  | .error (key, err) =>
    (some err, ⟨s, [], reports.addReport "yamlFailed".toList
      ["file: ".toList ++ key ++ " error: ".toList ++ err]⟩)
  | .ok all => (none, env.syncPermissions all ⟨s, [], reports⟩)

end Env

end Understack.Nautobotop.Permissions
