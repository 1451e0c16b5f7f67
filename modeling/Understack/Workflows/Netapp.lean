import Mathlib.Logic.Function.Basic
import Understack.Lib.PyText

/-! The NetApp layers of the workflows: `netapp/client.py`, the volume and SVM services over it,
`NetAppManager`, and the event handlers that use the manager on every configured backend. Every
layer turns the errors of the one below into booleans, so the model keeps the layers apart. -/
namespace Understack.Workflows.Netapp
open PyText

structure Volume where
  svm : Text
  name : Text
  deriving DecidableEq, Repr

/-- What a cluster holds, root volumes left out; a volume lies in one of the SVMs. -/
structure Cluster where
  svms : List Text
  volumes : List Volume
  housed : ∀ v ∈ volumes, v.svm ∈ svms

def Cluster.eraseVolume (c : Cluster) (v : Volume) : Cluster where
  svms := c.svms
  volumes := c.volumes.filter (· ≠ v)
  housed := fun w hw => c.housed w (List.mem_filter.mp hw).1

def Cluster.addVolume (c : Cluster) (v : Volume) (h : v.svm ∈ c.svms) : Cluster where
  svms := c.svms
  volumes := v :: c.volumes
  housed := by
    intro w hw
    rcases List.mem_cons.mp hw with rfl | hw
    · exact h
    · exact c.housed w hw

def Cluster.eraseSvm (c : Cluster) (name : Text) (h : ∀ v ∈ c.volumes, v.svm ≠ name) :
    Cluster where
  svms := c.svms.filter (· ≠ name)
  volumes := c.volumes
  housed := fun v hv => List.mem_filter.mpr ⟨c.housed v hv, by simpa using h v hv⟩

/-- The cluster together with the SVM deletions that were issued, each with what it met. -/
structure World where
  cluster : Cluster
  svmDeletes : List (Text × Cluster)

/-- How an ONTAP call fails: a `NetAppRestError` with status 404 or another one, or any other
exception. -/
inductive Fault where
  | notFound
  | rest
  | unexpected
  deriving DecidableEq, Repr

/-- The calls of one cleanup that fail. None of them is made twice. -/
structure Faults where
  volumeFind : Option Fault
  svmFind : Option Fault
  volumeGet : Option Fault
  volumeDelete : Option Fault
  svmGet : Option Fault
  svmDelete : Option Fault
  deriving DecidableEq, Repr

def Faults.none : Faults := ⟨.none, .none, .none, .none, .none, .none⟩

/-- `Volume.get(name=n)` finds one of the volumes of that name if there is one. -/
structure Lookup where
  pick : List Volume → Option Volume
  mem : ∀ vs v, pick vs = some v → v ∈ vs
  total : ∀ vs, vs ≠ [] → pick vs ≠ none

/-- The lookup that takes the first volume. -/
def Lookup.first : Lookup where
  pick := List.head?
  mem := fun _ _ h => List.mem_of_head? h
  total := fun _ h hn => h (List.head?_eq_none_iff.mp hn)

def svmName (projectId : Text) : Text := "os-".toList ++ projectId

def volumeName (volumeTypeId : Text) : Text :=
  "vol_".toList ++ volumeTypeId.filter (· ≠ '-')

/-- An `SvmOperationError` of the client. -/
inductive ClientError where
  | svmLookupFailed (name : Text) (fault : Fault)
  | unexpectedSvmLookup (name : Text) (fault : Fault)
  deriving DecidableEq, Repr

namespace Client

def findSvm (fault : Option Fault) (name : Text) (c : Cluster) :
    Except ClientError (Option Text) :=
  match fault with
  | some .notFound => .ok none
  | some .rest => .error (.svmLookupFailed name .rest)
  | some .unexpected => .error (.unexpectedSvmLookup name .unexpected)
  | none => .ok (if name ∈ c.svms then some name else none)

/-- Every exception is taken for a missing volume. -/
def findVolume (fault : Option Fault) (name svm : Text) (c : Cluster) : Option Volume :=
  match fault with
  | some _ => none
  | none => if ⟨svm, name⟩ ∈ c.volumes then some ⟨svm, name⟩ else none

def named (name : Text) (c : Cluster) : List Volume := c.volumes.filter (·.name = name)

/-- `force` only changes whether ONTAP refuses, which is one of the faults. -/
def deleteVolume (o : Lookup) (faults : Faults) (name : Text) (w : World) : Bool × World :=
  match faults.volumeGet with
  | some _ => (false, w)
  | none =>
    match o.pick (named name w.cluster) with
    | none => (false, w)
    | some v =>
      match faults.volumeDelete with
      | some _ => (false, w)
      | none => (true, { w with cluster := w.cluster.eraseVolume v })

/-- ONTAP refuses to delete an SVM that holds volumes. -/
def deleteSvm (faults : Faults) (name : Text) (w : World) : Bool × World :=
  match faults.svmGet with
  | some _ => (false, w)
  | none =>
    if name ∈ w.cluster.svms then
      let log := w.svmDeletes ++ [(name, w.cluster)]
      match faults.svmDelete with
      | some _ => (false, ⟨w.cluster, log⟩)
      | none =>
        if h : ∀ v ∈ w.cluster.volumes, v.svm ≠ name then
          (true, ⟨w.cluster.eraseSvm name h, log⟩)
        else (false, ⟨w.cluster, log⟩)
    else (false, w)

/-- `volume.post()`, which ONTAP refuses in a missing SVM or for a name that is taken. -/
def createVolume (v : Volume) (w : World) : Option World :=
  if h : v.svm ∈ w.cluster.svms then
    if v ∈ w.cluster.volumes then none
    else some { w with cluster := w.cluster.addVolume v h }
  else none

end Client

/-! The services never raise, but their callers do not rely on it. -/

def volumeExists (faults : Faults) (projectId : Text) (c : Cluster) : Except ClientError Bool :=
  .ok (Client.findVolume faults.volumeFind (volumeName projectId) (svmName projectId) c).isSome

def svmExists (fault : Option Fault) (projectId : Text) (c : Cluster) :
    Except ClientError Bool :=
  match Client.findSvm fault (svmName projectId) c with
  | .ok result => .ok result.isSome
  | .error _ => .ok false

/-- `VolumeService.delete_volume`; cleanup passes it a project id. -/
def deleteVolume (o : Lookup) (faults : Faults) (volumeTypeId : Text) (w : World) :
    Bool × World :=
  Client.deleteVolume o faults (volumeName volumeTypeId) w

def deleteSvm (faults : Faults) (projectId : Text) (w : World) : Bool × World :=
  Client.deleteSvm faults (svmName projectId) w

structure CleanupResult where
  volume : Bool
  svm : Bool
  deriving DecidableEq, Repr

namespace Manager

/-- `NetAppManager.delete_volume`. -/
def deleteVolume (o : Lookup) (faults : Faults) (name : Text) (w : World) : Bool × World :=
  if "vol_".toList.isPrefixOf name then Netapp.deleteVolume o faults (name.drop 4) w
  else Client.deleteVolume o faults name w

def cleanupProject (o : Lookup) (faults : Faults) (projectId : Text) (w : World) :
    CleanupResult × World :=
  -- a check that raised would count as "exists"
  let volumeExisted :=
    match volumeExists faults projectId w.cluster with
    | .ok b => b
    | .error _ => true
  let svmExisted :=
    match svmExists faults.svmFind projectId w.cluster with
    | .ok b => b
    | .error _ => true
  let vol := if volumeExisted then Netapp.deleteVolume o faults projectId w else (true, w)
  let svm :=
    if svmExisted then
      if vol.1 || !volumeExisted then Netapp.deleteSvm faults projectId vol.2
      else (false, vol.2)
    else (true, vol.2)
  (⟨vol.1, svm.1⟩, svm.2)

end Manager

/-- What the SDK and the network make of host names: the `_host` of a connection that was opened to
a host, where it has that attribute, and the cluster that the connection leads to. -/
structure Sdk where
  hostAttribute : Text → Option Text
  cluster : Text → Text

/-- All clusters, by name. -/
abbrev Clusters := Text → World

namespace Sdk

variable (sdk : Sdk)

/-- Whether a manager opens a connection, where `connection` is the host of the one that is set. All
managers of a process share it. -/
def needsConnection (connection : Option Text) (hostname : Text) : Bool :=
  match connection with
  | none => true
  | some host =>
    match sdk.hostAttribute host with
    | some h => h ≠ hostname
    | none => false

/-- The host that the process is connected to once the manager is built. -/
def connected (connection : Option Text) (hostname : Text) : Text :=
  if sdk.needsConnection connection hostname then hostname else connection.getD hostname

/-- The cluster that the calls of the manager go to. -/
def reached (connection : Option Text) (hostname : Text) : Text :=
  sdk.cluster (sdk.connected connection hostname)

end Sdk

/-- A configured backend, and the calls of a handler that fail on it. `connect` is whether a
connection to its host can be opened, `check` the lookup of the handler itself. -/
structure Backend where
  hostname : Text
  connect : Bool
  check : Option Fault
  cleanup : Faults

def Backend.svmFound (b : Backend) (projectId : Text) (c : Cluster) : Bool :=
  match svmExists b.check projectId c with
  | .ok found => found
  | .error _ => false

/-- The loop over the backends that all handlers share: a manager is built for one after the
other, and the first that knows the SVM of the project is acted on, on the cluster that the process
is connected to by then. The result is `missing` if there is none and `aborted` if a manager cannot
be built. -/
def onFirst {α : Type} (sdk : Sdk) (projectId : Text) (missing aborted : α)
    (act : Backend → World → α × World) :
    Option Text → List Backend → Clusters → α × Clusters
  | _, [], ws => (missing, ws)
  | connection, b :: bs, ws =>
    if sdk.needsConnection connection b.hostname && !b.connect then (aborted, ws)
    else
      let cluster := sdk.reached connection b.hostname
      if b.svmFound projectId (ws cluster).cluster then
        let (result, w) := act b (ws cluster)
        (result, Function.update ws cluster w)
      else
        onFirst sdk projectId missing aborted act (some (sdk.connected connection b.hostname)) bs ws

/-- The loop of `handle_project_deleted`. What cleanup reports is not looked at. The process that
handles an event starts without a connection. -/
def cleanupFirst (sdk : Sdk) (o : Lookup) (projectId : Text) (backends : List Backend)
    (ws : Clusters) : ℕ × Clusters :=
  onFirst sdk projectId 0 1 (fun b w => (0, (Manager.cleanupProject o b.cleanup projectId w).2))
    none backends ws

def projectDeletedEvent : Text := "identity.project.deleted".toList

/-- `configured` is whether the backends could be read from the configuration. -/
def handleProjectDeleted (sdk : Sdk) (o : Lookup) (eventType projectId : Text) (configured : Bool)
    (backends : List Backend) (ws : Clusters) : ℕ × Clusters :=
  if eventType ≠ projectDeletedEvent then (1, ws)
  else if configured then cleanupFirst sdk o projectId backends ws
  else (1, ws)

/-- `create_volume` of the manager; no exit code where it raises. -/
def createOn (projectId volumeTypeId : Text) (_ : Backend) (w : World) : Option ℕ × World :=
  match Client.createVolume ⟨svmName projectId, volumeName volumeTypeId⟩ w with
  | some w => (some 0, w)
  | none => (none, w)

/-- `handle_volume_type_access_added` after the type has been read and an aggregate chosen: the
exit code, or nothing where an exception is raised. -/
def handleVolumeTypeAccessAdded (sdk : Sdk) (projectId volumeTypeId : Text)
    (backends : List Backend) (ws : Clusters) : Option ℕ × Clusters :=
  onFirst sdk projectId (some 1) none (createOn projectId volumeTypeId) none backends ws

/-- `delete_volume` of the manager, by the name that it gives the type. -/
def deleteOn (o : Lookup) (volumeTypeId : Text) (b : Backend) (w : World) : ℕ × World :=
  let deleted := Manager.deleteVolume o b.cleanup (volumeName volumeTypeId) w
  (if deleted.1 then 0 else 1, deleted.2)

def handleVolumeTypeAccessRemoved (sdk : Sdk) (o : Lookup) (projectId volumeTypeId : Text)
    (backends : List Backend) (ws : Clusters) : ℕ × Clusters :=
  onFirst sdk projectId 1 1 (deleteOn o volumeTypeId) none backends ws

end Understack.Workflows.Netapp
