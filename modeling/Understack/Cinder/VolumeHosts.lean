import Understack.Cinder.NetappDriver

/-! The operations of the driver on one volume object. `_volume_to_library` rewrites the volume's
host in place and gives it back after its `yield`, which a library call that raises does not
reach: the exception is thrown into the generator at the `yield`. -/
namespace Understack.Cinder
open PyText

abbrev Connector := List (Text × Text)

/-- The driver's operations with their arguments besides the volume; those on a snapshot use the
snapshot's volume. -/
inductive Operation where
  | createVolume
  | deleteVolume
  | createSnapshot (snapshot : Text)
  | deleteSnapshot (snapshot : Text)
  | createVolumeFromSnapshot (snapshot : Text)
  | createClonedVolume (source : Text)
  | extendVolume (newSize : ℤ)
  | initializeConnection (connector : Connector)
  | terminateConnection (connector : Connector) (kwargs : List (Text × Text))
  | createExport (connector : Connector)
  | ensureExport
  | removeExport

/-- What is called on the library. -/
inductive LibraryCall where
  | createVolume
  | deleteVolume
  | createSnapshot (snapshot : Text)
  | deleteSnapshot (snapshot : Text)
  | createVolumeFromSnapshot (snapshot : Text)
  | createClonedVolume (source : Text)
  | extendVolume (newSize : ℤ)
  | initializeConnection (connector : Connector)
  | terminateConnection (connector : Connector) (kwargs : List (Text × Text))
  | createExport
  | ensureExport
  | removeExport

/-- The initiator that Nova's Ironic driver sends, under the name that the library reads. -/
def withNqn (connector : Connector) : Connector :=
  match connector.lookup "initiator".toList with
  | some initiator =>
    if (connector.lookup "nqn".toList).isNone then
      PyDict.put "nqn".toList initiator connector
    else connector
  | none => connector

def Operation.libraryCall : Operation → LibraryCall
  | .createVolume => .createVolume
  | .deleteVolume => .deleteVolume
  | .createSnapshot s => .createSnapshot s
  | .deleteSnapshot s => .deleteSnapshot s
  | .createVolumeFromSnapshot s => .createVolumeFromSnapshot s
  | .createClonedVolume s => .createClonedVolume s
  | .extendVolume n => .extendVolume n
  | .initializeConnection c => .initializeConnection (withNqn c)
  | .terminateConnection c kwargs => .terminateConnection c kwargs
  | .createExport _ => .createExport
  | .ensureExport => .ensureExport
  | .removeExport => .removeExport

section Operations

variable {E V : Type}

/-- How the libraries answer a call on a volume whose host they see. -/
abbrev Answers (E V : Type) := Library → LibraryCall → Text → Except E V

/-- An operation of the driver on a volume with the host: its result, and the host that the volume
has after it. -/
def Operation.perform (op : Operation) (x : ExtractHost) (libs : Libraries)
    (answers : Answers E V) (host : Text) : Except (DriverError ⊕ E) V × Text :=
  match volumeToLibrary x libs host with
  | .error e => (.error (.inl e), host)
  | .ok (lib, shown) =>
    match answers lib op.libraryCall shown with
    | .ok v => (.ok v, host)
    | .error e => (.error (.inr e), shown)

/-- The host names a library, and the call on it raises. -/
def Raises (x : ExtractHost) (libs : Libraries) (host : Text) (a : Operation × Answers E V) :
    Prop :=
  ∃ lib svmName e, Names x libs host lib svmName ∧
    a.2 lib a.1.libraryCall (shownHost svmName host) = .error e

theorem perform_host_eq_iff (x : ExtractHost) (libs : Libraries) (host : Text) (op : Operation)
    (answers : Answers E V) :
    (op.perform x libs answers host).2 = host ↔ ¬Raises x libs host (op, answers) := by
  cases hlib : volumeToLibrary x libs host with
  | error e =>
    have hnone : ¬Raises x libs host (op, answers) := by
      rintro ⟨lib, svmName, _, hnames, -⟩
      have hok := volumeToLibrary_ok_iff.mpr ⟨svmName, hnames, rfl⟩
      rw [hlib] at hok
      cases hok
    simp only [Operation.perform, hlib, hnone, not_false_eq_true]
  | ok found =>
    obtain ⟨lib, shown⟩ := found
    obtain ⟨svmName, hnames, rfl⟩ := volumeToLibrary_ok_iff.mp hlib
    cases hanswer : answers lib op.libraryCall (shownHost svmName host) with
    | error e =>
      have hraises : Raises x libs host (op, answers) := ⟨lib, svmName, e, hnames, hanswer⟩
      simp only [Operation.perform, hlib, hanswer, hraises, not_true_eq_false, iff_false]
      exact shownHost_ne hnames
    | ok v =>
      have hreturns : ¬Raises x libs host (op, answers) := by
        rintro ⟨lib', svmName', e, hnames', he⟩
        have hok := volumeToLibrary_ok_iff.mpr ⟨svmName', hnames', rfl⟩
        rw [hlib] at hok
        injection hok with hpair
        injection hpair with hl hs
        subst hl
        have hraised : answers lib op.libraryCall (shownHost svmName' host) = .error e := he
        rw [← hs, hanswer] at hraised
        cases hraised
      simp only [Operation.perform, hlib, hanswer, hreturns, not_false_eq_true]

/-- The host of the volume after a sequence of operations on it. -/
def hostAfter (x : ExtractHost) (libs : Libraries) (host : Text)
    (attempts : List (Operation × Answers E V)) : Text :=
  attempts.foldl (fun h a => (a.1.perform x libs a.2 h).2) host

theorem hostAfter_eq_self {x : ExtractHost} {libs : Libraries} {host : Text}
    {attempts : List (Operation × Answers E V)} (h : ∀ a ∈ attempts, ¬Raises x libs host a) :
    hostAfter x libs host attempts = host := by
  induction attempts with
  | nil => rfl
  | cons a attempts ih =>
    have hfirst : (a.1.perform x libs a.2 host).2 = host :=
      (perform_host_eq_iff x libs host a.1 a.2).mpr (h a List.mem_cons_self)
    have hrest := ih fun b hb => h b (List.mem_cons_of_mem a hb)
    simp only [hostAfter, List.foldl_cons, hfirst]
    exact hrest

theorem not_raises_of_hosts {x : ExtractHost} {libs : Libraries} {host : Text}
    {attempts : List (Operation × Answers E V)}
    (h : ∀ pre, pre <+: attempts → hostAfter x libs host pre = host) :
    ∀ a ∈ attempts, ¬Raises x libs host a := by
  intro a ha
  obtain ⟨pre, post, rfl⟩ := List.append_of_mem ha
  have hbefore := h pre (List.prefix_append pre _)
  have hafter := h (pre ++ [a]) ⟨post, by simp⟩
  rw [hostAfter, List.foldl_append, List.foldl_cons, List.foldl_nil, ← hostAfter, hbefore] at hafter
  exact (perform_host_eq_iff x libs host a.1 a.2).mp hafter

/-- An operation gives the volume its host back exactly when it does not end in an exception of
the library, and so do all the operations of a sequence, which then use one library. -/
theorem host_restored_iff_library_returns (x : ExtractHost) (libs : Libraries) (host : Text)
    (attempts : List (Operation × Answers E V)) :
    (∀ (op : Operation) (answers : Answers E V),
      (op.perform x libs answers host).2 = host ↔ ¬Raises x libs host (op, answers)) ∧
    ((∀ pre, pre <+: attempts → hostAfter x libs host pre = host) ↔
      ∀ a ∈ attempts, ¬Raises x libs host a) ∧
    ((∀ a ∈ attempts, ¬Raises x libs host a) → ∀ pre, pre <+: attempts →
      volumeToLibrary x libs (hostAfter x libs host pre) = volumeToLibrary x libs host) := by
  have hkeep (hnot : ∀ a ∈ attempts, ¬Raises x libs host a)
      (pre : List (Operation × Answers E V)) (hpre : pre <+: attempts) :
      hostAfter x libs host pre = host :=
    hostAfter_eq_self fun a ha => hnot a (hpre.subset ha)
  refine ⟨perform_host_eq_iff x libs host, ⟨not_raises_of_hosts, hkeep⟩, ?_⟩
  intro hnot pre hpre
  rw [hkeep hnot pre hpre]

end Operations

/-- A volume in an SVM of its own, whose library refuses the first creation: the retry does not
find the library that the first attempt found. -/
theorem host_not_restored_after_exception :
    let libs : Libraries := [("os-a".toList, ⟨"os-a".toList, []⟩)]
    let host := "cinder@netapp#os-a+vol_1".toList
    let refused : Answers Unit Unit := fun _ _ _ => .error ()
    (Operation.createVolume.perform extractHost libs refused host).2 ≠ host ∧
    volumeToLibrary extractHost libs host =
      .ok (⟨"os-a".toList, []⟩, "cinder@netapp#vol_1".toList) ∧
    volumeToLibrary extractHost libs
        (Operation.createVolume.perform extractHost libs refused host).2 =
      .error (.missingDelimiter "vol_1".toList) := by
  decide

end Understack.Cinder
