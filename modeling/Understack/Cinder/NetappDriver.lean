import Mathlib.Algebra.Order.Ring.Rat
import Understack.Lib.Json
import Understack.Lib.PyUuid
import Understack.Lib.Runs

/-! `NetappCinderDynamicDriver`: one storage library for each SVM behind one Cinder backend. Pools
are reported under names qualified by their SVM, and an operation on a volume finds its library
in the volume's host and shows it the host that the SVM knows. -/
namespace Understack.Cinder
open PyText

/-- A value of a pool's dictionary or of a request. -/
inductive Value where
  | text (t : Text)
  | number (q : ℚ)
  | bool (b : Bool)
  | null
  deriving DecidableEq

abbrev Dict := List (Text × Value)

/-- What the driver reads of its configuration: `netapp_vserver_prefix`, the filter function of the
base class, and the match of the configured pool name pattern on a FlexVol name, with its first
group where the pattern has one that took part. -/
structure Config where
  vserverPrefix : Text
  baseFilter : Option Text
  poolMatch : Text → Option (Option Text)

/-- `_SVM_NAME_DELIM`. -/
def svmNameDelim : Char := '+'

/-- What `_svmify_pool` lets through: a pool without a textual name, and a pattern that matches
without giving a first group. -/
inductive PoolError where
  | poolName
  | noGroup
  deriving DecidableEq

/-- The type id in a FlexVol's name, empty unless the pattern captures a UUID. -/
def volumeTypeId (cfg : Config) (poolName : Text) : Except PoolError Text :=
  match cfg.poolMatch poolName with
  | none => .ok []
  | some none => .error .noGroup
  | some (some rawId) =>
    match uuid? rawId with
    | some u => .ok (formatUuid u)
    | none => .ok []

/-- `_svmify_pool(pool, svm_name, filter_function=…)`. -/
def svmifyPool (cfg : Config) (filterFunction svmName : Text) (pool : Dict) :
    Except PoolError Dict :=
  match pool.lookup "pool_name".toList with
  | some (.text poolName) => do
    let typeId ← volumeTypeId cfg poolName
    let pool := PyDict.put "pool_name".toList (.text (svmName ++ svmNameDelim :: poolName)) pool
    let pool := PyDict.put "netapp_vserver".toList (.text svmName) pool
    let projectUuid := removePrefix cfg.vserverPrefix svmName
    let pool := PyDict.put "netapp_project_id".toList (.text projectUuid) pool
    let pool := PyDict.put "netapp_volume_type_id".toList (.text typeId) pool
    .ok (PyDict.put "filter_function".toList (.text filterFunction) pool)
  | _ => .error .poolName

/-- What `_svmify_pool` writes into a pool of the SVM with the FlexVol `v`. -/
structure Qualified (cfg : Config) (filterFunction svmName v typeId : Text) (q : Dict) : Prop where
  poolName : q.lookup "pool_name".toList = some (.text (svmName ++ svmNameDelim :: v))
  vserver : q.lookup "netapp_vserver".toList = some (.text svmName)
  projectId : q.lookup "netapp_project_id".toList =
    some (.text (removePrefix cfg.vserverPrefix svmName))
  typeId : q.lookup "netapp_volume_type_id".toList = some (.text typeId)
  filterFunction : q.lookup "filter_function".toList = some (.text filterFunction)

theorem svmifyPool_qualified {cfg : Config} {v typeId : Text} {pool : Dict}
    (filterFunction svmName : Text) (hname : pool.lookup "pool_name".toList = some (.text v))
    (htype : volumeTypeId cfg v = .ok typeId) :
    ∃ q, svmifyPool cfg filterFunction svmName pool = .ok q ∧
      Qualified cfg filterFunction svmName v typeId q := by
  simp only [svmifyPool, hname, htype]
  refine ⟨_, rfl, ?_, ?_, ?_, ?_, ?_⟩ <;>
    simp (disch := decide) only [PyDict.lookup_put_of_ne, PyDict.lookup_put_self]

theorem svmifyPool_ok {cfg : Config} {filterFunction svmName : Text} {pool q : Dict}
    (h : svmifyPool cfg filterFunction svmName pool = .ok q) :
    ∃ v typeId, pool.lookup "pool_name".toList = some (.text v) ∧
      volumeTypeId cfg v = .ok typeId ∧ Qualified cfg filterFunction svmName v typeId q := by
  have hread := h
  unfold svmifyPool at hread
  split at hread
  · next v hname =>
    obtain ⟨typeId, htype, -⟩ := Runs.bind_eq_ok hread
    obtain ⟨q', hq', hqualified⟩ := svmifyPool_qualified filterFunction svmName hname htype
    rw [h] at hq'
    cases hq'
    exact ⟨v, typeId, hname, htype, hqualified⟩
  · cases hread

def svmFilter : Text := "(capabilities.netapp_project_id == volume.project_id)".toList

def volTypeFilter : Text :=
  ("(capabilities.netapp_volume_type_id == \"\"" ++
    " or capabilities.netapp_volume_type_id == volume.volume_type_id)").toList

def getFilterFunction (cfg : Config) : Text :=
  let combined := svmFilter ++ " and ".toList ++ volTypeFilter
  match cfg.baseFilter with
  | some base => if base = [] then combined else combined ++ " and ".toList ++ base
  | none => combined

/-- Cinder's `extract_host(host, level="pool")`: the text after the `#` of a host, where it has
one. -/
structure ExtractHost where
  pool : Text → Option Text
  of_pool : ∀ {service p : Text}, '#' ∉ service → '#' ∉ p → pool (service ++ '#' :: p) = some p
  split : ∀ {host p : Text}, pool host = some p → ∃ service, host = service ++ '#' :: p

/-- The text after the only `#`. -/
def extractHost : ExtractHost where
  pool host :=
    match splitOnce '#' host with
    | some (_, p) => if '#' ∈ p then none else some p
    | none => none
  of_pool := by
    intro service p hservice hp
    simp only [splitOnce_append hservice, if_neg hp]
  split := by
    intro host p h
    split at h
    · next service q hq =>
      split_ifs at h with hhash
      cases h
      exact ⟨service, splitOnce_eq_some hq⟩
    · cases h

section Libraries

/-- A loaded library; all that the driver reads of it is its `vserver` and the pools of its
statistics. -/
structure Library where
  vserver : Text
  pools : List Dict
  deriving DecidableEq

/-- `_libraries`, by SVM name in the order of insertion. -/
abbrev Libraries := List (Text × Library)

/-- The pools of `get_volume_stats(refresh=True)`. -/
def reportedPools (cfg : Config) (libs : Libraries) : Except PoolError (List Dict) := do
  let pools ← libs.mapM fun l => l.2.pools.mapM (svmifyPool cfg (getFilterFunction cfg) l.1)
  .ok pools.flatten

inductive DriverError where
  | poolNotFound (host : Text)
  | missingDelimiter (pool : Text)
  | driverNotInitialized
  | vserverMismatch
  deriving DecidableEq

/-- `s.partition(c)`, without the separator. -/
def partitionAt (c : Char) (s : Text) : Text × Text := (splitOnce c s).getD (s, [])

/-- The host that the library of the SVM is shown. -/
def shownHost (svmName host : Text) : Text := replaceAll (svmName ++ [svmNameDelim]) [] host

/-- `_volume_to_library` up to its `yield`: the library and the host that it is shown. -/
def volumeToLibrary (x : ExtractHost) (libs : Libraries) (host : Text) :
    Except DriverError (Library × Text) :=
  match x.pool host with
  | none => .error (.poolNotFound host)
  | some [] => .error (.poolNotFound host)
  | some qualifiedPool =>
    let (svmName, flexvolName) := partitionAt svmNameDelim qualifiedPool
    if flexvolName = [] then .error (.missingDelimiter qualifiedPool)
    else
      match libs.lookup svmName with
      | none => .error .driverNotInitialized
      | some lib =>
        if lib.vserver ≠ svmName then .error .vserverMismatch
        else .ok (lib, shownHost svmName host)

/-- The host names a library: a loaded SVM with the vserver of that name, and a FlexVol. -/
def Names (x : ExtractHost) (libs : Libraries) (host : Text) (lib : Library) (svmName : Text) :
    Prop :=
  ∃ flexvolName, flexvolName ≠ [] ∧ svmNameDelim ∉ svmName ∧
    x.pool host = some (svmName ++ svmNameDelim :: flexvolName) ∧
    libs.lookup svmName = some lib ∧ lib.vserver = svmName

theorem volumeToLibrary_ok_iff {x : ExtractHost} {libs : Libraries} {host shown : Text}
    {lib : Library} :
    volumeToLibrary x libs host = .ok (lib, shown) ↔
      ∃ svmName, Names x libs host lib svmName ∧ shown = shownHost svmName host := by
  constructor
  · intro h
    unfold volumeToLibrary at h
    split at h
    · cases h
    · cases h
    · next q _ hq =>
      cases hsplit : splitOnce svmNameDelim q with
      | none => simp [partitionAt, hsplit] at h
      | some parts =>
        obtain ⟨svmName, flexvolName⟩ := parts
        simp only [partitionAt, hsplit, Option.getD_some] at h
        split_ifs at h with hflex
        split at h
        · cases h
        · next found hfound =>
          split_ifs at h with hvserver
          cases h
          have hplain := splitOnce_not_mem hsplit
          rw [splitOnce_eq_some hsplit] at hq
          exact ⟨svmName, ⟨flexvolName, hflex, hplain, hq, hfound, not_not.mp hvserver⟩, rfl⟩
  · rintro ⟨svmName, ⟨flexvolName, hflex, hplain, hpool, hlib, hvserver⟩, rfl⟩
    have hne : svmName ++ svmNameDelim :: flexvolName ≠ [] := by simp
    unfold volumeToLibrary
    rw [hpool]
    split
    · next hnone => cases hnone
    · next hnil => exact absurd (Option.some.inj hnil) hne
    · next q _ hq =>
      cases hq
      simp only [partitionAt, splitOnce_append hplain, Option.getD_some, if_neg hflex, hlib,
        hvserver, ne_eq, not_true_eq_false, if_false]

theorem shownHost_ne {x : ExtractHost} {libs : Libraries} {host svmName : Text} {lib : Library}
    (h : Names x libs host lib svmName) : shownHost svmName host ≠ host := by
  obtain ⟨flexvolName, -, -, hpool, -, -⟩ := h
  obtain ⟨service, hhost⟩ := x.split hpool
  have hwhole : host = (service ++ ['#']) ++ ((svmName ++ [svmNameDelim]) ++ flexvolName) := by
    simpa using hhost
  have hlt := length_replaceAll_lt (svmName ++ [svmNameDelim]) (service ++ ['#']) flexvolName
    (by simp)
  rw [← hwhole] at hlt
  intro heq
  rw [← shownHost, heq] at hlt
  exact lt_irrefl _ hlt

end Libraries

end Understack.Cinder
