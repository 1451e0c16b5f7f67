import Understack.Cinder.NetappDriver
import Understack.Lib.FilterExpr

/-! The filter function of the reported pools. The driver puts its tenancy rule in front of the
operator's filter as two guards joined by `and`, so that they bind only to the operator's leading
conjunction. How Cinder reads and compares single values is a parameter. -/
namespace Understack.Cinder
open PyText FilterExpr

/-- The properties of a volume that is to be placed. -/
structure Request where
  projectId : Text
  volumeTypeId : Option Text
  properties : Dict

def Request.typeValue (r : Request) : Value :=
  match r.volumeTypeId with
  | some t => .text t
  | none => .null

def Request.volume (r : Request) : Dict :=
  PyDict.put "project_id".toList (.text r.projectId)
    (PyDict.put "volume_type_id".toList r.typeValue r.properties)

/-- The dictionaries that a filter expression can name. -/
structure Scope where
  capabilities : Dict
  request : Request
  stats : Dict
  extra : Dict
  qos : Dict

def Scope.dict (s : Scope) (name : Text) : Option Dict :=
  if name = "capabilities".toList then some s.capabilities
  else if name = "volume".toList then some s.request.volume
  else if name = "stats".toList then some s.stats
  else if name = "extra".toList then some s.extra
  else if name = "qos".toList then some s.qos
  else none

/-- How Cinder evaluates what an expression consists of: the value of a literal and that of a
dictionary's entry, which may each be converted to a number, and a comparison of two values. Reading
or comparing may raise. -/
structure Evaluator (V : Type) where
  literal : Operand → Option V
  entry : Value → Option V
  compare : Cmp → V → V → Option Bool

def isNamePart (s : Text) : Bool := !s.isEmpty && s.all fun c => c.isAlpha || c == '_'

variable {V : Type} (ev : Evaluator V)

/-- A dotted name stands for an entry of a dictionary, any other word for itself. -/
def Scope.value (s : Scope) : Operand → Option V
  | .quoted t => ev.literal (.quoted t)
  | .word w =>
    match splitOnce '.' w with
    | some (name, entry) =>
      if isNamePart name && isNamePart entry then do
        let dict ← s.dict name
        ev.entry (← dict.lookup entry)
      else ev.literal (.word w)
    | none => ev.literal (.word w)

def Scope.atom (s : Scope) (c : Cmp) (a b : Operand) : Option Bool := do
  let x ← s.value ev a
  let y ← s.value ev b
  ev.compare c x y

/-- The scheduler's verdict on a filter function: an expression that cannot be read or evaluated
keeps the pool out. -/
def passes (s : Scope) (filterFunction : Text) : Bool :=
  match parse filterFunction with
  | some e => e.eval (s.atom ev) == some true
  | none => false

/-- The reported pool passes the filter function that it was reported with. -/
def PoolPasses (s : Scope) : Prop :=
  ∃ f, s.capabilities.lookup "filter_function".toList = some (.text f) ∧ passes ev s f = true

/-- The pool lies in the SVM of the volume's project, in a FlexVol for any type or for the
volume's type. -/
def Serves (cfg : Config) (q : Dict) (r : Request) : Prop :=
  q.lookup "netapp_vserver".toList = some (.text (cfg.vserverPrefix ++ r.projectId)) ∧
  (q.lookup "netapp_volume_type_id".toList = some (.text []) ∨
    q.lookup "netapp_volume_type_id".toList = some r.typeValue)

/-- Libraries of SVMs that the cluster listed for the configured prefix. -/
structure TenantSvms (cfg : Config) where
  libs : Libraries
  named : ∀ l ∈ libs, ∃ projectId, l.1 = cfg.vserverPrefix ++ projectId

/-- The pool is reported by `get_volume_stats`. -/
def Reported (cfg : Config) (svms : TenantSvms cfg) (q : Dict) : Prop :=
  ∃ pools, reportedPools cfg svms.libs = .ok pools ∧ q ∈ pools

def svmExpr : Expr :=
  .one (.one (.one (.compare .eq (.word "capabilities.netapp_project_id".toList)
    (.word "volume.project_id".toList))))

def volTypeExpr : Expr :=
  .one (.or (.one (.compare .eq (.word "capabilities.netapp_volume_type_id".toList) (.quoted [])))
    (.one (.one (.compare .eq (.word "capabilities.netapp_volume_type_id".toList)
      (.word "volume.volume_type_id".toList)))))

/-- The tokens of `svmFilter and`, the last one first. -/
def svmTokens : List Token :=
  [.item .and, .closing, .item (.operand (.word "volume.project_id".toList)), .item (.compare .eq),
    .item (.operand (.word "capabilities.netapp_project_id".toList)), .opening]

/-- The tokens of `volTypeFilter and`, the last one first. -/
def volTypeTokens : List Token :=
  [.item .and, .closing, .item (.operand (.word "volume.volume_type_id".toList)),
    .item (.compare .eq), .item (.operand (.word "capabilities.netapp_volume_type_id".toList)),
    .item .or, .item (.operand (.quoted [])), .item (.compare .eq),
    .item (.operand (.word "capabilities.netapp_volume_type_id".toList)), .opening]

set_option maxRecDepth 4000 in
theorem scan_svmFilter :
    (svmFilter ++ " and ".toList).foldlM scanStep ⟨[], .idle⟩ = some ⟨svmTokens, .idle⟩ := by
  rfl

set_option maxRecDepth 8000 in
theorem scan_volTypeFilter :
    (volTypeFilter ++ " and ".toList).foldlM scanStep ⟨[], .idle⟩ =
      some ⟨volTypeTokens, .idle⟩ := by
  rfl

theorem isGuard_svm : IsGuard svmExpr svmTokens.reverse := rfl

theorem isGuard_volType : IsGuard volTypeExpr volTypeTokens.reverse := rfl

theorem parse_getFilterFunction {cfg : Config} {base : Text} {e : Expr}
    (hbase : cfg.baseFilter = some base) (hne : base ≠ []) (he : parse base = some e) :
    parse (getFilterFunction cfg) =
      some ((e.graft (.paren volTypeExpr)).graft (.paren svmExpr)) := by
  have htext : getFilterFunction cfg =
      (svmFilter ++ " and ".toList) ++ ((volTypeFilter ++ " and ".toList) ++ base) := by
    simp only [getFilterFunction, hbase, if_neg hne, List.append_assoc]
  rw [htext, parse_guard scan_svmFilter isGuard_svm, parse_guard scan_volTypeFilter isGuard_volType,
    he]
  rfl

theorem Request.lookup_projectId (r : Request) :
    r.volume.lookup "project_id".toList = some (.text r.projectId) :=
  PyDict.lookup_put_self _ _ _

theorem Request.lookup_typeId (r : Request) :
    r.volume.lookup "volume_type_id".toList = some r.typeValue := by
  rw [Request.volume, PyDict.lookup_put_of_ne _ _ (by decide), PyDict.lookup_put_self]

/-- Whether Cinder reads two values as equal. -/
def Evaluator.equal (x y : Option V) : Option Bool := do ev.compare .eq (← x) (← y)

/-- The driver's rule on the ids of a pool and a request, as Cinder reads them. -/
def Scope.sameIds (s : Scope) : Option Bool := do
  let project ← s.capabilities.lookup "netapp_project_id".toList
  let volumeType ← s.capabilities.lookup "netapp_volume_type_id".toList
  let p ← ev.equal (ev.entry project) (ev.entry (.text s.request.projectId))
  let any ← ev.equal (ev.entry volumeType) (ev.literal (.quoted []))
  let own ← ev.equal (ev.entry volumeType) (ev.entry s.request.typeValue)
  some (p && (any || own))

theorem value_entry {s : Scope} {w name entry : Text} {dict : Dict} {v : Value}
    (hw : splitOnce '.' w = some (name, entry))
    (hparts : (isNamePart name && isNamePart entry) = true) (hdict : s.dict name = some dict)
    (hv : dict.lookup entry = some v) : s.value ev (.word w) = ev.entry v := by
  simp only [Scope.value, hw, hparts, hdict, hv, if_true, Option.bind_eq_bind, Option.bind_some]

/-- The guards in front of the operator's filter are the rule on the ids. -/
theorem eval_guards {s : Scope} {project volumeType : Value}
    (hproject : s.capabilities.lookup "netapp_project_id".toList = some project)
    (htype : s.capabilities.lookup "netapp_volume_type_id".toList = some volumeType) :
    (do let x ← svmExpr.eval (s.atom ev)
        let y ← volTypeExpr.eval (s.atom ev)
        some (x && y)) = s.sameIds ev := by
  have hvalue : s.value ev (.word "capabilities.netapp_project_id".toList) = ev.entry project :=
    value_entry ev rfl rfl rfl hproject
  have hvalueType : s.value ev (.word "capabilities.netapp_volume_type_id".toList) =
      ev.entry volumeType := value_entry ev rfl rfl rfl htype
  have hvolume : s.value ev (.word "volume.project_id".toList) =
      ev.entry (.text s.request.projectId) := value_entry ev rfl rfl rfl s.request.lookup_projectId
  have hvolumeType : s.value ev (.word "volume.volume_type_id".toList) =
      ev.entry s.request.typeValue := value_entry ev rfl rfl rfl s.request.lookup_typeId
  have hempty : s.value ev (.quoted []) = ev.literal (.quoted []) := rfl
  have hatom (a b : Operand) : s.atom ev .eq a b = ev.equal (s.value ev a) (s.value ev b) := rfl
  simp only [svmExpr, volTypeExpr, Expr.eval, Disj.eval, Conj.eval, Factor.eval, hatom, hvalue,
    hvalueType, hvolume, hvolumeType, hempty, Scope.sameIds, hproject, htype, Option.bind_eq_bind,
    Option.bind_some, Option.bind_assoc]

theorem reported_qualified {cfg : Config} {svms : TenantSvms cfg} {q : Dict}
    (h : Reported cfg svms q) :
    ∃ projectId v typeId,
      Qualified cfg (getFilterFunction cfg) (cfg.vserverPrefix ++ projectId) v typeId q := by
  obtain ⟨pools, hpools, hq⟩ := h
  obtain ⟨groups, hgroups, hflat⟩ := Runs.bind_eq_ok hpools
  cases hflat
  obtain ⟨group, hgroup, hqgroup⟩ := List.mem_flatten.mp hq
  obtain ⟨l, hl, hlpools⟩ := Runs.mem_of_mapM_ok hgroups hgroup
  obtain ⟨pool, -, hpool⟩ := Runs.mem_of_mapM_ok hlpools hqgroup
  obtain ⟨v, typeId, -, -, hqualified⟩ := svmifyPool_ok hpool
  obtain ⟨projectId, hname⟩ := svms.named l hl
  rw [hname] at hqualified
  exact ⟨projectId, v, typeId, hqualified⟩

/-- The filter lets the pool through: Cinder reads its ids as those of the request and the
operator's filter is true, or it tells them apart and the operator's filter is true without its
leading conjunction. -/
inductive Admitted (s : Scope) (e : Expr) : Prop where
  | same (h : s.sameIds ev = some true) (htrue : e.eval (s.atom ev) = some true)
  | bypassed (h : s.sameIds ev = some false) (htrue : e.Bypassed (s.atom ev))

theorem evalGuarded_sameIds_iff (s : Scope) (e : Expr) :
    e.evalGuarded (s.atom ev) (s.sameIds ev) = some true ↔ Admitted ev s e := by
  constructor
  · intro h
    cases hids : s.sameIds ev with
    | none =>
      rw [hids, evalGuarded_none] at h
      cases h
    | some same =>
      rw [hids] at h
      cases same with
      | true => exact .same hids (by rwa [evalGuarded_true] at h)
      | false => exact .bypassed hids ((evalGuarded_false_iff _ e).mp h)
  · rintro (⟨hids, htrue⟩ | ⟨hids, htrue⟩)
    · rw [hids, evalGuarded_true]
      exact htrue
    · rw [hids]
      exact (evalGuarded_false_iff _ e).mpr htrue

theorem poolPasses_iff {cfg : Config} {base : Text} {e : Expr} {svms : TenantSvms cfg} {s : Scope}
    (hbase : cfg.baseFilter = some base) (he : parse base = some e)
    (hs : Reported cfg svms s.capabilities) : PoolPasses ev s ↔ Admitted ev s e := by
  obtain ⟨projectId, v, typeId, hq⟩ := reported_qualified hs
  have hne : base ≠ [] := by
    rintro rfl
    cases he
  have hpasses : passes ev s (getFilterFunction cfg) = true ↔ Admitted ev s e := by
    rw [← evalGuarded_sameIds_iff, ← eval_guards ev hq.projectId hq.typeId]
    simp only [passes, parse_getFilterFunction hbase hne he, eval_graft, evalGuarded_graft,
      Factor.eval, beq_iff_eq]
  rw [← hpasses]
  constructor
  · rintro ⟨f, hf, hpass⟩
    rw [hq.filterFunction] at hf
    cases hf
    exact hpass
  · intro hpass
    exact ⟨getFilterFunction cfg, hq.filterFunction, hpass⟩

/-- What keeps a pool out: Cinder cannot read or compare its ids and those of the request. Or it
tells them apart, and the operator's filter is a single conjunction, or the alternative to its
leading conjunction is not reached or not true. Or it reads them as equal, and the filter is not
true. -/
inductive Confined (s : Scope) (e : Expr) : Prop where
  | unread (hids : s.sameIds ev = none)
  | conjunction (hids : s.sameIds ev = some false) (hnone : e.alternative = none)
  | unreached {c : Conj} {alt : Expr} (hids : s.sameIds ev = some false)
      (halt : e.alternative = some (c, alt)) (hc : c.eval (s.atom ev) = none)
  | untrue {c : Conj} {alt : Expr} (hids : s.sameIds ev = some false)
      (halt : e.alternative = some (c, alt)) (huntrue : alt.eval (s.atom ev) ≠ some true)
  | refused (hids : s.sameIds ev = some true) (huntrue : e.eval (s.atom ev) ≠ some true)

theorem not_bypassed_of_confined {s : Scope} {e : Expr} (h : Confined ev s e)
    (hids : s.sameIds ev = some false) : ¬ e.Bypassed (s.atom ev) := by
  rintro ⟨c, alt, halt, hc, htrue⟩
  cases h with
  | unread h => rw [hids] at h; cases h
  | conjunction _ hnone => rw [halt] at hnone; cases hnone
  | unreached _ halt' hnone =>
    rw [halt] at halt'
    cases halt'
    rw [hnone] at hc
    cases hc
  | untrue _ halt' huntrue =>
    rw [halt] at halt'
    cases halt'
    exact huntrue htrue
  | refused h => rw [hids] at h; cases h

theorem confined_of_not_bypassed {s : Scope} {e : Expr} (hids : s.sameIds ev = some false)
    (h : ¬ e.Bypassed (s.atom ev)) : Confined ev s e := by
  cases halt : e.alternative with
  | none => exact .conjunction hids halt
  | some parts =>
    obtain ⟨c, alt⟩ := parts
    cases hc : c.eval (s.atom ev) with
    | none => exact .unreached hids halt hc
    | some x =>
      refine .untrue hids halt fun htrue => h ⟨c, alt, halt, ?_, htrue⟩
      rw [hc]
      rfl

theorem confined_iff_not_admitted {s : Scope} {e : Expr} :
    Confined ev s e ↔ ¬ Admitted ev s e := by
  constructor
  · rintro h (⟨hids, htrue⟩ | ⟨hids, htrue⟩)
    · cases h with
      | refused _ huntrue => exact huntrue htrue
      | unread h | conjunction h | unreached h | untrue h => rw [hids] at h; cases h
    · exact not_bypassed_of_confined ev h hids htrue
  · intro h
    cases hids : s.sameIds ev with
    | none => exact .unread hids
    | some same =>
      cases same with
      | true => exact .refused hids fun htrue => h (.same hids htrue)
      | false => exact confined_of_not_bypassed ev hids fun htrue => h (.bypassed hids htrue)

/-- One SVM `os-a` with a FlexVol for any type, under the operator's filter. -/
def filterConfig (base : Text) : Config where
  vserverPrefix := "os-".toList
  baseFilter := some base
  poolMatch _ := none

def svmOfA (base : Text) : TenantSvms (filterConfig base) where
  libs := [("os-a".toList, ⟨"os-a".toList, [[("pool_name".toList, .text "flex".toList)]]⟩)]
  named := by
    intro l hl
    rw [List.mem_singleton.mp hl]
    exact ⟨"a".toList, rfl⟩

def poolOfA (base : Text) : Dict :=
  [("pool_name".toList, .text "os-a+flex".toList), ("netapp_vserver".toList, .text "os-a".toList),
    ("netapp_project_id".toList, .text "a".toList), ("netapp_volume_type_id".toList, .text []),
    ("filter_function".toList, .text (getFilterFunction (filterConfig base)))]

theorem reported_poolOfA (base : Text) :
    Reported (filterConfig base) (svmOfA base) (poolOfA base) :=
  ⟨[poolOfA base], rfl, List.mem_singleton_self _⟩

/-- The order of texts, by code points. -/
def textLess : Text → Text → Bool
  | _, [] => false
  | [], _ :: _ => true
  | a :: x, b :: y =>
    if a.toNat < b.toNat then true
    else if b.toNat < a.toNat then false
    else textLess x y

/-- The evaluator on texts that read as no numbers. -/
def asTexts : Evaluator Text where
  literal
    | .word w => some w
    | .quoted t => some t
  entry
    | .text t => some t
    | _ => none
  compare c x y :=
    match c with
    | .eq => some (decide (x = y))
    | .ne => some (decide (x ≠ y))
    | .lt => some (textLess x y)
    | .le => some (!textLess y x)
    | .gt => some (textLess y x)
    | .ge => some (!textLess x y)

/-- A volume of project `b`, of some type and with `b` in its quality of service. -/
def requestOfB (base : Text) : Scope where
  capabilities := poolOfA base
  request := ⟨"b".toList, some "type-b".toList, []⟩
  stats := []
  extra := []
  qos := [("x".toList, .text "b".toList)]

/-- The quality of service is one of two. -/
def eitherQos : Expr :=
  .one (.or (.one (.compare .eq (.word "qos.x".toList) (.word "a".toList)))
    (.one (.one (.compare .eq (.word "qos.x".toList) (.word "b".toList)))))

end Understack.Cinder
