import Understack.Workflows.Bmc
import Understack.Workflows.NetdevMetadata

/-! `create_ironic_node` and `update_ironic_node` of `ironic_node.py`. The one sends structured
values; the other writes each as a text `path=value`, which is decoded as JSON where it can be.
A refreshed node agrees with a new one exactly when every such text survives. -/
namespace Understack.Workflows.ServerNode

open PyText Json
open Netdev (Scalar Patch argsArrayToPatch attributeToOperation deserialize)

def steadyStateBootInterface : Text := "http-ipxe".toList

/-- `_driver_for`: the driver and the inspect interface. -/
def driverFor (manufacturer : Text) : Text × Text :=
  if "Dell".toList.isPrefixOf manufacturer then ("idrac".toList, "idrac-redfish".toList)
  else ("redfish".toList, "redfish".toList)

/-- Python's truth value of an `external_cmdb_id`. -/
def isTruthy : Scalar → Bool
  | .null => false
  | .int z => z ≠ 0
  | .str s => s ≠ []

section
variable {F : Type}

/-- A node of Ironic; its `driver_info` and `extra` are objects. -/
structure Node (F : Type) where
  doc : Value F
  driverInfo : IsObjectAt ["driver_info".toList] doc
  extra : IsObjectAt ["extra".toList] doc

/-- Ironic's values for what a new node is not given; `extra` is empty. -/
structure Defaults (F : Type) where
  members : List (Text × Value F)
  extra : members.lookup "extra".toList = some (.obj [])

/-- The body of `create_node`. -/
def nodeData (bmc : Bmc) (name driver inspectInterface : Text) (externalCmdbId : Scalar) :
    List (Text × Value F) :=
  [("name".toList, .str name),
    ("driver".toList, .str driver),
    ("driver_info".toList, .obj [
      ("redfish_address".toList, .str bmc.url),
      ("redfish_verify_ca".toList, .bool false),
      ("redfish_username".toList, .str bmc.username),
      ("redfish_password".toList, .str bmc.password)]),
    ("boot_interface".toList, .str steadyStateBootInterface),
    ("deploy_interface".toList, .str "direct".toList),
    ("inspect_interface".toList, .str inspectInterface)] ++
  (if isTruthy externalCmdbId then
    [("extra".toList, .obj [("external_cmdb_id".toList, externalCmdbId.toJson)])] else []) ++
  (if driver = "fake-hardware".toList then [("resource_class".toList, .str "fakehw".toList)]
    else [])

/-- The node that Ironic makes of the body. -/
def createIronicNode (defaults : Defaults F) (bmc : Bmc) (name driver inspectInterface : Text)
    (externalCmdbId : Scalar) : Value F :=
  .obj ((nodeData bmc name driver inspectInterface externalCmdbId).foldl
    (fun d e => PyDict.put e.1 e.2 d) defaults.members)

/-- `f"{path}={value}"` -/
def assign (path value : Text) : Text := path ++ '=' :: value

/-- The texts that `update_ironic_node` writes. -/
def updates (bmc : Bmc) (name driver inspectInterface : Text) (externalCmdbId : Scalar) :
    List Text :=
  [assign "name".toList name,
    assign "driver".toList driver,
    assign "driver_info/redfish_address".toList bmc.url,
    assign "driver_info/redfish_verify_ca".toList "false".toList,
    assign "driver_info/redfish_username".toList bmc.username,
    assign "driver_info/redfish_password".toList bmc.password,
    assign "boot_interface".toList steadyStateBootInterface,
    assign "inspect_interface".toList inspectInterface] ++
  (if isTruthy externalCmdbId then
    [assign "extra/external_cmdb_id".toList externalCmdbId.format] else [])

variable [FloatOps F]

/-- `update_node`: the operations of the patch in order. -/
def applyPatch (patch : Patch F) (doc : Value F) : Option (Value F) :=
  patch.foldlM (fun doc op => (pointer op.1).bind fun path => addAt op.2 path doc) doc

/-- What `update_ironic_node` leaves of a node. -/
def updateIronicNode (node : Node F) (bmc : Bmc) (name driver inspectInterface : Text)
    (externalCmdbId : Scalar) : Option (Value F) :=
  (argsArrayToPatch (updates bmc name driver inspectInterface externalCmdbId)).bind fun patches =>
    applyPatch patches node.doc

end

/-! The patch of the update. -/

section
variable {F : Type} [FloatOps F]

theorem attributeToOperation_assign {p : Text} (heq : '=' ∉ p) (hhead : p.head? ≠ some '/')
    (v : Text) : attributeToOperation (F := F) (assign p v) = some ('/' :: p, deserialize v) := by
  have hslash : (p ++ '=' :: v).head? ≠ some '/' := by
    cases p with
    | nil => simp
    | cons c cs => simpa using hhead
  have hnot : '=' ∉ '/' :: p := by simpa using heq
  rw [assign, attributeToOperation, if_neg hslash, ← List.cons_append, splitOnce_append hnot]
  rfl

/-- The text of a field, the path to which it decodes, and the text of the value. -/
abbrev Assignment := Text × List Text × Text

def Assignment.WellFormed (e : Assignment) : Prop :=
  '=' ∉ e.1 ∧ e.1.head? ≠ some '/' ∧ pointer ('/' :: e.1) = some e.2.1

theorem argsArrayToPatch_assignments {es : List Assignment} (h : ∀ e ∈ es, e.WellFormed) :
    argsArrayToPatch (F := F) (es.map fun e => assign e.1 e.2.2) =
      some (es.map fun e => ('/' :: e.1, deserialize e.2.2)) := by
  unfold argsArrayToPatch
  induction es with
  | nil => rfl
  | cons e es ih =>
    obtain ⟨heq, hhead, -⟩ := h e List.mem_cons_self
    rw [List.map_cons, List.mapM_cons, attributeToOperation_assign heq hhead,
      ih fun e he => h e (List.mem_cons_of_mem _ he)]
    rfl

theorem applyPatch_assignments {es : List Assignment} (h : ∀ e ∈ es, e.WellFormed)
    (doc : Value F) :
    applyPatch (es.map fun e => ('/' :: e.1, deserialize e.2.2)) doc =
      (es.map fun e => (e.2.1, deserialize e.2.2)).foldlM
        (fun doc op => addAt op.2 op.1 doc) doc := by
  unfold applyPatch
  induction es generalizing doc with
  | nil => rfl
  | cons e es ih =>
    obtain ⟨-, -, hp⟩ := h e List.mem_cons_self
    rw [List.map_cons, List.map_cons, List.foldlM_cons, List.foldlM_cons, hp, Option.bind_some]
    cases hadd : addAt (deserialize e.2.2) e.2.1 doc with
    | none => rfl
    | some doc' => exact ih (fun e he => h e (List.mem_cons_of_mem _ he)) doc'

def cmdbIdPath : List Text := ["extra".toList, "external_cmdb_id".toList]

def assignments (bmc : Bmc) (name driver inspectInterface : Text) (externalCmdbId : Scalar) :
    List Assignment :=
  [("name".toList, ["name".toList], name),
    ("driver".toList, ["driver".toList], driver),
    ("driver_info/redfish_address".toList, ["driver_info".toList, "redfish_address".toList],
      bmc.url),
    ("driver_info/redfish_verify_ca".toList, ["driver_info".toList, "redfish_verify_ca".toList],
      "false".toList),
    ("driver_info/redfish_username".toList, ["driver_info".toList, "redfish_username".toList],
      bmc.username),
    ("driver_info/redfish_password".toList, ["driver_info".toList, "redfish_password".toList],
      bmc.password),
    ("boot_interface".toList, ["boot_interface".toList], steadyStateBootInterface),
    ("inspect_interface".toList, ["inspect_interface".toList], inspectInterface)] ++
  (if isTruthy externalCmdbId then
    [("extra/external_cmdb_id".toList, cmdbIdPath, externalCmdbId.format)] else [])

theorem updates_eq (bmc : Bmc) (name driver inspectInterface : Text) (externalCmdbId : Scalar) :
    updates bmc name driver inspectInterface externalCmdbId =
      (assignments bmc name driver inspectInterface externalCmdbId).map
        fun e => assign e.1 e.2.2 := by
  unfold updates assignments
  split_ifs <;> rfl

/-- The fields of `assignments`, which do not depend on the values. -/
def fields (withCmdbId : Bool) : List (Text × List Text) :=
  [("name".toList, ["name".toList]),
    ("driver".toList, ["driver".toList]),
    ("driver_info/redfish_address".toList, ["driver_info".toList, "redfish_address".toList]),
    ("driver_info/redfish_verify_ca".toList, ["driver_info".toList, "redfish_verify_ca".toList]),
    ("driver_info/redfish_username".toList, ["driver_info".toList, "redfish_username".toList]),
    ("driver_info/redfish_password".toList, ["driver_info".toList, "redfish_password".toList]),
    ("boot_interface".toList, ["boot_interface".toList]),
    ("inspect_interface".toList, ["inspect_interface".toList])] ++
  (if withCmdbId then [("extra/external_cmdb_id".toList, cmdbIdPath)] else [])

theorem assignments_fields (bmc : Bmc) (name driver inspectInterface : Text)
    (externalCmdbId : Scalar) :
    (assignments bmc name driver inspectInterface externalCmdbId).map (fun e => (e.1, e.2.1)) =
      fields (isTruthy externalCmdbId) := by
  unfold assignments fields
  cases isTruthy externalCmdbId <;> rfl

theorem fields_wellFormed (withCmdbId : Bool) :
    ∀ f ∈ fields withCmdbId, '=' ∉ f.1 ∧ f.1.head? ≠ some '/' ∧
      pointer ('/' :: f.1) = some f.2 ∧ f.2 ≠ [] := by
  cases withCmdbId <;> decide +kernel

theorem fields_apart (withCmdbId : Bool) :
    (fields withCmdbId).Pairwise fun a b => Apart a.2 b.2 := by
  cases withCmdbId <;> decide +kernel

/-- Every field is a member of the node, of its `driver_info` or of its `extra`. -/
theorem fields_parent (withCmdbId : Bool) :
    ∀ f ∈ fields withCmdbId,
      f.2.dropLast ∈ [[], ["driver_info".toList], ["extra".toList]] := by
  cases withCmdbId <;> decide +kernel

omit [FloatOps F] in
theorem Node.isObjectAt_parent (node : Node F) {path : List Text}
    (h : path ∈ [[], ["driver_info".toList], ["extra".toList]]) : IsObjectAt path node.doc := by
  simp only [List.mem_cons, List.not_mem_nil, or_false] at h
  rcases h with rfl | rfl | rfl
  · obtain ⟨ms, h⟩ := node.driverInfo
    cases hd : node.doc with
    | obj ms => exact ⟨ms, rfl⟩
    | null => rw [hd] at h; cases h
    | bool b => rw [hd] at h; cases h
    | int z => rw [hd] at h; cases h
    | float x => rw [hd] at h; cases h
    | str s => rw [hd] at h; cases h
    | arr xs => rw [hd] at h; cases h
  · exact node.driverInfo
  · exact node.extra

/-- The update carries out every assignment, and an identifier that is not sent stays. -/
theorem updateIronicNode_spec (node : Node F) (bmc : Bmc) (name driver inspectInterface : Text)
    (externalCmdbId : Scalar) :
    ∃ doc, updateIronicNode node bmc name driver inspectInterface externalCmdbId = some doc ∧
      (∀ e ∈ assignments bmc name driver inspectInterface externalCmdbId,
        valueAt e.2.1 doc = some (deserialize e.2.2)) ∧
      (isTruthy externalCmdbId = false → valueAt cmdbIdPath doc = valueAt cmdbIdPath node.doc) := by
  set es := assignments bmc name driver inspectInterface externalCmdbId with hes
  have hfields : es.map (fun e => (e.1, e.2.1)) = fields (isTruthy externalCmdbId) :=
    assignments_fields bmc name driver inspectInterface externalCmdbId
  have hmem : ∀ e ∈ es, (e.1, e.2.1) ∈ fields (isTruthy externalCmdbId) := fun e he =>
    hfields ▸ List.mem_map.mpr ⟨e, he, rfl⟩
  have hwell : ∀ e ∈ es, e.WellFormed := fun e he =>
    have h := fields_wellFormed _ _ (hmem e he)
    ⟨h.1, h.2.1, h.2.2.1⟩
  have hapart : (es.map fun e => (e.2.1, deserialize (F := F) e.2.2)).Pairwise
      fun a b => Apart a.1 b.1 := by
    have h := fields_apart (isTruthy externalCmdbId)
    rw [← hfields, List.pairwise_map] at h
    exact List.pairwise_map.mpr h
  obtain ⟨doc, hdoc, hvals, hkeep⟩ := foldlM_addAt node.doc
    (by
      intro op hop
      obtain ⟨e, he, rfl⟩ := List.mem_map.mp hop
      exact (fields_wellFormed _ _ (hmem e he)).2.2.2)
    (by
      intro op hop
      obtain ⟨e, he, rfl⟩ := List.mem_map.mp hop
      exact node.isObjectAt_parent (fields_parent _ _ (hmem e he)))
    hapart
  refine ⟨doc, ?_, ?_, fun hid => hkeep _ ?_⟩
  · rw [updateIronicNode, updates_eq, argsArrayToPatch_assignments hwell, Option.bind_some,
      applyPatch_assignments hwell, hdoc]
  · exact fun e he => hvals _ (List.mem_map.mpr ⟨e, he, rfl⟩)
  · intro op hop
    obtain ⟨e, he, rfl⟩ := List.mem_map.mp hop
    have hother : ∀ f ∈ fields false, Apart f.2 cmdbIdPath := by decide +kernel
    exact hother _ (hid ▸ hmem e he)

/-! The two nodes side by side. -/

def bodyKeys (withCmdbId fake : Bool) : List Text :=
  ["name".toList, "driver".toList, "driver_info".toList, "boot_interface".toList,
    "deploy_interface".toList, "inspect_interface".toList] ++
  (if withCmdbId then ["extra".toList] else []) ++
  (if fake then ["resource_class".toList] else [])

omit [FloatOps F] in
theorem nodeData_nodup (bmc : Bmc) (name driver inspectInterface : Text)
    (externalCmdbId : Scalar) :
    ((nodeData (F := F) bmc name driver inspectInterface externalCmdbId).map Prod.fst).Nodup := by
  have hkeys (withCmdbId fake : Bool) : (bodyKeys withCmdbId fake).Nodup := by
    cases withCmdbId <;> cases fake <;> decide +kernel
  have hmap : (nodeData (F := F) bmc name driver inspectInterface externalCmdbId).map Prod.fst =
      bodyKeys (isTruthy externalCmdbId) (driver = "fake-hardware".toList) := by
    unfold nodeData bodyKeys
    simp only [List.map_append, decide_eq_true_eq]
    congr 1
    · congr 1
      cases isTruthy externalCmdbId <;> rfl
    · split_ifs <;> rfl
  exact hmap ▸ hkeys _ _

omit [FloatOps F] in
/-- A field of a new node is the one given, or else the default. -/
theorem valueAt_created (defaults : Defaults F) (bmc : Bmc) (name driver inspectInterface : Text)
    (externalCmdbId : Scalar) (k : Text) (rest : List Text) :
    valueAt (k :: rest)
        (createIronicNode defaults bmc name driver inspectInterface externalCmdbId) =
      (((nodeData bmc name driver inspectInterface externalCmdbId).lookup k).or
        (defaults.members.lookup k)).bind (valueAt rest) := by
  rw [createIronicNode, valueAt_cons_obj,
    PyDict.lookup_foldl_put_of_nodup (nodeData_nodup bmc name driver inspectInterface externalCmdbId)]

/-- The fields that are always sent. -/
def comparedFields : List (List Text) :=
  [["name".toList], ["driver".toList], ["driver_info".toList, "redfish_address".toList],
    ["driver_info".toList, "redfish_verify_ca".toList],
    ["driver_info".toList, "redfish_username".toList],
    ["driver_info".toList, "redfish_password".toList]]

/-- A refreshed node has the values of a new one, with their types. -/
structure Agrees (externalCmdbId : Scalar) (updated created : Value F) : Prop where
  fields : ∀ path ∈ comparedFields, valueAt path updated = valueAt path created
  cmdbId : externalCmdbId ≠ .null → valueAt cmdbIdPath updated = valueAt cmdbIdPath created

/-- An identifier that is sent survives its text; zero and the empty text are not sent, and the
node had none. -/
def CmdbIdSurvives (node : Node F) : Scalar → Prop
  | .null => True
  | .int z => z = 0 → valueAt cmdbIdPath node.doc = none
  | .str [] => valueAt cmdbIdPath node.doc = none
  | .str s => loads (F := F) s = none

/-- No text that the update sends is JSON. -/
structure TextsSurvive (node : Node F) (bmc : Bmc) (name : Text) (externalCmdbId : Scalar) :
    Prop where
  name : loads (F := F) name = none
  username : loads (F := F) bmc.username = none
  password : loads (F := F) bmc.password = none
  cmdbId : CmdbIdSurvives node externalCmdbId

theorem loads_url (bmc : Bmc) : loads (F := F) bmc.url = none := by
  rw [show bmc.url = 'h' :: ("ttps://".toList ++ bmc.ipAddress) from rfl]
  exact loads_eq_none_of_head _ (by decide) (by decide)

theorem loads_driverFor (manufacturer : Text) :
    loads (F := F) (driverFor manufacturer).1 = none := by
  unfold driverFor
  split
  · exact loads_eq_none_of_head "drac".toList (by decide) (by decide)
  · exact loads_eq_none_of_head "edfish".toList (by decide) (by decide)

section
variable (defaults : Defaults F) (bmc : Bmc) (name driver inspectInterface : Text)
  (externalCmdbId : Scalar)

omit [FloatOps F] in
theorem created_fields :
    comparedFields.map (fun path => valueAt path
        (createIronicNode defaults bmc name driver inspectInterface externalCmdbId)) =
      [some (.str name), some (.str driver), some (.str bmc.url), some (.bool false),
        some (.str bmc.username), some (.str bmc.password)] := by
  have hname : (nodeData (F := F) bmc name driver inspectInterface externalCmdbId).lookup
      "name".toList = some (.str name) := rfl
  have hdriver : (nodeData (F := F) bmc name driver inspectInterface externalCmdbId).lookup
      "driver".toList = some (.str driver) := rfl
  have hinfo : (nodeData (F := F) bmc name driver inspectInterface externalCmdbId).lookup
      "driver_info".toList = some (.obj [
        ("redfish_address".toList, .str bmc.url), ("redfish_verify_ca".toList, .bool false),
        ("redfish_username".toList, .str bmc.username),
        ("redfish_password".toList, .str bmc.password)]) := rfl
  simp only [comparedFields, List.map_cons, List.map_nil, valueAt_created, hname, hdriver, hinfo]
  rfl

omit [FloatOps F] in
theorem created_cmdbId :
    valueAt cmdbIdPath
        (createIronicNode defaults bmc name driver inspectInterface externalCmdbId) =
      if isTruthy externalCmdbId then some externalCmdbId.toJson else none := by
  have hextra : (nodeData (F := F) bmc name driver inspectInterface externalCmdbId).lookup
      "extra".toList = if isTruthy externalCmdbId then
        some (.obj [("external_cmdb_id".toList, externalCmdbId.toJson)]) else none := by
    unfold nodeData
    cases isTruthy externalCmdbId <;> split_ifs <;> rfl
  rw [cmdbIdPath, valueAt_created, hextra, defaults.extra]
  cases isTruthy externalCmdbId <;> rfl

theorem updated_fields {doc : Value F}
    (h : ∀ e ∈ assignments bmc name driver inspectInterface externalCmdbId,
      valueAt e.2.1 doc = some (deserialize e.2.2)) :
    comparedFields.map (fun path => valueAt path doc) =
      [some (deserialize name), some (deserialize driver), some (deserialize bmc.url),
        some (.bool false), some (deserialize bmc.username), some (deserialize bmc.password)] := by
  have hfalse : deserialize (F := F) "false".toList = .bool false := by
    have hloads : loads (F := F) "false".toList = some (.bool false) := rfl
    rw [deserialize, hloads, Option.getD_some]
  simp only [assignments, List.forall_mem_append, List.forall_mem_cons] at h
  obtain ⟨⟨hname, hdriver, haddress, hverify, husername, hpassword, -⟩, -⟩ := h
  simp only [comparedFields, List.map_cons, List.map_nil, hname, hdriver, haddress, hverify,
    husername, hpassword, hfalse]

/-- The identifier survives if it is sent and read back, or not sent and not there. -/
theorem cmdbId_agrees {node : Node F} {doc : Value F}
    (h : ∀ e ∈ assignments bmc name driver inspectInterface externalCmdbId,
      valueAt e.2.1 doc = some (deserialize e.2.2))
    (hkeep : isTruthy externalCmdbId = false →
      valueAt cmdbIdPath doc = valueAt cmdbIdPath node.doc) :
    (externalCmdbId ≠ .null → valueAt cmdbIdPath doc = valueAt cmdbIdPath
        (createIronicNode defaults bmc name driver inspectInterface externalCmdbId)) ↔
      CmdbIdSurvives node externalCmdbId := by
  rw [created_cmdbId]
  have hsent (ht : isTruthy externalCmdbId = true) :
      valueAt cmdbIdPath doc = some (deserialize externalCmdbId.format) := by
    refine h ("extra/external_cmdb_id".toList, cmdbIdPath, externalCmdbId.format) ?_
    unfold assignments
    rw [if_pos ht]
    exact List.mem_append_right _ List.mem_cons_self
  have hread (ht : isTruthy externalCmdbId = true) :
      valueAt cmdbIdPath doc = some externalCmdbId.toJson ↔ Netdev.Survives F externalCmdbId := by
    rw [hsent ht, Option.some.injEq]
    exact Netdev.deserialize_format externalCmdbId
  cases externalCmdbId with
  | null => simp [CmdbIdSurvives]
  | int z =>
    by_cases hz : z = 0
    · subst hz
      simp [CmdbIdSurvives, isTruthy, hkeep rfl]
    · have ht : isTruthy (.int z) = true := by simp [isTruthy, hz]
      simp [CmdbIdSurvives, ht, hz, hread ht, Netdev.Survives]
  | str s =>
    cases s with
    | nil => simp [CmdbIdSurvives, isTruthy, hkeep rfl]
    | cons c cs =>
      have ht : isTruthy (.str (c :: cs)) = true := rfl
      simp [CmdbIdSurvives, ht, hread ht, Netdev.Survives]

/-- With a driver whose name is not JSON the two paths agree exactly when every text survives. -/
theorem agrees_iff (node : Node F) (hdriver : loads (F := F) driver = none) :
    (∃ doc, updateIronicNode node bmc name driver inspectInterface externalCmdbId = some doc ∧
        Agrees externalCmdbId doc
          (createIronicNode defaults bmc name driver inspectInterface externalCmdbId)) ↔
      TextsSurvive node bmc name externalCmdbId := by
  obtain ⟨doc, hdoc, hvals, hkeep⟩ :=
    updateIronicNode_spec node bmc name driver inspectInterface externalCmdbId
  have hid := cmdbId_agrees defaults bmc name driver inspectInterface externalCmdbId hvals hkeep
  have hstr (s : Text) : deserialize (F := F) s = .str s ↔ loads (F := F) s = none :=
    Netdev.deserialize_eq_str s
  have hmaps : (∀ path ∈ comparedFields, valueAt path doc = valueAt path
      (createIronicNode defaults bmc name driver inspectInterface externalCmdbId)) ↔
      loads (F := F) name = none ∧ loads (F := F) bmc.username = none ∧
        loads (F := F) bmc.password = none := by
    rw [← List.map_inj_left, created_fields,
      updated_fields bmc name driver inspectInterface externalCmdbId hvals]
    simp only [List.cons.injEq, Option.some.injEq, hstr, hdriver, loads_url, true_and, and_true]
  rw [hdoc]
  constructor
  · rintro ⟨_, hsome, hfields, hcmdb⟩
    cases hsome
    obtain ⟨hname, husername, hpassword⟩ := hmaps.mp hfields
    exact ⟨hname, husername, hpassword, hid.mp hcmdb⟩
  · rintro ⟨hname, husername, hpassword, hcmdb⟩
    exact ⟨doc, rfl, hmaps.mpr ⟨hname, husername, hpassword⟩, hid.mpr hcmdb⟩

/-- A refreshed node agrees with a new one exactly when the name, the user name, the password
and the identifier survive being written as text. -/
theorem update_agrees_create_iff (node : Node F) (manufacturer : Text) :
    (∃ doc, updateIronicNode node bmc name (driverFor manufacturer).1 (driverFor manufacturer).2
          externalCmdbId = some doc ∧
        Agrees externalCmdbId doc (createIronicNode defaults bmc name (driverFor manufacturer).1
          (driverFor manufacturer).2 externalCmdbId)) ↔
      TextsSurvive node bmc name externalCmdbId :=
  agrees_iff defaults bmc name _ _ externalCmdbId node (loads_driverFor manufacturer)

end

end

/-- A node with empty objects. -/
def bareNode : Node Text where
  doc := .obj [("driver_info".toList, .obj []), ("extra".toList, .obj [])]
  driverInfo := ⟨[], rfl⟩
  extra := ⟨[], rfl⟩

/-- A password of digits comes back as a number. -/
theorem digits_password_diverges :
    ¬ ∃ doc, updateIronicNode bareNode
          (Bmc.new "10.0.0.1".toList (some "12345678".toList) "root".toList) "Dell-ABC".toList
          (driverFor "Dell Inc.".toList).1 (driverFor "Dell Inc.".toList).2 .null = some doc ∧
        Agrees .null doc (createIronicNode ⟨[("extra".toList, .obj [])], rfl⟩
          (Bmc.new "10.0.0.1".toList (some "12345678".toList) "root".toList) "Dell-ABC".toList
          (driverFor "Dell Inc.".toList).1 (driverFor "Dell Inc.".toList).2 .null) := by
  rw [agrees_iff _ _ _ _ _ _ bareNode (loads_driverFor _)]
  intro h
  have hpassword : loads (F := Text) "12345678".toList = none := h.password
  rw [show "12345678".toList = ofInt 12345678 by decide +kernel, loads_ofInt] at hpassword
  cases hpassword

end Understack.Workflows.ServerNode
