import Understack.Lib.PyText
import Understack.Lib.Runs

/-! The name that `enroll_server` gives a node, and `InspectHookNodeNameCheck`, which compares
the name of a node with the identity that an inspection reports. -/
namespace Understack.Ironic.NodeName
open PyText Runs

-- `upper` is `str.upper`
variable (upper : Text → Text)

/-- `normalise_manufacturer`; the error is the text of the `ValueError`. -/
def normaliseManufacturer (name : Text) : Except Text Text :=
  if isIn "DELL".toList (upper name) then .ok "Dell".toList
  else if isIn "HP".toList (upper name) then .ok "HP".toList
  else .error ("Server manufacturer ".toList ++ name ++ " not supported".toList)

/-- The part of `ChassisInfo` that names the device. -/
structure ChassisInfo where
  manufacturer : Text
  serialNumber : Text
  deriving DecidableEq, Repr

/-- `chassis_info`, from the `Manufacturer` and `SKU` that the BMC reports. -/
def chassisInfo (manufacturer sku : Text) : Except Text ChassisInfo := do
  let vendor ← normaliseManufacturer upper manufacturer
  return { manufacturer := vendor, serialNumber := sku }

def deviceName (deviceInfo : ChassisInfo) : Text :=
  deviceInfo.manufacturer ++ "-".toList ++ deviceInfo.serialNumber

/-- `system_vendor` of an inspection inventory; a missing entry has both fields missing. -/
structure SystemVendor where
  manufacturer : Option Text
  serialNumber : Option Text
  deriving DecidableEq, Repr

structure Node where
  uuid : Text
  name : Option Text
  deriving DecidableEq, Repr

inductive HookError where
  | invalidNodeInventory (node reason : Text)
  | identityCrisis (uuid : Text) (name : Option Text) (manufacturer serialNumber : Text)
  deriving DecidableEq, Repr

def manufacturerSlug (manufacturerName : Text) : Text :=
  let name := upper manufacturerName
  if isIn "DELL".toList name then "Dell".toList
  else if isIn "HP".toList name then "HP".toList
  else manufacturerName.map fun c => if c = ' ' then '_' else c

/-- `InspectHookNodeNameCheck.__call__`. The slug only appears in the error. -/
def nodeNameCheck (node : Node) (sysData : SystemVendor) : Except HookError Unit :=
  match sysData.serialNumber with
  | none =>
    .error (.invalidNodeInventory node.uuid "No serial number found in inventory data.".toList)
  | some serialNumber =>
    match sysData.manufacturer with
    | none =>
      .error (.invalidNodeInventory node.uuid "No manufacturer found in inventory data.".toList)
    | some manufacturer =>
      if node.name = some (manufacturer ++ "_".toList ++ serialNumber) then .ok ()
      else
        .error (.identityCrisis node.uuid node.name (manufacturerSlug upper manufacturer)
          serialNumber)

theorem nodeNameCheck_eq_ok_iff {node : Node} {sysData : SystemVendor} :
    nodeNameCheck upper node sysData = .ok () ↔
      ∃ manufacturer serialNumber, sysData = ⟨some manufacturer, some serialNumber⟩ ∧
        node.name = some (manufacturer ++ "_".toList ++ serialNumber) := by
  obtain ⟨manufacturer, serialNumber⟩ := sysData
  cases serialNumber with
  | none => simp [nodeNameCheck]
  | some serialNumber =>
    cases manufacturer with
    | none => simp [nodeNameCheck]
    | some manufacturer =>
      simp only [nodeNameCheck]
      split_ifs with h
      · simp [h]
      · simpa using h

variable {upper}

/-- The inventory is of the hardware that was enrolled: its manufacturer has the same standard
name and its serial number is the SKU. -/
def SameHardware (upper : Text → Text) (deviceInfo : ChassisInfo) (sysData : SystemVendor) :
    Prop :=
  ∃ manufacturer, sysData = ⟨some manufacturer, some deviceInfo.serialNumber⟩ ∧
    normaliseManufacturer upper manufacturer = .ok deviceInfo.manufacturer

theorem normaliseManufacturer_eq_ok {name vendor : Text}
    (h : normaliseManufacturer upper name = .ok vendor) :
    vendor = "Dell".toList ∨ vendor = "HP".toList := by
  unfold normaliseManufacturer at h
  split_ifs at h
  · exact Or.inl (Except.ok.inj h).symm
  · exact Or.inr (Except.ok.inj h).symm

theorem chassisInfo_eq_ok {manufacturer sku : Text} {deviceInfo : ChassisInfo}
    (h : chassisInfo upper manufacturer sku = .ok deviceInfo) :
    normaliseManufacturer upper manufacturer = .ok deviceInfo.manufacturer ∧
      deviceInfo.serialNumber = sku := by
  obtain ⟨vendor, hv, hinfo⟩ := bind_eq_ok h
  obtain rfl := Except.ok.inj hinfo
  exact ⟨hv, rfl⟩

theorem vendor_free {vendor : Text} (h : vendor = "Dell".toList ∨ vendor = "HP".toList) :
    '_' ∉ vendor := by
  rcases h with rfl | rfl <;> decide

/-- The text of an accepted name is split by an underscore. -/
theorem underscore_of_accepts {deviceInfo : ChassisInfo} {uuid : Text} {sysData : SystemVendor}
    (h : nodeNameCheck upper ⟨uuid, some (deviceName deviceInfo)⟩ sysData = .ok ()) :
    ∃ manufacturer serialNumber, sysData = ⟨some manufacturer, some serialNumber⟩ ∧
      deviceInfo.manufacturer ++ '-' :: deviceInfo.serialNumber =
        manufacturer ++ '_' :: serialNumber := by
  obtain ⟨manufacturer, serialNumber, hsys, hname⟩ := (nodeNameCheck_eq_ok_iff upper).mp h
  use manufacturer, serialNumber, hsys
  simpa [deviceName] using hname

theorem not_accepts_sameHardware {deviceInfo : ChassisInfo} {sysData : SystemVendor}
    (h : SameHardware upper deviceInfo sysData) (uuid : Text) :
    nodeNameCheck upper ⟨uuid, some (deviceName deviceInfo)⟩ sysData ≠ .ok () := by
  intro hok
  obtain ⟨m, hsys, -⟩ := h
  obtain ⟨manufacturer, serialNumber, hsys', heq⟩ := underscore_of_accepts hok
  obtain ⟨rfl, rfl⟩ : manufacturer = m ∧ serialNumber = deviceInfo.serialNumber := by
    simpa [hsys, eq_comm] using hsys'
  -- what stands before the serial number ends in different separators
  have htails := List.append_inj_right' heq (by simp)
  simp at htails

/-- An inventory with another serial number is accepted exactly through an underscore of the
SKU. -/
theorem rejects_others_iff {deviceInfo : ChassisInfo} (hv : '_' ∉ deviceInfo.manufacturer)
    (uuid : Text) :
    (∀ sysData : SystemVendor, sysData.serialNumber ≠ some deviceInfo.serialNumber →
      nodeNameCheck upper ⟨uuid, some (deviceName deviceInfo)⟩ sysData ≠ .ok ()) ↔
    '_' ∉ deviceInfo.serialNumber := by
  constructor
  · intro hrej hmem
    obtain ⟨before, after, hsku⟩ := List.append_of_mem hmem
    -- the part of the SKU before the underscore is read as part of the manufacturer
    have hother : (some after : Option Text) ≠ some deviceInfo.serialNumber := by
      intro heq
      have hlen := congrArg List.length (Option.some.inj heq)
      rw [hsku, List.length_append, List.length_cons] at hlen
      omega
    refine hrej ⟨some (deviceInfo.manufacturer ++ '-' :: before), some after⟩ hother ?_
    rw [nodeNameCheck_eq_ok_iff]
    exact ⟨_, _, rfl, by simp [deviceName, hsku]⟩
  · intro hfree sysData _ hok
    obtain ⟨manufacturer, serialNumber, -, heq⟩ := underscore_of_accepts hok
    have hmem : '_' ∈ deviceInfo.manufacturer ++ '-' :: deviceInfo.serialNumber := by
      simp [heq]
    simp [hv, hfree] at hmem

/-- No node that `enroll_server` names passes the check on its own hardware, which inventories
there are; another serial number is always noticed only where the SKU has no underscore. -/
theorem enrolled_node_rejected {manufacturer sku : Text} {deviceInfo : ChassisInfo}
    (h : chassisInfo upper manufacturer sku = .ok deviceInfo) (uuid : Text) :
    SameHardware upper deviceInfo ⟨some manufacturer, some sku⟩ ∧
    (∀ sysData, SameHardware upper deviceInfo sysData →
      nodeNameCheck upper ⟨uuid, some (deviceName deviceInfo)⟩ sysData ≠ .ok ()) ∧
    ((∀ sysData : SystemVendor, sysData.serialNumber ≠ some sku →
      nodeNameCheck upper ⟨uuid, some (deviceName deviceInfo)⟩ sysData ≠ .ok ()) ↔
      '_' ∉ sku) := by
  obtain ⟨hvendor, hsku⟩ := chassisInfo_eq_ok h
  have hfree := vendor_free (normaliseManufacturer_eq_ok hvendor)
  rw [← hsku]
  exact ⟨⟨manufacturer, rfl, hvendor⟩, fun sysData hs => not_accepts_sameHardware hs uuid,
    rejects_others_iff hfree uuid⟩

theorem enrolled_node_rejected_dell :
    chassisInfo (List.map Char.toUpper) "Dell Inc.".toList "AN3Z23A".toList =
      .ok ⟨"Dell".toList, "AN3Z23A".toList⟩ ∧
    nodeNameCheck (List.map Char.toUpper) ⟨"7c2e".toList, some "Dell-AN3Z23A".toList⟩
      ⟨some "Dell Inc.".toList, some "AN3Z23A".toList⟩ ≠ .ok () := by
  have h : chassisInfo (List.map Char.toUpper) "Dell Inc.".toList "AN3Z23A".toList =
      .ok ⟨"Dell".toList, "AN3Z23A".toList⟩ := by decide +kernel
  obtain ⟨hsame, hrej, -⟩ := enrolled_node_rejected h "7c2e".toList
  exact ⟨h, hrej _ hsame⟩

/-- The node of a Dell server does not pass the check with the inventory of that server. -/
theorem sameHardware_not_accepted :
    ¬ ∀ (manufacturer sku : Text) (deviceInfo : ChassisInfo) (uuid : Text)
      (sysData : SystemVendor),
      chassisInfo (List.map Char.toUpper) manufacturer sku = .ok deviceInfo →
      SameHardware (List.map Char.toUpper) deviceInfo sysData →
      nodeNameCheck (List.map Char.toUpper) ⟨uuid, some (deviceName deviceInfo)⟩ sysData =
        .ok () := by
  intro h
  have hinfo : chassisInfo (List.map Char.toUpper) "Dell Inc.".toList "AN3Z23A".toList =
      .ok ⟨"Dell".toList, "AN3Z23A".toList⟩ := by decide +kernel
  have hvendor : normaliseManufacturer (List.map Char.toUpper) "Dell Inc.".toList =
      .ok "Dell".toList := by decide +kernel
  exact absurd (h _ _ _ "7c2e".toList _ hinfo ⟨"Dell Inc.".toList, rfl, hvendor⟩)
    (by decide +kernel)

end Understack.Ironic.NodeName
