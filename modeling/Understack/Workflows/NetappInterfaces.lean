import Understack.Lib.PyIpaddress

/-! The storage interfaces of a project and their routes (`netapp/value_objects.py`). -/
namespace Understack.Workflows.NetappNet
open PyText PyIpaddress

/-- The pattern of `name`. -/
def ValidName (name : Text) : Prop :=
  ∃ digit side, isDecimal digit = true ∧ (side = 'A' ∨ side = 'B') ∧
    name = 'N' :: digit :: "-lif-".toList ++ [side]

/-- An interface that the model's validators accept. -/
structure NetappIPInterfaceConfig where
  name : Text
  address : ℕ
  network : Network 32
  vlanId : ℤ
  nicSlotPrefix : Text
  name_valid : ValidName name
  address_lt : address < 2 ^ 32
  vlan_valid : 1 ≤ vlanId ∧ vlanId ≤ 4094

/-- What the properties of an interface and the constructors of a route raise. -/
inductive ValueError where
  | side (name : Text)
  | nodeIndex (name : Text)
  | noHost
  | badAddress (text : Text)
  | notCarrierGradeNat (text : Text)
  | unsupported (text : Text)
  deriving DecidableEq, Repr

namespace NetappIPInterfaceConfig

/-- The last character, which `upper` leaves as it is where it is an `A` or a `B`. -/
def side (c : NetappIPInterfaceConfig) : Except ValueError Char :=
  match c.name.getLast? with
  | some 'A' => .ok 'A'
  | some 'B' => .ok 'B'
  | _ => .error (.side c.name)

def desiredNodeNumber (c : NetappIPInterfaceConfig) : Except ValueError ℕ :=
  let namePart := (split '-' c.name).head?.getD []
  if namePart = "N1".toList then .ok 1
  else if namePart = "N2".toList then .ok 2
  else .error (.nodeIndex c.name)

def basePortName (c : NetappIPInterfaceConfig) : Except ValueError Text := do
  let side ← c.side
  return c.nicSlotPrefix ++ [side.toLower]

def routeNexthop (c : NetappIPInterfaceConfig) : Except ValueError ℕ :=
  match c.network.firstHost with
  | some a => .ok a
  | none => .error .noHost

end NetappIPInterfaceConfig

/-- `100.64.0.0/10`. -/
def carrierGradeNat : Network 32 where
  networkAddress := 100 * 2 ^ 24 + 64 * 2 ^ 16
  prefixlen := 10
  prefixlen_le := by decide
  aligned := by decide
  address_lt := by decide

/-- `100.126.0.0/17`, or `100.126.128.0/17`. -/
def clientNetwork (upper : Bool) : Network 32 where
  networkAddress := 100 * 2 ^ 24 + 126 * 2 ^ 16 + (if upper then 2 ^ 15 else 0)
  prefixlen := 17
  prefixlen_le := (by decide : 16 < 32)
  aligned := by cases upper <;> decide
  address_lt := by cases upper <;> decide

/-- `int(str(ip).split(".")[2])`. -/
def thirdOctet (ip : ℕ) : Option ℤ := (split '.' (ipv4Text ip))[2]?.bind int?

def calculateDestination (nexthopIp : Text) : Except ValueError (Network 32) :=
  match ipv4? nexthopIp with
  | none => .error (.badAddress nexthopIp)
  | some ip =>
    if carrierGradeNat.contains ip then
      match thirdOctet ip with
      | some octet =>
        if 0 ≤ octet ∧ octet ≤ 127 then .ok (clientNetwork false)
        else if 128 ≤ octet ∧ octet ≤ 255 then .ok (clientNetwork true)
        else .error (.unsupported nexthopIp)
      | none => .error (.unsupported nexthopIp)
    else .error (.notCarrierGradeNat nexthopIp)

/-- A route whose gateway the validator accepts. -/
structure RouteSpec where
  svmName : Text
  gateway : ℕ
  destination : Network 32
  gateway_valid : carrierGradeNat.contains gateway = true

def validateGateway (text : Text) : Except ValueError { a // carrierGradeNat.contains a = true } :=
  match ipv4? text with
  | none => .error (.badAddress text)
  | some a =>
    if h : carrierGradeNat.contains a = true then .ok ⟨a, h⟩ else .error (.notCarrierGradeNat text)

def RouteSpec.fromNexthopIp (svmName nexthopIp : Text) : Except ValueError RouteSpec := do
  let destination ← calculateDestination nexthopIp
  let gateway ← validateGateway nexthopIp
  return {
    svmName := svmName
    gateway := gateway.val
    destination := destination
    gateway_valid := gateway.property }

theorem thirdOctet_eq (ip : ℕ) : thirdOctet ip = some ((ip / 2 ^ 8 % 256 : ℕ) : ℤ) := by
  rw [thirdOctet, split_ipv4Text]
  simp [octets]

/-- The destination is the half that the third octet of the next hop lies in. -/
theorem calculateDestination_ok {ip : ℕ} (hc : carrierGradeNat.contains ip = true) :
    calculateDestination (ipv4Text ip) = .ok (clientNetwork (decide (128 ≤ ip / 2 ^ 8 % 256))) := by
  have hoctet : ip / 2 ^ 8 % 256 < 256 := Nat.mod_lt _ (by omega)
  simp only [calculateDestination, ipv4?_ipv4Text (Network.lt_of_contains hc), if_pos hc,
    thirdOctet_eq]
  generalize ip / 2 ^ 8 % 256 = octet at hoctet
  by_cases h : 128 ≤ octet
  · rw [if_neg (by omega), if_pos (by omega), decide_eq_true h]
  · rw [if_pos (by omega), decide_eq_false h]

theorem validateGateway_ok {ip : ℕ} (hc : carrierGradeNat.contains ip = true) :
    validateGateway (ipv4Text ip) = .ok ⟨ip, hc⟩ := by
  simp only [validateGateway, ipv4?_ipv4Text (Network.lt_of_contains hc), dif_pos hc]

theorem fromNexthopIp_ok (svmName : Text) {ip : ℕ} (hc : carrierGradeNat.contains ip = true) :
    RouteSpec.fromNexthopIp svmName (ipv4Text ip) = .ok
      ⟨svmName, ip, clientNetwork (decide (128 ≤ ip / 2 ^ 8 % 256)), hc⟩ := by
  simp only [RouteSpec.fromNexthopIp, calculateDestination_ok hc, validateGateway_ok hc, bind,
    Except.bind, pure, Except.pure]

theorem contains_carrierGradeNat {a : ℕ} :
    carrierGradeNat.contains a = true ↔
      100 * 2 ^ 24 + 64 * 2 ^ 16 ≤ a ∧ a < 100 * 2 ^ 24 + 64 * 2 ^ 16 + 2 ^ 22 :=
  Network.contains_iff

/-- `100.127.0.3/31` on the first node, where the next hop is the network address itself. -/
def lifOfA : NetappIPInterfaceConfig where
  name := "N1-lif-A".toList
  address := 100 * 2 ^ 24 + 127 * 2 ^ 16 + 3
  network := {
    networkAddress := 100 * 2 ^ 24 + 127 * 2 ^ 16 + 2
    prefixlen := 31
    prefixlen_le := by decide
    aligned := by decide
    address_lt := by decide }
  vlanId := 2002
  nicSlotPrefix := "e4".toList
  name_valid := ⟨'1', 'A', by decide, by decide, rfl⟩
  address_lt := by decide
  vlan_valid := by decide

end Understack.Workflows.NetappNet
