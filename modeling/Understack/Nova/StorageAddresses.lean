import Understack.Lib.PyIpaddress

/-! An IP address of a server interface, and the storage route that leads from it
(`ironic_understack/nautobot_client.py`). -/
namespace Understack.Nova
open PyText PyIpaddress

/-- The prefixes of the `nova_understack` group. -/
structure StoragePrefixes where
  storageTargetA : Network 32
  storageTargetB : Network 32
  storageClientA : Network 32
  storageClientB : Network 32

instance neZero_octets : @NeZero ℕ Zero.ofOfNat0 256 := ⟨by decide⟩

/-- `IPv4Network("100.x.y.0/17")` with `y` 0 or 128. -/
def halfOfSixteen (second : Fin 256) (upper : Bool) : Network 32 where
  networkAddress := 100 * 2 ^ 24 + second.val * 2 ^ 16 + (if upper then 2 ^ 15 else 0)
  prefixlen := 17
  prefixlen_le := by decide
  aligned := by
    cases upper
    · exact ⟨100 * 2 ^ 9 + second.val * 2, by simp; omega⟩
    · exact ⟨100 * 2 ^ 9 + second.val * 2 + 1, by simp; omega⟩
  address_lt := by
    have := second.isLt
    split <;> omega

/-- The defaults of `setup_conf`. -/
def StoragePrefixes.default : StoragePrefixes where
  storageTargetA := halfOfSixteen 127 false
  storageTargetB := halfOfSixteen 127 true
  storageClientA := halfOfSixteen 126 false
  storageClientB := halfOfSixteen 126 true

/-- What an address raises: `ValueError` where it has no side, `TypeError` where networks of two
versions are compared, `AddressValueError` beyond the last address. -/
inductive AddressError where
  | noTargetNetwork (interface : IPInterface)
  | versions
  | noAddress
  deriving DecidableEq, Repr

def targetNetwork (cfg : StoragePrefixes) (interface : IPInterface) :
    Except AddressError (Network 32) :=
  match interface with
  | .v4 i =>
    if cfg.storageClientA.contains i.ip then .ok cfg.storageTargetA
    else if cfg.storageClientB.contains i.ip then .ok cfg.storageTargetB
    else .error (.noTargetNetwork interface)
  -- an address of the other version is in none of the networks
  | .v6 _ => .error (.noTargetNetwork interface)

/-- `str(self.network.network_address + 1)` of an IPv4 address. -/
def calculatedGateway (i : Interface 32) : Except AddressError ℕ :=
  if i.network.networkAddress + 1 < 2 ^ 32 then .ok (i.network.networkAddress + 1)
  else .error .noAddress

theorem contains_halfOfSixteen {second : Fin 256} {upper : Bool} {a : ℕ} :
    (halfOfSixteen second upper).contains a = true ↔
      (halfOfSixteen second upper).networkAddress ≤ a ∧
        a < (halfOfSixteen second upper).networkAddress + 2 ^ 15 :=
  Network.contains_iff

theorem address_halfOfSixteen (second : Fin 256) (upper : Bool) :
    (halfOfSixteen second upper).networkAddress =
      100 * 2 ^ 24 + second.val * 2 ^ 16 + (if upper then 2 ^ 15 else 0) := rfl

/-- An address of a half is an offset within the /16, below or from its middle on. -/
theorem contains_half_iff {second : Fin 256} {upper : Bool} {a : ℕ} :
    (halfOfSixteen second upper).contains a = true ↔
      ∃ x < 2 ^ 16, a = 100 * 2 ^ 24 + second.val * 2 ^ 16 + x ∧ upper = decide (2 ^ 15 ≤ x) := by
  rw [contains_halfOfSixteen, address_halfOfSixteen]
  cases upper with
  | false =>
    simp only [Bool.false_eq_true, if_false]
    constructor
    · rintro ⟨h1, h2⟩
      exact ⟨a - (100 * 2 ^ 24 + second.val * 2 ^ 16), by omega, by omega,
        (decide_eq_false (by omega)).symm⟩
    · rintro ⟨x, hx, rfl, h⟩
      have hlow := of_decide_eq_false h.symm
      omega
  | true =>
    simp only [if_true]
    constructor
    · rintro ⟨h1, h2⟩
      exact ⟨a - (100 * 2 ^ 24 + second.val * 2 ^ 16), by omega, by omega,
        (decide_eq_true (by omega)).symm⟩
    · rintro ⟨x, hx, rfl, h⟩
      have hhigh := of_decide_eq_true h.symm
      omega

/-- An address of one half of a /16 is not in the other half. -/
theorem contains_halfOfSixteen_iff {second : Fin 256} {upper other : Bool} {a : ℕ}
    (h : (halfOfSixteen second upper).contains a = true) :
    (halfOfSixteen second other).contains a = true ↔ other = upper := by
  obtain ⟨x, hx, rfl, hupper⟩ := contains_half_iff.mp h
  rw [contains_half_iff]
  constructor
  · rintro ⟨y, -, hxy, hother⟩
    obtain rfl : x = y := Nat.add_left_cancel hxy
    rw [hother, hupper]
  · rintro rfl
    exact ⟨x, hx, rfl, hupper⟩

/-- An address of a client prefix leads to the target prefix of its side. -/
theorem targetNetwork_of_contains {upper : Bool} {i : Interface 32}
    (h : (halfOfSixteen 126 upper).contains i.ip = true) :
    targetNetwork .default (.v4 i) = .ok (halfOfSixteen 127 upper) := by
  unfold targetNetwork
  cases upper with
  | false => exact if_pos h
  | true =>
    have hlower : ¬ (halfOfSixteen 126 false).contains i.ip = true := fun hlow =>
      Bool.false_ne_true ((contains_halfOfSixteen_iff h).mp hlow)
    exact (if_neg hlower).trans (if_pos h)

/-- The gateway of an interface in a network of at least two addresses. -/
theorem calculatedGateway_contains {i : Interface 32} (h : i.prefixlen < 32) :
    ∃ gateway, calculatedGateway i = .ok gateway ∧ i.network.contains gateway = true := by
  have hcontains : i.network.contains (i.network.networkAddress + 1) = true :=
    Network.contains_succ h
  exact ⟨_, if_pos (Network.lt_of_contains hcontains), hcontains⟩

end Understack.Nova
