import Mathlib.Algebra.Group.Nat.Defs
import Mathlib.Algebra.Order.Group.Nat
import Mathlib.Data.Nat.Basic
import Mathlib.Tactic.Common
import Understack.Lib.PyText

/-! Networks and interfaces of Python's `ipaddress`, with addresses as numbers. -/
namespace PyIpaddress
open PyText

variable {bits : ℕ}

/-- A network of addresses of `bits` bits, 32 for IPv4 and 128 for IPv6, without host bits. -/
structure Network (bits : ℕ) where
  networkAddress : ℕ
  prefixlen : ℕ
  prefixlen_le : prefixlen ≤ bits
  aligned : 2 ^ (bits - prefixlen) ∣ networkAddress
  address_lt : networkAddress < 2 ^ bits

namespace Network

def size (n : Network bits) : ℕ := 2 ^ (bits - n.prefixlen)

def broadcastAddress (n : Network bits) : ℕ := n.networkAddress + (n.size - 1)

def netmask (n : Network bits) : ℕ := 2 ^ bits - n.size

/-- `a in n`: the address without its host bits is the network address. -/
def contains (n : Network bits) (a : ℕ) : Bool := a / n.size * n.size = n.networkAddress

def subnetOf (n m : Network bits) : Bool :=
  m.networkAddress ≤ n.networkAddress ∧ n.broadcastAddress ≤ m.broadcastAddress

/-- `next(n.hosts())`: the first address after the network address, or of a network of two
addresses the network address itself. The list that stands for the hosts of a single address
is no iterator. -/
def firstHost (n : Network bits) : Option ℕ :=
  if n.prefixlen = bits then none
  else if n.prefixlen + 1 = bits then some n.networkAddress
  else some (n.networkAddress + 1)

theorem size_pos (n : Network bits) : 0 < n.size := Nat.two_pow_pos _

theorem two_le_size {n : Network bits} (h : n.prefixlen < bits) : 2 ≤ n.size := by
  obtain ⟨k, hk⟩ : ∃ k, bits - n.prefixlen = k + 1 := ⟨bits - n.prefixlen - 1, by omega⟩
  have := Nat.two_pow_pos k
  rw [size, hk, Nat.pow_succ]
  omega

theorem contains_iff {n : Network bits} {a : ℕ} :
    n.contains a = true ↔ n.networkAddress ≤ a ∧ a < n.networkAddress + n.size := by
  obtain ⟨k, hk⟩ : n.size ∣ n.networkAddress := n.aligned
  have hpos := n.size_pos
  rw [contains, decide_eq_true_eq, hk, Nat.mul_comm, Nat.mul_right_inj hpos.ne', Nat.div_eq_iff hpos]
  rw [Nat.mul_comm k]
  omega

theorem subnetOf_iff {n m : Network bits} :
    n.subnetOf m = true ↔
      m.networkAddress ≤ n.networkAddress ∧
        n.networkAddress + n.size ≤ m.networkAddress + m.size := by
  have hn := n.size_pos
  have hm := m.size_pos
  rw [subnetOf, decide_eq_true_eq, broadcastAddress, broadcastAddress]
  omega

theorem end_le (n : Network bits) : n.networkAddress + n.size ≤ 2 ^ bits := by
  obtain ⟨k, hk⟩ : n.size ∣ n.networkAddress := n.aligned
  have hbits : 2 ^ bits = n.size * 2 ^ n.prefixlen := by
    rw [size, ← Nat.pow_add, Nat.sub_add_cancel n.prefixlen_le]
  have hlt := n.address_lt
  rw [hk, hbits] at hlt
  have hk' : k + 1 ≤ 2 ^ n.prefixlen := Nat.lt_of_mul_lt_mul_left hlt
  calc n.networkAddress + n.size = n.size * (k + 1) := by rw [hk, Nat.mul_succ]
    _ ≤ n.size * 2 ^ n.prefixlen := Nat.mul_le_mul_left _ hk'
    _ = 2 ^ bits := hbits.symm

theorem lt_of_contains {n : Network bits} {a : ℕ} (h : n.contains a = true) : a < 2 ^ bits :=
  (contains_iff.mp h).2.trans_le n.end_le

theorem contains_of_subnetOf {n m : Network bits} (h : n.subnetOf m = true) {a : ℕ}
    (ha : n.contains a = true) : m.contains a = true := by
  rw [subnetOf_iff] at h
  rw [contains_iff] at ha ⊢
  omega

theorem contains_succ {n : Network bits} (h : n.prefixlen < bits) :
    n.contains (n.networkAddress + 1) = true := by
  have := two_le_size h
  rw [contains_iff]
  omega

theorem contains_firstHost {n : Network bits} {a : ℕ} (h : n.firstHost = some a) :
    n.contains a = true := by
  unfold firstHost at h
  split at h
  · cases h
  · split at h
    · cases h
      rw [contains_iff]
      have := n.size_pos
      omega
    · cases h
      exact contains_succ (by have := n.prefixlen_le; omega)

theorem firstHost_isSome {n : Network bits} (h : n.prefixlen < bits) :
    ∃ a, n.firstHost = some a := by
  unfold firstHost
  rw [if_neg (by omega)]
  split
  · exact ⟨_, rfl⟩
  · exact ⟨_, rfl⟩

theorem netmask_lt (n : Network bits) : n.netmask < 2 ^ bits :=
  Nat.sub_lt (Nat.two_pow_pos _) n.size_pos

theorem netmask_inj {n m : Network bits} (h : n.netmask = m.netmask) :
    n.prefixlen = m.prefixlen := by
  have hn : n.size ≤ 2 ^ bits := Nat.pow_le_pow_right (by omega) (by omega)
  have hm : m.size ≤ 2 ^ bits := Nat.pow_le_pow_right (by omega) (by omega)
  have hsize : n.size = m.size := by
    unfold netmask at h
    omega
  have hexp := Nat.pow_right_injective (le_refl 2) hsize
  have := n.prefixlen_le
  have := m.prefixlen_le
  omega

end Network

/-- An address with the prefix length of its network. -/
structure Interface (bits : ℕ) where
  ip : ℕ
  prefixlen : ℕ
  ip_lt : ip < 2 ^ bits
  prefixlen_le : prefixlen ≤ bits
  deriving DecidableEq, Repr

namespace Interface

def network (i : Interface bits) : Network bits where
  networkAddress := i.ip / 2 ^ (bits - i.prefixlen) * 2 ^ (bits - i.prefixlen)
  prefixlen := i.prefixlen
  prefixlen_le := i.prefixlen_le
  aligned := Nat.dvd_mul_left _ _
  address_lt := (Nat.div_mul_le_self _ _).trans_lt i.ip_lt

theorem network_contains (i : Interface bits) : i.network.contains i.ip = true := by
  rw [Network.contains, decide_eq_true_eq]
  rfl

end Interface

/-- `ip_interface(address)` is of one of the two versions. -/
inductive IPInterface where
  | v4 (i : Interface 32)
  | v6 (i : Interface 128)
  deriving DecidableEq, Repr

/-! The text of an IPv4 address. -/

def octets (a : ℕ) : List ℕ := [a / 2 ^ 24 % 256, a / 2 ^ 16 % 256, a / 2 ^ 8 % 256, a % 256]

/-- `str(IPv4Address(a))`. -/
def ipv4Text (a : ℕ) : Text := join '.' ((octets a).map fun o : ℕ => ofInt o)

/-- `_parse_octet`: at most three ASCII digits, without a leading zero. -/
def octet? (s : Text) : Option ℕ :=
  if s ≠ [] ∧ s.all Char.isDigit ∧ s.length ≤ 3 ∧ (s = ['0'] ∨ s.head? ≠ some '0') then
    if decimalValue s ≤ 255 then some (decimalValue s) else none
  else none

/-- `int(IPv4Address(s))`. -/
def ipv4? (s : Text) : Option ℕ :=
  match split '.' s with
  | [a, b, c, d] => do
    let a ← octet? a
    let b ← octet? b
    let c ← octet? c
    let d ← octet? d
    return a * 2 ^ 24 + b * 2 ^ 16 + c * 2 ^ 8 + d
  | _ => none

theorem split_ipv4Text (a : ℕ) :
    split '.' (ipv4Text a) = (octets a).map fun o : ℕ => ofInt o := by
  refine split_join (by simp [octets]) ?_
  refine List.forall_mem_map.mpr fun o _ hm => ?_
  exact absurd (mem_ofInt_of_nonneg (Int.natCast_nonneg o) hm) (by decide)

theorem octet?_ofInt {o : ℕ} (h : o < 256) : octet? (ofInt o) = some o := by
  have hall : ∀ o : ℕ, o < 256 → octet? (ofInt o) = some o := by decide +kernel
  exact hall o h

theorem ipv4?_ipv4Text {a : ℕ} (h : a < 2 ^ 32) : ipv4? (ipv4Text a) = some a := by
  have hlt (n : ℕ) : n % 256 < 256 := Nat.mod_lt n (by omega)
  rw [ipv4?, split_ipv4Text]
  simp only [octets, List.map_cons, List.map_nil, octet?_ofInt (hlt _), Option.bind_eq_bind,
    Option.bind_some, Option.pure_def, Option.some.injEq]
  omega

theorem ipv4Text_inj {a b : ℕ} (ha : a < 2 ^ 32) (hb : b < 2 ^ 32) (h : ipv4Text a = ipv4Text b) :
    a = b := by
  have := ipv4?_ipv4Text ha
  rw [h, ipv4?_ipv4Text hb] at this
  exact (Option.some.inj this).symm

end PyIpaddress
