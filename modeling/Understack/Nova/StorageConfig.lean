import Mathlib.Data.List.Forall2
import Mathlib.Data.List.Nodup
import Understack.Lib.Runs
import Understack.Nova.StorageAddresses

/-! The network data of the config drive, made from the interfaces that Nautobot returns for a
device (`ironic_understack/nautobot_client.py`). -/
namespace Understack.Nova.StorageConfig
open PyIpaddress PyText

/-- An element of `interfaces` in the GraphQL response. Of an assignment only the text of its
address is read, and an absent text is the empty one. -/
structure InterfaceData where
  id : Option Text
  macAddress : Option Text
  ipAddressAssignments : List Text

structure DeviceData where
  interfaces : List InterfaceData

structure Interface where
  id : Option Text
  macAddress : Option Text
  ipAddressAssignments : List IPInterface

structure Device where
  interfaces : List Interface

/-- `from_graphql_response`, where `ipInterface` is `ip_interface`: an address that it refuses
is skipped, as is an empty one. -/
def fromGraphqlResponse (ipInterface : Text → Option IPInterface) (devicesData : List DeviceData) :
    List Device :=
  devicesData.map fun deviceData =>
    { interfaces := deviceData.interfaces.map fun interfaceData =>
        { id := interfaceData.id
          macAddress := interfaceData.macAddress
          ipAddressAssignments := interfaceData.ipAddressAssignments.filterMap fun address =>
            if address = [] then none else ipInterface address } }

/-- The assignments that `is_ipv4` keeps. -/
def ipv4Of : IPInterface → Option (PyIpaddress.Interface 32)
  | .v4 i => some i
  | .v6 _ => none

/-- `is_in_subnet`: `subnet_of` refuses a network of the other version with a `TypeError`, which
is not caught. -/
def isInSubnet (subnet : Network 32) : IPInterface → Except AddressError Bool
  | .v4 i => .ok (i.network.subnetOf subnet)
  | .v6 _ => .error .versions

namespace Interface

def getIpv4Assignments (i : Interface) : List (PyIpaddress.Interface 32) :=
  i.ipAddressAssignments.filterMap ipv4Of

def getFirstIpv4Assignment (i : Interface) : Option (PyIpaddress.Interface 32) :=
  i.getIpv4Assignments.head?

/-- `any` stops at the first address in the subnet. -/
def hasIpInSubnet (i : Interface) (subnet : Network 32) : Except AddressError Bool :=
  i.ipAddressAssignments.anyM (isInSubnet subnet)

def isValidForConfig (i : Interface) : Bool :=
  i.macAddress.isSome && 0 < i.ipAddressAssignments.length && i.getFirstIpv4Assignment.isSome

end Interface

structure OpenstackLink where
  id : Text
  vifId : Option Text
  type : Text
  mtu : ℕ
  ethernetMacAddress : Option Text
  deriving DecidableEq

structure OpenstackRoute where
  network : Text
  netmask : Text
  gateway : Text
  deriving DecidableEq

structure OpenstackNetwork where
  id : Text
  type : Text
  link : Text
  ipAddress : Text
  netmask : Text
  routes : List OpenstackRoute
  networkId : Text
  deriving DecidableEq

def linkId (ifIndex : ℕ) : Text := "tap-stor-".toList ++ ofInt ifIndex

def Interface.asOpenstackLink (i : Interface) (ifIndex : ℕ) : OpenstackLink where
  id := linkId ifIndex
  vifId := i.id
  type := "phy".toList
  mtu := 9000
  ethernetMacAddress := i.macAddress

/-- `as_openstack_network`, with `hex` the `uuid4().hex` that it draws. The dictionary of an
interface without an IPv4 address is empty. -/
def Interface.asOpenstackNetwork (cfg : StoragePrefixes) (hex : Text) (i : Interface)
    (ifIndex : ℕ) : Except AddressError (Option OpenstackNetwork) :=
  match i.getFirstIpv4Assignment with
  | none => .ok none
  | some ip => do
    let target ← targetNetwork cfg (.v4 ip)
    let gateway ← calculatedGateway ip
    return some {
      id := "network-for-if".toList ++ ofInt ifIndex
      type := "ipv4".toList
      link := linkId ifIndex
      ipAddress := ipv4Text ip.ip
      netmask := ipv4Text ip.network.netmask
      routes := [{
        network := ipv4Text target.networkAddress
        netmask := ipv4Text target.netmask
        gateway := ipv4Text gateway }]
      networkId := hex }

def Device.getActiveInterfaces (d : Device) : List Interface :=
  d.interfaces.filter Interface.isValidForConfig

def Device.getStorageInterfaces (d : Device) (storageSubnet : Network 32) :
    Except AddressError (List Interface) :=
  Runs.select (fun i => i.hasIpInSubnet storageSubnet) d.getActiveInterfaces

structure NetworkConfig where
  links : List OpenstackLink
  networks : List (Option OpenstackNetwork)

/-- The dictionary `config` and the counter `interface_count`. -/
structure ConfigState where
  config : NetworkConfig
  interfaceCount : ℕ

/-- The body of the loop over the interfaces. `uuid4 n` is what is drawn for interface `n`. -/
def addInterface (cfg : StoragePrefixes) (uuid4 : ℕ → Text) (s : ConfigState) (i : Interface) :
    Except AddressError ConfigState :=
  match i.getFirstIpv4Assignment with
  | none => .ok s
  | some _ => do
    let network ← i.asOpenstackNetwork cfg (uuid4 s.interfaceCount) s.interfaceCount
    return {
      config := {
        links := s.config.links ++ [i.asOpenstackLink s.interfaceCount]
        networks := s.config.networks ++ [network] }
      interfaceCount := s.interfaceCount + 1 }

/-- `"100.126.0.0/16"`. -/
def storageSubnet : Network 32 where
  networkAddress := 100 * 2 ^ 24 + 126 * 2 ^ 16
  prefixlen := 16
  prefixlen_le := by decide
  aligned := by decide
  address_lt := by decide

/-- The body of the loop over the devices. -/
def addDevice (cfg : StoragePrefixes) (uuid4 : ℕ → Text) (ignoreNonStorage : Bool)
    (s : ConfigState) (d : Device) : Except AddressError ConfigState := do
  let interfaces ←
    if ignoreNonStorage then d.getStorageInterfaces storageSubnet else .ok d.getActiveInterfaces
  interfaces.foldlM (addInterface cfg uuid4) s

/-- Interfaces are numbered from 100. -/
def ConfigState.initial : ConfigState := ⟨⟨[], []⟩, 100⟩

def generateNetworkConfig (cfg : StoragePrefixes) (uuid4 : ℕ → Text) (devices : List Device)
    (ignoreNonStorage : Bool) : Except AddressError NetworkConfig := do
  let s ← devices.foldlM (addDevice cfg uuid4 ignoreNonStorage) .initial
  return s.config

/-- `storage_network_config_for_node` of the response to its query. -/
def storageNetworkConfigForNode (cfg : StoragePrefixes) (ipInterface : Text → Option IPInterface)
    (uuid4 : ℕ → Text) (response : List DeviceData) : Except AddressError NetworkConfig :=
  generateNetworkConfig cfg uuid4 (fromGraphqlResponse ipInterface response) true

/-- A storage assignment. -/
def IsStorage (a : PyIpaddress.Interface 32) : Prop := a.network.subnetOf storageSubnet = true

instance : DecidablePred IsStorage := fun _ => inferInstanceAs (Decidable (_ = _))

/-- An interface with a MAC and a storage assignment. -/
def Wanted (i : Interface) : Prop := i.macAddress ≠ none ∧ ∃ a ∈ i.getIpv4Assignments, IsStorage a

instance : DecidablePred Wanted := fun _ => instDecidableAnd

/-- The link and the network that an interface has to get: the network's address is one of its
storage assignments, and the only route leads from the client prefix that holds the address to
the target prefix of that side. -/
def Renders (i : Interface) (entry : OpenstackLink × Option OpenstackNetwork) : Prop :=
  entry.1.vifId = i.id ∧ entry.1.ethernetMacAddress = i.macAddress ∧
    ∃ n, entry.2 = some n ∧ n.link = entry.1.id ∧
      ∃ a ∈ i.getIpv4Assignments, IsStorage a ∧ n.ipAddress = ipv4Text a.ip ∧
        n.netmask = ipv4Text a.network.netmask ∧
        ∃ upper route, (halfOfSixteen 126 upper).contains a.ip = true ∧ n.routes = [route] ∧
          route.network = ipv4Text (halfOfSixteen 127 upper).networkAddress ∧
          route.netmask = ipv4Text (halfOfSixteen 127 upper).netmask

/-- What the config drive has to hold for the interfaces: one link and one network, at the same
place in their lists, for each wanted one and none for the others. -/
structure Delivered (interfaces : List Interface) (config : NetworkConfig) : Prop where
  paired : config.networks.length = config.links.length
  rendered : List.Forall₂ Renders (interfaces.filter Wanted) (config.links.zip config.networks)
  ids : (config.links.map (·.id)).Nodup

/-- The addresses of an interface are not mixed: a storage assignment comes before every other
address, and where there is none every address is an IPv4 one. This is asked of interfaces with
a MAC and an IPv4 address only. -/
def Orderly (i : Interface) : Prop :=
  i.macAddress ≠ none → i.getIpv4Assignments ≠ [] →
    (∃ a, i.ipAddressAssignments.head? = some (.v4 a) ∧ IsStorage a) ∨
      ∀ b ∈ i.ipAddressAssignments, ∃ a, b = .v4 a ∧ ¬ IsStorage a

theorem mem_getIpv4Assignments {i : Interface} {a : PyIpaddress.Interface 32} :
    a ∈ i.getIpv4Assignments ↔ IPInterface.v4 a ∈ i.ipAddressAssignments := by
  rw [Interface.getIpv4Assignments, List.mem_filterMap]
  constructor
  · rintro ⟨b, hb, hba⟩
    cases b with
    | v4 c =>
      cases hba
      exact hb
    | v6 c => cases hba
  · intro ha
    exact ⟨_, ha, rfl⟩

theorem getFirstIpv4Assignment_of_head {i : Interface} {a : PyIpaddress.Interface 32}
    (h : i.ipAddressAssignments.head? = some (.v4 a)) : i.getFirstIpv4Assignment = some a := by
  obtain ⟨rest, hrest⟩ := List.head?_eq_some_iff.mp h
  rw [Interface.getFirstIpv4Assignment, Interface.getIpv4Assignments, hrest]
  rfl

theorem isValidForConfig_iff {i : Interface} :
    i.isValidForConfig = true ↔ i.macAddress ≠ none ∧ i.getIpv4Assignments ≠ [] := by
  have hmac : i.macAddress.isSome = true ↔ i.macAddress ≠ none := Option.isSome_iff_ne_none
  have hfirst : i.getFirstIpv4Assignment.isSome = true ↔ i.getIpv4Assignments ≠ [] :=
    List.isSome_head?
  rw [Interface.isValidForConfig, Bool.and_eq_true, Bool.and_eq_true, hmac, hfirst,
    decide_eq_true_eq]
  constructor
  · rintro ⟨⟨hm, -⟩, hi⟩
    exact ⟨hm, hi⟩
  · rintro ⟨hm, hi⟩
    obtain ⟨a, ha⟩ := List.exists_mem_of_ne_nil _ hi
    exact ⟨⟨hm, List.length_pos_of_mem (mem_getIpv4Assignments.mp ha)⟩, hi⟩

/-- The search ends at a storage assignment or refuses an IPv6 address before it. -/
theorem anyM_isInSubnet {addresses : List IPInterface} {found : Bool}
    (h : addresses.anyM (isInSubnet storageSubnet) = .ok found) :
    if found then ∃ a, IPInterface.v4 a ∈ addresses ∧ IsStorage a
    else ∀ b ∈ addresses, ∃ a, b = .v4 a ∧ ¬ IsStorage a := by
  induction addresses with
  | nil =>
    cases h
    exact fun b hb => by cases hb
  | cons c rest ih =>
    rw [List.anyM_cons] at h
    obtain ⟨first, hfirst, h⟩ := Runs.bind_eq_ok h
    cases c with
    | v6 d => cases hfirst
    | v4 d =>
      have hstorage : first = d.network.subnetOf storageSubnet := (Except.ok.inj hfirst).symm
      cases first with
      | true =>
        cases h
        exact ⟨d, List.mem_cons_self, hstorage.symm⟩
      | false =>
        have hd : ¬ IsStorage d := fun hs => by
          rw [IsStorage, ← hstorage] at hs
          cases hs
        have hrest := ih h
        cases found with
        | true =>
          obtain ⟨a, ha, has⟩ := hrest
          exact ⟨a, List.mem_cons_of_mem _ ha, has⟩
        | false => exact List.forall_mem_cons.mpr ⟨⟨d, rfl, hd⟩, hrest⟩

theorem anyM_of_none {addresses : List IPInterface}
    (h : ∀ b ∈ addresses, ∃ a, b = .v4 a ∧ ¬ IsStorage a) :
    addresses.anyM (isInSubnet storageSubnet) = .ok false := by
  induction addresses with
  | nil => rfl
  | cons b rest ih =>
    obtain ⟨⟨a, rfl, hns⟩, hrest⟩ := List.forall_mem_cons.mp h
    rw [List.anyM_cons, isInSubnet, Bool.eq_false_iff.mpr hns]
    exact ih hrest

/-- The search starts with an IPv4 address, unless there is none to look at. -/
theorem head_of_anyM {addresses : List IPInterface}
    (h : addresses.anyM (isInSubnet storageSubnet) = .ok true) :
    ∃ a, addresses.head? = some (.v4 a) := by
  cases addresses with
  | nil => cases h
  | cons c rest =>
    rw [List.anyM_cons] at h
    obtain ⟨first, hfirst, -⟩ := Runs.bind_eq_ok h
    cases c with
    | v4 d => exact ⟨d, rfl⟩
    | v6 d => cases hfirst

theorem hasIpInSubnet_eq {i : Interface} {found : Bool}
    (h : i.hasIpInSubnet storageSubnet = .ok found) :
    found = decide (∃ a ∈ i.getIpv4Assignments, IsStorage a) := by
  have hfound := anyM_isInSubnet h
  cases found with
  | true =>
    obtain ⟨a, ha, hs⟩ := hfound
    exact (decide_eq_true ⟨a, mem_getIpv4Assignments.mpr ha, hs⟩).symm
  | false =>
    refine (decide_eq_false fun ⟨a, ha, hs⟩ => ?_).symm
    obtain ⟨b, hb, hns⟩ := hfound _ (mem_getIpv4Assignments.mp ha)
    cases hb
    exact hns hs

/-- An orderly interface that is looked at gives an answer. -/
theorem hasIpInSubnet_of_orderly {i : Interface} (h : Orderly i)
    (hvalid : i.isValidForConfig = true) : ∃ found, i.hasIpInSubnet storageSubnet = .ok found := by
  obtain ⟨hmac, hipv4⟩ := isValidForConfig_iff.mp hvalid
  rw [Interface.hasIpInSubnet]
  rcases h hmac hipv4 with ⟨a, hhead, hs⟩ | hnone
  · obtain ⟨rest, hrest⟩ := List.head?_eq_some_iff.mp hhead
    refine ⟨true, ?_⟩
    rw [hrest, List.anyM_cons, isInSubnet, show a.network.subnetOf storageSubnet = true from hs]
    rfl
  · exact ⟨false, anyM_of_none hnone⟩

section Run
variable {cfg : StoragePrefixes} {uuid4 : ℕ → Text}

/-- What the loops have built for the interfaces chosen so far: their renderings, numbered from
100 on. -/
structure Built (cfg : StoragePrefixes) (uuid4 : ℕ → Text) (chosen : List Interface)
    (s : ConfigState) : Prop where
  count : s.interfaceCount = 100 + chosen.length
  paired : s.config.networks.length = s.config.links.length
  entries : List.Forall₂ (fun i entry => ∃ k n, i.asOpenstackNetwork cfg (uuid4 k) k = .ok (some n) ∧
    entry = (i.asOpenstackLink k, some n)) chosen (s.config.links.zip s.config.networks)
  ids : s.config.links.map (·.id) = (List.range' 100 chosen.length).map linkId

theorem built_initial : Built cfg uuid4 [] .initial := ⟨rfl, rfl, .nil, rfl⟩

theorem asOpenstackNetwork_isSome {i : Interface} (h : i.getIpv4Assignments ≠ []) {hex : Text}
    {k : ℕ} {network : Option OpenstackNetwork} (hnet : i.asOpenstackNetwork cfg hex k = .ok network) :
    ∃ n, network = some n := by
  obtain ⟨a, ha⟩ := Option.isSome_iff_exists.mp (List.isSome_head?.mpr h)
  rw [Interface.asOpenstackNetwork, Interface.getFirstIpv4Assignment, ha] at hnet
  obtain ⟨target, -, hnet⟩ := Runs.bind_eq_ok hnet
  obtain ⟨gateway, -, hnet⟩ := Runs.bind_eq_ok hnet
  cases hnet
  exact ⟨_, rfl⟩

theorem Built.push {chosen : List Interface} {s s' : ConfigState} {i : Interface}
    (h : Built cfg uuid4 chosen s) (hi : i.getIpv4Assignments ≠ [])
    (hadd : addInterface cfg uuid4 s i = .ok s') : Built cfg uuid4 (chosen ++ [i]) s' := by
  obtain ⟨a, ha⟩ := Option.isSome_iff_exists.mp (List.isSome_head?.mpr hi)
  have hfirst : i.getFirstIpv4Assignment = some a := ha
  rw [addInterface, hfirst] at hadd
  obtain ⟨network, hnet, hadd⟩ := Runs.bind_eq_ok hadd
  obtain ⟨n, rfl⟩ := asOpenstackNetwork_isSome hi hnet
  cases hadd
  have hzip : (s.config.links ++ [i.asOpenstackLink s.interfaceCount]).zip
      (s.config.networks ++ [some n]) =
        s.config.links.zip s.config.networks ++ [(i.asOpenstackLink s.interfaceCount, some n)] :=
    List.zip_append h.paired.symm
  constructor
  · show s.interfaceCount + 1 = 100 + (chosen ++ [i]).length
    rw [h.count, List.length_append, List.length_singleton, Nat.add_assoc]
  · show (_ ++ [_]).length = (_ ++ [_]).length
    rw [List.length_append, List.length_append, h.paired]
    rfl
  · show List.Forall₂ _ _ (List.zip (_ ++ [_]) (_ ++ [_]))
    rw [hzip]
    exact List.rel_append h.entries (.cons ⟨_, n, hnet, rfl⟩ .nil)
  · show List.map _ (_ ++ [_]) = _
    rw [List.map_append, h.ids, List.length_append, List.length_singleton, List.range'_concat,
      List.map_append, Nat.one_mul, ← h.count]
    rfl

theorem Built.extend {chosen interfaces : List Interface} {s s' : ConfigState}
    (h : Built cfg uuid4 chosen s) (hi : ∀ i ∈ interfaces, i.getIpv4Assignments ≠ [])
    (hadd : interfaces.foldlM (addInterface cfg uuid4) s = .ok s') :
    Built cfg uuid4 (chosen ++ interfaces) s' := by
  induction interfaces generalizing chosen s with
  | nil =>
    cases hadd
    rwa [List.append_nil]
  | cons i rest ih =>
    rw [List.foldlM_cons] at hadd
    obtain ⟨s₁, hfirst, hrest⟩ := Runs.bind_eq_ok hadd
    have hnext := h.push (hi i List.mem_cons_self) hfirst
    have := ih hnext (fun j hj => hi j (List.mem_cons_of_mem i hj)) hrest
    rwa [List.append_assoc] at this

/-- Where the selection on a device returns, it is of the wanted interfaces. -/
theorem getStorageInterfaces_of_answers {d : Device}
    (h : ∀ i ∈ d.interfaces, i.isValidForConfig = true →
      ∃ found, i.hasIpInSubnet storageSubnet = .ok found) :
    d.getStorageInterfaces storageSubnet = .ok (d.interfaces.filter Wanted) := by
  rw [Device.getStorageInterfaces, Runs.select_eq_filter
    (q := fun i => decide (∃ a ∈ i.getIpv4Assignments, IsStorage a))]
  · rw [Device.getActiveInterfaces, List.filter_filter]
    refine congrArg Except.ok (List.filter_congr fun i _ => ?_)
    rw [Bool.eq_iff_iff, Bool.and_eq_true, isValidForConfig_iff, decide_eq_true_eq,
      decide_eq_true_eq, Wanted]
    constructor
    · rintro ⟨hs, hmac, -⟩
      exact ⟨hmac, hs⟩
    · rintro ⟨hmac, a, ha, hs⟩
      exact ⟨⟨a, ha, hs⟩, hmac, List.ne_nil_of_mem ha⟩
  · intro i hi
    obtain ⟨hi, hvalid⟩ := List.mem_filter.mp hi
    obtain ⟨found, hfound⟩ := h i hi hvalid
    rw [hfound, hasIpInSubnet_eq hfound]

theorem answers_of_getStorageInterfaces {d : Device} {interfaces : List Interface}
    (h : d.getStorageInterfaces storageSubnet = .ok interfaces) {i : Interface}
    (hi : i ∈ d.interfaces) (hvalid : i.isValidForConfig = true) :
    ∃ found, i.hasIpInSubnet storageSubnet = .ok found :=
  Runs.exists_of_select_ok h (List.mem_filter.mpr ⟨hi, hvalid⟩)

theorem wanted_ipv4 {i : Interface} (h : Wanted i) : i.getIpv4Assignments ≠ [] := by
  obtain ⟨-, a, ha, -⟩ := h
  exact List.ne_nil_of_mem ha

/-- A run of the loop over the devices that returns got an answer for every interface it asked,
and has rendered the wanted ones. -/
theorem Built.devices {chosen : List Interface} {devices : List Device} {s s' : ConfigState}
    (h : Built cfg uuid4 chosen s) (hadd : devices.foldlM (addDevice cfg uuid4 true) s = .ok s') :
    (∀ i ∈ devices.flatMap (·.interfaces), i.isValidForConfig = true →
        ∃ found, i.hasIpInSubnet storageSubnet = .ok found) ∧
      Built cfg uuid4 (chosen ++ (devices.flatMap (·.interfaces)).filter Wanted) s' := by
  induction devices generalizing chosen s with
  | nil =>
    cases hadd
    refine ⟨fun i hi => absurd hi (by simp), ?_⟩
    rwa [List.flatMap_nil, List.filter_nil, List.append_nil]
  | cons d rest ih =>
    rw [List.foldlM_cons] at hadd
    obtain ⟨s₁, hfirst, hrest⟩ := Runs.bind_eq_ok hadd
    obtain ⟨interfaces, hselect, hfirst⟩ := Runs.bind_eq_ok hfirst
    have hanswers (i : Interface) := answers_of_getStorageInterfaces hselect (i := i)
    have hwanted := getStorageInterfaces_of_answers hanswers
    obtain rfl := Except.ok.inj (hselect.symm.trans hwanted)
    have hnext := h.extend
      (fun i hi => wanted_ipv4 (of_decide_eq_true (List.mem_filter.mp hi).2)) hfirst
    obtain ⟨hrestAnswers, hbuilt⟩ := ih hnext hrest
    rw [List.flatMap_cons, List.filter_append, ← List.append_assoc]
    refine ⟨fun i hi => ?_, hbuilt⟩
    rcases List.mem_append.mp hi with hi | hi
    · exact hanswers i hi
    · exact hrestAnswers i hi

theorem asOpenstackNetwork_first {i : Interface} {a : PyIpaddress.Interface 32} {hex : Text} {k : ℕ}
    {n : OpenstackNetwork} (hfirst : i.getFirstIpv4Assignment = some a)
    (h : i.asOpenstackNetwork cfg hex k = .ok (some n)) :
    n.ipAddress = ipv4Text a.ip ∧ n.netmask = ipv4Text a.network.netmask := by
  rw [Interface.asOpenstackNetwork, hfirst] at h
  obtain ⟨target, -, h⟩ := Runs.bind_eq_ok h
  obtain ⟨gateway, -, h⟩ := Runs.bind_eq_ok h
  cases h
  exact ⟨rfl, rfl⟩

end Run

/-- A storage assignment lies on one of the two sides. -/
theorem side_of_isStorage {a : PyIpaddress.Interface 32} (h : IsStorage a) :
    ∃ upper, (halfOfSixteen 126 upper).contains a.ip = true := by
  have hip := Network.contains_iff.mp (Network.contains_of_subnetOf h a.network_contains)
  have hsize : storageSubnet.size = 2 ^ 16 := rfl
  have haddress : storageSubnet.networkAddress = 100 * 2 ^ 24 + 126 * 2 ^ 16 := rfl
  have hsecond : (126 : Fin 256).val = 126 := rfl
  rw [hsize, haddress] at hip
  refine ⟨decide (2 ^ 15 ≤ a.ip - (100 * 2 ^ 24 + 126 * 2 ^ 16)), ?_⟩
  rw [contains_half_iff, hsecond]
  exact ⟨a.ip - (100 * 2 ^ 24 + 126 * 2 ^ 16), by omega, by omega, rfl⟩

theorem calculatedGateway_of_isStorage {a : PyIpaddress.Interface 32} (h : IsStorage a) :
    calculatedGateway a = .ok (a.network.networkAddress + 1) := by
  have hend := (Network.subnetOf_iff.mp h).2
  have hpos := a.network.size_pos
  have hsubnet : storageSubnet.networkAddress + storageSubnet.size < 2 ^ 32 := by decide
  exact if_pos (by omega)

/-- An interface whose first IPv4 address is a storage assignment is rendered as it has to be. -/
theorem asOpenstackNetwork_of_isStorage {i : Interface} {a : PyIpaddress.Interface 32}
    (hfirst : i.getFirstIpv4Assignment = some a) (h : IsStorage a) (hex : Text) (k : ℕ) :
    ∃ n, i.asOpenstackNetwork .default hex k = .ok (some n) ∧
      Renders i (i.asOpenstackLink k, some n) := by
  obtain ⟨upper, hside⟩ := side_of_isStorage h
  have hmem : a ∈ i.getIpv4Assignments := List.mem_of_mem_head? hfirst
  rw [Interface.asOpenstackNetwork, hfirst]
  simp only [targetNetwork_of_contains hside, calculatedGateway_of_isStorage h]
  exact ⟨_, rfl, rfl, rfl, _, rfl, rfl, a, hmem, h, rfl, rfl, upper, _, hside, rfl, rfl, rfl⟩

/-- Of an orderly interface that is wanted, the first address is a storage assignment. -/
theorem Orderly.first {i : Interface} (h : Orderly i) (hwanted : Wanted i) :
    ∃ a, i.getFirstIpv4Assignment = some a ∧ IsStorage a := by
  obtain ⟨hmac, a, ha, hs⟩ := hwanted
  rcases h hmac (List.ne_nil_of_mem ha) with ⟨b, hhead, hsb⟩ | hnone
  · exact ⟨b, getFirstIpv4Assignment_of_head hhead, hsb⟩
  · obtain ⟨b, hb, hnb⟩ := hnone _ (mem_getIpv4Assignments.mp ha)
    cases hb
    exact absurd hs hnb

/-- Where every interface is orderly, no turn of the loops raises. -/
theorem generate_returns (uuid4 : ℕ → Text) {devices : List Device}
    (h : ∀ i ∈ devices.flatMap (·.interfaces), Orderly i) :
    ∃ config, generateNetworkConfig .default uuid4 devices true = .ok config := by
  have hturn (d : Device) (hd : d ∈ devices) (s : ConfigState) :
      ∃ s', addDevice .default uuid4 true s d = .ok s' := by
    have horderly (i : Interface) (hi : i ∈ d.interfaces) : Orderly i :=
      h i (List.mem_flatMap.mpr ⟨d, hd, hi⟩)
    have hselect := getStorageInterfaces_of_answers (d := d) fun i hi hvalid =>
      hasIpInSubnet_of_orderly (horderly i hi) hvalid
    show ∃ s', (d.getStorageInterfaces storageSubnet >>= fun interfaces =>
      interfaces.foldlM (addInterface .default uuid4) s) = .ok s'
    rw [hselect]
    refine Runs.foldlM_ok (fun i hi s => ?_) s
    obtain ⟨hi, hwanted⟩ := List.mem_filter.mp hi
    obtain ⟨a, hfirst, hs⟩ := (horderly i hi).first (of_decide_eq_true hwanted)
    obtain ⟨n, hn, -⟩ :=
      asOpenstackNetwork_of_isStorage hfirst hs (uuid4 s.interfaceCount) s.interfaceCount
    rw [addInterface, hfirst, hn]
    exact ⟨_, rfl⟩
  obtain ⟨s, hs⟩ := Runs.foldlM_ok hturn ConfigState.initial
  rw [generateNetworkConfig, hs]
  exact ⟨_, rfl⟩

theorem linkId_injective : Function.Injective linkId := by
  intro m n h
  have hvalue : int? (ofInt m) = int? (ofInt n) := congrArg int? (List.append_cancel_left h)
  rw [int?_ofInt, int?_ofInt] at hvalue
  exact Int.ofNat.inj (Option.some.inj hvalue)

theorem Built.delivered {uuid4 : ℕ → Text} {interfaces : List Interface} {s : ConfigState}
    (h : Built .default uuid4 (interfaces.filter Wanted) s)
    (horderly : ∀ i ∈ interfaces, Orderly i) : Delivered interfaces s.config where
  paired := h.paired
  rendered := by
    have hfirst (i : Interface) (hi : i ∈ interfaces.filter Wanted) :
        ∃ a, i.getFirstIpv4Assignment = some a ∧ IsStorage a := by
      obtain ⟨hi, hwanted⟩ := List.mem_filter.mp hi
      exact (horderly i hi).first (of_decide_eq_true hwanted)
    refine ((List.forall₂_and_left _ _).mpr ⟨hfirst, h.entries⟩).imp fun i entry hentry => ?_
    obtain ⟨⟨a, ha, hs⟩, k, n, hn, rfl⟩ := hentry
    obtain ⟨n', hn', hrenders⟩ := asOpenstackNetwork_of_isStorage ha hs (uuid4 k) k
    rw [hn] at hn'
    cases hn'
    exact hrenders
  ids := by
    rw [h.ids]
    exact List.Nodup.map linkId_injective List.nodup_range'

/-- The network that is rendered is of the first IPv4 address, so that one is the storage
assignment that it has to be of. -/
theorem isStorage_of_renders {i : Interface} {a : PyIpaddress.Interface 32} {hex : Text} {k : ℕ}
    {n : OpenstackNetwork} (hfirst : i.getFirstIpv4Assignment = some a)
    (hn : i.asOpenstackNetwork .default hex k = .ok (some n))
    (h : Renders i (i.asOpenstackLink k, some n)) : IsStorage a := by
  obtain ⟨-, -, n', hsome, -, b, -, hs, hip, hmask, -⟩ := h
  cases hsome
  obtain ⟨hip', hmask'⟩ := asOpenstackNetwork_first hfirst hn
  have heq : b.ip = a.ip := ipv4Text_inj b.ip_lt a.ip_lt (hip.symm.trans hip')
  have hlen : b.prefixlen = a.prefixlen := Network.netmask_inj
    (ipv4Text_inj b.network.netmask_lt a.network.netmask_lt (hmask.symm.trans hmask'))
  obtain rfl : b = a := by
    cases a
    cases b
    cases heq
    cases hlen
    rfl
  exact hs

/-- Where the drive holds what it has to, every interface that was asked is orderly. -/
theorem Built.orderly {uuid4 : ℕ → Text} {interfaces : List Interface} {s : ConfigState}
    (h : Built .default uuid4 (interfaces.filter Wanted) s)
    (hanswers : ∀ i ∈ interfaces, i.isValidForConfig = true →
      ∃ found, i.hasIpInSubnet storageSubnet = .ok found)
    (hdelivered : Delivered interfaces s.config) : ∀ i ∈ interfaces, Orderly i := by
  have hstorage : ∀ i ∈ interfaces.filter Wanted, ∀ a, i.getFirstIpv4Assignment = some a →
      IsStorage a := by
    have hboth := h.entries.mp (S := fun i _ => (∀ a, i.getFirstIpv4Assignment = some a →
      IsStorage a) ∧ True) (fun i entry hentry hrenders => ?_) hdelivered.rendered
    · exact ((List.forall₂_and_left _ _).mp hboth).1
    · obtain ⟨k, n, hn, rfl⟩ := hentry
      exact ⟨fun a ha => isStorage_of_renders ha hn hrenders, trivial⟩
  intro i hi hmac hipv4
  obtain ⟨found, hfound⟩ := hanswers i hi (isValidForConfig_iff.mpr ⟨hmac, hipv4⟩)
  cases found with
  | false => exact .inr (anyM_isInSubnet hfound)
  | true =>
    obtain ⟨a, hhead⟩ := head_of_anyM hfound
    have hwanted : Wanted i := ⟨hmac, of_decide_eq_true (hasIpInSubnet_eq hfound).symm⟩
    have hmem : i ∈ interfaces.filter Wanted :=
      List.mem_filter.mpr ⟨hi, decide_eq_true hwanted⟩
    exact .inl ⟨a, hhead, hstorage i hmem a (getFirstIpv4Assignment_of_head hhead)⟩

/-- The interfaces of the response, over all its devices. -/
def interfacesOf (ipInterface : Text → Option IPInterface) (response : List DeviceData) :
    List Interface :=
  (fromGraphqlResponse ipInterface response).flatMap (·.interfaces)

theorem storage_interfaces_delivered_iff (ipInterface : Text → Option IPInterface)
    (uuid4 : ℕ → Text) (response : List DeviceData) :
    (∃ config, storageNetworkConfigForNode .default ipInterface uuid4 response = .ok config ∧
        Delivered (interfacesOf ipInterface response) config) ↔
      ∀ i ∈ interfacesOf ipInterface response, Orderly i := by
  constructor
  · rintro ⟨config, hconfig, hdelivered⟩
    obtain ⟨s, hs, hconfig⟩ := Runs.bind_eq_ok hconfig
    cases hconfig
    obtain ⟨hanswers, hbuilt⟩ := built_initial.devices hs
    exact hbuilt.orderly hanswers hdelivered
  · intro horderly
    obtain ⟨config, hreturns⟩ := generate_returns uuid4 horderly
    refine ⟨config, hreturns, ?_⟩
    obtain ⟨s, hs, hconfig⟩ := Runs.bind_eq_ok hreturns
    cases hconfig
    obtain ⟨-, hbuilt⟩ := built_initial.devices hs
    exact hbuilt.delivered horderly

/-- The addresses of the response below. -/
def parsed (address : Text) : Option IPInterface :=
  if address = "fd00::5/64".toList then some (.v6 ⟨0xfd00 * 2 ^ 112 + 5, 64, by decide, by decide⟩)
  else if address = "100.126.0.6/24".toList then
    some (.v4 ⟨100 * 2 ^ 24 + 126 * 2 ^ 16 + 6, 24, by decide, by decide⟩)
  else none

/-- One interface with a MAC, an IPv6 address and a storage assignment after it. -/
def dualStack : List DeviceData :=
  [{ interfaces := [{
      id := some "if-1".toList
      macAddress := some "00:11:22:33:44:55".toList
      ipAddressAssignments := ["fd00::5/64".toList, "100.126.0.6/24".toList] }] }]

theorem storage_behind_ipv6_raises :
    (∀ i ∈ interfacesOf parsed dualStack, ∀ a ∈ i.getIpv4Assignments, IsStorage a →
        17 ≤ a.prefixlen) ∧
      storageNetworkConfigForNode .default parsed (fun _ => []) dualStack = .error .versions ∧
      ¬ ∃ config, storageNetworkConfigForNode .default parsed (fun _ => []) dualStack = .ok config ∧
        Delivered (interfacesOf parsed dualStack) config := by
  have hraises : storageNetworkConfigForNode .default parsed (fun _ => []) dualStack =
      .error .versions := rfl
  refine ⟨?_, hraises, ?_⟩
  · decide
  · rintro ⟨config, hconfig, -⟩
    rw [hraises] at hconfig
    cases hconfig

end Understack.Nova.StorageConfig
