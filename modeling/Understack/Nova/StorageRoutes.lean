import Understack.Nova.StorageAddresses
import Understack.Workflows.NetappInterfaces

/-! The two ends of a storage path. A server's route to the targets is chosen by Nova from the
server's address, and the SVM's route back to the clients by the workflow from the first host of
the target's network. -/
namespace Understack.Nova
open PyIpaddress PyText Workflows.NetappNet

/-- The client's network lies in the client prefix of the side. -/
def ClientSide (upper : Bool) (client : Interface 32) : Prop :=
  client.network.subnetOf (halfOfSixteen 126 upper) = true

/-- The target's address and network lie in the target prefix of the side. -/
def TargetSide (upper : Bool) (target : NetappIPInterfaceConfig) : Prop :=
  (halfOfSixteen 127 upper).contains target.address = true ∧
    target.network.subnetOf (halfOfSixteen 127 upper) = true

theorem halfOfSixteen_126 (upper : Bool) : halfOfSixteen 126 upper = clientNetwork upper := rfl

theorem targetNetwork_of_clientSide {upper : Bool} {client : Interface 32}
    (h : ClientSide upper client) :
    (halfOfSixteen 126 upper).contains client.ip = true ∧
      targetNetwork .default (.v4 client) = .ok (halfOfSixteen 127 upper) := by
  have hip := Network.contains_of_subnetOf h client.network_contains
  exact ⟨hip, targetNetwork_of_contains hip⟩

/-- The first host of a target network gives the client prefix of the same side. -/
theorem fromNexthopIp_of_targetSide (svmName : Text) {upper : Bool}
    {target : NetappIPInterfaceConfig} (h : TargetSide upper target)
    (hlen : target.network.prefixlen ≤ 31) :
    ∃ nexthop spec, target.routeNexthop = .ok nexthop ∧
      RouteSpec.fromNexthopIp svmName (ipv4Text nexthop) = .ok spec ∧
      spec.destination = clientNetwork upper ∧ spec.gateway = nexthop ∧
      target.network.contains nexthop = true := by
  obtain ⟨nexthop, hhost⟩ := Network.firstHost_isSome (n := target.network) (by omega)
  have hin := Network.contains_firstHost hhost
  have hside := Network.contains_of_subnetOf h.2 hin
  obtain ⟨x, hx, hvalue, hupper⟩ := contains_half_iff.mp hside
  have hsecond : (127 : Fin 256).val = 127 := rfl
  rw [hsecond] at hvalue
  have hcgn : carrierGradeNat.contains nexthop = true := by
    rw [contains_carrierGradeNat]
    omega
  have hoctet : decide (128 ≤ nexthop / 2 ^ 8 % 256) = upper := by
    rw [hupper]
    exact decide_eq_decide.mpr (by omega)
  have hspec := fromNexthopIp_ok svmName hcgn
  rw [hoctet] at hspec
  exact ⟨nexthop, _, by rw [NetappIPInterfaceConfig.routeNexthop, hhost], hspec, rfl, rfl, hin⟩

theorem storage_routes_symmetric {client : Interface 32} {target : NetappIPInterfaceConfig}
    (hclient : ∃ upper, ClientSide upper client) (hclientLen : client.prefixlen ≤ 31)
    (htarget : ∃ upper, TargetSide upper target) (htargetLen : target.network.prefixlen ≤ 31)
    (svmName : Text) :
    ∃ network gateway nexthop spec,
      targetNetwork .default (.v4 client) = .ok network ∧
      calculatedGateway client = .ok gateway ∧
      target.routeNexthop = .ok nexthop ∧
      RouteSpec.fromNexthopIp svmName (ipv4Text nexthop) = .ok spec ∧
      (network.contains target.address = true ↔ spec.destination.contains client.ip = true) ∧
      client.network.contains gateway = true ∧ target.network.contains spec.gateway = true := by
  obtain ⟨upper, hclient⟩ := hclient
  obtain ⟨other, htarget⟩ := htarget
  obtain ⟨hip, hnetwork⟩ := targetNetwork_of_clientSide hclient
  obtain ⟨gateway, hgateway, hgatewayIn⟩ := calculatedGateway_contains (i := client) (by omega)
  obtain ⟨nexthop, spec, hnexthop, hspec, hdestination, hspecGateway, hin⟩ :=
    fromNexthopIp_of_targetSide svmName htarget htargetLen
  refine ⟨_, gateway, nexthop, spec, hnetwork, hgateway, hnexthop, hspec, ?_, hgatewayIn,
    hspecGateway ▸ hin⟩
  -- both sides say that the two interfaces are on one side
  rw [hdestination, ← halfOfSixteen_126, contains_halfOfSixteen_iff htarget.1,
    contains_halfOfSixteen_iff hip]
  exact eq_comm

/-- `100.126.200.9/20`. -/
def clientOfB : Interface 32 where
  ip := 100 * 2 ^ 24 + 126 * 2 ^ 16 + 200 * 2 ^ 8 + 9
  prefixlen := 20
  ip_lt := by decide
  prefixlen_le := by decide

theorem storage_routes_symmetric_crossed :
    ∃ network spec,
      targetNetwork .default (.v4 clientOfB) = .ok network ∧
      RouteSpec.fromNexthopIp "os-p".toList (ipv4Text (100 * 2 ^ 24 + 127 * 2 ^ 16 + 2)) = .ok spec ∧
      (network.contains lifOfA.address = true ↔
        spec.destination.contains clientOfB.ip = true) := by
  have hclient : ClientSide true clientOfB := by
    unfold ClientSide
    decide
  have htarget : TargetSide false lifOfA := ⟨by decide, by decide⟩
  have hnexthop : lifOfA.routeNexthop = .ok (100 * 2 ^ 24 + 127 * 2 ^ 16 + 2) := rfl
  obtain ⟨network, gateway, nexthop, spec, h1, -, h2, h3, h4, -⟩ :=
    storage_routes_symmetric ⟨true, hclient⟩ (by decide) ⟨false, htarget⟩ (by decide) "os-p".toList
  rw [Except.ok.inj (h2.symm.trans hnexthop)] at h3
  exact ⟨network, spec, h1, h3, h4⟩

end Understack.Nova
