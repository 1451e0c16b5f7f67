import Mathlib.Tactic.Common

/-! Attributes of Neutron ports and routers that the mechanism driver and the router code
inspect. -/
namespace Understack.Neutron

/-- The owners `network:router_interface` and `network:router_gateway`, and all others. -/
inductive DeviceOwner where
  | routerInterface
  | routerGateway
  | other (owner : String)
  deriving DecidableEq, Repr

/-- Membership in `ROUTER_INTERFACE_AND_GW`. -/
def DeviceOwner.isRouter : DeviceOwner → Bool
  | .routerInterface => true
  | .routerGateway => true
  | .other _ => false

/-- The `flavor_id` of a router: `ATTR_NOT_SPECIFIED`, `None` or an id. -/
inductive FlavorId where
  | notSpecified
  | null
  | value (id : String)
  deriving DecidableEq, Repr

end Understack.Neutron
