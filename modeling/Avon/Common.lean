import Mathlib.Data.BitVec

/-!
# Identifiers and addresses

The identifiers of `avon-common` are UUIDs under different names. `IpAddr` and
`SocketAddr` are those of `std::net`.
-/

set_option autoImplicit false

namespace Avon

abbrev Uuid := BitVec 128

abbrev TenantId := Uuid
abbrev DeviceId := Uuid
abbrev SessionId := Uuid
abbrev GatewayId := Uuid

inductive IpAddr where
  | v4 (bits : BitVec 32)
  | v6 (bits : BitVec 128)
  deriving DecidableEq, Repr

structure SocketAddr where
  ip : IpAddr
  port : UInt16
  deriving DecidableEq, Repr

end Avon
