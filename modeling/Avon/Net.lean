import Avon.Common

/-!
# Networks

The part of the `ipnet` crate that the policy engine and the route table use. An `IpNet`
keeps the host bits it was written with; `network` and `broadcast` are the ends of its
range.
-/

set_option autoImplicit false

namespace Avon

namespace IpAddr

def width : IpAddr → ℕ
  | .v4 _ => 32
  | .v6 _ => 128

/-- An IPv6 address of `::ffff:0:0/96`. `Display` writes it with the IPv4 address in dotted
form. -/
def isV4Mapped : IpAddr → Bool
  | .v4 _ => false
  | .v6 bits => bits >>> 32 = 0xffff#128

end IpAddr

/-- The first address of the network of length `len` around `a`. -/
def netLow {w : ℕ} (a : BitVec w) (len : ℕ) : BitVec w := a &&& ~~~(BitVec.allOnes w >>> len)

/-- The last address of the network of length `len` around `a`. -/
def netHigh {w : ℕ} (a : BitVec w) (len : ℕ) : BitVec w := a ||| (BitVec.allOnes w >>> len)

structure IpNet where
  addr : IpAddr
  prefixLen : ℕ
  valid : prefixLen ≤ addr.width
  deriving DecidableEq, Repr

namespace IpNet

def host (ip : IpAddr) : IpNet := ⟨ip, ip.width, le_rfl⟩

def network (n : IpNet) : IpAddr :=
  match n.addr with
  | .v4 a => .v4 (netLow a n.prefixLen)
  | .v6 a => .v6 (netLow a n.prefixLen)

/-- `contains()` of an address: between `network()` and `broadcast()`, in one family. -/
def contains (n : IpNet) (ip : IpAddr) : Bool :=
  match n.addr, ip with
  | .v4 a, .v4 b => netLow a n.prefixLen ≤ b && b ≤ netHigh a n.prefixLen
  | .v6 a, .v6 b => netLow a n.prefixLen ≤ b && b ≤ netHigh a n.prefixLen
  | _, _ => false

end IpNet

end Avon
