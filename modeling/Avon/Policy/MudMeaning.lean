import Avon.Policy.Mud
import Avon.Policy.Engine

/-!
# What an ACE means

The meaning of an ACE by RFC 8520, read off the document and not off the import. An ACE matches if
all it says holds. What `ipv4` says is about IPv4 packets, and a `tcp` or `udp` container is about
packets of that protocol. What cannot be understood matches nothing.
-/

set_option autoImplicit false

namespace Avon.Policy.Mud

def familyOf : IpAddr → Family
  | .v4 _ => .ipv4
  | .v6 _ => .ipv6

/-- What a `destination-port` says: an operator (`eq` if there is none) and a port, or a range. -/
def portMeans (d : Json) (port : UInt16) : Bool :=
  match d.get "port", d.get "lower-port", d.get "upper-port" with
  | some p, _, _ =>
    p.asU64.any fun n =>
      match (d.get "operator").map Json.asStr with
      | none => port.toNat = n
      | some (some "eq") => port.toNat = n
      | some (some "neq") => port.toNat ≠ n
      | some (some "lte") => port.toNat ≤ n
      | some (some "gte") => n ≤ port.toNat
      | _ => false
  | none, some lower, upper =>
    lower.asU64.any fun lo =>
      match upper with
      | none => port.toNat = lo
      | some hi => hi.asU64.any fun hi => lo ≤ port.toNat && port.toNat ≤ hi
  | none, none, some _ => false
  | none, none, none => true

namespace Ace

def l4Means (ace : Ace) (key : String) (p : Protocol) (protocol : Protocol) (port : UInt16) :
    Bool :=
  (ace.matches'.get key).all fun v =>
    protocol = p && (v.get "destination-port").all fun d => portMeans d port

def protocolMeans (ace : Ace) (f : Family) (protocol : Protocol) : Bool :=
  (ace.matches'.pointer [f.text, "protocol"]).all fun v =>
    v.asU64.any fun n => n < 256 && protocol = protocolOf (some n)

def destinationMeans (env : MudEnv) (ace : Ace) (addr : IpAddr) : Bool :=
  let f := familyOf addr
  ((ace.matches'.get f.text).isSome ||
      ((ace.matches'.get "ipv4").isNone && (ace.matches'.get "ipv6").isNone)) &&
    ((ace.matches'.pointer [f.text, f.networkKey]).all fun v =>
      (v.asStr.bind env.ipNet).any fun net => net.contains addr) &&
    ((ace.matches'.pointer [f.text, "ietf-acldns:dst-dnsname"]).all fun v =>
      v.asStr.any fun name => (env.resolve name).any fun net => net.contains addr)

def means (env : MudEnv) (ace : Ace) (protocol : Protocol) (port : UInt16) (addr : IpAddr) :
    Bool :=
  ace.destinationMeans env addr && ace.protocolMeans (familyOf addr) protocol &&
    ace.l4Means "tcp" .tcp protocol port && ace.l4Means "udp" .udp protocol port

end Ace

def fromAces (doc : Json) : List Ace :=
  match doc.get "ietf-mud:mud" with
  | some mud => acesOf doc (listNames mud "from-device-policy")
  | none => []

def accepts (env : MudEnv) (doc : Json) (protocol : Protocol) (port : UInt16) (addr : IpAddr) :
    Bool :=
  ((fromAces doc).find? fun ace => ace.means env protocol port addr).any fun ace =>
    ace.action = "accept"

def flowTo (device : DeviceId) (addr : IpAddr) (protocol : Protocol) (port : UInt16) :
    DecisionRequest :=
  ⟨device, .ip addr, addr, protocol, port, false⟩

end Avon.Policy.Mud
