import Avon.Crypto.Primitives
import Avon.Policy.Engine

/-!
# The policy check of the data plane

The model of `avon-gateway/src/policy_hook.rs`: one engine per tenant, a cache of decisions
that is cleared when policy or device attributes change, and the parser that finds the flow
of an IP packet. The log of decisions is left out.
-/

set_option autoImplicit false

namespace Avon.Gateway

open Avon.Crypto Avon.Policy Avon.Lib.BigEndian

structure Flow where
  session : SessionId
  src : IpAddr
  dst : IpAddr
  protocol : UInt8
  dstPort : Option UInt16
  deriving DecidableEq, Repr

structure Decision where
  allow : Bool
  reason : String
  deriving DecidableEq, Repr

structure FlowContext where
  session : SessionId
  tenant : TenantId
  device : DeviceId
  destinationDevice : Option DeviceId
  flow : Flow
  deriving DecidableEq, Repr

structure FlowKey where
  session : SessionId
  dst : IpAddr
  protocol : UInt8
  dstPort : UInt16
  deriving DecidableEq, Repr

structure CachedDecision where
  allow : Bool
  version : UInt64
  deriving DecidableEq, Repr

structure CedarFlowPolicy where
  engines : TenantId → Option Engine
  cache : FlowKey → Option CachedDecision

def FlowContext.key (ctx : FlowContext) : FlowKey :=
  ⟨ctx.session, ctx.flow.dst, ctx.flow.protocol, ctx.flow.dstPort.getD 0⟩

def protocolOf (n : UInt8) : Protocol :=
  if n = 6 then .tcp else if n = 17 then .udp else if n = 1 ∨ n = 58 then .icmp else .any

def FlowContext.request (ctx : FlowContext) : DecisionRequest where
  device := ctx.device
  destination := match ctx.destinationDevice with
    | some d => .device d
    | none => .ip ctx.flow.dst
  dstIp := ctx.flow.dst
  protocol := protocolOf ctx.flow.protocol
  dstPort := ctx.flow.dstPort.getD 0
  admission := false

namespace CedarFlowPolicy

def empty : CedarFlowPolicy := ⟨fun _ => none, fun _ => none⟩

def engineFor (p : CedarFlowPolicy) (tenant : TenantId) : Engine :=
  (p.engines tenant).getD (Engine.empty tenant)

/-- `apply_snapshot`. The engine is there also if the snapshot does not load; then the cache
stays. -/
def applySnapshot (tz : TzDb) (p : CedarFlowPolicy) (tenant : TenantId) (data : SnapshotData)
    (now : ℤ) : CedarFlowPolicy :=
  match (p.engineFor tenant).load tz data now with
  | .ok engine => ⟨Function.update p.engines tenant (some engine), fun _ => none⟩
  | .error _ => { p with engines := Function.update p.engines tenant (some (p.engineFor tenant)) }

/-- `patch_device`. A failed patch is ignored; the cache is cleared in any case. -/
def patchDevice (tz : TzDb) (p : CedarFlowPolicy) (tenant : TenantId) (device : DeviceId)
    (attrs : DeviceAttrs) (now : ℤ) : CedarFlowPolicy :=
  let engines := match p.engines tenant with
    | none => p.engines
    | some engine =>
      match engine.patchDevice tz device attrs now with
      | .ok engine => Function.update p.engines tenant (some engine)
      | .error _ => p.engines
  ⟨engines, fun _ => none⟩

def version (p : CedarFlowPolicy) (tenant : TenantId) : UInt64 :=
  match p.engines tenant with
  | some engine => engine.version
  | none => 0

/-- `allow`. A tenant without an engine or without policies is permissive. -/
def allow (p : CedarFlowPolicy) (ctx : FlowContext) : Decision × CedarFlowPolicy :=
  match p.engines ctx.tenant with
  | none => (⟨true, "no-policy-permissive"⟩, p)
  | some engine =>
    if !engine.hasPolicies then (⟨true, "no-policy-permissive"⟩, p)
    else
      let version := engine.version
      let decided := engine.decide ctx.request
      let fresh := (⟨decided.allow, if decided.allow then "permit" else "deny"⟩,
        { p with cache := Function.update p.cache ctx.key (some ⟨decided.allow, version⟩) })
      match p.cache ctx.key with
      | some cached =>
        if cached.version = version then (⟨cached.allow, "cached"⟩, p) else fresh
      | none => fresh

end CedarFlowPolicy

/-! ### Finding the flow of a packet -/

def bytesAt (packet : Bytes) (offset n : ℕ) : ℕ := ofBe ((packet.drop offset).take n)

/-- The destination port of TCP and UDP, if the packet reaches that far. -/
def portAt (packet : Bytes) (protocol : UInt8) (header : ℕ) : Option UInt16 :=
  if (protocol = 6 ∨ protocol = 17) ∧ header + 4 ≤ packet.length then
    some (UInt16.ofNat (bytesAt packet (header + 2) 2))
  else none

/-- `parse_flow`: version, addresses, protocol and port, `none` for anything that is not a
well-formed packet. Extension headers of IPv6 are not walked. -/
def parseFlow (session : SessionId) (packet : Bytes) : Option Flow :=
  match packet with
  | [] => none
  | first :: _ =>
    if first >>> 4 = 4 then
      if packet.length < 20 then none
      else
        let ihl := (first &&& 0x0f).toNat * 4
        if ihl < 20 ∨ packet.length < ihl then none
        else
          let protocol := packet.getD 9 0
          some ⟨session, .v4 (BitVec.ofNat 32 (bytesAt packet 12 4)),
            .v4 (BitVec.ofNat 32 (bytesAt packet 16 4)), protocol, portAt packet protocol ihl⟩
    else if first >>> 4 = 6 then
      if packet.length < 40 then none
      else
        let protocol := packet.getD 6 0
        some ⟨session, .v6 (BitVec.ofNat 128 (bytesAt packet 8 16)),
          .v6 (BitVec.ofNat 128 (bytesAt packet 24 16)), protocol, portAt packet protocol 40⟩
    else none

end Avon.Gateway
