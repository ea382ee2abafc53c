import Avon.Policy.Engine

/-!
# What policies mean

An independent meaning of policies, over the snapshot itself: no Cedar, no compilation. `Reads` and
`Unreadable` say how the compiled text reads instead. It differs in three places: destination device
classes are not written out, a network in dotted IPv6 form cannot be read, and hours since an update
wrap around.
-/

set_option autoImplicit false

namespace Avon.Policy.Semantics

/-! ### Devices, pods and classes -/

variable (tz : TzDb) (data : SnapshotData) (now : ℤ) (req : DecisionRequest)

def PodParent (a b : Uuid) : Prop :=
  ∃ pod ∈ data.pods, pod.id = a ∧ pod.parent = some b

/-- The device is in the pod, directly or through pods below it. -/
def InPod (device pod : Uuid) : Prop :=
  ∃ d ∈ data.devices, d.id = device ∧ ∃ p ∈ d.pods, Relation.ReflTransGen (PodParent data) p pod

def HasClass (device cls : Uuid) : Prop :=
  ∃ d ∈ data.devices, d.id = device ∧ d.attrs.class? = some cls

/-! ### The parts of a policy -/

def SourceMatches (s : Selector) (device : Uuid) : Prop :=
  s.any = true ∨ device ∈ s.devices ∨ (∃ p ∈ s.pods, InPod data device p) ∨
    ∃ c ∈ s.deviceClasses, HasClass data device c

/-- The destination is a device that is listed or in a listed pod. -/
def ListedDestination (s : Selector) : Destination → Prop
  | .device d => d ∈ s.devices ∨ ∃ p ∈ s.pods, InPod data d p
  | .ip _ => False

def ClassDestination (s : Selector) : Destination → Prop
  | .device d => ∃ c ∈ s.deviceClasses, HasClass data d c
  | .ip _ => False

def DestinationMatches (s : Selector) (req : DecisionRequest) : Prop :=
  s.any = true ∨ ListedDestination data s req.destination ∨
    ClassDestination data s req.destination ∨ ∃ n ∈ s.cidrs, n.contains req.dstIp = true

def L4Matches (rules : List L4Rule) (req : DecisionRequest) : Prop :=
  rules = [] ∨ req.admission = true ∨
    ∃ rule ∈ rules, (rule.protocol = .any ∨ rule.protocol = req.protocol) ∧
      rule.ports.contains req.dstPort = true

def VersionLe (a b : ℤ × ℤ) : Prop := a.1 < b.1 ∨ a.1 = b.1 ∧ a.2 ≤ b.2

/-- The posture requirements, for a way to count hours since an update. -/
def PostureHolds (hours : ℤ → ℤ → ℤ) (now : ℤ) (p : PostureRequirements) (a : DeviceAttrs) :
    Prop :=
  (∀ v, p.firewallEnabled = some v → a.firewallEnabled = some v) ∧
  (∀ v, p.diskEncrypted = some v → a.diskEncrypted = some v) ∧
  (∀ v, p.screenLockEnabled = some v → a.screenLockEnabled = some v) ∧
  (∀ v, p.minOsVersion = some v →
    ∃ os, a.osVersion = some os ∧ VersionLe (parseOsVersion v) (parseOsVersion os)) ∧
  (∀ h, p.maxHoursSinceUpdate = some h → ∃ ts, a.lastUpdateUnix = some ts ∧ hours now ts ≤ h.toNat)

def ConditionsHold (hours : ℤ → ℤ → ℤ) (now : ℤ) (c : Conditions) (a : DeviceAttrs) : Prop :=
  (∀ p, c.posture = some p → PostureHolds hours now p a) ∧
  (c.attestation = some .verified → a.attestation = "verified") ∧
  (∀ r, c.maxRiskScore = some r → a.riskScore ≤ r)

/-- Whole hours from `ts` to `now`, 0 if `ts` is later. -/
def hoursBetween (now ts : ℤ) : ℤ := max 0 ((now - ts).tdiv 3600)

/-! ### Policies and verdicts -/

/-- The policy has no time window, or one that is active. -/
def InForce (tz : TzDb) (now : ℤ) (p : PolicySpec) : Prop :=
  ∀ tw, p.conditions.timeWindow = some tw → windowActive tz tw now = .ok true

def Matches (dev : DeviceEntity) (req : DecisionRequest) (p : PolicySpec) : Prop :=
  SourceMatches data p.source req.device ∧ DestinationMatches data p.destination req ∧
    L4Matches p.l4 req ∧ ConditionsHold hoursBetween now p.conditions dev.attrs

/-- Some allow policy in force matches and no deny policy in force does. -/
def Verdict (M : PolicySpec → Prop) : Prop :=
  (∃ p ∈ data.policies, InForce tz now p.spec ∧ p.spec.effect = .allow ∧ M p.spec) ∧
    ∀ p ∈ data.policies, InForce tz now p.spec → p.spec.effect = .deny → ¬ M p.spec

/-- The device of the request, if the snapshot has it and it is active. -/
def ActiveDevice (dev : DeviceEntity) : Prop :=
  data.findDevice req.device = some dev ∧ dev.attrs.status = "active"

def Allows : Prop :=
  ∃ dev, ActiveDevice data req dev ∧ Verdict tz data now (Matches data now dev req)

/-! ### How compiled policies read -/

/-- Looking for an address in a list of networks, from the left. A network in dotted IPv6
form that is reached cannot be read. -/
def cidrScan (ip : IpAddr) : List IpNet → Option Bool
  | [] => some false
  | net :: nets =>
    if net.addr.isV4Mapped then none
    else if net.contains ip then some true
    else cidrScan ip nets

/-- The destination matches without a look at its networks: it is `any`, it lists nothing but
device classes, or it lists the destination or a pod of it. -/
def ReadsAtOnce (s : Selector) (req : DecisionRequest) : Prop :=
  s.any = true ∨ (s.pods = [] ∧ s.devices = [] ∧ s.cidrs = []) ∨
    ListedDestination data s req.destination

def DestinationReads (s : Selector) (req : DecisionRequest) : Prop :=
  ReadsAtOnce data s req ∨ cidrScan req.dstIp s.cidrs = some true

def Reads (dev : DeviceEntity) (req : DecisionRequest) (p : PolicySpec) : Prop :=
  SourceMatches data p.source req.device ∧ DestinationReads data p.destination req ∧
    L4Matches p.l4 req ∧ ConditionsHold hoursSinceUpdate now p.conditions dev.attrs

/-- The evaluation of the policy reaches a network that cannot be read. -/
def Unreadable (p : PolicySpec) : Prop :=
  SourceMatches data p.source req.device ∧ ¬ ReadsAtOnce data p.destination req ∧
    cidrScan req.dstIp p.destination.cidrs = none

/-- The request or some policy in force cannot be read. -/
def Stuck : Prop :=
  req.dstIp.isV4Mapped = true ∨
    ∃ p ∈ data.policies, InForce tz now p.spec ∧ Unreadable data req p.spec

/-- The condition under which the engine decides as the policies mean: the device is not
active, or nothing is stuck and the verdict is the same if policies are read as compiled,
or something is stuck and the verdict is to deny anyway. -/
def Faithful : Prop :=
  ∀ dev, ActiveDevice data req dev →
    (Stuck tz data now req → ¬ Verdict tz data now (Matches data now dev req)) ∧
    (¬ Stuck tz data now req →
      (Verdict tz data now (Reads data now dev req) ↔
        Verdict tz data now (Matches data now dev req)))

end Avon.Policy.Semantics
