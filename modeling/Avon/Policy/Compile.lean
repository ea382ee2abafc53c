import Avon.Policy.Entities

/-!
# From policies to Cedar

The model of `avon-policy/src/compile.rs`. `cedarSource` gives the expression tree of the
text that the source writes: an empty list of alternatives is `true`, one alternative
stands alone, several are joined by `||` from the left.
-/

set_option autoImplicit false

namespace Avon.Policy

open Avon.Cedar

/-- The alternatives joined by `||`; `true` if there are none. -/
def joinOr : List Expr → Expr
  | [] => .always
  | e :: es => es.foldl .or e

/-- The conjuncts joined by `&&`; `true` if there are none. -/
def joinAnd : List Expr → Expr
  | [] => .always
  | e :: es => es.foldl .and e

def inList (a : Expr) (uids : List EntityUid) : List Expr :=
  if uids.isEmpty then [] else [.isIn a uids]

def sourceExpr (s : Selector) : Expr :=
  if s.any then .always
  else joinOr (inList .principal (s.pods.map .pod) ++
    inList .principal (s.deviceClasses.map .deviceClass) ++
    inList .principal (s.devices.map .device))

def cidrCheck (net : IpNet) : Expr := .isInRange (.context .dstIp) (.ip net)

def destExpr (s : Selector) : Expr :=
  if s.any then .always
  else joinOr (inList .resource (s.pods.map .pod) ++ inList .resource (s.devices.map .device) ++
    if s.cidrs.isEmpty then []
    else
      [.and (.eq .resource (.lit (.entity .external))) (joinOr (s.cidrs.map cidrCheck)),
        .and (.isType .resource .device) (joinOr (s.cidrs.map cidrCheck))])

/-- The text of a protocol, in a policy and in a request. -/
def Protocol.text : Protocol → String
  | .tcp => "tcp"
  | .udp => "udp"
  | .icmp => "icmp"
  | .any => "any"

def protocolCheck (p : Protocol) : Expr := .eq (.context .protocol) (.lit (.string p.text))

def portCheck (r : PortRange) : Expr :=
  if r.start = r.stop then .eq (.context .dstPort) (.lit (.long r.start.toNat))
  else .and (.cmp .ge (.context .dstPort) (.lit (.long r.start.toNat)))
    (.cmp .le (.context .dstPort) (.lit (.long r.stop.toNat)))

/-- The expression of one rule. Admission matches any rule, regardless of the port. -/
def ruleExpr (rule : L4Rule) : Expr :=
  .or (.context .admission) (match rule.protocol with
    | .any => .always
    | .icmp => protocolCheck .icmp
    | p => if rule.ports.isAll then protocolCheck p
        else .and (protocolCheck p) (joinOr (rule.ports.ranges.map portCheck)))

def l4Expr (rules : List L4Rule) : Expr := joinOr (rules.map ruleExpr)

def flagCheck (a : Attr) (v : Bool) : Expr :=
  .and (.has .principal a) (.eq (.get .principal a) (.lit (.bool v)))

def osCheck (version : String) : Expr :=
  let (major, minor) := parseOsVersion version
  .and (.has .principal .osVersionMajor)
    (.or (.cmp .gt (.get .principal .osVersionMajor) (.lit (.long major)))
      (.and (.eq (.get .principal .osVersionMajor) (.lit (.long major)))
        (.cmp .ge (.get .principal .osVersionMinor) (.lit (.long minor)))))

def hoursCheck (hours : UInt32) : Expr :=
  .and (.has .principal .hoursSinceUpdate)
    (.cmp .le (.get .principal .hoursSinceUpdate) (.lit (.long hours.toNat)))

def postureExprs (p : PostureRequirements) : List Expr :=
  (p.firewallEnabled.map (flagCheck .firewallEnabled)).toList ++
  (p.diskEncrypted.map (flagCheck .diskEncrypted)).toList ++
  (p.screenLockEnabled.map (flagCheck .screenLockEnabled)).toList ++
  (p.minOsVersion.map osCheck).toList ++
  (p.maxHoursSinceUpdate.map hoursCheck).toList

/-- The conditions expression. The time window is not in it: `compile` skips a policy
outside its window. -/
def condExpr (c : Conditions) : Expr :=
  joinAnd ((match c.posture with
      | some p => postureExprs p
      | none => []) ++
    (if c.attestation = some .verified then
      [.eq (.get .principal .attestation) (.lit (.string "verified"))] else []) ++
    (c.maxRiskScore.map fun r =>
      Expr.cmp .le (.get .principal .riskScore) (.lit (.long r.toNat))).toList)

/-- `cedar_source`, parsed: the effect and the condition of the policy. -/
def cedarSource (tz : TzDb) (entry : PolicyEntry) : Except CompileError Cedar.Policy :=
  match entry.spec.validate tz with
  | .error e => .error (.spec e)
  | .ok () => .ok
      { id := entry.id
        effect := match entry.spec.effect with
          | .allow => .permit
          | .deny => .forbid
        condition := .and (.and (.and (sourceExpr entry.spec.source)
          (destExpr entry.spec.destination)) (l4Expr entry.spec.l4))
          (condExpr entry.spec.conditions) }

structure Compiled where
  policies : PolicySet
  nextWindowChange : Option ℤ

/-- The time window of an entry: whether it is active, and the next change taken into
account. -/
def windowOf (tz : TzDb) (c : Conditions) (now : ℤ) (nextChange : Option ℤ) :
    Except CompileError (Bool × Option ℤ) :=
  match c.timeWindow with
  | none => .ok (true, nextChange)
  | some tw =>
    match windowActive tz tw now, nextWindowChange tz tw now with
    | .ok active, .ok nc => .ok (active, some (match nextChange with
        | some existing => min existing nc
        | none => nc))
    | .error e, _ => .error (.spec e)
    | _, .error e => .error (.spec e)

def compileEntry (tz : TzDb) (now : ℤ) (acc : Compiled) (entry : PolicyEntry) :
    Except CompileError Compiled :=
  match entry.spec.validate tz with
  | .error e => .error (.spec e)
  | .ok () =>
    match windowOf tz entry.spec.conditions now acc.nextWindowChange with
    | .error e => .error e
    | .ok (false, nc) => .ok { acc with nextWindowChange := nc }
    | .ok (true, nc) =>
      match cedarSource tz entry with
      | .error e => .error e
      | .ok policy =>
        match acc.policies.add policy with
        | .error e => .error (.cedar e)
        | .ok policies => .ok ⟨policies, nc⟩

def compile (tz : TzDb) (data : SnapshotData) (now : ℤ) : Except CompileError Compiled :=
  data.policies.foldlM (compileEntry tz now) ⟨.empty, none⟩

end Avon.Policy
