import Avon.Proofs.Policy.Eval
import Avon.Proofs.Policy.Hierarchy

/-!
# How compiled policies evaluate

One lemma per part of `cedar_source`. Together, `evalBool_conditionOf_ok` and
`evalBool_conditionOf_error` say when a compiled policy is satisfied and when it fails.
-/

set_option autoImplicit false

namespace Avon.Policy

open Avon.Cedar Semantics Expr Value

def cedarRequest (req : DecisionRequest) : Request where
  principal := .device req.device
  resource := match req.destination with
    | .device d => .device d
    | .ip _ => .external
  context := ⟨req.protocol.text, req.dstPort.toNat, .host req.dstIp, req.admission⟩

theorem request_eq (req : DecisionRequest) :
    Engine.request req
      = if req.dstIp.isV4Mapped then .error .ipText else .ok (cedarRequest req) := by
  have hparse : parseIp (.host req.dstIp)
      = if req.dstIp.isV4Mapped then none else some (.host req.dstIp) := rfl
  unfold Engine.request
  rw [hparse]
  by_cases h : req.dstIp.isV4Mapped = true
  · rw [if_pos h, if_pos h]
  · rw [if_neg h, if_neg h]
    rfl

/-! ### Networks -/

theorem netLow_full {w : ℕ} (a : BitVec w) : netLow a w = a := by
  simp [netLow, BitVec.ushiftRight_eq_zero]

theorem netHigh_full {w : ℕ} (a : BitVec w) : netHigh a w = a := by
  simp [netHigh, BitVec.ushiftRight_eq_zero]

theorem ipInRange_host (ip : IpAddr) (net : IpNet) :
    ipInRange (.host ip) net = net.contains ip := by
  obtain ⟨addr, len, hlen⟩ := net
  cases ip <;> cases addr <;>
    simp [ipInRange, IpNet.contains, IpNet.host, IpAddr.width, netLow_full, netHigh_full]

section
variable {data : SnapshotData} {now : ℤ} {es : Entities} {req : DecisionRequest}

theorem evalBool_cidrCheck (net : IpNet) :
    (cidrCheck net).evalBool (cedarRequest req) es
      = if net.addr.isV4Mapped then .error .extension else .ok (net.contains req.dstIp) := by
  unfold cidrCheck evalBool
  simp only [eval, parseIp]
  by_cases h : net.addr.isV4Mapped = true
  · simp only [if_pos h]
    rfl
  simp only [if_neg h]
  rw [← ipInRange_host]
  rfl

theorem anyOf_cidrChecks (nets : List IpNet) :
    anyOf ((nets.map cidrCheck).map (evalBool (cedarRequest req) es))
      = match cidrScan req.dstIp nets with
        | some b => .ok b
        | none => .error .extension := by
  induction nets with
  | nil => rfl
  | cons net nets ih =>
    simp only [List.map_cons, anyOf, ih, evalBool_cidrCheck, cidrScan]
    by_cases hmapped : net.addr.isV4Mapped = true
    · simp only [if_pos hmapped]
      rfl
    · simp only [if_neg hmapped]
      cases net.contains req.dstIp <;> rfl

/-! ### Selectors -/

theorem evalBool_isIn_principal (uids : List EntityUid) :
    (isIn .principal uids).evalBool (cedarRequest req) es
      = .ok (uids.any (es.isIn (.device req.device) ·)) := rfl

theorem evalBool_isIn_resource (uids : List EntityUid) :
    (isIn .resource uids).evalBool (cedarRequest req) es
      = .ok (uids.any (es.isIn (cedarRequest req).resource ·)) := rfl

/-- `a in [list]` of a part of a selector, if `a` is `in` an entity of the list in the sense
of `φ`. -/
theorem means_inList {α : Type*} (req : DecisionRequest) (es : Entities) {a : Expr} {l : List α}
    {f : α → EntityUid} {φ : α → Prop} {u : EntityUid}
    (heval : ∀ uids, (isIn a uids).evalBool (cedarRequest req) es
      = .ok (uids.any (es.isIn u ·)))
    (hφ : ∀ x, es.isIn u (f x) = true ↔ φ x) :
    Means (anyOf ((inList a (l.map f)).map (evalBool (cedarRequest req) es)))
      (∃ x ∈ l, φ x) := by
  unfold inList
  cases l with
  | nil => exact ⟨false, rfl, by simp⟩
  | cons x l =>
    simp only [List.map_cons, List.isEmpty_cons, if_false, List.map_nil, anyOf, heval,
      orElse_false, Bool.false_eq_true]
    exact (Means.ok _).congr (by simp [hφ])

theorem ne_nil_of_inList {a : Expr} {l : List EntityUid} (h : l ≠ []) : inList a l ≠ [] := by
  cases l with
  | nil => exact absurd rfl h
  | cons x l => simp [inList]

variable (hes : es.list = entityList data now)
include hes

theorem means_sourceExpr (req : DecisionRequest) {s : Selector} (hne : s.isEmpty = false)
    (hcidrs : s.cidrs = []) :
    Means ((sourceExpr s).evalBool (cedarRequest req) es) (SourceMatches data s req.device) := by
  unfold sourceExpr
  by_cases hany : s.any = true
  · rw [if_pos hany]
    exact (Means.ok true).congr (by simp [SourceMatches, hany])
  rw [if_neg hany, evalBool_joinOr]
  · rw [List.map_append, List.map_append, anyOf_append, anyOf_append]
    have hpods := means_inList req es (l := s.pods) (f := .pod)
      evalBool_isIn_principal fun p => isIn_pod hes
    have hclasses := means_inList req es (l := s.deviceClasses) (f := .deviceClass)
      evalBool_isIn_principal fun c => isIn_deviceClass hes
    have hdevices := means_inList req es (l := s.devices) (f := .device)
      evalBool_isIn_principal fun d => isIn_device hes
    refine ((hpods.orElse hclasses).orElse hdevices).congr ?_
    simp only [SourceMatches, hany, false_or, exists_eq_right', Bool.false_eq_true]
    exact or_comm
  · -- A valid source lists something.
    intro hnil
    simp only [List.append_eq_nil_iff] at hnil
    obtain ⟨⟨hp, hc⟩, hd⟩ := hnil
    have hempty : ∀ {α : Type} {l : List α} {f : α → EntityUid},
        inList principal (l.map f) = [] → l = [] := by
      intro α l f h
      by_contra hl
      exact ne_nil_of_inList (by simpa using hl) h
    simp [Selector.isEmpty, hempty hp, hempty hc, hempty hd, hcidrs, hany] at hne

theorem means_listed (req : DecisionRequest) (s : Selector) :
    Means (anyOf ((inList .resource (s.pods.map .pod) ++
        inList .resource (s.devices.map .device)).map (evalBool (cedarRequest req) es)))
      (ListedDestination data s req.destination) := by
  rw [List.map_append, anyOf_append]
  cases hdest : req.destination with
  | device d =>
    have hres : (cedarRequest req).resource = .device d := by simp [cedarRequest, hdest]
    have hpods := means_inList req es (l := s.pods) (f := .pod)
      (φ := InPod data d) evalBool_isIn_resource fun p => (by rw [hres]; exact isIn_pod hes)
    have hdevices := means_inList req es (l := s.devices) (f := .device)
      (φ := (d = ·)) evalBool_isIn_resource fun x => (by rw [hres]; exact isIn_device hes)
    refine (hpods.orElse hdevices).congr ?_
    simp only [ListedDestination, exists_eq_right']
    exact or_comm
  | ip addr =>
    have hres : (cedarRequest req).resource = .external := by simp [cedarRequest, hdest]
    have hpods := means_inList req es (l := s.pods) (f := .pod)
      (φ := fun _ => False) evalBool_isIn_resource
      fun p => (by rw [hres, isIn_external hes]; simp)
    have hdevices := means_inList req es (l := s.devices) (f := .device)
      (φ := fun _ => False) evalBool_isIn_resource
      fun x => (by rw [hres, isIn_external hes]; simp)
    exact (hpods.orElse hdevices).congr (by simp [ListedDestination])

omit hes in
theorem anyOf_networkParts (x : Expr) :
    anyOf ([and (.eq .resource (.lit (.entity .external))) x,
        .and (.isType .resource .device) x].map (evalBool (cedarRequest req) es))
      = x.evalBool (cedarRequest req) es := by
  simp only [List.map_cons, List.map_nil, anyOf, orElse_false, evalBool_and]
  cases hdest : req.destination with
  | device d =>
    have hres : (cedarRequest req).resource = .device d := by simp [cedarRequest, hdest]
    have heq : (eq .resource (.lit (.entity .external))).evalBool (cedarRequest req) es
        = .ok false := by
      simp [evalBool, eval, hres, bind, Except.bind, pure, Except.pure, asBool]
    have htype : (isType .resource .device).evalBool (cedarRequest req) es = .ok true := by
      simp [evalBool, eval, hres, bind, Except.bind, pure, Except.pure, asBool,
        asEntity, EntityUid.type]
    rw [heq, htype]
    rfl
  | ip addr =>
    have hres : (cedarRequest req).resource = .external := by simp [cedarRequest, hdest]
    have heq : (eq .resource (.lit (.entity .external))).evalBool (cedarRequest req) es
        = .ok true := by
      simp [evalBool, eval, hres, bind, Except.bind, pure, Except.pure, asBool]
    have htype : (isType .resource .device).evalBool (cedarRequest req) es = .ok false := by
      simp [evalBool, eval, hres, bind, Except.bind, pure, Except.pure, asBool,
        asEntity, EntityUid.type]
    rw [heq, htype]
    exact orElse_false _

open Classical in
theorem evalBool_destExpr (s : Selector) :
    (destExpr s).evalBool (cedarRequest req) es
      = if ReadsAtOnce data s req then .ok true
        else match cidrScan req.dstIp s.cidrs with
          | some b => .ok b
          | none => .error .extension := by
  unfold destExpr
  by_cases hany : s.any = true
  · have honce : ReadsAtOnce data s req := Or.inl hany
    rw [if_pos hany, if_pos honce]
    rfl
  rw [if_neg hany]
  by_cases hempty : s.pods = [] ∧ s.devices = [] ∧ s.cidrs = []
  · -- Nothing is left of the alternatives: the text is `true`.
    have honce : ReadsAtOnce data s req := Or.inr (.inl hempty)
    rw [if_pos honce]
    simp [hempty.1, hempty.2.1, hempty.2.2, inList, joinOr]
  obtain ⟨b, hb, hlisted⟩ := means_listed hes req s
  have honce : ReadsAtOnce data s req ↔ b = true := by
    rw [hlisted]
    simp [ReadsAtOnce, hany, hempty]
  rw [evalBool_joinOr, List.map_append, anyOf_append, hb]
  · by_cases hcidrs : s.cidrs = []
    · cases b <;> simp [honce, hcidrs, anyOf, cidrScan]
    have hparts : (if s.cidrs.isEmpty then ([] : List Expr) else
        [.and (.eq .resource (.lit (.entity .external))) (joinOr (s.cidrs.map cidrCheck)),
          .and (.isType .resource .device) (joinOr (s.cidrs.map cidrCheck))])
        = [.and (.eq .resource (.lit (.entity .external))) (joinOr (s.cidrs.map cidrCheck)),
          .and (.isType .resource .device) (joinOr (s.cidrs.map cidrCheck))] := by
      simp [hcidrs]
    rw [hparts, anyOf_networkParts, evalBool_joinOr _ _ (by simpa using hcidrs),
      anyOf_cidrChecks]
    cases b <;> simp [honce, Cedar.orElse]
  · intro hnil
    refine hempty ?_
    simp only [List.append_eq_nil_iff] at hnil
    obtain ⟨⟨hp, hd⟩, hc⟩ := hnil
    refine ⟨?_, ?_, ?_⟩
    · by_contra hne
      exact ne_nil_of_inList (by simpa using hne) hp
    · by_contra hne
      exact ne_nil_of_inList (by simpa using hne) hd
    · by_contra hne
      simp [hne] at hc

omit hes

/-! ### Layer 4 -/

theorem Protocol.text_inj {p q : Protocol} : p.text = q.text ↔ p = q := by
  cases p <;> cases q <;> decide

theorem means_protocolCheck (p : Protocol) :
    Means ((protocolCheck p).evalBool (cedarRequest req) es) (p = req.protocol) := by
  refine ⟨decide (string req.protocol.text = string p.text), rfl, ?_⟩
  rw [decide_eq_true_iff, string.injEq, Protocol.text_inj]
  exact eq_comm

theorem eq_of_contains_single {n port : UInt16} (h : PortSet.contains ⟨[⟨n, n⟩]⟩ port = true) :
    port = n := by
  have hrange : (decide (n ≤ port) && decide (port ≤ n)) = true := (Bool.or_false _).symm.trans h
  obtain ⟨hlow, hhigh⟩ := Bool.and_eq_true_iff.mp hrange
  exact UInt16.le_antisymm (of_decide_eq_true hhigh) (of_decide_eq_true hlow)

theorem means_portCheck (r : PortRange) :
    Means ((portCheck r).evalBool (cedarRequest req) es)
      (r.start ≤ req.dstPort ∧ req.dstPort ≤ r.stop) := by
  simp only [UInt16.le_iff_toNat_le]
  unfold portCheck
  split
  · rename_i heq
    refine ⟨decide (long (req.dstPort.toNat : ℤ) = long (r.start.toNat : ℤ)), rfl, ?_⟩
    rw [decide_eq_true_iff, long.injEq, ← heq]
    omega
  rw [evalBool_and]
  refine Means.andAlso ⟨Cmp.ge.apply req.dstPort.toNat r.start.toNat, rfl, ?_⟩
    ⟨Cmp.le.apply req.dstPort.toNat r.stop.toNat, rfl, ?_⟩
  · simp [Cmp.apply]
  · simp [Cmp.apply]

theorem means_ports {ports : PortSet} (hall : ports.isAll = false) :
    Means ((joinOr (ports.ranges.map portCheck)).evalBool (cedarRequest req) es)
      (ports.contains req.dstPort = true) := by
  have hne : ports.ranges ≠ [] := fun h => by simp [PortSet.isAll, h] at hall
  rw [evalBool_joinOr _ _ (by simpa using hne), List.map_map]
  refine (Means.anyOf fun r _ => means_portCheck r).congr ?_
  simp [PortSet.contains, hne]

theorem means_ruleExpr {rule : L4Rule}
    (hvalid : rule.ports.isAll = true ∨ rule.protocol = .tcp ∨ rule.protocol = .udp) :
    Means ((ruleExpr rule).evalBool (cedarRequest req) es)
      (req.admission = true ∨ (rule.protocol = .any ∨ rule.protocol = req.protocol) ∧
        rule.ports.contains req.dstPort = true) := by
  have hall : rule.ports.isAll = true → rule.ports.contains req.dstPort = true := fun h => by
    rw [PortSet.contains, show rule.ports.ranges.isEmpty = true from h]
    rfl
  unfold ruleExpr
  rw [evalBool_or]
  refine Means.orElse ⟨req.admission, rfl, Iff.rfl⟩ ?_
  -- TCP and UDP differ in their text only.
  have hl4 : ∀ p : Protocol, p ≠ .any → Means
      ((if rule.ports.isAll then protocolCheck p
        else .and (protocolCheck p) (joinOr (rule.ports.ranges.map portCheck))).evalBool
          (cedarRequest req) es)
      ((p = .any ∨ p = req.protocol) ∧ rule.ports.contains req.dstPort = true) := by
    intro p hp
    by_cases h : rule.ports.isAll = true
    · rw [if_pos h]
      exact (means_protocolCheck p).congr (by simp [hp, hall h])
    rw [if_neg h, evalBool_and]
    exact ((means_protocolCheck p).andAlso (means_ports (Bool.eq_false_iff.mpr h))).congr
      (by simp [hp])
  cases hproto : rule.protocol with
  | any =>
    have : rule.ports.isAll = true := by simpa [hproto] using hvalid
    exact (Means.ok true).congr (by simp [hall this])
  | icmp =>
    have : rule.ports.isAll = true := by simpa [hproto] using hvalid
    exact (means_protocolCheck .icmp).congr (by simp [hall this])
  | tcp => exact hl4 .tcp (by simp)
  | udp => exact hl4 .udp (by simp)

theorem means_l4Expr (req : DecisionRequest) (es : Entities) {rules : List L4Rule}
    (hvalid : ∀ rule ∈ rules,
      rule.ports.isAll = true ∨ rule.protocol = .tcp ∨ rule.protocol = .udp) :
    Means ((l4Expr rules).evalBool (cedarRequest req) es) (L4Matches rules req) := by
  unfold l4Expr
  by_cases hnil : rules = []
  · subst hnil
    exact (Means.ok true).congr (by simp [L4Matches])
  rw [evalBool_joinOr _ _ (by simpa using hnil), List.map_map]
  refine (Means.anyOf fun rule hrule => means_ruleExpr (hvalid rule hrule)).congr ?_
  obtain ⟨rule, hrule⟩ := List.exists_mem_of_ne_nil _ hnil
  simp only [L4Matches, hnil, false_or]
  grind

/-! ### Conditions -/

theorem findEntity_device (hes : es.list = entityList data now) {id : Uuid} {dev : DeviceEntity}
    (hdev : data.findDevice id = some dev) :
    findEntity es.list (.device id) = some (deviceEntity now dev) := by
  have hpods : (data.pods.map podEntity).find? (fun e => e.uid = EntityUid.device id) = none := by
    simp [podEntity]
  have hclasses : (data.deviceClasses.map fun c => (⟨.deviceClass c, [], []⟩ : Entity)).find?
      (fun e => e.uid = EntityUid.device id) = none := by
    simp
  have hdevices : (data.devices.map (deviceEntity now)).find? (fun e => e.uid = EntityUid.device id)
      = some (deviceEntity now dev) := by
    rw [List.find?_map]
    have : data.devices.find? ((fun e : Entity => decide (e.uid = EntityUid.device id)) ∘
        deviceEntity now) = data.findDevice id := by
      unfold SnapshotData.findDevice
      congr 1
      funext d
      simp [deviceEntity]
    rw [this, hdev]
    rfl
  rw [findEntity, hes, entityList, List.find?_append, List.find?_append, List.find?_append,
    hpods, hclasses, hdevices]
  simp

section
variable {a : DeviceAttrs}

theorem lookup_attestation :
    (deviceAttributes now a).lookup .attestation = some (.string a.attestation) := rfl

theorem lookup_riskScore :
    (deviceAttributes now a).lookup .riskScore = some (.long a.riskScore.toNat) := rfl

theorem lookup_firewallEnabled :
    (deviceAttributes now a).lookup .firewallEnabled = a.firewallEnabled.map .bool := by
  obtain ⟨_, _, _ | _, _ | _, _ | _, _ | _, _ | _, _, _⟩ := a <;> rfl

theorem lookup_diskEncrypted :
    (deviceAttributes now a).lookup .diskEncrypted = a.diskEncrypted.map .bool := by
  obtain ⟨_, _, _ | _, _ | _, _ | _, _ | _, _ | _, _, _⟩ := a <;> rfl

theorem lookup_screenLockEnabled :
    (deviceAttributes now a).lookup .screenLockEnabled = a.screenLockEnabled.map .bool := by
  obtain ⟨_, _, _ | _, _ | _, _ | _, _ | _, _ | _, _, _⟩ := a <;> rfl

theorem lookup_osVersionMajor :
    (deviceAttributes now a).lookup .osVersionMajor
      = a.osVersion.map fun os => .long (parseOsVersion os).1 := by
  obtain ⟨_, _, _ | _, _ | _, _ | _, _ | _, _ | _, _, _⟩ := a <;> rfl

theorem lookup_osVersionMinor :
    (deviceAttributes now a).lookup .osVersionMinor
      = a.osVersion.map fun os => .long (parseOsVersion os).2 := by
  obtain ⟨_, _, _ | _, _ | _, _ | _, _ | _, _ | _, _, _⟩ := a <;> rfl

theorem lookup_hoursSinceUpdate :
    (deviceAttributes now a).lookup .hoursSinceUpdate
      = a.lastUpdateUnix.map fun ts => .long (hoursSinceUpdate now ts) := by
  obtain ⟨_, _, _ | _, _ | _, _ | _, _ | _, _ | _, _, _⟩ := a <;> rfl

end

section
variable {dev : DeviceEntity} (hdev : data.findDevice req.device = some dev)
include hes hdev

theorem evalBool_has (attr : Attr) :
    (has .principal attr).evalBool (cedarRequest req) es
      = .ok ((deviceAttributes now dev.attrs).lookup attr).isSome := by
  have hent : findEntity es.list (cedarRequest req).principal = some (deviceEntity now dev) :=
    findEntity_device hes hdev
  simp only [evalBool, eval, bind, Except.bind, pure, Except.pure, asEntity,
    asBool, hent]
  rfl

theorem eval_get (attr : Attr) {v : Value}
    (hv : (deviceAttributes now dev.attrs).lookup attr = some v) :
    (get .principal attr).eval (cedarRequest req) es = .ok v := by
  have hent : findEntity es.list (cedarRequest req).principal = some (deviceEntity now dev) :=
    findEntity_device hes hdev
  have hattrs : (deviceEntity now dev).attrs.lookup attr = some v := hv
  simp only [eval, bind, Except.bind, pure, Except.pure, asEntity, hent, hattrs]

theorem means_getEq (attr : Attr) {v : Value} (w : Value)
    (hv : (deviceAttributes now dev.attrs).lookup attr = some v) :
    Means ((eq (.get .principal attr) (.lit w)).evalBool (cedarRequest req) es) (v = w) := by
  refine ⟨decide (v = w), ?_, decide_eq_true_iff⟩
  rw [evalBool, eval, eval_get hes hdev attr hv]
  rfl

theorem means_getCmp (op : Cmp) (attr : Attr) {n : ℤ} (m : ℤ)
    (hv : (deviceAttributes now dev.attrs).lookup attr = some (.long n)) :
    Means ((cmp op (.get .principal attr) (.lit (.long m))).evalBool (cedarRequest req) es)
      (op.apply n m = true) := by
  refine ⟨op.apply n m, ?_, Iff.rfl⟩
  rw [evalBool, eval, eval_get hes hdev attr hv]
  rfl

/-- `(principal has a && …)`: the rest is only looked at if the attribute is there. -/
theorem means_hasAnd {attr : Attr} {α : Type} {o : Option α} {f : α → Value} {x : Expr}
    {φ : α → Prop} (hattr : (deviceAttributes now dev.attrs).lookup attr = o.map f)
    (hx : ∀ v, o = some v → Means (x.evalBool (cedarRequest req) es) (φ v)) :
    Means ((and (.has .principal attr) x).evalBool (cedarRequest req) es)
      (∃ v, o = some v ∧ φ v) := by
  rw [evalBool_and, evalBool_has hes hdev, hattr]
  cases o with
  | none => exact ⟨false, rfl, by simp⟩
  | some v => exact (hx v rfl).congr (by simp)

theorem means_flagCheck {attr : Attr} {o : Option Bool} (v : Bool)
    (hattr : (deviceAttributes now dev.attrs).lookup attr = o.map .bool) :
    Means ((flagCheck attr v).evalBool (cedarRequest req) es) (o = some v) := by
  refine (means_hasAnd hes hdev (φ := (· = v)) hattr fun w hw => ?_).congr (by simp)
  exact (means_getEq hes hdev attr (.bool v) (by rw [hattr, hw]; rfl)).congr (by simp)

theorem means_osCheck (version : String) :
    Means ((osCheck version).evalBool (cedarRequest req) es)
      (∃ os, dev.attrs.osVersion = some os ∧
        VersionLe (parseOsVersion version) (parseOsVersion os)) := by
  refine means_hasAnd hes hdev lookup_osVersionMajor fun os hos => ?_
  have hmajor : (deviceAttributes now dev.attrs).lookup .osVersionMajor
      = some (.long (parseOsVersion os).1) := by rw [lookup_osVersionMajor, hos]; rfl
  have hminor : (deviceAttributes now dev.attrs).lookup .osVersionMinor
      = some (.long (parseOsVersion os).2) := by rw [lookup_osVersionMinor, hos]; rfl
  rw [evalBool_or, evalBool_and]
  refine ((means_getCmp hes hdev .gt .osVersionMajor _ hmajor).orElse
    ((means_getEq hes hdev .osVersionMajor _ hmajor).andAlso
      (means_getCmp hes hdev .ge .osVersionMinor _ hminor))).congr ?_
  simp only [Cmp.apply, decide_eq_true_eq, long.injEq, VersionLe]
  exact or_congr Iff.rfl (and_congr eq_comm Iff.rfl)

theorem means_hoursCheck (hours : UInt32) :
    Means ((hoursCheck hours).evalBool (cedarRequest req) es)
      (∃ ts, dev.attrs.lastUpdateUnix = some ts ∧ hoursSinceUpdate now ts ≤ hours.toNat) := by
  refine means_hasAnd hes hdev lookup_hoursSinceUpdate fun ts hts => ?_
  exact (means_getCmp hes hdev .le .hoursSinceUpdate _
    (by rw [lookup_hoursSinceUpdate, hts]; rfl)).congr (by simp [Cmp.apply])

theorem means_postureExprs (p : PostureRequirements) :
    Means (allOf ((postureExprs p).map (evalBool (cedarRequest req) es)))
      (PostureHolds hoursSinceUpdate now p dev.attrs) := by
  simp only [postureExprs, List.map_append, allOf_append]
  refine Means.congr (((((Means.allOf_option fun v =>
      means_flagCheck hes hdev v lookup_firewallEnabled).andAlso
    (Means.allOf_option fun v => means_flagCheck hes hdev v lookup_diskEncrypted)).andAlso
    (Means.allOf_option fun v => means_flagCheck hes hdev v lookup_screenLockEnabled)).andAlso
    (Means.allOf_option fun v => means_osCheck hes hdev v)).andAlso
    (Means.allOf_option fun v => means_hoursCheck hes hdev v)) ?_
  simp only [PostureHolds, and_assoc]

theorem means_condExpr (c : Conditions) :
    Means ((condExpr c).evalBool (cedarRequest req) es)
      (ConditionsHold hoursSinceUpdate now c dev.attrs) := by
  rw [condExpr, evalBool_joinAnd, List.map_append, List.map_append, allOf_append, allOf_append]
  have hattest : Means (allOf ((if c.attestation = some .verified then
      [eq (.get .principal .attestation) (.lit (.string "verified"))] else []).map
        (evalBool (cedarRequest req) es)))
      (c.attestation = some .verified → dev.attrs.attestation = "verified") := by
    by_cases h : c.attestation = some .verified
    · rw [if_pos h]
      exact ((means_getEq hes hdev .attestation _ lookup_attestation).andAlso (Means.ok true)).congr
        (by simp [h])
    · rw [if_neg h]
      exact ⟨true, rfl, by simp [h]⟩
  have hrisk := Means.allOf_option (o := c.maxRiskScore)
    (g := fun r => cmp .le (.get .principal .riskScore) (.lit (.long r.toNat)))
    (f := evalBool (cedarRequest req) es) (φ := fun r => dev.attrs.riskScore ≤ r)
    fun r => (means_getCmp hes hdev .le .riskScore _ lookup_riskScore).congr
      (by simp [Cmp.apply, UInt8.le_iff_toNat_le])
  refine Means.congr (((?posture : Means _ (∀ p, c.posture = some p →
    PostureHolds hoursSinceUpdate now p dev.attrs)).andAlso hattest).andAlso hrisk)
    (by simp only [ConditionsHold, and_assoc])
  cases c.posture with
  | none => exact ⟨true, rfl, by simp⟩
  | some p => exact (means_postureExprs hes hdev p).congr (by simp)

end

/-! ### The whole policy -/

theorem validate_ok {tz : TzDb} {p : PolicySpec} (h : p.validate tz = .ok ()) :
    p.source.isEmpty = false ∧ p.source.cidrs = [] ∧ p.destination.isEmpty = false ∧
      ∀ rule ∈ p.l4, rule.ports.isAll = true ∨ rule.protocol = .tcp ∨ rule.protocol = .udp := by
  unfold PolicySpec.validate at h
  split at h
  · cases h
  split at h
  · cases h
  split at h
  · cases h
  rename_i hsource
  split at h
  · cases h
  rename_i hdest
  split at h
  · cases h
  rename_i hcidrs
  split at h
  · cases h
  rename_i hrules
  refine ⟨Bool.eq_false_iff.mpr hsource, by simpa using hcidrs, Bool.eq_false_iff.mpr hdest,
    fun rule hrule => ?_⟩
  by_contra hbad
  refine hrules (List.any_eq_true.mpr ⟨rule, hrule, ?_⟩)
  simp only [not_or] at hbad
  simp [hbad.1, hbad.2.1, hbad.2.2]

def conditionOf (p : PolicySpec) : Expr :=
  .and (.and (.and (sourceExpr p.source) (destExpr p.destination)) (l4Expr p.l4))
    (condExpr p.conditions)

section
variable {dev : DeviceEntity} {tz : TzDb} {p : PolicySpec}
  (hdev : data.findDevice req.device = some dev) (hvalid : p.validate tz = .ok ())
include hes hdev hvalid

theorem evalBool_conditionOf_ok :
    (conditionOf p).evalBool (cedarRequest req) es = .ok true ↔ Reads data now dev req p := by
  obtain ⟨hsource, hcidrs, -, hl4⟩ := validate_ok hvalid
  obtain ⟨b, hb, hs⟩ := means_sourceExpr hes req hsource hcidrs
  obtain ⟨l, hl, hlm⟩ := means_l4Expr req es hl4
  obtain ⟨c, hc, hcm⟩ := means_condExpr hes hdev p.conditions
  simp only [conditionOf, evalBool_and, hb, hl, hc, evalBool_destExpr hes, Reads, ← hs, ← hlm,
    ← hcm, DestinationReads]
  by_cases honce : ReadsAtOnce data p.destination req
  · cases b <;> cases l <;> cases c <;> simp [honce, andAlso]
  cases hscan : cidrScan req.dstIp p.destination.cidrs with
  | none => cases b <;> simp [honce, andAlso]
  | some d => cases b <;> cases d <;> cases l <;> cases c <;> simp [honce, andAlso]

/-- Its evaluation fails if and only if it reaches a network that cannot be read. -/
theorem evalBool_conditionOf_error :
    (∃ e, (conditionOf p).evalBool (cedarRequest req) es = .error e) ↔ Unreadable data req p := by
  obtain ⟨hsource, hcidrs, -, hl4⟩ := validate_ok hvalid
  obtain ⟨b, hb, hs⟩ := means_sourceExpr hes req hsource hcidrs
  obtain ⟨l, hl, -⟩ := means_l4Expr req es hl4
  obtain ⟨c, hc, -⟩ := means_condExpr hes hdev p.conditions
  simp only [conditionOf, evalBool_and, hb, hl, hc, evalBool_destExpr hes, Unreadable, ← hs]
  by_cases honce : ReadsAtOnce data p.destination req
  · cases b <;> cases l <;> cases c <;> simp [honce, andAlso]
  cases hscan : cidrScan req.dstIp p.destination.cidrs with
  | none => cases b <;> simp [honce, andAlso]
  | some d => cases b <;> cases d <;> cases l <;> cases c <;> simp [honce, andAlso]

end

end

end Avon.Policy
