import Avon.Proofs.Policy.Reading

/-!
# What the engine decides

What a loaded engine allows, in terms of how its policies read, and when that is what they mean
(`Faithful`). A destination that lists one device class lets everything through
(`decide_class_destination`).
-/

set_option autoImplicit false

namespace Avon.Policy

open Avon.Cedar Semantics
open Engine (empty)

/-! ### Compiling a list of policies -/

def cedarEffect : Policy.Effect → Cedar.Effect
  | .allow => .permit
  | .deny => .forbid

theorem cedarEffect_inj {a b : Policy.Effect} : cedarEffect a = cedarEffect b ↔ a = b := by
  cases a <;> cases b <;> decide

def policyOf (entry : PolicyEntry) : Cedar.Policy where
  id := entry.id
  effect := cedarEffect entry.spec.effect
  condition := conditionOf entry.spec

theorem policies_of_add {ps ps' : PolicySet} {p : Cedar.Policy} (h : ps.add p = .ok ps') :
    ps'.policies = ps.policies ++ [p] := by
  unfold PolicySet.add at h
  split at h
  · cases h
  · cases h
    rfl

variable {tz : TzDb} {now : ℤ} {data : SnapshotData} {c acc acc' : Compiled} {es : Entities}
  {e e' : Engine} {l : Loaded} {dev : DeviceEntity}

theorem inForce_of_windowOf {p : PolicySpec} {nc nc' : Option ℤ} {b : Bool}
    (h : windowOf tz p.conditions now nc = .ok (b, nc')) : b = true ↔ InForce tz now p := by
  unfold windowOf at h
  unfold InForce
  split at h
  · rename_i hnone
    cases h
    simp [hnone]
  rename_i tw hsome
  split at h
  · rename_i active nc hactive hnc
    cases h
    simp [hsome, hactive]
  · cases h
  · cases h

/-- Everything one turn of the loop can do: an entry in force is added, another one is left
out. Both are valid. -/
theorem compileEntry_cases {entry : PolicyEntry} (h : compileEntry tz now acc entry = .ok acc') :
    entry.spec.validate tz = .ok () ∧
      ((InForce tz now entry.spec ∧
          acc'.policies.policies = acc.policies.policies ++ [policyOf entry]) ∨
        (¬ InForce tz now entry.spec ∧ acc'.policies.policies = acc.policies.policies)) := by
  unfold compileEntry at h
  split at h
  · cases h
  rename_i hvalid
  refine ⟨hvalid, ?_⟩
  split at h
  · cases h
  · rename_i hwindow
    cases h
    exact .inr ⟨fun hforce => by simpa using (inForce_of_windowOf hwindow).mpr hforce, rfl⟩
  rename_i hwindow
  have hsource : cedarSource tz entry = .ok (policyOf entry) := by
    unfold cedarSource
    rw [hvalid]
    rfl
  rw [hsource] at h
  simp only at h
  split at h
  · cases h
  rename_i policies hadd
  cases h
  exact .inl ⟨(inForce_of_windowOf hwindow).mp rfl, policies_of_add hadd⟩

theorem foldlM_compileEntry {entries : List PolicyEntry}
    (h : entries.foldlM (compileEntry tz now) acc = .ok acc') :
    (∀ entry ∈ entries, entry.spec.validate tz = .ok ()) ∧
      ∀ q, q ∈ acc'.policies.policies ↔ q ∈ acc.policies.policies ∨
        ∃ entry ∈ entries, InForce tz now entry.spec ∧ q = policyOf entry := by
  induction entries generalizing acc with
  | nil =>
    cases h
    simp
  | cons entry entries ih =>
    rw [List.foldlM_cons] at h
    rcases hstep : compileEntry tz now acc entry with e | mid
    · rw [hstep] at h
      cases h
    rw [hstep] at h
    obtain ⟨hvalid, hrest⟩ := ih h
    obtain ⟨hentry, hcases⟩ := compileEntry_cases hstep
    refine ⟨List.forall_mem_cons.mpr ⟨hentry, hvalid⟩, fun q => ?_⟩
    rw [hrest q]
    rcases hcases with ⟨hforce, heq⟩ | ⟨hforce, heq⟩
    · simp only [heq, List.mem_append, List.mem_singleton, List.exists_mem_cons_iff, hforce,
        true_and, or_assoc]
    · simp only [heq, List.exists_mem_cons_iff, hforce, false_and, false_or]

theorem compile_ok
    (h : compile tz data now = .ok c) :
    (∀ entry ∈ data.policies, entry.spec.validate tz = .ok ()) ∧
      ∀ q, q ∈ c.policies.policies ↔
        ∃ entry ∈ data.policies, InForce tz now entry.spec ∧ q = policyOf entry := by
  obtain ⟨hvalid, hmem⟩ := foldlM_compileEntry h
  exact ⟨hvalid, fun q => (hmem q).trans (by simp [PolicySet.empty])⟩

/-! ### Loading -/

/-- The engine holds this snapshot, compiled at this time. -/
structure LoadedAt (tz : TzDb) (data : SnapshotData) (now : ℤ) (l : Loaded) : Prop where
  holds : l.data = data
  valid : ∀ entry ∈ data.policies, entry.spec.validate tz = .ok ()
  policies : ∀ q, q ∈ l.compiled.policies.policies ↔
    ∃ entry ∈ data.policies, InForce tz now entry.spec ∧ q = policyOf entry
  entities : l.entities.list = entityList data now

theorem loadedAt_of_compile (hc : compile tz data now = .ok c)
    (hes : buildEntities data now = .ok es) :
    LoadedAt tz data now ⟨data, c, es⟩ :=
  ⟨rfl, (compile_ok hc).1, (compile_ok hc).2, list_of_buildEntities hes⟩

theorem loadedAt_of_load
    (h : e.load tz data now = .ok e') :
    ∃ l, e' = { e with inner := some l } ∧ data.tenantId = e.tenant ∧ LoadedAt tz data now l := by
  unfold Engine.load at h
  split at h
  · cases h
  rename_i htenant
  obtain ⟨c, hc, h⟩ := bind_eq_ok.mp h
  obtain ⟨es, hes, h⟩ := bind_eq_ok.mp h
  cases h
  exact ⟨_, rfl, not_not.mp htenant, loadedAt_of_compile hc hes⟩

theorem version_of_load
    (h : e.load tz data now = .ok e') : e'.version = data.version := by
  obtain ⟨l, rfl, -, hl⟩ := loadedAt_of_load h
  exact congrArg SnapshotData.version hl.holds

/-- A snapshot of the engine's own tenant loads if its policies compile and its entities can
be built. -/
theorem load_of_compile (htenant : data.tenantId = e.tenant) (hc : compile tz data now = .ok c)
    (hes : buildEntities data now = .ok es) :
    e.load tz data now = .ok { e with inner := some ⟨data, c, es⟩ } := by
  unfold Engine.load
  rw [if_neg (not_not.mpr htenant), hc, hes]
  rfl

theorem loadedAt_of_patchDevice {id : Uuid} {attrs : DeviceAttrs}
    (h : e.patchDevice tz id attrs now = .ok e') :
    ∃ l l', e.inner = some l ∧ e' = { e with inner := some l' } ∧ LoadedAt tz l'.data now l' ∧
      l'.data.policies = l.data.policies := by
  unfold Engine.patchDevice at h
  split at h
  · cases h
  rename_i l hl
  obtain ⟨es, hes, h⟩ := bind_eq_ok.mp h
  obtain ⟨c, hc, h⟩ := bind_eq_ok.mp h
  cases h
  exact ⟨l, _, hl, rfl, loadedAt_of_compile hc hes, rfl⟩

/-! ### Deciding -/

section
variable {req : DecisionRequest}

section
variable (hl : LoadedAt tz data now l) (hdev : data.findDevice req.device = some dev)
include hl hdev

theorem satisfied_ne_nil_iff (effect : Policy.Effect) :
    satisfied (cedarRequest req) l.entities l.compiled.policies.policies
        (cedarEffect effect) ≠ [] ↔
      ∃ p ∈ data.policies, InForce tz now p.spec ∧ p.spec.effect = effect ∧
        Reads data now dev req p.spec := by
  simp only [satisfied, ne_eq, List.map_eq_nil_iff, List.filter_eq_nil_iff, not_forall,
    decide_eq_true_eq, not_not, exists_prop, hl.policies]
  constructor
  · rintro ⟨q, ⟨entry, hmem, hforce, rfl⟩, heq, heval⟩
    exact ⟨entry, hmem, hforce, cedarEffect_inj.mp heq,
      (evalBool_conditionOf_ok hl.entities hdev (hl.valid entry hmem)).mp heval⟩
  rintro ⟨entry, hmem, hforce, heq, hreads⟩
  exact ⟨policyOf entry, ⟨entry, hmem, hforce, rfl⟩, cedarEffect_inj.mpr heq,
    (evalBool_conditionOf_ok hl.entities hdev (hl.valid entry hmem)).mpr hreads⟩

theorem failed_ne_nil_iff :
    failed (cedarRequest req) l.entities l.compiled.policies.policies ≠ [] ↔
      ∃ p ∈ data.policies, InForce tz now p.spec ∧ Unreadable data req p.spec := by
  have hfails : ∀ entry ∈ data.policies, (∃ e, (policyOf entry).condition.evalBool
      (cedarRequest req) l.entities = .error e) ↔ Unreadable data req entry.spec :=
    fun entry hmem => evalBool_conditionOf_error hl.entities hdev (hl.valid entry hmem)
  simp only [failed, ne_eq, List.filterMap_eq_nil_iff, not_forall, hl.policies]
  constructor
  · rintro ⟨q, ⟨entry, hmem, hforce, rfl⟩, hsome⟩
    refine ⟨entry, hmem, hforce, (hfails entry hmem).mp ?_⟩
    split at hsome
    · exact ⟨_, by assumption⟩
    · exact absurd rfl hsome
  rintro ⟨entry, hmem, hforce, hunread⟩
  obtain ⟨e, he⟩ := (hfails entry hmem).mpr hunread
  exact ⟨policyOf entry, ⟨entry, hmem, hforce, rfl⟩, by rw [he]; exact Option.some_ne_none _⟩

end

/-- How `decide` ends for an active device whose request can be built: a satisfied deny
policy forbids, a satisfied allow policy permits unless an evaluation failed. -/
theorem decide_active {tenant : TenantId}
    (hdev : l.data.findDevice req.device = some dev) (hactive : dev.attrs.status = "active")
    (hip : req.dstIp.isV4Mapped = false) :
    let sat := satisfied (cedarRequest req) l.entities l.compiled.policies.policies
    let errors := failed (cedarRequest req) l.entities l.compiled.policies.policies
    (Engine.mk tenant (some l)).decide req =
      if sat .forbid ≠ [] then ⟨false, sat .forbid, .forbid, l.data.version⟩
      else if sat .permit ≠ [] then
        if errors = [] then ⟨true, sat .permit, .permit, l.data.version⟩
        else deny (.evaluationErrors errors) l.data.version
      else deny .noMatchingPermit l.data.version := by
  have hreq : Engine.request req = .ok (cedarRequest req) := by
    rw [request_eq, hip]
    rfl
  intro sat errors
  simp only [Engine.decide, hdev, hactive, ne_eq, not_true_eq_false, if_false, hreq, isAuthorized]
  by_cases hf : sat .forbid = []
  · by_cases hp : sat .permit = []
    · simp only [sat] at hf hp
      simp [sat, hf, hp]
    · simp only [sat] at hf hp
      simp [sat, errors, hf, hp]
  · simp only [sat] at hf
    simp [sat, hf]

theorem decide_refused (tenant : TenantId)
    (h : ¬ ∃ dev, ActiveDevice l.data req dev ∧ req.dstIp.isV4Mapped = false) :
    ∃ reason, (Engine.mk tenant (some l)).decide req = deny reason l.data.version ∧
      reason ≠ .forbid := by
  cases hdev : l.data.findDevice req.device with
  | none => exact ⟨.unknownDevice, by simp only [Engine.decide, hdev], by simp⟩
  | some dev =>
    by_cases hactive : dev.attrs.status = "active"
    · have hip : req.dstIp.isV4Mapped = true := by
        simpa using fun hip => h ⟨dev, ⟨hdev, hactive⟩, hip⟩
      have hreq : Engine.request req = .error .ipText := by rw [request_eq, if_pos hip]
      exact ⟨.requestBuildFailed .ipText, by simp only [Engine.decide, hdev, hactive, ne_eq,
        not_true_eq_false, if_false, hreq], by simp⟩
    · exact ⟨.deviceStatus dev.attrs.status, by simp only [Engine.decide, hdev, ne_eq, hactive,
        not_false_eq_true, if_true], by simp⟩

theorem activeDevice_iff (h : ActiveDevice data req dev) (dev' : DeviceEntity) :
    ActiveDevice data req dev' ↔ dev' = dev :=
  ⟨fun h' => Option.some.inj (h'.1.symm.trans h.1), fun heq => heq ▸ h⟩

end

section
variable (hl : LoadedAt tz data now l) (tenant : TenantId) (req : DecisionRequest)
include hl

theorem decide_allow_iff :
    ((Engine.mk tenant (some l)).decide req).allow = true ↔
      ∃ dev, ActiveDevice data req dev ∧ ¬ Stuck tz data now req ∧
        Verdict tz data now (Reads data now dev req) := by
  obtain ⟨rfl, -, -, -⟩ := id hl
  by_cases hactive : ∃ dev, ActiveDevice l.data req dev ∧ req.dstIp.isV4Mapped = false
  · obtain ⟨dev, hdev, hip⟩ := hactive
    have huniq := activeDevice_iff hdev
    obtain ⟨hdev, hstatus⟩ := hdev
    have hpermit := satisfied_ne_nil_iff hl hdev .allow
    have hforbid := satisfied_ne_nil_iff hl hdev .deny
    have hfailed := failed_ne_nil_iff hl hdev
    simp only [cedarEffect] at hpermit hforbid
    rw [decide_active hdev hstatus hip]
    simp only [huniq, exists_eq_left, Stuck, hip, Bool.false_eq_true, false_or, ← hfailed, Verdict,
      ← hpermit]
    -- Each branch of `decide` settles one of the three conditions.
    split
    · rename_i hf
      obtain ⟨p, hmem, hforce, hdeny, hreads⟩ := hforbid.mp hf
      simp only [Bool.false_eq_true, false_iff]
      exact fun h => h.2.2 p hmem hforce hdeny hreads
    rename_i hf
    have hnone : ∀ p ∈ l.data.policies, InForce tz now p.spec → p.spec.effect = .deny →
        ¬ Reads l.data now dev req p.spec := fun p hmem hforce hdeny hreads =>
      hf (hforbid.mpr ⟨p, hmem, hforce, hdeny, hreads⟩)
    split
    · rename_i hp
      split
      · rename_i he
        simp only [true_iff]
        exact ⟨not_not.mpr he, hp, hnone⟩
      · rename_i he
        simp [deny, he]
    · rename_i hp
      simp only [deny, Bool.false_eq_true, false_iff]
      exact fun h => hp h.2.1
  · obtain ⟨reason, heq, -⟩ := decide_refused tenant hactive
    simp only [heq, deny, Bool.false_eq_true, false_iff]
    rintro ⟨dev, hdev, hstuck, -⟩
    exact hactive ⟨dev, hdev, by simpa using fun hip => hstuck (.inl hip)⟩

theorem decide_forbid_iff :
    ((Engine.mk tenant (some l)).decide req).reason = .forbid ↔
      ∃ dev, ActiveDevice data req dev ∧ req.dstIp.isV4Mapped = false ∧
        ∃ p ∈ data.policies, InForce tz now p.spec ∧ p.spec.effect = .deny ∧
          Reads data now dev req p.spec := by
  obtain ⟨rfl, -, -, -⟩ := id hl
  by_cases hactive : ∃ dev, ActiveDevice l.data req dev ∧ req.dstIp.isV4Mapped = false
  · obtain ⟨dev, hdev, hip⟩ := hactive
    have huniq := activeDevice_iff hdev
    obtain ⟨hdev, hstatus⟩ := hdev
    have hforbid := satisfied_ne_nil_iff hl hdev .deny
    simp only [cedarEffect] at hforbid
    rw [decide_active hdev hstatus hip]
    simp only [huniq, exists_eq_left, hip, true_and, ← hforbid]
    split
    · rename_i hf
      simp [hf]
    rename_i hf
    split
    · split <;> simp [deny, hf]
    · simp [deny, hf]
  · obtain ⟨reason, heq, hreason⟩ := decide_refused tenant hactive
    simp only [heq, deny, hreason, false_iff]
    rintro ⟨dev, hdev, hip, -⟩
    exact hactive ⟨dev, hdev, hip⟩

end

/-! ### Where the reading makes no difference -/

theorem hoursSinceUpdate_eq {now ts : ℤ} (hlow : -2 ^ 63 ≤ now - ts) (hhigh : now - ts < 2 ^ 63) :
    hoursSinceUpdate now ts = hoursBetween now ts := by
  unfold hoursSinceUpdate hoursBetween
  rw [Int.bmod_eq_of_le (by omega) (by omega)]

theorem cidrScan_eq {ip : IpAddr} {nets : List IpNet}
    (h : ∀ net ∈ nets, net.addr.isV4Mapped = false) :
    cidrScan ip nets = some (nets.any fun net => net.contains ip) := by
  induction nets with
  | nil => rfl
  | cons net nets ih =>
    obtain ⟨hnet, hnets⟩ := List.forall_mem_cons.mp h
    rw [cidrScan, hnet, ih hnets, List.any_cons]
    cases net.contains ip <;> rfl

/-- A snapshot and a request that read as they mean: destinations are `any` or list no device
class, no address is in dotted IPv6 form, and no update time is out of range. -/
structure Plain (data : SnapshotData) (now : ℤ) (req : DecisionRequest) : Prop where
  dstIp : req.dstIp.isV4Mapped = false
  classes : ∀ p ∈ data.policies,
    p.spec.destination.any = true ∨ p.spec.destination.deviceClasses = []
  cidrs : ∀ p ∈ data.policies, ∀ net ∈ p.spec.destination.cidrs, net.addr.isV4Mapped = false
  updates : ∀ d ∈ data.devices, ∀ ts, d.attrs.lastUpdateUnix = some ts →
    -2 ^ 63 ≤ now - ts ∧ now - ts < 2 ^ 63

section
variable {req : DecisionRequest} {p : PolicyEntry}

section
variable (h : Plain data now req)
include h

theorem Plain.destinationReads_iff (hp : p ∈ data.policies) (hvalid : p.spec.validate tz = .ok ()) :
    DestinationReads data p.spec.destination req ↔
      DestinationMatches data p.spec.destination req := by
  have hscan : cidrScan req.dstIp p.spec.destination.cidrs = some true ↔
      ∃ n ∈ p.spec.destination.cidrs, n.contains req.dstIp = true := by
    rw [cidrScan_eq (h.cidrs p hp)]
    simp
  unfold DestinationReads DestinationMatches ReadsAtOnce
  rw [hscan]
  rcases h.classes p hp with hany | hnone
  · simp [hany]
  have hlisted : ¬ (p.spec.destination.any = false ∧ p.spec.destination.pods = [] ∧
      p.spec.destination.devices = [] ∧ p.spec.destination.cidrs = []) := by
    rintro ⟨hany, hpods, hdevices, hcidrs⟩
    have hne := (validate_ok hvalid).2.2.1
    simp [Selector.isEmpty, hany, hpods, hdevices, hcidrs, hnone] at hne
  have hclass : ¬ ClassDestination data p.spec.destination req.destination := by
    cases req.destination <;> simp [ClassDestination, hnone]
  cases hany : p.spec.destination.any with
  | true => simp
  | false =>
    have hnil : ¬ (p.spec.destination.pods = [] ∧ p.spec.destination.devices = [] ∧
        p.spec.destination.cidrs = []) := fun hnil => hlisted ⟨hany, hnil⟩
    simp only [Bool.false_eq_true, hnil, hclass, false_or]

theorem Plain.conditionsHold_iff (hdev : ActiveDevice data req dev)
    (c : Conditions) : ConditionsHold hoursSinceUpdate now c dev.attrs ↔
      ConditionsHold hoursBetween now c dev.attrs := by
  have hours : ∀ ts, dev.attrs.lastUpdateUnix = some ts →
      hoursSinceUpdate now ts = hoursBetween now ts := fun ts hts =>
    have hrange := h.updates dev (List.mem_of_find?_eq_some hdev.1) ts hts
    hoursSinceUpdate_eq hrange.1 hrange.2
  have hle : ∀ x : UInt32, (∃ ts, dev.attrs.lastUpdateUnix = some ts ∧
      hoursSinceUpdate now ts ≤ x.toNat) ↔ ∃ ts, dev.attrs.lastUpdateUnix = some ts ∧
      hoursBetween now ts ≤ x.toNat := fun x =>
    exists_congr fun ts => and_congr_right fun hts => by rw [hours ts hts]
  simp only [ConditionsHold, PostureHolds, hle]

theorem Plain.reads_iff_matches (hdev : ActiveDevice data req dev)
    (hp : p ∈ data.policies) (hvalid : p.spec.validate tz = .ok ()) :
    Reads data now dev req p.spec ↔ Matches data now dev req p.spec := by
  simp only [Reads, Matches, h.destinationReads_iff hp hvalid, h.conditionsHold_iff hdev]

theorem Plain.faithful
    (hvalid : ∀ p ∈ data.policies, p.spec.validate tz = .ok ()) : Faithful tz data now req := by
  intro dev hdev
  have hread : ¬ Stuck tz data now req := by
    rintro (hip | ⟨p, hp, -, -, -, hscan⟩)
    · rw [h.dstIp] at hip
      cases hip
    · rw [cidrScan_eq (h.cidrs p hp)] at hscan
      cases hscan
  refine ⟨fun hstuck => absurd hstuck hread, fun _ => and_congr ?_ ?_⟩
  · exact exists_congr fun p => and_congr_right fun hp => by
      rw [h.reads_iff_matches hdev hp (hvalid p hp)]
  · exact forall₂_congr fun p hp => by rw [h.reads_iff_matches hdev hp (hvalid p hp)]

end

end

/-! ### The comparison with what policies mean -/

/-- After a snapshot is loaded, the engine decides a request as the policies mean if and only
if reading them as compiled makes no difference for it. -/
theorem decide_allows_iff_faithful {tz : TzDb} {e e' : Engine} {data : SnapshotData} {now : ℤ}
    (h : e.load tz data now = .ok e') (req : DecisionRequest) :
    ((e'.decide req).allow = true ↔ Allows tz data now req) ↔ Faithful tz data now req := by
  obtain ⟨l, rfl, -, hl⟩ := loadedAt_of_load h
  rw [decide_allow_iff hl]
  by_cases hactive : ∃ dev, ActiveDevice data req dev
  · obtain ⟨dev, hdev⟩ := hactive
    simp only [Allows, Faithful, activeDevice_iff hdev, exists_eq_left, forall_eq]
    by_cases hstuck : Stuck tz data now req <;> simp [hstuck]
  · have hnone : ∀ dev, ¬ ActiveDevice data req dev := fun dev hdev => hactive ⟨dev, hdev⟩
    simp [Allows, Faithful, hnone]

def utc : TzDb where
  Tz := Unit
  parse s := if s = "UTC" then some () else none
  localTime _ now :=
    let weekday := match (now / 86400) % 7 with
      | 0 => Weekday.thu
      | 1 => .fri
      | 2 => .sat
      | 3 => .sun
      | 4 => .mon
      | 5 => .tue
      | _ => .wed
    some (weekday, (now % 86400 / 60).toNat)

def officeDevices : List DeviceEntity :=
  let attrs : DeviceAttrs := ⟨"active", none, some true, none, none, none, some 0, "none", 0⟩
  [⟨1, [11], attrs⟩, ⟨2, [], { attrs with class? := some 20 }⟩]

def officeSnapshot (spec : PolicySpec) : SnapshotData :=
  ⟨7, 1, [⟨10, none⟩, ⟨11, some 10⟩], [20, 21], officeDevices, [⟨30, spec⟩]⟩

def sshSpec : PolicySpec where
  version := 2
  effect := .allow
  priority := 0
  source := ⟨[10], [], [], [], false⟩
  destination := ⟨[], [2], [], [], false⟩
  l4 := [⟨.tcp, ⟨[⟨22, 22⟩]⟩⟩]
  conditions := ⟨none, some ⟨some true, none, none, none, some 1⟩, none, none⟩

def flowTo2 (port : UInt16) : DecisionRequest :=
  ⟨1, .device 2, .v4 0x0A140002, .tcp, port, false⟩

theorem plain_sshSpec (port : UInt16) : Plain (officeSnapshot sshSpec) 3600 (flowTo2 port) where
  dstIp := rfl
  classes := by decide
  cidrs := by decide
  updates := by
    intro d hd ts hts
    have hzero : ∀ d ∈ officeDevices, d.attrs.lastUpdateUnix = some 0 := by decide
    cases (hzero d hd).symm.trans hts
    decide

/-- With SSH the engine decides as the policy means, on every port. -/
theorem decide_allows_ssh : ∃ e,
    (empty 7).load utc (officeSnapshot sshSpec) 3600 = .ok e ∧
      ∀ port, (e.decide (flowTo2 port)).allow = true ↔
        Allows utc (officeSnapshot sshSpec) 3600 (flowTo2 port) := by
  obtain ⟨e, he, -⟩ := exists_ok (x := (empty 7).load utc (officeSnapshot sshSpec) 3600)
    (p := fun _ => true) (by decide +kernel)
  exact ⟨e, he, fun port => (decide_allows_iff_faithful he (flowTo2 port)).mpr
    ((plain_sshSpec port).faithful (by decide +kernel))⟩

def classSpec : PolicySpec := { sshSpec with destination := ⟨[], [], [21], [], false⟩ }

def flowOutside : DecisionRequest :=
  ⟨1, .ip (.v4 0xC0000201), .v4 0xC0000201, .tcp, 22, false⟩

/-- The policy is valid and its destination is not `any`, but the engine lets the flow to an
outside address through, and so the flow to device 2, which is of another class. -/
theorem decide_class_destination : ∃ e,
    classSpec.validate utc = .ok () ∧ classSpec.destination.any = false ∧
      (empty 7).load utc (officeSnapshot classSpec) 3600 = .ok e ∧
      ((e.decide flowOutside).allow = true ∧
        ¬ Allows utc (officeSnapshot classSpec) 3600 flowOutside) ∧
      (e.decide (flowTo2 22)).allow = true ∧
        ¬ Allows utc (officeSnapshot classSpec) 3600 (flowTo2 22) := by
  obtain ⟨e, hload, hrun⟩ := exists_ok
    (x := (empty 7).load utc (officeSnapshot classSpec) 3600)
    (p := fun e => (e.decide flowOutside).allow && (e.decide (flowTo2 22)).allow)
    (by decide +kernel)
  obtain ⟨hout, hto2⟩ := Bool.and_eq_true_iff.mp hrun
  have hnone : ∀ req : DecisionRequest,
      ¬ DestinationMatches (officeSnapshot classSpec) classSpec.destination req →
        ¬ Allows utc (officeSnapshot classSpec) 3600 req := by
    rintro req hdest ⟨dev, -, ⟨p, hp, -, -, -, hmatch, -⟩, -⟩
    cases List.mem_singleton.mp hp
    exact hdest hmatch
  refine ⟨e, by decide +kernel, rfl, hload, ⟨hout, hnone _ ?_⟩, hto2, hnone _ ?_⟩
  · rintro (hany | hlisted | hclass | ⟨n, hn, -⟩)
    · cases hany
    · exact hlisted
    · exact hclass
    · cases hn
  rintro (hany | (hlisted | ⟨p, hp, -⟩) | ⟨c, hc, d, hd, hid, hcls⟩ | ⟨n, hn, -⟩)
  · cases hany
  · cases hlisted
  · cases hp
  · -- Device 2 is of class 20, and the policy lists class 21.
    cases List.mem_singleton.mp hc
    revert d
    decide
  · cases hn

/-! ### Evaluation errors -/

/-- After a snapshot is loaded, no compiled policy fails on a request of one of its devices, and
`decide` does not end in its branch for failures, if and only if no policy in force reaches a
network that Cedar cannot read. -/
theorem evaluates_iff_readable {tz : TzDb} {e e' : Engine} {data : SnapshotData} {now : ℤ}
    (h : e.load tz data now = .ok e') (req : DecisionRequest) {dev : DeviceEntity}
    (hdev : data.findDevice req.device = some dev) {request : Request}
    (hreq : Engine.request req = .ok request) :
    ∃ l, e'.inner = some l ∧
      (((∀ q ∈ l.compiled.policies.policies, ∀ err,
          q.condition.evalBool request l.entities ≠ .error err) ∧
        ∀ errors, (e'.decide req).reason ≠ .evaluationErrors errors) ↔
      ∀ p ∈ data.policies, InForce tz now p.spec → ¬ Unreadable data req p.spec) := by
  obtain ⟨l, rfl, -, hl⟩ := loadedAt_of_load h
  have hip : req.dstIp.isV4Mapped = false := by
    rw [request_eq] at hreq
    by_contra hip
    rw [if_pos (by simpa using hip)] at hreq
    cases hreq
  obtain rfl : cedarRequest req = request := by
    rw [request_eq, hip] at hreq
    cases hreq
    rfl
  refine ⟨l, rfl, fun hnone p hp hforce hunread => ?_, fun hread => ⟨fun q hq err herr => ?_, ?_⟩⟩
  · obtain ⟨err, herr⟩ := (evalBool_conditionOf_error hl.entities hdev (hl.valid p hp)).mpr hunread
    exact hnone.1 _ ((hl.policies _).mpr ⟨p, hp, hforce, rfl⟩) err herr
  · obtain ⟨p, hp, hforce, rfl⟩ := (hl.policies q).mp hq
    exact hread p hp hforce
      ((evalBool_conditionOf_error hl.entities hdev (hl.valid p hp)).mp ⟨err, herr⟩)
  intro errors
  have hnil : failed (cedarRequest req) l.entities l.compiled.policies.policies = [] := by
    by_contra hne
    obtain ⟨p, hp, hforce, hunread⟩ := (failed_ne_nil_iff hl hdev).mp hne
    exact hread p hp hforce hunread
  obtain ⟨rfl, -, -, -⟩ := id hl
  by_cases hactive : dev.attrs.status = "active"
  · rw [decide_active hdev hactive hip, hnil]
    split
    · simp
    · split <;> simp [deny]
  · simp [Engine.decide, hdev, hactive, deny]

theorem evaluates_ssh : ∃ e l,
    (empty 7).load utc (officeSnapshot sshSpec) 3600 = .ok e ∧ e.inner = some l ∧
      (∀ q ∈ l.compiled.policies.policies, ∀ err,
        q.condition.evalBool (cedarRequest (flowTo2 22)) l.entities ≠ .error err) ∧
      ∀ errors, (e.decide (flowTo2 22)).reason ≠ .evaluationErrors errors := by
  obtain ⟨e, he, -⟩ := exists_ok (x := (empty 7).load utc (officeSnapshot sshSpec) 3600)
    (p := fun _ => true) (by decide +kernel)
  obtain ⟨l, hl, hiff⟩ := evaluates_iff_readable he (flowTo2 22) rfl rfl
  refine ⟨e, l, he, hl, hiff.mpr fun p hp _ hunread => ?_⟩
  cases List.mem_singleton.mp hp
  cases hunread.2.2

/-- Everything is allowed, but for a network whose addresses are IPv4 ones in IPv6 form. -/
def mappedSnapshot : SnapshotData :=
  let source : Selector := ⟨[10], [], [], [], false⟩
  let mapped : IpNet := ⟨.v6 0xFFFF0A000000, 104, by decide⟩
  { officeSnapshot sshSpec with policies :=
      [⟨30, ⟨2, .deny, 0, source, ⟨[], [], [], [mapped], false⟩, [], ⟨none, none, none, none⟩⟩⟩,
       ⟨31, ⟨2, .allow, 0, source, ⟨[], [], [], [], true⟩, [], ⟨none, none, none, none⟩⟩⟩] }

/-- The engine loads the snapshot, and the flow of device 1 to an outside address, which is in
no network that is denied, ends in the branch for evaluation errors. -/
theorem evaluation_fails_mapped : ∃ e,
    (empty 7).load utc mappedSnapshot 3600 = .ok e ∧
      (mappedSnapshot.findDevice flowOutside.device).isSome ∧
      Engine.request flowOutside = .ok (cedarRequest flowOutside) ∧
      (e.decide flowOutside).reason = .evaluationErrors [(30, .extension)] := by
  obtain ⟨e, he, hrun⟩ := exists_ok (x := (empty 7).load utc mappedSnapshot 3600)
    (p := fun e => (e.decide flowOutside).reason = .evaluationErrors [(30, .extension)])
    (by decide +kernel)
  exact ⟨e, he, rfl, rfl, by simpa using hrun⟩

end Avon.Policy
