import Avon.Policy.MudMeaning
import Avon.Proofs.Policy.Decide
import Avon.Proofs.Policy.PortText

/-!
# What becomes of a MUD file

The terminal policy of an import denies every flow of the class, and a deny policy overrides all
others whatever the priorities. `Represented` is a condition on the document alone, under which the
policy of an ACE matches no more than the ACE: each of its parts rules out one of the fallbacks of
the import (`mud_widens` has a document for each). The parsers and the resolver are arbitrary.
-/

set_option autoImplicit false

namespace Avon.Policy.Mud

open Semantics

variable {env : MudEnv} {cls : Uuid} {out : MudImport} {data : SnapshotData} {text : String}
  {dev : DeviceEntity} {doc : Json} {req : DecisionRequest}
  {protocol : Protocol} {ace : Ace} {addr : IpAddr} {port : UInt16} {now : ℤ} {tz : TzDb}

/-- The policies of an import: one for each ACE that gives one, and the terminal one. -/
theorem policies_of_import
    (hparse : env.parse text = .ok doc) (himport : importMud env text cls = .ok out) :
    out.policies = (fromAces doc).filterMap (fun ace => (ace.turn env cls).1) ++
      [defaultDeny cls] := by
  simp only [importMud, hparse] at himport
  cases hmud : doc.get "ietf-mud:mud" with
  | none =>
    rw [hmud] at himport
    cases himport
  | some mud =>
    simp only [hmud] at himport
    split at himport
    · cases himport
    cases himport
    simp only [fromAces, hmud, List.filterMap_map]
    rfl

/-! ### The terminal policy -/

theorem defaultDeny_reads (hdev : ActiveDevice data req dev)
    (hclass : dev.attrs.class? = some cls) :
    Reads data now dev req (defaultDeny cls).2 := by
  have hmem : dev ∈ data.devices := List.mem_of_find?_eq_some hdev.1
  have hid : dev.id = req.device := by simpa using List.find?_some hdev.1
  refine ⟨.inr (.inr (.inr ⟨cls, List.mem_singleton.mpr rfl, dev, hmem, hid, hclass⟩)),
    Or.inl (.inl rfl), .inl rfl, ?_⟩
  simp [ConditionsHold, defaultDeny]

theorem not_allowed_of_import (hparse : env.parse text = .ok doc)
    (himport : importMud env text cls = .ok out) {l : Loaded} (hl : LoadedAt tz data now l)
    (hpolicies : data.policies.map (·.spec) = out.policies.map Prod.snd) (tenant : TenantId)
    (hdev : ActiveDevice data req dev)
    (hclass : dev.attrs.class? = some cls) :
    ((Engine.mk tenant (some l)).decide req).allow = false := by
  have hmem : (defaultDeny cls).2 ∈ data.policies.map (·.spec) := by
    rw [hpolicies, policies_of_import hparse himport]
    simp
  obtain ⟨p, hp, hspec⟩ := List.mem_map.mp hmem
  rw [Bool.eq_false_iff, ne_eq, decide_allow_iff hl]
  rintro ⟨dev', hdev', -, -, hdeny⟩
  cases (activeDevice_iff hdev dev').mp hdev'
  refine hdeny p hp ?_ (by rw [hspec]; rfl) (by rw [hspec]; exact defaultDeny_reads hdev hclass)
  rw [hspec]
  simp [InForce, defaultDeny]

/-- The policies of a MUD file decide a flow of its class as the file means if and only if the
file does not accept the flow. -/
theorem mud_meaning_iff {env : MudEnv} {text : String} {cls : Uuid} {out : MudImport} {doc : Json}
    (hparse : env.parse text = .ok doc) (himport : importMud env text cls = .ok out)
    {tz : TzDb} {data : SnapshotData} {now : ℤ} {e e' : Engine}
    (hload : e.load tz data now = .ok e')
    (hpolicies : data.policies.map (·.spec) = out.policies.map Prod.snd)
    {device : DeviceId} {addr : IpAddr} {protocol : Protocol} {port : UInt16} {dev : DeviceEntity}
    (hdev : ActiveDevice data (flowTo device addr protocol port) dev)
    (hclass : dev.attrs.class? = some cls) :
    ((e'.decide (flowTo device addr protocol port)).allow = true ↔
        accepts env doc protocol port addr = true) ↔
      accepts env doc protocol port addr = false := by
  obtain ⟨l, rfl, -, hl⟩ := loadedAt_of_load hload
  rw [not_allowed_of_import hparse himport hl hpolicies e.tenant hdev hclass]
  cases accepts env doc protocol port addr <;> simp

/-! ### A MUD file of a camera -/

def mudDoc (aces : List Json) : Json :=
  .object [
    ("ietf-mud:mud", .object [("from-device-policy", .object [("access-lists",
      .object [("access-list", .array [.object [("name", .string "out")]])])])]),
    ("ietf-access-control-list:acls", .object [("acl", .array [.object [
      ("name", .string "out"), ("aces", .object [("ace", .array aces)])]])])]

def acceptAce (matches' : List (String × Json)) : Json :=
  .object [("matches", .object matches'),
    ("actions", .object [("forwarding", .string "accept")])]

def toNetwork : String × Json := ("destination-ipv4-network", .string "192.0.2.0/24")

def tcpPort (port : ℤ) : String × Json :=
  ("tcp", .object [("destination-port", .object [("port", .int port)])])

def httpsJson : Json :=
  acceptAce [("ipv4", .object [toNetwork, ("protocol", .int 6)]), tcpPort 443]

def cameraDoc : Json := mudDoc [httpsJson]

def makerEnv (doc : Json) : MudEnv where
  parse _ := .ok doc
  ipNet text := if text = "192.0.2.0/24" then some ⟨.v4 0xC0000200, 24, by decide⟩ else none
  resolve name := if name = "maker.example" then [.host (.v4 0xC0000207)] else []

/-- The office with the imported policies and no others. Device 2 is of class 20. -/
def withImport (out : MudImport) : SnapshotData :=
  { officeSnapshot sshSpec with
    policies := out.policies.zipIdx.map fun p => ⟨BitVec.ofNat 128 p.2, p.1.2⟩ }

def toMaker (protocol : Protocol) (port : UInt16) : DecisionRequest :=
  flowTo 2 (.v4 0xC0000207) protocol port

/-- The file accepts HTTPS to the maker, and the engine denies it. -/
theorem mud_accept_denied : ∃ out e, importMud (makerEnv cameraDoc) "camera" 20 = .ok out ∧
    (Engine.empty 7).load utc (withImport out) 3600 = .ok e ∧
    accepts (makerEnv cameraDoc) cameraDoc .tcp 443 (.v4 0xC0000207) = true ∧
    (e.decide (toMaker .tcp 443)).allow = false := by
  obtain ⟨out, himport, hload⟩ := exists_ok (x := importMud (makerEnv cameraDoc) "camera" 20)
    (p := fun out => ((Engine.empty 7).load utc (withImport out) 3600).toOption.any fun e =>
      !(e.decide (toMaker .tcp 443)).allow) (by decide +kernel)
  obtain ⟨e, hload, hdeny⟩ := exists_ok hload
  exact ⟨out, e, himport, hload, by decide +kernel, by simpa using hdeny⟩

/-- A flow to another port is denied by the file and by the engine. -/
theorem mud_other_port : ∃ out e, importMud (makerEnv cameraDoc) "camera" 20 = .ok out ∧
    (Engine.empty 7).load utc (withImport out) 3600 = .ok e ∧
    ((e.decide (toMaker .tcp 80)).allow = true ↔
      accepts (makerEnv cameraDoc) cameraDoc .tcp 80 (.v4 0xC0000207) = true) := by
  have hparse : (makerEnv cameraDoc).parse "camera" = .ok cameraDoc := rfl
  obtain ⟨out, himport, hload⟩ := exists_ok (x := importMud (makerEnv cameraDoc) "camera" 20)
    (p := fun out => ((Engine.empty 7).load utc (withImport out) 3600).toOption.any fun _ =>
      decide ((withImport out).policies.map (·.spec) = out.policies.map Prod.snd))
    (by decide +kernel)
  obtain ⟨e, hload, hpolicies⟩ := exists_ok hload
  refine ⟨out, e, himport, hload, ?_⟩
  exact (mud_meaning_iff hparse himport hload (of_decide_eq_true hpolicies) ⟨rfl, rfl⟩ rfl).mpr
    (by decide +kernel)

/-! ### The networks and ports of a policy -/

theorem familyOf_eq_of_contains {n : IpNet} (h : n.contains addr = true) :
    familyOf addr = familyOf n.addr := by
  unfold IpNet.contains at h
  cases haddr : n.addr <;> cases addr <;> rw [haddr] at h <;> first | rfl | cases h

/-- A text of digits and dashes is one part. -/
theorem parse_part {part : List Char} {r : PortRange} (hne : part ≠ [])
    (hchars : ∀ c ∈ part, c.isDigit = true ∨ c = '-') (h : PortSet.parsePart part = .ok r) :
    PortSet.parse part = .ok ⟨[r]⟩ := by
  have hcomma : ',' ∉ part := fun hc => by rcases hchars _ hc with hc | hc <;> cases hc
  have htrim : trim part = part := trim_of_clear fun c hc => by
    rcases hchars c hc with hdigit | rfl
    · exact not_whitespace_of_isDigit hdigit
    · decide
  simp [PortSet.parse, List.splitOn_eq_singleton hcomma, htrim, hne, h]

/-- The text of two ports in order, as the import writes it. -/
theorem parse_range {lo hi : ℕ} (hle : lo ≤ hi) (hhi : hi < 2 ^ 16) :
    PortSet.parse (Nat.toDigits 10 lo ++ '-' :: Nat.toDigits 10 hi) =
      .ok ⟨[⟨.ofNat lo, .ofNat hi⟩]⟩ := by
  have hlo := digitWord_toDigits (hle.trans_lt hhi)
  have hword := digitWord_toDigits hhi
  refine parse_part (by simp) (fun c hc => ?_) ?_
  · rcases List.mem_append.mp hc with hc | hc
    · exact .inl (hlo.digits c hc)
    · exact (List.mem_cons.mp hc).symm.imp (hword.digits c) id
  · rw [parsePart_dash hlo.no_dash, readRange_eq_ok]
    exact ⟨lo, hi, by rw [hlo.trim, hlo.parse, decimal_toDigits],
      by rw [hword.trim, hword.parse, decimal_toDigits], hle, rfl⟩

theorem parse_port {n : ℕ} (h : n < 2 ^ 16) :
    PortSet.parse (Nat.toDigits 10 n) = .ok ⟨[⟨.ofNat n, .ofNat n⟩]⟩ := by
  have hword := digitWord_toDigits h
  refine parse_part hword.nonempty (fun c hc => .inl (hword.digits c hc)) ?_
  rw [parsePart_plain hword.no_dash, readRange_eq_ok]
  have hparse : parseU16 (Nat.toDigits 10 n) = some n := by rw [hword.parse, decimal_toDigits]
  exact ⟨n, n, hparse, hparse, le_rfl, rfl⟩

theorem contains_range {lo hi : ℕ} (hle : lo ≤ hi) (hhi : hi < 2 ^ 16) :
    PortSet.contains ⟨[⟨.ofNat lo, .ofNat hi⟩]⟩ port = true ↔
      lo ≤ port.toNat ∧ port.toNat ≤ hi := by
  rw [← between_iff (hle.trans_lt hhi) hhi]
  simp [PortSet.contains]

/-! ### What a policy of an import matches -/

section
variable {device : DeviceId}

theorem turn_allow_iff {p : String × PolicySpec} :
    (ace.turn env cls).1 = some p ∧ p.2.effect = .allow ↔
      ace.action = "accept" ∧ ace.cidrs env ≠ [] ∧ p = ace.policy cls .allow (ace.cidrs env) := by
  have hdrop : ("drop" : String) ≠ "accept" := by decide
  unfold Ace.turn
  by_cases haccept : ace.action = "accept"
  · by_cases hnil : ace.cidrs env = []
    · simp [haccept, hnil]
    simp only [haccept, if_true, List.isEmpty_iff, hnil, if_false, Option.some.injEq, ne_eq,
      not_false_eq_true, true_and]
    constructor
    · rintro ⟨rfl, -⟩
      rfl
    · rintro rfl
      exact ⟨rfl, rfl⟩
  · simp only [haccept, if_false, false_and, iff_false, not_and]
    -- What is dropped is denied, and another action gives no policy.
    by_cases hdropped : ace.action = "drop"
    · simp only [hdropped, if_true]
      split
      · exact fun h => nomatch h
      · rintro ⟨rfl⟩ heffect
        cases heffect
    · simp only [hdropped, if_false]
      exact fun h => nomatch h

theorem destinationMatches_policy_iff {data : SnapshotData} {effect : Effect}
    {cidrs : List IpNet} :
    DestinationMatches data (ace.policy cls effect cidrs).2.destination
        (flowTo device addr protocol port) ↔ ∃ n ∈ cidrs, n.contains addr = true := by
  simp [DestinationMatches, ListedDestination, ClassDestination, Ace.policy, Ace.noSelector, flowTo]

theorem l4Matches_iff : L4Matches ace.l4 (flowTo device addr protocol port) ↔
    protocolOf ace.protocolNumber = .any ∨
      (protocol = protocolOf ace.protocolNumber ∧ ace.ports.contains port = true) := by
  unfold Ace.l4 L4Matches flowTo
  cases protocolOf ace.protocolNumber <;> simp [eq_comm (a := protocol)]

end

/-! ### When nothing is widened -/

/-- The numbers of a protocol in IPv4 and IPv6. -/
def numbers : Protocol → List ℕ
  | .tcp => [6]
  | .udp => [17]
  | .icmp => [1, 58]
  | .any => []

/-- A `destination-port` whose numbers are ports: one of them with an operator that holds of the
port itself, a range in order, or none at all. -/
def PortsInRange (d : Json) : Prop :=
  (∃ n < 2 ^ 16, (d.get "port").bind Json.asU64 = some n ∧ (d.get "operator").map Json.asStr ∈
    [none, some (some "eq"), some (some "lte"), some (some "gte")]) ∨
  (d.get "port" = none ∧ ∃ lo hi, lo ≤ hi ∧ hi < 2 ^ 16 ∧
    (d.get "lower-port").bind Json.asU64 = some lo ∧
    (d.get "upper-port" = none ∧ hi = lo ∨ (d.get "upper-port").bind Json.asU64 = some hi)) ∨
  (d.get "port" = none ∧ d.get "lower-port" = none ∧ d.get "upper-port" = none)

/-- A container of layer 4 is for the protocol, and its ports are in range. -/
def L4InRange (ace : Ace) (key : String) (q p : Protocol) : Prop :=
  ∀ v, ace.matches'.get key = some v →
    p = q ∧ ∀ d, v.get "destination-port" = some d → PortsInRange d

/-- The ACE is about one protocol that the import knows. -/
structure OfProtocol (ace : Ace) (p : Protocol) : Prop where
  written : ∃ f, ace.matches'.pointer [Family.text f, "protocol"] ≠ none
  known : ∀ f v, ace.matches'.pointer [Family.text f, "protocol"] = some v →
    ∃ n ∈ numbers p, v.asU64 = some n
  tcp : L4InRange ace "tcp" .tcp p
  udp : L4InRange ace "udp" .udp p

/-- The ACE says nothing of protocols and ports. -/
structure OfNoProtocol (ace : Ace) : Prop where
  protocol : ∀ f, ace.matches'.pointer [Family.text f, "protocol"] = none
  tcp : ace.matches'.get "tcp" = none
  udp : ace.matches'.get "udp" = none

/-- The import can represent the ACE: no family has both a network and a name, the networks are of
the family they are written for, and there is one known protocol for the ports, or nothing is said
of protocol and ports. -/
structure Represented (env : MudEnv) (ace : Ace) : Prop where
  oneSource : ∀ f, ace.matches'.pointer [Family.text f, f.networkKey] = none ∨
    ace.matches'.pointer [f.text, "ietf-acldns:dst-dnsname"] = none
  network : ∀ f text n, ace.matches'.pointer [Family.text f, f.networkKey] = some (.string text) →
    env.ipNet text = some n → familyOf n.addr = f
  resolved : ∀ f name, ace.matches'.pointer [Family.text f, "ietf-acldns:dst-dnsname"] =
    some (.string name) → ∀ n ∈ env.resolve name, familyOf n.addr = f
  l4 : OfNoProtocol ace ∨ ∃ p, OfProtocol ace p

theorem protocolOf_numbers {p : Protocol} {n : ℕ} (h : n ∈ numbers p) :
    protocolOf (some n) = p ∧ n < 256 := by
  cases p <;> simp only [numbers, List.mem_cons, List.not_mem_nil, or_false] at h <;>
    first | exact h.elim | rcases h with rfl | rfl <;> exact ⟨rfl, by decide⟩

theorem asStr_eq_some {v : Json} {s : String} : v.asStr = some s ↔ v = .string s := by
  cases v <;> simp [Json.asStr]

theorem get_of_pointer {j v : Json} {a b : String} (h : j.pointer [a, b] = some v) :
    (j.get a).isSome = true := by
  obtain ⟨w, hw, -⟩ := Option.bind_eq_some_iff.mp h
  simp [hw]

/-- A network of the policy is one that the ACE says of the destination. -/
theorem Represented.destination (h : Represented env ace) {n : IpNet} (hn : n ∈ ace.cidrs env)
    (haddr : n.contains addr = true) : ace.destinationMeans env addr = true := by
  obtain ⟨f, hf⟩ : ∃ f, n ∈ ace.cidrsOf env f :=
    (List.mem_append.mp hn).elim (⟨_, ·⟩) (⟨_, ·⟩)
  have hfamily := familyOf_eq_of_contains haddr
  simp only [Ace.destinationMeans, hfamily, Bool.and_eq_true, Bool.or_eq_true]
  rcases List.mem_append.mp hf with hnet | hname
  · obtain ⟨text, htext, hparse⟩ := Option.bind_eq_some_iff.mp (Option.mem_toList.mp hnet)
    obtain ⟨v, hv, hstr⟩ := Option.bind_eq_some_iff.mp htext
    obtain rfl := asStr_eq_some.mp hstr
    rw [h.network f text n hv hparse]
    have hnone := (h.oneSource f).resolve_left (by simp [hv])
    exact ⟨⟨.inl (get_of_pointer hv), by simp [hv, Json.asStr, hparse, haddr]⟩, by simp [hnone]⟩
  · cases hdns : ace.dnsName f with
    | none => simp [hdns] at hname
    | some name =>
      obtain ⟨v, hv, hstr⟩ := Option.bind_eq_some_iff.mp hdns
      obtain rfl := asStr_eq_some.mp hstr
      have hmem : n ∈ env.resolve name := by simpa [hdns] using hname
      rw [h.resolved f name hv n hmem]
      have hnone := (h.oneSource f).resolve_right (by simp [hv])
      refine ⟨⟨.inl (get_of_pointer hv), by simp [hnone]⟩, ?_⟩
      simpa [hv, Json.asStr] using ⟨n, hmem, haddr⟩

theorem OfProtocol.protocolOf {p : Protocol} (h : OfProtocol ace p) :
    protocolOf ace.protocolNumber = p := by
  have hread : ∀ f v, ace.matches'.pointer [Family.text f, "protocol"] = some v →
      ∃ n, v.asU64 = some n ∧ Mud.protocolOf (some n) = p := fun f v hv => by
    obtain ⟨n, hn, hu64⟩ := h.known f v hv
    exact ⟨n, hu64, (protocolOf_numbers hn).1⟩
  cases hv4 : ace.matches'.pointer ["ipv4", "protocol"] with
  | some v =>
    obtain ⟨n, hu64, hp⟩ := hread .ipv4 v hv4
    simpa [Ace.protocolNumber, hv4, hu64] using hp
  | none =>
    obtain ⟨f, hf⟩ := h.written
    cases f with
    | ipv4 => exact absurd hv4 hf
    | ipv6 =>
      obtain ⟨v, hv6⟩ := Option.ne_none_iff_exists'.mp hf
      obtain ⟨n, hu64, hp⟩ := hread .ipv6 v hv6
      simp only [Family.text] at hv6
      simpa [Ace.protocolNumber, hv4, hv6, hu64] using hp

/-- What is read of a `destination-port` in range is what it says. -/
theorem PortsInRange.portMeans {v d : Json} {key : String} (h : PortsInRange d)
    (hkey : ace.matches'.get key = some v) (hd : v.get "destination-port" = some d)
    (hport : ((portsOf ace.matches' key).getD ⟨[]⟩).contains port = true) :
    portMeans d port = true := by
  rcases h with ⟨n, hn, hport', hop⟩ | ⟨hnone, lo, hi, hle, hhi, hlo, hupper⟩ | ⟨hp, hl, hu⟩
  · obtain ⟨w, hw, hu64⟩ := Option.bind_eq_some_iff.mp hport'
    simp only [portsOf, hkey, hd, hw, hu64, Option.bind_eq_bind, Option.bind_some,
      parse_port hn, Except.toOption, Option.getD_some] at hport
    have heq := (contains_range le_rfl hn).mp hport
    simp only [Mud.portMeans, hw, hu64, Option.any_some]
    simp only [List.mem_cons, List.not_mem_nil, or_false] at hop
    rcases hop with hop | hop | hop | hop <;> simp only [hop, decide_eq_true_eq] <;> omega
  · obtain ⟨w, hw, hu64⟩ := Option.bind_eq_some_iff.mp hlo
    rcases hupper with ⟨hupper, rfl⟩ | hupper
    · simp only [portsOf, hkey, hd, hnone, hlo, hupper, Option.bind_eq_bind, Option.bind_some,
        Option.bind_none, Option.getD_none, parse_range hle hhi, Except.toOption,
        Option.getD_some] at hport
      have heq := (contains_range hle hhi).mp hport
      simp only [Mud.portMeans, hnone, hw, hupper, hu64, Option.any_some, decide_eq_true_eq]
      omega
    · obtain ⟨u, hu, huu64⟩ := Option.bind_eq_some_iff.mp hupper
      simp only [portsOf, hkey, hd, hnone, hlo, hupper, Option.bind_eq_bind, Option.bind_some,
        Option.bind_none, parse_range hle hhi, Except.toOption, Option.getD_some] at hport
      have heq := (contains_range hle hhi).mp hport
      simpa [Mud.portMeans, hnone, hw, hu, hu64, huu64] using heq
  · simp [Mud.portMeans, hp, hl, hu]

theorem L4InRange.means {key : String} {q p : Protocol} (h : L4InRange ace key q p)
    (hport : ((portsOf ace.matches' key).getD ⟨[]⟩).contains port = true) :
    ace.l4Means key q p port = true := by
  unfold Ace.l4Means
  cases hv : ace.matches'.get key with
  | none => rfl
  | some v =>
    obtain ⟨rfl, hd⟩ := h v hv
    simp only [Option.all_some, decide_true, Bool.true_and]
    cases hdest : v.get "destination-port" with
    | none => rfl
    | some d => exact (hd d hdest).portMeans hv hdest hport

theorem portsOf_of_none {key : String} (h : ace.matches'.get key = none) :
    portsOf ace.matches' key = none := by
  simp [portsOf, h]

/-- The ports of the rule are those of the container for its protocol. -/
theorem OfProtocol.ports {p : Protocol} (h : OfProtocol ace p)
    (hport : ace.ports.contains port = true) :
    ace.l4Means "tcp" .tcp p port = true ∧ ace.l4Means "udp" .udp p port = true := by
  unfold Ace.ports at hport
  cases htcp : ace.matches'.get "tcp" with
  | none =>
    rw [portsOf_of_none htcp] at hport
    exact ⟨by simp [Ace.l4Means, htcp], h.udp.means hport⟩
  | some v =>
    obtain ⟨rfl, -⟩ := h.tcp v htcp
    have hudp : ace.matches'.get "udp" = none := by
      refine Option.eq_none_iff_forall_ne_some.mpr fun w hw => ?_
      cases (h.udp w hw).1
    rw [portsOf_of_none hudp] at hport
    refine ⟨h.tcp.means ?_, by simp [Ace.l4Means, hudp]⟩
    cases hports : portsOf ace.matches' "tcp" <;> simpa [hports] using hport

/-- The policy of an ACE matches no flow that the ACE does not match. -/
def Within (env : MudEnv) (ace : Ace) (spec : PolicySpec) : Prop :=
  ∀ data device addr protocol port,
    DestinationMatches data spec.destination (flowTo device addr protocol port) →
      L4Matches spec.l4 (flowTo device addr protocol port) →
        ace.means env protocol port addr = true

theorem within_of_represented {effect : Effect} (h : Represented env ace) :
    Within env ace (ace.policy cls effect (ace.cidrs env)).2 := by
  intro data device addr protocol port hdest hl4
  obtain ⟨n, hn, haddr⟩ := destinationMatches_policy_iff.mp hdest
  have hrule := l4Matches_iff.mp hl4
  simp only [Ace.means, Bool.and_eq_true, and_assoc]
  refine ⟨h.destination hn haddr, ?_⟩
  rcases h.l4 with hnone | ⟨p, hp⟩
  · simp [Ace.protocolMeans, Ace.l4Means, hnone.protocol, hnone.tcp, hnone.udp]
  have hany : p ≠ .any := by
    obtain ⟨f, hf⟩ := hp.written
    obtain ⟨v, hv⟩ := Option.ne_none_iff_exists'.mp hf
    obtain ⟨n, hn, -⟩ := hp.known f v hv
    rintro rfl
    cases hn
  rw [hp.protocolOf] at hrule
  obtain ⟨rfl, hport⟩ := hrule.resolve_left hany
  refine ⟨?_, hp.ports hport⟩
  unfold Ace.protocolMeans
  cases hv : ace.matches'.pointer [(familyOf addr).text, "protocol"] with
  | none => rfl
  | some v =>
    obtain ⟨n, hn, hu64⟩ := hp.known _ v hv
    simp [hu64, protocolOf_numbers hn]

def httpsAce : Ace := ⟨"out", httpsJson⟩

theorem represented_httpsAce : Represented (makerEnv cameraDoc) httpsAce where
  oneSource f := by cases f <;> exact .inr rfl
  network f text n htext hn := by
    cases f with
    | ipv6 => cases htext
    | ipv4 =>
      simp only [makerEnv] at hn
      split at hn
      · cases hn
        rfl
      · cases hn
  resolved f name h := by cases f <;> cases h
  l4 := by
    refine .inr ⟨.tcp, ⟨.ipv4, Option.some_ne_none _⟩, fun f v hv => ?_, fun v hv => ⟨rfl, ?_⟩,
      fun v hv => by cases hv⟩
    · cases f <;> cases hv
      exact ⟨6, by simp [numbers], rfl⟩
    · cases hv
      intro d hd
      cases hd
      exact .inl ⟨443, by decide, rfl, by simp [Json.get]⟩

/-- Five ACEs with something that the import does not represent: the protocol GRE, a port that
is none, a range that is reversed, a TCP port without the protocol number, and a network that
does not parse beside a name that resolves. -/
def looseDoc : Json :=
  mudDoc [
    acceptAce [("ipv4", .object [toNetwork, ("protocol", .int 47)])],
    acceptAce [("ipv4", .object [toNetwork, ("protocol", .int 6)]), tcpPort 70000],
    acceptAce [("ipv4", .object [toNetwork, ("protocol", .int 6)]),
      ("tcp", .object [("destination-port",
        .object [("lower-port", .int 500), ("upper-port", .int 400)])])],
    acceptAce [("ipv4", .object [toNetwork]), tcpPort 443],
    acceptAce [("ipv4", .object [("destination-ipv4-network", .string "the maker"),
      ("ietf-acldns:dst-dnsname", .string "maker.example"), ("protocol", .int 6)]), tcpPort 443]]

/-- A flow to the maker that the policy of an ACE matches and the ACE does not. -/
def widensFor (env : MudEnv) (ace : Ace) (protocol : Protocol) (port : UInt16) : Bool :=
  (ace.cidrs env).any (fun n => n.contains (.v4 0xC0000207)) &&
    (protocolOf ace.protocolNumber = .any ||
      (protocol = protocolOf ace.protocolNumber && ace.ports.contains port)) &&
    !ace.means env protocol port (.v4 0xC0000207)

theorem not_within_of_widensFor (h : widensFor env ace protocol port = true) :
    ¬ Within env ace (ace.policy cls .allow (ace.cidrs env)).2 := by
  simp only [widensFor, Bool.and_eq_true, Bool.or_eq_true, List.any_eq_true, decide_eq_true_eq,
    Bool.not_eq_true'] at h
  obtain ⟨⟨hdest, hrule⟩, hmeans⟩ := h
  intro hwithin
  have := hwithin ⟨0, 0, [], [], [], []⟩ 0 _ protocol port
    (destinationMatches_policy_iff.mpr hdest) (l4Matches_iff.mpr hrule)
  rw [hmeans] at this
  cases this

end Avon.Policy.Mud
