import Avon.Json
import Avon.Policy.Spec

/-!
# Policies from JSON

The `Deserialize` implementations of `spec.rs`, as `serde_json::from_value` runs them. The parsers
of UUIDs and networks are parameters, and errors have no texts: a policy that does not decode is
skipped.
-/

set_option autoImplicit false

namespace Avon.Policy

structure Readers where
  uuid : String → Option Uuid
  ipNet : String → Option IpNet

namespace Decode

/-! ### Values and fields -/

def text : Json → Option String
  | .string s => some s
  | _ => none

/-- An integer between two bounds. A floating-point number is none. -/
def intBetween (lo hi : ℤ) : Json → Option ℤ
  | .int n => if lo ≤ n ∧ n ≤ hi then some n else none
  | _ => none

def u8 (j : Json) : Option UInt8 := (intBetween 0 255 j).map fun n => .ofNat n.toNat

def u32 (j : Json) : Option UInt32 := (intBetween 0 (2 ^ 32 - 1) j).map fun n => .ofNat n.toNat

def i32 (j : Json) : Option ℤ := intBetween (-2 ^ 31) (2 ^ 31 - 1) j

def vec {α : Type} (f : Json → Option α) : Json → Option (List α)
  | .array vs => vs.mapM f
  | _ => none

def option {α : Type} (f : Json → Option α) : Json → Option (Option α)
  | .null => some none
  | j => (f j).map some

def required {α : Type} (j : Json) (key : String) (f : Json → Option α) : Option α :=
  (j.get key).bind f

def withDefault {α : Type} (j : Json) (key : String) (default : α) (f : Json → Option α) :
    Option α :=
  match j.get key with
  | none => some default
  | some v => f v

/-- An object; with `deny_unknown_fields`, one that has only known fields. -/
def isObject : Json → Bool
  | .object _ => true
  | _ => false

def hasOnly (known : List String) : Json → Bool
  | .object fields => fields.all fun f => known.contains f.1
  | _ => false

/-! ### Policies -/

variable (R : Readers)

variable (j : Json)

def portSet : Option PortSet :=
  (text j).bind fun s =>
    if (trim s.toList).isEmpty then some ⟨[]⟩ else (PortSet.parse s.toList).toOption

def effect : Option Effect :=
  match text j with
  | some "allow" => some .allow
  | some "deny" => some .deny
  | _ => none

def protocol : Option Protocol :=
  match text j with
  | some "tcp" => some .tcp
  | some "udp" => some .udp
  | some "icmp" => some .icmp
  | some "any" => some .any
  | _ => none

def l4Rule : Option L4Rule :=
  if isObject j then do
    let protocol ← required j "protocol" protocol
    let ports ← withDefault j "ports" ⟨[]⟩ portSet
    return { protocol, ports }
  else none

def uuid : Option Uuid := (text j).bind R.uuid

def ipNet : Option IpNet := (text j).bind R.ipNet

def bool : Json → Option Bool
  | .bool b => some b
  | _ => none

def selector : Option Selector :=
  if hasOnly ["pods", "devices", "device_classes", "cidrs", "any"] j then do
    let pods ← withDefault j "pods" [] (vec (uuid R))
    let devices ← withDefault j "devices" [] (vec (uuid R))
    let deviceClasses ← withDefault j "device_classes" [] (vec (uuid R))
    let cidrs ← withDefault j "cidrs" [] (vec (ipNet R))
    let any ← withDefault j "any" false bool
    return { pods, devices, deviceClasses, cidrs, any }
  else none

def attestationRequirement : Option AttestationRequirement :=
  match text j with
  | some "any" => some .any
  | some "verified" => some .verified
  | _ => none

def postureRequirements : Option PostureRequirements :=
  if hasOnly ["firewall_enabled", "disk_encrypted", "screen_lock_enabled", "min_os_version",
      "max_hours_since_update"] j then do
    let firewallEnabled ← withDefault j "firewall_enabled" none (option bool)
    let diskEncrypted ← withDefault j "disk_encrypted" none (option bool)
    let screenLockEnabled ← withDefault j "screen_lock_enabled" none (option bool)
    let minOsVersion ← withDefault j "min_os_version" none (option text)
    let maxHoursSinceUpdate ← withDefault j "max_hours_since_update" none (option u32)
    return { firewallEnabled, diskEncrypted, screenLockEnabled, minOsVersion, maxHoursSinceUpdate }
  else none

/-- The names of weekdays, in any case. No letter outside ASCII has one of these letters as its
lower case. -/
def weekday (s : String) : Option Weekday :=
  match s.toLower with
  | "mon" => some .mon
  | "tue" => some .tue
  | "wed" => some .wed
  | "thu" => some .thu
  | "fri" => some .fri
  | "sat" => some .sat
  | "sun" => some .sun
  | _ => none

def weekdays : Option (List Weekday) := (vec text j).bind fun names => names.mapM weekday

def timeWindow : Option TimeWindow :=
  if hasOnly ["start", "end", "days", "timezone"] j then do
    let start ← required j "start" text
    let stop ← required j "end" text
    let days ← required j "days" weekdays
    let timezone ← required j "timezone" text
    return { start, stop, days, timezone }
  else none

def conditions : Option Conditions :=
  if hasOnly ["time_window", "posture", "attestation", "max_risk_score"] j then do
    let timeWindow ← withDefault j "time_window" none (option timeWindow)
    let posture ← withDefault j "posture" none (option postureRequirements)
    let attestation ← withDefault j "attestation" none (option attestationRequirement)
    let maxRiskScore ← withDefault j "max_risk_score" none (option u8)
    return { timeWindow, posture, attestation, maxRiskScore }
  else none

def defaultPriority : ℤ := 100

def policySpec : Option PolicySpec :=
  if hasOnly
      ["version", "effect", "priority", "source", "destination", "l4", "conditions"] j then do
    let version ← required j "version" u8
    let effect ← required j "effect" effect
    let priority ← withDefault j "priority" defaultPriority i32
    let source ← required j "source" (selector R)
    let destination ← required j "destination" (selector R)
    let l4 ← withDefault j "l4" [] (vec l4Rule)
    let conditions ← withDefault j "conditions" ⟨none, none, none, none⟩ conditions
    return { version, effect, priority, source, destination, l4, conditions }
  else none

end Decode

end Avon.Policy
