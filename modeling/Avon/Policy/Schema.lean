import Avon.Lib.JsonSchema
import Avon.Lib.Pattern
import Avon.Policy.Spec

/-!
# The published schema of policies

`docs/policy-schema.json`, as the Python package `jsonschema` checks it, without formats. A pattern
is searched for with `re.search`, where `\d` and `\s` are classes of Unicode and `$` also matches
before a newline at the end.
-/

set_option autoImplicit false

namespace Avon.Policy

open Avon.Lib Avon.Lib.JsonSchema

/-- `str.isspace`: the blanks of Rust, and the four separators of ASCII. -/
def pySpace (c : Char) : Bool := isWhitespace c || (0x1C ≤ c.toNat && c.toNat ≤ 0x1F)

/-- Python: its floating-point numbers, and its class `\d` of decimal digits. -/
structure Python extends Floats where
  isDecimal : Char → Bool
  decimal_ascii : ∀ c : Char, c.toNat < 128 → isDecimal c = c.isDigit
  decimal_not_space : ∀ c : Char, isDecimal c = true → pySpace c = false

namespace Schema

variable (P : Python)

def digit : Pattern Char := .cls P.isDecimal

def space : Pattern Char := .cls pySpace

def char (c : Char) : Pattern Char := .cls fun c' => c' = c

def range (lo hi : Char) : Pattern Char := .cls fun c => lo.toNat ≤ c.toNat && c.toNat ≤ hi.toNat

/-- `6553[0-5]|655[0-2]\d|65[0-4]\d{2}|6[0-4]\d{3}|[1-5]\d{4}|\d{1,4}`. -/
def port : Pattern Char :=
  .alt (.seq (char '6') (.seq (char '5') (.seq (char '5') (.seq (char '3') (range '0' '5')))))
  (.alt (.seq (char '6') (.seq (char '5') (.seq (char '5') (.seq (range '0' '2') (digit P)))))
  (.alt (.seq (char '6') (.seq (char '5') (.seq (range '0' '4') ((digit P).times 2))))
  (.alt (.seq (char '6') (.seq (range '0' '4') ((digit P).times 3)))
  (.alt (.seq (range '1' '5') ((digit P).times 4))
  (.seq (digit P) (.seq (digit P).opt (.seq (digit P).opt (digit P).opt)))))))

def portRange : Pattern Char := .seq (port P) (.opt (.seq (char '-') (port P)))

def portList : Pattern Char :=
  .seq (portRange P)
    (.star (.seq space.star (.seq (char ',') (.seq space.star (portRange P)))))

def anchored (r : Pattern Char) (s : List Char) : Bool :=
  r.accepts s || (s.getLast? = some '\n' && r.accepts s.dropLast)

def portSetPattern (s : List Char) : Bool :=
  anchored space.star s || anchored (portList P) s

def effect : Schema := enum ["allow", "deny"]

def protocol : Schema := enum ["tcp", "udp", "icmp", "any"]

def l4Rule : Schema :=
  object ["protocol"] [("ports", pattern (portSetPattern P)), ("protocol", protocol)] true

def selector : Schema :=
  object [] [("any", boolean), ("cidrs", array string), ("device_classes", array string),
    ("devices", array string), ("pods", array string)] false

def attestationRequirement : Schema := enum ["any", "verified"]

def postureRequirements : Schema :=
  object [] [("disk_encrypted", nullable boolean), ("firewall_enabled", nullable boolean),
    ("max_hours_since_update", nullable (natural P.toFloats)), ("min_os_version", nullable string),
    ("screen_lock_enabled", nullable boolean)] false

def timeWindow : Schema :=
  object ["days", "end", "start", "timezone"]
    [("days", array string), ("end", string), ("start", string), ("timezone", string)] false

def conditions : Schema :=
  object [] [("attestation", nullable attestationRequirement),
    ("max_risk_score", nullable (natural P.toFloats)),
    ("posture", nullable (postureRequirements P)), ("time_window", nullable timeWindow)] false

def policySpec : Schema :=
  object ["destination", "effect", "source", "version"]
    [("conditions", conditions P), ("destination", selector), ("effect", effect),
      ("l4", array (l4Rule P)), ("priority", integer P.toFloats), ("source", selector),
      ("version", natural P.toFloats)] false

end Schema

end Avon.Policy
