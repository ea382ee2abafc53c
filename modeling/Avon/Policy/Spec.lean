import Avon.Net

/-!
# Policies as authored

The model of `avon-policy/src/spec.rs` and `time.rs`: a policy, its validation, and its
time window. The time zone database of `chrono_tz` is a parameter: it knows zone names, and
the local weekday and minute at an instant (or nothing, where `chrono` cannot represent
the instant).
-/

set_option autoImplicit false

namespace Avon.Policy

/-! ### Integers as Rust parses them -/

def parseDigits : List Char → Option ℕ
  | [] => none
  | cs => cs.foldl (fun acc c =>
    acc.bind fun n => if c.isDigit then some (10 * n + (c.toNat - '0'.toNat)) else none) (some 0)

def parseU32 (s : List Char) : Option ℕ :=
  let digits := match s with
    | '+' :: rest => parseDigits rest
    | _ => parseDigits s
  digits.filter (· < 2 ^ 32)

def parseU16 (s : List Char) : Option ℕ :=
  let digits := match s with
    | '+' :: rest => parseDigits rest
    | _ => parseDigits s
  digits.filter (· < 2 ^ 16)

theorem lt_of_parseU16 {s : List Char} {n : ℕ} (h : parseU16 s = some n) : n < 2 ^ 16 := by
  simpa using (Option.filter_eq_some_iff.mp h).2

/-- `char::is_whitespace`: the property `White_Space` of Unicode. -/
def isWhitespace (c : Char) : Bool :=
  let n := c.toNat
  (0x09 ≤ n && n ≤ 0x0D) || n = 0x20 || n = 0x85 || n = 0xA0 || n = 0x1680 ||
    (0x2000 ≤ n && n ≤ 0x200A) || n = 0x2028 || n = 0x2029 || n = 0x202F || n = 0x205F ||
    n = 0x3000

def trim (s : List Char) : List Char :=
  ((s.dropWhile isWhitespace).reverse.dropWhile isWhitespace).reverse

def parseI64 (s : List Char) : Option ℤ :=
  match s with
  | '-' :: rest => ((parseDigits rest).filter (· ≤ 2 ^ 63)).map fun n => -(n : ℤ)
  | '+' :: rest => ((parseDigits rest).filter (· < 2 ^ 63)).map fun n => (n : ℤ)
  | _ => ((parseDigits s).filter (· < 2 ^ 63)).map fun n => (n : ℤ)

/-! ### The policy -/

inductive SpecError where
  | version (v : UInt8)
  | emptySelector (which : String)
  | cidrInSource
  | portsWithoutL4Protocol
  | port (text : String)
  | timezone (name : String)
  | time (text : String)
  | noDays
  | priority
  deriving DecidableEq, Repr

inductive Effect where
  | allow
  | deny
  deriving DecidableEq, Repr

inductive Protocol where
  | tcp
  | udp
  | icmp
  | any
  deriving DecidableEq, Repr

structure PortRange where
  start : UInt16
  stop : UInt16
  deriving DecidableEq, Repr

def PortRange.text (r : PortRange) : List Char :=
  if r.start = r.stop then Nat.toDigits 10 r.start.toNat
  else Nat.toDigits 10 r.start.toNat ++ '-' :: Nat.toDigits 10 r.stop.toNat

structure PortSet where
  ranges : List PortRange
  deriving DecidableEq, Repr

namespace PortSet

def contains (s : PortSet) (port : UInt16) : Bool :=
  s.ranges.isEmpty || s.ranges.any fun r => r.start ≤ port && port ≤ r.stop

def isAll (s : PortSet) : Bool := s.ranges.isEmpty

/-- The text of `Serialize for PortSet`. -/
def serialize (s : PortSet) : List Char := [','].intercalate (s.ranges.map PortRange.text)

/-- One part of a list of ports: a port, or two with a dash between them. -/
def parsePart (part : List Char) : Except SpecError PortRange :=
  let (a, b) := match part.span (· ≠ '-') with
    | (a, _ :: b) => (trim a, trim b)
    | (_, []) => (part, part)
  match parseU16 a, parseU16 b with
  | some lo, some hi =>
    if lo > hi then .error (.port (String.ofList part)) else .ok ⟨.ofNat lo, .ofNat hi⟩
  | _, _ => .error (.port (String.ofList part))

def parse (s : List Char) : Except SpecError PortSet := do
  let parts := ((s.splitOn ',').map trim).filter fun part => !part.isEmpty
  return ⟨← parts.mapM parsePart⟩

end PortSet

structure L4Rule where
  protocol : Protocol
  ports : PortSet
  deriving DecidableEq, Repr

structure Selector where
  pods : List Uuid
  devices : List Uuid
  deviceClasses : List Uuid
  cidrs : List IpNet
  any : Bool
  deriving DecidableEq, Repr

def Selector.isEmpty (s : Selector) : Bool :=
  s.pods.isEmpty && s.devices.isEmpty && s.deviceClasses.isEmpty && s.cidrs.isEmpty && !s.any

inductive AttestationRequirement where
  | any
  | verified
  deriving DecidableEq, Repr

structure PostureRequirements where
  firewallEnabled : Option Bool
  diskEncrypted : Option Bool
  screenLockEnabled : Option Bool
  minOsVersion : Option String
  maxHoursSinceUpdate : Option UInt32
  deriving DecidableEq, Repr

inductive Weekday where
  | mon | tue | wed | thu | fri | sat | sun
  deriving DecidableEq, Repr

def Weekday.pred : Weekday → Weekday
  | .mon => .sun
  | .tue => .mon
  | .wed => .tue
  | .thu => .wed
  | .fri => .thu
  | .sat => .fri
  | .sun => .sat

structure TimeWindow where
  start : String
  stop : String
  days : List Weekday
  timezone : String
  deriving DecidableEq, Repr

structure Conditions where
  timeWindow : Option TimeWindow
  posture : Option PostureRequirements
  attestation : Option AttestationRequirement
  maxRiskScore : Option UInt8
  deriving DecidableEq, Repr

structure PolicySpec where
  version : UInt8
  effect : Effect
  priority : ℤ
  source : Selector
  destination : Selector
  l4 : List L4Rule
  conditions : Conditions
  deriving DecidableEq, Repr

/-! ### Validation -/

structure TzDb where
  Tz : Type
  parse : String → Option Tz
  localTime : Tz → ℤ → Option (Weekday × ℕ)

def parseHhmm (s : String) : Except SpecError (ℕ × ℕ) :=
  match s.toList.span (· ≠ ':') with
  | (h, ':' :: m) =>
    match parseU32 h, parseU32 m with
    | some h, some m => if h > 23 ∨ m > 59 then .error (.time s) else .ok (h, m)
    | _, _ => .error (.time s)
  | _ => .error (.time s)

def TimeWindow.validate (tz : TzDb) (tw : TimeWindow) : Except SpecError Unit :=
  if tw.days.isEmpty then .error .noDays
  else if (tz.parse tw.timezone).isNone then .error (.timezone tw.timezone)
  else do
    let _ ← parseHhmm tw.start
    let _ ← parseHhmm tw.stop

def PolicySpec.validate (tz : TzDb) (p : PolicySpec) : Except SpecError Unit :=
  if p.version ≠ 2 then .error (.version p.version)
  else if ¬ (0 ≤ p.priority ∧ p.priority ≤ 10000) then .error .priority
  else if p.source.isEmpty then .error (.emptySelector "source")
  else if p.destination.isEmpty then .error (.emptySelector "destination")
  else if !p.source.cidrs.isEmpty then .error .cidrInSource
  else if p.l4.any fun rule =>
      !rule.ports.isAll && !(rule.protocol = .tcp || rule.protocol = .udp) then
    .error .portsWithoutL4Protocol
  else match p.conditions.timeWindow with
    | none => .ok ()
    | some tw => tw.validate tz

/-! ### Time windows -/

/-- `window_active`. An overnight window (`stop` before `start`) runs into the day after a
listed day. -/
def windowActive (tz : TzDb) (tw : TimeWindow) (now : ℤ) : Except SpecError Bool := do
  let some zone := tz.parse tw.timezone | throw (.timezone tw.timezone)
  let some (today, minute) := tz.localTime zone now | throw (.time "now")
  let (sh, sm) ← parseHhmm tw.start
  let (eh, em) ← parseHhmm tw.stop
  let start := sh * 60 + sm
  let stop := eh * 60 + em
  if start ≤ stop then
    return tw.days.contains today && minute ≥ start && minute ≤ stop
  else
    return (tw.days.contains today && minute ≥ start) ||
      (tw.days.contains today.pred && minute ≤ stop)

/-- The loop of `next_window_change`, at most `fuel` turns of it. -/
def scanWindow (tz : TzDb) (tw : TimeWindow) (current : Bool) (limit : ℤ) :
    ℕ → ℤ → Except SpecError ℤ
  | 0, _ => .ok limit
  | fuel + 1, t =>
    if t ≤ limit then do
      if (← windowActive tz tw t) ≠ current then return t
      scanWindow tz tw current limit fuel (t + 60)
    else .ok limit

/-- `next_window_change`: minute by minute, at most eight days ahead. There are at most
`8 * 1440` whole minutes to look at. -/
def nextWindowChange (tz : TzDb) (tw : TimeWindow) (now : ℤ) : Except SpecError ℤ := do
  let current ← windowActive tz tw now
  scanWindow tz tw current (now + 8 * 86400) (8 * 1440 + 1) (now - now.tmod 60 + 60)

theorem scanWindow_start (now : ℤ) :
    now + 8 * 86400 < now - now.tmod 60 + 60 + 60 * (8 * 1440 + 1 : ℕ) := by
  have h : now.tmod 60 < 60 := Int.tmod_lt_of_pos now (by decide)
  push_cast
  omega

end Avon.Policy
