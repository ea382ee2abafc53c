import Avon.Control.Enroll
import Avon.Tunnel.Routes

/-!
# The tables of an enrollment, and overlay addresses

The rows that an enrollment reads and writes, and `allocate` of `ipam.rs`, statement by statement. A
statement sees the committed rows with the `Writes` of its own transaction on top. `Lock` is what a
transaction can be made to wait for: a row, or an entry of a unique index.
-/

set_option autoImplicit false

namespace Avon.Control.Enrollment

open Avon.Crypto

/-! ### Tables -/

/-- A row of `enrollment_tokens`. The columns of numbers have a `CHECK` that they are not
negative. -/
structure TokenRow extends EnrollmentToken where
  id : Uuid
  tokenHash : Key
  podIds : List Uuid
  maxUses : ℕ
  useCount : ℕ
  expiresAt : ℤ

/-- A row of `devices`. The overlay columns are only written by `allocate`. -/
structure Device extends EnrolledDevice where
  id : DeviceId
  overlayIpv4 : Option (BitVec 32)
  overlayIpv6 : Option (BitVec 128)

structure EnrollmentRow where
  tokenId : Uuid
  deviceId : DeviceId
  clientIp : Option IpAddr
  deriving DecidableEq

structure Pool where
  ipv4Cidr : IpNet
  ipv6Cidr : IpNet

structure Tables where
  tokens : List TokenRow
  devices : List Device
  devicePods : List (DeviceId × Uuid)
  enrollments : List EnrollmentRow
  pods : List PodRow
  deviceClasses : List DeviceClassRow
  pools : TenantId → Option Pool

structure Overlay where
  device : DeviceId
  ipv4 : BitVec 32
  ipv6 : BitVec 128
  deriving DecidableEq

structure Writes where
  counted : Option Uuid
  device : Option Device
  devicePods : List (DeviceId × Uuid)
  overlay : Option Overlay
  enrolled : Option EnrollmentRow

def Writes.none : Writes := ⟨.none, .none, [], .none, .none⟩

def TokenRow.count (counted : Option Uuid) (row : TokenRow) : TokenRow :=
  if counted = some row.id then { row with useCount := row.useCount + 1 } else row

def Device.assign (overlay : Option Overlay) (row : Device) : Device :=
  match overlay with
  | some o =>
    if row.id = o.device then { row with overlayIpv4 := some o.ipv4, overlayIpv6 := some o.ipv6 }
    else row
  | none => row

def Tables.apply (t : Tables) (w : Writes) : Tables :=
  { t with
    tokens := t.tokens.map (TokenRow.count w.counted)
    devices := (t.devices ++ w.device.toList).map (Device.assign w.overlay)
    devicePods := t.devicePods ++ w.devicePods
    enrollments := t.enrollments ++ w.enrolled.toList }

inductive Lock where
  | token (id : Uuid)
  | pool (tenant : TenantId)
  | device (id : DeviceId)
  | overlayIpv4 (addr : BitVec 32)
  | overlayIpv6 (addr : BitVec 128)
  deriving DecidableEq

/-! ### `allocate` -/

inductive IpamError where
  | rowNotFound
  | unique (column : String)
  | exhausted
  | pool (what : String)
  deriving DecidableEq, Repr

structure Nets where
  v4 : BitVec 32
  v4Len : ℕ
  v4Valid : v4Len ≤ 32
  v6 : BitVec 128
  v6Len : ℕ
  v6Valid : v6Len ≤ 128
  deriving DecidableEq

def poolNets : Pool → Except IpamError Nets
  | ⟨⟨.v4 a, len, hlen⟩, ⟨.v6 b, len', hlen'⟩⟩ => .ok ⟨a, len, hlen, b, len', hlen'⟩
  | _ => .error (.pool "pools must be IPv4 and IPv6")

namespace Nets

def base (n : Nets) : BitVec 32 := netLow n.v4 n.v4Len

def size (n : Nets) : ℕ := 2 ^ (32 - n.v4Len)

/-- The IPv6 address has the host part of the IPv4 address. -/
def ipv6For (n : Nets) (ipv4 : BitVec 32) : BitVec 128 :=
  netLow n.v6 n.v6Len ||| (ipv4 - n.base).setWidth 128

def result (n : Nets) (ipv4 : BitVec 32) (ipv6 : BitVec 128) : IpNet × IpNet :=
  (⟨.v4 ipv4, n.v4Len, n.v4Valid⟩, ⟨.v6 ipv6, n.v6Len, n.v6Valid⟩)

end Nets

/-- The first address that is not used among `count` addresses from `base + off` on. -/
def lowestFree (base : BitVec 32) (used : List (BitVec 32)) : ℕ → ℕ → Option (BitVec 32)
  | _, 0 => none
  | off, count + 1 =>
    let candidate := base + BitVec.ofNat 32 off
    if candidate ∈ used then lowestFree base used (off + 1) count else some candidate

def Tables.used (t : Tables) (tenant : TenantId) : List (BitVec 32) :=
  (t.devices.filter fun row => row.tenantId = tenant).filterMap (·.overlayIpv4)

inductive AllocPhase where
  | lockPool
  | readDevice (nets : Nets)
  | readUsed (nets : Nets)
  | update (nets : Nets) (ipv4 : BitVec 32) (ipv6 : BitVec 128)

/-- What a statement of `allocate` does: it waits, it goes on with more locks, or `allocate`
returns, with more locks and perhaps an address to write. -/
inductive AllocStep where
  | wait
  | go (locks : List Lock) (phase : AllocPhase)
  | done (locks : List Lock) (overlay : Option Overlay) (result : Except IpamError (IpNet × IpNet))

/-- The next statement of `allocate`. `free` says which locks can be taken, `t` is what the
transaction sees. -/
def allocNext (free : List Lock → Bool) (t : Tables) (tenant : TenantId) (device : DeviceId) :
    AllocPhase → AllocStep
  | .lockPool =>
    match t.pools tenant with
    | none => .done [] none (.error .rowNotFound)
    | some pool =>
      if !free [.pool tenant] then .wait
      else match poolNets pool with
        | .error e => .done [.pool tenant] none (.error e)
        | .ok nets => .go [.pool tenant] (.readDevice nets)
  | .readDevice nets =>
    match t.devices.find? fun row => row.id = device ∧ row.tenantId = tenant with
    | none => .go [] (.readUsed nets)
    | some row =>
      match row.overlayIpv4, row.overlayIpv6 with
      | some ipv4, some ipv6 => .done [] none (.ok (nets.result ipv4 ipv6))
      | _, _ => .go [] (.readUsed nets)
  | .readUsed nets =>
    -- The lowest free address above the first one, which is for gateways.
    match lowestFree nets.base (t.used tenant) 2 (nets.size - 1 - 2) with
    | none => .done [] none (.error .exhausted)
    | some ipv4 => .go [] (.update nets ipv4 (nets.ipv6For ipv4))
  | .update nets ipv4 ipv6 =>
    if !t.devices.any fun row => row.id = device then
      -- The `UPDATE` finds no row.
      .done [] none (.ok (nets.result ipv4 ipv6))
    else
      let locks := [.device device, .overlayIpv4 ipv4, .overlayIpv6 ipv6]
      if !free locks then .wait
      else if t.devices.any fun row => row.id ≠ device ∧ row.overlayIpv4 = some ipv4 then
        .done [] none (.error (.unique "overlay_ipv4"))
      else if t.devices.any fun row => row.id ≠ device ∧ row.overlayIpv6 = some ipv6 then
        .done [] none (.error (.unique "overlay_ipv6"))
      else .done locks (some ⟨device, ipv4, ipv6⟩) (.ok (nets.result ipv4 ipv6))

end Avon.Control.Enrollment
