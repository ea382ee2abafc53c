import Avon.Tunnel.Session

/-!
# The two ends of a session

Two sessions with the same keys, in opposite roles and with each other's index, and the datagrams
between them. `agree` adds an epoch to the plan, and `rotate` takes one end to its next epoch. A
datagram can be delivered in any order and more than once. `sent`, `delivered` and `accepted` are
not in the code.
-/

set_option autoImplicit false

namespace Avon.Crypto.Role

def peer : Role → Role
  | .initiator => .responder
  | .responder => .initiator

@[simp] theorem peer_peer (r : Role) : r.peer.peer = r := by
  cases r <;> rfl

theorem recvKey_peer (r : Role) (keys : SessionKeys) : r.peer.recvKey keys = r.sendKey keys := by
  cases r <;> rfl

end Avon.Crypto.Role

namespace Avon.Tunnel

open Avon.Crypto

/-- What the two ends are given for one epoch: the same keys, and the local index of each end. -/
structure EpochPlan where
  keys : SessionKeys
  index : Role → UInt32

/-- A datagram, with what was sealed in it and by whom. -/
structure Datagram where
  sender : Role
  epoch : ℕ
  counter : UInt64
  inner : Inner
  bytes : Bytes
  deriving DecidableEq

structure Pair where
  ends : Role → Session
  plans : List EpochPlan
  position : Role → ℕ
  sent : List Datagram
  delivered : List Datagram
  accepted : List Datagram

namespace Pair

def init (id : SessionId) (suite : Suite) (plan : EpochPlan) (endpoint : Role → Option SocketAddr)
    (now : Role → ℕ) : Pair where
  ends r := Session.new id r suite plan.keys (plan.index r) (plan.index r.peer) (endpoint r) (now r)
  plans := [plan]
  position _ := 0
  sent := []
  delivered := []
  accepted := []

inductive Event where
  | «seal» (sender : Role) (inner : Inner)
  | deliver (d : Datagram)
  | agree (plan : EpochPlan)
  | rotate (r : Role) (now : ℕ)
  | expirePreviousEpoch (r : Role) (overlap now : ℕ)

def call (P : AeadImpl) (s : Pair) (r : Role) (op : Session.Op) : Pair :=
  { s with ends := Function.update s.ends r ((s.ends r).apply P op) }

/-- One end seals. Its counter is the one that the datagram carries. -/
def sealStep (P : AeadImpl) (s : Pair) (r : Role) (inner : Inner) : Pair :=
  match ((s.ends r).seal P inner).result with
  | .error _ => s.call P r (.seal inner)
  | .ok bytes =>
    { s.call P r (.seal inner) with
      sent := s.sent ++
        [⟨r, s.position r, (s.ends r).current.cipher.counter.value, inner, bytes⟩] }

/-- A datagram reaches the end that it was not sealed by. -/
def deliverStep (P : AeadImpl) (s : Pair) (d : Datagram) : Pair :=
  match Header.decode d.bytes with
  | .error _ => { s with delivered := s.delivered ++ [d] }
  | .ok (header, body) =>
    let s' := { s.call P d.sender.peer (.open header body) with delivered := s.delivered ++ [d] }
    match ((s.ends d.sender.peer).open P header body).1 with
    | .error _ => s'
    | .ok _ => { s' with accepted := s.accepted ++ [d] }

def step (P : AeadImpl) (s : Pair) : Event → Pair
  | .seal r inner => s.sealStep P r inner
  | .deliver d => if d ∈ s.sent then s.deliverStep P d else s
  | .agree plan => { s with plans := s.plans ++ [plan] }
  | .rotate r now =>
    match s.plans[s.position r + 1]? with
    | none => s
    | some plan =>
      { s.call P r (.rotate plan.keys (plan.index r) (plan.index r.peer) now) with
        position := Function.update s.position r (s.position r + 1) }
  | .expirePreviousEpoch r overlap now => s.call P r (.expirePreviousEpoch overlap now)

end Pair

end Avon.Tunnel
