import Avon.Agent.HubSession
import Avon.Tunnel.Pair

/-!
# One session between two agents

The two ends of a peer session over a channel that may drop, duplicate and reorder datagrams. Each
runs its receive loop, its timer loop and `SessionManager::handle_event` in any order, and learns
from probes where the other is. The slot for a pending rekey is the agent's, so its other sessions
may change it.
-/

set_option autoImplicit false

namespace Avon.Agent

open Avon.Crypto Avon.Tunnel
open Function (update)

/-- Both ends, the agents' slots, and the datagrams on their way to each end. -/
structure DirectState (K : HybridKem) where
  now : ℕ
  ends : Role → Endpoint
  pending : Role → PendingRekey K
  toward : Role → List Bytes

/-- One step, at the end `r` or on the channel toward it. -/
inductive DirectEvent (K : HybridKem) where
  | tick (d : ℕ)
  | timer (r : Role) (idle : Bool)
  | send (r : Role) (packet : Option Bytes) (socketOk : Bool)
  | probe (r : Role) (socketOk : Bool)
  | receive (r : Role) (position : ℕ) (sender : SocketAddr)
  | handle (r : Role) (offer : Except TunnelError K.KeyPair) (draw : Option UInt32)
      (socketOk : Bool)
  | others (r : Role) (pending : PendingRekey K)
  | closeAll (r : Role) (reason : String) (socketOk : Bool)
  /-- The session is taken out of the table, by `fail_peer` or a revocation. -/
  | remove (r : Role)
  | drop (r : Role) (position : ℕ)
  | duplicate (r : Role) (position : ℕ)

namespace DirectState

variable {K : HybridKem}

/-- An established session: both ends have the same keys and each other's index. -/
def init (K : HybridKem) (id : SessionId) (suite : Suite) (keys : SessionKeys)
    (index : Role → UInt32) (pending : Role → PendingRekey K) (now : ℕ) : DirectState K where
  now := now
  ends r := ⟨Session.new id r suite keys (index r) (index r.peer) none now, [index r], []⟩
  pending := pending
  toward _ := []

/-- One end has sent something: `out` is what went on the wire and the session after it. -/
def sends (s : DirectState K) (r : Role) (out : Except TunnelError Bytes × Session) :
    DirectState K :=
  { s with
    ends := update s.ends r { s.ends r with session := out.2 }
    toward := update s.toward r.peer (s.toward r.peer ++ out.1.toOption.toList) }

/-- One step of the system. An event that is not enabled changes nothing. -/
def step (P : AeadImpl) (C : FrameCodec) (H : Hkdf) (cfg : TimerConfig) (s : DirectState K) :
    DirectEvent K → DirectState K
  | .tick d => { s with now := s.now + d }
  | .timer r idle =>
    { s with ends := update s.ends r ((s.ends r).timer cfg idle s.now) }
  | .send r packet socketOk =>
    s.sends r (Endpoint.sendInner P socketOk (s.ends r).session (HubState.payload packet))
  | .probe r socketOk =>
    s.sends r (Endpoint.sendInnerTo P socketOk (s.ends r).session .keepalive)
  | .receive r n sender =>
    match (s.toward r)[n]? with
    | some datagram =>
      { s with
        ends := update s.ends r ((s.ends r).receive P C sender datagram)
        toward := update s.toward r ((s.toward r).eraseIdx n) }
    | none => s
  | .handle r offer draw socketOk =>
    let out := handleEvent P C K H (s.ends r) (s.pending r) offer draw socketOk s.now
    { s with
      ends := update s.ends r out.endpoint
      pending := update s.pending r out.pending
      toward := update s.toward r.peer (s.toward r.peer ++ out.sent.toList) }
  | .others r pending => { s with pending := update s.pending r pending }
  | .closeAll r reason socketOk =>
    let s := s.sends r (Endpoint.sendFrame P C socketOk (s.ends r).session (.close reason))
    { s with ends := update s.ends r (s.ends r).remove }
  | .remove r => { s with ends := update s.ends r (s.ends r).remove }
  | .drop r n => { s with toward := update s.toward r ((s.toward r).eraseIdx n) }
  | .duplicate r n =>
    { s with toward := update s.toward r (s.toward r ++ (s.toward r)[n]?.toList) }

def Raises (cfg : TimerConfig) (s : DirectState K) : Prop :=
  ((s.ends .initiator).timer cfg false s.now).queue = (s.ends .initiator).queue ++ [.rekeyDue]

instance (cfg : TimerConfig) (s : DirectState K) : Decidable (s.Raises cfg) :=
  inferInstanceAs (Decidable (_ = _))

/-- Nothing gets in the way of a rekey: control frames are delivered, in order and once, keys and
indexes can be drawn and the socket takes what is written, nobody closes the session, and no other
session uses the agents' slots. -/
def Undisturbed (P : AeadImpl) (s : DirectState K) : DirectEvent K → Prop
  | .timer _ idle => idle = false
  | .receive _ n _ => n = 0
  | .handle r offer draw socketOk =>
    (s.ends r).queue.head? = some .rekeyDue →
      offer.isOk ∧ (allocateIndex (s.ends r).bound draw).isOk ∧ socketOk = true
  | .drop r n => ∀ d ∈ (s.toward r)[n]?, ∀ f, ((s.ends r).accept P d).1 ≠ some (.control f)
  | .others .. | .closeAll .. | .remove _ | .duplicate .. => False
  | _ => True

/-- Everything has been delivered and handled, and the session is still there. -/
def Settled (s : DirectState K) : Prop :=
  ∀ r, (s.ends r).session.closed = false ∧ (s.ends r).queue = [] ∧ s.toward r = []

/-- Both ends of `s'` are one epoch further than in `s`, with the same keys and each other's
index. -/
structure Rekeyed (s s' : DirectState K) : Prop where
  next : ∀ r, (s'.ends r).session.epoch = (s.ends r).session.epoch + 1
  keys : (s'.ends .initiator).session.current.keys = (s'.ends .responder).session.current.keys
  mirrored : ∀ r, (s'.ends r).session.current.remoteIndex =
    (s'.ends r.peer).session.current.localIndex

/-- `RekeyDue` is raised in `s`, and an undisturbed exchange after it ends in `s'`. -/
def Exchange (P : AeadImpl) (C : FrameCodec) (H : Hkdf) (cfg : TimerConfig)
    (s s' : DirectState K) : Prop :=
  Lib.Run.Leads (step P C H cfg) (Undisturbed P) (s.step P C H cfg (.timer .initiator false)) s' ∧
    s'.Settled

/-- If `RekeyDue` is raised now, the exchange comes to an end, and however it ends, both ends are
rekeyed and `RekeyDue` can be raised again after some time. -/
def RekeyCompletes (P : AeadImpl) (C : FrameCodec) (H : Hkdf) (cfg : TimerConfig)
    (s : DirectState K) : Prop :=
  s.Raises cfg → (∃ s', s.Exchange P C H cfg s') ∧ ∀ s', s.Exchange P C H cfg s' →
    s.Rekeyed s' ∧ ∃ d, Raises cfg { s' with now := s'.now + d }

end DirectState

end Avon.Agent
