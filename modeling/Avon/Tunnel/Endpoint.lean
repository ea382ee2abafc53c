import Avon.Tunnel.Frame

/-!
# One socket, one session

Sending, the receive loop and the timer loop for one session. `bound` is the part of the session
table that maps receiver indexes to this session, and `queue` is the channel of events to the owner.
The outcome of the idle test is an argument.
-/

set_option autoImplicit false

namespace Avon.Tunnel

open Avon.Crypto Avon.Lib.BigEndian

/-- The protobuf codec of control frames, from `prost`. -/
structure FrameCodec where
  encode : TunnelFrame → Bytes
  decode : Bytes → Option TunnelFrame

def FrameCodec.RoundTrips (C : FrameCodec) : Prop :=
  ∀ frame, C.decode (C.encode frame) = some frame

/-! ### A codec to evaluate runs with -/

def fields (a b : UInt32) (bytes : Bytes) : Bytes :=
  beBytes 4 a.toNat ++ (beBytes 4 b.toNat ++ bytes)

def readFields (bytes : Bytes) : UInt32 × UInt32 × Bytes :=
  (UInt32.ofNat (ofBe (bytes.take 4)), UInt32.ofNat (ofBe ((bytes.drop 4).take 4)),
    (bytes.drop 4).drop 4)

theorem readFields_fields (a b : UInt32) (bytes : Bytes) :
    readFields (fields a b bytes) = (a, b, bytes) := by
  have hlen : ∀ n, (beBytes 4 n).length = 4 := length_beBytes 4
  have hnat : ∀ c : UInt32, UInt32.ofNat (ofBe (beBytes 4 c.toNat)) = c := by
    intro c
    rw [ofBe_beBytes (by have := c.toNat_lt; omega), UInt32.ofNat_toNat]
  rw [readFields, fields, List.take_left' (hlen _), List.drop_left' (hlen _),
    List.take_left' (hlen _), List.drop_left' (hlen _), hnat, hnat]

def charBytes (cs : List Char) : Bytes := cs.flatMap fun c => beBytes 4 c.toNat

def charsOf : Bytes → List Char
  | a :: b :: c :: d :: rest => Char.ofNat (ofBe [a, b, c, d]) :: charsOf rest
  | _ => []

theorem charsOf_charBytes (cs : List Char) : charsOf (charBytes cs) = cs := by
  induction cs with
  | nil => rfl
  | cons c cs ih =>
    have hlt : c.toNat < 256 ^ 4 := by
      have := c.val.toNat_lt
      exact this
    have hbytes : charBytes (c :: cs) = beBytes 4 c.toNat ++ charBytes cs := rfl
    have hchar : Char.ofNat (ofBe (beBytes 4 c.toNat)) = c := by
      rw [ofBe_beBytes hlt, Char.ofNat_toNat]
    rw [hbytes]
    simp only [beBytes] at hchar ⊢
    simp only [List.cons_append, List.nil_append, charsOf, ih, hchar]

/-- A codec that stands in for protobuf: a tag, two numbers and bytes. -/
def transparentCodec : FrameCodec where
  encode
    | .rekey newEpoch ephKemPk newIndex => 0 :: fields newEpoch newIndex ephKemPk
    | .rekeyAck newEpoch ct newIndex => 1 :: fields newEpoch newIndex ct
    | .indexUpdate newIndex => 2 :: fields 0 newIndex []
    | .close reason => 3 :: fields 0 0 (charBytes reason.toList)
    | .mtuProbe size padding => 4 :: fields 0 size padding
    | .mtuProbeAck size => 5 :: fields 0 size []
  decode
    | [] => none
    | tag :: rest =>
      match readFields rest with
      | (a, b, bytes) =>
        if tag = 0 then some (.rekey a bytes b)
        else if tag = 1 then some (.rekeyAck a bytes b)
        else if tag = 2 then some (.indexUpdate b)
        else if tag = 3 then some (.close (String.ofList (charsOf bytes)))
        else if tag = 4 then some (.mtuProbe b bytes)
        else if tag = 5 then some (.mtuProbeAck b)
        else none

theorem transparentCodec_roundTrips : transparentCodec.RoundTrips := by
  intro frame
  cases frame with
  | close reason =>
    simp [transparentCodec, readFields_fields, charsOf_charBytes]
  | _ => simp [transparentCodec, readFields_fields]

/-! ### The endpoint -/

structure TimerConfig where
  rekeyAfter : ℕ
  rekeyAfterPackets : UInt64
  epochOverlap : ℕ
  deriving DecidableEq, Repr

inductive EndpointEvent where
  | control (frame : TunnelFrame)
  | ip (packet : Bytes)
  | rekeyDue
  | idle
  deriving DecidableEq, Repr

/-- One end of a session: the session, its indexes in the table, and the events that its
owner has not handled yet. -/
structure Endpoint where
  session : Session
  bound : List UInt32
  queue : List EndpointEvent

namespace Endpoint

/-- `send_inner`: seal to the known peer endpoint and write to the socket. -/
def sendInner (P : AeadImpl) (socketOk : Bool) (s : Session) (inner : Inner) :
    Except TunnelError Bytes × Session :=
  match s.peerEndpoint with
  | none => (.error (.protocol "peer endpoint unknown"), s)
  | some _ =>
    let out := s.seal P inner
    match out.result with
    | .error e => (.error e, out.session)
    | .ok datagram => (if socketOk then .ok datagram else .error .io, out.session)

/-- `send_inner_to`: seal, and write to the socket whatever the known peer endpoint is. -/
def sendInnerTo (P : AeadImpl) (socketOk : Bool) (s : Session) (inner : Inner) :
    Except TunnelError Bytes × Session :=
  let out := s.seal P inner
  match out.result with
  | .error e => (.error e, out.session)
  | .ok datagram => (if socketOk then .ok datagram else .error .io, out.session)

theorem sendInner_eq (P : AeadImpl) (socketOk : Bool) (s : Session) (inner : Inner) :
    sendInner P socketOk s inner =
      match s.peerEndpoint with
      | none => (.error (.protocol "peer endpoint unknown"), s)
      | some _ => sendInnerTo P socketOk s inner := rfl

def sendFrame (P : AeadImpl) (C : FrameCodec) (socketOk : Bool) : SendFrame Bytes :=
  fun s frame => sendInner P socketOk s (.control (C.encode frame))

/-- The part of the receive loop before the payload is looked at: parse the header, find
the session by its index, open the body. -/
def accept (P : AeadImpl) (e : Endpoint) (datagram : Bytes) : Option Inner × Session :=
  match Header.decode datagram with
  | .error _ => (none, e.session)
  | .ok (header, body) =>
    if header.receiverIndex ∈ e.bound then
      match e.session.open P header body with
      | (.ok inner, s) => (some inner, s)
      | (.error _, s) => (none, s)
    else (none, e.session)

/-- The datagram opens under the key. -/
def opensUnder (P : AeadImpl) (d : Bytes) (k : AeadKey) : Bool :=
  match Header.decode d with
  | .ok (h, body) => (P.decryptInPlace k (nonceFor h.counter) h.encode body).isSome
  | .error _ => false

/-- The datagram opens under at most one of the keys. A tag has 16 bytes, so that nothing but
chance keeps a datagram from opening under a second key. -/
def opensOnce (P : AeadImpl) (keys : List AeadKey) (d : Bytes) : Bool :=
  keys.all fun a => keys.all fun b => !(opensUnder P d a && opensUnder P d b) || a = b

def eventsOf (C : FrameCodec) : Inner → List EndpointEvent
  | .ip packet => [.ip packet]
  | .control f =>
    match C.decode f with
    | some frame => [.control frame]
    | none => []
  | .keepalive => []

/-- One turn of the receive loop. Only a packet that authenticated moves the peer's
endpoint. -/
def receive (P : AeadImpl) (C : FrameCodec) (e : Endpoint) (sender : SocketAddr)
    (datagram : Bytes) : Endpoint :=
  match e.accept P datagram with
  | (none, s) => { e with session := s }
  | (some inner, s) =>
    { e with
      session := { s with peerEndpoint := some sender }
      queue := e.queue ++ eventsOf C inner }

/-- One turn of the timer loop, apart from the keepalive. Only the initiator drives rekey,
and only once per epoch. -/
def timer (cfg : TimerConfig) (e : Endpoint) (idle : Bool) (now : ℕ) : Endpoint :=
  if e.session.closed then e
  else
    let (expired, s) := e.session.expirePreviousEpoch cfg.epochOverlap now
    let e := { e with
      session := s
      bound := match expired with
        | some index => e.bound.filter (· ≠ index)
        | none => e.bound }
    if idle then { e with queue := e.queue ++ [.idle] }
    else if s.role = .initiator ∧ s.rekeyPending = false ∧
        (now - s.current.started ≥ cfg.rekeyAfter ∨
          s.packetsSentThisEpoch ≥ cfg.rekeyAfterPackets) then
      { e with session := s.setRekeyPending true, queue := e.queue ++ [.rekeyDue] }
    else e

/-- `table.remove`: the session is closed and its indexes are released. -/
def remove (e : Endpoint) : Endpoint := { e with session := e.session.close, bound := [] }

end Endpoint

/-- `allocate_index`: a nonzero index that is not in the table. `draw` is what the random
generator gives, or its failure. -/
def allocateIndex (bound : List UInt32) (draw : Option UInt32) : Except TunnelError UInt32 :=
  match draw with
  | some index =>
    if index ≠ 0 ∧ index ∉ bound then .ok index
    else .error (.crypto (.randomGenerationFailed "no index"))
  | none => .error (.crypto (.randomGenerationFailed "no index"))

theorem notMem_of_allocateIndex {bound : List UInt32} {draw : Option UInt32} {index : UInt32}
    (h : allocateIndex bound draw = .ok index) : index ∉ bound := by
  unfold allocateIndex at h
  split at h
  · split at h
    · rename_i hvalid
      cases h
      exact hvalid.2
    · cases h
  · cases h

end Avon.Tunnel
