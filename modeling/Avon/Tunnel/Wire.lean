import Avon.Crypto.Cipher
import Avon.Lib.Except

/-!
# The datagram header and the inner plaintext

The models of `avon-tunnel/src/header.rs` and `inner.rs`: the 16-byte header
`type || flags || reserved || receiver_index || counter`, and the plaintext
`inner_type || payload`. `Header.decode_encode` and `Inner.decode_encode` are
the round trips that the session layer needs.
-/

set_option autoImplicit false

namespace Avon.Tunnel

open Avon.Crypto Avon.Lib.BigEndian

inductive TunnelError where
  | short
  | badType (kind : UInt8)
  | badInner (kind : UInt8)
  | trailing (n : ℕ)
  | crypto (e : CryptoError)
  | unknownIndex (index : UInt32)
  | replay
  | closed
  | protocol (what : String)
  | io
  deriving DecidableEq, Repr

/-! ### The header -/

def HEADER_LEN : ℕ := 16
def TYPE_DATA : UInt8 := 0x01
def FLAG_EPOCH_OVERLAP : UInt8 := 0b0000_0001

/-- The header of a data packet. It is the associated data of the packet's AEAD. -/
structure Header where
  kind : UInt8
  flags : UInt8
  receiverIndex : UInt32
  counter : UInt64
  deriving DecidableEq, Repr

namespace Header

def encode (h : Header) : Bytes :=
  [h.kind, h.flags, 0, 0] ++ beBytes 4 h.receiverIndex.toNat ++ beBytes 8 h.counter.toNat

@[simp] theorem length_encode (h : Header) : h.encode.length = HEADER_LEN := by
  simp [encode, HEADER_LEN]

/-- Parse the header and return the remaining body. Anything that is not a well-formed
data packet is refused. -/
def decode (bytes : Bytes) : Except TunnelError (Header × Bytes) :=
  if h : bytes.length < HEADER_LEN then .error .short
  else
    have hlen : 16 ≤ bytes.length := Nat.not_lt.mp h
    if bytes[0] ≠ TYPE_DATA then .error (.badType bytes[0])
    else if bytes[2] ≠ 0 ∨ bytes[3] ≠ 0 ∨ bytes[1] &&& ~~~FLAG_EPOCH_OVERLAP ≠ 0 then
      .error (.protocol "reserved bits set")
    else
      .ok ({ kind := bytes[0]
             flags := bytes[1]
             receiverIndex := UInt32.ofNat (ofBe ((bytes.drop 4).take 4))
             counter := UInt64.ofNat (ofBe ((bytes.drop 8).take 8)) },
           bytes.drop HEADER_LEN)

structure IsData (h : Header) : Prop where
  kind : h.kind = TYPE_DATA
  flags : h.flags &&& ~~~FLAG_EPOCH_OVERLAP = 0

theorem decode_encode {h : Header} (hd : h.IsData) (body : Bytes) :
    decode (h.encode ++ body) = .ok (h, body) := by
  have hidx : ofBe (beBytes 4 h.receiverIndex.toNat) = h.receiverIndex.toNat :=
    ofBe_beBytes (by have := h.receiverIndex.toNat_lt; omega)
  have hctr : ofBe (beBytes 8 h.counter.toNat) = h.counter.toNat :=
    ofBe_beBytes (by have := h.counter.toNat_lt; omega)
  -- The slices of the source are the parts `encode` put there.
  have hdrop4 : ((h.encode ++ body).drop 4).take 4 = beBytes 4 h.receiverIndex.toNat := by
    simp [encode]
  have hdrop8 : ((h.encode ++ body).drop 8).take 8 = beBytes 8 h.counter.toNat := by
    have : (h.encode ++ body).drop 8 = beBytes 8 h.counter.toNat ++ body := by
      simp [encode]
    rw [this]
    simp
  have hbody : (h.encode ++ body).drop HEADER_LEN = body := by
    rw [← length_encode h]
    exact List.drop_left
  unfold decode
  rw [dif_neg (by simp [HEADER_LEN])]
  simp only [hdrop4, hdrop8, hbody, hidx, hctr]
  obtain ⟨hkind, hflags⟩ := hd
  cases h
  subst hkind
  simp [encode, hflags]

theorem encode_of_decode {bytes body : Bytes} {h : Header} (hok : decode bytes = .ok (h, body)) :
    h.encode ++ body = bytes := by
  unfold decode at hok
  split at hok
  · cases hok
  rename_i hshort
  -- The first four bytes are looked at one by one, the others as two numbers.
  obtain ⟨kind, flags, r₁, r₂, rest, rfl⟩ : ∃ kind flags r₁ r₂ rest,
      bytes = kind :: flags :: r₁ :: r₂ :: rest := by
    rcases bytes with _ | ⟨kind, _ | ⟨flags, _ | ⟨r₁, _ | ⟨r₂, rest⟩⟩⟩⟩ <;>
      simp [HEADER_LEN] at hshort ⊢
  have hlength : 12 ≤ rest.length := by
    simp only [List.length_cons, HEADER_LEN] at hshort
    omega
  simp only [ite_error_eq_ok, List.getElem_cons_zero, List.getElem_cons_succ, not_or, not_not,
    Except.ok.injEq, Prod.mk.injEq] at hok
  obtain ⟨-, ⟨rfl, rfl, -⟩, rfl, rfl⟩ := hok
  have hindex : (rest.take 4).length = 4 := by
    rw [List.length_take]
    omega
  have hcounter : ((rest.drop 4).take 8).length = 8 := by
    rw [List.length_take, List.length_drop]
    omega
  have hbody : rest.drop 12 = (rest.drop 4).drop 8 := by rw [List.drop_drop]
  show [kind, flags, 0, 0] ++ beBytes 4 (UInt32.ofNat (ofBe (rest.take 4))).toNat ++
    beBytes 8 (UInt64.ofNat (ofBe ((rest.drop 4).take 8))).toNat ++ rest.drop 12 = _
  rw [UInt32.toNat_ofNat_of_lt' (ofBe_lt_of_length hindex), beBytes_ofBe_of_length hindex,
    UInt64.toNat_ofNat_of_lt' (ofBe_lt_of_length hcounter), beBytes_ofBe_of_length hcounter,
    List.append_assoc, List.append_assoc, hbody, List.take_append_drop, List.take_append_drop]
  rfl

end Header

/-! ### The inner plaintext -/

inductive Inner where
  | ip (packet : Bytes)
  | control (frame : Bytes)
  | keepalive
  deriving DecidableEq, Repr

namespace Inner

def IP : UInt8 := 0
def CONTROL : UInt8 := 1
def KEEPALIVE : UInt8 := 2

def encode : Inner → Bytes
  | .ip p => IP :: p
  | .control f => CONTROL :: f
  | .keepalive => [KEEPALIVE]

def decode : Bytes → Except TunnelError Inner
  | [] => .error .short
  | t :: rest =>
    if t = IP then .ok (.ip rest)
    else if t = CONTROL then .ok (.control rest)
    else if t = KEEPALIVE then
      if rest.isEmpty then .ok .keepalive else .error (.trailing rest.length)
    else .error (.badInner t)

theorem decode_encode (inner : Inner) : decode inner.encode = .ok inner := by
  cases inner <;> rfl

theorem encode_of_decode {plaintext : Bytes} {inner : Inner}
    (hok : decode plaintext = .ok inner) : inner.encode = plaintext := by
  unfold decode at hok
  split at hok
  · cases hok
  rename_i t rest
  repeat' split at hok
  all_goals cases hok
  all_goals simp_all [encode]

end Inner

/-- The header and the plaintext have one encoding each: what is accepted is encoded back to what it
came from, and what is encoded is accepted. So a datagram is determined by its header and body. -/
theorem datagrams_canonical :
    (∀ bytes h body, Header.decode bytes = .ok (h, body) → h.encode ++ body = bytes) ∧
    (∀ plaintext inner, Inner.decode plaintext = .ok inner → inner.encode = plaintext) ∧
    (∀ (h : Header) (body : Bytes), h.kind = TYPE_DATA → h.flags &&& ~~~FLAG_EPOCH_OVERLAP = 0 →
      Header.decode (h.encode ++ body) = .ok (h, body)) ∧
    (∀ inner : Inner, Inner.decode inner.encode = .ok inner) ∧
    ∀ bytes bytes' h body, Header.decode bytes = .ok (h, body) →
      Header.decode bytes' = .ok (h, body) → bytes = bytes' := by
  refine ⟨fun _ _ _ => Header.encode_of_decode, fun _ _ => Inner.encode_of_decode, ?_,
    Inner.decode_encode, ?_⟩
  · intro h body hkind hflags
    exact Header.decode_encode ⟨hkind, hflags⟩ body
  · intro bytes bytes' h body hok hok'
    rw [← Header.encode_of_decode hok, Header.encode_of_decode hok']

end Avon.Tunnel
