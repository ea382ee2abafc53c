import Avon.Gateway.FlowPolicy

/-!
# What an IP packet says, and what is read of it

`headerOf` reads the header of a packet as the format has it, and `AddressedTo` is what it means for
a packet to have a destination port. `parseFlowReads` is `parse_flow` with an error in place of a
panic.
-/

set_option autoImplicit false

namespace Avon.Gateway

open Avon.Crypto Avon.Lib.BigEndian

/-! ### The format -/

structure IpHeader where
  headerLen : ℕ
  declaredLen : ℕ
  protocol : UInt8
  /-- In units of eight bytes. Only the first fragment has the transport header. -/
  fragmentOffset : ℕ
  deriving DecidableEq, Repr

/-- The header of a packet. A packet of IPv6 with a fragment header has the protocol number of that
header, so with another number it is not a fragment. -/
def headerOf (packet : Bytes) : Option IpHeader :=
  let version := bytesAt packet 0 1 / 16
  if version = 4 then
    let ihl := bytesAt packet 0 1 % 16 * 4
    if 20 ≤ ihl ∧ ihl ≤ packet.length then
      some ⟨ihl, bytesAt packet 2 2, packet.getD 9 0, bytesAt packet 6 2 % 2 ^ 13⟩
    else none
  else if version = 6 then
    if 40 ≤ packet.length then some ⟨40, 40 + bytesAt packet 4 2, packet.getD 6 0, 0⟩ else none
  else none

def IpHeader.HasPorts (h : IpHeader) : Prop := h.protocol = 6 ∨ h.protocol = 17

instance (h : IpHeader) : Decidable h.HasPorts := inferInstanceAs (Decidable (_ ∨ _))

/-- The packet is for port `p`: it is TCP or UDP and has the transport header, whose bytes 2 and 3
are inside the declared length and are `p`. -/
def AddressedTo (packet : Bytes) (p : UInt16) : Prop :=
  ∃ h, headerOf packet = some h ∧ h.HasPorts ∧ h.fragmentOffset = 0 ∧
    h.headerLen + 4 ≤ h.declaredLen ∧ h.headerLen + 4 ≤ packet.length ∧
      p = UInt16.ofNat (bytesAt packet (h.headerLen + 2) 2)

def sourceOf (packet : Bytes) : Option IpAddr :=
  match packet with
  | [] => none
  | first :: _ =>
    if first >>> 4 = 4 then
      if packet.length < 20 then none else some (.v4 (BitVec.ofNat 32 (bytesAt packet 12 4)))
    else if first >>> 4 = 6 then
      if packet.length < 40 then none else some (.v6 (BitVec.ofNat 128 (bytesAt packet 8 16)))
    else none

/-! ### The reads of `parse_flow` -/

def byteAt (packet : Bytes) (i : ℕ) : Except ℕ UInt8 :=
  match packet[i]? with
  | some b => .ok b
  | none => .error i

def readBytes (packet : Bytes) (offset : ℕ) : ℕ → Except ℕ Bytes
  | 0 => .ok []
  | n + 1 => do
    let b ← byteAt packet offset
    return b :: (← readBytes packet (offset + 1) n)

/-- The port, if there are four bytes of a transport header. -/
def readPort (packet : Bytes) (protocol : UInt8) (header : ℕ) : Except ℕ (Option UInt16) :=
  if (protocol = 6 ∨ protocol = 17) ∧ header + 4 ≤ packet.length then do
    let port ← readBytes packet (header + 2) 2
    return some (UInt16.ofNat (ofBe port))
  else return none

def parseFlowReads (session : SessionId) (packet : Bytes) : Except ℕ (Option Flow) :=
  match packet with
  | [] => .ok none
  | first :: _ =>
    if first >>> 4 = 4 then
      if packet.length < 20 then .ok none
      else do
        let ihl := ((← byteAt packet 0) &&& 0x0f).toNat * 4
        if ihl < 20 ∨ packet.length < ihl then return none
        else do
          let protocol ← byteAt packet 9
          let src ← readBytes packet 12 4
          let dst ← readBytes packet 16 4
          let dstPort ← readPort packet protocol ihl
          return some ⟨session, .v4 (BitVec.ofNat 32 (ofBe src)), .v4 (BitVec.ofNat 32 (ofBe dst)),
            protocol, dstPort⟩
    else if first >>> 4 = 6 then
      if packet.length < 40 then .ok none
      else do
        let protocol ← byteAt packet 6
        let src ← readBytes packet 8 16
        let dst ← readBytes packet 24 16
        let dstPort ← readPort packet protocol 40
        return some ⟨session, .v6 (BitVec.ofNat 128 (ofBe src)),
          .v6 (BitVec.ofNat 128 (ofBe dst)), protocol, dstPort⟩
    else .ok none

end Avon.Gateway
