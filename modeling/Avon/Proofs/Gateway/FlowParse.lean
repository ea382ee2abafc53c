import Avon.Agent.Tun
import Avon.Gateway.Packet

/-!
# The port of a flow

`parse_flow` reads a port behind every header that says TCP or UDP. It looks neither at the fragment
offset nor at the length that the header declares, so the port may be payload of a later fragment,
or bytes after the end of the packet. A packet that is too short has port 0 for the policy.
-/

set_option autoImplicit false

namespace Avon.Gateway

open Avon.Crypto Avon.Policy Avon.Lib.BigEndian

/-! ### Reads in bounds -/

variable {packet : Bytes} {session : SessionId} {header : IpHeader} {flow : Flow} {p : UInt16}
  {n : UInt8}

theorem byteAt_eq {i : ℕ} (h : i < packet.length) : byteAt packet i = .ok (packet.getD i 0) := by
  simp [byteAt, h]

theorem readBytes_eq {offset n : ℕ} (h : offset + n ≤ packet.length) :
    readBytes packet offset n = .ok ((packet.drop offset).take n) := by
  induction n generalizing offset with
  | zero => rfl
  | succ n ih =>
    have hlt : offset < packet.length := by omega
    have hbyte : packet.getD offset 0 = packet[offset] := by simp [hlt]
    rw [readBytes, byteAt_eq hlt, ih (by omega), List.drop_eq_getElem_cons hlt, List.take_succ_cons,
      hbyte]
    rfl

theorem readPort_eq (packet : Bytes) (protocol : UInt8) (header : ℕ) :
    readPort packet protocol header = .ok (portAt packet protocol header) := by
  unfold readPort portAt
  split
  · next h =>
    rw [readBytes_eq (by omega)]
    rfl
  · rfl

theorem parseFlowReads_eq (session : SessionId) (packet : Bytes) :
    parseFlowReads session packet = .ok (parseFlow session packet) := by
  cases packet with
  | nil => rfl
  | cons first rest =>
    have hfirst : byteAt (first :: rest) 0 = .ok first := rfl
    simp only [parseFlowReads, parseFlow]
    split
    · split
      · rfl
      next hlen =>
      rw [hfirst]
      change (if _ then _ else _) = _
      split
      · rfl
      rw [byteAt_eq (by omega), readBytes_eq (by omega), readBytes_eq (by omega)]
      simp only [readPort_eq]
      rfl
    · split
      · split
        · rfl
        next hlen =>
        rw [byteAt_eq (by omega), readBytes_eq (by omega), readBytes_eq (by omega)]
        simp only [readPort_eq]
        rfl
      · rfl

/-! ### The flow and the header -/

theorem toNat_shift (b : UInt8) : (b >>> 4).toNat = b.toNat / 16 := by
  rw [UInt8.toNat_shiftRight]
  exact Nat.shiftRight_eq_div_pow b.toNat 4

theorem toNat_and (b : UInt8) : (b &&& 0x0f).toNat = b.toNat % 16 := by
  rw [UInt8.toNat_and]
  exact Nat.and_two_pow_sub_one_eq_mod b.toNat 4

theorem bytesAt_first (first : UInt8) (rest : Bytes) :
    bytesAt (first :: rest) 0 1 = first.toNat := by
  simp [bytesAt, ofBe]

theorem headerOf_cons (first : UInt8) (rest : Bytes) :
    headerOf (first :: rest) =
      if first >>> 4 = 4 then
        let ihl := (first &&& 0x0f).toNat * 4
        if 20 ≤ ihl ∧ ihl ≤ (first :: rest).length then
          some ⟨ihl, bytesAt (first :: rest) 2 2, (first :: rest).getD 9 0,
            bytesAt (first :: rest) 6 2 % 2 ^ 13⟩
        else none
      else if first >>> 4 = 6 then
        if 40 ≤ (first :: rest).length then
          some ⟨40, 40 + bytesAt (first :: rest) 4 2, (first :: rest).getD 6 0, 0⟩
        else none
      else none := by
  have hversion : ∀ n : UInt8, first >>> 4 = n ↔ first.toNat / 16 = n.toNat := fun n => by
    rw [← UInt8.toNat_inj, toNat_shift]
  simp only [headerOf, bytesAt_first, hversion, toNat_and]
  rfl

/-- A flow has the protocol and the port bytes of the header, and the destination that the agent
reads. -/
theorem parseFlow_cases (h : parseFlow session packet = some flow) :
    ∃ header, headerOf packet = some header ∧ flow.protocol = header.protocol ∧
      flow.dstPort = portAt packet header.protocol header.headerLen ∧
      Agent.parseDst packet = some flow.dst := by
  cases packet with
  | nil => cases h
  | cons first rest =>
    simp only [headerOf_cons, Agent.parseDst]
    simp only [parseFlow] at h
    split at h
    · next hversion =>
      rw [if_pos hversion, if_pos hversion]
      split at h
      · cases h
      next hlen =>
      split at h
      · cases h
      next hihl =>
      cases h
      rw [if_pos (by omega), if_neg hlen]
      exact ⟨_, rfl, rfl, rfl, rfl⟩
    · next hnot =>
      rw [if_neg hnot, if_neg hnot]
      split at h
      · next hversion =>
        rw [if_pos hversion, if_pos hversion]
        split at h
        · cases h
        next hlen =>
        cases h
        rw [if_pos (by omega), if_neg hlen]
        exact ⟨_, rfl, rfl, rfl, rfl⟩
      · cases h

theorem exists_flow (session : SessionId)
    (h : headerOf packet = some header) : ∃ flow, parseFlow session packet = some flow := by
  cases packet with
  | nil => cases h
  | cons first rest =>
    rw [headerOf_cons] at h
    simp only [parseFlow]
    split at h
    · next hversion =>
      rw [if_pos hversion]
      simp only at h
      split at h
      · next hihl =>
        rw [if_neg (by omega), if_neg (by omega)]
        exact ⟨_, rfl⟩
      · cases h
    · next hnot =>
      rw [if_neg hnot]
      split at h
      · next hversion =>
        rw [if_pos hversion]
        split at h
        · next hlen =>
          rw [if_neg (by omega)]
          exact ⟨_, rfl⟩
        · cases h
      · cases h

/-! ### When the port is the port -/

/-- The packet has a transport header if it is long enough for one; if it is not, the rule leaves
out port 0. -/
def PlainFor (packet : Bytes) (ports : PortSet) : Prop :=
  ∀ header, headerOf packet = some header → header.HasPorts →
    if header.headerLen + 4 ≤ packet.length then
      header.fragmentOffset = 0 ∧ header.headerLen + 4 ≤ header.declaredLen
    else ports.contains 0 = false ∨ ports.isAll = true

theorem portAt_eq_some : portAt packet header.protocol header.headerLen = some p ↔
      (header.HasPorts ∧ header.headerLen + 4 ≤ packet.length) ∧
        p = UInt16.ofNat (bytesAt packet (header.headerLen + 2) 2) := by
  unfold portAt IpHeader.HasPorts
  split
  · next h => simp [h, eq_comm]
  · next h => simp [h]

theorem request_dstPort (ctx : FlowContext) :
    ctx.request.dstPort = ctx.flow.dstPort.getD 0 := rfl

theorem hasPorts_of_protocol (h : protocolOf n = .tcp ∨ protocolOf n = .udp) : n = 6 ∨ n = 17 := by
  unfold protocolOf at h
  split_ifs at h with htcp hudp
  · exact .inl htcp
  · exact .inr hudp
  · simp at h
  · simp at h

theorem protocolOf_hasPorts (h : n = 6 ∨ n = 17) : protocolOf n = .tcp ∨ protocolOf n = .udp := by
  rcases h with rfl | rfl
  · exact .inl rfl
  · exact .inr rfl

theorem PlainFor.addressedTo {ports : PortSet} (h : PlainFor packet ports)
    (hflow : parseFlow session packet = some flow) (hp : flow.dstPort = some p) :
    AddressedTo packet p := by
  obtain ⟨header, hheader, -, hport, -⟩ := parseFlow_cases hflow
  obtain ⟨⟨hports, hlen⟩, hbytes⟩ := portAt_eq_some.mp (hport.symm.trans hp)
  have hplain := h header hheader hports
  rw [if_pos hlen] at hplain
  exact ⟨header, hheader, hports, hplain.1, hplain.2, hlen, hbytes⟩

/-- For every packet and every rule for some ports: `parse_flow` reads only inside the packet, a
port that it returns is the port that the packet is for, a flow that matches the rule is for a port
of the rule, and the destination is the one that the agent sees, if and only if the packet is
`PlainFor` the rule. -/
theorem flow_port_iff (session : SessionId) (packet : Bytes) (ports : PortSet) :
    (parseFlowReads session packet = .ok (parseFlow session packet) ∧
      (∀ flow p, parseFlow session packet = some flow → flow.dstPort = some p →
        AddressedTo packet p) ∧
      (∀ ctx : FlowContext, parseFlow session packet = some ctx.flow →
        ctx.request.protocol = .tcp ∨ ctx.request.protocol = .udp → ports.isAll = false →
        ports.contains ctx.request.dstPort = true →
          ∃ p, ports.contains p = true ∧ AddressedTo packet p) ∧
      ∀ flow dst, parseFlow session packet = some flow → Agent.parseDst packet = some dst →
        flow.dst = dst) ↔
      PlainFor packet ports := by
  constructor
  · rintro ⟨-, hport, hrule, -⟩ header hheader hports
    obtain ⟨flow, hflow⟩ := exists_flow session hheader
    obtain ⟨header', hheader', hprotocol, hdst, -⟩ := parseFlow_cases hflow
    obtain rfl : header = header' := Option.some.inj (hheader.symm.trans hheader')
    split
    · next hlen =>
      have hread := portAt_eq_some.mpr ⟨⟨hports, hlen⟩, rfl⟩
      obtain ⟨h, hh, -, hfragment, hdeclared, -⟩ := hport flow _ hflow (hdst.trans hread)
      obtain rfl : header = h := Option.some.inj (hheader.symm.trans hh)
      exact ⟨hfragment, hdeclared⟩
    next hshort =>
    -- no port was read, so the policy sees port 0
    by_contra hzero
    rw [not_or, Bool.not_eq_false, Bool.not_eq_true] at hzero
    have hnone : flow.dstPort = none := by
      cases hp : flow.dstPort with
      | none => rfl
      | some p => exact absurd (portAt_eq_some.mp (hdst.symm.trans hp)).1.2 hshort
    let ctx : FlowContext := ⟨session, 0, 0, none, flow⟩
    have hprotocol' : protocolOf flow.protocol = .tcp ∨ protocolOf flow.protocol = .udp :=
      protocolOf_hasPorts (hprotocol ▸ hports)
    have hctx : ctx.request.dstPort = 0 := by
      rw [request_dstPort, hnone, Option.getD_none]
    obtain ⟨p, -, h, hh, -, -, -, hlen, -⟩ := hrule ctx hflow hprotocol' hzero.2 (hctx ▸ hzero.1)
    obtain rfl : header = h := Option.some.inj (hheader.symm.trans hh)
    exact hshort hlen
  · intro hplain
    refine ⟨parseFlowReads_eq session packet, fun flow p hflow hp => hplain.addressedTo hflow hp,
      ?_, ?_⟩
    · intro ctx hflow hprotocol hall hmatch
      cases hp : ctx.flow.dstPort with
      | some p =>
        rw [request_dstPort, hp, Option.getD_some] at hmatch
        exact ⟨p, hmatch, hplain.addressedTo hflow hp⟩
      | none =>
        obtain ⟨header, hheader, heq, hdst, -⟩ := parseFlow_cases hflow
        have hports : ctx.flow.protocol = 6 ∨ ctx.flow.protocol = 17 :=
          hasPorts_of_protocol hprotocol
        rw [heq] at hports
        have hshort : ¬ header.headerLen + 4 ≤ packet.length := by
          intro hlen
          have hread := portAt_eq_some.mpr ⟨⟨hports, hlen⟩, rfl⟩
          rw [← hdst, hp] at hread
          cases hread
        have hrule := hplain header hheader hports
        rw [if_neg hshort] at hrule
        rw [request_dstPort, hp, Option.getD_none] at hmatch
        rcases hrule with hzero | hzero
        · exact absurd hmatch (by rw [hzero]; decide)
        · exact absurd hzero (by rw [hall]; decide)
    · intro flow dst hflow hdst
      obtain ⟨-, -, -, -, hagree⟩ := parseFlow_cases hflow
      exact Option.some.inj (hagree.symm.trans hdst)

def laterFragment : Bytes :=
  [0x45, 0, 0, 24, 0, 1, 0, 185, 64, 6, 0, 0, 10, 0, 0, 2, 10, 0, 0, 3, 0, 0, 1, 187]

def trailingBytes : Bytes :=
  [0x45, 0, 0, 20, 0, 1, 0, 0, 64, 6, 0, 0, 10, 0, 0, 2, 10, 0, 0, 3, 0, 0, 1, 187]

/-- Both are taken for port 443, and neither is for it. -/
theorem payload_read_as_port :
    ((parseFlow 1 laterFragment).bind Flow.dstPort = some 443 ∧ ¬ AddressedTo laterFragment 443) ∧
      (parseFlow 1 trailingBytes).bind Flow.dstPort = some 443 ∧
      ¬ AddressedTo trailingBytes 443 := by
  have hfragment : headerOf laterFragment = some ⟨20, 24, 6, 185⟩ := by decide
  have htrailing : headerOf trailingBytes = some ⟨20, 20, 6, 0⟩ := by decide
  refine ⟨⟨by decide, ?_⟩, by decide, ?_⟩
  · rintro ⟨h, hh, -, hoffset, -⟩
    cases hfragment.symm.trans hh
    cases hoffset
  rintro ⟨h, hh, -, -, hdeclared, -⟩
  cases htrailing.symm.trans hh
  exact absurd hdeclared (by decide)

end Avon.Gateway
