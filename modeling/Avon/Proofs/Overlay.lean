import Avon.Overlay
import Avon.Proofs.Agent.PeerAuth
import Avon.Proofs.Gateway.Revocation

/-!
# Whose packet an agent gets

The gateway checks the source of what it receives on a session. Nothing else does: not an agent that
opens a packet of a peer, and not the gateway with a packet from its own TUN. `Honest` is the
condition that fills in for the missing checks, and `Inv` the provenance of every packet under way.
-/

set_option autoImplicit false

namespace Avon.Gateway

open Avon.Crypto Avon.Lib Avon.Tunnel

/-! ### What the gateway does with a packet -/

theorem sourceOf_of_parseFlow {session : SessionId} {packet : Bytes} {flow : Flow}
    (h : parseFlow session packet = some flow) : sourceOf packet = some flow.src := by
  cases packet with
  | nil => cases h
  | cons first rest =>
    simp only [parseFlow] at h
    simp only [sourceOf]
    split at h
    · next hversion =>
      rw [if_pos hversion]
      split at h
      · cases h
      next hlen =>
      split at h
      · cases h
      · cases h
        rw [if_neg hlen]
    · next hnot =>
      rw [if_neg hnot]
      split at h
      · next hversion =>
        rw [if_pos hversion]
        split at h
        · cases h
        next hlen =>
        cases h
        rw [if_neg hlen]
      · cases h

section
variable {env : Env} {s : GatewayState} {e : Event} {packet : Bytes} {id : SessionId}

theorem contextOf_source {ctx : FlowContext}
    (h : contextOf s id packet = some ctx) : ∃ m src, s.sessionsMeta.lookup id = some m ∧
      sourceOf packet = some src ∧ m.ownsSource src = true := by
  unfold contextOf at h
  split at h
  · cases h
  next flow hflow =>
  split at h
  · cases h
  next m hm =>
  split at h
  · cases h
  · next howns => exact ⟨m, flow.src, hm, sourceOf_of_parseFlow hflow, by simpa using howns⟩

theorem lookup_acceptOffer {offer : SessionOffer} {now : ℤ} {built : Option Session}
    {m : SessionMeta}
    (h : (acceptOffer env s offer now built).2.sessionsMeta.lookup id = some m) :
    s.sessionsMeta.lookup id = some m ∨ ∃ session cert tenant, built = some session ∧
      checkOffer env s offer now = .ok (id, cert) ∧ m = metaOf env offer cert tenant := by
  unfold acceptOffer at h
  split at h
  · exact .inl h
  next id' cert hcheck =>
  split at h
  · exact .inl h
  next session =>
  simp only at h
  split at h
  · exact .inl h
  next tenant _ =>
  by_cases heq : id = id'
  · subst heq
    rw [AList.lookup_insert] at h
    exact .inr ⟨session, cert, tenant, rfl, hcheck, (Option.some.inj h).symm⟩
  · rw [AList.lookup_insert_ne heq] at h
    exact .inl h

theorem pending_acceptOffer (env : Env) (s : GatewayState) (offer : SessionOffer) (now : ℤ)
    (built : Option Session) : (acceptOffer env s offer now built).2.pending = s.pending := by
  unfold acceptOffer
  split
  · rfl
  split
  · rfl
  · simp only
    split <;> rfl

theorem pending_receiveIp {id id' : SessionId} {p : Pending}
    (h : (receiveIp s id packet).pending id' = some p) :
    s.pending id' = some p ∨ p.packet = packet ∧ ∃ ctx, contextOf s id packet = some ctx := by
  unfold receiveIp at h
  split at h
  · exact .inl h
  next ctx hctx =>
  simp only at h
  split at h
  · exact .inl h
  rcases update_eq_some.mp h with ⟨-, ⟨⟩⟩ | ⟨-, h⟩
  · exact .inr ⟨rfl, ctx, hctx⟩
  · exact .inl h

theorem metas_receiveIp (s : GatewayState) (id : SessionId) (packet : Bytes) :
    (receiveIp s id packet).sessionsMeta = s.sessionsMeta := by
  unfold receiveIp
  split
  · rfl
  · simp only
    split <;> rfl

/-- A step is a packet on a session, an offer, or leaves the metadata and the waiting packets alone
or takes some of them away. -/
theorem step_cases (env : Env) (s : GatewayState) (e : Event) :
    (∃ id packet, e = .ip id packet ∧ step env s e = receiveIp s id packet) ∨
    (∃ offer now built, e = .control (.offer offer now built) ∧ s.blocked = false ∧
      step env s e = (acceptOffer env s offer now built).2) ∨
    (∀ id m, (step env s e).sessionsMeta.lookup id = some m → s.sessionsMeta.lookup id = some m) ∧
      ∀ id p, (step env s e).pending id = some p → s.pending id = some p := by
  have of_shrinks : Shrinks s (step env s e) →
      (∀ id m, (step env s e).sessionsMeta.lookup id = some m → s.sessionsMeta.lookup id = some m) ∧
        ∀ id p, (step env s e).pending id = some p → s.pending id = some p :=
    fun h => ⟨h.metas, h.pending⟩
  cases e with
  | ip id packet => exact .inl ⟨id, packet, rfl, rfl⟩
  | forward id socketOk =>
    exact .inr (.inr (of_shrinks (forwards_forwardIp env s id socketOk).shrinks))
  | tun packet socketOk =>
    exact .inr (.inr (of_shrinks (forwards_ingress env s packet socketOk).shrinks))
  | tunnel id session =>
    exact .inr (.inr (of_shrinks (forwards_changeSession s id session).shrinks))
  | closed id => exact .inr (.inr (of_shrinks (shrinks_closeSession s id)))
  | control e =>
    cases hblocked : s.blocked with
    | true =>
      refine .inr (.inr ?_)
      simp only [step, handle, hblocked, if_true]
      exact ⟨fun _ _ h => h, fun _ _ h => h⟩
    | false =>
      have hstep : step env s (.control e) = controlStep env s e := by
        simp [step, handle, hblocked]
      rw [hstep] at of_shrinks ⊢
      cases e with
      | offer offer now built => exact .inr (.inl ⟨offer, now, built, rfl, rfl, rfl⟩)
      | close id => exact .inr (.inr (of_shrinks (shrinks_closeSession s id)))
      | crl verified => exact .inr (.inr (of_shrinks (shrinks_applyCrl s verified)))
      | routes update =>
        refine .inr (.inr ?_)
        simp only [controlStep, applyRoutes]
        split
        · exact ⟨fun _ _ h => h, fun _ _ h => h⟩
        · split <;> exact ⟨fun _ _ h => h, fun _ _ h => h⟩
      | policy data now =>
        cases data <;> exact .inr (.inr ⟨fun _ _ h => h, fun _ _ h => h⟩)
      | deviceUpdate tenant device attrs now =>
        exact .inr (.inr
          (of_shrinks (shrinks_applyDeviceUpdate env s tenant device attrs now)))

theorem packet_of_relay {target id : SessionId} {packet packet' : Bytes} {socketOk ok : Bool}
    (h : .send id packet' ok ∈ (relay env s target packet socketOk).2) : packet' = packet := by
  unfold relay at h
  split at h
  · cases h
  · cases List.mem_singleton.mp h
    rfl

theorem packet_of_output {target : SessionId} {ok : Bool}
    (h : .send target packet ok ∈ outputs env s e) :
    (∃ id p, s.pending id = some p ∧ p.packet = packet) ∨ ∃ socketOk, e = .tun packet socketOk := by
  cases e with
  | forward id socketOk =>
    simp only [outputs, handle, forwardIp] at h
    split at h
    · cases h
    next p hp =>
    refine .inl ⟨id, p, hp, ?_⟩
    split at h
    · split at h
      · exact (packet_of_relay h).symm
      · cases h
    split at h
    · cases List.mem_singleton.mp h
    · cases h
  | tun packet' socketOk =>
    simp only [outputs, handle, ingress] at h
    split at h
    · cases h
    split at h
    · cases h
    · exact .inr ⟨socketOk, by rw [packet_of_relay h]⟩
  | _ => cases h

end

end Avon.Gateway

namespace Avon.Overlay

open Avon.Agent Avon.Crypto Avon.Gateway Avon.Lib.Run Avon.Proto Avon.Tunnel

variable {C : HybridImpl}

/-! ### The condition -/

/-- The packet does not have an overlay address of a device but `allowed`. -/
def Setting.SourceIn (cfg : Setting C) (packet : Bytes) (allowed : DeviceId → Prop) : Prop :=
  ∀ d, ∀ a ∈ cfg.overlay d, sourceOf packet = some a → allowed d

/-- Of all overlay addresses, a session with these metadata may only send from those of `device`. -/
def Setting.Owns (cfg : Setting C) (m : SessionMeta) (device : DeviceId) : Prop :=
  ∀ d, ∀ a ∈ cfg.overlay d, m.ownsSource a = true → d = device

def Honest (cfg : Setting C) (s : State C) : Event C → Prop
  | .gateway (.control (.offer offer now _)) => ∀ id cert,
      checkOffer cfg.env s.gateway offer now = .ok (id, cert) → (∀ hub ∈ s.hubs, hub.1 ≠ id) ∧
        ∀ tenant, cfg.Owns (metaOf cfg.env offer cert tenant) cert.subjectId
  | .gateway (.tun packet _) => cfg.SourceIn packet fun _ => False
  | .tun e packet order _ => ∀ p r,
      forwardFromTun (s.nodes e).agent (s.nodes e).router order packet = .ok p →
        cfg.holder p.peerCertId = .device r → cfg.SourceIn packet fun d => d = e ∨ d = r
  | _ => True

/-! ### The invariant -/

/-- Every overlay address that the packet may have is of a device that has sealed it on its hub
session. -/
def Setting.FromHub (cfg : Setting C) (log : List Sealed) (packet : Bytes) : Prop :=
  cfg.SourceIn packet fun d =>
    ∃ x ∈ log, x.sender = .device d ∧ x.packet = packet ∧ x.receiver = .gateway

structure Inv (cfg : Setting C) (s : State C) : Prop where
  metas : ∀ id m, s.gateway.sessionsMeta.lookup id = some m →
    (∃ device, (id, device) ∈ s.hubs) ∧ ∀ device, (id, device) ∈ s.hubs → cfg.Owns m device
  pending : ∀ id p, s.gateway.pending id = some p → cfg.FromHub s.log p.packet
  relayed : ∀ x ∈ s.log, x.sender = .gateway → cfg.FromHub s.log x.packet
  direct : ∀ x ∈ s.log, ∀ e r, x.sender = .device e → x.receiver = .device r →
    cfg.SourceIn x.packet fun d => d = e ∨ d = r
  authentic : Authentic cfg s

theorem Setting.FromHub.append {cfg : Setting C} {log : List Sealed} {packet : Bytes}
    (h : cfg.FromHub log packet) (more : List Sealed) : cfg.FromHub (log ++ more) packet := by
  intro d a ha hsource
  obtain ⟨x, hx, hsealed⟩ := h d a ha hsource
  exact ⟨x, List.mem_append_left _ hx, hsealed⟩

section
variable {cfg : Setting C} {s : State C}

theorem inv_init (cfg : Setting C) (crl : Gateway.Crl) (overlayPrefixes : List IpNet) :
    Inv cfg (.init C crl overlayPrefixes) where
  metas _ _ hm := nomatch hm
  pending _ _ hp := nomatch hp
  relayed _ hx := nomatch hx
  direct _ hx := nomatch hx
  authentic _ hw := nomatch hw

theorem Inv.seal (h : Inv cfg s) {new : List Sealed}
    (hrelayed : ∀ x ∈ new, x.sender = .gateway → cfg.FromHub s.log x.packet)
    (hdirect : ∀ x ∈ new, ∀ e r, x.sender = .device e → x.receiver = .device r →
      cfg.SourceIn x.packet fun d => d = e ∨ d = r) : Inv cfg { s with log := s.log ++ new } where
  metas := h.metas
  pending id p hp := (h.pending id p hp).append new
  relayed x hx hsender := by
    rcases List.mem_append.mp hx with hx | hx
    · exact (h.relayed x hx hsender).append new
    · exact (hrelayed x hx hsender).append new
  direct x hx := by
    rcases List.mem_append.mp hx with hx | hx
    · exact h.direct x hx
    · exact hdirect x hx
  authentic w hw d hd a ha hsource := by
    obtain ⟨x, hx, hsealed⟩ := h.authentic w hw d hd a ha hsource
    exact ⟨x, List.mem_append_left _ hx, hsealed⟩

variable {e : Gateway.Event} {id : SessionId} {packet : Bytes}

/-- A packet that arrives is from the device of its session, and the session only sends from the
addresses of that device. -/
theorem Inv.fromHub_of_arrives (h : Inv cfg s) {ctx : FlowContext}
    (harrives : arrives s (.ip id packet) = true)
    (hctx : contextOf s.gateway id packet = some ctx) : cfg.FromHub s.log packet := by
  obtain ⟨m, src, hm, hsrc, howns⟩ := contextOf_source hctx
  obtain ⟨hub, hhub, hsealed⟩ := List.any_eq_true.mp harrives
  obtain ⟨hid, hlog⟩ := of_decide_eq_true hsealed
  intro d a ha hsource
  have hdevice : d = hub.2 := by
    refine (h.metas id m hm).2 hub.2 (hid ▸ hhub) d a ha ?_
    rw [hsrc] at hsource
    exact Option.some.inj hsource ▸ howns
  exact ⟨_, hlog, by rw [hdevice], rfl, rfl⟩

theorem Inv.fromHub_of_output (h : Inv cfg s) (hG : Honest cfg s (.gateway e))
    {x : Sealed} (hx : x ∈ (outputs cfg.env s.gateway e).filterMap (sealedFor s.hubs)) :
    x.sender = .gateway ∧ cfg.FromHub s.log x.packet := by
  obtain ⟨out, hout, hsealed⟩ := List.mem_filterMap.mp hx
  unfold sealedFor at hsealed
  split at hsealed
  · obtain ⟨hub, -, rfl⟩ := Option.map_eq_some_iff.mp hsealed
    refine ⟨rfl, ?_⟩
    rcases packet_of_output hout with ⟨id, p, hp, rfl⟩ | ⟨socketOk, rfl⟩
    · exact h.pending id p hp
    · exact fun d a ha hsource => (hG d a ha hsource).elim
  · cases hsealed

theorem mem_hubMade {env : Env} {g : GatewayState}
    {hub : SessionId × DeviceId} (h : hub ∈ hubMade env g e) : ∃ offer now built cert,
      e = .control (.offer offer now built) ∧ checkOffer env g offer now = .ok (hub.1, cert) ∧
        hub.2 = cert.subjectId := by
  unfold hubMade at h
  split at h
  · next offer now session =>
    split at h
    · cases h
    split at h
    · next id cert hcheck =>
      cases List.mem_singleton.mp h
      exact ⟨offer, now, some session, cert, rfl, hcheck, rfl⟩
    · cases h
  · cases h

theorem Inv.metas_append (h : Inv cfg s) (hG : Honest cfg s (.gateway e)) {m : SessionMeta}
    (hm : s.gateway.sessionsMeta.lookup id = some m) :
    (∃ device, (id, device) ∈ hubMade cfg.env s.gateway e ++ s.hubs) ∧
      ∀ device, (id, device) ∈ hubMade cfg.env s.gateway e ++ s.hubs → cfg.Owns m device := by
  obtain ⟨⟨device, hdevice⟩, howns⟩ := h.metas id m hm
  refine ⟨⟨device, List.mem_append_right _ hdevice⟩, fun device' hdevice' => ?_⟩
  rcases List.mem_append.mp hdevice' with hmade | hold
  · obtain ⟨offer, now, built, cert, rfl, hcheck, -⟩ := mem_hubMade hmade
    exact absurd rfl ((hG _ _ hcheck).1 (id, device) hdevice)
  · exact howns device' hold

theorem metas_offer {offer : SessionOffer} {now : ℤ} {session : Session}
    {cert : Gateway.Certificate} {tenant : TenantId}
    (hG : Honest cfg s (.gateway (.control (.offer offer now (some session)))))
    (hblocked : s.gateway.blocked = false)
    (hcheck : checkOffer cfg.env s.gateway offer now = .ok (id, cert)) :
    let hubs := hubMade cfg.env s.gateway (.control (.offer offer now (some session))) ++ s.hubs
    (∃ device, (id, device) ∈ hubs) ∧
      ∀ device, (id, device) ∈ hubs → cfg.Owns (metaOf cfg.env offer cert tenant) device := by
  obtain ⟨hfresh, howns⟩ := hG id cert hcheck
  have hmade : hubMade cfg.env s.gateway (.control (.offer offer now (some session))) =
      [(id, cert.subjectId)] := by
    simp [hubMade, hblocked, hcheck]
  rw [hmade]
  refine ⟨⟨_, List.mem_cons_self⟩, fun device hdevice => ?_⟩
  rcases List.mem_cons.mp hdevice with heq | hold
  · cases heq
    exact howns tenant
  · exact absurd rfl (hfresh _ hold)

theorem Inv.gateway (h : Inv cfg s) (hG : Honest cfg s (.gateway e))
    (harrives : arrives s e = true) : Inv cfg { s with
      gateway := Gateway.step cfg.env s.gateway e
      hubs := hubMade cfg.env s.gateway e ++ s.hubs } := by
  rcases Gateway.step_cases cfg.env s.gateway e with
    ⟨id, packet, rfl, hstep⟩ | ⟨offer, now, built, rfl, hblocked, hstep⟩ | ⟨hmetas, hpending⟩
  · refine { h with metas := ?_, pending := ?_ } <;> simp only [hstep]
    · rw [metas_receiveIp]
      exact h.metas
    intro id' p hp
    rcases pending_receiveIp hp with hp | ⟨rfl, ctx, hctx⟩
    · exact h.pending id' p hp
    · exact h.fromHub_of_arrives harrives hctx
  · refine { h with metas := ?_, pending := ?_ } <;> simp only [hstep]
    · intro id m hm
      rcases lookup_acceptOffer hm with hm | ⟨session, cert, tenant, rfl, hcheck, rfl⟩
      · exact h.metas_append hG hm
      · exact metas_offer hG hblocked hcheck
    · rw [pending_acceptOffer]
      exact h.pending
  · exact { h with
      metas := fun id m hm => h.metas_append hG (hmetas id m hm)
      pending := fun id p hp => h.pending id p (hpending id p hp) }

theorem Inv.write (h : Inv cfg s) {device : DeviceId} {sender : Party} {session : SessionId}
    (hlog : ⟨sender, .device device, session, packet⟩ ∈ s.log) :
    Inv cfg { s with tuns := s.tuns ++ [(device, packet)] } := by
  refine { h with authentic := fun w hw d hd a ha hsource => ?_ }
  rcases List.mem_append.mp hw with hw | hw
  · exact h.authentic w hw d hd a ha hsource
  cases List.mem_singleton.mp hw
  cases sender with
  | gateway =>
    obtain ⟨x, hx, hsender, hpacket, hreceiver⟩ := h.relayed _ hlog rfl d a ha hsource
    exact ⟨x, hx, hsender, hpacket, .inl hreceiver⟩
  | device e =>
    -- The source is not the receiver's own address, so it is the sender's.
    rcases h.direct _ hlog e device rfl rfl d a ha hsource with rfl | rfl
    · exact ⟨_, hlog, rfl, rfl, .inr rfl⟩
    · exact absurd rfl hd

theorem Inv.step (h : Inv cfg s) {e : Event C} (hG : Honest cfg s e) :
    Inv cfg (step cfg s e) := by
  cases e with
  | gateway e =>
    simp only [Overlay.step]
    split
    · next harrives =>
      refine (h.gateway hG harrives).seal (fun x hx _ => (h.fromHub_of_output hG hx).2) ?_
      intro x hx e r hsender
      rw [(h.fromHub_of_output hG hx).1] at hsender
      cases hsender
    · exact h
  | agent | route => exact { h with }
  | tun device packet order sent =>
    simp only [Overlay.step]
    split
    · exact h
    next p hp =>
    split
    · refine h.seal (fun x hx hsender => ?_) fun x hx e r hsender hreceiver => ?_
      · cases List.mem_singleton.mp hx
        cases hsender
      cases List.mem_singleton.mp hx
      cases hsender
      exact hG p r hp hreceiver
    · exact h
  | ip device position packet =>
    simp only [Overlay.step]
    split
    · exact h
    split
    · next hlog => exact h.write hlog
    · exact h

end

/-- In every run of a gateway and its agents whose steps are all honest, an agent writes a packet
with an overlay address of another device to its TUN only if that device has sealed the packet, on
its hub session or on a session with this agent. -/
theorem overlay_authentic (cfg : Setting C) (crl : Gateway.Crl) (overlayPrefixes : List IpNet)
    (events : List (Event C))
    (h : Guarded (step cfg) (Honest cfg) (.init C crl overlayPrefixes) events) :
    Authentic cfg (run (step cfg) (.init C crl overlayPrefixes) events) :=
  (h.invariant (fun _ _ hinv hG => hinv.step hG) (inv_init cfg crl overlayPrefixes)).authentic

/-! ### Three devices -/

def hubCert : Crypto.Certificate := issuedCert 20 .gateway 9 12 none
def cert1 : Crypto.Certificate := issuedCert 20 .device 1 11 (some 5)
def cert2 : Crypto.Certificate := issuedCert 20 .device 2 13 (some 7)

def namedHybrid : HybridImpl :=
  { transparentHybrid with
    sha256 := fun bytes =>
      if bytes = cert1.encode then 1 else if bytes = cert2.encode then 2
      else if bytes = hubCert.encode then 9 else 0 }

def office : Setting namedHybrid where
  env := demoEnv
  hkdf := transparentHkdf
  identity d := ⟨if d = 1 then cert1 else cert2, ⟨[rootCert], by decide +kernel⟩, issuingCert⟩
  parse _ := some (.host (.v4 0x64400001))
  holder id := if id = 9 then .gateway else .device (BitVec.ofNat 128 id.toNat)
  overlay d := if d.toNat < 4 then [.v4 (0x64400000 + d.setWidth 32)] else []

def keysOf (kem signing : UInt8) : Provider where
  decapsulate ct := (transparentKem.decapsulate kem ct).mapError CryptoError.text
  sign domain msg := .ok (transparentSignature [signing] domain msg)

def answerIn (id : SessionId) (initiator responder : Crypto.Certificate) (signing : UInt8) :
    Option SessionAnswer :=
  (Responder.answer namedHybrid transparentHkdf id initiator [6] .aes256Gcm
    (responder.id namedHybrid) signing 40 none (1 : UInt8) (2 : UInt8) ()).toOption.map Prod.fst

def opensHub (device : DeviceId) (cert : Crypto.Certificate) (provider : Provider)
    (id : SessionId) :
    List (Event namedHybrid) :=
  [.agent device (.openHub (.ok (6 : UInt8)) (.ok 31)),
    .agent device (.hubOpened 0 provider (fun _ => .ok ⟨.v4 0x0A000001, 4600⟩)
      (.ok ⟨uuidBytes id, answerIn id cert hubCert 12, some hubCert.encode⟩) 5 0)]

def hubsOpen : List (Event namedHybrid) :=
  [.gateway (.control (.offer (demoOffer 1 1 7 "100.64.0.1") 0 (some (demoSession 1 none)))),
    .gateway (.control (.offer (demoOffer 2 2 7 "100.64.0.2") 0 (some (demoSession 2 none)))),
    .gateway (.tunnel 2 (demoSession 2 (some ⟨.v4 0xC0000209, 4500⟩)))] ++
  opensHub 1 cert1 (keysOf 5 11) 1 ++ opensHub 2 cert2 (keysOf 7 13) 2

def throughHub : List (Event namedHybrid) :=
  hubsOpen ++
  [.tun 1 (udpPacket 1 2) [] true, .gateway (.ip 1 (udpPacket 1 2)), .gateway (.forward 1 true),
    .ip 2 0 (udpPacket 1 2)]

variable {s : State namedHybrid} {a : IpAddr}

theorem office_overlay {d : DeviceId} (h : a ∈ office.overlay d) :
    d.toNat < 4 ∧ a = .v4 (0x64400000 + d.setWidth 32) := by
  simp only [office] at h
  split at h
  · next hlt => exact ⟨hlt, List.mem_singleton.mp h⟩
  · cases h

theorem office_overlay_inj {d e : DeviceId} (hd : a ∈ office.overlay d)
    (he : a ∈ office.overlay e) : d = e := by
  obtain ⟨hdlt, ha⟩ := office_overlay hd
  obtain ⟨helt, ha'⟩ := office_overlay he
  have hsame : d.setWidth 32 = e.setWidth 32 :=
    add_left_cancel (IpAddr.v4.inj (ha.symm.trans ha'))
  have hnat := congrArg BitVec.toNat hsame
  simp only [BitVec.toNat_setWidth] at hnat
  exact BitVec.eq_of_toNat_eq (by omega)

theorem honest_offer {n : ℕ} {device : UInt8} {text : String}
    {addr : IpAddr} {built : Option Session}
    (hid : s.hubs.all (fun hub => hub.1 ≠ BitVec.ofNat 128 n) = true) (hn : n < 256 ^ 16)
    (htext : parseNet office.env text = some (.host addr))
    (haddr : addr ∈ office.overlay (BitVec.ofNat 128 device.toNat)) :
    Honest office s (.gateway (.control (.offer (demoOffer n device 7 text) 0 built))) := by
  intro id cert hcheck
  obtain ⟨hsession, bytes, hbytes, hcert, -⟩ := checkOffer_cases hcheck
  cases hbytes
  cases hcert
  constructor
  · have hlen : (Lib.BigEndian.beBytes 16 n).length = 16 := Lib.BigEndian.length_beBytes 16 n
    simp only [demoOffer, uuidOf, hlen, if_true, Lib.BigEndian.ofBe_beBytes hn,
      Option.some.injEq] at hsession
    intro hub hhub
    exact hsession ▸ of_decide_eq_true (List.all_eq_true.mp hid hub hhub)
  intro tenant d a ha howns
  have hv6 : parseNet office.env "" = none := if_pos rfl
  have hsame : (IpNet.host addr).addr = a := by
    simpa only [SessionMeta.ownsSource, metaOf, demoOffer, htext, hv6, Option.map_some,
      Option.map_none, List.filterMap_nil, List.any_nil, Bool.or_false, reduceCtorEq,
      decide_false, decide_eq_true_eq, Option.some.injEq] using howns
  exact office_overlay_inj ha (hsame ▸ (haddr : (IpNet.host addr).addr ∈ _))

theorem overlay_authentic_hub :
    let s := run (step office) (.init namedHybrid ⟨0, []⟩ []) throughHub
    Authentic office s ∧ (2, udpPacket 1 2) ∈ s.tuns := by
  refine ⟨overlay_authentic office ⟨0, []⟩ [] throughHub ?_, by decide +kernel⟩
  refine ⟨honest_offer rfl (by decide) rfl (by decide +kernel),
    honest_offer (by decide +kernel) (by decide) rfl (by decide +kernel),
    trivial, trivial, trivial, trivial, trivial, ?_, trivial, trivial, trivial, trivial⟩
  intro p r _ _ d a ha hsource
  have haddr : sourceOf (udpPacket 1 2) = some (.v4 0x64400001) := by decide +kernel
  rw [haddr] at hsource
  have hone : .v4 0x64400001 ∈ office.overlay 1 := by decide +kernel
  exact .inl (office_overlay_inj ha (Option.some.inj hsource ▸ hone))

/-- Device 1 dials device 2. Device 2 reads a packet from its TUN that has the address of device 3,
and the direct session is the way to device 1. -/
def peerSpoofs : List (Event namedHybrid) :=
  [.agent 1 (.dial 2 (.ok (6 : UInt8)) (.ok 30)),
    .agent 2 (.offered ⟨uuidBytes 77, some cert1.encode, [6], 1, "100.64.0.1/32", 30⟩
      (keysOf 7 13) (.ok 40) (1 : UInt8) (2 : UInt8) 5 0),
    .agent 1 (.dialed 0 (keysOf 5 11)
      (.ok ⟨uuidBytes 77, answerIn 77 cert1 cert2 13, some cert2.encode, "100.64.0.2/32"⟩) 5 0),
    .agent 2 (.direct 1), .tun 2 (udpPacket 3 1) [1] true, .ip 1 0 (udpPacket 3 1)]

def outsiderSpoofs : List (Event namedHybrid) :=
  hubsOpen ++ [.gateway (.tun (udpPacket 3 2) true), .ip 2 0 (udpPacket 3 2)]

theorem not_authentic (device : DeviceId) (packet : Bytes)
    (hdevice : device ≠ 3) (hsource : sourceOf packet = some (.v4 0x64400003))
    (hwritten : (device, packet) ∈ s.tuns) (hlog : ∀ x ∈ s.log, x.sender ≠ .device 3) :
    ¬ Authentic office s := by
  intro h
  obtain ⟨x, hx, hsender, -⟩ :=
    h _ hwritten 3 hdevice.symm (.v4 0x64400003) (by decide +kernel) hsource
  exact hlog x hx hsender

/-- Both packets are written to the TUN of a device, and device 3 has sealed nothing. -/
theorem source_spoofed :
    ¬ Authentic office (run (step office) (.init namedHybrid ⟨0, []⟩ []) peerSpoofs) ∧
      ¬ Authentic office (run (step office) (.init namedHybrid ⟨0, []⟩ []) outsiderSpoofs) :=
  ⟨not_authentic 1 (udpPacket 3 1) (by decide) (by decide +kernel)
      (by decide +kernel) (by decide +kernel),
    not_authentic 2 (udpPacket 3 2) (by decide) (by decide +kernel)
      (by decide +kernel) (by decide +kernel)⟩

end Avon.Overlay
