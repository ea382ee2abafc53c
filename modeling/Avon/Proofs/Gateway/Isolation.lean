import Avon.Lib.Unwinding
import Avon.Proofs.Gateway.FlowPolicy
import Avon.Proofs.Gateway.Plan
import Avon.Proofs.Policy.Decide

/-!
# Tenant isolation

In runs whose steps are all `Separated`, no packet of one tenant goes out on a session of another,
and the packets of one tenant do not change what the others receive. The second half is by
unwinding, with `Alike` between the states of two runs.
-/

set_option autoImplicit false

namespace Avon.Gateway

open Avon.Crypto Avon.Tunnel Avon.Policy Avon.Lib.Run
open Function (update update_of_ne)

/-! ### What another tenant can see -/

/-- The events that the packets of tenant `a` cause: they arrive, are forwarded, and change
the tunnel they arrive on. -/
def Plan.hidden (plan : Plan) (a : TenantId) : Event → Bool
  | .ip id _ => plan.owner id = a
  | .forward id _ => plan.owner id = a
  | .tunnel id _ => plan.owner id = a
  | _ => false

def Plan.visible (plan : Plan) (a : TenantId) : Output → Bool
  | .send target _ _ => plan.owner target ≠ a
  | .egress _ => false

/-- Two states that differ only in the tunnels, the packets on their way and the cached
decisions of tenant `a`. -/
structure Alike (plan : Plan) (a : TenantId) (s t : GatewayState) : Prop where
  routes : s.routes = t.routes
  metas : s.sessionsMeta = t.sessionsMeta
  engines : s.policy.engines = t.policy.engines
  crl : s.crl = t.crl
  overlayPrefixes : s.overlayPrefixes = t.overlayPrefixes
  blocked : s.blocked = t.blocked
  byId : s.table.byId = t.table.byId
  session : ∀ id, plan.owner id ≠ a → s.session id = t.session id
  cache : ∀ key : FlowKey, plan.owner key.session ≠ a → s.policy.cache key = t.policy.cache key
  pending : ∀ id, plan.owner id ≠ a → s.pending id = t.pending id

section
variable {plan : Plan} {a : TenantId} {s t : GatewayState}

theorem Alike.eq (h : Alike plan a s t) : ∃ byIndex session cache pending,
    t = { s with
      table := ⟨byIndex, s.table.byId⟩, session, policy := ⟨s.policy.engines, cache⟩,
      pending } := by
  obtain ⟨⟨byIndex, byId⟩, session, routes, ⟨engines, cache⟩, crl, metas, prefixes, pending,
    blocked⟩ := t
  obtain ⟨hroutes, hmetas, hengines, hcrl, hprefixes, hblocked, hbyId, -, -, -⟩ := h
  simp only at hroutes hmetas hengines hcrl hprefixes hblocked hbyId
  subst hroutes hmetas hengines hcrl hprefixes hblocked hbyId
  exact ⟨byIndex, session, cache, pending, rfl⟩

theorem Alike.refl (plan : Plan) (a : TenantId) (s : GatewayState) : Alike plan a s s where
  routes := rfl
  metas := rfl
  engines := rfl
  crl := rfl
  overlayPrefixes := rfl
  blocked := rfl
  byId := rfl
  session _ _ := rfl
  cache _ _ := rfl
  pending _ _ := rfl

theorem Alike.symm (h : Alike plan a s t) : Alike plan a t s where
  routes := h.routes.symm
  metas := h.metas.symm
  engines := h.engines.symm
  crl := h.crl.symm
  overlayPrefixes := h.overlayPrefixes.symm
  blocked := h.blocked.symm
  byId := h.byId.symm
  session id hid := (h.session id hid).symm
  cache key hkey := (h.cache key hkey).symm
  pending id hid := (h.pending id hid).symm

theorem update_eq {β : Type} {f g : SessionId → β}
    (h : ∀ id, plan.owner id ≠ a → f id = g id) (id : SessionId) (v : β) :
    ∀ id', plan.owner id' ≠ a → update f id v id' = update g id v id' := by
  intro id' hid'
  by_cases heq : id' = id
  · rw [heq, Function.update_self, Function.update_self]
  · rw [update_of_ne heq, update_of_ne heq, h id' hid']

/-- What tenant `a` changes of its own is not seen. -/
theorem update_hidden {β : Type} {f g : SessionId → β}
    (h : ∀ id, plan.owner id ≠ a → f id = g id) {id : SessionId} (hid : plan.owner id = a) (v : β) :
    ∀ id', plan.owner id' ≠ a → update f id v id' = g id' := by
  intro id' hid'
  have hne : id' ≠ id := fun heq => hid' (heq ▸ hid)
  rw [update_of_ne hne, h id' hid']

section
variable (h : Alike plan a s t)
include h

theorem Alike.setPending (id : SessionId) (v : Option Pending) :
    Alike plan a { s with pending := update s.pending id v }
      { t with pending := update t.pending id v } :=
  { h with pending := update_eq h.pending id v }

theorem Alike.insertSession (x : Handle) (session : Session) :
    Alike plan a (s.insertSession x session) (t.insertSession x session) :=
  { h with
    byId := by rw [byId_insertSession, byId_insertSession, h.byId]
    session := update_eq h.session x.id session }

theorem Alike.unroute (id : SessionId) : Alike plan a (s.unroute id) (t.unroute id) := by
  refine { h with routes := congrArg (RouteTable.removeSession · id) h.routes, byId := ?_ }
  simp only [GatewayState.unroute, GatewayState.leaveTable, SessionTable.byId_remove, h.byId]

theorem Alike.closeSession (id : SessionId) :
    Alike plan a (s.closeSession id) (t.closeSession id) := by
  unfold GatewayState.closeSession
  rw [h.byId]
  split
  · exact h
  · exact { h.unroute id with metas := congrArg (AList.erase id) h.metas }

theorem Alike.changeSession (id : SessionId) (session : Session) :
    Alike plan a (s.changeSession id session) (t.changeSession id session) := by
  unfold GatewayState.changeSession
  rw [h.byId]
  split
  · exact h
  · exact { h with session := update_eq h.session id session }

end

end

/-! ### Events of both runs -/

section
variable {plan : Plan} {a : TenantId} {s t : GatewayState}

section
variable (h : Alike plan a s t)
include h

theorem Alike.contextOf (id : SessionId) (packet : Bytes) :
    contextOf s id packet = contextOf t id packet := by
  simp only [Gateway.contextOf, h.routes, h.metas]

theorem Alike.receiveIp {id : SessionId} (hid : plan.owner id ≠ a)
    (packet : Bytes) : Alike plan a (receiveIp s id packet) (receiveIp t id packet) := by
  unfold Gateway.receiveIp
  rw [h.contextOf id packet]
  split
  · exact h
  rename_i ctx hctx
  have hkey : plan.owner ctx.key.session ≠ a := by
    rwa [FlowContext.key, (contextOf_cases hctx).1]
  obtain ⟨hdecision, hcache⟩ := allow_congr h.engines (h.cache ctx.key hkey)
  have hengines : (s.policy.allow ctx).2.engines = (t.policy.allow ctx).2.engines := by
    rw [(allow_frame _ ctx).1, (allow_frame _ ctx).1, h.engines]
  simp only [hdecision]
  split
  · exact { h with engines := hengines, cache := fun key hk => hcache key (h.cache key hk) }
  exact { h with
    engines := hengines
    cache := fun key hk => hcache key (h.cache key hk)
    pending := update_eq h.pending id _ }

theorem Alike.relay (env : Env) (target : SessionId) (packet : Bytes) (socketOk : Bool) :
    Alike plan a (relay env s target packet socketOk).1 (relay env t target packet socketOk).1 ∧
      (relay env s target packet socketOk).2.filter (plan.visible a)
        = (relay env t target packet socketOk).2.filter (plan.visible a) := by
  unfold Gateway.relay
  rw [h.byId]
  split
  · exact ⟨h, rfl⟩
  by_cases hid : plan.owner target = a
  · -- The tunnels may differ, but nobody else sees them.
    refine ⟨{ h with session := fun id' hid' => ?_ }, by simp [Plan.visible, hid]⟩
    have hne : id' ≠ target := fun heq => hid' (heq ▸ hid)
    simp only [update_of_ne hne]
    exact h.session id' hid'
  · rw [h.session target hid]
    exact ⟨{ h with session := update_eq h.session target _ }, rfl⟩

theorem Alike.forwardIp (env : Env) {id : SessionId} (hid : plan.owner id ≠ a) (socketOk : Bool) :
    Alike plan a (forwardIp env s id socketOk).1 (forwardIp env t id socketOk).1 ∧
      (forwardIp env s id socketOk).2.filter (plan.visible a)
        = (forwardIp env t id socketOk).2.filter (plan.visible a) := by
  have hpending := h.pending id hid
  obtain ⟨byIndex, session, cache, pending, rfl⟩ := h.eq
  unfold Gateway.forwardIp
  rw [hpending]
  split
  · exact ⟨h, rfl⟩
  have hclear := h.setPending id none
  simp only
  split
  · split
    · exact hclear.relay env _ _ socketOk
    · exact ⟨hclear, rfl⟩
  · exact ⟨hclear, rfl⟩

theorem Alike.ingress (env : Env) (packet : Bytes) (socketOk : Bool) :
    Alike plan a (ingress env s packet socketOk).1 (ingress env t packet socketOk).1 ∧
      (ingress env s packet socketOk).2.filter (plan.visible a)
        = (ingress env t packet socketOk).2.filter (plan.visible a) := by
  obtain ⟨byIndex, session, cache, pending, rfl⟩ := h.eq
  unfold Gateway.ingress
  split
  · exact ⟨h, rfl⟩
  simp only
  split
  · exact ⟨h, rfl⟩
  · exact h.relay env _ packet socketOk

theorem Alike.acceptOffer (env : Env) (offer : SessionOffer) (now : ℤ) (built : Option Session) :
    Alike plan a (acceptOffer env s offer now built).2 (acceptOffer env t offer now built).2 := by
  obtain ⟨byIndex, session, cache, pending, rfl⟩ := h.eq
  -- The checks of an offer read the CRL and nothing else of the state.
  have hcheck : checkOffer env { s with
      table := ⟨byIndex, s.table.byId⟩, session, policy := ⟨s.policy.engines, cache⟩,
      pending } offer now = checkOffer env s offer now := rfl
  unfold Gateway.acceptOffer
  rw [hcheck]
  split
  · exact h
  rename_i id cert _
  split
  · exact h
  rename_i session
  have hinsert := h.insertSession ⟨id, cert, session.current.localIndex⟩ session
  simp only
  split
  · exact hinsert
  · exact { hinsert with routes := rfl, metas := rfl }

theorem Alike.applyRoutes (env : Env) (update : RouteUpdate) :
    Alike plan a (applyRoutes env s update) (applyRoutes env t update) := by
  obtain ⟨byIndex, session, cache, pending, rfl⟩ := h.eq
  unfold Gateway.applyRoutes
  split
  · exact h
  simp only
  split
  · exact { h with routes := rfl }
  · exact { h with routes := rfl }

theorem Alike.applyCrl (verified : Option Crl) :
    Alike plan a (applyCrl s verified) (applyCrl t verified) := by
  obtain ⟨byIndex, session, cache, pending, rfl⟩ := h.eq
  unfold Gateway.applyCrl
  split
  · exact h
  rename_i crl
  split
  · exact h
  -- Both runs close the same sessions, one by one.
  have hclose : ∀ (revoked : List (Sigma fun _ : SessionId => SessionMeta)) {s t : GatewayState},
      Alike plan a s t → Alike plan a (revoked.foldl (fun s e => s.closeSession e.1) s)
        (revoked.foldl (fun s e => s.closeSession e.1) t) := by
    intro revoked
    induction revoked with
    | nil => exact fun h => h
    | cons e revoked ih => exact fun h => ih (h.closeSession e.1)
  exact hclose _ { h with crl := rfl }

theorem Alike.applySnapshot (env : Env) (data : Option SnapshotData) (now : ℤ) :
    Alike plan a (applySnapshot env s data now) (applySnapshot env t data now) := by
  obtain ⟨byIndex, session, cache, pending, rfl⟩ := h.eq
  unfold Gateway.applySnapshot
  split
  · exact h
  simp only [CedarFlowPolicy.applySnapshot, CedarFlowPolicy.engineFor]
  split
  · exact { h with engines := rfl, cache := fun _ _ => rfl }
  · exact { h with engines := rfl, cache := h.cache }

theorem Alike.applyDeviceUpdate (env : Env) (tenant : TenantId)
    (device : DeviceId) (attrs : DeviceAttrs) (now : ℤ) :
    Alike plan a (applyDeviceUpdate env s tenant device attrs now)
      (applyDeviceUpdate env t tenant device attrs now) := by
  obtain ⟨byIndex, session, cache, pending, rfl⟩ := h.eq
  have hpolicy : Alike plan a
      { s with policy := s.policy.patchDevice env.tz tenant device attrs now }
      { s with
        table := ⟨byIndex, s.table.byId⟩, session, pending
        policy := s.policy.patchDevice env.tz tenant device attrs now } :=
    { h with engines := rfl, cache := fun _ _ => rfl }
  unfold Gateway.applyDeviceUpdate
  simp only
  split
  · exact hpolicy
  split
  · exact hpolicy
  · exact { hpolicy.unroute _ with blocked := rfl }

theorem Alike.controlStep (env : Env) (e : ControlEvent) :
    Alike plan a (controlStep env s e) (controlStep env t e) := by
  cases e with
  | offer offer now built => exact h.acceptOffer env offer now built
  | close id => exact h.closeSession id
  | crl verified => exact h.applyCrl verified
  | routes update => exact h.applyRoutes env update
  | policy data now => exact h.applySnapshot env data now
  | deviceUpdate tenant device attrs now => exact h.applyDeviceUpdate env tenant device attrs now

end

end

/-! ### Events of the hidden tenant -/

section
variable {plan : Plan} {a : TenantId} {s t : GatewayState}

section
variable (h : Alike plan a s t)
include h

theorem Alike.hideReceive {id : SessionId} (hid : plan.owner id = a)
    (packet : Bytes) : Alike plan a (Gateway.receiveIp s id packet) t := by
  unfold Gateway.receiveIp
  split
  · exact h
  rename_i ctx hctx
  obtain ⟨hengines, hcache⟩ := allow_frame s.policy ctx
  -- The decision touches the cache at a key of this session only.
  have hcache' : ∀ key : FlowKey, plan.owner key.session ≠ a →
      (s.policy.allow ctx).2.cache key = t.policy.cache key := by
    intro key hkey
    have hne : key ≠ ctx.key := by
      rintro rfl
      exact hkey (by rw [FlowContext.key, (contextOf_cases hctx).1, hid])
    rw [hcache key hne, h.cache key hkey]
  simp only
  split
  · exact { h with engines := hengines.trans h.engines, cache := hcache' }
  exact { h with
    engines := hengines.trans h.engines
    cache := hcache'
    pending := update_hidden h.pending hid _ }

theorem Alike.hideTunnel {id : SessionId} (hid : plan.owner id = a) (session : Session) :
    Alike plan a (s.changeSession id session) t := by
  unfold GatewayState.changeSession
  split
  · exact h
  · exact { h with session := update_hidden h.session hid session }

theorem Alike.hideRelay (env : Env) {target : SessionId}
    (hid : plan.owner target = a) (packet : Bytes) (socketOk : Bool) :
    Alike plan a (Gateway.relay env s target packet socketOk).1 t ∧
      (Gateway.relay env s target packet socketOk).2.filter (plan.visible a) = [] := by
  unfold Gateway.relay
  split
  · exact ⟨h, rfl⟩
  · exact ⟨{ h with session := update_hidden h.session hid _ }, by simp [Plan.visible, hid]⟩

theorem Alike.hideForward (hinv : Inv plan s) (env : Env) {id : SessionId}
    (hid : plan.owner id = a) (socketOk : Bool) :
    Alike plan a (Gateway.forwardIp env s id socketOk).1 t ∧
      (Gateway.forwardIp env s id socketOk).2.filter (plan.visible a) = [] := by
  unfold Gateway.forwardIp
  split
  · exact ⟨h, rfl⟩
  rename_i p hp
  have hclear : Alike plan a { s with pending := update s.pending id none } t :=
    { h with pending := update_hidden h.pending hid none }
  simp only
  split
  · rename_i target hlookup
    have htarget : plan.owner target = a :=
      ((hinv.pending id p hp).2 _ (hinv.home_of_lookup hlookup)).trans hid
    split
    · exact hclear.hideRelay env htarget _ socketOk
    · exact ⟨hclear, rfl⟩
  · refine ⟨hclear, ?_⟩
    split <;> rfl

end

end

/-! ### Isolation -/

theorem unwinding (env : Env) (plan : Plan) (a : TenantId) :
    Unwinding (step env) (outputs env) (Inv plan) (Separated env plan) (plan.hidden a)
      (plan.visible a) (Alike plan a) where
  inv h hsep := h.step hsep
  symm h := h.symm
  silent {s e} hinv _ hhidden := by
    cases e with
    | forward id socketOk =>
      exact ((Alike.refl plan a s).hideForward hinv env (of_decide_eq_true hhidden) socketOk).2
    | ip | tunnel => rfl
    | tun | closed | control => cases hhidden
  hide {s t e} hinv _ hhidden h := by
    cases e with
    | ip id packet => exact h.hideReceive (of_decide_eq_true hhidden) packet
    | forward id socketOk =>
      exact (h.hideForward hinv env (of_decide_eq_true hhidden) socketOk).1
    | tunnel id session => exact h.hideTunnel (of_decide_eq_true hhidden) session
    | tun | closed | control => cases hhidden
  same {s t e} _ _ _ _ hhidden h := by
    cases e with
    | ip id packet => exact ⟨h.receiveIp (of_decide_eq_false hhidden) packet, rfl⟩
    | forward id socketOk => exact h.forwardIp env (of_decide_eq_false hhidden) socketOk
    | tun packet socketOk => exact h.ingress env packet socketOk
    | tunnel id session => exact ⟨h.changeSession id session, rfl⟩
    | closed id => exact ⟨h.closeSession id, rfl⟩
    | control e =>
      refine ⟨?_, rfl⟩
      simp only [step, handle, h.blocked]
      split
      · exact h
      · exact h.controlStep env e

/-- Tenants stay apart in every run whose steps are separated: a packet received on a session
is only sent on sessions of the same tenant, and two runs that differ in the packets on the
sessions of tenant `a` give the same packets to the sessions of all others. -/
theorem tenant_isolation_of_plan {env : Env} {plan : Plan} {crl : Crl} {prefixes : List IpNet}
    {events : List Event}
    (hsep : Guarded (step env) (Separated env plan) (.bootstrap crl prefixes) events) :
    (∀ id socketOk target packet ok,
      .send target packet ok
          ∈ outputs env (run (step env) (.bootstrap crl prefixes) events) (.forward id socketOk) →
        ∃ p, (run (step env) (.bootstrap crl prefixes) events).pending id = some p ∧
          p.packet = packet ∧
          ∀ m, (run (step env) (.bootstrap crl prefixes) events).sessionsMeta.lookup target
              = some m → m.tenant = p.ctx.tenant) ∧
    ∀ a events', Guarded (step env) (Separated env plan) (.bootstrap crl prefixes) events' →
      events.filter (fun e => !plan.hidden a e) = events'.filter (fun e => !plan.hidden a e) →
        (trace (step env) (outputs env) (.bootstrap crl prefixes) events).filter (plan.visible a)
          = (trace (step env) (outputs env) (.bootstrap crl prefixes) events').filter
              (plan.visible a) := by
  have hstart := inv_bootstrap plan crl prefixes
  have hinv : Inv plan (run (step env) (.bootstrap crl prefixes) events) :=
    hsep.invariant (fun s e h hG => h.step hG) hstart
  constructor
  · intro id socketOk target packet ok hout
    obtain ⟨p, hp, hpacket, howner⟩ := hinv.owner_of_forward hout
    exact ⟨p, hp, hpacket, fun m hm => (hinv.metas target m hm).trans howner⟩
  · intro a events' hsep' heq
    exact (unwinding env plan a).trace_eq hstart hstart hsep hsep' (.refl plan a _) heq

/-! ### Two tenants on one gateway -/

/-- Stand-ins for the parsers: certificate `[d, t]` is for device `d` of tenant `t`, and the
texts are those of the runs below. Every certificate is trusted. -/
def demoEnv : Env where
  certificate
    | [d, t] => some ⟨BitVec.ofNat 128 d.toNat, if t = 7 then "seven" else "eight",
        BitVec.ofNat 128 d.toNat⟩
    | _ => none
  verify _ _ := true
  tenantId text := if text = "seven" then some 7 else if text = "eight" then some 8 else none
  ipNet _ := none
  ipAddr text :=
    if text = "100.64.0.1" then some (.v4 0x64400001)
    else if text = "100.64.0.2" then some (.v4 0x64400002) else none
  tz := utc
  aead := transparentAead

def demoOffer (id : ℕ) (device tenant : UInt8) (overlay : String) : SessionOffer :=
  ⟨Lib.BigEndian.beBytes 16 id, some [device, tenant], 1, 5, overlay, "", []⟩

def demoSession (id : SessionId) (peer : Option SocketAddr) : Session :=
  .new id .responder .aes256Gcm ⟨1, 2, 3, 0⟩ 20 5 peer 0

def udpPacket (src dst : UInt8) : Bytes :=
  [0x45, 0, 0, 20, 0, 0, 0, 0, 64, 17, 0, 0, 100, 64, 0, src, 100, 64, 0, dst]

def twoTenants : List Event :=
  [.control (.offer (demoOffer 1 1 7 "100.64.0.1") 0 (some (demoSession 1 none))),
    .control (.offer (demoOffer 2 2 8 "100.64.0.2") 0 (some (demoSession 2 none))),
    .tunnel 2 (demoSession 2 (some ⟨.v4 0xC0000209, 4500⟩))]

def crossing : List Event := [.ip 1 (udpPacket 1 2), .forward 1 true]

def demoStart : GatewayState := .bootstrap ⟨0, []⟩ []

def demoPlan : Plan where
  owner id := if id = 2 then 8 else 7
  home ip :=
    if ip = .v4 0x64400001 then some 7 else if ip = .v4 0x64400002 then some 8 else none

/-- Without policies, a packet of tenant 7 goes out on the session of tenant 8. So the sessions
of other tenants see whether it was sent. -/
theorem packet_crosses_tenants :
    let s := run (step demoEnv) demoStart (twoTenants ++ [.ip 1 (udpPacket 1 2)])
    (s.pending 1).map (·.ctx.tenant) = some 7 ∧
      .send 2 (udpPacket 1 2) true ∈ outputs demoEnv s (.forward 1 true) ∧
      (s.sessionsMeta.lookup 2).map (·.tenant) = some 8 ∧
      (trace (step demoEnv) (outputs demoEnv) demoStart (twoTenants ++ crossing)).filter
          (demoPlan.visible 7)
        ≠ (trace (step demoEnv) (outputs demoEnv) demoStart twoTenants).filter
          (demoPlan.visible 7) := by
  decide +kernel

theorem eq_of_contains_host {addr ip : IpAddr} (h : (IpNet.host addr).contains ip = true) :
    ip = addr := by
  cases addr with
  | v4 x =>
    cases ip with
    | v4 y =>
      simp only [IpNet.host, IpNet.contains, IpAddr.width, netLow_full, netHigh_full,
        Bool.and_eq_true, decide_eq_true_eq] at h
      rw [BitVec.le_antisymm h.2 h.1]
    | v6 y => cases h
  | v6 x =>
    cases ip with
    | v4 y => cases h
    | v6 y =>
      simp only [IpNet.host, IpNet.contains, IpAddr.width, netLow_full, netHigh_full,
        Bool.and_eq_true, decide_eq_true_eq] at h
      rw [BitVec.le_antisymm h.2 h.1]

theorem separated_demoOffer {s : GatewayState} {offer : SessionOffer} {now : ℤ}
    {built : Option Session} (id : SessionId) (cert : Certificate) (ip : IpAddr) {tenant : TenantId}
    (hcheck : checkOffer demoEnv s offer now = .ok (id, cert))
    (htenant : demoEnv.tenantId cert.tenantId = some tenant) (howner : demoPlan.owner id = tenant)
    (hroutes : (metaOf demoEnv offer cert tenant).routes = [.host ip])
    (hhome : demoPlan.home ip = some tenant) :
    Separated demoEnv demoPlan s (.control (.offer offer now built)) := by
  intro id' cert' tenant' hcheck' htenant'
  cases hcheck.symm.trans hcheck'
  cases htenant.symm.trans htenant'
  refine ⟨howner, fun net hnet ip' hip' => ?_⟩
  rw [hroutes, List.mem_singleton] at hnet
  subst hnet
  rw [eq_of_contains_host hip', hhome]

/-- Tenant 7 has a policy that does not allow UDP, and the kernel has a packet for device 2. -/
def guardedDay : List Event :=
  twoTenants ++ [.control (.policy (some (officeSnapshot sshSpec)) 3600), .tun (udpPacket 9 2) true]

theorem separated_guardedDay :
    Guarded (step demoEnv) (Separated demoEnv demoPlan) demoStart guardedDay := by
  refine ⟨?_, ?_, trivial, trivial, trivial, trivial⟩
  · exact separated_demoOffer 1 ⟨1, "seven", 1⟩ (.v4 0x64400001)
      (by decide +kernel) rfl rfl (by decide +kernel) rfl
  · exact separated_demoOffer 2 ⟨2, "eight", 2⟩ (.v4 0x64400002)
      (by decide +kernel) rfl rfl (by decide +kernel) rfl

/-- With that policy, what session 2 receives does not depend on the packet of device 1. -/
theorem tenants_isolated_by_policy :
    (trace (step demoEnv) (outputs demoEnv) demoStart guardedDay).filter (demoPlan.visible 7)
        = [.send 2 (udpPacket 9 2) true] ∧
      (trace (step demoEnv) (outputs demoEnv) demoStart (guardedDay ++ crossing)).filter
          (demoPlan.visible 7)
        = (trace (step demoEnv) (outputs demoEnv) demoStart guardedDay).filter
          (demoPlan.visible 7) := by
  have hdenied : ((contextOf (run (step demoEnv) demoStart guardedDay) 1 (udpPacket 1 2)).all
      fun ctx => !((run (step demoEnv) demoStart guardedDay).policy.allow ctx).1.allow) = true := by
    decide +kernel
  have hcrossing : Guarded (step demoEnv) (Separated demoEnv demoPlan) demoStart
      (guardedDay ++ crossing) := by
    refine guarded_append.mpr
      ⟨separated_guardedDay, fun ctx hctx tenant _ _ => ?_, trivial, trivial⟩
    rw [hctx] at hdenied
    simpa using hdenied
  have hhidden : crossing.filter (fun e => !demoPlan.hidden 7 e) = [] := rfl
  exact ⟨by decide +kernel, (tenant_isolation_of_plan hcrossing).2 7 guardedDay
    separated_guardedDay (by rw [List.filter_append, hhidden, List.append_nil])⟩

end Avon.Gateway
