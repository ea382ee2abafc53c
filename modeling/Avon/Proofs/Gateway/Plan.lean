import Avon.Gateway.Dataplane
import Avon.Lib.Table

/-!
# Tenants that share a gateway

One route table serves all tenants, and `handle_ip` does not look at the tenant of the session it
sends on. `Separated` is a condition on single steps under which tenants stay apart.
-/

set_option autoImplicit false

namespace Avon.Gateway

open Avon.Crypto Avon.Lib Avon.Tunnel Avon.Policy Avon.Proto RouteTable

/-- Which tenant has a session, and which tenant has an address. -/
structure Plan where
  owner : SessionId → TenantId
  home : IpAddr → Option TenantId

/-- All addresses of the network are at home with the tenant. -/
def Plan.Inside (plan : Plan) (tenant : TenantId) (net : IpNet) : Prop :=
  ∀ ip, net.contains ip = true → plan.home ip = some tenant

/-- The condition on steps. An accepted offer is for a session of its certificate's tenant,
with routes inside that tenant's addresses. Added routes are inside the addresses of the
session's tenant. A packet to the addresses of another tenant is denied. -/
def Separated (env : Env) (plan : Plan) (s : GatewayState) : Event → Prop
  | .ip id packet => ∀ ctx, contextOf s id packet = some ctx →
      ∀ tenant, plan.home ctx.flow.dst = some tenant → tenant ≠ ctx.tenant →
        (s.policy.allow ctx).1.allow = false
  | .control (.offer offer now _) => ∀ id cert tenant,
      checkOffer env s offer now = .ok (id, cert) → env.tenantId cert.tenantId = some tenant →
        plan.owner id = tenant ∧ ∀ net ∈ (metaOf env offer cert tenant).routes,
          plan.Inside tenant net
  | .control (.routes update) => update.remove = false →
      ∀ id, uuidOf update.sessionId = some id →
        ∀ net ∈ update.cidrs.filterMap env.ipNet, plan.Inside (plan.owner id) net
  | _ => True

/-! ### The invariant -/

/-- Routes, metadata and packets on their way keep to the plan. -/
structure Inv (plan : Plan) (s : GatewayState) : Prop where
  routes : ∀ r ∈ s.routes.routes, plan.Inside (plan.owner r.2) r.1
  metas : ∀ id m, s.sessionsMeta.lookup id = some m → m.tenant = plan.owner id
  pending : ∀ id p, s.pending id = some p → p.ctx.tenant = plan.owner id ∧
    ∀ tenant, plan.home p.ctx.flow.dst = some tenant → tenant = plan.owner id

theorem inv_bootstrap (plan : Plan) (crl : Crl) (overlayPrefixes : List IpNet) :
    Inv plan (.bootstrap crl overlayPrefixes) where
  routes r hr := nomatch hr
  metas id m hm := by
    rw [GatewayState.bootstrap, AList.lookup_empty] at hm
    cases hm
  pending id p hp := nomatch hp

/-- `s'` has no route, metadata or packet that `s` has not. -/
structure Shrinks (s s' : GatewayState) : Prop where
  routes : ∀ r ∈ s'.routes.routes, r ∈ s.routes.routes
  metas : ∀ id m, s'.sessionsMeta.lookup id = some m → s.sessionsMeta.lookup id = some m
  pending : ∀ id p, s'.pending id = some p → s.pending id = some p

theorem Shrinks.refl (s : GatewayState) : Shrinks s s :=
  ⟨fun _ h => h, fun _ _ h => h, fun _ _ h => h⟩

variable {s : GatewayState} {plan : Plan} {id : SessionId} {t : RouteTable} {nets : List IpNet}

theorem Shrinks.trans {s' s'' : GatewayState} (h : Shrinks s s') (h' : Shrinks s' s'') :
    Shrinks s s'' :=
  ⟨fun r hr => h.routes r (h'.routes r hr), fun id m hm => h.metas id m (h'.metas id m hm),
    fun id p hp => h.pending id p (h'.pending id p hp)⟩

variable {r : IpNet × SessionId} {s' : GatewayState} {packet : Bytes}

theorem Inv.shrinks (h : Inv plan s) (hs : Shrinks s s') : Inv plan s' :=
  ⟨fun r hr => h.routes r (hs.routes r hr), fun id m hm => h.metas id m (hs.metas id m hm),
    fun id p hp => h.pending id p (hs.pending id p hp)⟩

theorem Inv.home_of_lookup (h : Inv plan s) {dst : IpAddr}
    {target : SessionId} (hlookup : s.routes.lookup dst = some target) :
    plan.home dst = some (plan.owner target) := by
  obtain ⟨net, hmem, hcontains⟩ := mem_of_lookup hlookup
  exact h.routes _ hmem dst hcontains

theorem byId_insertSession (s : GatewayState) (h : Handle) (session : Session) :
    (s.insertSession h session).table.byId = Function.update s.table.byId h.id (some h) := rfl

theorem byId_unroute (s : GatewayState) (id : SessionId) :
    (s.unroute id).table.byId = Function.update s.table.byId id none :=
  SessionTable.byId_remove _ s.table id

theorem shrinks_unroute (s : GatewayState) (id : SessionId) : Shrinks s (s.unroute id) :=
  ⟨fun _ => mem_of_mem_removeSession, fun _ _ h => h, fun _ _ h => h⟩

theorem lookup_of_lookup_erase {α β : Type} [DecidableEq α] {m : AList fun _ : α => β} {a b : α}
    {v : β} (h : (m.erase b).lookup a = some v) : m.lookup a = some v := by
  by_cases hab : a = b
  · rw [hab, AList.lookup_erase] at h
    cases h
  · rwa [AList.lookup_erase_ne hab] at h

theorem shrinks_closeSession (s : GatewayState) (id : SessionId) :
    Shrinks s (s.closeSession id) := by
  unfold GatewayState.closeSession
  split
  · exact .refl s
  · exact ⟨(shrinks_unroute s id).routes, fun _ _ h => lookup_of_lookup_erase h, fun _ _ h => h⟩

theorem shrinks_applyCrl (s : GatewayState) (verified : Option Crl) :
    Shrinks s (applyCrl s verified) := by
  unfold applyCrl
  split
  · exact .refl s
  split
  · exact .refl s
  -- The sessions are closed one by one.
  refine List.foldlRecOn (motive := Shrinks s) _ _ ⟨fun _ h => h, fun _ _ h => h, fun _ _ h => h⟩ ?_
  exact fun s' hs' e _ => hs'.trans (shrinks_closeSession s' e.1)

theorem shrinks_applyDeviceUpdate (env : Env) (s : GatewayState) (tenant : TenantId)
    (device : DeviceId) (attrs : DeviceAttrs) (now : ℤ) :
    Shrinks s (applyDeviceUpdate env s tenant device attrs now) := by
  unfold applyDeviceUpdate
  simp only
  split
  · exact ⟨fun _ h => h, fun _ _ h => h, fun _ _ h => h⟩
  split
  · exact ⟨fun _ h => h, fun _ _ h => h, fun _ _ h => h⟩
  · exact ⟨fun _ => mem_of_mem_removeSession, fun _ _ h => h, fun _ _ h => h⟩

/-- What forwarding and the tunnels do: sessions and their indexes may change, and packets leave. -/
structure Forwards (s s' : GatewayState) : Prop where
  crl : s'.crl = s.crl
  metas : s'.sessionsMeta = s.sessionsMeta
  routes : s'.routes = s.routes
  byId : s'.table.byId = s.table.byId
  policy : s'.policy = s.policy
  pending : ∀ id p, s'.pending id = some p → s.pending id = some p

theorem Forwards.refl (s : GatewayState) : Forwards s s :=
  ⟨rfl, rfl, rfl, rfl, rfl, fun _ _ h => h⟩

theorem Forwards.trans {s'' : GatewayState} (h : Forwards s s') (h' : Forwards s' s'') :
    Forwards s s'' where
  crl := h'.crl.trans h.crl
  metas := h'.metas.trans h.metas
  routes := h'.routes.trans h.routes
  byId := h'.byId.trans h.byId
  policy := h'.policy.trans h.policy
  pending id p hp := h.pending id p (h'.pending id p hp)

theorem Forwards.shrinks (h : Forwards s s') : Shrinks s s' :=
  ⟨fun _ hr => h.routes ▸ hr, fun _ _ hm => h.metas ▸ hm, h.pending⟩

theorem forwards_changeSession (s : GatewayState) (id : SessionId) (session : Session) :
    Forwards s (s.changeSession id session) := by
  unfold GatewayState.changeSession
  split
  · exact .refl s
  · exact ⟨rfl, rfl, rfl, rfl, rfl, fun _ _ h => h⟩

theorem forwards_relay (env : Env) (s : GatewayState) (target : SessionId) (packet : Bytes)
    (socketOk : Bool) : Forwards s (relay env s target packet socketOk).1 := by
  unfold relay
  split
  · exact .refl s
  · exact ⟨rfl, rfl, rfl, rfl, rfl, fun _ _ h => h⟩

theorem forwards_forwardIp (env : Env) (s : GatewayState) (id : SessionId) (socketOk : Bool) :
    Forwards s (forwardIp env s id socketOk).1 := by
  unfold forwardIp
  split
  · exact .refl s
  rename_i p hp
  have hclear : Forwards s { s with pending := Function.update s.pending id none } := by
    refine ⟨rfl, rfl, rfl, rfl, rfl, fun id' p' h => ?_⟩
    rcases update_eq_some.mp h with ⟨-, ⟨⟩⟩ | ⟨-, h⟩
    exact h
  simp only
  split
  · split
    · exact hclear.trans (forwards_relay env _ _ p.packet socketOk)
    · exact hclear
  · exact hclear

theorem forwards_ingress (env : Env) (s : GatewayState) (packet : Bytes) (socketOk : Bool) :
    Forwards s (ingress env s packet socketOk).1 := by
  unfold ingress
  split
  · exact .refl s
  split
  · exact .refl s
  · exact forwards_relay env s _ packet socketOk

theorem contextOf_cases {ctx : FlowContext} (h : contextOf s id packet = some ctx) :
    ctx.session = id ∧ ∃ m, s.sessionsMeta.lookup id = some m ∧ ctx.tenant = m.tenant := by
  unfold contextOf at h
  split at h
  · cases h
  split at h
  · cases h
  rename_i m hm
  split at h
  · cases h
  · cases h
    exact ⟨rfl, m, hm, rfl⟩

theorem mem_insertRoutes (h : r ∈ (insertRoutes t nets id).routes) :
    r ∈ t.routes ∨ ∃ net ∈ nets, r = (toIpn net, id) := by
  induction nets generalizing t with
  | nil => exact .inl h
  | cons net nets ih =>
    rcases ih h with hmem | ⟨net', hnet', rfl⟩
    · rcases mem_of_mem_insert hmem with rfl | hmem
      · exact .inr ⟨net, List.mem_cons_self, rfl⟩
      · exact .inl hmem
    · exact .inr ⟨net', List.mem_cons_of_mem _ hnet', rfl⟩

theorem Plan.Inside.toIpn {tenant : TenantId} {net : IpNet}
    (h : plan.Inside tenant net) : plan.Inside tenant (toIpn net) :=
  fun ip hip => h ip (contains_toIpn net ip ▸ hip)

theorem inside_insertRoutes
    (ht : ∀ r ∈ t.routes, plan.Inside (plan.owner r.2) r.1)
    (hnets : ∀ net ∈ nets, plan.Inside (plan.owner id) net) :
    ∀ r ∈ (insertRoutes t nets id).routes, plan.Inside (plan.owner r.2) r.1 := by
  intro r hr
  rcases mem_insertRoutes hr with hmem | ⟨net, hnet, rfl⟩
  · exact ht r hmem
  · exact (hnets net hnet).toIpn

theorem mem_of_mem_foldl_remove (h : r ∈ (nets.foldl remove t).routes) : r ∈ t.routes := by
  induction nets generalizing t with
  | nil => exact h
  | cons net nets ih => exact mem_of_mem_remove (ih h)

section
variable {env : Env}

section
variable (h : Inv plan s)
include h

theorem Inv.receiveIp {id : SessionId} {packet : Bytes}
    (hsep : Separated env plan s (.ip id packet)) : Inv plan (receiveIp s id packet) := by
  unfold Gateway.receiveIp
  split
  · exact h
  rename_i ctx hctx
  obtain ⟨-, m, hm, htenant⟩ := contextOf_cases hctx
  have howner : ctx.tenant = plan.owner id := htenant.trans (h.metas id m hm)
  simp only
  split
  · exact ⟨h.routes, h.metas, h.pending⟩
  rename_i hallow
  refine ⟨h.routes, h.metas, fun id' p hp => ?_⟩
  rcases update_eq_some.mp hp with ⟨rfl, ⟨⟩⟩ | ⟨-, hp⟩
  · refine ⟨howner, fun tenant hhome => ?_⟩
    by_contra hne
    exact hallow (by rw [hsep ctx hctx tenant hhome (howner ▸ hne)]; rfl)
  · exact h.pending id' p hp

theorem Inv.acceptOffer {offer : SessionOffer} {now : ℤ} {built : Option Session}
    (hsep : Separated env plan s (.control (.offer offer now built))) :
    Inv plan (acceptOffer env s offer now built).2 := by
  unfold Gateway.acceptOffer
  split
  · exact h
  rename_i id cert hcheck
  split
  · exact h
  simp only
  split
  · exact ⟨h.routes, h.metas, h.pending⟩
  rename_i tenant htenant
  obtain ⟨howner, hroutes⟩ := hsep id cert tenant hcheck htenant
  refine ⟨inside_insertRoutes h.routes (howner ▸ hroutes), fun id' m hm => ?_, h.pending⟩
  by_cases heq : id' = id
  · subst heq
    simp only [AList.lookup_insert, Option.some.injEq] at hm
    rw [← hm]
    exact howner.symm
  · simp only [AList.lookup_insert_ne heq] at hm
    exact h.metas id' m hm

theorem Inv.applyRoutes {update : RouteUpdate}
    (hsep : Separated env plan s (.control (.routes update))) :
    Inv plan (applyRoutes env s update) := by
  unfold Gateway.applyRoutes
  split
  · exact h
  rename_i id hid
  simp only
  split
  · exact ⟨fun r hr => h.routes r (mem_of_mem_foldl_remove hr), h.metas, h.pending⟩
  · rename_i hadd
    exact ⟨inside_insertRoutes h.routes (hsep (by simpa using hadd) id hid), h.metas, h.pending⟩

theorem Inv.controlStep {e : ControlEvent}
    (hsep : Separated env plan s (.control e)) : Inv plan (controlStep env s e) := by
  cases e with
  | offer offer now built => exact h.acceptOffer hsep
  | close id => exact h.shrinks (shrinks_closeSession s id)
  | crl verified => exact h.shrinks (shrinks_applyCrl s verified)
  | routes update => exact h.applyRoutes hsep
  | policy data now =>
    cases data with
    | none => exact h
    | some data => exact ⟨h.routes, h.metas, h.pending⟩
  | deviceUpdate tenant device attrs now =>
    exact h.shrinks (shrinks_applyDeviceUpdate env s tenant device attrs now)

theorem Inv.step {e : Event} (hsep : Separated env plan s e) : Inv plan (step env s e) := by
  cases e with
  | ip id packet => exact h.receiveIp hsep
  | forward id socketOk => exact h.shrinks (forwards_forwardIp env s id socketOk).shrinks
  | tun packet socketOk => exact h.shrinks (forwards_ingress env s packet socketOk).shrinks
  | tunnel id session => exact h.shrinks (forwards_changeSession s id session).shrinks
  | closed id => exact h.shrinks (shrinks_closeSession s id)
  | control e =>
    simp only [Gateway.step, handle]
    split
    · exact h
    · exact h.controlStep hsep

end

end

/-! ### No packet crosses -/

theorem Inv.owner_of_forward {env : Env} {plan : Plan} {s : GatewayState} (h : Inv plan s)
    {id target : SessionId} {socketOk ok : Bool}
    (hout : .send target packet ok ∈ (forwardIp env s id socketOk).2) :
    ∃ p, s.pending id = some p ∧ p.packet = packet ∧ plan.owner target = p.ctx.tenant := by
  unfold forwardIp at hout
  split at hout
  · cases hout
  rename_i p hp
  obtain ⟨howner, hhome⟩ := h.pending id p hp
  simp only at hout
  split at hout
  · rename_i found hlookup
    have htenant := hhome _ (h.home_of_lookup hlookup)
    split at hout
    · unfold relay at hout
      split at hout
      · cases hout
      · cases List.mem_singleton.mp hout
        exact ⟨p, hp, rfl, htenant.trans howner.symm⟩
    · cases hout
  · split at hout
    · cases List.mem_singleton.mp hout
    · cases hout

end Avon.Gateway
