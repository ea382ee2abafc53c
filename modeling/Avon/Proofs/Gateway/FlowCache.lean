import Avon.Proofs.Gateway.Isolation

/-!
# When a cached decision is the decision

A decision is cached under the session, the address, the protocol and the port of its flow, and made
for the `parties` of that key. Policy changes empty the cache, but sessions and routes change
without that. `Settled`: no key with a cached decision gets other parties.
-/

set_option autoImplicit false

namespace Avon.Gateway

open Avon.Crypto Avon.Lib Avon.Tunnel Avon.Policy Avon.Lib.Run

/-- Whom a decision is about, besides what its key says. -/
structure Parties where
  tenant : TenantId
  device : DeviceId
  destinationDevice : Option DeviceId
  deriving DecidableEq, Repr

def Parties.request (p : Parties) (k : FlowKey) : DecisionRequest where
  device := p.device
  destination := match p.destinationDevice with
    | some d => .device d
    | none => .ip k.dst
  dstIp := k.dst
  protocol := protocolOf k.protocol
  dstPort := k.dstPort
  admission := false

def parties (s : GatewayState) (k : FlowKey) : Option Parties :=
  (s.sessionsMeta.lookup k.session).map fun m =>
    ⟨m.tenant, m.deviceId, (s.routes.lookup k.dst).bind fun target =>
      (s.sessionsMeta.lookup target).map (·.deviceId)⟩

def CedarFlowPolicy.uncached (p : CedarFlowPolicy) : CedarFlowPolicy :=
    { p with cache := fun _ => none }

/-- For every packet, the cache gives the verdict that would be given without it. -/
def Transparent (s : GatewayState) : Prop :=
  ∀ id packet ctx, contextOf s id packet = some ctx →
    (s.policy.allow ctx).1.allow = (s.policy.uncached.allow ctx).1.allow

/-- What a step leaves in the cache is about the parties it was about before, or its session is
closed. -/
def Settled (env : Env) (s : GatewayState) (e : Event) : Prop :=
  ∀ k, ((step env s e).policy.cache k).isSome →
    parties (step env s e) k = none ∨ parties (step env s e) k = parties s k

/-- Every cached decision of the current version is the one of the engine, for the given
parties. -/
def Coherent (p : CedarFlowPolicy) (who : FlowKey → Option Parties) : Prop :=
  ∀ k c, p.cache k = some c → ∀ q, who k = some q →
    ∀ engine, p.engines q.tenant = some engine → engine.hasPolicies = true →
      c.version = engine.version → c.allow = (engine.decide (q.request k)).allow

/-! ### What a step does to the cache -/

section Policy

variable {p : CedarFlowPolicy} {who who' : FlowKey → Option Parties}

theorem coherent_of_cleared (h : ∀ k, p.cache k = none) : Coherent p who := by
  intro k c hc
  rw [h k] at hc
  cases hc

theorem Coherent.change (h : Coherent p who)
    (hwho : ∀ k, (p.cache k).isSome → who' k = none ∨ who' k = who k) : Coherent p who' := by
  intro k c hc q hq
  rcases hwho k (by rw [hc]; rfl) with hnone | hsame
  · rw [hnone] at hq
    cases hq
  · exact h k c hc q (hsame ▸ hq)

theorem Coherent.applySnapshot (h : Coherent p who) (tz : TzDb) (tenant : TenantId)
    (data : SnapshotData) (now : ℤ) : Coherent (p.applySnapshot tz tenant data now) who := by
  unfold CedarFlowPolicy.applySnapshot
  split
  · exact coherent_of_cleared fun _ => rfl
  intro k c hc q hq engine hengine hpolicies
  by_cases htenant : q.tenant = tenant
  · simp only [htenant, Function.update_self, Option.some.injEq] at hengine
    subst hengine
    cases hold : p.engines tenant with
    | none =>
      simp only [CedarFlowPolicy.engineFor, hold, Option.getD_none] at hpolicies
      cases hpolicies
    | some engine =>
      have hfor : p.engineFor tenant = engine := by
        rw [CedarFlowPolicy.engineFor, hold]
        rfl
      rw [hfor] at hpolicies ⊢
      exact h k c hc q hq engine (htenant ▸ hold) hpolicies
  · simp only [Function.update_of_ne htenant] at hengine
    exact h k c hc q hq engine hengine hpolicies

theorem Coherent.allow (h : Coherent p who) {ctx : FlowContext}
    (hctx : who ctx.key = some ⟨ctx.tenant, ctx.device, ctx.destinationDevice⟩) :
    Coherent (p.allow ctx).2 who := by
  unfold CedarFlowPolicy.allow
  split
  · exact h
  rename_i engine hengine
  split
  · exact h
  let decided : CachedDecision := ⟨(engine.decide ctx.request).allow, engine.version⟩
  have hfresh :
      Coherent { p with cache := Function.update p.cache ctx.key (some decided) } who := by
    intro k c hc q hq engine' hengine' hpolicies hversion
    rcases update_eq_some.mp hc with ⟨rfl, ⟨⟩⟩ | ⟨-, hc⟩
    · obtain rfl := Option.some.inj (hctx.symm.trans hq)
      cases hengine.symm.trans hengine'
      rfl
    · exact h k c hc q hq engine' hengine' hpolicies hversion
  dsimp only
  split
  · split
    · exact h
    · exact hfresh
  · exact hfresh

theorem Coherent.allow_eq (h : Coherent p who) {ctx : FlowContext}
    (hctx : who ctx.key = some ⟨ctx.tenant, ctx.device, ctx.destinationDevice⟩) :
    (p.allow ctx).1.allow = (p.uncached.allow ctx).1.allow := by
  unfold CedarFlowPolicy.allow
  have hengines : p.uncached.engines = p.engines := rfl
  rw [hengines]
  split
  · rfl
  rename_i engine hengine
  split
  · rfl
  rename_i hpolicies
  dsimp only
  split
  · rename_i cached hcached
    split
    · rename_i hversion
      exact h ctx.key cached hcached _ hctx engine hengine (by simpa using hpolicies) hversion
    · rfl
  · rfl

end Policy

section Steps

variable {s : GatewayState} {env : Env}

theorem parties_of_contextOf {id : SessionId} {packet : Bytes} {ctx : FlowContext}
    (h : contextOf s id packet = some ctx) :
    parties s ctx.key = some ⟨ctx.tenant, ctx.device, ctx.destinationDevice⟩ := by
  unfold contextOf at h
  split at h
  · cases h
  split at h
  · cases h
  rename_i m hm
  split at h
  · cases h
  · cases h
    simp only [parties, FlowContext.key, hm, Option.map_some]

@[simp] theorem closeSession_policy (id : SessionId) : (s.closeSession id).policy = s.policy := by
  unfold GatewayState.closeSession
  split <;> rfl

theorem applyCrl_policy (verified : Option Crl) : (applyCrl s verified).policy = s.policy := by
  unfold applyCrl
  split
  · rfl
  split
  · rfl
  · refine List.foldlRecOn (motive := fun s' => GatewayState.policy s' = s.policy) _ _ rfl ?_
    exact fun s' hs' e _ => (closeSession_policy e.1).trans hs'

theorem acceptOffer_policy (offer : SessionOffer) (now : ℤ) (built : Option Session) :
    (acceptOffer env s offer now built).2.policy = s.policy := by
  unfold acceptOffer
  split
  · rfl
  split
  · rfl
  dsimp only
  split <;> rfl

theorem applyRoutes_policy (update : RouteUpdate) :
    (applyRoutes env s update).policy = s.policy := by
  unfold applyRoutes
  split
  · rfl
  dsimp only
  split <;> rfl

theorem applyDeviceUpdate_policy (tenant : TenantId) (device : DeviceId) (attrs : DeviceAttrs)
    (now : ℤ) : (applyDeviceUpdate env s tenant device attrs now).policy =
      s.policy.patchDevice env.tz tenant device attrs now := by
  unfold applyDeviceUpdate
  dsimp only
  split
  · rfl
  · split <;> rfl

section
variable (h : Coherent s.policy (parties s))
include h

theorem Coherent.controlStep (e : ControlEvent) :
    Coherent (controlStep env s e).policy (parties s) := by
  cases e with
  | offer offer now built => rw [Gateway.controlStep, acceptOffer_policy]; exact h
  | close id => rw [Gateway.controlStep, closeSession_policy]; exact h
  | crl verified => rw [Gateway.controlStep, applyCrl_policy]; exact h
  | routes update => rw [Gateway.controlStep, applyRoutes_policy]; exact h
  | policy data now =>
    cases data with
    | none => exact h
    | some data => exact h.applySnapshot env.tz data.tenantId data now
  | deviceUpdate tenant device attrs now =>
    rw [Gateway.controlStep, applyDeviceUpdate_policy]
    exact coherent_of_cleared fun _ => rfl

/-- Whatever a step does to sessions and routes, the cache it leaves is coherent for the parties
before the step. -/
theorem Coherent.step_policy (e : Event) : Coherent (step env s e).policy (parties s) := by
  cases e with
  | ip id packet =>
    simp only [step, handle, receiveIp]
    split
    · exact h
    rename_i ctx hctx
    have hallow := h.allow (parties_of_contextOf hctx)
    split <;> exact hallow
  | forward id socketOk => exact (forwards_forwardIp env s id socketOk).policy ▸ h
  | tun packet socketOk => exact (forwards_ingress env s packet socketOk).policy ▸ h
  | tunnel id session => exact (forwards_changeSession s id session).policy ▸ h
  | closed id => rw [step, handle, closeSession_policy]; exact h
  | control e =>
    simp only [step, handle]
    split
    · exact h
    · exact h.controlStep e

theorem Coherent.step (e : Event) (hG : Settled env s e) :
    Coherent (step env s e).policy (parties (step env s e)) :=
  (h.step_policy e).change hG

end

theorem settled_ip (id : SessionId) (packet : Bytes) : Settled env s (.ip id packet) := by
  intro k _
  right
  simp only [step, handle, receiveIp]
  split
  · rfl
  · split <;> rfl

theorem cache_controlStep {k : FlowKey} (h : s.policy.cache k = none) (e : ControlEvent) :
    (controlStep env s e).policy.cache k = none := by
  cases e with
  | offer offer now built => rw [controlStep, acceptOffer_policy]; exact h
  | close id => rw [controlStep, closeSession_policy]; exact h
  | crl verified => rw [controlStep, applyCrl_policy]; exact h
  | routes update => rw [controlStep, applyRoutes_policy]; exact h
  | policy data now =>
    simp only [controlStep, applySnapshot]
    split
    · exact h
    simp only [CedarFlowPolicy.applySnapshot]
    split
    · rfl
    · exact h
  | deviceUpdate tenant device attrs now => rw [controlStep, applyDeviceUpdate_policy]; rfl

theorem cache_step_control (h : ∀ k, s.policy.cache k = none) (e : ControlEvent) (k : FlowKey) :
    (step env s (.control e)).policy.cache k = none := by
  simp only [step, handle]
  split
  · exact h k
  · exact cache_controlStep (h k) e

theorem settled_of_empty (h : ∀ k, s.policy.cache k = none) (e : ControlEvent) :
    Settled env s (.control e) := by
  intro k hk
  rw [cache_step_control h e k] at hk
  cases hk

end Steps

/-- In every run in which no step gives a flow with a cached decision other parties, the cache is
transparent. -/
theorem flow_cache_transparent (env : Env) (crl : Crl) (prefixes : List IpNet) (events : List Event)
    (hG : Guarded (step env) (Settled env) (.bootstrap crl prefixes) events) :
    Transparent (run (step env) (.bootstrap crl prefixes) events) := by
  have hcoherent : Coherent (run (step env) (.bootstrap crl prefixes) events).policy
      (parties (run (step env) (.bootstrap crl prefixes) events)) :=
    hG.invariant (I := fun s => Coherent s.policy (parties s))
      (fun _ e hs hGe => hs.step e hGe) (coherent_of_cleared fun _ => rfl)
  intro id packet ctx hctx
  exact hcoherent.allow_eq (parties_of_contextOf hctx)

/-! ### A session that closes -/

def reachSpec : PolicySpec := { sshSpec with l4 := [] }

def sameTenant : List Event :=
  [.control (.offer (demoOffer 1 1 7 "100.64.0.1") 0 (some (demoSession 1 none))),
    .control (.offer (demoOffer 2 2 7 "100.64.0.2") 0 (some (demoSession 2 none))),
    .control (.policy (some (officeSnapshot reachSpec)) 3600), .ip 1 (udpPacket 1 2)]

theorem settled_sameTenant : Guarded (step demoEnv) (Settled demoEnv) demoStart sameTenant := by
  have hempty : ∀ k, demoStart.policy.cache k = none := fun _ => rfl
  exact ⟨settled_of_empty hempty _, settled_of_empty (cache_step_control hempty _) _,
    settled_of_empty (cache_step_control (cache_step_control hempty _) _) _, settled_ip _ _,
    trivial⟩

/-- A second packet of the same flow is let through from the cache. -/
theorem flow_cache_transparent_sameTenant :
    (run (step demoEnv) demoStart sameTenant).policy.cache ⟨1, .v4 0x64400002, 17, 0⟩ =
      some ⟨true, 1⟩ ∧
    ((run (step demoEnv) demoStart sameTenant).policy.uncached.allow
      ⟨1, 7, 1, some 2, ⟨1, .v4 0x64400001, .v4 0x64400002, 17, none⟩⟩).1.allow = true := by
  have hcached : ((run (step demoEnv) demoStart sameTenant).policy.allow
      ⟨1, 7, 1, some 2, ⟨1, .v4 0x64400001, .v4 0x64400002, 17, none⟩⟩).1.allow = true := by
    decide +kernel
  have hctx : contextOf (run (step demoEnv) demoStart sameTenant) 1 (udpPacket 1 2) =
      some ⟨1, 7, 1, some 2, ⟨1, .v4 0x64400001, .v4 0x64400002, 17, none⟩⟩ := by
    decide +kernel
  have heq := flow_cache_transparent demoEnv ⟨0, []⟩ [] sameTenant settled_sameTenant 1 _ _ hctx
  exact ⟨by decide +kernel, heq.symm.trans hcached⟩

/-- The session of device 2 closes. The address is no longer that of device 2, but the cache still
allows the flow. -/
theorem cache_not_transparent :
    ¬ Transparent (run (step demoEnv) demoStart (sameTenant ++ [.closed 2])) := by
  intro htransparent
  have hctx :
      contextOf (run (step demoEnv) demoStart (sameTenant ++ [.closed 2])) 1 (udpPacket 1 2) =
      some ⟨1, 7, 1, none, ⟨1, .v4 0x64400001, .v4 0x64400002, 17, none⟩⟩ := by
    decide +kernel
  have hne : ((run (step demoEnv) demoStart (sameTenant ++ [.closed 2])).policy.allow
        ⟨1, 7, 1, none, ⟨1, .v4 0x64400001, .v4 0x64400002, 17, none⟩⟩).1.allow ≠
      ((run (step demoEnv) demoStart (sameTenant ++ [.closed 2])).policy.uncached.allow
        ⟨1, 7, 1, none, ⟨1, .v4 0x64400001, .v4 0x64400002, 17, none⟩⟩).1.allow := by
    decide +kernel
  exact hne (htransparent 1 _ _ hctx)

end Avon.Gateway
