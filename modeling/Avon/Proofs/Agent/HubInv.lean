import Avon.Agent.HubSession
import Avon.Proofs.Tunnel.EndpointSteps
import Avon.Proofs.Tunnel.Ends

/-!
# The invariant of a hub session

A rekey goes through four phases: in `synced` the ends have the same epoch, in `taken` the request
is in the gateway's queue, in `answered` the gateway has rotated and the ack is on its way, and in
`acked` the ack is in the agent's queue. A request or an ack on its way that is not the one of the
phase is refused by its receiver for good.
-/

set_option autoImplicit false

namespace Avon.Agent.Hub

open Avon.Crypto Avon.Tunnel Endpoint

/-! ### Frames and queues -/

def frameOf (C : FrameCodec) : Inner → Option TunnelFrame
  | .control f => C.decode f
  | _ => none

section
variable {C : FrameCodec} {inner : Inner} {f : TunnelFrame}

theorem frameOf_encode (hC : C.RoundTrips) (f : TunnelFrame) :
    frameOf C (.control (C.encode f)) = some f := hC f

theorem eventsOf_of_frameOf (h : frameOf C inner = some f) : eventsOf C inner = [.control f] := by
  cases inner with
  | control bytes =>
    replace h : C.decode bytes = some f := h
    simp [eventsOf, h]
  | ip | keepalive => cases h

theorem mem_eventsOf (h : .control f ∈ eventsOf C inner) : frameOf C inner = some f := by
  cases inner with
  | control bytes =>
    simp only [eventsOf] at h
    split at h
    · rename_i frame hdec
      have : f = frame := by simpa using h
      rw [this]
      exact hdec
    · cases h
  | ip packet => simp [eventsOf] at h
  | keepalive => cases h

theorem rekeyDue_notMem_eventsOf (C : FrameCodec) (inner : Inner) :
    .rekeyDue ∉ eventsOf C inner := by
  cases inner with
  | control bytes =>
    simp only [eventsOf]
    split <;> simp
  | ip | keepalive => simp [eventsOf]

def isRekey : TunnelFrame → Bool
  | .rekey .. => true
  | _ => false

def isAck : TunnelFrame → Bool
  | .rekeyAck .. => true
  | _ => false

def framesIn (test : TunnelFrame → Bool) (queue : List EndpointEvent) : List TunnelFrame :=
  queue.filterMap fun
    | .control f => if test f then some f else none
    | _ => none

@[simp] theorem framesIn_nil (test : TunnelFrame → Bool) : framesIn test [] = [] := rfl

@[simp] theorem framesIn_append (test : TunnelFrame → Bool) (xs ys : List EndpointEvent) :
    framesIn test (xs ++ ys) = framesIn test xs ++ framesIn test ys :=
  List.filterMap_append ..

@[simp] theorem framesIn_cons_control (test : TunnelFrame → Bool) (f : TunnelFrame)
    (q : List EndpointEvent) :
    framesIn test (.control f :: q) = if test f then f :: framesIn test q else framesIn test q := by
  unfold framesIn
  by_cases h : test f <;> simp [h]

theorem framesIn_eventsOf_nil {test : TunnelFrame → Bool}
    (h : ∀ f, frameOf C inner = some f → test f = false) :
    framesIn test (eventsOf C inner) = [] := by
  rw [framesIn, List.filterMap_eq_nil_iff]
  intro ev hev
  cases ev with
  | control f => simp [h f (mem_eventsOf hev)]
  | ip | rekeyDue | idle => rfl

/-! ### The invariant -/

/-- The agent waits for an ack: the flag is up and the request has been sent. -/
def Waits (e : Endpoint) : Prop :=
  e.session.rekeyPending = true ∧ .rekeyDue ∉ e.queue

/-- The current index is in the table, and not the index of the previous epoch. -/
def Indexed (e : Endpoint) : Prop :=
  e.session.current.localIndex ∈ e.bound ∧
    ∀ p since, e.session.previous = some (p, since) →
      p.localIndex ≠ e.session.current.localIndex

/-- The phase of a rekey. `n` is the counter of the request (`synced`) or of the ack
(`answered`). -/
inductive Phase (K : HybridKem) where
  | synced (n : UInt64)
  | taken (newEpoch : UInt32) (eph : K.KeyPair) (index : UInt32)
  | answered (d : Bytes) (n : UInt64) (newEpoch : UInt32) (eph : K.KeyPair) (ct : Bytes) (ss : Key)
  | acked (newEpoch : UInt32) (eph : K.KeyPair) (ct : Bytes) (ss : Key)

end

section
variable {K : HybridKem} (P : AeadImpl) (C : FrameCodec) (H : Hkdf) (suite : Suite)

/-- What holds of each end: it is open, it has epochs under known keys only, and its indexes
are its own. -/
structure SideOk (role : Role) (keys : List SessionKeys) (e : Endpoint) : Prop where
  isOpen : e.session.closed = false
  ends : EndOk role suite e.session
  known : ∀ x ∈ e.session.epochs, x.keys ∈ keys
  indexed : Indexed e

/-- No two keys of the session share a traffic key. -/
def Distinct (keys : List SessionKeys) : Prop :=
  ∀ role : Role, ∀ a ∈ keys, ∀ b ∈ keys, role.recvKey a = role.recvKey b → a = b

structure Base (a : Endpoint) (pending : PendingRekey K) (g : Endpoint) (keys : List SessionKeys) :
    Prop where
  agent : SideOk suite .initiator keys a
  gateway : SideOk suite .responder keys g
  distinct : Distinct keys
  pendingFresh : ∀ eph index, pending = some (eph, index) → index ∉ a.bound
  dueOnce : a.queue.count .rekeyDue ≤ 1
  duePending : .rekeyDue ∈ a.queue → a.session.rekeyPending = true

/-- How many counters the gateway has spent in its current epoch. -/
def gatewayCounter (s : HubState K) : ℕ := s.gateway.session.current.cipher.counter.value.toNat

/-- The gateway is one epoch ahead: it has answered the request that the agent waits for. -/
structure Ahead (eph : K.KeyPair) (ct : Bytes) (ss : Key) (agent : Endpoint)
    (pending : PendingRekey K) (gateway : Endpoint) : Prop where
  waits : Waits agent
  slot : pending = some (eph, gateway.session.current.remoteIndex)
  decapsulated : K.decapsulate eph ct = .ok ss
  keys : gateway.session.current.keys = agent.session.current.keys.rekey H ss

/-- What holds of the two ends and their queues in a phase. -/
def PhaseOk (s : HubState K) : Phase K → Prop
  | .synced _ =>
    Mirror s.agent.session.current s.gateway.session.current ∧
    framesIn isRekey s.gateway.queue = [] ∧ framesIn isAck s.agent.queue = []
  | .taken newEpoch eph index =>
    Mirror s.agent.session.current s.gateway.session.current ∧
    framesIn isRekey s.gateway.queue = [.rekey newEpoch (K.publicKey eph) index] ∧
    framesIn isAck s.agent.queue = [] ∧ Waits s.agent ∧ s.pending = some (eph, index)
  | .answered d n newEpoch eph ct ss =>
    Ahead H eph ct ss s.agent s.pending s.gateway ∧
    framesIn isRekey s.gateway.queue = [] ∧ framesIn isAck s.agent.queue = [] ∧
    d ∈ s.toAgent ∧ ∃ h, h.receiverIndex = s.agent.session.current.localIndex ∧ h.counter = n ∧
      Carries P d ⟨suite, s.agent.session.current.keys.kR2i⟩ h
        (.control (C.encode (.rekeyAck newEpoch ct s.gateway.session.current.localIndex)))
  | .acked newEpoch eph ct ss =>
    Ahead H eph ct ss s.agent s.pending s.gateway ∧ framesIn isRekey s.gateway.queue = [] ∧
    framesIn isAck s.agent.queue
      = [.rekeyAck newEpoch ct s.gateway.session.current.localIndex]

/-- The agent's current window has committed only counters below this one. -/
def windowBound (s : HubState K) : Phase K → Option ℕ
  | .synced _ | .taken .. => some (gatewayCounter s)
  | .answered _ n .. => some n.toNat
  | .acked .. => none

def LiveAck (d : Bytes) : Phase K → Prop
  | .answered d' .. => d = d'
  | _ => False

/-- The frame, sealed under `ks` with counter `c`, is the request of the phase. -/
def LiveRekey (s : HubState K) (ks : SessionKeys) (c : UInt64) (f : TunnelFrame) : Phase K → Prop
  | .synced n => Waits s.agent ∧ ks = s.agent.session.current.keys ∧ c = n ∧
      ∃ newEpoch eph index, s.pending = some (eph, index) ∧
        f = .rekey newEpoch (K.publicKey eph) index
  | _ => False

/-- A datagram on its way to the agent. An ack that is not the one of the phase was sealed in
an earlier epoch, and the agent refuses it. -/
def AgentEntry (ph : Phase K) (s : HubState K) (d : Bytes) : Prop :=
  ∃ ks ∈ s.keys, ∃ h inner, Carries P d ⟨suite, ks.kR2i⟩ h inner ∧
    (ks = s.gateway.session.current.keys → h.counter.toNat < gatewayCounter s) ∧
    (∀ f, frameOf C inner = some f → isAck f = true →
      (ks ≠ s.gateway.session.current.keys ∧
        s.agent.session.RefusedBy ⟨suite, ks.kR2i⟩ h.counter) ∨ LiveAck d ph) ∧
    (∀ b, windowBound s ph = some b → ks = s.agent.session.current.keys →
      h.counter.toNat < b ∨ LiveAck d ph)

/-- A datagram on its way to the gateway. A request that is not the one of the phase is
refused. -/
def GatewayEntry (ph : Phase K) (s : HubState K) (d : Bytes) : Prop :=
  ∃ ks ∈ s.keys, ∃ h inner, Carries P d ⟨suite, ks.kI2r⟩ h inner ∧
    ∀ f, frameOf C inner = some f → isRekey f = true →
      s.gateway.session.RefusedBy ⟨suite, ks.kI2r⟩ h.counter ∨ LiveRekey s ks h.counter f ph

structure Inv (ph : Phase K) (s : HubState K) : Prop where
  base : Base suite s.agent s.pending s.gateway s.keys
  phase : PhaseOk P C H suite s ph
  below : ∀ b, windowBound s ph = some b → s.agent.session.current.cipher.window.Below b
  toAgent : ∀ d ∈ s.toAgent, AgentEntry P C suite ph s d
  toGateway : ∀ d ∈ s.toGateway, GatewayEntry P C suite ph s d

end

/-! ### What holds of each end -/

theorem Distinct.snoc {keys : List SessionKeys} {next : SessionKeys} (h : Distinct keys)
    (hfresh : ∀ k ∈ keys, next.kI2r ≠ k.kI2r ∧ next.kR2i ≠ k.kR2i) :
    Distinct (keys ++ [next]) := by
  intro role a ha b hb hab
  have hne : ∀ k ∈ keys, role.recvKey next ≠ role.recvKey k := fun k hk => by
    cases role with
    | initiator => exact (hfresh k hk).2
    | responder => exact (hfresh k hk).1
  rcases List.mem_append.mp ha with ha | ha <;> rcases List.mem_append.mp hb with hb | hb
  · exact h role a ha b hb hab
  · exact absurd (List.mem_singleton.mp hb ▸ hab.symm) (hne a ha)
  · exact absurd (List.mem_singleton.mp ha ▸ hab) (hne b hb)
  · exact (List.mem_singleton.mp ha).trans (List.mem_singleton.mp hb).symm

namespace SideOk

variable {suite : Suite} {role : Role} {keys keys' : List SessionKeys} {e a : Endpoint}
  {P : AeadImpl} {d : Bytes} {ks next : SessionKeys} {x : Epoch}

section
variable (h : SideOk suite role keys e)
include h

theorem current : e.session.current.keys ∈ keys := h.known _ List.mem_cons_self

theorem send : e.session.current.cipher.send = ⟨suite, role.sendKey e.session.current.keys⟩ :=
  (h.ends.ciphers _ List.mem_cons_self).1

theorem recv (hx : x ∈ e.session.epochs) : x.cipher.recv = ⟨suite, role.recvKey x.keys⟩ :=
  (h.ends.ciphers x hx).2

theorem recv_ne (hdistinct : Distinct keys) {since : ℕ}
    (hp : e.session.previous = some (x, since)) :
    x.cipher.recv ≠ e.session.current.cipher.recv := by
  have hmem : x ∈ e.session.epochs := by simp [Session.epochs, hp]
  rw [h.recv hmem, h.recv List.mem_cons_self]
  intro heq
  exact h.ends.keys_ne hp (hdistinct role _ (h.known x hmem) _ h.current (AeadKey.mk.inj heq).2)

/-- A datagram that opens under one key only opens in no epoch with another key. -/
theorem recv_of_opensUnder
    (honce : opensOnce P (keys.map fun ks => ⟨suite, role.recvKey ks⟩) d = true)
    (hks : ks ∈ keys) (hks' : opensUnder P d ⟨suite, role.recvKey ks⟩ = true)
    (hx : x ∈ e.session.epochs) (hopens : opensUnder P d x.cipher.recv = true) :
    x.cipher.recv = ⟨suite, role.recvKey ks⟩ := by
  have hmem := h.known x hx
  rw [h.recv hx] at hopens ⊢
  exact eq_of_opensOnce honce (List.mem_map_of_mem hmem) (List.mem_map_of_mem hks) hopens hks'

theorem kept (hk : e.session.Kept a.session)
    (hcur : a.session.current.localIndex ∈ a.bound) : SideOk suite role keys a where
  isOpen := hk.closed.trans h.isOpen
  ends := h.ends.kept hk
  known x' hx' := by
    obtain ⟨x, hx, hsame⟩ := hk.epochs hx'
    rw [hsame.keys]
    exact h.known x hx
  indexed := by
    refine ⟨hcur, fun p' since hp => ?_⟩
    obtain ⟨p, hp, hsame⟩ := hk.previous p' since hp
    rw [hsame.localIndex, hk.current.localIndex]
    exact h.indexed.2 p since hp

/-- A rotation to the next epoch, at an index that is not in the table. -/
theorem rotate (hnext : next.epoch = e.session.current.keys.epoch + 1) (hmem : next ∈ keys')
    (hsub : ∀ k ∈ keys, k ∈ keys') {l : UInt32} (hl : l ∉ e.bound) (r : UInt32) (now : ℕ)
    (q : List EndpointEvent) :
    SideOk suite role keys' ⟨e.session.rotate next l r now, e.bound ++ [l], q⟩ where
  isOpen := h.isOpen
  ends := h.ends.rotate hnext _ _ _
  known x hx := by
    rcases Session.mem_epochs_rotate hx with rfl | rfl
    · exact hmem
    · exact hsub _ h.current
  indexed := by
    refine ⟨List.mem_append_right _ (List.mem_singleton.mpr rfl), fun p since hp heq => ?_⟩
    obtain ⟨rfl, rfl⟩ := Prod.mk.inj (Option.some.inj hp)
    replace heq : e.session.current.localIndex = l := heq
    exact hl (heq ▸ h.indexed.1)

end

end SideOk

section
variable {K : HybridKem} {P : AeadImpl} {C : FrameCodec} {H : Hkdf} {suite : Suite} {s : HubState K}
  {ph : Phase K}

variable {eph : K.KeyPair} {ct d : Bytes} {ss : Key} {agent gateway a g : Endpoint}
  {pending : PendingRekey K}

theorem Ahead.keys_ne (h : Ahead H eph ct ss s.agent s.pending s.gateway) :
    s.agent.session.current.keys ≠ s.gateway.session.current.keys := by
  intro heq
  have hepoch := congrArg SessionKeys.epoch (heq.trans h.keys)
  have hone : (1 : UInt32) ≠ 0 := by decide
  simp [hone] at hepoch

/-! ### Changes that keep the invariant -/

variable {keys : List SessionKeys} {xs : List Bytes}

/-- Datagrams may leave the channel to the agent or be copied in it, except for the ack of the
phase, which must stay. -/
theorem Inv.setToAgent (hi : Inv P C H suite ph s)
    (hxs : ∀ d ∈ xs, AgentEntry P C suite ph s d) (hlive : ∀ d, LiveAck d ph → d ∈ xs) :
    Inv P C H suite ph { s with toAgent := xs } where
  base := hi.base
  phase := by
    have hphase := hi.phase
    cases ph with
    | synced | taken | acked => exact hphase
    | answered d n newEpoch eph ct ss =>
      obtain ⟨hahead, hq, hq', -, hcarries⟩ := hphase
      exact ⟨hahead, hq, hq', hlive d rfl, hcarries⟩
  below := hi.below
  toAgent := hxs
  toGateway := hi.toGateway

theorem Inv.setToGateway (hi : Inv P C H suite ph s)
    (hxs : ∀ d ∈ xs, GatewayEntry P C suite ph s d) :
    Inv P C H suite ph { s with toGateway := xs } :=
  ⟨hi.base, hi.phase, hi.below, hi.toAgent, hxs⟩

theorem Inv.tick (hi : Inv P C H suite ph s) (now : ℕ) : Inv P C H suite ph { s with now := now } :=
  ⟨hi.base, hi.phase, hi.below, hi.toAgent, hi.toGateway⟩

theorem Base.setAgent (h : Base suite agent pending gateway keys)
    (hk : agent.session.Kept a.session) (hbound : ∀ i ∈ a.bound, i ∈ agent.bound)
    (hcur : a.session.current.localIndex ∈ a.bound) (hdue : a.queue.count .rekeyDue ≤ 1)
    (hflag : .rekeyDue ∈ a.queue → a.session.rekeyPending = true) :
    Base suite a pending gateway keys :=
  { h with
    agent := h.agent.kept hk hcur
    pendingFresh := fun eph index hslot hmem => h.pendingFresh eph index hslot (hbound _ hmem)
    dueOnce := hdue
    duePending := hflag }

theorem Ahead.setAgent (h : Ahead H eph ct ss agent pending gateway)
    (hk : agent.session.Kept a.session) (hwaits : Waits agent → Waits a) :
    Ahead H eph ct ss a pending gateway :=
  ⟨hwaits h.waits, h.slot, h.decapsulated, by rw [hk.current.keys, h.keys]⟩

theorem AgentEntry.setAgent (h : AgentEntry P C suite ph s d)
    (hk : s.agent.session.Kept a.session) : AgentEntry P C suite ph { s with agent := a } d := by
  obtain ⟨ks, hks, hd, inner, hcarries, hcounter, hack, hbelow⟩ := h
  refine ⟨ks, hks, hd, inner, hcarries, hcounter, fun f hf hisAck => ?_, fun b hb hcur => ?_⟩
  · exact (hack f hf hisAck).imp_left fun hdead => ⟨hdead.1, hk.refused _ _ hdead.2⟩
  refine hbelow b ?_ (hcur.trans hk.current.keys)
  rw [← hb]
  cases ph <;> rfl

theorem GatewayEntry.setAgent (h : GatewayEntry P C suite ph s d)
    (hk : s.agent.session.Kept a.session) (hwaits : Waits s.agent → Waits a) :
    GatewayEntry P C suite ph { s with agent := a } d := by
  obtain ⟨ks, hks, hd, inner, hcarries, hrekey⟩ := h
  refine ⟨ks, hks, hd, inner, hcarries, fun f hf hisRekey => (hrekey f hf hisRekey).imp_right ?_⟩
  intro hlive
  cases ph with
  | synced n =>
    obtain ⟨hw, hcur, hc, hslot⟩ := hlive
    exact ⟨hwaits hw, hcur.trans hk.current.keys.symm, hc, hslot⟩
  | taken | answered | acked => exact hlive

theorem Inv.setAgent (hi : Inv P C H suite ph s)
    (hk : s.agent.session.Kept a.session) (hbound : ∀ i ∈ a.bound, i ∈ s.agent.bound)
    (hcur : a.session.current.localIndex ∈ a.bound) (hdue : a.queue.count .rekeyDue ≤ 1)
    (hflag : .rekeyDue ∈ a.queue → a.session.rekeyPending = true)
    (hwaits : Waits s.agent → Waits a)
    (hacks : framesIn isAck a.queue = framesIn isAck s.agent.queue)
    (hbelow : ∀ b, windowBound s ph = some b → a.session.current.cipher.window.Below b) :
    Inv P C H suite ph { s with agent := a } where
  base := hi.base.setAgent hk hbound hcur hdue hflag
  phase := by
    have hphase := hi.phase
    cases ph with
    | synced n =>
      obtain ⟨hmirror, hq, hq'⟩ := hphase
      exact ⟨hmirror.same hk.current (.refl _), hq, hacks.trans hq'⟩
    | taken newEpoch eph index =>
      obtain ⟨hmirror, hq, hq', hw, hslot⟩ := hphase
      exact ⟨hmirror.same hk.current (.refl _), hq, hacks.trans hq', hwaits hw, hslot⟩
    | answered d n newEpoch eph ct ss =>
      obtain ⟨hahead, hq, hq', hmem, h, hidx, hc, hcarries⟩ := hphase
      refine ⟨hahead.setAgent hk hwaits, hq, hacks.trans hq', hmem, h,
        hidx.trans hk.current.localIndex.symm, hc, ?_⟩
      rw [hk.current.keys]
      exact hcarries
    | acked newEpoch eph ct ss =>
      obtain ⟨hahead, hq, hq'⟩ := hphase
      exact ⟨hahead.setAgent hk hwaits, hq, hacks.trans hq'⟩
  below b hb := hbelow b (by rw [← hb]; cases ph <;> rfl)
  toAgent d hd := (hi.toAgent d hd).setAgent hk
  toGateway d hd := (hi.toGateway d hd).setAgent hk hwaits

theorem Ahead.setGateway (h : Ahead H eph ct ss agent pending gateway)
    (hk : gateway.session.Kept g.session) : Ahead H eph ct ss agent pending g :=
  ⟨h.waits, by rw [hk.current.remoteIndex, h.slot], h.decapsulated,
    by rw [hk.current.keys, h.keys]⟩

theorem windowBound_setGateway
    (hctr : gatewayCounter s ≤ gatewayCounter { s with gateway := g }) {b : ℕ}
    (hb : windowBound { s with gateway := g } ph = some b) :
    ∃ b', windowBound s ph = some b' ∧ b' ≤ b := by
  cases ph with
  | synced | taken => exact ⟨_, rfl, hctr.trans (Option.some.inj hb).le⟩
  | answered d n newEpoch eph ct ss => exact ⟨b, hb, le_rfl⟩
  | acked newEpoch eph ct ss => cases hb

theorem AgentEntry.setGateway (h : AgentEntry P C suite ph s d)
    (hk : s.gateway.session.Kept g.session)
    (hctr : gatewayCounter s ≤ gatewayCounter { s with gateway := g }) :
    AgentEntry P C suite ph { s with gateway := g } d := by
  obtain ⟨ks, hks, hd, inner, hcarries, hcounter, hack, hbelow⟩ := h
  refine ⟨ks, hks, hd, inner, hcarries, fun hcur => ?_, fun f hf hisAck => ?_, fun b hb hcur => ?_⟩
  · exact (hcounter (hcur.trans hk.current.keys)).trans_le hctr
  · exact (hack f hf hisAck).imp_left fun hdead =>
      ⟨fun heq => hdead.1 (heq.trans hk.current.keys), hdead.2⟩
  · obtain ⟨b', hb', hle⟩ := windowBound_setGateway hctr hb
    exact (hbelow b' hb' hcur).imp_left fun hlt => hlt.trans_le hle

theorem GatewayEntry.setGateway (h : GatewayEntry P C suite ph s d)
    (hk : s.gateway.session.Kept g.session) :
    GatewayEntry P C suite ph { s with gateway := g } d := by
  obtain ⟨ks, hks, hd, inner, hcarries, hrekey⟩ := h
  refine ⟨ks, hks, hd, inner, hcarries, fun f hf hisRekey => ?_⟩
  refine (hrekey f hf hisRekey).imp (hk.refused _ _) fun hlive => ?_
  cases ph <;> exact hlive

theorem Inv.setGateway (hi : Inv P C H suite ph s)
    (hk : s.gateway.session.Kept g.session) (hcur : g.session.current.localIndex ∈ g.bound)
    (hctr : gatewayCounter s ≤ gatewayCounter { s with gateway := g })
    (hrekeys : framesIn isRekey g.queue = framesIn isRekey s.gateway.queue) :
    Inv P C H suite ph { s with gateway := g } where
  base := { hi.base with gateway := hi.base.gateway.kept hk hcur }
  phase := by
    have hphase := hi.phase
    cases ph with
    | synced n =>
      obtain ⟨hmirror, hq, hq'⟩ := hphase
      exact ⟨hmirror.same (.refl _) hk.current, hrekeys.trans hq, hq'⟩
    | taken newEpoch eph index =>
      obtain ⟨hmirror, hq, hrest⟩ := hphase
      exact ⟨hmirror.same (.refl _) hk.current, hrekeys.trans hq, hrest⟩
    | answered d n newEpoch eph ct ss =>
      obtain ⟨hahead, hq, hq', hmem, h, hidx, hc, hcarries⟩ := hphase
      refine ⟨hahead.setGateway hk, hrekeys.trans hq, hq', hmem, h, hidx, hc, ?_⟩
      rw [hk.current.localIndex]
      exact hcarries
    | acked newEpoch eph ct ss =>
      obtain ⟨hahead, hq, hq'⟩ := hphase
      refine ⟨hahead.setGateway hk, hrekeys.trans hq, ?_⟩
      rw [hk.current.localIndex]
      exact hq'
  below b hb := by
    obtain ⟨b', hb', hle⟩ := windowBound_setGateway hctr hb
    exact (hi.below b' hb').mono hle
  toAgent d hd := (hi.toAgent d hd).setGateway hk hctr
  toGateway d hd := (hi.toGateway d hd).setGateway hk

theorem Inv.liveAck_mem (hi : Inv P C H suite ph s) (hd : LiveAck d ph) :
    d ∈ s.toAgent := by
  have hphase := hi.phase
  cases ph with
  | answered d' n newEpoch eph ct ss =>
    obtain rfl : d = d' := hd
    exact hphase.2.2.2.1
  | synced | taken | acked => cases hd

end

end Avon.Agent.Hub
