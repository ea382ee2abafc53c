import Avon.Proofs.Agent.HubInv

/-!
# The steps of a hub session keep the invariant

One lemma per step. Those that move a rekey on to its next phase are `Inv.agentRequests`,
`Inv.gatewayReceive`, `Inv.gatewayAnswers`, `Inv.agentReceive` and `Inv.agentCompletes`;
the others stay in the phase they are in.
-/

set_option autoImplicit false

namespace Avon.Agent.Hub

open Avon.Crypto Avon.Tunnel Endpoint Session
open Session.Kept (refl)

variable {K : HybridKem} {P : AeadImpl} {C : FrameCodec} {H : Hkdf} {suite : Suite} {s : HubState K}
  {ph : Phase K}

/-! ### Sending -/

theorem frameOf_payload (C : FrameCodec) (packet : Option Bytes) :
    frameOf C (HubState.payload packet) = none := by
  cases packet <;> rfl

theorem Inv.agentSpend (hi : Inv P C H suite ph s) :
    Inv P C H suite ph { s with agent := { s.agent with session := s.agent.session.spend } } :=
  hi.setAgent (kept_spend _) (fun _ h => h) hi.base.agent.indexed.1 hi.base.dueOnce
    hi.base.duePending id rfl hi.below

variable {newIndex : UInt32} {xs : List Bytes} {inner : Inner} {k : AeadKey}

theorem Inv.agentSends (hi : Inv P C H suite ph s) (socketOk : Bool)
    (hinner : ∀ f, frameOf C inner = some f → isRekey f = false) :
    Inv P C H suite ph { s with
      agent := { s.agent with session := (sendInner P socketOk s.agent.session inner).2 }
      toGateway := s.toGateway ++
        (sendInner P socketOk s.agent.session inner).1.toOption.toList } := by
  rcases sendInner_cases P socketOk s.agent.session inner with
    ⟨e, heq⟩ | ⟨-, -, ⟨e, heq⟩ | ⟨d, heq, hcarries⟩⟩ <;> rw [heq]
  · exact hi.setToGateway (by simpa [Except.toOption] using hi.toGateway)
  · exact hi.agentSpend.setToGateway (by simpa [Except.toOption] using hi.agentSpend.toGateway)
  refine hi.agentSpend.setToGateway fun d' hd' => ?_
  rcases List.mem_append.mp hd' with hold | hnew
  · exact hi.agentSpend.toGateway d' hold
  obtain rfl : d' = d := by simpa [Except.toOption] using hnew
  rw [hi.base.agent.send] at hcarries
  exact ⟨_, hi.base.agent.current, _, inner, hcarries,
    fun f hf hr => by simp [hinner f hf] at hr⟩

theorem gatewayCounter_spend
    (hlt : s.gateway.session.current.cipher.counter.value < SendCounter.LIMIT) :
    gatewayCounter { s with gateway := { s.gateway with session := s.gateway.session.spend } }
      = gatewayCounter s + 1 :=
  SendCounter.toNat_succ hlt

theorem Inv.gatewaySpend (hi : Inv P C H suite ph s)
    (hlt : s.gateway.session.current.cipher.counter.value < SendCounter.LIMIT) :
    Inv P C H suite ph
      { s with gateway := { s.gateway with session := s.gateway.session.spend } } :=
  hi.setGateway (kept_spend _) hi.base.gateway.indexed.1
    (by rw [gatewayCounter_spend hlt]; omega) rfl

/-- The gateway's current keys are the agent's only in the phases where the agent's window is
bounded by the gateway's counter. -/
theorem Inv.windowBound_of_keys (hi : Inv P C H suite ph s)
    (hkeys : s.gateway.session.current.keys = s.agent.session.current.keys) {b : ℕ}
    (hb : windowBound s ph = some b) : b = gatewayCounter s := by
  have hphase := hi.phase
  cases ph with
  | synced | taken => exact (Option.some.inj hb).symm
  | answered d n newEpoch eph ct ss => exact absurd hkeys.symm hphase.1.keys_ne
  | acked newEpoch eph ct ss => cases hb

theorem Inv.gatewaySends (hi : Inv P C H suite ph s) (socketOk : Bool) (inner : Inner)
    (hinner : ∀ f, frameOf C inner = some f → isAck f = false) :
    Inv P C H suite ph { s with
      gateway := { s.gateway with
        session := (sendInner P socketOk s.gateway.session inner).2 }
      toAgent := s.toAgent ++
        (sendInner P socketOk s.gateway.session inner).1.toOption.toList } := by
  have hlive : ∀ d, LiveAck d ph → d ∈ s.toAgent := fun d => hi.liveAck_mem
  rcases sendInner_cases P socketOk s.gateway.session inner with
    ⟨e, heq⟩ | ⟨-, hlt, ⟨e, heq⟩ | ⟨d, heq, hcarries⟩⟩ <;> rw [heq]
  · exact hi.setToAgent (by simpa [Except.toOption] using hi.toAgent)
      (by simpa [Except.toOption] using hlive)
  · exact (hi.gatewaySpend hlt).setToAgent
      (by simpa [Except.toOption] using (hi.gatewaySpend hlt).toAgent)
      (by simpa [Except.toOption] using hlive)
  have hi' := hi.gatewaySpend hlt
  refine hi'.setToAgent (fun d' hd' => ?_) fun d' hd' => List.mem_append_left _ (hlive d' hd')
  rcases List.mem_append.mp hd' with hold | hnew
  · exact hi'.toAgent d' hold
  obtain rfl : d' = d := by simpa [Except.toOption] using hnew
  rw [hi.base.gateway.send] at hcarries
  have hctr := gatewayCounter_spend hlt
  refine ⟨_, hi.base.gateway.current, _, inner, hcarries,
    fun _ => ?_, fun f hf ha => by simp [hinner f hf] at ha, fun b hb hkeys => .inl ?_⟩
  · rw [hctr]
    exact Nat.lt_succ_self _
  · rw [hi'.windowBound_of_keys hkeys hb, hctr]
    exact Nat.lt_succ_self _

/-! ### Receiving -/

variable {x : Session} {index newEpoch : UInt32} {c n : UInt64} {ks : SessionKeys} {d ct : Bytes}
  {eph : K.KeyPair} {ss : Key} {q : List EndpointEvent}

theorem rekeyPending_of_commits {x' : Session}
    (h : x.Commits x' index k c) : x'.rekeyPending = x.rekeyPending := by
  rcases h with ⟨w, -, -, -, rfl⟩ | ⟨prev, since, w, -, -, -, -, -, rfl⟩ <;> rfl

theorem Inv.agentTakes (hi : Inv P C H suite ph s) (inner : Inner) (hks : ks ∈ s.keys)
    (hcommits : s.agent.session.Commits x index ⟨suite, ks.kR2i⟩ c)
    (hbelow : ∀ b, windowBound s ph = some b → ks = s.agent.session.current.keys → c.toNat < b)
    (hinner : ∀ f, frameOf C inner = some f → isAck f = false) (sender : SocketAddr) :
    Inv P C H suite ph { s with agent := { s.agent with
      session := { x with peerEndpoint := some sender }
      queue := s.agent.queue ++ eventsOf C inner } } := by
  have hk := hcommits.kept.setPeerEndpoint (some sender)
  have hflag : x.rekeyPending = s.agent.session.rekeyPending := rekeyPending_of_commits hcommits
  have hnodue := rekeyDue_notMem_eventsOf C inner
  refine hi.setAgent hk (fun _ h => h) ?_ ?_ (fun hdue => ?_) (fun hw => ⟨?_, ?_⟩) ?_ ?_
  · rw [hk.current.localIndex]
    exact hi.base.agent.indexed.1
  · rw [List.count_append, List.count_eq_zero.mpr hnodue]
    exact hi.base.dueOnce
  · exact hflag.trans (hi.base.duePending ((List.mem_append.mp hdue).resolve_right hnodue))
  · exact hflag.trans hw.1
  · exact fun hdue => (List.mem_append.mp hdue).elim hw.2 hnodue
  · rw [framesIn_append, framesIn_eventsOf_nil hinner, List.append_nil]
  · intro b hb
    rcases hcommits with ⟨w, -, hrecv, hcheck, rfl⟩ | ⟨prev, since, w, -, -, -, -, -, rfl⟩
    · rw [hi.base.agent.recv List.mem_cons_self] at hrecv
      have hkeys :=
        hi.base.distinct .initiator _ hi.base.agent.current _ hks (AeadKey.mk.inj hrecv).2
      exact (hi.below b hb).commit (hbelow b hb hkeys.symm) hcheck
    · exact hi.below b hb

theorem Inv.accept_ack (hP : P.Correct)
    (hi : Inv P C H suite (.answered d n newEpoch eph ct ss) s) :
    ∃ h w, h.receiverIndex = s.agent.session.current.localIndex ∧
      Carries P d ⟨suite, s.agent.session.current.keys.kR2i⟩ h
        (.control (C.encode (.rekeyAck newEpoch ct s.gateway.session.current.localIndex))) ∧
      s.agent.session.current.cipher.window.checkAndUpdate h.counter = (.ok (), w) ∧
      s.agent.accept P d = (some (.control (C.encode
        (.rekeyAck newEpoch ct s.gateway.session.current.localIndex))),
          s.agent.session.setWindow w) := by
  obtain ⟨-, -, -, -, h, hidx, hc, hcarries⟩ := hi.phase
  obtain ⟨w, hcheck⟩ := (hi.below n.toNat rfl).commits
  rw [← hc] at hcheck
  refine ⟨h, w, hidx, hcarries, hcheck, accept_current hP ?_ hi.base.agent.isOpen ?_
    hidx.symm hcheck⟩
  · rw [hi.base.agent.recv List.mem_cons_self]
    exact hcarries
  · rw [hidx]
    exact hi.base.agent.indexed.1

theorem Inv.agentTakesAck (hP : P.Correct) (hC : C.RoundTrips)
    (hi : Inv P C H suite (.answered d n newEpoch eph ct ss) s) (sender : SocketAddr) :
    Inv P C H suite (.acked newEpoch eph ct ss)
      { s with agent := s.agent.receive P C sender d } := by
  obtain ⟨hahead, hq, hq', -, -⟩ := hi.phase
  obtain ⟨h, w, hidx, hcarries, hcheck, haccept⟩ := hi.accept_ack hP
  have hcommits : s.agent.session.Commits (s.agent.session.setWindow w)
      h.receiverIndex ⟨suite, s.agent.session.current.keys.kR2i⟩ h.counter :=
    Or.inl ⟨w, hidx.symm, hi.base.agent.recv List.mem_cons_self, hcheck, rfl⟩
  have hk := hcommits.kept.setPeerEndpoint (some sender)
  have hevents := eventsOf_of_frameOf
    (frameOf_encode hC (.rekeyAck newEpoch ct s.gateway.session.current.localIndex))
  simp only [receive, haccept, hevents]
  have hwaits : Waits s.agent → Waits { s.agent with
      session := { s.agent.session.setWindow w with peerEndpoint := some sender }
      queue := s.agent.queue ++
        [.control (.rekeyAck newEpoch ct s.gateway.session.current.localIndex)] } :=
    fun hw => ⟨hw.1, by simpa using hw.2⟩
  refine ⟨hi.base.setAgent hk (fun _ h => h) hi.base.agent.indexed.1 ?_ fun _ => hahead.waits.1,
    ⟨hahead.setAgent hk hwaits, hq, ?_⟩, fun b hb => (nomatch hb), fun d' hd' => ?_,
    fun d' hd' => ?_⟩
  · simpa using hi.base.dueOnce
  · simp [hq', isAck]
  · -- A copy of the ack that is still on its way is refused from now on.
    by_cases heq : d' = d
    · subst heq
      refine ⟨_, hi.base.agent.current, h, _, hcarries, fun hkeys => ?_,
        fun f hf ha => .inl ⟨hahead.keys_ne, ?_⟩, fun b hb => (nomatch hb)⟩
      · exact absurd hkeys hahead.keys_ne
      have hrefused := refusedBy_of_commits hcommits fun p since hp =>
        hi.base.agent.recv_ne hi.base.distinct hp
      exact hrefused
    · obtain ⟨ks, hks, h', inner, hcarries', hcounter, hack, -⟩ := hi.toAgent d' hd'
      refine ⟨ks, hks, h', inner, hcarries', hcounter, fun f hf ha => .inl ?_,
        fun b hb => (nomatch hb)⟩
      have hdead := (hack f hf ha).resolve_right heq
      exact ⟨hdead.1, hk.refused _ _ hdead.2⟩
  · exact (hi.toGateway d' hd').setAgent hk hwaits

theorem Inv.agentReceive (hP : P.Correct) (hC : C.RoundTrips) (hi : Inv P C H suite ph s)
    (hd : d ∈ s.toAgent) (sender : SocketAddr)
    (honce : opensOnce P (s.keys.map fun ks => ⟨suite, ks.kR2i⟩) d = true)
    (hxs : ∀ d' ∈ xs, d' ∈ s.toAgent) (hkeep : ∀ d' ∈ s.toAgent, d' ≠ d → d' ∈ xs) :
    ∃ ph', Inv P C H suite ph'
      { s with agent := s.agent.receive P C sender d, toAgent := xs } := by
  by_cases hlive : LiveAck d ph
  · cases ph with
    | answered d' n newEpoch eph ct ss =>
      obtain rfl : d = d' := hlive
      have hi' := hi.agentTakesAck hP hC sender
      exact ⟨_, hi'.setToAgent (fun d' hd' => hi'.toAgent d' (hxs d' hd'))
        fun _ hd' => (nomatch hd')⟩
    | synced | taken | acked => cases hlive
  obtain ⟨ks, hks, h, inner, hcarries, -, hack, hbelow⟩ := hi.toAgent d hd
  have hlivexs : ∀ d', LiveAck d' ph → d' ∈ xs := fun d' hd' =>
    hkeep d' (hi.liveAck_mem hd') fun heq => hlive (heq ▸ hd')
  refine ⟨ph, ?_⟩
  have hkey := fun x => hi.base.agent.recv_of_opensUnder (x := x) honce hks
    (opensUnder_of_carries hP hcarries)
  rcases accept_cases hP s.agent hcarries hkey with hnone | ⟨x, -, hcommits, hsome⟩
  · simp only [receive, hnone]
    exact hi.setToAgent (fun d' hd' => hi.toAgent d' (hxs d' hd')) hlivexs
  simp only [receive, hsome]
  have hi' := hi.agentTakes inner hks hcommits
    (fun b hb hcur => (hbelow b hb hcur).resolve_right hlive) (fun f hf => ?_) sender
  · exact hi'.setToAgent (fun d' hd' => hi'.toAgent d' (hxs d' hd')) hlivexs
  -- An ack other than the one of the phase would be refused.
  by_contra hne
  rcases hack f hf (Bool.eq_true_of_not_eq_false hne) with hdead | hlive'
  · exact hdead.2.not_commits hcommits
  · exact hlive hlive'

theorem Inv.gatewayTakes (hi : Inv P C H suite ph s) (inner : Inner)
    (hcommits : s.gateway.session.Commits x index k c)
    (hinner : ∀ f, frameOf C inner = some f → isRekey f = false) (sender : SocketAddr) :
    Inv P C H suite ph { s with gateway := { s.gateway with
      session := { x with peerEndpoint := some sender }
      queue := s.gateway.queue ++ eventsOf C inner } } := by
  have hk := hcommits.kept.setPeerEndpoint (some sender)
  refine hi.setGateway hk ?_ (le_of_eq ?_) ?_
  · rw [hk.current.localIndex]
    exact hi.base.gateway.indexed.1
  · exact congrArg (·.value.toNat) hcommits.counter.symm
  · rw [framesIn_append, framesIn_eventsOf_nil hinner, List.append_nil]

theorem Inv.gatewayTakesRekey (hi : Inv P C H suite (.synced n) s) {f : TunnelFrame}
    (hf : frameOf C inner = some f) (hlive : LiveRekey s ks c f (.synced n))
    (hcommits : s.gateway.session.Commits x index ⟨suite, ks.kI2r⟩ c) (sender : SocketAddr) :
    ∃ newEpoch eph i, Inv P C H suite (.taken newEpoch eph i) { s with gateway := { s.gateway with
      session := { x with peerEndpoint := some sender }
      queue := s.gateway.queue ++ eventsOf C inner } } := by
  obtain ⟨hw, rfl, rfl, newEpoch, eph, i, hslot, rfl⟩ := hlive
  obtain ⟨hmirror, hq, hq'⟩ := hi.phase
  have hk := hcommits.kept.setPeerEndpoint (some sender)
  have hcounter : gatewayCounter { s with gateway := { s.gateway with
      session := { x with peerEndpoint := some sender }
      queue := s.gateway.queue ++ eventsOf C inner } } = gatewayCounter s :=
    congrArg (·.value.toNat) hcommits.counter
  refine ⟨newEpoch, eph, i, { hi.base with gateway := hi.base.gateway.kept hk ?_ },
    ⟨hmirror.same (.refl _) hk.current, ?_, hq', hw, hslot⟩, fun b hb => ?_,
    fun d hd => (hi.toAgent d hd).setGateway hk hcounter.ge, fun d hd => ?_⟩
  · rw [hk.current.localIndex]
    exact hi.base.gateway.indexed.1
  · simp [hq, eventsOf_of_frameOf hf, isRekey]
  · rw [← Option.some.inj hb, hcounter]
    exact hi.below _ rfl
  · -- The same request again is refused from now on.
    obtain ⟨ks, hks, h, inner', hcarries, hrekey⟩ := hi.toGateway d hd
    refine ⟨ks, hks, h, inner', hcarries, fun f' hf' hr' => .inl ?_⟩
    rcases hrekey f' hf' hr' with hdead | ⟨-, rfl, rfl, -⟩
    · exact hk.refused _ _ hdead
    have hrefused := refusedBy_of_commits hcommits fun p since hp =>
      hi.base.gateway.recv_ne hi.base.distinct hp
    exact hrefused

theorem Inv.gatewayReceive (hP : P.Correct) (hi : Inv P C H suite ph s)
    (hd : d ∈ s.toGateway) (sender : SocketAddr)
    (honce : opensOnce P (s.keys.map fun ks => ⟨suite, ks.kI2r⟩) d = true)
    (hxs : ∀ d' ∈ xs, d' ∈ s.toGateway) :
    ∃ ph', Inv P C H suite ph'
      { s with gateway := s.gateway.receive P C sender d, toGateway := xs } := by
  obtain ⟨ks, hks, h, inner, hcarries, hrekey⟩ := hi.toGateway d hd
  have hkey := fun x => hi.base.gateway.recv_of_opensUnder (x := x) honce hks
    (opensUnder_of_carries hP hcarries)
  rcases accept_cases hP s.gateway hcarries hkey with hnone | ⟨x, -, hcommits, hsome⟩
  · simp only [receive, hnone]
    exact ⟨ph, hi.setToGateway fun d' hd' => hi.toGateway d' (hxs d' hd')⟩
  simp only [receive, hsome]
  by_cases hnew : ∃ f, frameOf C inner = some f ∧ isRekey f = true
  · obtain ⟨f, hf, hr⟩ := hnew
    have hlive := (hrekey f hf hr).resolve_left fun hdead => hdead.not_commits hcommits
    cases ph with
    | synced n =>
      obtain ⟨newEpoch, eph, i, hi'⟩ := hi.gatewayTakesRekey hf hlive hcommits sender
      exact ⟨_, hi'.setToGateway fun d' hd' => hi'.toGateway d' (hxs d' hd')⟩
    | taken | answered | acked => cases hlive
  · have hi' := hi.gatewayTakes inner hcommits (fun f hf => ?_) sender
    · exact ⟨ph, hi'.setToGateway fun d' hd' => hi'.toGateway d' (hxs d' hd')⟩
    · exact Bool.eq_false_iff.mpr fun hr => hnew ⟨f, hf, hr⟩

/-! ### Timers -/

theorem Indexed.expire {e : Endpoint} (h : Indexed e) (overlap now : ℕ) :
    let out := e.session.expirePreviousEpoch overlap now
    let bound := match out.1 with
      | some index => e.bound.filter (· ≠ index)
      | none => e.bound
    out.2.current.localIndex ∈ bound ∧ ∀ i ∈ bound, i ∈ e.bound := by
  unfold expirePreviousEpoch
  cases hp : e.session.previous with
  | none => exact ⟨h.1, fun _ hi => hi⟩
  | some p =>
    obtain ⟨p, since⟩ := p
    by_cases hdue : now - since ≥ overlap
    · simp only [if_pos hdue]
      refine ⟨List.mem_filter.mpr ⟨h.1, ?_⟩, fun i hi => (List.mem_filter.mp hi).1⟩
      simpa using (h.2 p since hp).symm
    · simp only [if_neg hdue]
      exact ⟨h.1, fun _ hi => hi⟩

theorem expire_current (x : Session) (overlap now : ℕ) :
    (x.expirePreviousEpoch overlap now).2.current = x.current ∧
      (x.expirePreviousEpoch overlap now).2.rekeyPending = x.rekeyPending := by
  rcases expirePreviousEpoch_cases x overlap now with heq | heq <;> rw [heq] <;> exact ⟨rfl, rfl⟩

/-- The timer loop of the agent: the previous epoch may expire, and the owner may be told
that the session is idle or due for a rekey. -/
theorem Inv.agentTimer (hi : Inv P C H suite ph s) (cfg : TimerConfig) (idle : Bool) :
    Inv P C H suite ph { s with agent := s.agent.timer cfg idle s.now } := by
  have hclosed : ¬ s.agent.session.closed = true := by simp [hi.base.agent.isOpen]
  have hk := s.agent.session.kept_expirePreviousEpoch cfg.epochOverlap s.now
  obtain ⟨hcur, hbound⟩ := hi.base.agent.indexed.expire cfg.epochOverlap s.now
  obtain ⟨hcurrent, hflag⟩ := expire_current s.agent.session cfg.epochOverlap s.now
  have hbelow : ∀ b, windowBound s ph = some b →
      (s.agent.session.expirePreviousEpoch cfg.epochOverlap
        s.now).2.current.cipher.window.Below b := by
    intro b hb
    rw [hcurrent]
    exact hi.below b hb
  unfold timer
  rw [if_neg hclosed]
  simp only
  split
  · refine hi.setAgent hk hbound hcur ?_ (fun hdue => ?_) (fun hw => ⟨?_, ?_⟩) ?_ hbelow
    · simpa using hi.base.dueOnce
    · exact hflag.trans (hi.base.duePending (by simpa using hdue))
    · exact hflag.trans hw.1
    · simpa using hw.2
    · simp [framesIn]
  split
  · rename_i hwhen
    -- The flag was down, so no `RekeyDue` is queued and no request is out.
    have hdown : s.agent.session.rekeyPending = false := hflag.symm.trans hwhen.2.1
    have hnodue : .rekeyDue ∉ s.agent.queue := fun hdue => by
      simpa [hdown] using hi.base.duePending hdue
    refine hi.setAgent (hk.setRekeyPending true) hbound hcur ?_ (fun _ => rfl)
      (fun hw => by simpa [hdown] using hw.1) ?_ hbelow
    · rw [List.count_append, List.count_eq_zero.mpr hnodue]
      simp
    · simp [framesIn]
  · refine hi.setAgent hk hbound hcur hi.base.dueOnce (fun hdue => ?_) (fun hw => ?_) rfl hbelow
    · exact hflag.trans (hi.base.duePending hdue)
    · exact ⟨hflag.trans hw.1, hw.2⟩

theorem Inv.gatewayTimer (hi : Inv P C H suite ph s) (cfg : TimerConfig) (idle : Bool) :
    Inv P C H suite ph { s with gateway := s.gateway.timer cfg idle s.now } := by
  have hclosed : ¬ s.gateway.session.closed = true := by simp [hi.base.gateway.isOpen]
  have hk := s.gateway.session.kept_expirePreviousEpoch cfg.epochOverlap s.now
  obtain ⟨hcur, -⟩ := hi.base.gateway.indexed.expire cfg.epochOverlap s.now
  obtain ⟨hcurrent, -⟩ := expire_current s.gateway.session cfg.epochOverlap s.now
  have hctr : gatewayCounter s
      ≤ (s.gateway.session.expirePreviousEpoch cfg.epochOverlap
        s.now).2.current.cipher.counter.value.toNat := by
    rw [hcurrent]
    exact le_rfl
  unfold timer
  rw [if_neg hclosed]
  simp only
  split
  · exact hi.setGateway hk hcur hctr (by simp [framesIn])
  split
  · rename_i hwhen
    have hrole := hwhen.1
    rw [hk.role, hi.base.gateway.ends.roleEq] at hrole
    cases hrole
  · exact hi.setGateway hk hcur hctr rfl

/-! ### The agent's event handler -/

section
variable (hi : Inv P C H suite ph s)
include hi

theorem Inv.synced_of_not_waits (hw : ¬ Waits s.agent) : ∃ n, ph = .synced n := by
  have hphase := hi.phase
  cases ph with
  | synced n => exact ⟨n, rfl⟩
  | taken newEpoch eph index => exact absurd hphase.2.2.2.1 hw
  | answered | acked => exact absurd hphase.1.waits hw

theorem Inv.agentPops {ev : EndpointEvent} (hq : s.agent.queue = ev :: q) (hdue : ev ≠ .rekeyDue)
    (hack : framesIn isAck (ev :: q) = framesIn isAck q) :
    Inv P C H suite ph { s with agent := { s.agent with queue := q } } := by
  refine hi.setAgent (refl _) (fun _ h => h) hi.base.agent.indexed.1 ?_
    (fun hmem => ?_) (fun hw => ⟨hw.1, ?_⟩) (by rw [hq, hack]) hi.below
  · have honce := hi.base.dueOnce
    rwa [hq, List.count_cons_of_ne hdue] at honce
  · exact hi.base.duePending (hq ▸ List.mem_cons_of_mem _ hmem)
  · exact fun hmem => hw.2 (hq ▸ List.mem_cons_of_mem _ hmem)

/-- `RekeyDue` is queued: it is the only one, nothing has been asked, and the ends are in
the phase `synced`. -/
theorem Inv.due (hq : s.agent.queue = .rekeyDue :: q) :
    s.agent.session.rekeyPending = true ∧ .rekeyDue ∉ q ∧ ¬ Waits s.agent ∧
      framesIn isAck q = framesIn isAck s.agent.queue ∧ ∃ n, ph = .synced n := by
  have hnw : ¬ Waits s.agent := fun hw => hw.2 (hq ▸ List.mem_cons_self)
  refine ⟨hi.base.duePending (hq ▸ List.mem_cons_self), ?_, hnw, by rw [hq]; rfl,
    hi.synced_of_not_waits hnw⟩
  have honce := hi.base.dueOnce
  rw [hq, List.count_cons_self] at honce
  exact List.count_eq_zero.mp (by omega)

theorem Inv.agentFailsToAsk (hq : s.agent.queue = .rekeyDue :: q) (hk : s.agent.session.Kept x)
    (hwindow : x.current.cipher.window = s.agent.session.current.cipher.window) :
    Inv P C H suite ph { s with agent :=
      { s.agent with session := x.setRekeyPending false, queue := q } } := by
  obtain ⟨-, hnodue, hnw, hacks, -⟩ := hi.due hq
  refine hi.setAgent (hk.setRekeyPending false) (fun _ h => h) ?_ ?_
    (fun hmem => absurd hmem hnodue) (fun hw => absurd hw hnw) hacks fun b hb => ?_
  · show x.current.localIndex ∈ s.agent.bound
    rw [hk.current.localIndex]
    exact hi.base.agent.indexed.1
  · simp [List.count_eq_zero.mpr hnodue]
  show x.current.cipher.window.Below b
  rw [hwindow]
  exact hi.below b hb

end

theorem Inv.agentAsks (hC : C.RoundTrips) (hi : Inv P C H suite ph s)
    (hq : s.agent.queue = .rekeyDue :: q) (eph : K.KeyPair)
    (hindex : index ∉ s.agent.bound)
    (hcarries : Carries P d s.agent.session.current.cipher.send
      (s.agent.session.headerFor s.agent.session.current.cipher.counter.value)
      (.control (C.encode (.rekey newEpoch (K.publicKey eph) index)))) :
    Inv P C H suite (.synced s.agent.session.current.cipher.counter.value) { s with
      agent := { s.agent with session := s.agent.session.spend, queue := q }
      pending := some (eph, index)
      toGateway := s.toGateway ++ [d] } := by
  obtain ⟨hup, hnodue, hnw, hacks, n, rfl⟩ := hi.due hq
  have hbase := hi.base.setAgent
    (a := { s.agent with session := s.agent.session.spend, queue := q })
    (kept_spend _) (fun _ h => h) hi.base.agent.indexed.1
    (by simp [List.count_eq_zero.mpr hnodue]) fun hmem => absurd hmem hnodue
  refine ⟨{ hbase with pendingFresh := fun eph' index' hslot => ?_ }, ?_, hi.below,
    fun d' hd' => ?_, fun d' hd' => ?_⟩
  · obtain ⟨rfl, rfl⟩ := Prod.mk.inj (Option.some.inj hslot)
    exact hindex
  · obtain ⟨hmirror, hrekeys, hacks'⟩ := hi.phase
    exact ⟨hmirror, hrekeys, hacks.trans hacks'⟩
  · exact (hi.toAgent d' hd').setAgent (kept_spend _)
  · rcases List.mem_append.mp hd' with hold | hnew
    · obtain ⟨ks, hks, h, inner, hcarries', hrekey⟩ := hi.toGateway d' hold
      refine ⟨ks, hks, h, inner, hcarries', fun f hf hr => .inl ?_⟩
      exact (hrekey f hf hr).resolve_right fun hlive => hnw hlive.1
    obtain rfl : d' = d := by simpa using hnew
    rw [hi.base.agent.send] at hcarries
    refine ⟨_, hi.base.agent.current, _, _, hcarries,
      fun f hf hr => .inr ⟨⟨hup, hnodue⟩, rfl, rfl, newEpoch, eph, index, rfl, ?_⟩⟩
    exact Option.some.inj (hf.symm.trans (frameOf_encode hC _))

theorem Inv.agentRequests (hC : C.RoundTrips) (hi : Inv P C H suite ph s)
    (hq : s.agent.queue = .rekeyDue :: q) (offer : Except TunnelError K.KeyPair)
    (draw : Option UInt32) (socketOk : Bool) :
    ∃ ph', Inv P C H suite ph' (s.agentHandles P C H offer draw socketOk) := by
  have hsame := hi.agentFailsToAsk hq (refl _) rfl
  have hspent := hi.agentFailsToAsk hq (kept_spend _) rfl
  simp only [HubState.agentHandles, handleEvent, hq, handleRekeyDue, sendFrame]
  cases offer with
  | error e => exact ⟨_, by simpa using hsame⟩
  | ok eph =>
    cases halloc : allocateIndex s.agent.bound draw with
    | error e => exact ⟨_, by simpa using hsame⟩
    | ok index =>
      simp only
      rcases sendInner_cases P socketOk s.agent.session (.control (C.encode
          (.rekey (s.agent.session.epoch + 1) (K.publicKey eph) index))) with
        ⟨e, heq⟩ | ⟨-, -, ⟨e, heq⟩ | ⟨d, heq, hcarries⟩⟩ <;> rw [heq]
      · exact ⟨_, by simpa using hsame⟩
      · exact ⟨_, by simpa using hspent⟩
      · exact ⟨_, hi.agentAsks hC hq eph (notMem_of_allocateIndex halloc) hcarries⟩

theorem Inv.agentRotates
    (hi : Inv P C H suite (.acked newEpoch eph ct ss) s)
    (hnodue : .rekeyDue ∉ q) (hrest : framesIn isAck q = []) :
    Inv P C H suite (.synced 0 : Phase K) { s with
      agent :=
        { session := s.agent.session.rotate s.gateway.session.current.keys
            s.gateway.session.current.remoteIndex s.gateway.session.current.localIndex s.now
          bound := s.agent.bound ++ [s.gateway.session.current.remoteIndex]
          queue := q }
      pending := none } := by
  obtain ⟨hahead, hrekeys, -⟩ := hi.phase
  have hnext : s.gateway.session.current.keys.epoch = s.agent.session.current.keys.epoch + 1 := by
    rw [hahead.keys, SessionKeys.rekey_epoch]
  have hindex := hi.base.pendingFresh _ _ hahead.slot
  refine ⟨{ hi.base with
      agent := hi.base.agent.rotate hnext hi.base.gateway.current (fun _ hk => hk) hindex _ _ _
      pendingFresh := fun eph index hslot => (nomatch hslot)
      dueOnce := by simp [List.count_eq_zero.mpr hnodue]
      duePending := fun hmem => absurd hmem hnodue },
    ⟨⟨rfl, rfl, rfl⟩, hrekeys, hrest⟩, fun b _ => Window.below_new b, fun d hd => ?_,
    fun d hd => ?_⟩
  · obtain ⟨ks, hks, h, inner, hcarries, hcounter, hack, -⟩ := hi.toAgent d hd
    refine ⟨ks, hks, h, inner, hcarries, hcounter, fun f hf ha => .inl ?_,
      fun b hb hcur => .inl ?_⟩
    · -- An old ack was sealed under other keys than those of the new epoch.
      have hdead := (hack f hf ha).resolve_right id
      refine ⟨hdead.1, hdead.2.rotate (fun heq => ?_) _ _ _⟩
      rw [hi.base.agent.ends.roleEq] at heq
      exact hdead.1 (hi.base.distinct .initiator _ hks _ hi.base.gateway.current
        (AeadKey.mk.inj heq).2)
    · rw [← Option.some.inj hb]
      exact hcounter hcur
  · obtain ⟨ks, hks, h, inner, hcarries, hrekey⟩ := hi.toGateway d hd
    exact ⟨ks, hks, h, inner, hcarries, fun f hf hr => .inl ((hrekey f hf hr).resolve_right id)⟩

theorem Inv.agentCompletes (hi : Inv P C H suite ph s)
    (hq : s.agent.queue = .control (.rekeyAck newEpoch ct newIndex) :: q)
    (offer : Except TunnelError K.KeyPair) (draw : Option UInt32) (socketOk : Bool) :
    Inv P C H suite (.synced 0) (s.agentHandles P C H offer draw socketOk) := by
  have hphase := hi.phase
  cases ph with
  | acked newEpoch' eph ct' ss =>
    obtain ⟨hahead, -, hacks⟩ := hphase
    obtain ⟨⟨rfl, rfl, rfl⟩, hrest⟩ : (newEpoch = newEpoch' ∧ ct = ct' ∧
        newIndex = s.gateway.session.current.localIndex) ∧ framesIn isAck q = [] := by
      simpa [hq, isAck] using hacks
    have hnodue : .rekeyDue ∉ q := fun hmem =>
      hahead.waits.2 (hq ▸ List.mem_cons_of_mem _ hmem)
    have hrotated := hi.agentRotates hnodue hrest
    simpa [HubState.agentHandles, handleEvent, hq, handleControl, hahead.slot, completeRekey,
      hahead.decapsulated, ← hahead.keys] using hrotated
  | synced | taken | answered => simp [PhaseOk, hq, isAck] at hphase

theorem Inv.agentHandles (hC : C.RoundTrips) (hi : Inv P C H suite ph s)
    (offer : Except TunnelError K.KeyPair) (draw : Option UInt32) (socketOk : Bool) :
    (s.agentHandles P C H offer draw socketOk).agent.session.closed = true ∨
      ∃ ph', Inv P C H suite ph' (s.agentHandles P C H offer draw socketOk) := by
  cases hq : s.agent.queue with
  | nil => exact .inr ⟨ph, by simpa [HubState.agentHandles, handleEvent, hq] using hi⟩
  | cons ev q =>
    cases ev with
    | rekeyDue => exact .inr (hi.agentRequests hC hq offer draw socketOk)
    | idle => exact .inl (by simp [HubState.agentHandles, handleEvent, hq, remove, close])
    | ip packet =>
      refine .inr ⟨ph, ?_⟩
      simpa [HubState.agentHandles, handleEvent, hq] using hi.agentPops hq (by simp) rfl
    | control frame =>
      cases frame with
      | rekeyAck newEpoch ct newIndex =>
        exact .inr ⟨_, hi.agentCompletes hq offer draw socketOk⟩
      | close reason =>
        exact .inl (by
          simp [HubState.agentHandles, handleEvent, hq, handleControl, remove, close])
      | _ =>
        refine .inr ⟨ph, ?_⟩
        have hpopped := hi.agentPops hq (by simp) rfl
        simpa [HubState.agentHandles, handleEvent, hq, handleControl] using hpopped

/-! ### The gateway's event handler -/

theorem Inv.gatewayPops (hi : Inv P C H suite ph s) {ev : EndpointEvent}
    (hq : s.gateway.queue = ev :: q) (hrekey : framesIn isRekey (ev :: q) = framesIn isRekey q) :
    Inv P C H suite ph { s with gateway := { s.gateway with queue := q } } :=
  hi.setGateway (refl _) hi.base.gateway.indexed.1 le_rfl (by rw [hq, hrekey])

theorem Inv.gatewayGivesUp
    (hi : Inv P C H suite (.taken newEpoch eph index) s)
    (hrest : framesIn isRekey q = []) :
    Inv P C H suite (.synced 0 : Phase K) { s with gateway := { s.gateway with queue := q } } := by
  obtain ⟨hmirror, -, hacks, -, -⟩ := hi.phase
  refine ⟨{ hi.base with gateway := hi.base.gateway.kept (refl _) hi.base.gateway.indexed.1 },
    ⟨hmirror, hrest, hacks⟩, hi.below, hi.toAgent, fun d hd => ?_⟩
  obtain ⟨ks, hks, h, inner, hcarries, hrekey⟩ := hi.toGateway d hd
  exact ⟨ks, hks, h, inner, hcarries, fun f hf hr => .inl ((hrekey f hf hr).resolve_right id)⟩

/-- The gateway answers the request and rotates: its ack, sealed in the old epoch, is the one
of the phase. -/
theorem Inv.gatewayRotates
    (hi : Inv P C H suite (.taken newEpoch eph index) s)
    (hrest : framesIn isRekey q = [])
    (hdec : K.decapsulate eph ct = .ok ss) {newLocal : UInt32}
    (hlocal : newLocal ∉ s.gateway.bound)
    (hcarries : Carries P d s.gateway.session.current.cipher.send
      (s.gateway.session.headerFor s.gateway.session.current.cipher.counter.value)
      (.control (C.encode (.rekeyAck newEpoch ct newLocal)))) {next : SessionKeys}
    (hnext : next = s.gateway.session.current.keys.rekey H ss)
    (hfresh : ∀ k ∈ s.keys, next.kI2r ≠ k.kI2r ∧ next.kR2i ≠ k.kR2i) :
    Inv P C H suite (.answered d s.gateway.session.current.cipher.counter.value newEpoch eph ct ss)
      { s with
        gateway :=
          { session := s.gateway.session.spend.rotate next newLocal index s.now
            bound := s.gateway.bound ++ [newLocal]
            queue := q }
        toAgent := s.toAgent ++ [d]
        keys := s.keys ++ [next] } := by
  obtain ⟨⟨hkeys, hr, hl⟩, -, hacks, hw, hslot⟩ := hi.phase
  have hne : ∀ k ∈ s.keys, k ≠ next := fun k hk heq => (hfresh k hk).1 (heq ▸ rfl)
  have hspent := hi.base.gateway.kept (a := { s.gateway with session := s.gateway.session.spend })
    (kept_spend _) hi.base.gateway.indexed.1
  have hkept : ∀ k ∈ s.keys, k ∈ s.keys ++ [next] := fun k hk => List.mem_append_left _ hk
  have hmem : next ∈ s.keys ++ [next] := List.mem_append_right _ (List.mem_singleton.mpr rfl)
  rw [hi.base.gateway.send, ← hkeys] at hcarries
  refine ⟨{ hi.base with
      agent := { hi.base.agent with known := fun e he => hkept _ (hi.base.agent.known e he) }
      gateway := hspent.rotate (by rw [hnext]; rfl) hmem hkept hlocal _ _ _
      distinct := hi.base.distinct.snoc hfresh },
    ⟨⟨hw, hslot, hdec, by rw [hkeys]; exact hnext⟩, hrest, hacks,
      List.mem_append_right _ (List.mem_singleton.mpr rfl), _, hl, rfl, hcarries⟩,
    fun b hb => ?_, fun d' hd' => ?_, fun d' hd' => ?_⟩
  · exact hi.below b hb
  · rcases List.mem_append.mp hd' with hold | hnew
    · -- What was sealed before the ack in the old epoch has a smaller counter.
      obtain ⟨ks, hks, h, inner, hcarries', hcounter, hack, -⟩ := hi.toAgent d' hold
      refine ⟨ks, hkept _ hks, h, inner, hcarries',
        fun heq => absurd heq (hne ks hks), fun f hf ha => .inl ⟨hne ks hks, ?_⟩,
        fun b hb hcur => .inl ?_⟩
      · exact ((hack f hf ha).resolve_right id).2
      · rw [← Option.some.inj hb]
        exact hcounter (hcur.trans hkeys)
    · obtain rfl : d' = d := by simpa using hnew
      exact ⟨_, hkept _ hi.base.agent.current, _, _, hcarries,
        fun heq => absurd heq (hne _ hi.base.agent.current), fun f hf ha => .inr rfl,
        fun b hb hcur => .inr rfl⟩
  · obtain ⟨ks, hks, h, inner, hcarries', hrekey⟩ := hi.toGateway d' hd'
    refine ⟨ks, hkept _ hks, h, inner, hcarries', fun f hf hr => .inl ?_⟩
    have hdead := (hrekey f hf hr).resolve_right id
    refine ((kept_spend _).refused _ _ hdead).rotate (fun heq => ?_) _ _ _
    rw [hspent.ends.roleEq] at heq
    exact (hfresh ks hks).1 (AeadKey.mk.inj heq).2.symm

/-- Everything the gateway can do with a request: drop it, where a counter may be spent, or
seal the ack in the old epoch and rotate. -/
theorem handleControl_rekey_cases (P : AeadImpl) (C : FrameCodec) (H : Hkdf) (socketOk : Bool)
    (x : Session) (newEpoch newIndex : UInt32) (pk : Bytes) (coins : K.Coins)
    (allocated : Except TunnelError UInt32) (now : ℕ) :
    let out := Gateway.handleControl (sendFrame P C socketOk) K H x
      (.rekey newEpoch pk newIndex) coins allocated now
    out = ⟨x, none, none, false⟩ ∨
    (x.current.cipher.counter.value < SendCounter.LIMIT ∧ out = ⟨x.spend, none, none, false⟩) ∨
    ∃ ct ss newLocal d, K.encapsulate pk coins = .ok (ct, ss) ∧ allocated = .ok newLocal ∧
      Carries P d x.current.cipher.send (x.headerFor x.current.cipher.counter.value)
        (.control (C.encode (.rekeyAck newEpoch ct newLocal))) ∧
      out = ⟨x.spend.rotate (x.current.keys.rekey H ss) newLocal newIndex now, some d,
        some newLocal, false⟩ := by
  simp only [Gateway.handleControl, answerRekey, sendFrame]
  rcases henc : K.encapsulate pk coins with e | ⟨ct, ss⟩
  · exact .inl rfl
  cases allocated with
  | error e => exact .inl rfl
  | ok newLocal =>
    simp only
    rcases sendInner_cases P socketOk x
        (.control (C.encode (.rekeyAck newEpoch ct newLocal))) with
      ⟨e, heq⟩ | ⟨-, hlt, ⟨e, heq⟩ | ⟨d, heq, hcarries⟩⟩ <;> rw [heq]
    · exact .inl rfl
    · exact .inr (.inl ⟨hlt, rfl⟩)
    · exact .inr (.inr ⟨ct, ss, newLocal, d, rfl, rfl, hcarries, rfl⟩)

theorem Inv.gatewayAnswers (hK : K.Correct) (hi : Inv P C H suite ph s) {pk : Bytes}
    (hq : s.gateway.queue = .control (.rekey newEpoch pk newIndex) :: q) (coins : K.Coins)
    (draw : Option UInt32) (socketOk : Bool)
    (hfresh : s.keysFresh P C H (.gatewayHandles coins draw socketOk) = true) :
    ∃ ph', Inv P C H suite ph' (s.gatewayHandles P C H coins draw socketOk) := by
  have hphase := hi.phase
  cases ph with
  | taken newEpoch' eph index =>
    obtain ⟨⟨rfl, rfl, rfl⟩, hrest⟩ : (newEpoch = newEpoch' ∧ pk = K.publicKey eph ∧
        newIndex = index) ∧ framesIn isRekey q = [] := by
      simpa [hq, isRekey] using hphase.2.1
    have hsame := hi.gatewayGivesUp hrest
    simp only [HubState.keysFresh, HubState.gatewayHandles, hq] at hfresh ⊢
    rcases handleControl_rekey_cases P C H socketOk s.gateway.session newEpoch newIndex
        (K.publicKey eph) coins (allocateIndex s.gateway.bound draw) s.now with
      heq | ⟨hlt, heq⟩ | ⟨ct, ss, newLocal, d, henc, halloc, hcarries, heq⟩
    · exact ⟨_, by simpa [heq] using hsame⟩
    · exact ⟨_, by simpa [heq] using hsame.gatewaySpend hlt⟩
    simp only [heq] at hfresh ⊢
    have hnew : ∀ k ∈ s.keys, (s.gateway.session.current.keys.rekey H ss).kI2r ≠ k.kI2r ∧
        (s.gateway.session.current.keys.rekey H ss).kR2i ≠ k.kR2i := by
      simpa [rotate] using hfresh
    exact ⟨_, hi.gatewayRotates hrest (hK _ _ _ _ henc) (notMem_of_allocateIndex halloc)
      hcarries rfl hnew⟩
  | synced | answered | acked => simp [PhaseOk, hq, isRekey] at hphase

theorem Inv.gatewayProbes (hC : C.RoundTrips) (hi : Inv P C H suite ph s) {size : UInt32}
    {padding : Bytes}
    (hq : s.gateway.queue = .control (.mtuProbe size padding) :: q) (coins : K.Coins)
    (draw : Option UInt32) (socketOk : Bool) :
    Inv P C H suite ph (s.gatewayHandles P C H coins draw socketOk) := by
  have hsent := (hi.gatewayPops hq rfl).gatewaySends socketOk
    (.control (C.encode (.mtuProbeAck size))) fun f hf => by
      rw [← Option.some.inj ((frameOf_encode hC _).symm.trans hf)]
      rfl
  obtain ⟨r, x, hres⟩ : ∃ r x, sendInner P socketOk s.gateway.session
      (.control (C.encode (.mtuProbeAck size))) = (r, x) := ⟨_, _, rfl⟩
  simp only [HubState.gatewayHandles, hq, Gateway.handleControl, sendFrame, hres]
  simp only [hres] at hsent
  cases r with
  | error | ok => simpa [Except.toOption] using hsent

theorem Inv.gatewayHandles (hC : C.RoundTrips) (hK : K.Correct) (hi : Inv P C H suite ph s)
    (coins : K.Coins) (draw : Option UInt32) (socketOk : Bool)
    (hfresh : s.keysFresh P C H (.gatewayHandles coins draw socketOk) = true) :
    (s.gatewayHandles P C H coins draw socketOk).gateway.session.closed = true ∨
      ∃ ph', Inv P C H suite ph' (s.gatewayHandles P C H coins draw socketOk) := by
  cases hq : s.gateway.queue with
  | nil => exact .inr ⟨ph, by simpa [HubState.gatewayHandles, hq] using hi⟩
  | cons ev q =>
    cases ev with
    | idle =>
      exact .inl (by simp [HubState.gatewayHandles, hq, remove, close])
    | rekeyDue | ip =>
      exact .inr ⟨ph, by simpa [HubState.gatewayHandles, hq] using hi.gatewayPops hq rfl⟩
    | control frame =>
      cases frame with
      | rekey newEpoch pk newIndex =>
        exact .inr (hi.gatewayAnswers hK hq coins draw socketOk hfresh)
      | close reason =>
        exact .inl (by simp [HubState.gatewayHandles, hq, Gateway.handleControl,
          remove, close])
      | mtuProbe size padding =>
        exact .inr ⟨ph, hi.gatewayProbes hC hq coins draw socketOk⟩
      | _ =>
        refine .inr ⟨ph, ?_⟩
        simpa [HubState.gatewayHandles, hq, Gateway.handleControl] using hi.gatewayPops hq rfl

end Avon.Agent.Hub
