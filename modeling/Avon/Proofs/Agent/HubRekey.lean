import Avon.Proofs.Agent.HubSteps

/-!
# When the two ends of a hub session can lose each other

The gateway rotates as soon as its ack is on the wire, and the agent asks once per epoch. So the ack
must arrive (`hub_lost_ack`). Everything else may be lost, duplicated and reordered.
-/

set_option autoImplicit false

namespace Avon.Agent

namespace Hub

open Avon.Crypto Avon.Tunnel Avon.Lib.Run

variable {K : HybridKem} {P : AeadImpl} {C : FrameCodec} {H : Hkdf} {suite : Suite} {s : HubState K}
  {ph : Phase K}

/-! ### Closing is final -/

theorem closed_sendInner (socketOk : Bool) (x : Session) (inner : Inner) :
    (Endpoint.sendInner P socketOk x inner).2.closed = x.closed := by
  rcases Endpoint.sendInner_cases P socketOk x inner with
    ⟨e, heq⟩ | ⟨-, -, ⟨e, heq⟩ | ⟨d, heq, -⟩⟩ <;> rw [heq] <;> rfl

theorem closed_receive (e : Endpoint) (sender : SocketAddr) (d : Bytes) :
    (e.receive P C sender d).session.closed = e.session.closed := by
  have haccept : (e.accept P d).2.closed = e.session.closed := by
    unfold Endpoint.accept
    split
    · rfl
    rename_i header body _
    split
    · have hopen : (e.session.open P header body).2.closed = e.session.closed :=
        (e.session.kept_open P header body).1.closed
      split <;> rename_i hres <;> rw [hres] at hopen <;> exact hopen
    · rfl
  unfold Endpoint.receive
  split <;> rename_i hres <;> rw [hres] at haccept <;> exact haccept

theorem closed_timer (cfg : TimerConfig) (e : Endpoint) (idle : Bool) (now : ℕ) :
    (e.timer cfg idle now).session.closed = e.session.closed := by
  have hk := (e.session.kept_expirePreviousEpoch cfg.epochOverlap now).closed
  unfold Endpoint.timer
  split
  · rfl
  simp only
  split
  · exact hk
  · split <;> exact hk

theorem closed_handleEvent {e : Endpoint} (h : e.session.closed = true) (pending : PendingRekey K)
    (offer : Except TunnelError K.KeyPair) (draw : Option UInt32) (socketOk : Bool) (now : ℕ) :
    (handleEvent P C K H e pending offer draw socketOk now).endpoint.session.closed = true := by
  unfold handleEvent
  split
  · exact h
  · rename_i frame q _
    simp only
    split
    · rfl
    unfold handleControl
    split
    · split
      · exact h
      · split <;> exact h
    · exact h
    · exact h
  · exact h
  · rfl
  · simp only [handleRekeyDue]
    split
    · exact h
    split
    · exact h
    have hsent := closed_sendInner (P := P) socketOk e.session
    split <;> rename_i hres <;>
      exact ((congrArg (fun r => Session.closed r.2) hres).symm.trans (hsent _)).trans h

theorem closed_gatewayHandles (h : s.gateway.session.closed = true) (coins : K.Coins)
    (draw : Option UInt32) (socketOk : Bool) :
    (s.gatewayHandles P C H coins draw socketOk).gateway.session.closed = true := by
  have hsent := closed_sendInner (P := P) socketOk s.gateway.session
  unfold HubState.gatewayHandles
  split
  · exact h
  · rename_i frame q _
    simp only
    split
    · rfl
    unfold Gateway.handleControl
    split
    · split
      · exact h
      split
      · exact h
      · split <;> rename_i hres <;>
          exact ((congrArg (fun r => Session.closed r.2) hres).symm.trans (hsent _)).trans h
    · exact h
    · split <;> rename_i hres <;>
        exact ((congrArg (fun r => Session.closed r.2) hres).symm.trans (hsent _)).trans h
    · exact h
  · rfl
  · exact h

theorem closed_step (cfg : TimerConfig) (e : HubEvent K) :
    (s.agent.session.closed = true → (s.step P C H cfg e).agent.session.closed = true) ∧
      (s.gateway.session.closed = true → (s.step P C H cfg e).gateway.session.closed = true) := by
  cases e with
  | tick d => exact ⟨id, id⟩
  | timer atAgent idle =>
    cases atAgent with
    | true => exact ⟨(closed_timer ..).trans, id⟩
    | false => exact ⟨id, (closed_timer ..).trans⟩
  | send atAgent packet socketOk =>
    cases atAgent with
    | true => exact ⟨(closed_sendInner ..).trans, id⟩
    | false => exact ⟨id, (closed_sendInner ..).trans⟩
  | receive atAgent position sender =>
    cases atAgent with
    | true =>
      simp only [HubState.step]
      split
      · exact ⟨(closed_receive ..).trans, id⟩
      · exact ⟨id, id⟩
    | false =>
      simp only [HubState.step]
      split
      · exact ⟨id, (closed_receive ..).trans⟩
      · exact ⟨id, id⟩
  | agentHandles offer draw socketOk =>
    exact ⟨fun h => closed_handleEvent h .., id⟩
  | gatewayHandles coins draw socketOk =>
    refine ⟨fun h => ?_, fun h => closed_gatewayHandles h ..⟩
    simp only [HubState.step, HubState.gatewayHandles]
    split <;> exact h
  | close atAgent => cases atAgent <;> exact ⟨fun h => by first | rfl | exact h,
      fun h => by first | rfl | exact h⟩
  | drop toAgent position | duplicate toAgent position => cases toAgent <;> exact ⟨id, id⟩

/-! ### The invariant over a run -/

/-- One end is closed, or the invariant holds in some phase. -/
def HubOk (P : AeadImpl) (C : FrameCodec) (H : Hkdf) (suite : Suite) (s : HubState K) : Prop :=
  s.agent.session.closed = true ∨ s.gateway.session.closed = true ∨ ∃ ph, Inv P C H suite ph s

theorem mem_eraseIdx_of_ne {xs : List Bytes} {n : ℕ} {d d' : Bytes} (hn : xs[n]? = some d)
    (hd' : d' ∈ xs) (hne : d' ≠ d) : d' ∈ xs.eraseIdx n := by
  obtain ⟨i, hi⟩ := List.mem_iff_getElem?.mp hd'
  refine List.mem_eraseIdx_iff_getElem?.mpr ⟨i, fun heq => hne ?_, hi⟩
  rw [heq, hn] at hi
  exact (Option.some.inj hi).symm

theorem Inv.drop (hP : P.Correct) (hC : C.RoundTrips) (hi : Inv P C H suite ph s) (n : ℕ)
    (hkept : s.ackKept P C (.drop true n) = true) :
    Inv P C H suite ph { s with toAgent := s.toAgent.eraseIdx n } := by
  refine hi.setToAgent (fun d hd => hi.toAgent d (List.mem_of_mem_eraseIdx hd)) fun d hd => ?_
  have hmem := hi.liveAck_mem hd
  cases hn : s.toAgent[n]? with
  | none => rwa [List.eraseIdx_of_length_le (List.getElem?_eq_none_iff.mp hn)]
  | some d' =>
    by_cases hne : d = d'
    · subst hne
      cases ph with
      | answered d' m newEpoch eph ct ss =>
        obtain rfl : d = d' := hd
        obtain ⟨h, w, -, -, -, haccept⟩ := hi.accept_ack hP
        have hacks : s.acceptsAck P C d = true := by
          simp [HubState.acceptsAck, haccept, hC (.rekeyAck newEpoch ct _)]
        simpa [HubState.ackKept, hn, hacks] using hkept
      | synced | taken | acked => cases hd
    · exact mem_eraseIdx_of_ne hn hmem hne

theorem hubOk_step (hK : K.Correct) (hP : P.Correct) (hC : C.RoundTrips) (cfg : TimerConfig)
    (s : HubState K) (e : HubEvent K) (hs : HubOk P C H suite s)
    (hguard : s.ackKept P C e = true ∧ s.keysFresh P C H e = true ∧
      s.opensOnce P suite e = true) :
    HubOk P C H suite (s.step P C H cfg e) := by
  rcases hs with ha | hg | ⟨ph, hi⟩
  · exact .inl ((closed_step cfg e).1 ha)
  · exact .inr (.inl ((closed_step cfg e).2 hg))
  have keep : ∀ s' : HubState K, (∃ ph', Inv P C H suite ph' s') → HubOk P C H suite s' :=
    fun _ h => .inr (.inr h)
  cases e with
  | tick d => exact keep _ ⟨ph, hi.tick _⟩
  | timer atAgent idle =>
    cases atAgent with
    | true => exact keep _ ⟨ph, hi.agentTimer cfg idle⟩
    | false => exact keep _ ⟨ph, hi.gatewayTimer cfg idle⟩
  | send atAgent packet socketOk =>
    have hnone : ∀ f, frameOf C (HubState.payload packet) ≠ some f := fun f hf => by
      rw [frameOf_payload] at hf
      cases hf
    cases atAgent with
    | true => exact keep _ ⟨ph, hi.agentSends socketOk fun f hf => absurd hf (hnone f)⟩
    | false => exact keep _ ⟨ph, hi.gatewaySends socketOk _ fun f hf => absurd hf (hnone f)⟩
  | receive atAgent position sender =>
    cases atAgent with
    | true =>
      simp only [HubState.step]
      split
      · rename_i d hn
        exact keep _ (hi.agentReceive hP hC (List.mem_of_getElem? hn) sender
          (by simpa [HubState.opensOnce, hn] using hguard.2.2)
          (fun d' hd' => List.mem_of_mem_eraseIdx hd')
          fun d' hd' hne => mem_eraseIdx_of_ne hn hd' hne)
      · exact keep _ ⟨ph, hi⟩
    | false =>
      simp only [HubState.step]
      split
      · rename_i d hn
        exact keep _ (hi.gatewayReceive hP (List.mem_of_getElem? hn) sender
          (by simpa [HubState.opensOnce, hn] using hguard.2.2)
          fun d' hd' => List.mem_of_mem_eraseIdx hd')
      · exact keep _ ⟨ph, hi⟩
  | agentHandles offer draw socketOk =>
    exact (hi.agentHandles hC offer draw socketOk).imp_right Or.inr
  | gatewayHandles coins draw socketOk =>
    exact .inr (hi.gatewayHandles hC hK coins draw socketOk hguard.2.1)
  | close atAgent =>
    cases atAgent with
    | true => exact .inl rfl
    | false => exact .inr (.inl rfl)
  | drop toAgent position =>
    cases toAgent with
    | true => exact keep _ ⟨ph, hi.drop hP hC position hguard.1⟩
    | false =>
      exact keep _ ⟨ph, hi.setToGateway fun d hd =>
        hi.toGateway d (List.mem_of_mem_eraseIdx hd)⟩
  | duplicate toAgent position =>
    have hcopy : ∀ (xs : List Bytes) (d : Bytes), d ∈ xs ++ xs[position]?.toList → d ∈ xs := by
      intro xs d hd
      rcases List.mem_append.mp hd with hd | hd
      · exact hd
      · exact List.mem_of_getElem? (Option.mem_toList.mp hd)
    cases toAgent with
    | true =>
      exact keep _ ⟨ph, hi.setToAgent (fun d hd => hi.toAgent d (hcopy _ d hd))
        fun d hd => List.mem_append_left _ (hi.liveAck_mem hd)⟩
    | false =>
      exact keep _ ⟨ph, hi.setToGateway fun d hd => hi.toGateway d (hcopy _ d hd)⟩

/-! ### The ends meet -/

theorem Base.canOpen (h : Base suite s.agent s.pending s.gateway s.keys)
    (hm : Mirror s.agent.session.current s.gateway.session.current) :
    CanOpen s.agent s.gateway ∧ CanOpen s.gateway s.agent := by
  obtain ⟨hkeys, hr, hl⟩ := hm
  refine ⟨⟨?_, s.gateway.session.current, ?_, ?_⟩, ?_, s.agent.session.current, ?_, ?_⟩
  · rw [hr]
    exact h.gateway.indexed.1
  · rw [hr, epochAt, if_pos rfl]
  · rw [h.gateway.recv List.mem_cons_self, h.agent.send, hkeys]
    rfl
  · rw [hl]
    exact h.agent.indexed.1
  · rw [hl, epochAt, if_pos rfl]
  · rw [h.agent.recv List.mem_cons_self, h.gateway.send, hkeys]
    rfl

theorem mem_of_framesIn {test : TunnelFrame → Bool} {q : List EndpointEvent} {f : TunnelFrame}
    (h : f ∈ framesIn test q) : .control f ∈ q := by
  obtain ⟨ev, hev, hf⟩ := List.mem_filterMap.mp h
  cases ev with
  | control f' =>
    simp only [Option.ite_none_right_eq_some, Option.some.injEq] at hf
    exact hf.2 ▸ hev
  | ip | rekeyDue | idle => cases hf

theorem Inv.meet (hP : P.Correct) (hi : Inv P C H suite ph s) : EpochsMeet P s := by
  intro _ _ hquiet
  have hphase := hi.phase
  cases ph with
  | synced | taken => exact hi.base.canOpen hphase.1
  | answered d n newEpoch eph ct ss =>
    obtain ⟨h, w, -, -, -, haccept⟩ := hi.accept_ack hP
    exact absurd (.inl ⟨d, hi.liveAck_mem rfl, _, congrArg Prod.fst haccept⟩) hquiet
  | acked newEpoch eph ct ss =>
    have hqueued := mem_of_framesIn (hphase.2.2 ▸ List.mem_singleton.mpr rfl)
    exact absurd (.inr (.inr (.inl ⟨_, hqueued⟩))) hquiet

theorem sideOk_new (id : SessionId) (role : Role) (suite : Suite) (keys : SessionKeys)
    (l r : UInt32) (peer : Option SocketAddr) (now : ℕ) :
    SideOk suite role [keys] ⟨Session.new id role suite keys l r peer now, [l], []⟩ where
  isOpen := rfl
  ends := endOk_new ..
  known x hx := by
    rw [List.mem_singleton.mp hx]
    exact List.mem_singleton.mpr rfl
  indexed := ⟨List.mem_singleton.mpr rfl, fun p since hp => (nomatch hp)⟩

theorem inv_init (id : SessionId) (suite : Suite) (keys : SessionKeys)
    (agentIndex gatewayIndex : UInt32) (gatewayAt : SocketAddr) (now : ℕ) :
    Inv P C H suite (.synced 0)
      (HubState.init K id suite keys agentIndex gatewayIndex gatewayAt now) where
  base :=
    { agent := sideOk_new ..
      gateway := sideOk_new ..
      distinct := fun _ a ha b hb _ => by rw [List.mem_singleton.mp ha, List.mem_singleton.mp hb]
      pendingFresh := fun eph index hslot => (nomatch hslot)
      dueOnce := Nat.zero_le 1
      duePending := fun hmem => (nomatch hmem) }
  phase := ⟨⟨rfl, rfl, rfl⟩, rfl, rfl⟩
  below b _ := Window.below_new b
  toAgent d hd := by cases hd
  toGateway d hd := by cases hd

end Hub

open Avon.Crypto Avon.Tunnel Avon.Lib.Run

/-- In every run in which no acceptable ack is lost, every derived traffic key is new and no
datagram opens under two keys of the session, each end can open what the other seals whenever no
control frame is in flight. -/
theorem epochsMeet_of_ackKept (K : HybridKem) (P : AeadImpl) (C : FrameCodec) (H : Hkdf)
    (cfg : TimerConfig) (hK : K.Correct) (hP : P.Correct) (hC : C.RoundTrips) (id : SessionId)
    (suite : Suite) (keys : SessionKeys) (agentIndex gatewayIndex : UInt32)
    (gatewayAt : SocketAddr) (now : ℕ) (events : List (HubEvent K))
    (hguard : Guarded (HubState.step P C H cfg)
      (fun s e => s.ackKept P C e = true ∧ s.keysFresh P C H e = true ∧
        s.opensOnce P suite e = true)
      (HubState.init K id suite keys agentIndex gatewayIndex gatewayAt now) events) :
    EpochsMeet P (run (HubState.step P C H cfg)
      (HubState.init K id suite keys agentIndex gatewayIndex gatewayAt now) events) := by
  have hinit : Hub.HubOk P C H suite
      (HubState.init K id suite keys agentIndex gatewayIndex gatewayAt now) :=
    Or.inr (.inr ⟨_, Hub.inv_init ..⟩)
  have hinv := hguard.invariant (I := Hub.HubOk P C H suite)
    (fun s e hs hg => Hub.hubOk_step hK hP hC cfg s e hs hg) hinit
  rcases hinv with ha | hg | ⟨ph, hi⟩
  · intro hopen
    rw [ha] at hopen
    cases hopen
  · intro _ hopen
    rw [hg] at hopen
    cases hopen
  · exact hi.meet hP

def exampleHub : HubState transparentKem :=
  HubState.init transparentKem 1 .aes256Gcm ⟨1, 2, 3, 0⟩ 10 20 ⟨.v4 1, 4500⟩ 0

def exampleTimers : TimerConfig := ⟨0, 1000, 50⟩

/-- A rekey with a copy of the request on the way, which is lost, and a copy of the ack,
which arrives after the rotation. -/
def rekeyWithCopies : List (HubEvent transparentKem) :=
  [.timer true false, .agentHandles (.ok (7 : UInt8)) (some 11) true, .duplicate false 0,
   .receive false 0 ⟨.v4 2, 4500⟩, .gatewayHandles (9 : UInt8) (some 21) true, .drop false 0,
   .duplicate true 0, .receive true 0 ⟨.v4 1, 4500⟩, .agentHandles (.ok (8 : UInt8)) none true,
   .receive true 0 ⟨.v4 1, 4500⟩, .tick 100]

/-- Both ends of that run are in epoch 1, and they meet. -/
theorem epochsMeet_with_copies :
    let s := run (HubState.step transparentAead transparentCodec transparentHkdf exampleTimers)
      exampleHub rekeyWithCopies
    (s.agent.session.epoch, s.gateway.session.epoch) = (1, 1) ∧ EpochsMeet transparentAead s :=
  ⟨by decide +kernel, epochsMeet_of_ackKept transparentKem transparentAead transparentCodec
    transparentHkdf exampleTimers transparentKem_correct transparentAead_correct
    transparentCodec_roundTrips 1 .aes256Gcm ⟨1, 2, 3, 0⟩ 10 20 ⟨.v4 1, 4500⟩ 0 rekeyWithCopies
    (by decide +kernel)⟩

/-- The ack is lost. Later the gateway's previous epoch expires, and the agent's timer stays
quiet because its request is still out. -/
def rekeyWithLostAck : List (HubEvent transparentKem) :=
  [.timer true false, .agentHandles (.ok (7 : UInt8)) (some 11) true,
   .receive false 0 ⟨.v4 2, 4500⟩, .gatewayHandles (9 : UInt8) (some 21) true, .drop true 0,
   .tick 100, .timer true false, .timer false false]

/-- After one lost ack nothing is in flight, and the ends are on disjoint epochs. -/
theorem hub_lost_ack :
    ¬ EpochsMeet transparentAead
      (run (HubState.step transparentAead transparentCodec transparentHkdf exampleTimers)
        exampleHub rekeyWithLostAck) := by
  intro hmeet
  obtain ⟨hagent, hgateway, hta, htg, hqa, hqg, hidx⟩ :
      let s := run (HubState.step transparentAead transparentCodec transparentHkdf exampleTimers)
        exampleHub rekeyWithLostAck
      s.agent.session.closed = false ∧ s.gateway.session.closed = false ∧ s.toAgent = [] ∧
        s.toGateway = [] ∧ s.agent.queue = [] ∧ s.gateway.queue = [] ∧
        s.gateway.session.current.remoteIndex ∉ s.agent.bound := by
    decide +kernel
  have hquiet : ¬ HubState.ControlInFlight transparentAead
      (run (HubState.step transparentAead transparentCodec transparentHkdf exampleTimers)
        exampleHub rekeyWithLostAck) := by
    simp [HubState.ControlInFlight, hta, htg, hqa, hqg]
  exact hidx (hmeet hagent hgateway hquiet).2.1

end Avon.Agent
