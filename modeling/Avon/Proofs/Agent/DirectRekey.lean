import Avon.Agent.Direct
import Avon.Proofs.Agent.HubRekey

/-!
# A session between two agents never rekeys

The responder's half of a rekey is in the gateway only: `handle_event` of an agent ignores a
request. So no end of a peer session ever sends an ack (`NoAck`), and both ends stay in their first
epoch for the rest of the session (`firstEpoch_run`). A rekey completes only where there is none to
complete.

Of the AEAD only `Correct` is needed. Each end has one receive key all the time, so that a datagram
of the other end is opened under the key it was sealed with or not at all.
-/

set_option autoImplicit false

namespace Avon.Agent.Direct

open Avon.Crypto Avon.Tunnel Avon.Lib.Run Avon.Agent.Hub Session.Kept

variable {K : HybridKem} {P : AeadImpl} {C : FrameCodec} {H : Hkdf} {cfg : TimerConfig}
  {suite : Suite} {keys : SessionKeys} {r : Role}

/-! ### No acks -/

/-- The payload is not a control frame with an ack. -/
def Inner.NoAck (C : FrameCodec) (inner : Inner) : Prop :=
  ∀ f, frameOf C inner = some f → isAck f = false

/-- The datagram was sealed under `k`, and what it carries is no ack. -/
def NoAck (P : AeadImpl) (C : FrameCodec) (k : AeadKey) (d : Bytes) : Prop :=
  ∃ h inner, Carries P d k h inner ∧ Inner.NoAck C inner

theorem noAck_encode (hC : C.RoundTrips) {f : TunnelFrame} (hf : isAck f = false) :
    Inner.NoAck C (.control (C.encode f)) := by
  intro f' hf'
  rw [frameOf_encode hC] at hf'
  cases hf'
  exact hf

theorem kept_of_sends {x : Session} {inner : Inner} {out : Except TunnelError Bytes × Session}
    (h : Endpoint.Sends P x inner out) :
    x.Kept out.2 ∧ ∀ d ∈ out.1.toOption, ∃ h, Carries P d x.current.cipher.send h inner := by
  rcases h with ⟨e, rfl⟩ | ⟨-, -, ⟨e, rfl⟩ | ⟨d, rfl, hcarries⟩⟩
  · exact ⟨refl x, by simp [Except.toOption]⟩
  · exact ⟨x.kept_spend, by simp [Except.toOption]⟩
  · exact ⟨x.kept_spend, by simpa [Except.toOption] using ⟨_, hcarries⟩⟩

/-- A request is sent, or the pending flag is taken back. -/
theorem handleRekeyDue_kept (hC : C.RoundTrips) (socketOk : Bool) (pending : PendingRekey K)
    (x : Session) (offer : Except TunnelError K.KeyPair) (allocated : Except TunnelError UInt32) :
    let out := handleRekeyDue (Endpoint.sendFrame P C socketOk) K pending x offer allocated
    x.Kept out.session ∧ ∀ d ∈ out.sent, NoAck P C x.current.cipher.send d := by
  have hflag := (refl x).setRekeyPending false
  simp only [handleRekeyDue]
  cases offer with
  | error e => exact ⟨hflag, by simp⟩
  | ok eph =>
    cases allocated with
    | error e => exact ⟨hflag, by simp⟩
    | ok index =>
      simp only [Endpoint.sendFrame]
      rcases Endpoint.sendInner_cases P socketOk x
        (.control (C.encode (.rekey (x.epoch + 1) (K.publicKey eph) index))) with
        ⟨e, heq⟩ | ⟨-, -, ⟨e, heq⟩ | ⟨d, heq, hcarries⟩⟩ <;> rw [heq]
      · exact ⟨hflag, by simp⟩
      · exact ⟨x.kept_spend.setRekeyPending false, by simp⟩
      · refine ⟨x.kept_spend, ?_⟩
        simp only [Option.mem_some_iff, forall_eq']
        exact ⟨_, _, hcarries, noAck_encode hC rfl⟩

/-- A frame that is not an ack changes nothing, but a `Close` closes the session. -/
theorem handleControl_of_not_ack {f : TunnelFrame} (hf : isAck f = false)
    (pending : PendingRekey K) (x : Session) (now : ℕ) :
    handleControl Bytes K H pending x f now =
      ⟨x, pending, none, none, match f with | .close _ => true | _ => false⟩ := by
  cases f with
  | rekeyAck newEpoch ct newIndex => cases hf
  | _ => rfl

/-! ### One end -/

/-- The end has the one epoch it started with, and no ack in its queue. -/
structure FirstEpoch (suite : Suite) (keys : SessionKeys) (r : Role) (e : Endpoint) : Prop where
  epoch : e.session.epoch = keys.epoch
  send : e.session.current.cipher.send = ⟨suite, r.sendKey keys⟩
  recv : e.session.current.cipher.recv = ⟨suite, r.recvKey keys⟩
  previous : e.session.previous = none
  queue : ∀ f, .control f ∈ e.queue → isAck f = false

section
variable {e : Endpoint} (h : FirstEpoch suite keys r e)
include h

theorem FirstEpoch.kept {x : Session} (hk : e.session.Kept x) :
    FirstEpoch suite keys r { e with session := x } where
  epoch := hk.epoch.trans h.epoch
  send := hk.current.send.trans h.send
  recv := hk.current.recv.trans h.recv
  previous := by
    refine Option.eq_none_iff_forall_ne_some.mpr fun p hp => ?_
    obtain ⟨p', hp', -⟩ := hk.previous p.1 p.2 hp
    rw [h.previous] at hp'
    cases hp'
  queue := h.queue

theorem FirstEpoch.setQueue {queue : List EndpointEvent}
    (hq : ∀ f, .control f ∈ queue → isAck f = false) :
    FirstEpoch suite keys r { e with queue := queue } :=
  ⟨h.epoch, h.send, h.recv, h.previous, hq⟩

theorem FirstEpoch.append {more : List EndpointEvent}
    (hm : ∀ f, .control f ∈ more → isAck f = false) :
    FirstEpoch suite keys r { e with queue := e.queue ++ more } :=
  h.setQueue fun f hf => (List.mem_append.mp hf).elim (h.queue f) (hm f)

theorem FirstEpoch.remove : FirstEpoch suite keys r e.remove :=
  ⟨h.epoch, h.send, h.recv, h.previous, h.queue⟩

theorem FirstEpoch.timer (idle : Bool) (now : ℕ) :
    FirstEpoch suite keys r (e.timer cfg idle now) := by
  have hexpire : e.session.expirePreviousEpoch cfg.epochOverlap now = (none, e.session) := by
    rw [Session.expirePreviousEpoch, h.previous]
  unfold Endpoint.timer
  rw [hexpire]
  split
  · exact h
  simp only
  split
  · exact h.append (by simp)
  split
  · exact (h.kept ((refl _).setRekeyPending true)).append (by simp)
  · exact h

theorem FirstEpoch.receive (hP : P.Correct) (sender : SocketAddr) {d : Bytes}
    (hd : NoAck P C ⟨suite, r.recvKey keys⟩ d) :
    FirstEpoch suite keys r (e.receive P C sender d) := by
  obtain ⟨header, inner, hcarries, hinner⟩ := hd
  -- The end has one receive key, so it opens a datagram under no other.
  have honly : ∀ x ∈ e.session.epochs, x.cipher.recv = ⟨suite, r.recvKey keys⟩ := by
    intro x hx
    obtain rfl : x = e.session.current := by simpa [Session.epochs, h.previous] using hx
    exact h.recv
  unfold Endpoint.receive
  rcases Endpoint.accept_cases hP e hcarries fun x hx _ => honly x hx with
    heq | ⟨x, -, hcommits, heq⟩ <;> rw [heq]
  · exact h
  · exact (h.kept (hcommits.kept.setPeerEndpoint (some sender))).append fun f hf =>
      hinner f (mem_eventsOf hf)

/-- Handling an event keeps an end in its first epoch, and what it sends is no ack. -/
theorem FirstEpoch.handle (hC : C.RoundTrips) (pending : PendingRekey K)
    (offer : Except TunnelError K.KeyPair) (draw : Option UInt32) (socketOk : Bool) (now : ℕ) :
    let out := handleEvent P C K H e pending offer draw socketOk now
    FirstEpoch suite keys r out.endpoint ∧
      ∀ d ∈ out.sent, NoAck P C ⟨suite, r.sendKey keys⟩ d := by
  simp only [handleEvent]
  have hqueue := h.queue
  rcases hq : e.queue with _ | ⟨event, queue⟩
  · exact ⟨h, by simp⟩
  rw [hq] at hqueue
  have hrest : FirstEpoch suite keys r { e with queue := queue } :=
    h.setQueue fun f hf => hqueue f (List.mem_cons_of_mem _ hf)
  cases event with
  | control f =>
    have hf : isAck f = false := hqueue f List.mem_cons_self
    simp only [handleControl_of_not_ack hf, Option.toList_none, List.append_nil]
    refine ⟨?_, by simp⟩
    split
    · exact hrest.remove
    · exact hrest
  | ip packet => exact ⟨hrest, by simp⟩
  | idle => exact ⟨hrest.remove, by simp⟩
  | rekeyDue =>
    obtain ⟨hk, hsent⟩ := handleRekeyDue_kept (P := P) hC socketOk pending e.session offer
      (allocateIndex e.bound draw)
    exact ⟨hrest.kept hk, h.send ▸ hsent⟩

end

/-! ### Both ends stay in their first epoch -/

/-- Both ends are in their first epoch, and nothing on the way is an ack. -/
structure Inv (P : AeadImpl) (C : FrameCodec) (suite : Suite) (keys : SessionKeys)
    (ends : Role → Endpoint) (toward : Role → List Bytes) : Prop where
  ends : ∀ r, FirstEpoch suite keys r (ends r)
  toward : ∀ r, ∀ d ∈ toward r, NoAck P C ⟨suite, r.recvKey keys⟩ d

section
variable {ends : Role → Endpoint} {toward : Role → List Bytes} {ds : List Bytes}
  (h : Inv P C suite keys ends toward)
include h

theorem Inv.setEnd {e : Endpoint} (he : FirstEpoch suite keys r e) :
    Inv P C suite keys (Function.update ends r e) toward where
  ends := Function.forall_update_iff ends (FirstEpoch suite keys) |>.mpr ⟨he, fun r' _ => h.ends r'⟩
  toward := h.toward

theorem Inv.setToward (hds : ∀ d ∈ ds, NoAck P C ⟨suite, r.recvKey keys⟩ d) :
    Inv P C suite keys ends (Function.update toward r ds) where
  ends := h.ends
  toward := Function.forall_update_iff toward
    (fun r ds => ∀ d ∈ ds, NoAck P C ⟨suite, r.recvKey keys⟩ d) |>.mpr
      ⟨hds, fun r' _ => h.toward r'⟩

theorem Inv.addToward (hds : ∀ d ∈ ds, NoAck P C ⟨suite, r.recvKey keys⟩ d) :
    Inv P C suite keys ends (Function.update toward r (toward r ++ ds)) :=
  h.setToward fun d hd => (List.mem_append.mp hd).elim (h.toward r d) (hds d)

end

abbrev Ok (P : AeadImpl) (C : FrameCodec) (suite : Suite) (keys : SessionKeys)
    (s : DirectState K) : Prop :=
  Inv P C suite keys s.ends s.toward

section
variable {s : DirectState K}

theorem Ok.sends (h : Ok P C suite keys s) (r : Role) {inner : Inner}
    (hinner : Inner.NoAck C inner) {out : Except TunnelError Bytes × Session}
    (hout : Endpoint.Sends P (s.ends r).session inner out) :
    Ok P C suite keys (s.sends r out) := by
  obtain ⟨hkept, hsent⟩ := kept_of_sends hout
  refine (h.setEnd ((h.ends r).kept hkept)).addToward fun d hd => ?_
  obtain ⟨header, hcarries⟩ := hsent d (Option.mem_toList.mp hd)
  rw [(h.ends r).send, ← Role.recvKey_peer] at hcarries
  exact ⟨header, inner, hcarries, hinner⟩

theorem Ok.step (hP : P.Correct) (hC : C.RoundTrips) (h : Ok P C suite keys s)
    (e : DirectEvent K) : Ok P C suite keys (s.step P C H cfg e) := by
  cases e with
  | tick | others => exact h
  | timer r idle => exact h.setEnd ((h.ends r).timer idle s.now)
  | send r packet socketOk =>
    exact h.sends r (by simp [Inner.NoAck, frameOf_payload])
      (Endpoint.sendInner_cases P socketOk _ _)
  | probe r socketOk =>
    exact h.sends r (by simp [Inner.NoAck, frameOf]) (Endpoint.sendInnerTo_cases P socketOk _ _)
  | receive r n sender =>
    simp only [DirectState.step]
    split
    · rename_i d hd
      refine (h.setEnd ?_).setToward fun d' hd' => h.toward r d' (List.mem_of_mem_eraseIdx hd')
      exact (h.ends r).receive hP sender (h.toward r d (List.mem_of_getElem? hd))
    · exact h
  | handle r offer draw socketOk =>
    obtain ⟨hend, hsent⟩ := (h.ends r).handle (P := P) (H := H) hC (s.pending r) offer draw
      socketOk s.now
    rw [← Role.recvKey_peer] at hsent
    exact (h.setEnd hend).addToward fun d hd => hsent d (Option.mem_toList.mp hd)
  | closeAll r reason socketOk =>
    have hsent := h.sends r (noAck_encode hC (f := .close reason) rfl)
      (Endpoint.sendInner_cases P socketOk _ _)
    exact hsent.setEnd (hsent.ends r).remove
  | remove r => exact h.setEnd (h.ends r).remove
  | drop r n => exact h.setToward fun d hd => h.toward r d (List.mem_of_mem_eraseIdx hd)
  | duplicate r n =>
    exact h.addToward fun d hd => h.toward r d (List.mem_of_getElem? (Option.mem_toList.mp hd))

theorem firstEpoch_run (hP : P.Correct) (hC : C.RoundTrips) (h : Ok P C suite keys s)
    (events : List (DirectEvent K)) :
    Ok P C suite keys (run (DirectState.step P C H cfg) s events) :=
  run_invariant (I := Ok P C suite keys) (fun _ e hs => hs.step hP hC e) h events

theorem ok_init (id : SessionId) (index : Role → UInt32) (pending : Role → PendingRekey K)
    (now : ℕ) : Ok P C suite keys (DirectState.init K id suite keys index pending now) where
  ends _ := ⟨rfl, rfl, rfl, rfl, fun _ => List.not_mem_nil.elim⟩
  toward _ := List.forall_mem_nil _

theorem not_raises_of_pending (h : (s.ends .initiator).session.rekeyPending = true) :
    ¬ s.Raises cfg := by
  intro hraises
  unfold DirectState.Raises Endpoint.timer at hraises
  split at hraises
  · simp at hraises
  · rcases Session.expirePreviousEpoch_cases (s.ends .initiator).session cfg.epochOverlap s.now with
      heq | heq <;> simp [heq, h] at hraises

end

/-! ### The result -/

def exampleIndex : Role → UInt32
  | .initiator => 10
  | .responder => 20

def exampleDirect : DirectState transparentKem :=
  .init transparentKem 1 .aes256Gcm ⟨1, 2, 3, 0⟩ exampleIndex (fun _ => none) 0

def probes : List (DirectEvent transparentKem) :=
  [.probe .initiator true, .receive .responder 0 ⟨.v4 1, 4500⟩, .probe .responder true,
   .receive .initiator 0 ⟨.v4 2, 4500⟩]

abbrev exampleStep : DirectState transparentKem → DirectEvent transparentKem →
    DirectState transparentKem :=
  DirectState.step transparentAead transparentCodec transparentHkdf exampleTimers

def probed : DirectState transparentKem := run exampleStep exampleDirect probes

def ignoredRequest : List (DirectEvent transparentKem) :=
  [.handle .initiator (.ok (7 : UInt8)) (some 11) true, .receive .responder 0 ⟨.v4 1, 4500⟩,
   .handle .responder (.error .closed) none true]

end Avon.Agent.Direct
