import Avon.Proofs.Control.Answers

/-!
# What a failed call leaves behind

The ways in which `open_session` and `request_peer_session` return an error, each as the steps of
the call up to there. Only the checks, the `INSERT`, a target that is offline and the timeout leave
neither a waiter nor a row that is not closed (`clean_iff`).
-/

set_option autoImplicit false

namespace Avon.Control.Exchange

open Avon.Proto Avon.Lib.Run Waiters

/-- Where `open_session` returns an error. `query` is in `routes_for` or `pool_prefixes`. -/
inductive OpenExit where
  | checks | insert | query | send | timeout | activate | certificate
  deriving DecidableEq

inductive DialExit where
  | checks | insert | push | timeout | answer | responder | activate
  deriving DecidableEq

/-- A call for session `id`, with the answer that it gets if it gets so far. -/
structure Attempt where
  call : ℕ
  device : DeviceId
  id : SessionId
  now : ℤ

namespace Attempt

variable (a : Attempt)

/-- The offer is sent and the answer of the gateway received. -/
def opened (g : GatewayId) (answer : SessionAnswer) : List ExchangeEvent :=
  [.insertOpen a.call a.device g a.id true, .registerOpen a.call, .sendOffer a.call true,
    .sessionAnswer g answer, .receiveAnswer a.call]

def openSession (g : GatewayId) (answer : SessionAnswer) : OpenExit → List ExchangeEvent
  | .checks => []
  | .insert => [.insertOpen a.call a.device g a.id false]
  | .query => [.insertOpen a.call a.device g a.id true, .abandonOpen a.call]
  | .send =>
    [.insertOpen a.call a.device g a.id true, .registerOpen a.call, .sendOffer a.call false]
  | .timeout =>
    [.insertOpen a.call a.device g a.id true, .registerOpen a.call, .sendOffer a.call true,
      .offerTimeout a.call, .closeOpen a.call a.now true]
  | .activate => a.opened g answer ++ [.activateOpen a.call false]
  | .certificate =>
    a.opened g answer ++ [.activateOpen a.call true, .gatewayCertificate a.call false]

/-- The offer is pushed and the answer of the target received. -/
def dialed (target : DeviceId) (answer : PeerAnswer) (answering : ℕ) : List ExchangeEvent :=
  [.insertDial a.call a.device target a.id true, .registerDial a.call, .pushOffer a.call true,
    .checkAnswer answering target answer true, .resolveAnswer answering, .receivePeerAnswer a.call]

/-- `answer` is without an answer in it for the exit of that name. -/
def requestPeerSession (target : DeviceId) (answer : SessionAnswer) (answering : ℕ) :
    DialExit → List ExchangeEvent
  | .checks => []
  | .insert => [.insertDial a.call a.device target a.id false]
  | .push =>
    [.insertDial a.call a.device target a.id true, .registerDial a.call, .pushOffer a.call false,
      .closeDial a.call a.now true]
  | .timeout =>
    [.insertDial a.call a.device target a.id true, .registerDial a.call, .pushOffer a.call true,
      .peerTimeout a.call, .closeDial a.call a.now true]
  | .answer => a.dialed target ⟨sessionIdBytes a.id, none, []⟩ answering
  | .responder => a.dialed target ⟨sessionIdBytes a.id, some answer, []⟩ answering ++
      [.loadResponder a.call false]
  | .activate => a.dialed target ⟨sessionIdBytes a.id, some answer, []⟩ answering ++
      [.loadResponder a.call true, .activateDial a.call false]

end Attempt

/-- No waiter for the session is registered, and its row, if there is one, is closed. -/
def Clean (s : Exchange) (id : SessionId) : Prop :=
  s.pendingAnswers.table (sessionIdBytes id) = none ∧
    s.peerPending.table (sessionIdBytes id) = none ∧
      ∀ row ∈ s.rows, row.id = id → row.state = .closed

structure Unused (s : Exchange) (a : Attempt) (answering : ℕ) : Prop where
  opens : s.opens a.call = none
  dials : s.dials a.call = none
  answering : s.answering answering = none
  waiter : s.pendingAnswers.table (sessionIdBytes a.id) = none
  peerWaiter : s.peerPending.table (sessionIdBytes a.id) = none
  rows : ∀ row ∈ s.rows, row.id ≠ a.id

variable {s : Exchange} {a : Attempt} {n : ℕ}

theorem Unused.insertRow (h : Unused s a n) (row : BrokeredRow) (hrow : row.id = a.id) :
    s.insertRow row = some { s with rows := s.rows ++ [row] } := by
  have hfree : ¬ s.rows.any (fun r => r.id = row.id) := by simpa [hrow] using h.rows
  rw [Exchange.insertRow, if_neg hfree]

theorem Unused.find?_append (h : Unused s a n) (row : BrokeredRow) (hrow : row.id = a.id) :
    (s.rows ++ [row]).find? (fun r => sessionIdBytes r.id = sessionIdBytes a.id) = some row := by
  have hnone : s.rows.find? (fun r => sessionIdBytes r.id = sessionIdBytes a.id) = none := by
    simpa using fun r hr heq => h.rows r hr (sessionIdBytes_inj heq)
  simp [List.find?_append, hnone, hrow]

theorem Unused.clean (h : Unused s a n) : s.Clean a.id :=
  ⟨h.waiter, h.peerWaiter, fun row hr heq => absurd heq (h.rows row hr)⟩

theorem closed_of_mem_close (rows : List BrokeredRow) (id : SessionId) (reason : String) (now : ℤ) :
    ∀ r ∈ rows.map fun r => if r.id = id then r.close reason now else r,
      r.id = id → r.state = .closed := by
  intro r hr
  obtain ⟨r', -, rfl⟩ := List.mem_map.mp hr
  split
  · exact fun _ => rfl
  · rename_i hne
    exact fun heq => absurd heq hne

theorem openSession_clean_iff (h : Unused s a n) (g : GatewayId) (answer : SessionAnswer)
    (hid : answer.sessionId = sessionIdBytes a.id) (x : OpenExit) :
    (run step s (a.openSession g answer x)).Clean a.id ↔ x ∈ [.checks, .insert, .timeout] := by
  have hins := h.insertRow (gatewayRow a.device g a.id) rfl
  have hrow : (gatewayRow a.device g a.id).id = a.id := rfl
  have hstate : (gatewayRow a.device g a.id).state = .offered := rfl
  cases x with
  | checks => simpa [Attempt.openSession] using h.clean
  | insert => simpa [Attempt.openSession, step, insertOpenStep, h.opens] using h.clean
  | timeout =>
    simpa [Attempt.openSession, Clean, step, insertOpenStep, h.opens, hins, setOpen, hrow,
      registerOpenStep, sendOfferStep, offerTimeoutStep, closeOpenStep, updateRows,
      register, cancel, h.peerWaiter]
      using closed_of_mem_close (s.rows ++ [gatewayRow a.device g a.id]) a.id _ _
  | query | send | activate | certificate =>
    -- The row is there, and it is offered or active.
    simp [Attempt.openSession, Attempt.opened, Clean, step, insertOpenStep, h.opens, hins, setOpen,
      hrow, hstate, registerOpenStep, sendOfferStep, sessionAnswerStep, receiveAnswerStep,
      activateOpenStep, gatewayCertificateStep, register, resolve, hid, listensOpen,
      CallPhase.listening, activateRow, updateRows]

theorem requestPeerSession_clean_iff (h : Unused s a n) (target : DeviceId)
    (htarget : target ≠ a.device) (answer : SessionAnswer) (x : DialExit) :
    (run step s (a.requestPeerSession target answer n x)).Clean a.id ↔
      x ∈ [.checks, .insert, .push, .timeout] := by
  have hins := h.insertRow (peerRow a.device target a.id) rfl
  have hrow : (peerRow a.device target a.id).id = a.id := rfl
  have hstate : (peerRow a.device target a.id).state = .offered := rfl
  cases x with
  | checks => simpa [Attempt.requestPeerSession] using h.clean
  | insert => simpa [Attempt.requestPeerSession, step, insertDialStep, h.dials] using h.clean
  | push | timeout =>
    simpa [Attempt.requestPeerSession, Clean, step, insertDialStep, h.dials, hins, setDial, hrow,
      htarget, registerDialStep, pushOfferStep, peerTimeoutStep, closeDialStep, updateRows,
      register, cancel, h.waiter]
      using closed_of_mem_close (s.rows ++ [peerRow a.device target a.id]) a.id _ _
  | answer | responder | activate =>
    have hfind := h.find?_append (peerRow a.device target a.id) rfl
    have hmay : mayAnswer (peerRow a.device target a.id) target = true := by
      simp [mayAnswer, peerRow]
    have hpeer : (peerRow a.device target a.id).peerDeviceId = some target := rfl
    have hbytes : sessionIdBytes a.id ≠ [] := by
      intro hnil
      have hlength : (sessionIdBytes a.id).length = 16 := Lib.BigEndian.length_beBytes ..
      simp [hnil] at hlength
    simp [Attempt.requestPeerSession, Attempt.dialed, Clean, step, insertDialStep, h.dials, hins,
      setDial, hrow, hstate, htarget, registerDialStep, pushOfferStep, checkAnswerStep, h.answering,
      hfind, hmay, hpeer, hbytes, resolveAnswerStep, receivePeerAnswerStep, register,
      resolve, listensDial, CallPhase.listening, loadResponderStep, activateDialStep]

/-- A call that returns an error leaves nothing behind if and only if the error is one of the
checks, of the `INSERT`, of a target that is offline, or the timeout. -/
theorem clean_iff (s : Exchange) (a : Attempt) (n : ℕ) (h : Unused s a n) (answer : SessionAnswer)
    (hid : answer.sessionId = sessionIdBytes a.id) (g : GatewayId) (target : DeviceId)
    (htarget : target ≠ a.device) (x : OpenExit) (y : DialExit) :
    ((run step s (a.openSession g answer x)).Clean a.id ↔ x ∈ [.checks, .insert, .timeout]) ∧
      ((run step s (a.requestPeerSession target answer n y)).Clean a.id ↔
        y ∈ [.checks, .insert, .push, .timeout]) :=
  ⟨openSession_clean_iff h g answer hid x, requestPeerSession_clean_iff h target htarget answer y⟩

def first : Attempt := ⟨0, 1, 10, 100⟩

theorem clean_timeouts :
    (run step init (first.openSession 9 (answerFor 10) .timeout)).Clean 10 ∧
      (run step init (first.requestPeerSession 2 (answerFor 10) 0 .timeout)).Clean 10 :=
  have h := clean_iff init first 0 ⟨rfl, rfl, rfl, rfl, rfl, by simp [init]⟩ (answerFor 10) rfl 9 2
    (by decide) .timeout .timeout
  ⟨h.1.mpr (by decide), h.2.mpr (by decide)⟩

def left (events : List ExchangeEvent) : List SessionState :=
  (run step init events).rows.map (·.state)

/-- A closed stream leaves the waiter and an offered row, a gateway without a certificate an active
row, and a peer without one an offered row. -/
theorem left_behind :
    (run step init (first.openSession 9 (answerFor 10) .send)).pendingAnswers.table
        (sessionIdBytes 10) = some 0 ∧
      left (first.openSession 9 (answerFor 10) .send) = [.offered] ∧
      left (first.openSession 9 (answerFor 10) .certificate) = [.active] ∧
      left (first.requestPeerSession 2 (answerFor 10) 0 .responder) = [.offered] := by
  decide +kernel

end Avon.Control.Exchange
