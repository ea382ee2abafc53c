import Avon.Control.Answers
import Avon.Lib.Table

/-!
# Brokered answers come from the party that was asked

Both kinds of call have the same bookkeeping, and `Side` is the invariant of one kind. An answer
keeps it if its sender is the one the waiting call has asked (`FromAsked`).
-/

set_option autoImplicit false

namespace Avon.Control

open Avon.Crypto Avon.Proto Avon.Lib Avon.Lib.BigEndian Avon.Lib.Run

theorem sessionIdBytes_inj {a b : SessionId} (h : sessionIdBytes a = sessionIdBytes b) : a = b :=
  bitVec_beBytes_inj (w := 16) h

structure RowKey where
  id : SessionId
  deviceId : DeviceId
  peerDeviceId : Option DeviceId
  gatewayId : Option GatewayId

def BrokeredRow.key (row : BrokeredRow) : RowKey :=
  ⟨row.id, row.deviceId, row.peerDeviceId, row.gatewayId⟩

def CallPhase.sender {σ α : Type} : CallPhase σ α → Option σ
  | .answered sender _ => some sender
  | .loaded sender _ => some sender
  | .activated sender _ => some sender
  | _ => none

/-! ### One kind of call -/

section Side

variable {σ α : Type}

/-- Every call has a row that is assigned to the one it has asked, a waiter is the one of its call,
and what a call has received is from the one it has asked. -/
structure Side (assigned : RowKey → Option σ) (keys : List RowKey) (w : Waiters σ α)
    (calls : ℕ → Option (BrokerCall σ α)) : Prop where
  row : ∀ call c, calls call = some c → ∃ k ∈ keys, k.id = c.id ∧ assigned k = some c.asked
  waiter : ∀ id call, w.table id = some call → ∃ c, calls call = some c ∧ sessionIdBytes c.id = id
  inbox : ∀ call x a, w.inbox call = some (x, a) → ∃ c, calls call = some c ∧ c.asked = x
  sender : ∀ call c, calls call = some c → ∀ x ∈ c.phase.sender, x = c.asked

variable {assigned : RowKey → Option σ} {keys keys' : List RowKey} {w : Waiters σ α}
  {calls : ℕ → Option (BrokerCall σ α)}

theorem Side.init : Side assigned [] (.empty : Waiters σ α) fun _ => none :=
  ⟨nofun, nofun, nofun, nofun⟩

section
variable (h : Side assigned keys w calls)
include h

theorem Side.mono (hsub : keys ⊆ keys') : Side assigned keys' w calls :=
  { h with row := fun call c hc =>
      have ⟨k, hk, hid⟩ := h.row call c hc
      ⟨k, hsub hk, hid⟩ }

variable {c : BrokerCall σ α} {call : ℕ}

theorem Side.setCall (hrow : ∃ k ∈ keys, k.id = c.id ∧ assigned k = some c.asked)
    (hsame : ∀ c', calls call = some c' → c'.id = c.id ∧ c'.asked = c.asked)
    (hsender : ∀ x ∈ c.phase.sender, x = c.asked) :
    Side assigned keys w (Function.update calls call (some c)) := by
  -- the calls are as before, apart from the phase of one
  have hkept : ∀ n c', calls n = some c' → ∃ c'', Function.update calls call (some c) n = some c'' ∧
      c'.id = c''.id ∧ c'.asked = c''.asked := by
    intro n c' hc'
    by_cases hn : n = call
    · subst hn
      exact ⟨c, Function.update_self .., hsame c' hc'⟩
    · exact ⟨c', by rwa [Function.update_of_ne hn], rfl, rfl⟩
  constructor
  case row =>
    intro n c' hc'
    rcases update_eq_some.mp hc' with ⟨rfl, ⟨⟩⟩ | ⟨-, hc'⟩
    · exact hrow
    · exact h.row n c' hc'
  case waiter =>
    intro id n hn
    obtain ⟨c', hc', hid⟩ := h.waiter id n hn
    obtain ⟨c'', hc'', heq, -⟩ := hkept n c' hc'
    exact ⟨c'', hc'', heq ▸ hid⟩
  case inbox =>
    intro n x a hn
    obtain ⟨c', hc', hx⟩ := h.inbox n x a hn
    obtain ⟨c'', hc'', -, heq⟩ := hkept n c' hc'
    exact ⟨c'', hc'', heq ▸ hx⟩
  case sender =>
    intro n c' hc'
    rcases update_eq_some.mp hc' with ⟨rfl, ⟨⟩⟩ | ⟨-, hc'⟩
    · exact hsender
    · exact h.sender n c' hc'

theorem Side.move {asked : σ} {id : SessionId}
    {phase phase' : CallPhase σ α} (hc : calls call = some ⟨asked, id, phase⟩)
    (hsender : ∀ x ∈ phase'.sender, x = asked) :
    Side assigned keys w (Function.update calls call (some ⟨asked, id, phase'⟩)) := by
  have hrow := h.row call _ hc
  refine h.setCall hrow (fun c' hc' => ?_) hsender
  cases hc.symm.trans hc'
  exact ⟨rfl, rfl⟩

theorem Side.register (hc : calls call = some c) :
    Side assigned keys (w.register (sessionIdBytes c.id) call) calls := by
  refine { h with waiter := fun id n hn => ?_ }
  rcases update_eq_some.mp hn with ⟨rfl, ⟨⟩⟩ | ⟨-, hn⟩
  · exact ⟨c, hc, rfl⟩
  · exact h.waiter id n hn

theorem Side.remove (id : Bytes) :
    Side assigned keys { w with table := Function.update w.table id none } calls := by
  refine { h with waiter := fun id' n hn => ?_ }
  rcases update_eq_some.mp hn with ⟨-, ⟨⟩⟩ | ⟨-, hn⟩
  exact h.waiter id' n hn

theorem Side.resolve (listening : ℕ → Bool) {id : Bytes} {x : σ}
    {a : α} (hfrom : ∀ call c, w.table id = some call → calls call = some c →
      sessionIdBytes c.id = id → c.asked = x) :
    Side assigned keys (w.resolve listening id x a) calls := by
  unfold Waiters.resolve
  split
  · exact h
  rename_i call hcall
  obtain ⟨c, hc, hid⟩ := h.waiter id call hcall
  have hremoved := h.remove id
  refine { hremoved with inbox := fun n x' a' hn => ?_ }
  dsimp only at hn
  split at hn
  · rcases update_eq_some.mp hn with ⟨rfl, ⟨⟩⟩ | ⟨-, hn⟩
    · exact ⟨c, hc, hfrom n c hcall hc hid⟩
    · exact h.inbox n x' a' hn
  · exact h.inbox n x' a' hn

end

end Side

/-! ### The exchange -/

namespace Exchange

/-- The bytes of a session id name only sessions that are assigned to the gateway. -/
def AssignedTo (s : Exchange) (gateway : GatewayId) (id : Bytes) : Prop :=
  ∀ row ∈ s.rows, sessionIdBytes row.id = id → row.gatewayId = some gateway

/-- Answers and events of a gateway are about sessions that are assigned to it, at least if they
find a waiter or a row, and a peer session is not answered by its initiator. -/
def FromAsked (s : Exchange) : ExchangeEvent → Prop
  | .sessionAnswer gateway answer =>
    (s.pendingAnswers.table answer.sessionId).isSome → s.AssignedTo gateway answer.sessionId
  | .sessionEvent gateway e _ true => s.AssignedTo gateway e.sessionId
  | .checkAnswer _ device answer true => ∀ row ∈ s.rows, sessionIdBytes row.id = answer.sessionId →
      mayAnswer row device = true → row.peerDeviceId = some device
  | _ => True

instance (s : Exchange) (gateway : GatewayId) (id : Bytes) : Decidable (s.AssignedTo gateway id) :=
  inferInstanceAs (Decidable (∀ row ∈ s.rows, _))

instance (s : Exchange) (e : ExchangeEvent) : Decidable (s.FromAsked e) := by
  unfold FromAsked
  split <;> infer_instance

def keys (s : Exchange) : List RowKey := s.rows.map BrokeredRow.key

structure Inv (s : Exchange) : Prop where
  unique : ∀ k ∈ s.keys, ∀ k' ∈ s.keys, k.id = k'.id → k = k'
  distinct : ∀ k ∈ s.keys, k.peerDeviceId ≠ some k.deviceId
  opens : Side RowKey.gatewayId s.keys s.pendingAnswers s.opens
  dials : Side RowKey.peerDeviceId s.keys s.peerPending s.dials
  answering : ∀ n device answer, s.answering n = some (device, answer) →
    ∃ k ∈ s.keys, sessionIdBytes k.id = answer.sessionId ∧ k.peerDeviceId = some device
  opened : ∀ x ∈ s.opened, x.2.1 = x.1.asked
  dialed : ∀ x ∈ s.dialed, x.2.1 = x.1.asked ∧
    ∃ k ∈ s.keys, k.id = x.1.id ∧ k.peerDeviceId = some x.2.1
  touched : ∀ x ∈ s.touched, x.2.gatewayId = some x.1

theorem inv_init : Inv init where
  unique := List.forall_mem_nil _
  distinct := List.forall_mem_nil _
  opens := .init
  dials := .init
  answering := nofun
  opened := List.forall_mem_nil _
  dialed := List.forall_mem_nil _
  touched := List.forall_mem_nil _

variable {s s' : Exchange}

theorem keys_updateRows (where' : BrokeredRow → Bool) {f : BrokeredRow → BrokeredRow}
    (hf : ∀ row, (f row).key = row.key) : (s.updateRows where' f).keys = s.keys := by
  simp only [keys, updateRows, List.map_map]
  refine List.map_congr_left fun row _ => ?_
  simp only [Function.comp_apply]
  split
  · exact hf row
  · rfl

theorem Inv.updateRows (h : Inv s) (where' : BrokeredRow → Bool) {f : BrokeredRow → BrokeredRow}
    (hf : ∀ row, (f row).key = row.key) : Inv (s.updateRows where' f) := by
  have hkeys := keys_updateRows (s := s) where' hf
  constructor
  case unique => rw [hkeys]; exact h.unique
  case distinct => rw [hkeys]; exact h.distinct
  case opens => rw [hkeys]; exact h.opens
  case dials => rw [hkeys]; exact h.dials
  case answering => rw [hkeys]; exact h.answering
  case opened => exact h.opened
  case dialed => rw [hkeys]; exact h.dialed
  case touched => exact h.touched

theorem Inv.insertRow (h : Inv s) {row : BrokeredRow} (hs : s.insertRow row = some s')
    (hrow : row.peerDeviceId ≠ some row.deviceId) :
    Inv s' ∧ s'.opens = s.opens ∧ s'.dials = s.dials ∧ row.key ∈ s'.keys := by
  unfold Exchange.insertRow at hs
  split at hs
  · cases hs
  rename_i hnew
  cases hs
  have hnew : ∀ r ∈ s.rows, r.id ≠ row.id := by simpa using hnew
  have hkeys : ({ s with rows := s.rows ++ [row] } : Exchange).keys = s.keys ++ [row.key] := by
    simp [keys]
  have hsub : s.keys ⊆ s.keys ++ [row.key] := List.subset_append_left ..
  have hid : ∀ k ∈ s.keys, k.id ≠ row.id := by
    intro k hk
    obtain ⟨r, hr, rfl⟩ := List.mem_map.mp hk
    exact hnew r hr
  refine ⟨?_, rfl, rfl, by rw [hkeys]; simp⟩
  constructor
  case unique =>
    rw [hkeys]
    intro k hk k' hk' heq
    rcases List.mem_append.mp hk with hk | hk <;> rcases List.mem_append.mp hk' with hk' | hk'
    · exact h.unique k hk k' hk' heq
    · rw [List.mem_singleton.mp hk'] at heq
      exact absurd heq (hid k hk)
    · rw [List.mem_singleton.mp hk] at heq
      exact absurd heq.symm (hid k' hk')
    · rw [List.mem_singleton.mp hk, List.mem_singleton.mp hk']
  case distinct =>
    rw [hkeys]
    intro k hk
    rcases List.mem_append.mp hk with hk | hk
    · exact h.distinct k hk
    · rw [List.mem_singleton.mp hk]
      exact hrow
  case opens => rw [hkeys]; exact h.opens.mono hsub
  case dials => rw [hkeys]; exact h.dials.mono hsub
  case answering =>
    rw [hkeys]
    intro n device answer hn
    obtain ⟨k, hk, hk'⟩ := h.answering n device answer hn
    exact ⟨k, hsub hk, hk'⟩
  case opened => exact h.opened
  case dialed =>
    rw [hkeys]
    intro x hx
    obtain ⟨hx, k, hk, hk'⟩ := h.dialed x hx
    exact ⟨hx, k, hsub hk, hk'⟩
  case touched => exact h.touched

theorem Inv.withOpens (h : Inv s) {w : Waiters GatewayId SessionAnswer}
    {calls : ℕ → Option (BrokerCall GatewayId SessionAnswer)}
    (hside : Side RowKey.gatewayId s.keys w calls) :
    Inv { s with pendingAnswers := w, opens := calls } :=
  { h with opens := hside }

theorem Inv.withDials (h : Inv s) {w : Waiters DeviceId PeerAnswer}
    {calls : ℕ → Option (BrokerCall DeviceId PeerAnswer)}
    (hside : Side RowKey.peerDeviceId s.keys w calls) :
    Inv { s with peerPending := w, dials := calls } :=
  { h with dials := hside }

theorem Inv.moveOpen (h : Inv s) {call : ℕ} {g : GatewayId} {id : SessionId}
    {phase : CallPhase GatewayId SessionAnswer} (phase' : CallPhase GatewayId SessionAnswer)
    (hc : s.opens call = some ⟨g, id, phase⟩)
    (hsender : ∀ x ∈ phase'.sender, x = g) : Inv (s.setOpen call ⟨g, id, phase'⟩) :=
  h.withOpens (h.opens.move hc hsender)

theorem Inv.moveDial (h : Inv s) {call : ℕ} {target : DeviceId} {id : SessionId}
    {phase : CallPhase DeviceId PeerAnswer} (phase' : CallPhase DeviceId PeerAnswer)
    (hc : s.dials call = some ⟨target, id, phase⟩)
    (hsender : ∀ x ∈ phase'.sender, x = target) : Inv (s.setDial call ⟨target, id, phase'⟩) :=
  h.withDials (h.dials.move hc hsender)

/-! ### One step -/

section
variable (h : Inv s)
include h

section
variable (call : ℕ)
include call

theorem Inv.insertOpenStep (device : DeviceId) (g : GatewayId)
    (id : SessionId) (ok : Bool) : Inv (s.insertOpenStep call device g id ok) := by
  unfold Exchange.insertOpenStep
  split
  case h_2 => exact h
  rename_i s' hnone hs
  split at hs
  case isFalse => cases hs
  obtain ⟨hinv, hopens, -, hkey⟩ := h.insertRow hs nofun
  refine hinv.withOpens (hinv.opens.setCall ⟨_, hkey, rfl, rfl⟩ (fun c hc => ?_) nofun)
  rw [hopens, hnone] at hc
  cases hc

theorem Inv.insertDialStep (device target : DeviceId) (id : SessionId)
    (ok : Bool) : Inv (s.insertDialStep call device target id ok) := by
  unfold Exchange.insertDialStep
  split
  case h_2 => exact h
  rename_i s' hnone hs
  split at hs
  case isFalse => cases hs
  rename_i hok
  have hne : target ≠ device := by simpa using (Bool.and_eq_true_iff.mp hok).2
  obtain ⟨hinv, -, hdials, hkey⟩ := h.insertRow hs fun heq => hne (Option.some.inj heq)
  refine hinv.withDials (hinv.dials.setCall ⟨_, hkey, rfl, rfl⟩ (fun c hc => ?_) nofun)
  rw [hdials, hnone] at hc
  cases hc

theorem Inv.registerOpenStep : Inv (s.registerOpenStep call) := by
  unfold Exchange.registerOpenStep
  split
  case h_2 => exact h
  rename_i g id hc
  have hmove := h.moveOpen .registered hc nofun
  exact hmove.withOpens (hmove.opens.register (Function.update_self ..))

theorem Inv.registerDialStep : Inv (s.registerDialStep call) := by
  unfold Exchange.registerDialStep
  split
  case h_2 => exact h
  rename_i target id hc
  have hmove := h.moveDial .registered hc nofun
  exact hmove.withDials (hmove.dials.register (Function.update_self ..))

theorem Inv.sendOfferStep (ok : Bool) : Inv (s.sendOfferStep call ok) := by
  unfold Exchange.sendOfferStep
  split
  case h_2 => exact h
  rename_i hc
  refine h.moveOpen _ hc ?_
  split <;> nofun

theorem Inv.receiveAnswerStep : Inv (s.receiveAnswerStep call) := by
  unfold Exchange.receiveAnswerStep
  split
  case h_2 => exact h
  rename_i g id sender answer hc hinbox
  refine h.moveOpen _ hc fun x hx => ?_
  obtain ⟨c, hc', hasked⟩ := h.opens.inbox call sender answer hinbox
  cases hc.symm.trans hc'
  obtain rfl := Option.some.inj hx
  exact hasked.symm

theorem Inv.receivePeerAnswerStep : Inv (s.receivePeerAnswerStep call) := by
  unfold Exchange.receivePeerAnswerStep
  split
  case h_2 => exact h
  rename_i target id sender answer hc hinbox
  refine h.moveDial _ hc fun x hx => ?_
  split at hx
  · obtain ⟨c, hc', hasked⟩ := h.dials.inbox call sender answer hinbox
    cases hc.symm.trans hc'
    obtain rfl := Option.some.inj hx
    exact hasked.symm
  · cases hx

theorem Inv.offerTimeoutStep : Inv (s.offerTimeoutStep call) := by
  unfold Exchange.offerTimeoutStep
  split
  case h_2 => exact h
  rename_i g id hc
  have hmove := h.moveOpen (.failing "offer timeout") hc nofun
  exact hmove.withOpens (hmove.opens.remove _)

theorem Inv.peerTimeoutStep : Inv (s.peerTimeoutStep call) := by
  unfold Exchange.peerTimeoutStep
  split
  case h_2 => exact h
  rename_i target id hc
  have hmove := h.moveDial (.failing "offer timeout") hc nofun
  exact hmove.withDials (hmove.dials.remove _)

theorem Inv.pushOfferStep (pushed : Bool) : Inv (s.pushOfferStep call pushed) := by
  unfold Exchange.pushOfferStep
  split
  case h_2 => exact h
  rename_i target id hc
  split
  · exact h.moveDial _ hc nofun
  · have hmove := h.moveDial (.failing "peer offline") hc nofun
    exact hmove.withDials (hmove.dials.remove _)

theorem Inv.activateOpenStep (ok : Bool) : Inv (s.activateOpenStep call ok) := by
  unfold Exchange.activateOpenStep
  split
  case h_2 => exact h
  rename_i g id sender answer hc
  split
  · have hrow := h.updateRows (fun row => row.id = id)
      (f := fun row => { row with state := .active }) fun _ => rfl
    refine hrow.moveOpen _ hc fun x hx => ?_
    exact h.opens.sender call _ hc x hx
  · exact h.moveOpen _ hc nofun

theorem Inv.gatewayCertificateStep (ok : Bool) : Inv (s.gatewayCertificateStep call ok) := by
  unfold Exchange.gatewayCertificateStep
  split
  case h_2 => exact h
  rename_i g id sender answer hc
  have hmove := h.moveOpen .returned hc nofun
  dsimp only
  split
  · refine { hmove with opened := fun x hx => ?_ }
    rcases List.mem_cons.mp hx with rfl | hx
    · exact h.opens.sender call _ hc sender rfl
    · exact h.opened x hx
  · exact hmove

theorem Inv.loadResponderStep (ok : Bool) : Inv (s.loadResponderStep call ok) := by
  unfold Exchange.loadResponderStep
  split
  case h_2 => exact h
  rename_i target id sender answer hc
  refine h.moveDial _ hc fun x hx => ?_
  split at hx
  · exact h.dials.sender call _ hc x hx
  · cases hx

theorem Inv.activateDialStep (ok : Bool) : Inv (s.activateDialStep call ok) := by
  unfold Exchange.activateDialStep
  split
  case h_2 => exact h
  rename_i target id sender answer hc
  have hmove := h.moveDial .returned hc nofun
  dsimp only
  split
  · have hactive := hmove.updateRows (fun row => row.id = id)
      (f := fun row => { row with state := .active }) fun _ => rfl
    refine { hactive with dialed := fun x hx => ?_ }
    rcases List.mem_cons.mp hx with rfl | hx
    · obtain rfl : sender = target := h.dials.sender call _ hc sender rfl
      exact ⟨rfl, hactive.dials.row call ⟨sender, id, .returned⟩ (Function.update_self ..)⟩
    · exact hactive.dialed x hx
  · exact hmove

theorem Inv.closeOpenStep (now : ℤ) (ok : Bool) : Inv (s.closeOpenStep call now ok) := by
  unfold Exchange.closeOpenStep
  split
  case h_2 => exact h
  rename_i g id reason hc
  split
  · have hrows := h.updateRows (fun row => row.id = id) (f := (·.close reason now)) fun _ => rfl
    exact hrows.moveOpen _ hc
      nofun
  · exact h.moveOpen _ hc nofun

theorem Inv.closeDialStep (now : ℤ) (ok : Bool) : Inv (s.closeDialStep call now ok) := by
  unfold Exchange.closeDialStep
  split
  case h_2 => exact h
  rename_i target id reason hc
  split
  · have hrows := h.updateRows (fun row => row.id = id) (f := (·.close reason now)) fun _ => rfl
    exact hrows.moveDial _ hc
      nofun
  · exact h.moveDial _ hc nofun

end

theorem Inv.sessionAnswerStep {g : GatewayId} {answer : SessionAnswer}
    (hG : s.FromAsked (.sessionAnswer g answer)) : Inv (s.sessionAnswerStep g answer) := by
  refine h.withOpens (h.opens.resolve _ fun call c hcall hc hid => ?_)
  obtain ⟨k, hk, hkid, hasked⟩ := h.opens.row call c hc
  obtain ⟨row, hrow, rfl⟩ := List.mem_map.mp hk
  have hassigned := hG (by rw [hcall]; rfl) row hrow (hid ▸ congrArg sessionIdBytes hkid)
  exact Option.some.inj (hasked.symm.trans hassigned)

theorem Inv.sessionEventStep {g : GatewayId} {e : SessionEvent} {now : ℤ} {ok : Bool}
    (hG : s.FromAsked (.sessionEvent g e now ok)) : Inv (s.sessionEventStep g e now ok) := by
  unfold Exchange.sessionEventStep
  split
  case isFalse => exact h
  rename_i hok
  subst hok
  have hrows := h.updateRows (fun row => sessionIdBytes row.id = e.sessionId)
    (f := (·.recordEvent e now)) fun _ => rfl
  refine { hrows with touched := fun x hx => ?_ }
  rcases List.mem_append.mp hx with hx | hx
  · obtain ⟨row, hrow, rfl⟩ := List.mem_map.mp hx
    obtain ⟨hmem, hhit⟩ := List.mem_filter.mp hrow
    exact hG row hmem (by simpa using (Bool.and_eq_true_iff.mp hhit).1)
  · exact h.touched x hx

theorem Inv.checkAnswerStep {call : ℕ} {device : DeviceId} {answer : PeerAnswer}
    {ok : Bool} (hG : s.FromAsked (.checkAnswer call device answer ok)) :
    Inv (s.checkAnswerStep call device answer ok) := by
  unfold Exchange.checkAnswerStep
  split
  case h_2 => exact h
  rename_i row hnone hfind
  split
  case isFalse => exact h
  rename_i hcheck
  simp only [Bool.and_eq_true] at hcheck
  obtain ⟨⟨⟨rfl, -⟩, -⟩, hmay⟩ := hcheck
  have hrow := List.mem_of_find?_eq_some hfind
  have hid : sessionIdBytes row.id = answer.sessionId := by simpa using List.find?_some hfind
  refine { h with answering := fun n device' answer' hn => ?_ }
  rcases update_eq_some.mp hn with ⟨rfl, ⟨⟩⟩ | ⟨-, hn⟩
  · exact ⟨row.key, List.mem_map_of_mem hrow, hid, hG row hrow hid hmay⟩
  · exact h.answering n device' answer' hn

theorem Inv.resolveAnswerStep (call : ℕ) : Inv (s.resolveAnswerStep call) := by
  unfold Exchange.resolveAnswerStep
  split
  case h_2 => exact h
  rename_i device answer hanswer
  obtain ⟨k, hk, hkid, hpeer⟩ := h.answering call device answer hanswer
  have hdials := h.withDials (h.dials.resolve s.listensDial (a := answer)
    fun n c _ hc hid => by
      obtain ⟨k', hk', hkid', hasked⟩ := h.dials.row n c hc
      have hsame : k.id = k'.id := by
        rw [hkid']
        exact sessionIdBytes_inj (hkid.trans hid.symm)
      rw [h.unique k hk k' hk' hsame, hasked] at hpeer
      exact Option.some.inj hpeer)
  refine { hdials with answering := fun n device' answer' hn => ?_ }
  rcases update_eq_some.mp hn with ⟨-, ⟨⟩⟩ | ⟨-, hn⟩
  exact h.answering n device' answer' hn

theorem Inv.step (e : ExchangeEvent) (hG : s.FromAsked e) : Inv (s.step e) := by
  cases e with
  | insertOpen call device gateway id ok => exact h.insertOpenStep call device gateway id ok
  | registerOpen call => exact h.registerOpenStep call
  | sendOffer call ok => exact h.sendOfferStep call ok
  | receiveAnswer call => exact h.receiveAnswerStep call
  | offerTimeout call => exact h.offerTimeoutStep call
  | activateOpen call ok => exact h.activateOpenStep call ok
  | gatewayCertificate call ok => exact h.gatewayCertificateStep call ok
  | insertDial call device target id ok => exact h.insertDialStep call device target id ok
  | registerDial call => exact h.registerDialStep call
  | pushOffer call pushed => exact h.pushOfferStep call pushed
  | receivePeerAnswer call => exact h.receivePeerAnswerStep call
  | peerTimeout call => exact h.peerTimeoutStep call
  | loadResponder call ok => exact h.loadResponderStep call ok
  | activateDial call ok => exact h.activateDialStep call ok
  | closeOpen call now ok => exact h.closeOpenStep call now ok
  | closeDial call now ok => exact h.closeDialStep call now ok
  | abandonOpen call =>
    simp only [Exchange.step]
    split
    · exact h.moveOpen _ ‹_› nofun
    · exact h
  | abandonDial call =>
    simp only [Exchange.step]
    split
    · exact h.moveDial _ ‹_› nofun
    · exact h
  | sessionAnswer gateway answer => exact h.sessionAnswerStep hG
  | sessionEvent gateway e now ok => exact h.sessionEventStep hG
  | checkAnswer call device answer ok => exact h.checkAnswerStep hG
  | resolveAnswer call => exact h.resolveAnswerStep call
  | closeRows ids reason now => exact h.updateRows _ fun _ => rfl

end

/-- Every answer that a call has returned was sent by the one that was asked, for a peer session the
target and not the initiator; and session events of a gateway have changed rows of its own
sessions only. -/
structure Answered (s : Exchange) : Prop where
  opened : ∀ x ∈ s.opened, x.2.1 = x.1.asked
  dialed : ∀ x ∈ s.dialed, x.2.1 = x.1.asked ∧ ∃ row ∈ s.rows, row.id = x.1.id ∧
    row.peerDeviceId = some x.2.1 ∧ row.deviceId ≠ x.2.1
  touched : ∀ x ∈ s.touched, x.2.gatewayId = some x.1

theorem Inv.answered (h : Inv s) : Answered s where
  opened := h.opened
  dialed x hx := by
    obtain ⟨hasked, k, hk, hid, hpeer⟩ := h.dialed x hx
    have hne := h.distinct k hk
    obtain ⟨row, hrow, rfl⟩ := List.mem_map.mp hk
    refine ⟨hasked, row, hrow, hid, hpeer, fun heq => hne ?_⟩
    rw [hpeer, ← heq]
    rfl
  touched := h.touched

/-- In every run in which answers and events come from the parties they concern, so do the answers
that calls return. -/
theorem answers_from_asked (events : List ExchangeEvent)
    (hG : Guarded step FromAsked init events) : Answered (run step init events) :=
  (hG.invariant (fun _ e hs hGe => hs.step e hGe) inv_init).answered

/-! ### Runs -/

def answerFor (id : SessionId) : SessionAnswer := ⟨sessionIdBytes id, [], [], 1, "", 1, []⟩

def peerAnswerFor (id : SessionId) : PeerAnswer := ⟨sessionIdBytes id, some (answerFor id), []⟩

def openedBy (g : GatewayId) : List ExchangeEvent :=
  [.insertOpen 0 1 9 10 true, .registerOpen 0, .sendOffer 0 true, .sessionAnswer g (answerFor 10),
    .receiveAnswer 0, .activateOpen 0 true, .gatewayCertificate 0 true]

def dialedBy (d : DeviceId) : List ExchangeEvent :=
  [.insertDial 0 1 2 11 true, .registerDial 0, .pushOffer 0 true,
    .checkAnswer 0 d (peerAnswerFor 11) true, .resolveAnswer 0, .receivePeerAnswer 0,
    .loadResponder 0 true, .activateDial 0 true]

def closedBy (g : GatewayId) : ExchangeEvent :=
  .sessionEvent g ⟨sessionIdBytes 10, "closed", "idle", 1, 1⟩ 100 true

theorem answers_from_asked_day :
    ((run step init (openedBy 9 ++ dialedBy 2 ++ [closedBy 9])).opened.length,
      (run step init (openedBy 9 ++ dialedBy 2 ++ [closedBy 9])).dialed.length,
      (run step init (openedBy 9 ++ dialedBy 2 ++ [closedBy 9])).touched.length) = (1, 1, 1) ∧
    Answered (run step init (openedBy 9 ++ dialedBy 2 ++ [closedBy 9])) :=
  ⟨by decide +kernel, answers_from_asked _ (by decide +kernel)⟩

/-- Gateway 8 answers for gateway 9, device 1 answers its own offer, and gateway 8 closes a session
of gateway 9. -/
theorem answers_from_others :
    (∃ x ∈ (run step init (openedBy 8)).opened, x.2.1 ≠ x.1.asked) ∧
    (∃ x ∈ (run step init (dialedBy 1)).dialed, x.2.1 ≠ x.1.asked) ∧
    (∃ x ∈ (run step init (openedBy 9 ++ [closedBy 8])).touched, x.2.gatewayId ≠ some x.1) := by
  decide +kernel

end Exchange

end Avon.Control
