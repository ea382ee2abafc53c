import Avon.Control.Sessions

/-!
# Rows of `sessions` over a run

`step_sessions` says what one step can do to the table: nothing, store a new row as offered, set one
id active, or close some rows. Nothing in the code keeps a closed row closed (`closed_then_active`).
-/

set_option autoImplicit false

namespace Avon.Control.Broker

open Avon.Lib.Run

/-! ### What the helpers leave alone -/

section
variable (s : Broker)

@[simp] theorem setClosing_sessions (call : ℕ) (c : Option Closing) :
    (s.setClosing call c).sessions = s.sessions := rfl

@[simp] theorem trySend_sessions (g : GatewayId) (msg : GatewayDown) :
    (s.trySend g msg).sessions = s.sessions := by
  unfold trySend
  split
  · split <;> rfl
  · rfl

end

/-! ### What a step does to the table -/

def activates (s : Broker) : BrokerEvent → Option SessionId
  | .activate call true =>
    match s.brokerings call with
    | some (.ready id) => some id
    | _ => none
  | .sessionEvent id .active true => some id
  | _ => none

variable {row : SessionRow} {s : Broker} {e : BrokerEvent}

theorem insertRow_eq_some {s s' : Broker} (h : s.insertRow row = some s') :
    (∀ r ∈ s.sessions, r.id ≠ row.id) ∧ s' = { s with sessions := s.sessions ++ [row] } := by
  unfold insertRow at h
  split at h
  · cases h
  rename_i hfresh
  cases h
  refine ⟨fun r hr hid => hfresh ?_, rfl⟩
  exact List.any_eq_true.mpr ⟨r, hr, decide_eq_true hid⟩

/-- An `INSERT` stores the row of its call under an id that is new, or does nothing. -/
theorem insertStep_cases (s : Broker) (call : ℕ) (ok : Bool) :
    (s.insertStep call ok).sessions = s.sessions ∨
      ∃ device dest id, s.brokerings call = some (.admitted device dest id) ∧
        (∀ r ∈ s.sessions, r.id ≠ id) ∧
        (s.insertStep call ok).sessions = s.sessions ++ [rowFor device dest id] := by
  unfold insertStep
  split
  · rename_i device dest id hcall
    split
    · rename_i s' hinsert
      cases ok with
      | false => cases hinsert
      | true =>
        obtain ⟨hfresh, rfl⟩ := insertRow_eq_some hinsert
        refine .inr ⟨device, dest, id, hcall, fun r hr => ?_, rfl⟩
        have hid := hfresh r hr
        cases dest <;> exact hid
    · exact .inl rfl
  · exact .inl rfl

/-- The steps that only move a call of `open_session` or `request_peer_session` on. -/
def movesCall : BrokerEvent → Bool
  | .openSession .. | .pickGateway .. | .requestPeer .. | .checkInitiator .. | .pushOffer ..
  | .answer .. | .timeout .. | .loadResponder .. | .abandon .. => true
  | _ => false

theorem step_of_movesCall (s : Broker) (h : movesCall e = true) :
    s.step e = s ∨ ∃ call b, s.step e = s.setBrokering call b ∧
      ∀ g channel id, b ≠ some (.stored (.gateway g channel) id) := by
  cases e with
  | openSession | pickGateway | requestPeer | timeout =>
    simp only [step]
    split
    · exact .inr ⟨_, _, rfl, nofun⟩
    · exact .inl rfl
  | checkInitiator | loadResponder =>
    simp only [step]
    split
    · split
      · exact .inr ⟨_, _, rfl, nofun⟩
      · exact .inr ⟨_, _, rfl, nofun⟩
    · exact .inl rfl
  | pushOffer call pushed =>
    simp only [step]
    split
    · cases pushed <;> exact .inr ⟨_, _, rfl, nofun⟩
    · exact .inl rfl
  | answer call =>
    simp only [step]
    split
    · exact .inr ⟨_, _, rfl, nofun⟩
    · exact .inr ⟨_, _, rfl, nofun⟩
    · exact .inl rfl
  | abandon call => exact .inr ⟨_, _, rfl, nofun⟩
  | _ => cases h

theorem step_sessions (s : Broker) (e : BrokerEvent) :
    (s.step e).sessions = s.sessions ∨
    (∃ call ok device dest id, e = .insertSession call ok ∧
      s.brokerings call = some (.admitted device dest id) ∧ (∀ r ∈ s.sessions, r.id ≠ id) ∧
      (s.step e).sessions = s.sessions ++ [rowFor device dest id]) ∨
    (∃ id, s.activates e = some id ∧
      (s.step e).sessions = (s.setState .active fun row => row.id = id).sessions) ∨
    ∃ hit, (s.step e).sessions = (s.setState .closed hit).sessions := by
  by_cases hmoves : movesCall e = true
  · left
    obtain hsame | ⟨call, b, hmoved, -⟩ := step_of_movesCall s hmoves
    · rw [hsame]
    · rw [hmoved]
      rfl
  -- All others write the table, or have to do with channels and suspensions.
  cases e with
  | insertSession call ok =>
    obtain hsame | ⟨device, dest, id, hcall, hfresh, hstored⟩ := insertStep_cases s call ok
    · exact .inl hsame
    · exact .inr (.inl ⟨call, ok, device, dest, id, rfl, hcall, hfresh, hstored⟩)
  | sendOffer call =>
    left
    simp only [step, sendOfferStep]
    split
    · split
      · rfl
      · split <;> rfl
    · rfl
  | activate call ok =>
    simp only [step]
    split
    · rename_i id hcall
      cases ok with
      | false => exact .inl rfl
      | true => exact .inr (.inr (.inl ⟨id, by simp [activates, hcall], rfl⟩))
    · exact .inl rfl
  | closeFailed call ok =>
    simp only [step]
    split
    · rename_i id hcall
      cases ok with
      | false => exact .inl rfl
      | true => exact .inr (.inr (.inr ⟨_, rfl⟩))
    · exact .inl rfl
  | reportClosed device id ok =>
    cases ok with
    | false => exact .inl rfl
    | true => exact .inr (.inr (.inr ⟨_, rfl⟩))
  | sessionEvent id kind ok =>
    cases ok with
    | false => cases kind <;> exact .inl rfl
    | true =>
      cases kind with
      | active => exact .inr (.inr (.inl ⟨id, rfl, rfl⟩))
      | closed => exact .inr (.inr (.inr ⟨_, rfl⟩))
      | other => exact .inl rfl
  | closeSessions call ok =>
    simp only [step, closeSessionsStep]
    split
    · cases ok with
      | false => exact .inl rfl
      | true => exact .inr (.inr (.inr ⟨_, rfl⟩))
    · exact .inl rfl
  | tellGateway call =>
    left
    simp only [step, tellGatewayStep]
    split
    · split <;> simp
    · rfl
  | closingReturns call =>
    left
    simp only [step, closingReturnsStep]
    split <;> rfl
  | broadcast gateway => exact .inl (by simp [step])
  | suspendDevice | revokeDevice | closingFails =>
    left
    simp only [step]
    split <;> rfl
  | reactivate | openStream | streamEnds | closeChannel | takeMessage => exact .inl rfl
  | _ => exact absurd rfl hmoves

theorem mem_setState {state : SessionState} {hit : SessionRow → Bool} : row ∈
    (s.setState state hit).sessions ↔
      ∃ r ∈ s.sessions, row = if hit r then { r with state := state } else r := by
  simp [setState, eq_comm (a := row)]

theorem setState_ids (s : Broker) (state : SessionState) (hit : SessionRow → Bool) :
    (s.setState state hit).sessions.map (·.id) = s.sessions.map (·.id) := by
  simp only [setState, List.map_map]
  apply List.map_congr_left
  intro row _
  simp only [Function.comp_apply]
  split <;> rfl

/-! ### One row for an id -/

theorem rowFor_id (device : DeviceId) (dest : OfferTo) (id : SessionId) :
    (rowFor device dest id).id = id := by
  cases dest <;> rfl

theorem nodup_ids_step (h : (s.sessions.map (·.id)).Nodup) (e : BrokerEvent) :
    ((s.step e).sessions.map (·.id)).Nodup := by
  obtain hsame | ⟨-, -, device, dest, id, -, -, hfresh, hstored⟩ | ⟨id, -, hset⟩ | ⟨hit, hset⟩ :=
    step_sessions s e
  · rw [hsame]
    exact h
  · rw [hstored, List.map_append, List.nodup_append]
    refine ⟨h, List.nodup_singleton _, ?_⟩
    intro a ha b hb hab
    obtain ⟨r, hr, rfl⟩ := List.mem_map.mp ha
    rw [List.map_singleton, List.mem_singleton, rowFor_id] at hb
    exact hfresh r hr (hab.trans hb)
  · rw [hset, setState_ids]
    exact h
  · rw [hset, setState_ids]
    exact h

theorem nodup_ids (devices : DeviceId → Option DeviceStatus) (events : List BrokerEvent) :
    ((run step (init devices) events).sessions.map (·.id)).Nodup := by
  have hinit : ((init devices).sessions.map (·.id)).Nodup := List.nodup_nil
  exact run_invariant (I := fun s : Broker => (s.sessions.map SessionRow.id).Nodup)
    (fun _ e h => nodup_ids_step h e) hinit events

theorem eq_of_id {rows : List SessionRow} (h : (rows.map (·.id)).Nodup) {r r' : SessionRow}
    (hr : r ∈ rows) (hr' : r' ∈ rows) (hid : r.id = r'.id) : r = r' :=
  List.inj_on_of_nodup_map h hr hr' hid

/-! ### Closed rows -/

structure IsClosed (s : Broker) (id : SessionId) : Prop where
  stored : ∃ row ∈ s.sessions, row.id = id
  closed : ∀ row ∈ s.sessions, row.id = id → row.state = .closed

/-- A step that sets an id active does not find its row closed. -/
def SparesClosed (s : Broker) (e : BrokerEvent) : Prop :=
  ∀ row ∈ s.sessions, s.activates e = some row.id → row.state ≠ .closed

instance (s : Broker) (e : BrokerEvent) : Decidable (SparesClosed s e) :=
  inferInstanceAs (Decidable (∀ row ∈ s.sessions, _))

theorem isClosed_step {id : SessionId} (h : s.IsClosed id)
    (hspares : s.SparesClosed e) : (s.step e).IsClosed id := by
  obtain ⟨row, hrow, hid⟩ := h.stored
  obtain hsame | ⟨-, -, device, dest, id', -, -, hfresh, hstored⟩ | ⟨id', hact, hset⟩ |
    ⟨hit, hset⟩ := step_sessions s e
  · exact ⟨by rw [hsame]; exact h.stored, by rw [hsame]; exact h.closed⟩
  · -- A new row has another id.
    refine ⟨by rw [hstored]; exact ⟨row, List.mem_append_left _ hrow, hid⟩, ?_⟩
    intro r hr hrid
    rw [hstored] at hr
    rcases List.mem_append.mp hr with hr | hr
    · exact h.closed r hr hrid
    · rw [List.mem_singleton.mp hr, rowFor_id] at hrid
      exact absurd (hid.trans hrid.symm) (hfresh row hrow)
  · -- The row that is set active is not this one.
    have hother : id' ≠ id := by
      rintro rfl
      exact hspares row hrow (by rw [hact, hid]) (h.closed row hrow hid)
    rw [← hid] at hother
    constructor
    · refine ⟨row, ?_, hid⟩
      rw [hset]
      refine mem_setState.mpr ⟨row, hrow, ?_⟩
      rw [if_neg (by simpa using fun heq => hother heq.symm)]
    intro r hr hrid
    rw [hset] at hr
    obtain ⟨r₀, hr₀, rfl⟩ := mem_setState.mp hr
    split at hrid
    · rename_i hhit
      exact absurd ((of_decide_eq_true hhit).symm.trans (hrid.trans hid.symm)) hother
    rename_i hmiss
    rw [if_neg hmiss]
    exact h.closed r₀ hr₀ hrid
  · constructor
    · rw [hset]
      refine ⟨_, mem_setState.mpr ⟨row, hrow, rfl⟩, ?_⟩
      split <;> exact hid
    intro r hr hrid
    rw [hset] at hr
    obtain ⟨r₀, hr₀, rfl⟩ := mem_setState.mp hr
    split
    · rfl
    rename_i hmiss
    rw [if_neg hmiss] at hrid
    exact h.closed r₀ hr₀ hrid

/-- A row that is closed at some point of a run is closed from there on, if every later step
that sets an id active finds a row that is not closed. -/
theorem closed_terminal (devices : DeviceId → Option DeviceStatus)
    (before after : List BrokerEvent)
    (hspares : Guarded step SparesClosed (run step (init devices) before) after)
    {row : SessionRow} (hrow : row ∈ (run step (init devices) before).sessions)
    (hclosed : row.state = .closed) :
    ∀ row' ∈ (run step (init devices) (before ++ after)).sessions,
      row'.id = row.id → row'.state ≠ .offered ∧ row'.state ≠ .active := by
  have hstart : (run step (init devices) before).IsClosed row.id := by
    refine ⟨⟨row, hrow, rfl⟩, fun r hr hid => ?_⟩
    rw [eq_of_id (nodup_ids devices before) hr hrow hid]
    exact hclosed
  have hend := hspares.invariant (I := fun s => s.IsClosed row.id)
    (fun _ _ h hs => isClosed_step h hs) hstart
  rw [← run_append] at hend
  intro row' hrow' hid
  rw [hend.closed row' hrow' hid]
  exact ⟨by decide, by decide⟩

/-! ### A session of device 1 -/

def twoDevices : DeviceId → Option DeviceStatus :=
  fun d => if d = 1 ∨ d = 2 then some .active else none

def openUpToAnswer : List BrokerEvent :=
  [.openStream 9, .openSession 0 1, .pickGateway 0 9 77, .insertSession 0 true, .sendOffer 0,
    .answer 0]

def suspendDevice1 : List BrokerEvent :=
  [.suspendDevice 5 1 true, .closeSessions 5 true, .tellGateway 5, .closingReturns 5]

/-- The answer comes, the device is suspended, and then the session is activated. -/
theorem closed_then_active :
    (∃ row ∈ (run step (init twoDevices) (openUpToAnswer ++ suspendDevice1)).sessions,
      row.id = 77 ∧ row.state = .closed) ∧
    ∃ row ∈ (run step (init twoDevices)
      (openUpToAnswer ++ suspendDevice1 ++ [.activate 0 true])).sessions,
      row.id = 77 ∧ row.state = .active := by
  decide +kernel

/-- A session that is activated first stays closed after the suspension, whatever the gateway
reports then. -/
theorem closed_after_activation :
    ⟨77, 1, none, some 9, .closed⟩ ∈ (run step (init twoDevices)
      (openUpToAnswer ++ .activate 0 true :: suspendDevice1)).sessions ∧
    ∀ row ∈ (run step (init twoDevices) (openUpToAnswer ++ .activate 0 true :: suspendDevice1 ++
      [.sessionEvent 77 .closed true, .sessionEvent 77 .other true])).sessions,
      row.id = 77 → row.state ≠ .offered ∧ row.state ≠ .active :=
  ⟨by decide +kernel,
    closed_terminal twoDevices (openUpToAnswer ++ .activate 0 true :: suspendDevice1)
    [.sessionEvent 77 .closed true, .sessionEvent 77 .other true] (by decide +kernel)
    (show (⟨77, 1, none, some 9, .closed⟩ : SessionRow) ∈ _ by decide +kernel) rfl⟩

end Avon.Control.Broker
