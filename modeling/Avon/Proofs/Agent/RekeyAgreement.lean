import Avon.Agent.Rekey
import Avon.Proofs.Tunnel.Ends

/-!
# When the two ends of a rekey agree

The pending slot belongs to the agent, so the rekeys of two sessions can get mixed up
(`rekey_slot_mixup`). `ackMeetsOwnSlot`: an ack finds the slot empty or filled by its own session. A
link is `Synced`, or `Ahead` when the other end has answered and the agent has not rotated.
-/

set_option autoImplicit false

namespace Avon.Agent

open Avon.Crypto Avon.Tunnel Avon.Lib.Run RekeyState Session

/-! ### The invariant of a link -/

variable {K : HybridKem}

/-- If link `i` filled the pending slot, its content satisfies `P`. -/
def SlotMatches (s : RekeyState K) (i : ℕ) (P : K.KeyPair → UInt32 → Prop) : Prop :=
  ∀ eph idx, s.pending = some (eph, idx) → s.asker = i → P eph idx

/-- The agent waits: its flag is set and no `RekeyDue` is queued. -/
def Waits (l : Link) : Prop := l.agent.rekeyPending = true ∧ l.due = false

/-- The current epochs mirror each other. Nothing is in flight, or one request of a waiting
agent is. -/
structure Synced (s : RekeyState K) (i : ℕ) (l : Link) : Prop where
  current : Mirror l.agent.current l.remote.current
  previous : ∀ p since q since', l.agent.previous = some (p, since) →
    l.remote.previous = some (q, since') → Mirror p q
  toAgent : l.toAgent = []
  toRemote : l.toRemote = [] ∨ ∃ n pk idx, l.toRemote = [.rekey n pk idx] ∧ Waits l ∧
    SlotMatches s i fun eph idx' => pk = K.publicKey eph ∧ idx' = idx

/-- The other end has rotated and the agent has not. The ack is in flight or lost. -/
structure Ahead (H : Hkdf) (s : RekeyState K) (i : ℕ) (l : Link) : Prop where
  waits : Waits l
  epoch : l.remote.current.keys.epoch = l.agent.current.keys.epoch + 1
  previous : ∀ q since, l.remote.previous = some (q, since) → Mirror l.agent.current q
  toRemote : l.toRemote = []
  toAgent : l.toAgent = [] ∨ ∃ n ct idx ss, l.toAgent = [.rekeyAck n ct idx] ∧
    l.remote.current.keys = l.agent.current.keys.rekey H ss ∧
    idx = l.remote.current.localIndex ∧
    SlotMatches s i fun eph idx' => K.decapsulate eph ct = .ok ss ∧
      idx' = l.remote.current.remoteIndex

structure LinkOk (H : Hkdf) (s : RekeyState K) (i : ℕ) (l : Link) : Prop where
  agent : EndOk .initiator l.agent.suite l.agent
  remote : EndOk .responder l.agent.suite l.remote
  queued : l.due = true → l.agent.rekeyPending = true
  phase : Synced s i l ∨ Ahead H s i l

def LinksOk (H : Hkdf) (s : RekeyState K) : Prop :=
  ∀ i l, s.links[i]? = some l → LinkOk H s i l

variable {H : Hkdf} {s : RekeyState K} {i n : ℕ} {l : Link} {frame : TunnelFrame}

theorem LinkOk.of_slot {s' : RekeyState K} (h : LinkOk H s i l)
    (hslot : ∀ P : K.KeyPair → UInt32 → Prop, SlotMatches s i P → SlotMatches s' i P) :
    LinkOk H s' i l := by
  refine ⟨h.agent, h.remote, h.queued, ?_⟩
  rcases h.phase with hs | ha
  · refine .inl ⟨hs.current, hs.previous, hs.toAgent, ?_⟩
    rcases hs.toRemote with h0 | ⟨n, pk, idx, heq, hw, hm⟩
    · exact .inl h0
    · exact .inr ⟨n, pk, idx, heq, hw, hslot _ hm⟩
  refine .inr ⟨ha.waits, ha.epoch, ha.previous, ha.toRemote, ?_⟩
  rcases ha.toAgent with h0 | ⟨n, ct, idx, ss, heq, hkeys, hidx, hm⟩
  · exact .inl h0
  · exact .inr ⟨n, ct, idx, ss, heq, hkeys, hidx, hslot _ hm⟩

/-- Replacing link `i` and changing the slot: the new link is good, and for every other
link the slot only empties. -/
theorem linksOk_set (hs : LinksOk H s)
    (s' : RekeyState K) (hlinks : s'.links = s.links.set i l) (hnew : LinkOk H s' i l)
    (hslot : ∀ j, j ≠ i → ∀ P : K.KeyPair → UInt32 → Prop,
      SlotMatches s j P → SlotMatches s' j P) : LinksOk H s' := by
  intro j m hj
  rw [hlinks, List.getElem?_set] at hj
  split at hj
  · rename_i hij
    split at hj
    · cases hj
      exact hij ▸ hnew
    · cases hj
  · rename_i hij
    exact (hs j m hj).of_slot (hslot j (Ne.symm hij))

theorem linksOk_setLink (hs : LinksOk H s)
    (hnew : LinkOk H s i l) : LinksOk H (s.setLink i l) :=
  linksOk_set hs (s.setLink i l) rfl (hnew.of_slot fun _ hm => hm) fun _ _ _ hm => hm

/-! ### One step -/

theorem linkOk_establish (H : Hkdf) (s : RekeyState K) (i : ℕ) (hub : Bool) (id : SessionId)
    (suite : Suite) (keys : SessionKeys) (a r : UInt32) (now : ℕ) :
    LinkOk H s i
      { hub := hub
        agent := Session.new id .initiator suite keys a r none now
        remote := Session.new id .responder suite keys r a none now
        due := false
        toRemote := []
        toAgent := [] } where
  agent := endOk_new ..
  remote := endOk_new ..
  queued h := by cases h
  phase := Or.inl ⟨⟨rfl, rfl, rfl⟩, fun _ _ _ _ h => (nomatch h), rfl, .inl rfl⟩

theorem LinkOk.of_not_waits
    (h : LinkOk H s i l) (hw : ¬ Waits l) : Synced s i l ∧ l.toRemote = [] := by
  rcases h.phase with hs | ha
  · rcases hs.toRemote with h0 | ⟨_, _, _, _, hwaits, _⟩
    · exact ⟨hs, h0⟩
    · exact absurd hwaits hw
  · exact absurd ha.waits hw

theorem Synced.setFlags {s' : RekeyState K} (h : Synced s i l)
    (h0 : l.toRemote = []) (pending due : Bool) :
    Synced s' i { l with agent := l.agent.setRekeyPending pending, due := due } :=
  ⟨h.current, h.previous, h.toAgent, .inl h0⟩

theorem LinkOk.expireAgent
    (h : LinkOk H s i l) (overlap now : ℕ) :
    LinkOk H s i { l with agent := (l.agent.expirePreviousEpoch overlap now).2 } := by
  have hend := h.agent.kept (l.agent.kept_expirePreviousEpoch overlap now)
  rcases expirePreviousEpoch_cases l.agent overlap now with heq | heq
  · rw [heq]
    exact h
  rw [heq] at hend ⊢
  refine ⟨hend, h.remote, h.queued, ?_⟩
  rcases h.phase with hs | ha
  · exact .inl ⟨hs.current, fun _ _ _ _ hp => (nomatch hp), hs.toAgent, hs.toRemote⟩
  · exact .inr ⟨ha.waits, ha.epoch, ha.previous, ha.toRemote, ha.toAgent⟩

theorem LinkOk.expireRemote
    (h : LinkOk H s i l) (overlap now : ℕ) :
    LinkOk H s i { l with remote := (l.remote.expirePreviousEpoch overlap now).2 } := by
  have hend := h.remote.kept (l.remote.kept_expirePreviousEpoch overlap now)
  rcases expirePreviousEpoch_cases l.remote overlap now with heq | heq
  · rw [heq]
    exact h
  rw [heq] at hend ⊢
  refine ⟨h.agent, hend, h.queued, ?_⟩
  rcases h.phase with hs | ha
  · exact .inl ⟨hs.current, fun _ _ _ _ _ hq => (nomatch hq), hs.toAgent, hs.toRemote⟩
  · exact .inr ⟨ha.waits, ha.epoch, fun _ _ hq => (nomatch hq), ha.toRemote, ha.toAgent⟩

theorem eraseIdx_of_le_one {α : Type*} {l : List α} (h : l = [] ∨ ∃ x, l = [x]) (n : ℕ) :
    l.eraseIdx n = [] ∨ l.eraseIdx n = l := by
  rcases h with rfl | ⟨x, rfl⟩
  · exact .inl rfl
  cases n with
  | zero => exact .inl rfl
  | succ n => exact .inr rfl

theorem LinkOk.loseToAgent
    (h : LinkOk H s i l) (n : ℕ) : LinkOk H s i { l with toAgent := l.toAgent.eraseIdx n } := by
  refine ⟨h.agent, h.remote, h.queued, ?_⟩
  rcases h.phase with hs | ha
  · exact .inl ⟨hs.current, hs.previous, by simp [hs.toAgent], hs.toRemote⟩
  refine .inr ⟨ha.waits, ha.epoch, ha.previous, ha.toRemote, ?_⟩
  have hone : l.toAgent = [] ∨ ∃ x, l.toAgent = [x] := by
    rcases ha.toAgent with h0 | ⟨_, _, _, _, heq, -⟩
    · exact .inl h0
    · exact .inr ⟨_, heq⟩
  rcases eraseIdx_of_le_one hone n with h0 | heq
  · exact .inl h0
  · simp only [heq]
    exact ha.toAgent

theorem LinkOk.loseToRemote
    (h : LinkOk H s i l) (n : ℕ) : LinkOk H s i { l with toRemote := l.toRemote.eraseIdx n } := by
  refine ⟨h.agent, h.remote, h.queued, ?_⟩
  rcases h.phase with hs | ha
  · refine .inl ⟨hs.current, hs.previous, hs.toAgent, ?_⟩
    have hone : l.toRemote = [] ∨ ∃ x, l.toRemote = [x] := by
      rcases hs.toRemote with h0 | ⟨_, _, _, heq, -⟩
      · exact .inl h0
      · exact .inr ⟨_, heq⟩
    rcases eraseIdx_of_le_one hone n with h0 | heq
    · exact .inl h0
    · simp only [heq]
      exact hs.toRemote
  · exact .inr ⟨ha.waits, ha.epoch, ha.previous, by simp [ha.toRemote], ha.toAgent⟩

/-- A frame in flight to the other end is the request of a waiting agent on a synced
link. -/
theorem LinkOk.request (h : LinkOk H s i l) (hf : l.toRemote[n]? = some frame) :
    Synced s i l ∧ Waits l ∧ l.toRemote.eraseIdx n = [] ∧ ∃ e pk idx, frame = .rekey e pk idx ∧
      SlotMatches s i fun eph idx' => pk = K.publicKey eph ∧ idx' = idx := by
  rcases h.phase with hs | ha
  · rcases hs.toRemote with h0 | ⟨e, pk, idx, heq, hw, hm⟩
    · simp [h0] at hf
    rw [heq] at hf ⊢
    cases n with
    | zero =>
      simp only [List.getElem?_cons_zero, Option.some.injEq] at hf
      exact ⟨hs, hw, rfl, e, pk, idx, hf.symm, hm⟩
    | succ n => simp at hf
  · simp [ha.toRemote] at hf

theorem LinkOk.answer (h : LinkOk H s i l) (hf : l.toAgent[n]? = some frame) :
    Ahead H s i l ∧ l.toAgent.eraseIdx n = [] ∧ ∃ e ct idx ss, frame = .rekeyAck e ct idx ∧
      l.remote.current.keys = l.agent.current.keys.rekey H ss ∧
      idx = l.remote.current.localIndex ∧
      SlotMatches s i fun eph idx' => K.decapsulate eph ct = .ok ss ∧
        idx' = l.remote.current.remoteIndex := by
  rcases h.phase with hs | ha
  · simp [hs.toAgent] at hf
  rcases ha.toAgent with h0 | ⟨e, ct, idx, ss, heq, hkeys, hidx, hm⟩
  · simp [h0] at hf
  rw [heq] at hf ⊢
  cases n with
  | zero =>
    simp only [List.getElem?_cons_zero, Option.some.injEq] at hf
    exact ⟨ha, rfl, e, ct, idx, ss, hf.symm, hkeys, hidx, hm⟩
  | succ n => simp at hf

theorem LinkOk.remoteHandles (hK : K.Correct)
    (h : LinkOk H s i l) (hf : l.toRemote[n]? = some frame)
    (coins : K.Coins) (allocated : Except TunnelError UInt32) (sendOk : Bool) (now : ℕ) :
    LinkOk H s i (remoteHandles K H { l with toRemote := l.toRemote.eraseIdx n }
      frame coins allocated sendOk now) := by
  obtain ⟨hs, hw, hempty, e, pk, idx, rfl, hm⟩ := h.request hf
  rw [hempty]
  -- Whenever the other end does not rotate, the link stays synced.
  have hstay : LinkOk H s i { l with toRemote := [] } :=
    ⟨h.agent, h.remote, h.queued, .inl ⟨hs.current, hs.previous, hs.toAgent, .inl rfl⟩⟩
  unfold remoteHandles
  by_cases hhub : l.hub = true
  · rw [if_pos hhub]
    simp only [Gateway.handleControl]
    cases hans : l.remote.answerRekey K H pk coins with
    | error _ => simpa using hstay
    | ok r =>
      obtain ⟨ct, next⟩ := r
      cases allocated with
      | error _ => simpa using hstay
      | ok newLocal =>
        cases sendOk with
        | false => simpa [sendWhole] using hstay
        | true =>
          obtain ⟨ss, henc, hnext⟩ : ∃ ss, K.encapsulate pk coins = .ok (ct, ss) ∧
              next = l.remote.current.keys.rekey H ss := by
            unfold Session.answerRekey at hans
            split at hans
            · rename_i ct' ss henc
              cases hans
              exact ⟨ss, henc, rfl⟩
            · cases hans
          obtain ⟨hkeys, -, -⟩ := hs.current
          have hepoch : next.epoch = l.remote.current.keys.epoch + 1 := by rw [hnext]; rfl
          simp only [sendWhole, if_true, Option.toList_some, hs.toAgent, List.nil_append]
          refine ⟨h.agent, h.remote.rotate hepoch newLocal idx now, h.queued, .inr ?_⟩
          refine ⟨hw, ?_, ?_, rfl, .inr ⟨e, ct, newLocal, ss, rfl, ?_, rfl, ?_⟩⟩
          · show next.epoch = l.agent.current.keys.epoch + 1
            rw [hepoch, hkeys]
          · intro q since hq
            obtain ⟨rfl, rfl⟩ := Prod.mk.inj (Option.some.inj hq)
            exact hs.current
          · show next = l.agent.current.keys.rekey H ss
            rw [hnext, hkeys]
          · intro eph idx' hpend hask
            obtain ⟨hpk, hidx⟩ := hm eph idx' hpend hask
            exact ⟨hK eph coins ct ss (hpk ▸ henc), hidx⟩
  · rw [if_neg hhub]
    exact hstay

theorem LinkOk.agentHandles
    (h : LinkOk H s i l) (hf : l.toAgent[n]? = some frame)
    (hown : s.pending = none ∨ s.asker = i) (now : ℕ) :
    let out := handleControl TunnelFrame K H s.pending l.agent frame now
    out.pending = none ∧ ∀ s' : RekeyState K, s'.pending = none →
      LinkOk H s' i { l with agent := out.session, toAgent := l.toAgent.eraseIdx n } := by
  obtain ⟨ha, hempty, e, ct, idx, ss, rfl, hkeys, hidx, hm⟩ := h.answer hf
  rw [hempty]
  cases hpend : s.pending with
  | none =>
    refine ⟨rfl, fun s' hs' => ⟨h.agent, h.remote, h.queued, .inr ?_⟩⟩
    exact ⟨ha.waits, ha.epoch, ha.previous, ha.toRemote, .inl rfl⟩
  | some p =>
    obtain ⟨eph, newLocal⟩ := p
    have hask : s.asker = i := by
      rcases hown with h0 | hask
      · rw [hpend] at h0
        cases h0
      · exact hask
    obtain ⟨hdec, hlocal⟩ := hm eph newLocal hpend hask
    have hcomplete : l.agent.completeRekey K H eph ct
        = .ok (l.agent.current.keys.rekey H ss) := by
      simp [Session.completeRekey, hdec]
    simp only [handleControl, hcomplete]
    refine ⟨trivial, fun s' hs' => ?_⟩
    refine ⟨h.agent.rotate rfl newLocal idx now, h.remote,
      fun hdue => absurd (ha.waits.2.symm.trans hdue) (by simp), .inl ?_⟩
    refine ⟨⟨hkeys.symm, hidx, hlocal.symm⟩, ?_, rfl, .inl ha.toRemote⟩
    intro p since q since' hp hq
    obtain ⟨rfl, rfl⟩ := Prod.mk.inj (Option.some.inj hp)
    exact ha.previous q since' hq

/-- The agent handles a queued `RekeyDue`: the request is in flight and in the slot, or
nothing was sent and the flag is cleared. -/
theorem LinkOk.rekeyDue (h : LinkOk H s i l)
    (hdue : l.due = true) (offer : Except TunnelError K.KeyPair)
    (allocated : Except TunnelError UInt32) (sendOk : Bool) :
    let out := handleRekeyDue (sendWhole sendOk) K s.pending l.agent offer allocated
    (out.sent = none ∧ out.pending = s.pending ∨ out.sent.isSome) ∧
      ∀ s' : RekeyState K, s'.pending = out.pending → (out.sent.isSome → s'.asker = i) →
        LinkOk H s' i
          { l with agent := out.session, due := false
                   toRemote := l.toRemote ++ out.sent.toList } := by
  have hnot : ¬ Waits l := fun hw => by simp [hw.2] at hdue
  obtain ⟨hs, h0⟩ := h.of_not_waits hnot
  have hfail : ∀ s' : RekeyState K, LinkOk H s' i
      { l with agent := l.agent.setRekeyPending false, due := false, toRemote := l.toRemote } :=
    fun s' => ⟨h.agent.kept ((Kept.refl _).setRekeyPending false), h.remote, fun hd => (nomatch hd),
      Or.inl (hs.setFlags h0 false false)⟩
  unfold handleRekeyDue
  cases offer with
  | error _ => simpa using fun s' _ => hfail s'
  | ok eph =>
    cases allocated with
    | error _ => simpa using fun s' _ => hfail s'
    | ok idx =>
      cases sendOk with
      | false => simpa [sendWhole] using fun s' _ => hfail s'
      | true =>
        refine ⟨.inr rfl, fun s' hpend hask => ?_⟩
        simp only [sendWhole, if_true, Option.toList_some, h0, List.nil_append] at hpend ⊢
        refine ⟨h.agent, h.remote, fun hd => (nomatch hd), .inl ?_⟩
        refine ⟨hs.current, hs.previous, hs.toAgent,
          Or.inr ⟨_, _, _, rfl, ⟨h.queued hdue, rfl⟩, ?_⟩⟩
        intro eph' idx' hslot _
        rw [hpend] at hslot
        obtain ⟨rfl, rfl⟩ := Prod.mk.inj (Option.some.inj hslot)
        exact ⟨rfl, rfl⟩

/-- An ack finds the pending slot empty or filled by its own session. -/
def ackMeetsOwnSlot (s : RekeyState K) : RekeyEvent K → Bool
  | .deliverToAgent i _ _ => s.pending.isNone || s.asker = i
  | _ => true

theorem linksOk_step (hK : K.Correct) (s : RekeyState K) (e : RekeyEvent K)
    (hs : LinksOk H s) (hguard : ackMeetsOwnSlot s e = true) : LinksOk H (s.step H e) := by
  cases e with
  | establish hub id suite keys a r now =>
    intro i l hl
    rw [step] at hl ⊢
    rcases Nat.lt_or_ge i s.links.length with hlt | hge
    · rw [List.getElem?_append_left hlt] at hl
      exact (hs i l hl).of_slot fun _ hm => hm
    rw [List.getElem?_append_right hge] at hl
    have hlast := List.mem_of_getElem? hl
    rw [List.mem_singleton.mp hlast]
    exact linkOk_establish ..
  | timer i =>
    simp only [step]
    split
    · rename_i l hl
      split
      · exact hs
      rename_i hflag
      obtain ⟨hsync, h0⟩ := (hs i l hl).of_not_waits fun hw => hflag hw.1
      have hagent := (hs i l hl).agent.kept ((Kept.refl _).setRekeyPending true)
      exact linksOk_setLink hs ⟨hagent, (hs i l hl).remote, fun _ => rfl,
        .inl (hsync.setFlags h0 true true)⟩
    · exact hs
  | expire i atAgent overlap now =>
    simp only [step]
    split
    · rename_i l hl
      split
      · exact linksOk_setLink hs ((hs i l hl).expireAgent overlap now)
      · exact linksOk_setLink hs ((hs i l hl).expireRemote overlap now)
    · exact hs
  | rekeyDue i offer allocated sendOk =>
    simp only [step]
    split
    · rename_i l hl
      split
      · rename_i hdue
        obtain ⟨hslot, hlink⟩ := (hs i l hl).rekeyDue hdue offer allocated sendOk
        refine linksOk_set hs _ rfl (hlink _ rfl fun hsent => by simp [hsent]) ?_
        -- The slot is untouched, or it is the request of link `i` now.
        intro j hj P hm eph idx hpend hask
        rcases hslot with ⟨hnone, hsame⟩ | hsome
        · refine hm eph idx (hsame ▸ hpend) ?_
          simpa [hnone] using hask
        · simp only [hsome, if_true] at hask
          exact absurd hask.symm hj
      · exact hs
    · exact hs
  | deliverToRemote i n coins allocated sendOk now =>
    simp only [step]
    split
    · rename_i l hl
      split
      · rename_i frame hf
        exact linksOk_setLink hs ((hs i l hl).remoteHandles hK hf coins allocated sendOk now)
      · exact hs
    · exact hs
  | deliverToAgent i n now =>
    have hown : s.pending = none ∨ s.asker = i := by
      simpa [ackMeetsOwnSlot] using hguard
    simp only [step]
    split
    · rename_i l hl
      split
      · rename_i frame hf
        obtain ⟨hnone, hlink⟩ := (hs i l hl).agentHandles hf hown now
        refine linksOk_set hs _ rfl (hlink _ hnone) ?_
        intro j _ P _ eph idx hpend _
        rw [hnone] at hpend
        cases hpend
      · exact hs
    · exact hs
  | lose i n onTheWayToAgent =>
    simp only [step]
    split
    · rename_i l hl
      split
      · exact linksOk_setLink hs ((hs i l hl).loseToAgent n)
      · exact linksOk_setLink hs ((hs i l hl).loseToRemote n)
    · exact hs

/-! ### Agreement -/

theorem agrees_of_mirror {suite : Suite} {a b : Session} (ha : EndOk .initiator suite a)
    (hb : EndOk .responder suite b) {e f : Epoch} (he : e ∈ a.epochs) (hf : f ∈ b.epochs)
    (h : Mirror e f) : Agrees e f := by
  intro _
  obtain ⟨hkeys, hr, hl⟩ := h
  obtain ⟨hsend, hrecv⟩ := ha.ciphers e he
  obtain ⟨hsend', hrecv'⟩ := hb.ciphers f hf
  refine ⟨hkeys, ?_, ?_, hr, hl⟩
  · rw [hsend, hrecv', hkeys]
    rfl
  · rw [hrecv, hsend', hkeys]
    rfl

theorem agrees_of_epoch_ne {a b : Epoch} (h : a.keys.epoch ≠ b.keys.epoch) : Agrees a b :=
  fun heq => absurd heq h

theorem LinkOk.agrees (h : LinkOk H s i l)
    {a b : Epoch} (ha : a ∈ l.agent.epochs) (hb : b ∈ l.remote.epochs) : Agrees a b := by
  have hone : (1 : UInt32) ≠ 0 := by decide
  rcases h.phase with hs | hahead
  · obtain ⟨hkeys, -, -⟩ := hs.current
    rcases mem_epochs ha with rfl | ⟨since, hpa⟩ <;> rcases mem_epochs hb with rfl | ⟨since', hpb⟩
    · exact agrees_of_mirror h.agent h.remote ha hb hs.current
    · refine agrees_of_epoch_ne ?_
      rw [hkeys, h.remote.consecutive b since' hpb]
      simp [hone]
    · refine agrees_of_epoch_ne ?_
      rw [← hkeys, h.agent.consecutive a since hpa]
      simp [hone]
    · exact agrees_of_mirror h.agent h.remote ha hb (hs.previous a since b since' hpa hpb)
  · rcases mem_epochs ha with rfl | ⟨since, hpa⟩ <;> rcases mem_epochs hb with rfl | ⟨since', hpb⟩
    · refine agrees_of_epoch_ne ?_
      rw [hahead.epoch]
      simp [hone]
    · exact agrees_of_mirror h.agent h.remote ha hb (hahead.previous b since' hpb)
    · -- Two apart.
      refine agrees_of_epoch_ne ?_
      rw [hahead.epoch, h.agent.consecutive a since hpa, UInt32.add_assoc]
      simp
    · refine agrees_of_epoch_ne ?_
      rw [← (hahead.previous b since' hpb).1, h.agent.consecutive a since hpa]
      simp [hone]

/-- In every run in which each ack finds the pending slot empty or filled by its own
session, all live epochs of the two ends of every session agree. -/
theorem rekeyAgreement_of_ownSlot (K : HybridKem) (H : Hkdf) (hK : K.Correct)
    (events : List (RekeyEvent K))
    (hguard : Guarded (step H) (fun s e => ackMeetsOwnSlot s e = true)
      (init K) events) :
    RekeyAgreement (run (step H) (init K) events) := by
  have hinit : LinksOk H (init K) := by
    intro i l hl
    simp [init] at hl
  have hinv := hguard.invariant (I := LinksOk H) (fun s e => linksOk_step hK s e) hinit
  intro l hl
  obtain ⟨i, hi⟩ := List.mem_iff_getElem?.mp hl
  have h := hinv i l hi
  exact ⟨h.agent.counted, h.remote.counted, fun a ha b hb => h.agrees ha hb⟩

/-- A hub session is rekeyed. Then a peer session asks, and nobody answers. -/
def separateRekeys : List (RekeyEvent transparentKem) :=
  [.establish true 1 .aes256Gcm ⟨1, 2, 3, 0⟩ 10 20 0,
   .establish false 2 .aes256Gcm ⟨4, 5, 6, 0⟩ 30 40 0,
   .timer 0, .rekeyDue 0 (.ok (7 : UInt8)) (.ok 11) true,
   .deliverToRemote 0 0 (9 : UInt8) (.ok 21) true 0, .deliverToAgent 0 0 0,
   .timer 1, .rekeyDue 1 (.ok (8 : UInt8)) (.ok 31) true,
   .deliverToRemote 1 0 (9 : UInt8) (.ok 41) true 0]

/-- The hub session of that run is in epoch 1 at both ends, and the ends agree. -/
theorem rekeyAgreement_separate :
    let s := run (step transparentHkdf) (init transparentKem) separateRekeys
    s.links.map (fun l => (l.agent.epoch, l.remote.epoch)) = [(1, 1), (0, 0)] ∧
      RekeyAgreement s :=
  ⟨by decide +kernel, rekeyAgreement_of_ownSlot transparentKem transparentHkdf
    transparentKem_correct separateRekeys (by decide +kernel)⟩

/-- The hub session asks, then the peer session asks, and then the answer to the hub session
arrives. -/
def overlappingRekeys : List (RekeyEvent transparentKem) :=
  [.establish true 1 .aes256Gcm ⟨1, 2, 3, 0⟩ 10 20 0,
   .establish false 2 .aes256Gcm ⟨4, 5, 6, 0⟩ 30 40 0,
   .timer 0, .rekeyDue 0 (.ok (7 : UInt8)) (.ok 11) true,
   .timer 1, .rekeyDue 1 (.ok (8 : UInt8)) (.ok 31) true,
   .deliverToRemote 0 0 (9 : UInt8) (.ok 21) true 0, .deliverToAgent 0 0 0]

/-- After the overlap both ends of the hub session are in epoch 1, with different keys. -/
theorem rekey_slot_mixup :
    ¬ RekeyAgreement
      (run (step transparentHkdf) (init transparentKem)
        overlappingRekeys) := by
  intro h
  obtain ⟨l, hl, hepoch, hkeys⟩ : ∃ l : Link,
      (run (step transparentHkdf) (init transparentKem)
        overlappingRekeys).links[0]? = some l ∧
      l.agent.current.keys.epoch = l.remote.current.keys.epoch ∧
      l.agent.current.keys ≠ l.remote.current.keys := by
    refine ⟨_, rfl, ?_⟩
    decide +kernel
  obtain ⟨-, -, hagrees⟩ := h l (List.mem_of_getElem? hl)
  have hcur := hagrees l.agent.current List.mem_cons_self l.remote.current
    List.mem_cons_self hepoch
  exact hkeys hcur.1

end Avon.Agent
