import Avon.Proofs.Control.Sessions

/-!
# What a suspension achieves

`Held` is what a suspension is for: the device is not active, its sessions are closed, and each
gateway that has an offer for one of them has a close behind it, or is about to get one. Nothing in
the code keeps it so; an `Orderly` step does.
-/

set_option autoImplicit false

namespace Avon.Control.Broker

open Avon.Lib.Run
open Function (update_of_ne)

theorem eq_or_of_update_eq {α β : Type*} [DecidableEq α] {f : α → β} {a a' : α} {b c : β}
    (h : Function.update f a b a' = c) : b = c ∨ f a' = c := by
  rw [Function.update_apply] at h
  split at h
  · exact .inl h
  · exact .inr h

/-! ### Offers and closes -/

/-- Every offer of a session in a log of messages has a close behind it. -/
def closedAfter (id : SessionId) : List GatewayDown → Bool
  | [] => true
  | msg :: rest =>
    (msg ≠ .sessionOffer id || rest.contains (.close id)) && closedAfter id rest

variable {log : List GatewayDown} {row : SessionRow} {id : SessionId} {d : DeviceId}

theorem closedAfter_append {msg : GatewayDown}
    (h : closedAfter id log = true) (hmsg : msg ≠ .sessionOffer id) :
    closedAfter id (log ++ [msg]) = true := by
  induction log with
  | nil => simp [closedAfter, hmsg]
  | cons m log ih =>
    simp only [closedAfter, Bool.and_eq_true, Bool.or_eq_true, decide_eq_true_eq,
      List.contains_iff_mem, List.cons_append, List.mem_append] at h ⊢
    exact ⟨h.1.imp_right Or.inl, ih h.2⟩

theorem closedAfter_append_close (id : SessionId) (log : List GatewayDown) :
    closedAfter id (log ++ [.close id]) = true := by
  induction log with
  | nil => simp [closedAfter]
  | cons m log ih => simp [closedAfter, ih]

theorem closedAfter_of_not_mem (h : .sessionOffer id ∉ log) : closedAfter id log = true := by
  induction log with
  | nil => rfl
  | cons m log ih =>
    simp only [List.mem_cons, not_or] at h
    simp [closedAfter, ih h.2, Ne.symm h.1]

/-! ### A device that is held off -/

/-- The device is not active, its sessions are closed, and every gateway with an offer for one
of them has a close behind the offer, or is on the list of those to be told. -/
structure Held (s : Broker) (d : DeviceId) (todo : List (SessionId × Option GatewayId)) :
    Prop where
  inactive : s.devices d ≠ some .active
  shut : ∀ row ∈ s.sessions, row.Involves d → row.state = .closed
  told : ∀ row ∈ s.sessions, row.Involves d →
    ∀ g, closedAfter row.id (s.sent g) = true ∨ (row.id, some g) ∈ todo

theorem exists_of_mem_setState {s : Broker} {state : SessionState} {hit : SessionRow → Bool}
    (h : row ∈ (s.setState state hit).sessions) :
    ∃ r ∈ s.sessions, row.id = r.id ∧ row.gatewayId = r.gatewayId ∧
      (∀ d, row.Involves d ↔ r.Involves d) ∧
      (row.state = state ∨ row = r ∧ hit r = false) := by
  obtain ⟨r, hr, rfl⟩ := mem_setState.mp h
  refine ⟨r, hr, ?_⟩
  cases hhit : hit r with
  | true => exact ⟨rfl, rfl, fun _ => Iff.rfl, .inl rfl⟩
  | false => exact ⟨rfl, rfl, fun _ => Iff.rfl, .inr ⟨rfl, rfl⟩⟩

namespace Held

variable {s s' : Broker} {todo : List (SessionId × Option GatewayId)}

section
variable (h : Held s d todo)
include h

theorem of_eq (hdevices : s'.devices d ≠ some .active)
    (hsessions : s'.sessions = s.sessions) (hsent : s'.sent = s.sent) : Held s' d todo :=
  ⟨hdevices, hsessions ▸ h.shut, fun row hrow => hsent ▸ h.told row (hsessions ▸ hrow)⟩

theorem setClosed (hit : SessionRow → Bool) : Held (s.setState .closed hit) d todo := by
  refine ⟨h.inactive, fun row hrow hinv => ?_, fun row hrow hinv => ?_⟩
  · obtain ⟨r, hr, -, -, hsame, hclosed | ⟨rfl, -⟩⟩ := exists_of_mem_setState hrow
    · exact hclosed
    · exact h.shut row hr hinv
  obtain ⟨r, hr, hid, -, hsame, -⟩ := exists_of_mem_setState hrow
  rw [hid]
  exact h.told r hr ((hsame d).mp hinv)

theorem setActive {id : SessionId} (hopen : ∀ row ∈ s.sessions, row.id = id → row.state ≠ .closed) :
    Held (s.setState .active fun row => row.id = id) d todo := by
  refine ⟨h.inactive, fun row hrow hinv => ?_, fun row hrow hinv => ?_⟩
  · obtain ⟨r, hr, rfl⟩ := mem_setState.mp hrow
    split at hinv
    · rename_i hhit
      exact absurd (h.shut r hr hinv) (hopen r hr (of_decide_eq_true hhit))
    rename_i hmiss
    rw [if_neg hmiss]
    exact h.shut r hr hinv
  · obtain ⟨r, hr, hid, -, hsame, -⟩ := exists_of_mem_setState hrow
    rw [hid]
    exact h.told r hr ((hsame d).mp hinv)

theorem insert {row : SessionRow} (hrow : ¬ row.Involves d)
    (hsessions : s'.sessions = s.sessions ++ [row]) (hdevices : s'.devices = s.devices)
    (hsent : s'.sent = s.sent) : Held s' d todo := by
  have hold : ∀ r ∈ s'.sessions, r.Involves d → r ∈ s.sessions := by
    intro r hr hinv
    rw [hsessions] at hr
    rcases List.mem_append.mp hr with hr | hr
    · exact hr
    · rw [List.mem_singleton.mp hr] at hinv
      exact absurd hinv hrow
  refine ⟨hdevices ▸ h.inactive, fun r hr hinv => h.shut r (hold r hr hinv) hinv, ?_⟩
  intro r hr hinv
  rw [hsent]
  exact h.told r (hold r hr hinv) hinv

theorem push {g : GatewayId} {channel : ℕ} {msg : GatewayDown}
    (hopen : ∀ row ∈ s.sessions, msg = .sessionOffer row.id → row.state ≠ .closed) :
    Held (s.push g channel msg) d todo := by
  refine ⟨h.inactive, h.shut, fun row hrow hinv g' => ?_⟩
  have hother : msg ≠ .sessionOffer row.id :=
    fun heq => hopen row hrow heq (h.shut row hrow hinv)
  simp only [Broker.push]
  by_cases hg : g' = g
  · subst hg
    rw [Function.update_self]
    exact (h.told row hrow hinv g').imp_left fun hlog => closedAfter_append hlog hother
  · rw [update_of_ne hg]
    exact h.told row hrow hinv g'

end

theorem tell {id : SessionId} {g : GatewayId} (h : Held s d ((id, some g) :: todo)) (channel : ℕ) :
    Held (s.push g channel (.close id)) d todo := by
  refine ⟨h.inactive, h.shut, fun row hrow hinv g' => ?_⟩
  simp only [Broker.push]
  rcases h.told row hrow hinv g' with hlog | htodo
  · by_cases hg : g' = g
    · subst hg
      rw [Function.update_self]
      exact .inl (closedAfter_append hlog nofun)
    · rw [update_of_ne hg]
      exact .inl hlog
  rcases List.mem_cons.mp htodo with heq | hrest
  · cases heq
    rw [Function.update_self]
    exact .inl (closedAfter_append_close row.id _)
  · exact .inr hrest

end Held

/-! ### The invariant -/

structure Inv (s : Broker) : Prop where
  ids : (s.sessions.map (·.id)).Nodup
  stored : ∀ call g channel id, s.brokerings call = some (.stored (.gateway g channel) id) →
    ∃ row ∈ s.sessions, row.id = id ∧ row.gatewayId = some g
  offers : ∀ g id, .sessionOffer id ∈ s.sent g →
    ∃ row ∈ s.sessions, row.id = id ∧ row.gatewayId = some g
  marked : ∀ call d, s.closings call = some (.marked d true) → s.devices d ≠ some .active
  telling : ∀ call d todo, s.closings call = some (.telling d true todo) → Held s d todo
  cut : ∀ d, s.cut d = true → Held s d []

namespace Inv

variable {s s' : Broker}

theorem init (devices : DeviceId → Option DeviceStatus) : Inv (init devices) where
  ids := List.nodup_nil
  stored := nofun
  offers := nofun
  marked := nofun
  telling := nofun
  cut := nofun

section
variable (h : Inv s)
include h

theorem transfer (hids : (s'.sessions.map (·.id)).Nodup)
    (hheld : ∀ d todo, Held s d todo → Held s' d todo)
    (hdevices : ∀ d, s.devices d ≠ some .active → s'.devices d ≠ some .active)
    (hrows : ∀ row ∈ s.sessions, ∃ row' ∈ s'.sessions,
      row'.id = row.id ∧ row'.gatewayId = row.gatewayId)
    (hoffers : ∀ g id, .sessionOffer id ∈ s'.sent g → .sessionOffer id ∈ s.sent g ∨
      ∃ row ∈ s.sessions, row.id = id ∧ row.gatewayId = some g)
    (hbrokerings : s'.brokerings = s.brokerings) (hclosings : s'.closings = s.closings)
    (hcut : s'.cut = s.cut) : Inv s' := by
  have hfollow : ∀ {id g}, (∃ row ∈ s.sessions, row.id = id ∧ row.gatewayId = some g) →
      ∃ row ∈ s'.sessions, row.id = id ∧ row.gatewayId = some g := by
    rintro id g ⟨row, hrow, hid, hg⟩
    obtain ⟨row', hrow', hid', hg'⟩ := hrows row hrow
    exact ⟨row', hrow', hid'.trans hid, hg'.trans hg⟩
  refine ⟨hids, ?_, ?_, ?_, ?_, ?_⟩
  · intro call g channel id hcall
    rw [hbrokerings] at hcall
    exact hfollow (h.stored call g channel id hcall)
  · intro g id hoffer
    exact hfollow ((hoffers g id hoffer).elim (h.offers g id) fun hrow => hrow)
  · intro call d hcall
    rw [hclosings] at hcall
    exact hdevices d (h.marked call d hcall)
  · intro call d todo hcall
    rw [hclosings] at hcall
    exact hheld d todo (h.telling call d todo hcall)
  · intro d hd
    rw [hcut] at hd
    exact hheld d [] (h.cut d hd)

theorem frame (registry : GatewayId → Option ℕ) (channels : List DownChannel) :
    Inv { s with registry := registry, channels := channels } :=
  h.transfer h.ids (fun _ _ hheld => hheld.of_eq hheld.inactive rfl rfl) (fun _ hd => hd)
    (fun row hrow => ⟨row, hrow, rfl, rfl⟩) (fun _ _ hoffer => .inl hoffer) rfl rfl rfl

variable {msg : GatewayDown} {g : GatewayId} {call : ℕ}

theorem setBrokering {b : Option Brokering}
    (hb : ∀ g channel id, b = some (.stored (.gateway g channel) id) →
      ∃ row ∈ s.sessions, row.id = id ∧ row.gatewayId = some g) :
    Inv (s.setBrokering call b) := by
  refine ⟨h.ids, fun call' g channel id hcall => ?_, h.offers, h.marked, ?_, ?_⟩
  · exact (eq_or_of_update_eq hcall).elim (hb g channel id) (h.stored call' g channel id)
  · intro call' d todo hcall
    have hheld := h.telling call' d todo hcall
    exact hheld.of_eq hheld.inactive rfl rfl
  intro d hd
  have hheld := h.cut d hd
  exact hheld.of_eq hheld.inactive rfl rfl

theorem setClosing {c : Option Closing}
    (hmarked : ∀ d, c = some (.marked d true) → s.devices d ≠ some .active)
    (htelling : ∀ d todo, c = some (.telling d true todo) → Held s d todo) :
    Inv (s.setClosing call c) := by
  refine ⟨h.ids, h.stored, h.offers, ?_, ?_, ?_⟩
  · intro call' d hcall
    exact (eq_or_of_update_eq hcall).elim (hmarked d) (h.marked call' d)
  · intro call' d todo hcall
    have hheld := (eq_or_of_update_eq hcall).elim (htelling d todo) (h.telling call' d todo)
    exact hheld.of_eq hheld.inactive rfl rfl
  intro d hd
  have hheld := h.cut d hd
  exact hheld.of_eq hheld.inactive rfl rfl

theorem setStatus {device : DeviceId} {status : DeviceStatus}
    (hstatus : status ≠ .active) : Inv (s.setStatus device status) := by
  have hdevices : ∀ d, s.devices d ≠ some .active →
      (s.setStatus device status).devices d ≠ some .active := by
    intro d hd
    simp only [Broker.setStatus]
    by_cases hsame : d = device
    · rw [hsame, Function.update_self]
      intro hmap
      obtain ⟨_, _, heq⟩ := Option.map_eq_some_iff.mp hmap
      exact hstatus heq
    · rw [update_of_ne hsame]
      exact hd
  exact h.transfer h.ids (fun d _ hheld => hheld.of_eq (hdevices d hheld.inactive) rfl rfl)
    hdevices (fun row hrow => ⟨row, hrow, rfl, rfl⟩) (fun _ _ hoffer => .inl hoffer) rfl rfl rfl

theorem setState {state : SessionState} {hit : SessionRow → Bool}
    (hheld : ∀ d todo, Held s d todo → Held (s.setState state hit) d todo) :
    Inv (s.setState state hit) := by
  have hids : ((s.setState state hit).sessions.map (·.id)).Nodup := by
    rw [setState_ids]
    exact h.ids
  refine h.transfer hids hheld (fun _ hd => hd) (fun row hrow => ?_)
    (fun _ _ hoffer => .inl hoffer) rfl rfl rfl
  refine ⟨_, mem_setState.mpr ⟨row, hrow, rfl⟩, ?_⟩
  split <;> exact ⟨rfl, rfl⟩

theorem setClosed (hit : SessionRow → Bool) : Inv (s.setState .closed hit) :=
  h.setState fun _ _ hheld => hheld.setClosed hit

theorem setActive {id : SessionId} (hopen : ∀ row ∈ s.sessions, row.id = id → row.state ≠ .closed) :
    Inv (s.setState .active fun row => row.id = id) :=
  h.setState fun _ _ hheld => hheld.setActive hopen

theorem push {channel : ℕ} (hrow : ∀ id, msg = .sessionOffer id →
      ∃ row ∈ s.sessions, row.id = id ∧ row.gatewayId = some g)
    (hopen : ∀ row ∈ s.sessions, msg = .sessionOffer row.id → row.state ≠ .closed) :
    Inv (s.push g channel msg) := by
  refine h.transfer h.ids (fun _ _ hheld => hheld.push hopen) (fun _ hd => hd)
    (fun row hrow => ⟨row, hrow, rfl, rfl⟩) (fun g' id hoffer => ?_) rfl rfl rfl
  simp only [Broker.push] at hoffer
  by_cases hg : g' = g
  · subst hg
    rw [Function.update_self, List.mem_append, List.mem_singleton] at hoffer
    exact hoffer.imp_right fun heq => hrow id heq.symm
  · rw [update_of_ne hg] at hoffer
    exact .inl hoffer

theorem trySend (hmsg : ∀ id, msg ≠ .sessionOffer id) : Inv (s.trySend g msg) := by
  unfold Broker.trySend
  split
  · split
    · exact h.push (fun id heq => absurd heq (hmsg id)) fun row _ heq => absurd heq (hmsg row.id)
    · exact h
  · exact h

theorem insert {row : SessionRow} (hfresh : ∀ r ∈ s.sessions, r.id ≠ row.id)
    (hactive : ∀ d, row.Involves d → s.devices d = some .active) :
    Inv { s with sessions := s.sessions ++ [row] } := by
  refine h.transfer ?_ (fun d todo hheld => ?_) (fun _ hd => hd)
    (fun r hr => ⟨r, List.mem_append_left _ hr, rfl, rfl⟩) (fun _ _ hoffer => .inl hoffer)
    rfl rfl rfl
  · rw [List.map_append, List.nodup_append]
    refine ⟨h.ids, List.nodup_singleton _, ?_⟩
    intro a ha b hb hab
    obtain ⟨r, hr, rfl⟩ := List.mem_map.mp ha
    exact hfresh r hr (hab.trans (List.mem_singleton.mp hb))
  · exact hheld.insert (fun hinv => hheld.inactive (hactive d hinv)) rfl rfl rfl

theorem reactivate (device : DeviceId) : Inv (s.step (.reactivate device)) := by
  have hdevices : ∀ d, d ≠ device → (s.step (.reactivate device)).devices d = s.devices d :=
    fun d hd => update_of_ne hd _ _
  have hother : ∀ {d todo}, d ≠ device → Held s d todo →
      Held (s.step (.reactivate device)) d todo := fun hd hheld =>
    hheld.of_eq (by rw [hdevices _ hd]; exact hheld.inactive) rfl rfl
  refine ⟨h.ids, h.stored, h.offers, ?_, ?_, ?_⟩
  · intro call d hcall
    obtain ⟨c, hc, hlapse⟩ := Option.map_eq_some_iff.mp hcall
    cases c with
    | telling d' holds todo => cases hlapse
    | marked d' holds =>
      simp only [Closing.lapse, Closing.marked.injEq, Bool.and_eq_true,
        decide_eq_true_eq] at hlapse
      obtain ⟨rfl, rfl, hd⟩ := hlapse
      rw [hdevices d' hd]
      exact h.marked call d' hc
  · intro call d todo hcall
    obtain ⟨c, hc, hlapse⟩ := Option.map_eq_some_iff.mp hcall
    cases c with
    | marked d' holds => cases hlapse
    | telling d' holds todo' =>
      simp only [Closing.lapse, Closing.telling.injEq, Bool.and_eq_true,
        decide_eq_true_eq] at hlapse
      obtain ⟨rfl, ⟨rfl, hd⟩, rfl⟩ := hlapse
      exact hother hd (h.telling call d' todo' hc)
  · intro d hd
    by_cases hsame : d = device
    · simp [step, hsame] at hd
    · simp only [step, update_of_ne hsame] at hd
      exact hother hsame (h.cut d hd)

end

end Inv

/-! ### Closing the sessions of a device -/

def hitBy (device : DeviceId) (row : SessionRow) : Bool :=
  row.deviceId = device && row.state ≠ .closed

def ends (row : SessionRow) : List DeviceId :=
  row.deviceId :: row.peerDeviceId.toList

theorem mem_ends : d ∈ ends row ↔ row.Involves d := by
  simp [ends, SessionRow.Involves, eq_comm (a := d)]

/-- What an interleaving has to keep to besides, step by step. -/
def undisturbed (s : Broker) : BrokerEvent → Bool
  -- A row is stored while its ends are active.
  | .insertSession call _ =>
    match s.brokerings call with
    | some (.admitted device dest id) =>
      (ends (rowFor device dest id)).all fun d => s.devices d = some .active
    | _ => true
  -- An offer is for a row that is not closed.
  | .sendOffer call =>
    match s.brokerings call with
    | some (.stored _ id) => s.sessions.all fun row => row.id ≠ id || row.state ≠ .closed
    | _ => true
  -- The statement succeeds, and the rows of the device that it does not close are closed, with
  -- a close behind the offer.
  | .closeSessions call ok =>
    match s.closings call with
    | some (.marked device true) =>
      ok && s.sessions.all fun row => !(ends row).contains device || hitBy device row ||
        (row.state = .closed && row.gatewayId.all fun g => closedAfter row.id (s.sent g))
    | _ => true
  -- The close finds the gateway registered, and room in its channel.
  | .tellGateway call =>
    match s.closings call with
    | some (.telling _ true ((_, some g) :: _)) => (s.registry g).any s.hasRoom
    | _ => true
  | _ => true

/-- No step sets a closed row active, and none disturbs a suspension. -/
def Orderly (s : Broker) (e : BrokerEvent) : Prop :=
  s.SparesClosed e ∧ s.undisturbed e = true

instance (s : Broker) (e : BrokerEvent) : Decidable (Orderly s e) :=
  inferInstanceAs (Decidable (_ ∧ _))

/-! ### One step -/

section
variable {s : Broker} {call : ℕ} (h : Inv s)
include h

theorem Inv.closedAfter_of_gateway {row : SessionRow} (hrow : row ∈ s.sessions) {g : GatewayId}
    (hg : row.gatewayId ≠ some g) : closedAfter row.id (s.sent g) = true := by
  apply closedAfter_of_not_mem
  intro hoffer
  obtain ⟨r, hr, hid, hrg⟩ := h.offers g row.id hoffer
  rw [eq_of_id h.ids hr hrow hid] at hrg
  exact hg hrg

theorem Inv.insertStep {ok : Bool} (hok : s.undisturbed (.insertSession call ok) = true) :
    Inv (s.insertStep call ok) := by
  unfold Broker.insertStep
  split
  · rename_i device dest id hcall
    simp only [undisturbed, hcall, List.all_eq_true, decide_eq_true_eq] at hok
    split
    · rename_i s' hinsert
      cases ok with
      | false => cases hinsert
      | true =>
        obtain ⟨hfresh, rfl⟩ := insertRow_eq_some hinsert
        have hnext := h.insert hfresh fun d hd => hok d (mem_ends.mpr hd)
        refine hnext.setBrokering fun g channel id' hstored => ?_
        cases hstored
        exact ⟨_, List.mem_append_right _ (List.mem_singleton_self _), rfl, rfl⟩
    · exact h.setBrokering nofun
  · exact h

theorem Inv.sendOfferStep (hok : s.undisturbed (.sendOffer call) = true) :
    Inv (s.sendOfferStep call) := by
  unfold Broker.sendOfferStep
  split
  · rename_i g channel id hcall
    simp only [undisturbed, hcall, List.all_eq_true, Bool.or_eq_true, decide_eq_true_eq] at hok
    split
    · have hnext : Inv (s.push g channel (.sessionOffer id)) := by
        apply h.push
        · rintro id' ⟨⟩
          exact h.stored call g channel id hcall
        · rintro row hrow ⟨⟩
          exact (hok row hrow).elim (fun hid => absurd rfl hid) fun hstate => hstate
      exact hnext.setBrokering nofun
    · split
      · exact h
      · exact h.setBrokering nofun
  · exact h

/-- The rows of the device are closed, and the gateways of those that were not are on the
list. -/
theorem Inv.held_of_closeSessions {device : DeviceId}
    (hcall : s.closings call = some (.marked device true))
    (hrest : ∀ row ∈ s.sessions, row.Involves device → hitBy device row = false →
      row.state = .closed ∧ ∀ g, row.gatewayId = some g → closedAfter row.id (s.sent g) = true) :
    Held (s.setState .closed (hitBy device)) device
      ((s.sessions.filter (hitBy device)).map fun row => (row.id, row.gatewayId)) := by
  refine ⟨h.marked call device hcall, fun row hrow hinv => ?_, fun row hrow hinv g => ?_⟩
  · obtain ⟨r, hr, -, -, -, hclosed | ⟨rfl, hmiss⟩⟩ := exists_of_mem_setState hrow
    · exact hclosed
    · exact (hrest row hr hinv hmiss).1
  obtain ⟨r, hr, hid, -, hsame, -⟩ := exists_of_mem_setState hrow
  rw [hid]
  by_cases hg : r.gatewayId = some g
  · cases hhit : hitBy device r with
    | true => exact .inr (List.mem_map.mpr ⟨r, List.mem_filter.mpr ⟨hr, hhit⟩, by rw [hg]⟩)
    | false => exact .inl ((hrest r hr ((hsame device).mp hinv) hhit).2 g hg)
  · exact .inl (h.closedAfter_of_gateway hr hg)

theorem Inv.closeSessionsStep {ok : Bool} (hok : s.undisturbed (.closeSessions call ok) = true) :
    Inv (s.closeSessionsStep call ok) := by
  unfold Broker.closeSessionsStep
  split
  · rename_i device holds hcall
    cases holds with
    | false =>
      -- A revocation promises nothing.
      cases ok with
      | true => exact (h.setClosed (hitBy device)).setClosing nofun nofun
      | false => exact h.setClosing nofun nofun
    | true =>
      simp only [undisturbed, hcall, Bool.and_eq_true] at hok
      obtain ⟨rfl, hrows⟩ := hok
      refine (h.setClosed (hitBy device)).setClosing nofun ?_
      rintro d todo ⟨⟩
      refine h.held_of_closeSessions hcall fun row hrow hinv hmiss => ?_
      have hends := mem_ends.mpr hinv
      have hdone := List.all_eq_true.mp hrows row hrow
      simp only [hmiss, Bool.or_false, List.contains_iff_mem.mpr hends, Bool.not_true,
        Bool.false_or, Bool.and_eq_true, decide_eq_true_eq, Option.all_eq_true] at hdone
      exact hdone
  · exact h

theorem Inv.tellGatewayStep (hok : s.undisturbed (.tellGateway call) = true) :
    Inv (s.tellGatewayStep call) := by
  unfold Broker.tellGatewayStep
  split
  · rename_i device holds id gateway todo hcall
    cases gateway with
    | none =>
      refine h.setClosing nofun ?_
      rintro d todo' ⟨⟩
      have hheld := h.telling call device _ hcall
      refine ⟨hheld.inactive, hheld.shut, fun row hrow hinv g => ?_⟩
      refine (hheld.told row hrow hinv g).imp_right fun htodo => ?_
      exact (List.mem_cons.mp htodo).resolve_left nofun
    | some g =>
      have hnext : Inv (s.trySend g (.close id)) := h.trySend fun _ heq => nomatch heq
      refine hnext.setClosing nofun ?_
      rintro d todo' ⟨⟩
      have hheld := h.telling call device _ hcall
      simp only [undisturbed, hcall, Option.any_eq_true] at hok
      obtain ⟨channel, hchannel, hroom⟩ := hok
      simp only [Broker.trySend, hchannel, hroom, if_true]
      exact hheld.tell channel
  · exact h

theorem Inv.closingReturnsStep : Inv (s.closingReturnsStep call) := by
  unfold Broker.closingReturnsStep
  split
  · rename_i device holds hcall
    have hnext : Inv (s.setClosing call none) := h.setClosing nofun nofun
    refine ⟨hnext.ids, hnext.stored, hnext.offers, hnext.marked, ?_, ?_⟩
    · intro call' d todo hcall'
      have hheld := hnext.telling call' d todo hcall'
      exact hheld.of_eq hheld.inactive rfl rfl
    intro d hd
    have hheld : Held s d [] := by
      cases holds with
      | false => exact h.cut d hd
      | true =>
        by_cases hsame : d = device
        · rw [hsame]
          exact h.telling call device [] hcall
        change Function.update s.cut device true d = true at hd
        rw [update_of_ne hsame] at hd
        exact h.cut d hd
    exact hheld.of_eq hheld.inactive rfl rfl
  · exact h

theorem Inv.step {e : BrokerEvent} (hok : s.Orderly e) : Inv (s.step e) := by
  by_cases hmoves : movesCall e = true
  · obtain hsame | ⟨call, b, hmoved, hb⟩ := step_of_movesCall s hmoves
    · rw [hsame]
      exact h
    · rw [hmoved]
      exact h.setBrokering fun g channel id heq => absurd heq (hb g channel id)
  cases e with
  | insertSession call ok => exact h.insertStep hok.2
  | sendOffer call => exact h.sendOfferStep hok.2
  | closeSessions call ok => exact h.closeSessionsStep hok.2
  | tellGateway call => exact h.tellGatewayStep hok.2
  | closingReturns call => exact h.closingReturnsStep
  | reactivate device => exact h.reactivate device
  | activate call ok =>
    simp only [Broker.step]
    split
    · rename_i id hcall
      cases ok with
      | false => exact h.setBrokering (by simp)
      | true =>
        -- The row is not closed, so it is no row of a device that is held off.
        have hnext : Inv (s.setState .active fun row => row.id = id) :=
          h.setActive fun row hrow hid => hok.1 row hrow (by simp [activates, hcall, hid])
        exact hnext.setBrokering (by simp)
    · exact h
  | sessionEvent id kind ok =>
    cases ok with
    | false => cases kind <;> exact h
    | true =>
      cases kind with
      | active =>
        exact h.setActive fun row hrow hid => hok.1 row hrow (by simp [activates, hid])
      | closed => exact h.setClosed _
      | other => exact h
  | closeFailed call ok =>
    simp only [Broker.step]
    split
    · cases ok with
      | false => exact h.setBrokering (by simp)
      | true => exact (h.setClosed _).setBrokering (by simp)
    · exact h
  | reportClosed device id ok =>
    cases ok with
    | false => exact h
    | true => exact h.setClosed _
  | suspendDevice call device ok =>
    simp only [Broker.step]
    split
    · refine (h.setStatus (by decide)).setClosing ?_ (by simp)
      rintro d ⟨⟩
      simp [Broker.setStatus]
    · exact h
  | revokeDevice call device ok =>
    simp only [Broker.step]
    split
    · exact (h.setStatus (by decide)).setClosing (by simp) (by simp)
    · exact h
  | closingFails call =>
    simp only [Broker.step]
    split
    · exact h.setClosing (by simp) (by simp)
    · exact h
  | broadcast gateway => exact h.trySend (by simp)
  | openStream | streamEnds | closeChannel | takeMessage => exact h.frame _ _
  | _ => exact absurd rfl hmoves

end

/-! ### A suspension that has returned -/

/-- In an orderly run, no session of a device whose suspension has returned is offered or
active, and every gateway that was sent an offer for one has a close behind it. -/
theorem suspension_cuts (devices : DeviceId → Option DeviceStatus) (events : List BrokerEvent)
    (horderly : Guarded step Orderly (init devices) events) {d : DeviceId}
    (hcut : (run step (init devices) events).cut d = true) :
    ∀ row ∈ (run step (init devices) events).sessions, row.Involves d →
      (row.state ≠ .offered ∧ row.state ≠ .active) ∧
      ∀ g, closedAfter row.id ((run step (init devices) events).sent g) = true := by
  have hinv : Inv (run step (init devices) events) :=
    horderly.invariant (fun _ _ h hok => h.step hok) (Inv.init devices)
  have hheld := hinv.cut d hcut
  intro row hrow hd
  constructor
  · rw [hheld.shut row hrow hd]
    exact ⟨by decide, by decide⟩
  · intro g
    exact (hheld.told row hrow hd g).resolve_right List.not_mem_nil

/-- Session 77 is active when device 1 is suspended, and its gateway is connected. -/
theorem suspended_and_cut :
    let s := run step (init twoDevices) (openUpToAnswer ++ .activate 0 true :: suspendDevice1)
    ∀ row ∈ s.sessions, row.Involves 1 → (row.state ≠ .offered ∧ row.state ≠ .active) ∧
      ∀ g, closedAfter row.id (s.sent g) = true :=
  suspension_cuts twoDevices (openUpToAnswer ++ .activate 0 true :: suspendDevice1)
    (by decide +kernel) (by decide +kernel)

def suspendedPeer : List BrokerEvent :=
  [.requestPeer 0 2 1, .checkInitiator 0 78, .insertSession 0 true, .pushOffer 0 true, .answer 0,
    .loadResponder 0, .activate 0 true] ++ suspendDevice1

/-- Device 1 is suspended after `open_session` has found it active. -/
def suspendedEarly : List BrokerEvent :=
  [.openStream 9, .openSession 0 1] ++ suspendDevice1 ++
    [.pickGateway 0 9 77, .insertSession 0 true, .sendOffer 0, .answer 0, .activate 0 true]

/-- Device 1 is suspended while the stream of its gateway is down. -/
def suspendedOffline : List BrokerEvent :=
  openUpToAnswer ++ [.activate 0 true, .streamEnds 9] ++ suspendDevice1

/-- The suspension of device 1 has returned, and it is the peer of an active session; or it has
an active session of its own, of which the gateway is not told; or the session is closed and the
gateway is not told. -/
theorem suspended_not_cut :
    ((run step (init twoDevices) suspendedPeer).cut 1 = true ∧
      ⟨78, 2, some 1, none, .active⟩ ∈ (run step (init twoDevices) suspendedPeer).sessions) ∧
    ((run step (init twoDevices) suspendedEarly).cut 1 = true ∧
      ⟨77, 1, none, some 9, .active⟩ ∈ (run step (init twoDevices) suspendedEarly).sessions ∧
      (run step (init twoDevices) suspendedEarly).sent 9 = [.sessionOffer 77]) ∧
    ((run step (init twoDevices) suspendedOffline).cut 1 = true ∧
      ⟨77, 1, none, some 9, .closed⟩ ∈ (run step (init twoDevices) suspendedOffline).sessions ∧
      (run step (init twoDevices) suspendedOffline).sent 9 = [.sessionOffer 77]) := by
  decide +kernel

end Avon.Control.Broker
