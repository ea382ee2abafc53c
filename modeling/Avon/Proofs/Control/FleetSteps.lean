import Avon.Proofs.Control.FleetInv

/-!
# Control and the registrations keep the invariant

`Inv.grow` is for steps of control: what is new to those that rely on it is in a broadcast.
`Inv.follow` is for steps of the gateways, one gateway at a time.
-/

set_option autoImplicit false

namespace Avon.Control

open Avon.Policy Avon.Gateway Avon.Lib.Mirror PushMessage
open Function (update_of_ne)

namespace Fleet

variable {n : ℕ} {s s' : Fleet n}

/-! ### Steps of control -/

/-- Control goes on: it has at least the versions it had, and each version that is new is on its
way to all that rely on it. -/
theorem Inv.grow (h : Inv s) (hregistry : s'.registry = s.registry)
    (hstreams : s'.streams = s.streams) (hphases : s'.phases = s.phases)
    (hgateways : s'.gateways = s.gateways)
    (hwithin : ∀ topic v, s.Within topic v → s'.Within topic v)
    (hcontrol : ∀ topic, s'.Within topic (s'.versions topic))
    (hcalls : ∀ call msg rest, s.calls call = some (.sending msg rest) →
      s'.calls call = some (.sending msg rest))
    (hsends : ∀ call msg rest, s'.calls call = some (.sending msg rest) → s'.Sound msg)
    (hchange : ∀ topic, s'.versions topic = s.versions topic ∨
      ∀ g, s.relies g topic = true → s'.Pending g topic) : Inv s' := by
  have hinbox : ∀ g, s'.inbox g = s.inbox g := fun g => by
    rw [Fleet.inbox, Fleet.inbox, hstreams, hphases]
  have hrelies : ∀ g, s'.relies g = s.relies g := fun g => by
    rw [relies, relies, hstreams, hphases]
  have hsettled : ∀ g topic, s'.settled g topic = s.settled g topic := fun g topic => by
    rw [settled, settled, hinbox, hgateways]
  refine ⟨⟨?_, ?_⟩, hcontrol, ?_, ?_, hsends, ?_⟩
  · rw [hregistry, hstreams]
    exact h.wired.owner
  · rw [hregistry, hstreams, hphases]
    exact h.wired.serves
  · intro g topic
    rw [hgateways]
    exact hwithin topic _ (h.gateway g topic)
  · intro g msg hmsg topic v hv
    rw [hinbox] at hmsg
    exact hwithin topic v (h.inbox g msg hmsg topic v hv)
  · intro g topic hr
    rw [hrelies] at hr
    rcases hchange topic with hsame | hpending
    · rw [hsettled, hsame]
      refine (h.agree g topic hr).imp_right ?_
      rintro ⟨hserving, call, msg, rest, hcall, hg, hmsg⟩
      exact ⟨by rwa [hphases], call, msg, rest, hcalls call msg rest hcall, hg, by rwa [hsame]⟩
    · exact .inr (hpending g hr)

variable {phase : GatewayPhase} {c : Option (PushCall n)} {call : ℕ} {g : Fin n}

theorem sound_setCall (h : ∀ call msg rest, s.calls call = some (.sending msg rest) → s.Sound msg)
    (hc : ∀ msg rest, c = some (.sending msg rest) → s.Sound msg) :
    ∀ call' msg rest, (s.setCall call c).calls call' = some (.sending msg rest) → s.Sound msg := by
  intro call' msg rest hcall
  simp only [setCall, Function.update_apply] at hcall
  split at hcall
  · exact hc msg rest hcall
  · exact h call' msg rest hcall

theorem calls_setCall_of_ne {call call' : ℕ} (h : call' ≠ call) (c : Option (PushCall n)) :
    (s.setCall call c).calls call' = s.calls call' :=
  update_of_ne h ..

theorem Inv.setCall (h : Inv s) (hbefore : ∀ msg rest, s.calls call ≠ some (.sending msg rest))
    (hafter : ∀ msg rest, c ≠ some (.sending msg rest)) : Inv (s.setCall call c) := by
  refine h.grow rfl rfl rfl rfl (fun _ _ hv => hv) h.control ?_ ?_ fun _ => .inl rfl
  · intro call' msg rest hcall
    have hne : call' ≠ call := fun heq => hbefore msg rest (heq ▸ hcall)
    rw [calls_setCall_of_ne hne]
    exact hcall
  · exact sound_setCall h.sends fun msg rest hc => absurd hc (hafter msg rest)

theorem Inv.publish (h : Inv s) {msg : PushMessage}
    (hbefore : ∀ msg rest, s.calls call ≠ some (.sending msg rest))
    (hregistry : s'.registry = s.registry) (hstreams : s'.streams = s.streams)
    (hphases : s'.phases = s.phases) (hgateways : s'.gateways = s.gateways)
    (hcalls : s'.calls = s.calls)
    (hwithin : ∀ topic v, s.Within topic v → s'.Within topic v)
    (hcontrol : ∀ topic, s'.Within topic (s'.versions topic)) (hsound : s'.Sound msg)
    (hchange : ∀ topic, s'.versions topic = s.versions topic ∨
      msg.carried topic = some (s'.versions topic) ∧
        ∀ g, s.relies g topic = true → isServing (s.phases g) = true) :
    Inv (s'.setCall call (some (.sending msg (List.finRange n)))) := by
  refine h.grow hregistry hstreams hphases hgateways hwithin hcontrol ?_ ?_ ?_
  · intro call' msg' rest hcall
    have hne : call' ≠ call := fun heq => hbefore msg' rest (heq ▸ hcall)
    rw [calls_setCall_of_ne hne, hcalls]
    exact hcall
  · apply sound_setCall
    · intro call' msg' rest hcall topic v hv
      rw [hcalls] at hcall
      exact hwithin topic v (h.sends call' msg' rest hcall topic v hv)
    · rintro msg' rest ⟨⟩
      exact hsound
  intro topic
  refine (hchange topic).imp_right fun ⟨hcarried, hserving⟩ g hrelies => ?_
  refine ⟨?_, call, msg, List.finRange n, Function.update_self .., List.mem_finRange g, hcarried⟩
  have hg := hserving g hrelies
  rwa [← hphases] at hg

section
variable (env : PushEnv) (data : SnapshotData) (now : ℤ)

theorem versions_loadData (topic : Topic) : (s.loadData env data now).versions topic =
    if topic = .tenant data.tenantId ∧ s.loadOk env data now = true then data.version
    else s.versions topic := by
  cases topic with
  | crl => simp [loadData, versions]
  | tenant t => simp [loadData, loadOk, versions, versionAt_loadEngine]

theorem Within.loadData {topic : Topic} {v : UInt64} (hv : s.Within topic v) :
    (s.loadData env data now).Within topic v := by
  cases topic with
  | crl => exact hv
  | tenant t => exact hv.imp_right fun ht => List.mem_insert_of_mem ht

theorem sound_loadData : (s.loadData env data now).Sound (.policy data) := by
  intro topic v hcarried
  cases topic with
  | crl => cases hcarried
  | tenant t =>
    simp only [carried, Option.ite_none_right_eq_some] at hcarried
    rw [← hcarried.1]
    exact .inr List.mem_insert_self

theorem Inv.control_loadData (h : Inv s) (topic : Topic) :
    (s.loadData env data now).Within topic ((s.loadData env data now).versions topic) := by
  rw [versions_loadData]
  split
  · rename_i hload
    rw [hload.1]
    exact .inr List.mem_insert_self
  · exact (h.control topic).loadData env data now

end

section
variable {env : PushEnv}

theorem Inv.loadTenantStep (h : Inv s) {now : ℤ}
    (hok : s.orderly env (.loadTenant call now) = true) : Inv (s.loadTenantStep env call now) := by
  unfold Fleet.loadTenantStep
  split
  · rename_i data hcall
    have hbefore : ∀ msg rest, s.calls call ≠ some (.sending msg rest) := fun msg rest heq => by
      rw [hcall] at heq
      cases heq
    simp only [orderly, hcall, Bool.or_eq_true, decide_eq_true_eq, keepsVersion] at hok
    split
    · rename_i hload
      refine h.publish hbefore rfl rfl rfl rfl rfl (fun _ _ hv => hv.loadData env data now)
        (h.control_loadData env data now) (sound_loadData env data now) fun topic => ?_
      by_cases htopic : topic = .tenant data.tenantId
      · subst htopic
        refine hok.imp_right fun hserving => ⟨?_, hserving⟩
        simp [versions_loadData, hload, carried]
      · left
        simp [versions_loadData, htopic]
    · rename_i hload
      -- Nothing is loaded, and the call ends.
      have hnext : Inv (s.loadData env data now) :=
        h.grow rfl rfl rfl rfl (fun _ _ hv => hv.loadData env data now)
          (h.control_loadData env data now) (fun _ _ _ hc => hc)
          (fun call' msg rest hc topic v hv =>
            (h.sends call' msg rest hc topic v hv).loadData env data now)
          fun topic => .inl (by simp [versions_loadData, hload])
      exact hnext.setCall hbefore (by simp)
  · exact h

theorem Inv.storeCrlStep (h : Inv s) (hok : s.orderly env (.storeCrl call) = true) :
    Inv (s.storeCrlStep call) := by
  unfold Fleet.storeCrlStep
  split
  · rename_i verified hcall
    have hbefore : ∀ msg rest, s.calls call ≠ some (.sending msg rest) := fun msg rest heq => by
      rw [hcall] at heq
      cases heq
    split
    · exact h
    cases verified with
    | none =>
      -- Control keeps its CRL, and no gateway takes the other.
      refine h.publish hbefore rfl rfl rfl rfl rfl (fun _ _ hv => hv) h.control ?_
        fun _ => .inl rfl
      intro topic v hcarried
      cases topic <;> cases hcarried
    | some crl =>
      simp only [orderly, hcall, Bool.or_eq_true, Bool.and_eq_true, decide_eq_true_eq] at hok
      have hle : s.crl.version ≤ crl.version :=
        hok.elim (fun heq => heq ▸ UInt64.le_refl _) fun hnew => UInt64.le_of_lt hnew.1
      refine h.publish hbefore rfl rfl rfl rfl rfl ?_ ?_ ?_ ?_
      · intro topic v hv
        cases topic with
        | crl => exact UInt64.le_trans hv hle
        | tenant t => exact hv
      · intro topic
        cases topic with
        | crl => exact UInt64.le_refl _
        | tenant t => exact h.control (.tenant t)
      · intro topic v hcarried
        cases topic with
        | crl => cases hcarried; exact UInt64.le_refl _
        | tenant t => cases hcarried
      · intro topic
        cases topic with
        | crl => exact hok.imp Eq.symm fun hnew => ⟨rfl, hnew.2⟩
        | tenant t => exact .inl rfl
  · exact h

end

/-! ### Steps of the gateways -/

/-- A gateway after a step that control takes no part in. -/
structure Follows (s s' : Fleet n) (g : Fin n) : Prop where
  gateway : ∀ topic, s.Within topic (versionsOf (s'.gateways g) topic)
  inbox : ∀ msg ∈ s'.inbox g, s.Sound msg
  agree : ∀ topic, s'.relies g topic = true → s'.settled g topic = s.versions topic ∨
    s.relies g topic = true ∧ isServing (s'.phases g) = isServing (s.phases g) ∧
      (s.settled g topic = s.versions topic → s'.settled g topic = s.versions topic)

theorem Inv.follow (h : Inv s) (hengines : s'.engines = s.engines) (hknown : s'.known = s.known)
    (hcrl : s'.crl = s.crl) (hcalls : s'.calls = s.calls) (hwired : Wired s')
    (hg : ∀ g, Follows s s' g) : Inv s' := by
  have hwithin : s'.Within = s.Within := by
    funext topic v
    cases topic with
    | crl => simp only [Within, hcrl]
    | tenant t => simp only [Within, hknown]
  have hversions : s'.versions = s.versions := by
    funext topic
    cases topic with
    | crl => simp only [versions, hcrl]
    | tenant t => simp only [versions, hengines]
  refine ⟨hwired, ?_, ?_, ?_, ?_, ?_⟩
  · rw [hwithin, hversions]
    exact h.control
  · rw [hwithin]
    exact fun g => (hg g).gateway
  · unfold Sound
    rw [hwithin]
    exact fun g => (hg g).inbox
  · unfold Sound
    rw [hwithin, hcalls]
    exact h.sends
  · intro g topic hrelies
    rw [hversions]
    rcases (hg g).agree topic hrelies with hsettled | ⟨hrelied, hserving, hsettled⟩
    · exact .inl hsettled
    · rw [Pending, hserving, hcalls, hversions]
      exact (h.agree g topic hrelied).imp_left hsettled

theorem Inv.follows (h : Inv s) (hphase : s'.phases g = s.phases g)
    (hgateway : s'.gateways g = s.gateways g) (hinbox : s'.inbox g = s.inbox g)
    (hrelies : s'.relies g = s.relies g) : Follows s s' g := by
  refine ⟨fun topic => ?_, ?_, fun topic hr => .inr ⟨?_, by rw [hphase], fun heq => ?_⟩⟩
  · rw [hgateway]
    exact h.gateway g topic
  · rw [hinbox]
    exact h.inbox g
  · rwa [hrelies] at hr
  · rwa [settled, hgateway, hinbox]

theorem Inv.setGatewayPhase (h : Inv s) (g : Fin n) (gateway : GatewayState)
    (hphase : isServing phase = false)
    (hgateway : ∀ topic, s.Within topic (versionsOf gateway topic))
    (hinbox : ∀ msg ∈ inboxAt s.streams phase, s.Sound msg)
    (hagree : ∀ topic, reliesAt s.streams phase topic = true →
      settle carried mergeVersion topic (versionsOf gateway topic)
        (inboxAt s.streams phase) = s.versions topic) :
    Inv ((s.setGateway g gateway).setPhase g phase) := by
  refine h.follow rfl rfl rfl rfl ⟨h.wired.owner, fun g' stream hserving => ?_⟩ fun g' => ?_
  · by_cases hg : g' = g
    · simp only [Fleet.setPhase, hg, Function.update_self] at hserving
      rw [hserving] at hphase
      cases hphase
    · simp only [Fleet.setPhase, update_of_ne hg] at hserving
      exact h.wired.serves g' stream hserving
  by_cases hg : g' = g
  · subst hg
    constructor
    · simpa [Fleet.setPhase, setGateway] using hgateway
    · simpa [Fleet.setPhase, setGateway, Fleet.inbox] using hinbox
    intro topic hrelies
    left
    simp only [relies, Fleet.setPhase, Function.update_self] at hrelies
    simpa [settled, Fleet.setPhase, setGateway, Fleet.inbox] using hagree topic hrelies
  · apply h.follows
    · simp [Fleet.setPhase, setGateway, update_of_ne hg]
    · simp [Fleet.setPhase, setGateway, update_of_ne hg]
    · simp [Fleet.inbox, Fleet.setPhase, setGateway, update_of_ne hg]
    · simp [relies, Fleet.setPhase, setGateway, update_of_ne hg]

theorem Inv.setPhase (h : Inv s) (g : Fin n)
    (hphase : isServing phase = false) (hinbox : ∀ msg ∈ inboxAt s.streams phase, s.Sound msg)
    (hagree : ∀ topic, reliesAt s.streams phase topic = true →
      settle carried mergeVersion topic (versionsOf (s.gateways g) topic)
        (inboxAt s.streams phase) = s.versions topic) : Inv (s.setPhase g phase) := by
  have hself : s.setGateway g (s.gateways g) = s := by
    simp [setGateway]
  have hnext := h.setGatewayPhase g (s.gateways g) hphase (h.gateway g) hinbox hagree
  rwa [hself] at hnext

theorem Inv.setPhase_of_off (h : Inv s) (g : Fin n)
    (hphase : phase = .idle ∨ phase = .stopped ∨ ∃ todo read out,
      phase = .registering true todo read out) : Inv (s.setPhase g phase) := by
  obtain rfl | rfl | ⟨todo, read, out, rfl⟩ := hphase
  · exact h.setPhase g rfl nofun nofun
  · exact h.setPhase g rfl nofun nofun
  · exact h.setPhase g rfl nofun nofun

theorem Inv.settled_eq (h : Inv s) (hphase : isServing (s.phases g) = false)
    {topic : Topic} (hrelies : s.relies g topic = true) :
    s.settled g topic = s.versions topic := by
  refine (h.agree g topic hrelies).resolve_right fun hpending => ?_
  rw [hpending.1] at hphase
  cases hphase

section
variable {env : PushEnv}

theorem Inv.registerStep (h : Inv s) {boot : Bool} {tenants : Option Db}
    (hok : s.orderly env (.register g boot tenants) = true) :
    Inv (s.registerStep g boot tenants) := by
  unfold Fleet.registerStep
  by_cases hphase : s.phases g = (if boot then .stopped else .idle)
  · rw [if_pos hphase]
    cases boot with
    | true => cases tenants <;> exact h.setPhase_of_off g (.inr (.inr ⟨_, _, _, rfl⟩))
    | false =>
      cases tenants with
      | none => cases hok
      | some db =>
        refine h.setPhase g rfl nofun fun topic hrelies => ?_
        cases topic with
        | crl => cases hrelies
        | tenant t =>
          -- Control has no engine for a tenant that is not in the table.
          simp only [reliesAt, Option.all_none, Bool.and_true, Bool.not_eq_true',
            List.contains_eq_mem, decide_eq_false_iff_not] at hrelies
          simp only [orderly, Option.any_some, List.all_eq_true, List.contains_eq_mem,
            decide_eq_true_eq] at hok
          have hunknown : t ∉ s.known := fun hknown => hrelies (hok t hknown)
          exact ((h.gateway g (.tenant t)).resolve_right hunknown).trans
            ((h.control (.tenant t)).resolve_right hunknown).symm
  · rw [if_neg hphase]
    exact h

theorem Inv.readForRegistrationStep (h : Inv s) {db : Option Db}
    (hok : s.orderly env (.readForRegistration g db) = true) :
    Inv (s.readForRegistrationStep env g db) := by
  unfold Fleet.readForRegistrationStep
  split
  · rename_i boot tenant todo out hphase
    cases boot with
    | true => cases db <;> exact h.setPhase_of_off g (.inr (.inr ⟨_, _, _, rfl⟩))
    | false =>
      cases db with
      | none => simp [orderly, hphase] at hok
      | some db =>
        have hinbox : s.inbox g = out.map .policy := by
          rw [Fleet.inbox, hphase, inboxAt]
        have hsound := h.inbox g
        rw [hinbox] at hsound
        refine h.setPhase g rfl hsound fun topic hrelies => ?_
        -- The tenant that is read is still to do.
        have hrelied : s.relies g topic = true := by
          cases topic with
          | crl => cases hrelies
          | tenant t =>
            simp only [reliesAt, loadSnapshot, Option.all_some, Bool.and_eq_true,
              Bool.not_eq_true', List.contains_eq_mem, decide_eq_false_iff_not,
              decide_eq_true_eq] at hrelies
            simp [relies, hphase, reliesAt, hrelies.1, Ne.symm hrelies.2]
        have hsettled := h.settled_eq (by rw [hphase]; rfl) hrelied
        rwa [settled, hinbox] at hsettled
  · exact h

theorem Inv.loadForRegistrationStep (h : Inv s) {now : ℤ}
    (hok : s.orderly env (.loadForRegistration g now) = true) :
    Inv (s.loadForRegistrationStep env g now) := by
  unfold Fleet.loadForRegistrationStep
  split
  · rename_i boot todo data out hphase
    simp only [orderly, hphase, Bool.and_eq_true, Bool.or_eq_true, decide_eq_true_eq,
      keepsVersion] at hok
    obtain ⟨hload, hothers⟩ := hok
    have hinbox : boot = false → s.inbox g = out.map .policy := by
      rintro rfl
      rw [Fleet.inbox, hphase, inboxAt]
    -- Control loads the snapshot while the gateway counts as gone.
    have hidle : Inv (s.setPhase g .idle) := h.setPhase_of_off g (.inl rfl)
    have hloaded : Inv ((s.setPhase g .idle).loadData env data now) := by
      refine hidle.grow rfl rfl rfl rfl (fun _ _ hv => hv.loadData env data now)
        (hidle.control_loadData env data now) (fun _ _ _ hcall => hcall)
        (fun call msg rest hcall topic v hv =>
          (h.sends call msg rest hcall topic v hv).loadData env data now) fun topic => ?_
      by_cases htopic : topic = .tenant data.tenantId
      · subst htopic
        refine hothers.imp_right fun hnone g' hrelies => ?_
        by_cases hg : g' = g
        · simp [relies, Fleet.setPhase, hg, reliesAt] at hrelies
        simp only [relies, Fleet.setPhase, update_of_ne hg] at hrelies
        rw [← relies, hnone g' hg] at hrelies
        cases hrelies
      · left
        simp only [versions_loadData, htopic, false_and, if_false]
    have hback : ∀ phase, ((s.setPhase g .idle).loadData env data now).setPhase g phase =
        (s.loadData env data now).setPhase g phase := fun phase => by
      simp [Fleet.setPhase, loadData]
    rw [← hback]
    cases boot with
    | true =>
      apply hloaded.setPhase_of_off
      split <;> exact .inr (.inr ⟨_, _, _, rfl⟩)
    | false =>
      have hloadOk : s.loadOk env data now = true := hload.resolve_left (by simp)
      rw [if_pos hloadOk]
      refine hloaded.setPhase g rfl ?_ fun topic hrelies => ?_
      · intro msg hmsg
        simp only [inboxAt, List.map_append, List.map_singleton, List.mem_append,
          List.mem_singleton] at hmsg
        rcases hmsg with hold | rfl
        · exact fun topic v hv =>
            (h.inbox g msg (hinbox rfl ▸ hold) topic v hv).loadData env data now
        · exact sound_loadData env data now
      · cases topic with
        | crl => cases hrelies
        | tenant t =>
          simp only [inboxAt, List.map_append, List.map_singleton, settle_concat]
          by_cases ht : data.tenantId = t
          · rw [update_of_some (w := data.version) (by simp [carried, ht]),
              versions_loadData, if_pos ⟨by rw [ht], hloadOk⟩]
            rfl
          have hrelied : s.relies g (.tenant t) = true := by
            simp only [reliesAt, Option.all_none, Bool.and_true] at hrelies
            simp only [relies, hphase, reliesAt, hrelies, Option.all_some, ht, ne_eq,
              not_false_eq_true, decide_true, Bool.and_self]
          have hsettled := h.settled_eq (by rw [hphase]; rfl) hrelied
          rw [settled, hinbox rfl] at hsettled
          rw [update_of_none (by simp [carried, ht]), versions_loadData,
            if_neg (by simp [Ne.symm ht])]
          exact hsettled
  · exact h

theorem Inv.answerStep (h : Inv s) : Inv (s.answerStep g) := by
  unfold Fleet.answerStep
  split
  · refine h.setGatewayPhase g _ rfl (fun topic => ?_) nofun nofun
    cases topic with
    | crl => exact UInt64.le_refl _
    | tenant t => exact .inl rfl
  · rename_i out hphase
    have hinbox : s.inbox g = out.map .policy := by
      rw [Fleet.inbox, hphase, inboxAt]
    refine h.setPhase g rfl ?_ fun topic _ => ?_
    · intro msg hmsg
      rcases List.mem_cons.mp hmsg with rfl | hmsg
      · intro topic v hcarried
        cases topic with
        | crl => cases hcarried; exact UInt64.le_refl _
        | tenant t => cases hcarried
      · exact h.inbox g msg (hinbox ▸ hmsg)
    · cases topic with
      | crl =>
        -- The cached CRL is at least as new as the gateway's, and snapshots do not change it.
        have hcrl : update carried mergeVersion .crl
            (versionsOf (s.gateways g) .crl) (.crl (some s.crl)) = s.versions .crl :=
          (h.gateway g .crl).merge_versions
        rw [inboxAt, settle_cons, hcrl]
        apply settle_of_none
        intro msg hmsg
        obtain ⟨data, -, rfl⟩ := List.mem_map.mp hmsg
        rfl
      | tenant t =>
        have hrelied : s.relies g (.tenant t) = true := by
          simp [relies, hphase, reliesAt]
        have hsettled := h.settled_eq (by rw [hphase]; rfl) hrelied
        rwa [settled, hinbox] at hsettled
  · exact h

theorem Inv.applyConfigStep (h : Inv s) {now : ℤ}
    (hok : s.orderly env (.applyConfig g now) = true) : Inv (s.applyConfigStep env g now) := by
  unfold Fleet.applyConfigStep
  split
  · rename_i msg todo hphase
    simp only [orderly, hphase] at hok
    have hinbox : s.inbox g = msg :: todo := by
      rw [Fleet.inbox, hphase, inboxAt]
    have hsound := h.inbox g
    rw [hinbox] at hsound
    refine h.setGatewayPhase g _ rfl (fun topic => ?_)
      (fun m hm => hsound m (List.mem_cons_of_mem _ hm)) fun topic _ => ?_
    · rw [versionsOf_receiveMessage hok]
      exact (hsound msg List.mem_cons_self).update (h.gateway g topic)
    have hrelied : s.relies g topic = true := by
      simp [relies, hphase, reliesAt]
    have hsettled := h.settled_eq (by rw [hphase]; rfl) hrelied
    rw [settled, hinbox, settle_cons] at hsettled
    rwa [versionsOf_receiveMessage hok]
  · exact h

end

end Fleet

end Avon.Control
