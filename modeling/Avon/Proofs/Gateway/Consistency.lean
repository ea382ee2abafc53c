import Avon.Proofs.Gateway.DeviceUpdate
import Avon.Proofs.Gateway.Revocation

/-!
# The session table, the metadata and the routes

`Agree` says that the three are about the same sessions. A step that is `tidy` keeps it, and
`tables_disagree` has a step of each other kind.
-/

set_option autoImplicit false

namespace Avon.Gateway

open Avon.Crypto Avon.Tunnel Avon.Policy Avon.Proto Avon.Lib.Run

structure Agree (s : GatewayState) : Prop where
  metas : ∀ id, (s.table.byId id).isSome = true ↔ id ∈ s.sessionsMeta
  routes : ∀ r ∈ s.routes.routes, (s.table.byId r.2).isSome = true

/-- `accept_offer` with its last statement, which sends the answer: whether it returns `Ok`. -/
def offerReturns (env : Env) (s : GatewayState) (offer : SessionOffer) (now : ℤ)
    (built : Option Session) (sent : Bool) : Bool × GatewayState :=
  let (result, s') := acceptOffer env s offer now built
  (result.isOk && sent, s')

def tidy (env : Env) (s : GatewayState) : Event → Bool
  | .control (.offer offer now (some _)) =>
    match checkOffer env s offer now with
    | .ok (_, cert) => (env.tenantId cert.tenantId).isSome
    | .error _ => true
  | .control (.routes update) =>
    update.remove || (uuidOf update.sessionId).all fun id => (s.table.byId id).isSome
  | .control (.deviceUpdate _ device attrs _) =>
    attrs.status = "active" || s.sessionsMeta.entries.all fun e => e.2.deviceId ≠ device
  | _ => true

/-- No session comes or goes, and there are no new routes. -/
structure Stays (s s' : GatewayState) : Prop where
  byId : s'.table.byId = s.table.byId
  metas : s'.sessionsMeta = s.sessionsMeta
  routes : ∀ r ∈ s'.routes.routes, r ∈ s.routes.routes

section
variable {env : Env} {s s' : GatewayState} {id : SessionId}

theorem Agree.stays (h : Agree s) (hs : Stays s s') : Agree s' where
  metas id := by rw [hs.byId, hs.metas, h.metas]
  routes r hr := by rw [hs.byId, h.routes r (hs.routes r hr)]

theorem Forwards.stays (h : Forwards s s') : Stays s s' := ⟨h.byId, h.metas, h.shrinks.routes⟩

theorem stays_receiveIp (s : GatewayState) (id : SessionId) (packet : Bytes) :
    Stays s (receiveIp s id packet) := by
  unfold receiveIp
  split
  · exact ⟨rfl, rfl, fun _ h => h⟩
  · simp only
    split <;> exact ⟨rfl, rfl, fun _ h => h⟩

theorem Agree.routes_closeSession (h : Agree s) (id : SessionId) :
    (s.closeSession id).routes.routes = s.routes.routes.filter fun r => r.2 ≠ id := by
  unfold GatewayState.closeSession
  split
  · next hnone =>
    refine (List.filter_eq_self.mpr fun r hr => decide_eq_true ?_).symm
    rintro rfl
    simpa [hnone] using h.routes r hr
  · rfl

theorem Agree.closeSession (h : Agree s) (id : SessionId) : Agree (s.closeSession id) where
  metas x := by
    unfold GatewayState.closeSession
    split
    · exact h.metas x
    by_cases hx : x = id
    · simp [byId_unroute, hx]
    · simp [byId_unroute, hx, h.metas]
  routes r hr := by
    rw [h.routes_closeSession] at hr
    obtain ⟨hr, hne⟩ := List.mem_filter.mp hr
    have hne : r.2 ≠ id := by simpa using hne
    have hsome := h.routes r hr
    unfold GatewayState.closeSession
    split
    · exact hsome
    · simpa [byId_unroute, hne] using hsome

theorem Agree.applyCrl (h : Agree s) (verified : Option Crl) : Agree (applyCrl s verified) := by
  unfold Gateway.applyCrl
  split
  · exact h
  split
  · exact h
  · exact List.foldlRecOn (motive := Agree) _ _ ⟨h.metas, h.routes⟩
      fun s' hs' e _ => hs'.closeSession e.1

theorem Agree.insert (h : Agree s) {x : Handle} {session : Session} {m : SessionMeta}
    {nets : List IpNet} : Agree { s.insertSession x session with
      routes := insertRoutes s.routes nets x.id
      sessionsMeta := s.sessionsMeta.insert x.id m } where
  metas id := by
    by_cases hid : id = x.id
    · simp [byId_insertSession, hid]
    · simp [byId_insertSession, hid, h.metas]
  routes r hr := by
    rcases mem_insertRoutes hr with hr | ⟨net, -, rfl⟩
    · exact isSome_update (h.routes r hr)
    · simp [byId_insertSession]

theorem Agree.controlStep (h : Agree s) {e : ControlEvent} (ht : tidy env s (.control e) = true) :
    Agree (controlStep env s e) := by
  cases e with
  | offer offer now built =>
    simp only [Gateway.controlStep, acceptOffer]
    split
    · exact h
    next id cert hcheck =>
    cases built with
    | none => exact h
    | some session =>
      simp only [tidy, hcheck] at ht
      obtain ⟨tenant, htenant⟩ := Option.isSome_iff_exists.mp ht
      simp only [htenant]
      exact h.insert
  | close id => exact h.closeSession id
  | crl verified => exact h.applyCrl verified
  | routes update =>
    simp only [Gateway.controlStep, applyRoutes]
    split
    · exact h
    next session hid =>
    split
    · exact ⟨h.metas, fun r hr => h.routes r (mem_of_mem_foldl_remove hr)⟩
    next hadd =>
    have hsome : (s.table.byId session).isSome = true := by simpa [tidy, hid, hadd] using ht
    refine ⟨h.metas, fun r hr => ?_⟩
    rcases mem_insertRoutes hr with hr | ⟨net, -, rfl⟩
    · exact h.routes r hr
    · exact hsome
  | policy data now =>
    cases data with
    | none => exact h
    | some data => exact ⟨h.metas, h.routes⟩
  | deviceUpdate tenant device attrs now =>
    simp only [Gateway.controlStep, applyDeviceUpdate]
    split
    · exact ⟨h.metas, h.routes⟩
    next hinactive =>
    split
    · exact ⟨h.metas, h.routes⟩
    next e hfind =>
    have hall : ∀ e ∈ s.sessionsMeta.entries, e.2.deviceId ≠ device := by
      simpa [tidy, hinactive] using ht
    have hdevice := List.find?_some hfind
    exact absurd (by simpa using hdevice : _ ∧ _).1 (hall e (List.mem_of_find?_eq_some hfind))

theorem Agree.step (h : Agree s) {e : Event} (ht : tidy env s e = true) : Agree (step env s e) := by
  cases e with
  | ip id packet => exact h.stays (stays_receiveIp s id packet)
  | forward id socketOk => exact h.stays (forwards_forwardIp env s id socketOk).stays
  | tun packet socketOk => exact h.stays (forwards_ingress env s packet socketOk).stays
  | tunnel id session => exact h.stays (forwards_changeSession s id session).stays
  | closed id => exact h.closeSession id
  | control e =>
    simp only [Gateway.step, handle]
    split
    · exact h
    · exact h.controlStep ht

theorem offerReturns_eq {offer : SessionOffer} {now : ℤ} {built : Option Session}
    (ht : tidy env s (.control (.offer offer now built)) = true)
    (herr : (offerReturns env s offer now built true).1 = false) :
    (offerReturns env s offer now built true).2 = s := by
  unfold offerReturns acceptOffer at *
  cases hcheck : checkOffer env s offer now with
  | error e => rfl
  | ok x =>
    cases built with
    | none => rfl
    | some session =>
      simp only [tidy, hcheck] at ht
      obtain ⟨tenant, htenant⟩ := Option.isSome_iff_exists.mp ht
      simp [hcheck, htenant, Except.isOk, Except.toBool] at herr

end

/-- While all steps are tidy, the session table, the metadata and the routes are about the same
sessions, a session is closed with its own routes and no others, and a tidy offer whose answer can
be sent leaves everything as it was if it fails. -/
theorem tables_agree (env : Env) (crl : Crl) (prefixes : List IpNet) (events : List Event)
    (hG : Guarded (step env) (fun s e => tidy env s e = true) (.bootstrap crl prefixes) events) :
    let s := run (step env) (.bootstrap crl prefixes) events
    Agree s ∧
      (∀ id, (s.closeSession id).routes.routes = s.routes.routes.filter fun r => r.2 ≠ id) ∧
      ∀ offer now built, tidy env s (.control (.offer offer now built)) = true →
        (offerReturns env s offer now built true).1 = false →
          (offerReturns env s offer now built true).2 = s := by
  have hinv : Agree (run (step env) (.bootstrap crl prefixes) events) :=
    hG.invariant (fun _ _ h ht => h.step ht)
      ⟨fun _ => by simp [GatewayState.bootstrap, SessionTable.empty],
        fun _ hr => absurd hr List.not_mem_nil⟩
  exact ⟨hinv, hinv.routes_closeSession, fun _ _ _ => offerReturns_eq⟩

theorem tables_agree_twoTenants :
    Agree (run (step demoEnv) (.bootstrap ⟨0, []⟩ []) (twoTenants ++ [.closed 1])) :=
  (tables_agree demoEnv ⟨0, []⟩ [] (twoTenants ++ [.closed 1]) (by decide +kernel)).1

def noTenants : Env :=
  { demoEnv with tenantId := fun _ => none, ipNet := fun _ => some (.host (.v4 0x64400002)) }

/-- An offer whose tenant does not parse fails and leaves its session in the table without metadata,
and one whose answer cannot be sent fails and leaves its session. A route update makes a route to a
session that is not there. A deactivation takes a session out of the table and not out of the
metadata. -/
theorem tables_disagree :
    (let x := offerReturns noTenants demoStart (demoOffer 1 1 7 "") 0 (some (demoSession 1 none))
        true;
      x.1 = false ∧ (x.2.table.byId 1).isSome = true ∧ x.2.sessionsMeta.lookup 1 = none) ∧
    (let x := offerReturns demoEnv demoStart (demoOffer 1 1 7 "") 0 (some (demoSession 1 none))
        false;
      x.1 = false ∧ (x.2.table.byId 1).isSome = true) ∧
    (let s := applyRoutes noTenants demoStart ⟨Lib.BigEndian.beBytes 16 1, [""], false⟩;
      s.routes.routes.map (·.2) = [1] ∧ (s.table.byId 1).isSome = false) ∧
    (let s := step demoEnv busyGateway (.control (.deviceUpdate 7 1
        ⟨"suspended", none, none, none, none, none, none, "none", 0⟩ 0));
      (s.table.byId 1).isSome = false ∧ (s.sessionsMeta.lookup 1).isSome = true) := by
  decide +kernel

end Avon.Gateway
