import Avon.Control.Fleet
import Avon.Lib.Mirror
import Avon.Proofs.Policy.Decide

/-!
# When a gateway is in step with control

A gateway's CRL version and snapshot versions are copies of control's, in the sense of
`Avon.Lib.Mirror`. `Inv` says that a gateway is in step when all that is on its way to it has
arrived, except on what a broadcast has still to send. An `orderly` step keeps it.
-/

set_option autoImplicit false

namespace Avon.Control

open Avon.Policy Avon.Gateway Avon.Lib.Mirror

/-! ### Versions -/

inductive Topic where
  | crl
  | tenant (id : TenantId)
  deriving DecidableEq

def PushMessage.carried : PushMessage → Topic → Option UInt64
  | .crl (some c), .crl => some c.version
  | .policy data, .tenant tenant => if data.tenantId = tenant then some data.version else none
  | _, _ => none

/-- A gateway keeps the newer CRL, and the snapshot that came last. -/
def mergeVersion : Topic → UInt64 → UInt64 → UInt64
  | .crl, v, w => if w < v then v else w
  | .tenant _, _, w => w

/-- The version that an engine in a map was loaded from. -/
def versionAt (engines : Engines) (tenant : TenantId) : UInt64 :=
  match engines tenant with
  | some engine => engine.version
  | none => 0

def versionsOf (gateway : GatewayState) : Topic → UInt64
  | .crl => gateway.crl.version
  | .tenant tenant => gateway.policy.version tenant

def Fleet.versions {n : ℕ} (s : Fleet n) : Topic → UInt64
  | .crl => s.crl.version
  | .tenant tenant => versionAt s.engines tenant

/-! ### Loading and receiving -/

theorem versionAt_update (engines : Engines) (tenant : TenantId) (e : Engine) (t : TenantId) :
    versionAt (Function.update engines tenant (some e)) t =
      if t = tenant then e.version else versionAt engines t := by
  unfold versionAt
  by_cases h : t = tenant
  · rw [h, Function.update_self, if_pos rfl]
  · rw [Function.update_of_ne h, if_neg h]

theorem version_getD (engines : Engines) (tenant : TenantId) :
    ((engines tenant).getD (Engine.empty tenant)).version = versionAt engines tenant := by
  unfold versionAt
  cases engines tenant <;> rfl

theorem versionAt_loadEngine (env : PushEnv) (engines : Engines) (tenant : TenantId)
    (data : SnapshotData) (now : ℤ) (t : TenantId) :
    versionAt (loadEngine env engines tenant data now).1 t =
      if t = tenant ∧ (loadEngine env engines tenant data now).2.isOk then data.version
      else versionAt engines t := by
  unfold loadEngine
  cases hload : ((engines tenant).getD (Engine.empty tenant)).load env.tz data now with
  | ok e => simp [hload, versionAt_update, version_of_load hload, Except.isOk, Except.toBool]
  | error err =>
    simp only [hload, versionAt_update, version_getD, Except.isOk, Except.toBool]
    by_cases ht : t = tenant
    · simp [ht]
    · simp [ht]

theorem closeSession_policy (s : GatewayState) (id : SessionId) :
    (s.closeSession id).policy = s.policy := by
  unfold GatewayState.closeSession
  split <;> rfl

theorem closeSession_crl (s : GatewayState) (id : SessionId) : (s.closeSession id).crl = s.crl := by
  unfold GatewayState.closeSession
  split <;> rfl

theorem versionsOf_closeSessions {α : Type} (revoked : List α) (id : α → SessionId)
    (s : GatewayState) :
    versionsOf (revoked.foldl (fun s e => s.closeSession (id e)) s) = versionsOf s := by
  induction revoked generalizing s with
  | nil => rfl
  | cons e revoked ih =>
    rw [List.foldl_cons, ih]
    funext topic
    cases topic with
    | crl => exact congrArg Crl.version (closeSession_crl s (id e))
    | tenant t => exact congrArg (·.version t) (closeSession_policy s (id e))

def accepts (env : PushEnv) (gateway : GatewayState) (now : ℤ) : PushMessage → Bool
  | .policy data => ((gateway.policy.engineFor data.tenantId).load env.tz data now).isOk
  | _ => true

theorem versionsOf_receiveMessage {env : PushEnv} {gateway : GatewayState} {now : ℤ}
    {msg : PushMessage} (h : accepts env gateway now msg = true) (topic : Topic) :
    versionsOf (receiveMessage env gateway now msg) topic =
      update PushMessage.carried mergeVersion topic (versionsOf gateway topic) msg := by
  cases msg with
  | other => rfl
  | crl verified =>
    cases verified with
    | none => rfl
    | some crl =>
      simp only [receiveMessage, applyCrl]
      split
      · rename_i hold
        cases topic with
        | crl => simp [update, PushMessage.carried, mergeVersion, versionsOf, hold]
        | tenant t => rfl
      rename_i hnew
      rw [versionsOf_closeSessions]
      cases topic with
      | crl => simp [update, PushMessage.carried, mergeVersion, versionsOf, hnew]
      | tenant t => rfl
  | policy data =>
    cases topic with
    | crl => rfl
    | tenant t =>
      simp only [accepts] at h
      cases hload : (gateway.policy.engineFor data.tenantId).load env.tz data now with
      | error e => rw [hload] at h; cases h
      | ok e =>
        simp only [receiveMessage, versionsOf, CedarFlowPolicy.applySnapshot, hload,
          CedarFlowPolicy.version, update, PushMessage.carried]
        by_cases ht : data.tenantId = t
        · subst ht
          simp [version_of_load hload, mergeVersion]
        · simp [Function.update_of_ne (Ne.symm ht), ht]

namespace Fleet

variable {n : ℕ} {s s' : Fleet n}

/-! ### What is on its way -/

def contents (st : EventStream n) : List PushMessage :=
  st.response ++ st.held.toList ++ st.down

def inboxAt (streams : List (EventStream n)) : GatewayPhase → List PushMessage
  | .registering false _ _ out => out.map .policy
  | .configuring todo => todo
  | .serving stream => (streams[stream]?.map contents).getD []
  | _ => []

/-- Whether a gateway has to be in step on a topic: in a registration on the tenants that are
done, then on everything. -/
def reliesAt (streams : List (EventStream n)) : GatewayPhase → Topic → Bool
  | .registering false todo read _, .tenant t =>
    !todo.contains t && read.all fun data => data.tenantId ≠ t
  | .configuring _, _ => true
  | .serving stream, _ => streams[stream]?.any (·.inbound)
  | _, _ => false

def isServing : GatewayPhase → Bool
  | .serving _ => true
  | _ => false

def inbox (s : Fleet n) (g : Fin n) : List PushMessage := inboxAt s.streams (s.phases g)

def relies (s : Fleet n) (g : Fin n) : Topic → Bool := reliesAt s.streams (s.phases g)

/-- The gateway's version of a topic, when all that is on its way has arrived. -/
def settled (s : Fleet n) (g : Fin n) (topic : Topic) : UInt64 :=
  settle PushMessage.carried mergeVersion topic (versionsOf (s.gateways g) topic) (s.inbox g)

/-- A broadcast has control's version of the topic and will still come to the gateway. -/
def Pending (s : Fleet n) (g : Fin n) (topic : Topic) : Prop :=
  isServing (s.phases g) = true ∧ ∃ call msg rest, s.calls call = some (.sending msg rest) ∧
    g ∈ rest ∧ msg.carried topic = some (s.versions topic)

/-! ### Versions that control has had -/

/-- Control has had the version: no CRL is newer than control's, and control has an engine for
each tenant. -/
def Within (s : Fleet n) : Topic → UInt64 → Prop
  | .crl, v => v ≤ s.crl.version
  | .tenant t, v => v = 0 ∨ t ∈ s.known

def Sound (s : Fleet n) (msg : PushMessage) : Prop :=
  ∀ topic v, msg.carried topic = some v → s.Within topic v

variable {topic : Topic} {msg : PushMessage} {v : UInt64}

theorem Within.merge {v w : UInt64} (hv : s.Within topic v)
    (hw : s.Within topic w) : s.Within topic (mergeVersion topic v w) := by
  cases topic with
  | tenant t => exact hw
  | crl =>
    simp only [mergeVersion]
    split
    · exact hv
    · exact hw

theorem Within.merge_versions (hv : s.Within topic v) :
    mergeVersion topic v (s.versions topic) = s.versions topic := by
  cases topic with
  | tenant t => rfl
  | crl => exact if_neg (UInt64.not_lt.mpr hv)

def isCurrent (s : Fleet n) : PushMessage → Bool
  | .policy data => data.version = versionAt s.engines data.tenantId
  | _ => true

/-- A message that is not out of date leaves control's version. An old CRL is ignored, so only
snapshots can be out of date. -/
theorem update_versions (hsound : s.Sound msg) (hcurrent : s.isCurrent msg)
    (topic : Topic) : update PushMessage.carried mergeVersion topic (s.versions topic) msg =
      s.versions topic := by
  cases hcarried : msg.carried topic with
  | none => exact update_of_none hcarried
  | some w =>
    rw [update_of_some hcarried]
    have hw := hsound topic w hcarried
    cases topic with
    | crl =>
      by_cases hold : w < s.crl.version
      · exact if_pos hold
      · exact (if_neg hold).trans (UInt64.le_antisymm hw (UInt64.not_lt.mp hold))
    | tenant t =>
      cases msg with
      | policy data =>
        simp only [PushMessage.carried, Option.ite_none_right_eq_some,
          Option.some.injEq] at hcarried
        obtain ⟨rfl, rfl⟩ := hcarried
        exact of_decide_eq_true hcurrent
      | crl verified => simp [PushMessage.carried] at hcarried
      | other => cases hcarried

theorem Sound.update (h : s.Sound msg) (hv : s.Within topic v) :
    s.Within topic (Lib.Mirror.update PushMessage.carried mergeVersion topic v msg) := by
  cases hcarried : msg.carried topic with
  | none => rwa [update_of_none hcarried]
  | some w =>
    rw [update_of_some hcarried]
    exact hv.merge (h topic w hcarried)

/-! ### The invariant -/

/-- A handle belongs to a stream of its gateway, and a stream that is read and open has the
handle. -/
structure Wired (s : Fleet n) : Prop where
  owner : ∀ g stream, s.registry g = some stream →
    ∃ st, s.streams[stream]? = some st ∧ st.gateway = g
  serves : ∀ g stream, s.phases g = .serving stream →
    ∃ st, s.streams[stream]? = some st ∧ st.gateway = g ∧
      (st.inbound = true → s.registry g = some stream)

structure Inv (s : Fleet n) : Prop where
  wired : Wired s
  control : ∀ topic, s.Within topic (s.versions topic)
  gateway : ∀ g topic, s.Within topic (versionsOf (s.gateways g) topic)
  inbox : ∀ g, ∀ msg ∈ s.inbox g, s.Sound msg
  sends : ∀ call msg rest, s.calls call = some (.sending msg rest) → s.Sound msg
  agree : ∀ g topic, s.relies g topic = true →
    s.settled g topic = s.versions topic ∨ s.Pending g topic

theorem Inv.init (n : ℕ) (crl : Crl) : Inv (init n crl) where
  wired := ⟨nofun, nofun⟩
  control topic := by
    cases topic with
    | crl => exact UInt64.le_refl _
    | tenant t => exact .inl rfl
  gateway g topic := by
    cases topic with
    | crl => exact UInt64.le_refl _
    | tenant t => exact .inl rfl
  inbox := nofun
  sends := nofun
  agree := nofun

theorem Inv.settled_within (h : Inv s) (g : Fin n) (topic : Topic) :
    s.Within topic (s.settled g topic) :=
  settle_invariant (fun _ _ => Within.merge)
    (fun msg hmsg w hw => h.inbox g msg hmsg topic w hw) (h.gateway g topic)

theorem Inv.consistent (h : Inv s) {g : Fin n} (hquiet : s.Quiet g) : s.Consistent g := by
  obtain ⟨hcalls, stream, st, hphase, hst, hinbound, hdown, hheld, hresponse⟩ := hquiet
  have hinbox : s.inbox g = [] := by
    simp [Fleet.inbox, hphase, inboxAt, hst, contents, hdown, hheld, hresponse]
  have hsame : ∀ topic, versionsOf (s.gateways g) topic = s.versions topic := by
    intro topic
    have hrelies : s.relies g topic = true := by
      simp [relies, hphase, reliesAt, hst, hinbound]
    rcases h.agree g topic hrelies with hsettled | ⟨-, call, msg, rest, hcall, -⟩
    · rwa [settled, hinbox, settle_nil] at hsettled
    · rw [hcalls call] at hcall
      cases hcall
  refine ⟨hsame .crl, fun tenant engine hengine => ?_⟩
  have htenant := hsame (.tenant tenant)
  simp only [versions, versionAt, hengine] at htenant
  exact htenant

/-! ### Orderly runs -/

def isOpen (s : Fleet n) (g : Fin n) : Bool :=
  isServing (s.phases g) && s.relies g .crl

def keepsVersion (env : PushEnv) (s : Fleet n) (data : SnapshotData) (now : ℤ) : Bool :=
  (s.loadData env data now).versions (.tenant data.tenantId) = s.versions (.tenant data.tenantId)

def orderly (env : PushEnv) (s : Fleet n) : FleetEvent n → Bool
  -- The answer to a registration is complete: no tenant of control's is missing, each snapshot
  -- can be read and loads.
  | .register _ false tenants =>
    tenants.any fun db => s.known.all fun tenant => db.tenants.contains tenant
  | .readForRegistration g db =>
    match s.phases g with
    | .registering false _ _ _ => db.isSome
    | _ => true
  -- A registration finds control up to date, unless no other gateway has the tenant.
  | .loadForRegistration g now =>
    match s.phases g with
    | .registering boot _ (some data) _ =>
      (boot || s.loadOk env data now) && (s.keepsVersion env data now ||
        decide (∀ g', g' ≠ g → s.relies g' (.tenant data.tenantId) = false))
    | _ => true
  -- A refresh that has something new, or a CRL that is new, comes while no gateway is between
  -- its registration and its stream.
  | .loadTenant call now =>
    match s.calls call with
    | some (.read data) => s.keepsVersion env data now ||
        decide (∀ g, s.relies g (.tenant data.tenantId) = true → isServing (s.phases g) = true)
    | _ => true
  | .storeCrl call =>
    match s.calls call with
    | some (.revoked (some crl)) => s.crl.version = crl.version ||
        (s.crl.version < crl.version &&
          decide (∀ g, s.relies g .crl = true → isServing (s.phases g) = true))
    | _ => true
  -- A broadcast finds room in the channel, and control has not loaded another snapshot since.
  | .visit call =>
    match s.calls call with
    | some (.sending msg (g :: _)) =>
      !s.isOpen g || ((s.registry g).any s.hasRoom && s.isCurrent msg)
    | _ => true
  -- The end of a stream finds no handle of a later stream.
  | .inboundEnds stream =>
    match s.streams[stream]? with
    | some st => s.registry st.gateway = none || s.registry st.gateway = some stream
    | none => true
  -- A snapshot loads at the gateway.
  | .applyConfig g now =>
    match s.phases g with
    | .configuring (msg :: _) => accepts env (s.gateways g) now msg
    | _ => true
  | .receive g now =>
    match s.phases g with
    | .serving stream =>
      (s.streams[stream]?.bind (·.response.head?)).all (accepts env (s.gateways g) now)
    | _ => true
  | _ => true

def Orderly (env : PushEnv) (s : Fleet n) (e : FleetEvent n) : Prop := s.orderly env e = true

instance (env : PushEnv) (s : Fleet n) (e : FleetEvent n) : Decidable (Orderly env s e) :=
  inferInstanceAs (Decidable (_ = true))

end Fleet

end Avon.Control
