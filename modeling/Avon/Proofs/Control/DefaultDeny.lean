import Avon.Control.PolicyPush
import Avon.Lib.Table
import Avon.Proofs.Control.Peer
import Avon.Proofs.Gateway.FlowPolicy

/-!
# No policy is lost on the way

A tenant that has authored a policy is to be denied by default at every gateway. It is, in runs in
which nothing is lost between the policy rows and the gateway (`Sound`).
`permissive_with_policy_row` has three runs in which something is lost.
-/

set_option autoImplicit false

namespace Avon.Control

open Avon.Policy Semantics Avon.Gateway Avon.Lib Avon.Lib.Run
open Function (update_self update_of_ne)

def Configured (db : Db) (tenant : TenantId) : Prop := db.enabledPolicies tenant ≠ []

/-- An enabled policy row of the tenant decodes and is valid. -/
def HasValidRow (env : PushEnv) (db : Db) (tenant : TenantId) : Prop :=
  ∃ row ∈ db.enabledPolicies tenant, ∃ p, policyEntry env.tz env.decode row = some p

def PushEnv.snapshot (env : PushEnv) (db : Db) (tenant : TenantId) : SnapshotData :=
  loadSnapshot env.tz env.decode db tenant

/-- The policies compile and the entities can be built. -/
def Loads (env : PushEnv) (data : SnapshotData) (now : ℤ) : Prop :=
  (∃ c, compile env.tz data now = .ok c) ∧ ∃ es, buildEntities data now = .ok es

/-- The loaded snapshot by which the gateway decides flows of a tenant. -/
def Link.InUse (l : Link) (tenant : TenantId) (loaded : Loaded) : Prop :=
  ∃ e, l.policy.engines tenant = some e ∧ e.inner = some loaded

/-- A decision that is cached for the key of this flow was made for the same tenant, device
and destination. -/
def Link.CacheOwn (l : Link) (ctx : FlowContext) : Prop :=
  ∀ cached ctx', l.policy.cache ctx.key = some cached → l.asked ctx.key = some ctx' →
    ctx'.tenant = ctx.tenant ∧ ctx'.device = ctx.device ∧
      ctx'.destinationDevice = ctx.destinationDevice

/-- No allow policy is read more widely than it means, for this flow. -/
def Link.ReadsAsMeant (l : Link) (ctx : FlowContext) : Prop :=
  ∀ loaded dev, l.InUse ctx.tenant loaded → ActiveDevice loaded.data ctx.request dev →
    ∀ p ∈ loaded.data.policies, p.spec.effect = .allow →
      Reads loaded.data (l.loadedAt ctx.tenant) dev ctx.request p.spec →
        Matches loaded.data (l.loadedAt ctx.tenant) dev ctx.request p.spec

/-- The condition on steps. At a registration all reads succeed and all snapshots load, and a
tenant with an enabled row has a valid one. So it is at a refresh, and the message reaches the
gateway. A snapshot of a tenant with policies loads at the gateway too. The cache is not used
for another flow, and no allow policy is read too widely. -/
def Sound (env : PushEnv) (l : Link) : LinkEvent → Prop
  | .register tenants reads => ∃ db₀, tenants = some db₀ ∧ ∀ tenant ∈ db₀.tenants,
      ∃ db, (reads tenant).1 = some db ∧ Loads env (env.snapshot db tenant) (reads tenant).2 ∧
        (Configured db tenant → HasValidRow env db tenant)
  | .refresh tenant db now taken => ∀ db', db = some db' → Configured db' tenant →
      l.phase = .offline ∨ (l.phase = .online ∧ taken = true ∧
        Loads env (env.snapshot db' tenant) now ∧ HasValidRow env db' tenant)
  | .deliver now => ∀ tenant db data rest, l.queue = .snapshot tenant db (some data) :: rest →
      Configured db tenant → Loads env data now
  | .flow ctx => l.CacheOwn ctx ∧ l.ReadsAsMeant ctx
  | _ => True

/-! ### What control sends -/

/-- A message about a tenant is for that tenant, and it carries the snapshot if the tenant
has policies. -/
def MessageOk (env : PushEnv) : Message → Prop
  | .snapshot tenant db data => (∀ d, data = some d → d.tenantId = tenant) ∧
      (Configured db tenant → data = some (env.snapshot db tenant) ∧ HasValidRow env db tenant)
  | .deviceUpdate _ _ _ => True

def EnginesOk (engines : Engines) : Prop := ∀ tenant e, engines tenant = some e → e.tenant = tenant

variable {engines : Engines} {env : PushEnv} {data : SnapshotData} {e : Engine} {l : Link} {now : ℤ}
  {db : Db}

theorem EnginesOk.getD (h : EnginesOk engines) (tenant : TenantId) :
    ((engines tenant).getD (Engine.empty tenant)).tenant = tenant := by
  cases he : engines tenant with
  | none => rfl
  | some e => exact h tenant e he

theorem EnginesOk.update (h : EnginesOk engines) {tenant : TenantId}
    (he : e.tenant = tenant) : EnginesOk (Function.update engines tenant (some e)) := by
  intro tenant' e' he'
  rcases update_eq_some.mp he' with ⟨rfl, ⟨⟩⟩ | ⟨-, he'⟩
  · exact he
  · exact h tenant' e' he'

theorem tenant_of_load {tz : TzDb} {e e' : Engine}
    (h : e.load tz data now = .ok e') : e'.tenant = e.tenant := by
  obtain ⟨l, rfl, -⟩ := loadedAt_of_load h
  rfl

theorem load_of_loads (htenant : data.tenantId = e.tenant) (h : Loads env data now) :
    ∃ e', e.load env.tz data now = .ok e' := by
  obtain ⟨⟨c, hc⟩, es, hes⟩ := h
  exact ⟨_, load_of_compile htenant hc hes⟩

/-- A refresh keeps the engines with their tenants. What it gives is the tenant's snapshot,
and it gives it if the snapshot loads. -/
theorem refreshTenant_spec (env : PushEnv) (tenant : TenantId) (now : ℤ)
    (h : EnginesOk engines) (db : Option Db) :
    EnginesOk (refreshTenant env engines tenant db now).1 ∧
      (∀ data, (refreshTenant env engines tenant db now).2 = .ok data →
        ∃ db', db = some db' ∧ data = env.snapshot db' tenant) ∧
      ∀ db', db = some db' → Loads env (env.snapshot db' tenant) now →
        (refreshTenant env engines tenant db now).2 = .ok (env.snapshot db' tenant) := by
  cases db with
  | none => exact ⟨h, fun _ hdata => (nomatch hdata), fun _ hdb => (nomatch hdb)⟩
  | some db =>
    unfold refreshTenant loadEngine
    simp only
    cases hload : ((engines tenant).getD (Engine.empty tenant)).load env.tz
        (loadSnapshot env.tz env.decode db tenant) now with
    | error e =>
      refine ⟨h.update (h.getD tenant), fun _ hdata => (nomatch hdata), fun db' hdb hloads => ?_⟩
      cases hdb
      obtain ⟨e', he'⟩ := load_of_loads (e := (engines tenant).getD (Engine.empty tenant))
        (h.getD tenant).symm hloads
      rw [PushEnv.snapshot, hload] at he'
      cases he'
    | ok e =>
      refine ⟨h.update ((tenant_of_load hload).trans (h.getD tenant)), fun data hdata => ?_,
        fun db' hdb _ => ?_⟩
      · cases hdata
        exact ⟨db, rfl, rfl⟩
      · cases hdb
        rfl

/-- A registration whose reads succeed and whose snapshots load answers with the snapshots of
all tenants. -/
theorem snapshotsFor_spec (env : PushEnv) (reads : TenantId → Option Db × ℤ)
    (tenants : List TenantId) (h : EnginesOk engines) :
    EnginesOk (snapshotsFor env reads tenants engines).1 ∧
      ((∀ tenant ∈ tenants, ∃ db, (reads tenant).1 = some db ∧
          Loads env (env.snapshot db tenant) (reads tenant).2) →
        ∃ out, (snapshotsFor env reads tenants engines).2 = .ok out ∧
          ∀ tenant ∈ tenants, ∀ db, (reads tenant).1 = some db →
            (out.find? fun data => data.tenantId = tenant) = some (env.snapshot db tenant)) := by
  induction tenants generalizing engines with
  | nil => exact ⟨h, fun _ => ⟨[], rfl, fun _ ht => (nomatch ht)⟩⟩
  | cons tenant tenants ih =>
    obtain ⟨hengines, -, hdata⟩ := refreshTenant_spec env tenant (reads tenant).2 h
      (reads tenant).1
    rcases hres : refreshTenant env engines tenant (reads tenant).1 (reads tenant).2
      with ⟨engines', e | data⟩
    · rw [hres] at hengines hdata
      simp only [snapshotsFor, hres]
      refine ⟨hengines, fun hreads => ?_⟩
      obtain ⟨db, hdb, hloads⟩ := hreads tenant List.mem_cons_self
      cases hdata db hdb hloads
    rw [hres] at hengines hdata
    obtain ⟨hengines', hout⟩ := ih hengines
    rcases hrest : snapshotsFor env reads tenants engines' with ⟨engines'', e | out⟩
    · rw [hrest] at hengines' hout
      simp only [snapshotsFor, hres, hrest]
      refine ⟨hengines', fun hreads => ?_⟩
      obtain ⟨out, hok, -⟩ := hout fun t ht => hreads t (List.mem_cons_of_mem _ ht)
      cases hok
    rw [hrest] at hengines' hout
    simp only [snapshotsFor, hres, hrest]
    refine ⟨hengines', fun hreads => ⟨data :: out, rfl, fun t ht db hdb => ?_⟩⟩
    obtain ⟨out', hok, hfind⟩ := hout fun t ht => hreads t (List.mem_cons_of_mem _ ht)
    cases hok
    obtain ⟨db₀, hdb₀, hloads⟩ := hreads tenant List.mem_cons_self
    cases hdata db₀ hdb₀ hloads
    by_cases heq : tenant = t
    · subst heq
      cases hdb.symm.trans hdb₀
      exact List.find?_cons_of_pos (decide_eq_true rfl)
    · rw [List.find?_cons_of_neg (by simp [PushEnv.snapshot, loadSnapshot, heq])]
      exact hfind t ((List.mem_cons.mp ht).resolve_left (Ne.symm heq)) db hdb

theorem messageOk_registration (h : EnginesOk l.engines)
    {tenants : Option Db} {reads : TenantId → Option Db × ℤ}
    (hsound : Sound env l (.register tenants reads)) :
    EnginesOk (snapshotsForRegistration env l.engines tenants reads).1 ∧
      ∀ m ∈ registrationMessages reads ((tenants.map (·.tenants)).getD [])
        (snapshotsForRegistration env l.engines tenants reads).2, MessageOk env m := by
  obtain ⟨db₀, rfl, hreads⟩ := hsound
  obtain ⟨hengines, hout⟩ := snapshotsFor_spec env reads db₀.tenants h
  obtain ⟨out, hok, hfind⟩ := hout fun t ht =>
    have ⟨db, hdb, hloads, _⟩ := hreads t ht
    ⟨db, hdb, hloads⟩
  refine ⟨hengines, fun m hm => ?_⟩
  obtain ⟨t, ht, hmap⟩ := List.mem_filterMap.mp hm
  obtain ⟨db, hdb, rfl⟩ := Option.map_eq_some_iff.mp hmap
  obtain ⟨db', hdb', -, hvalid⟩ := hreads t ht
  cases hdb.symm.trans hdb'
  simp only [snapshotsForRegistration, hok, hfind t ht db hdb]
  exact ⟨fun d hd => by cases hd; rfl, fun hconf => ⟨rfl, hvalid hconf⟩⟩

/-! ### What the gateway holds -/

/-- The gateway's engines are those of their tenants and hold snapshots as loaded, and a
cached decision is what the engine decides for the context it was made for. -/
structure PolicyOk (env : PushEnv) (policy : CedarFlowPolicy) (loadedAt : TenantId → ℤ)
    (asked : FlowKey → Option FlowContext) : Prop where
  engines : EnginesOk policy.engines
  loaded : ∀ tenant e loaded, policy.engines tenant = some e → e.inner = some loaded →
    LoadedAt env.tz loaded.data (loadedAt tenant) loaded
  cache : ∀ key cached, policy.cache key = some cached → ∃ ctx, asked key = some ctx ∧
    ctx.key = key ∧ ∃ e, policy.engines ctx.tenant = some e ∧
      (cached.version = e.version → cached.allow = (e.decide ctx.request).allow)

section
variable {policy : CedarFlowPolicy} {loadedAt : TenantId → ℤ}
  {asked : FlowKey → Option FlowContext}

section
variable (h : PolicyOk env policy loadedAt asked)
include h

theorem PolicyOk.install {tenant : TenantId} {e : Engine}
    {l : Loaded} {now : ℤ} (htenant : e.tenant = tenant) (hinner : e.inner = some l)
    (hl : LoadedAt env.tz l.data now l) :
    PolicyOk env ⟨Function.update policy.engines tenant (some e), fun _ => none⟩
      (Function.update loadedAt tenant now) asked where
  engines := h.engines.update htenant
  loaded tenant' e' l' he' hinner' := by
    rcases update_eq_some.mp he' with ⟨rfl, ⟨⟩⟩ | ⟨hne, he'⟩
    · cases hinner.symm.trans hinner'
      rwa [update_self]
    · rw [update_of_ne hne]
      exact h.loaded tenant' e' l' he' hinner'
  cache key cached hcached := nomatch hcached

theorem PolicyOk.keepEngine (tenant : TenantId) : PolicyOk env { policy with
      engines := Function.update policy.engines tenant (some (policy.engineFor tenant)) }
      loadedAt asked := by
  have hsame : ∀ tenant' e, policy.engines tenant' = some e →
      Function.update policy.engines tenant (some (policy.engineFor tenant)) tenant' = some e := by
    intro tenant' e he
    by_cases heq : tenant' = tenant
    · subst heq
      rw [update_self, CedarFlowPolicy.engineFor, he]
      rfl
    · rwa [update_of_ne heq]
  refine ⟨h.engines.update (h.engines.getD tenant), fun tenant' e l he hinner => ?_,
    fun key cached hcached => ?_⟩
  · cases hengine : policy.engines tenant' with
    | some e' =>
      cases (hsame tenant' e' hengine).symm.trans he
      exact h.loaded tenant' e l hengine hinner
    | none =>
      rcases update_eq_some.mp he with ⟨rfl, he⟩ | ⟨-, he⟩
      · rw [CedarFlowPolicy.engineFor, hengine] at he
        cases he
        cases hinner
      · cases hengine.symm.trans he
  · obtain ⟨ctx, hasked, hkey, e, he, hallow⟩ := h.cache key cached hcached
    exact ⟨ctx, hasked, hkey, e, hsame ctx.tenant e he, hallow⟩

theorem PolicyOk.applySnapshot (data : SnapshotData) (now : ℤ) :
    PolicyOk env (policy.applySnapshot env.tz data.tenantId data now)
      (Link.timesAfter loadedAt data.tenantId now
        ((policy.engineFor data.tenantId).load env.tz data now)) asked := by
  unfold CedarFlowPolicy.applySnapshot
  cases hload : (policy.engineFor data.tenantId).load env.tz data now with
  | ok e =>
    obtain ⟨l, rfl, htenant, hl⟩ := loadedAt_of_load hload
    exact h.install htenant.symm rfl (hl.holds.symm ▸ hl)
  | error err => exact h.keepEngine data.tenantId

theorem PolicyOk.patchDevice (tenant : TenantId)
    (device : DeviceId) (attrs : DeviceAttrs) (now : ℤ) :
    PolicyOk env (policy.patchDevice env.tz tenant device attrs now)
      (Link.timesAfter loadedAt tenant now
        ((policy.engineFor tenant).patchDevice env.tz device attrs now)) asked := by
  have hcleared : PolicyOk env ⟨policy.engines, fun _ => none⟩ loadedAt asked :=
    ⟨h.engines, h.loaded, fun _ _ hcached => (nomatch hcached)⟩
  unfold CedarFlowPolicy.patchDevice CedarFlowPolicy.engineFor
  cases he : policy.engines tenant with
  | none => exact hcleared
  | some e =>
    simp only [Option.getD_some]
    cases hpatch : e.patchDevice env.tz device attrs now with
    | error err => exact hcleared
    | ok e' =>
      obtain ⟨l, l', -, rfl, hl', -⟩ := loadedAt_of_patchDevice hpatch
      exact h.install (h.engines tenant e he) rfl hl'

theorem PolicyOk.allow (ctx : FlowContext) :
    PolicyOk env (policy.allow ctx).2 loadedAt
      (askedAfter policy (policy.allow ctx).2 asked ctx) := by
  obtain ⟨-, hres⟩ | ⟨e, he, -, ⟨cached, -, -, hres⟩ | ⟨hstale, hres⟩⟩ := allow_cases policy ctx
  · rw [hres, askedAfter, if_pos rfl]
    exact h
  · rw [hres, askedAfter, if_pos rfl]
    exact h
  rw [hres, askedAfter]
  -- The stored entry is new: the old one, if any, is of another version.
  rw [if_neg (by
    simp only [CedarFlowPolicy.decided, update_self]
    exact fun heq => hstale _ heq rfl)]
  refine ⟨h.engines, h.loaded, fun key cached hcached => ?_⟩
  rcases update_eq_some.mp hcached with ⟨rfl, ⟨⟩⟩ | ⟨hne, hcached⟩
  · exact ⟨ctx, by rw [update_self], rfl, e, he, fun _ => rfl⟩
  · rw [update_of_ne hne]
    exact h.cache key cached hcached

end

end

/-! ### The invariant of the link -/

/-- Control's engines and messages are in order, and so is the gateway's policy. A tenant
whose policies the gateway was last told about has a valid one, and the gateway decides by
them. -/
structure LinkInv (env : PushEnv) (l : Link) : Prop where
  engines : EnginesOk l.engines
  queue : ∀ m ∈ l.queue, MessageOk env m
  policy : PolicyOk env l.policy l.loadedAt l.asked
  told : ∀ tenant db, l.lastRead tenant = some db → Configured db tenant →
    HasValidRow env db tenant ∧
      ∃ loaded, l.InUse tenant loaded ∧ loaded.data.policies = (env.snapshot db tenant).policies

theorem linkInv_start (env : PushEnv) : LinkInv env .start where
  engines _ _ h := nomatch h
  queue _ h := nomatch h
  policy := ⟨fun _ _ h => (nomatch h), fun _ _ _ h => (nomatch h), fun _ _ h => (nomatch h)⟩
  told _ _ h := nomatch h

section
variable {policy : CedarFlowPolicy} {tenant : TenantId}

theorem engines_applySnapshot_ne (h : tenant ≠ data.tenantId) :
    (policy.applySnapshot env.tz data.tenantId data now).engines tenant =
      policy.engines tenant := by
  unfold CedarFlowPolicy.applySnapshot
  split
  · exact update_of_ne h _ _
  · exact update_of_ne h _ _

theorem engines_applySnapshot
    (hloads : Loads env data now) (h : EnginesOk policy.engines) : ∃ e loaded,
      (policy.applySnapshot env.tz data.tenantId data now).engines data.tenantId = some e ∧
        e.inner = some loaded ∧ loaded.data = data := by
  obtain ⟨e, he⟩ := load_of_loads (e := policy.engineFor data.tenantId)
    (h.getD data.tenantId).symm hloads
  obtain ⟨loaded, rfl, -, hl⟩ := loadedAt_of_load he
  refine ⟨{ policy.engineFor data.tenantId with inner := some loaded }, loaded, ?_, rfl, hl.holds⟩
  unfold CedarFlowPolicy.applySnapshot
  rw [he]
  exact update_self _ _ _

theorem engines_patchDevice (env : PushEnv)
    {e : Engine} {loaded : Loaded} (tenant' : TenantId) (device : DeviceId) (attrs : DeviceAttrs)
    (now : ℤ) (he : policy.engines tenant = some e) (hinner : e.inner = some loaded) : ∃ e' loaded',
      (policy.patchDevice env.tz tenant' device attrs now).engines tenant = some e' ∧
        e'.inner = some loaded' ∧ loaded'.data.policies = loaded.data.policies := by
  unfold CedarFlowPolicy.patchDevice
  by_cases heq : tenant = tenant'
  · subst heq
    simp only [he]
    cases hpatch : e.patchDevice env.tz device attrs now with
    | error err => exact ⟨e, loaded, he, hinner, rfl⟩
    | ok e' =>
      obtain ⟨l, l', hl, rfl, -, hpolicies⟩ := loadedAt_of_patchDevice hpatch
      cases hinner.symm.trans hl
      exact ⟨_, l', update_self _ _ _, rfl, hpolicies⟩
  · refine ⟨e, loaded, ?_, hinner, rfl⟩
    split
    · exact he
    split
    · exact (update_of_ne heq _ _).trans he
    · exact he

theorem LinkInv.receive (h : LinkInv env l) {m : Message} (hm : MessageOk env m)
    (hloads : ∀ tenant db data, m = .snapshot tenant db (some data) → Configured db tenant →
      Loads env data now) : LinkInv env (l.receive env now m) := by
  cases m with
  | snapshot tenant db data =>
    obtain ⟨htenant, hconf⟩ := hm
    cases data with
    | none =>
      refine ⟨h.engines, h.queue, h.policy, fun tenant' db' hread hconf' => ?_⟩
      rcases update_eq_some.mp hread with ⟨rfl, ⟨⟩⟩ | ⟨-, hread⟩
      · cases (hconf hconf').1
      · exact h.told tenant' db' hread hconf'
    | some data =>
      cases htenant data rfl
      refine ⟨h.engines, h.queue, h.policy.applySnapshot data now,
        fun tenant' db' hread hconf' => ?_⟩
      rcases update_eq_some.mp hread with ⟨rfl, ⟨⟩⟩ | ⟨heq, hread⟩
      · obtain ⟨hdata, hvalid⟩ := hconf hconf'
        obtain ⟨e, loaded, he, hinner, rfl⟩ := engines_applySnapshot
          (hloads _ _ data rfl hconf') h.policy.engines
        refine ⟨hvalid, loaded, ⟨e, he, hinner⟩, ?_⟩
        rw [← Option.some.inj hdata]
      · obtain ⟨hvalid, loaded, ⟨e, he, hinner⟩, hpolicies⟩ := h.told tenant' db' hread hconf'
        exact ⟨hvalid, loaded, ⟨e, (engines_applySnapshot_ne heq).trans he, hinner⟩, hpolicies⟩
  | deviceUpdate tenant device attrs =>
    refine ⟨h.engines, h.queue, h.policy.patchDevice tenant device attrs now,
      fun tenant' db hread hconf => ?_⟩
    obtain ⟨hvalid, loaded, ⟨e, he, hinner⟩, hpolicies⟩ := h.told tenant' db hread hconf
    obtain ⟨e', loaded', he', hinner', hsame⟩ := engines_patchDevice env tenant
      device attrs now he hinner
    exact ⟨hvalid, loaded', ⟨e', he', hinner'⟩, hsame.trans hpolicies⟩

theorem messageOk_refresh (h : EnginesOk l.engines) {db : Option Db}
    {taken : Bool} (hsound : Sound env l (.refresh tenant db now taken)) :
    ∀ m ∈ refreshMessages l.phase taken tenant db (refreshTenant env l.engines tenant db now).2,
      MessageOk env m := by
  obtain ⟨-, hdata, hloads⟩ := refreshTenant_spec env tenant now h db
  intro m hm
  cases db with
  | none => cases hphase : l.phase <;> rw [hphase] at hm <;> cases hm
  | some db =>
    have hsound := hsound db rfl
    cases hphase : l.phase <;> rw [hphase] at hm hsound
    · cases hm
    · cases List.mem_singleton.mp hm
      refine ⟨fun _ hd => (nomatch hd), fun hconf => ?_⟩
      obtain hoff | ⟨hon, -⟩ := hsound hconf
      · cases hoff
      · cases hon
    cases List.mem_singleton.mp hm
    refine ⟨fun d hd => ?_, fun hconf => ?_⟩
    · split at hd
      · cases hres : (refreshTenant env l.engines tenant (some db) now).2 with
        | error e => rw [hres] at hd; cases hd
        | ok data =>
          rw [hres] at hd
          cases hd
          obtain ⟨db', -, rfl⟩ := hdata _ hres
          rfl
      · cases hd
    · obtain hoff | ⟨-, htaken, hload, hvalid⟩ := hsound hconf
      · cases hoff
      · rw [if_pos htaken, hloads db rfl hload]
        exact ⟨rfl, hvalid⟩

theorem enginesOk_patchDeviceAttrs {engines : Engines} (h : EnginesOk engines) (tenant : TenantId)
    (device : DeviceId) (db : Option Db) (now : ℤ) :
    EnginesOk (patchDeviceAttrs env engines tenant device db now).1 := by
  unfold patchDeviceAttrs
  split
  · exact h
  simp only
  split
  · exact h
  rename_i e he
  split
  · rename_i e' hpatch
    obtain ⟨-, -, -, rfl, -, -⟩ := loadedAt_of_patchDevice hpatch
    exact h.update (h tenant e he)
  · exact h

theorem LinkInv.step (h : LinkInv env l) {e : LinkEvent} (hsound : Sound env l e) :
    LinkInv env (l.step env e) := by
  cases e with
  | register tenants reads =>
    obtain ⟨hengines, hqueue⟩ := messageOk_registration h.engines hsound
    exact ⟨hengines, hqueue, h.policy, h.told⟩
  | openEvents =>
    simp only [Link.step]
    split
    · exact ⟨h.engines, h.queue, h.policy, h.told⟩
    · exact h
  | hangUp => exact ⟨h.engines, fun _ hm => (nomatch hm), h.policy, h.told⟩
  | refresh tenant db now taken =>
    refine ⟨(refreshTenant_spec env tenant now h.engines db).1, fun m hm => ?_, h.policy, h.told⟩
    rcases List.mem_append.mp hm with hmem | hnew
    · exact h.queue m hmem
    · exact messageOk_refresh h.engines hsound m hnew
  | patch tenant device db now taken =>
    refine ⟨enginesOk_patchDeviceAttrs h.engines tenant device db now, fun m hm => ?_, h.policy,
      h.told⟩
    rcases List.mem_append.mp hm with hmem | hnew
    · exact h.queue m hmem
    split at hnew
    · obtain ⟨attrs, -, rfl⟩ := Option.map_eq_some_iff.mp (Option.mem_toList.mp hnew)
      trivial
    · cases hnew
  | deliver now =>
    simp only [Link.step]
    split
    · exact h
    rename_i m rest hqueue
    have hmem : ∀ m' ∈ m :: rest, MessageOk env m' := fun m' hm' => h.queue m' (hqueue ▸ hm')
    have hrest : LinkInv env { l with queue := rest } :=
      ⟨h.engines, fun m' hm' => hmem m' (List.mem_cons_of_mem _ hm'), h.policy, h.told⟩
    refine hrest.receive (hmem m List.mem_cons_self) fun tenant db data hm hconf => ?_
    exact hsound tenant db data rest (hqueue.trans (by rw [hm])) hconf
  | flow ctx =>
    refine ⟨h.engines, h.queue, h.policy.allow ctx, fun tenant db hread hconf => ?_⟩
    obtain ⟨hvalid, loaded, ⟨e, he, hinner⟩, hpolicies⟩ := h.told tenant db hread hconf
    exact ⟨hvalid, loaded,
      ⟨e, (congrFun (allow_frame l.policy ctx).1 tenant).trans he, hinner⟩, hpolicies⟩

end

/-! ### Default deny -/

/-- An allow policy of the tenant matches the flow: an enabled row of the tables decodes to
it, and it matches with the devices that the gateway knows of, at the time it loaded them. -/
def SomeAllowMatches (env : PushEnv) (l : Link) (db : Db) (ctx : FlowContext) : Prop :=
  ∃ loaded dev, l.InUse ctx.tenant loaded ∧ ActiveDevice loaded.data ctx.request dev ∧
    ∃ row ∈ db.enabledPolicies ctx.tenant, ∃ p, policyEntry env.tz env.decode row = some p ∧
      p.spec.effect = .allow ∧ InForce env.tz (l.loadedAt ctx.tenant) p.spec ∧
      Matches loaded.data (l.loadedAt ctx.tenant) dev ctx.request p.spec

theorem request_eq_of_key {ctx ctx' : FlowContext} (hkey : ctx'.key = ctx.key)
    (hdevice : ctx'.device = ctx.device)
    (hdest : ctx'.destinationDevice = ctx.destinationDevice) : ctx'.request = ctx.request := by
  simp only [FlowContext.key, FlowKey.mk.injEq] at hkey
  obtain ⟨-, hdst, hprotocol, hport⟩ := hkey
  simp only [FlowContext.request, hdevice, hdest, hdst, hprotocol, hport]

section
theorem LinkInv.someAllowMatches (h : LinkInv env l) {ctx : FlowContext} {db : Db}
    (hmeant : l.ReadsAsMeant ctx) {e : Engine} {loaded : Loaded}
    (he : l.policy.engines ctx.tenant = some e) (hinner : e.inner = some loaded)
    (hpolicies : loaded.data.policies = (env.snapshot db ctx.tenant).policies)
    (hallow : (e.decide ctx.request).allow = true) : SomeAllowMatches env l db ctx := by
  have hl := h.policy.loaded ctx.tenant e loaded he hinner
  obtain ⟨tenant, inner⟩ := e
  cases hinner
  obtain ⟨dev, hdev, -, ⟨p, hp, hforce, heffect, hreads⟩, -⟩ :=
    (decide_allow_iff hl tenant ctx.request).mp hallow
  have hmatch := hmeant loaded dev ⟨_, he, rfl⟩ hdev p hp heffect hreads
  -- The policy comes from a row of the tables.
  rw [hpolicies] at hp
  obtain ⟨row, hrow, hentry⟩ := List.mem_filterMap.mp hp
  exact ⟨loaded, dev, ⟨_, he, rfl⟩, hdev, row, hrow, p, hentry, heffect, hforce, hmatch⟩

theorem LinkInv.allow (h : LinkInv env l) {ctx : FlowContext} {db : Db}
    (hsound : Sound env l (.flow ctx)) (hread : l.lastRead ctx.tenant = some db)
    (hconf : Configured db ctx.tenant) :
    (l.policy.allow ctx).1.reason ≠ "no-policy-permissive" ∧
      ((l.policy.allow ctx).1.allow = true → SomeAllowMatches env l db ctx) := by
  obtain ⟨⟨row, hrow, p, hp⟩, loaded, ⟨e, he, hinner⟩, hpolicies⟩ :=
    h.told ctx.tenant db hread hconf
  have hhas : e.hasPolicies = true := by
    have hmem : p ∈ loaded.data.policies := hpolicies ▸ List.mem_filterMap.mpr ⟨row, hrow, hp⟩
    simp only [Engine.hasPolicies, hinner, Bool.not_eq_true', List.isEmpty_eq_false_iff]
    exact List.ne_nil_of_mem hmem
  obtain ⟨hperm, -⟩ | ⟨e', he', -, ⟨cached, hc, hversion, hres⟩ | ⟨-, hres⟩⟩ :=
    allow_cases l.policy ctx
  · rw [hperm e he] at hhas
    cases hhas
  · cases he.symm.trans he'
    rw [hres]
    have hreason : "cached" ≠ "no-policy-permissive" := by decide
    refine ⟨hreason, fun hallow => ?_⟩
    -- The cached decision was made for the same request, by the same engine.
    obtain ⟨ctx', hasked, hkey, e'', he'', hdecided⟩ := h.policy.cache ctx.key cached hc
    obtain ⟨htenant, hdevice, hdest⟩ := hsound.1 cached ctx' hc hasked
    rw [htenant] at he''
    cases he.symm.trans he''
    refine h.someAllowMatches hsound.2 he hinner hpolicies ?_
    rw [← request_eq_of_key hkey hdevice hdest, ← hdecided hversion]
    exact hallow
  · cases he.symm.trans he'
    rw [hres]
    refine ⟨?_, fun hallow => h.someAllowMatches hsound.2 he hinner hpolicies hallow⟩
    simp only [CedarFlowPolicy.decided]
    split <;> decide

end

/-- Default deny once configured, in every run whose steps are sound: the gateway is never
permissive for a tenant that had an enabled policy row when its rows were last read, and it
allows a flow only if an allow policy of the tenant matches. -/
theorem default_deny_of_sound {env : PushEnv} {events : List LinkEvent}
    (hrun : Guarded (Link.step env) (Sound env) .start events) {ctx : FlowContext}
    (hflow : Sound env (run (Link.step env) .start events) (.flow ctx)) {db : Db}
    (hread : (run (Link.step env) .start events).lastRead ctx.tenant = some db)
    (hconf : Configured db ctx.tenant) :
    ((run (Link.step env) .start events).policy.allow ctx).1.reason ≠ "no-policy-permissive" ∧
      (((run (Link.step env) .start events).policy.allow ctx).1.allow = true →
        SomeAllowMatches env (run (Link.step env) .start events) db ctx) := by
  have hinv : LinkInv env (run (Link.step env) .start events) :=
    hrun.invariant (fun l e h hsound => h.step hsound) (linkInv_start env)
  exact hinv.allow hflow hread hconf

/-! ### Runs with one gateway -/

def officeEnv : PushEnv where
  tz := utc
  decode
    | .string "ssh" => some sshSpec
    | _ => none

def officeWith (policies : List PolicyRow) : Db := { officeDb with policies }

def badRow : PolicyRow := ⟨31, 7, true, .null⟩

def sshRow : PolicyRow := ⟨30, 7, true, .string "ssh"⟩

def registration (db : Db) : List LinkEvent :=
  .register (some db) (fun _ => (some db, 3600)) :: db.tenants.map fun _ => .deliver 3600

def flowOf1 (dest : DeviceId) (port : UInt16) : FlowContext :=
  ⟨1, 7, 1, some dest, ⟨1, .v4 0x64400001, .v4 0x0A140002, 6, some port⟩⟩

/-- Pods 40 and 41 of tenant 8 are inside each other, so its entities cannot be built. -/
def cycleDb : Db :=
  { officeWith [sshRow] with
    tenants := [7, 8]
    pods := officeDb.pods ++ [⟨40, 8, some 41⟩, ⟨41, 8, some 40⟩] }

theorem spec_of_policyEntry {row : PolicyRow} {p : PolicyEntry}
    (h : policyEntry officeEnv.tz officeEnv.decode row = some p) : p.spec = sshSpec := by
  unfold policyEntry at h
  split at h
  · cases h
  rename_i spec hspec
  simp only [officeEnv] at hspec
  split at hspec
  · cases hspec
    split at h <;> cases h
    rfl
  · cases hspec

theorem someAllowMatches_flowOf1 {dest : DeviceId} {port : UInt16}
    (h : SomeAllowMatches officeEnv l db (flowOf1 dest port)) : dest = 2 ∧ port = 22 := by
  obtain ⟨loaded, dev, -, -, row, -, p, hp, -, -, -, hdest, hl4, -⟩ := h
  rw [spec_of_policyEntry hp] at hdest hl4
  constructor
  · rcases hdest with hany | (hlisted | ⟨pod, hpod, -⟩) | ⟨c, hc, -⟩ | ⟨n, hn, -⟩
    · cases hany
    · exact List.mem_singleton.mp hlisted
    · cases hpod
    · cases hc
    · cases hn
  rcases hl4 with hnil | hadmission | ⟨rule, hrule, -, hport⟩
  · cases hnil
  · cases hadmission
  · cases List.mem_singleton.mp hrule
    exact eq_of_contains_single hport

/-- The tenant has an enabled policy row that the gateway was told about, and the gateway lets
a flow through that no allow policy of the tenant matches. -/
def LetsThrough (l : Link) (db : Db) (ctx : FlowContext) (reason : String) : Prop :=
  l.lastRead ctx.tenant = some db ∧ Configured db ctx.tenant ∧
    (l.policy.allow ctx).1 = ⟨true, reason⟩ ∧ ¬ SomeAllowMatches officeEnv l db ctx

/-- Three ways to lose the policies of tenant 7. Its only row does not decode. Its row is
valid, but the pods of tenant 8 form a cycle, and so the registration answers with nothing. Its
row is valid and in use, but the decision for device 2 is cached, and used when the same
address belongs to device 3. -/
theorem permissive_with_policy_row :
    LetsThrough (run (Link.step officeEnv) .start (registration (officeWith [badRow])))
        (officeWith [badRow]) (flowOf1 2 80) "no-policy-permissive" ∧
      (HasValidRow officeEnv cycleDb 7 ∧
        LetsThrough (run (Link.step officeEnv) .start (registration cycleDb)) cycleDb
          (flowOf1 2 80) "no-policy-permissive") ∧
      (HasValidRow officeEnv (officeWith [sshRow]) 7 ∧
        LetsThrough
          (run (Link.step officeEnv) .start
            (registration (officeWith [sshRow]) ++ [.flow (flowOf1 2 22)]))
          (officeWith [sshRow]) (flowOf1 3 22) "cached") := by
  have hport : ∀ l db, ¬ SomeAllowMatches officeEnv l db (flowOf1 2 80) := fun l db h =>
    absurd (someAllowMatches_flowOf1 h).2 (by decide)
  refine ⟨⟨rfl, List.cons_ne_nil _ _, by decide +kernel, hport _ _⟩,
    ⟨⟨sshRow, List.mem_cons_self, ⟨30, sshSpec⟩, by decide +kernel⟩, rfl, List.cons_ne_nil _ _,
      by decide +kernel, hport _ _⟩,
    ⟨⟨sshRow, List.mem_cons_self, ⟨30, sshSpec⟩, by decide +kernel⟩, rfl, List.cons_ne_nil _ _,
      by decide +kernel, fun h => ?_⟩⟩
  exact absurd (someAllowMatches_flowOf1 h).1 (by decide)

def sshDb : Db := officeWith [badRow, sshRow]

theorem snapshot_sshDb : officeEnv.snapshot sshDb 7 = officeSnapshot sshSpec := by
  decide +kernel

theorem loads_sshDb : Loads officeEnv (officeEnv.snapshot sshDb 7) 3600 := by
  rw [snapshot_sshDb]
  obtain ⟨c, hc, -⟩ := exists_ok (x := compile utc (officeSnapshot sshSpec) 3600)
    (p := fun _ => true) (by decide +kernel)
  obtain ⟨es, hes, -⟩ := exists_ok (x := buildEntities (officeSnapshot sshSpec) 3600)
    (p := fun _ => true) (by decide +kernel)
  exact ⟨⟨c, hc⟩, es, hes⟩

theorem guarded_registration :
    Guarded (Link.step officeEnv) (Sound officeEnv) .start (registration sshDb) := by
  have hregister : Sound officeEnv .start
      (.register (some sshDb) (fun _ => (some sshDb, 3600))) := by
    refine ⟨sshDb, rfl, fun tenant htenant => ⟨sshDb, rfl, ?_⟩⟩
    cases List.mem_singleton.mp htenant
    exact ⟨loads_sshDb, fun _ => ⟨sshRow, List.mem_cons_of_mem _ List.mem_cons_self,
      ⟨30, sshSpec⟩, by decide +kernel⟩⟩
  refine ⟨hregister, fun tenant db data rest hqueue _ => ?_, trivial⟩
  have hsent : (Link.start.step officeEnv
      (.register (some sshDb) (fun _ => (some sshDb, 3600)))).queue =
        [.snapshot 7 sshDb (some (officeEnv.snapshot sshDb 7))] := rfl
  cases hsent.symm.trans hqueue
  exact loads_sshDb

theorem inUse_sshDb {loaded : Loaded}
    (h : (run (Link.step officeEnv) .start (registration sshDb)).InUse 7 loaded) :
    loaded.data = officeSnapshot sshSpec := by
  obtain ⟨e, he, hinner⟩ := h
  have hdata : (((run (Link.step officeEnv) .start (registration sshDb)).policy.engines 7).bind
      (·.inner)).map (·.data) = some (officeSnapshot sshSpec) := by
    decide +kernel
  rw [he, Option.bind_some, hinner] at hdata
  exact Option.some.inj hdata

/-- On a day on which nothing is lost, the gateway lets device 1 through to device 2 with SSH,
as an allow policy matches, and with nothing else. -/
theorem default_deny_ssh :
    ((run (Link.step officeEnv) .start (registration sshDb)).policy.allow
        (flowOf1 2 22)).1.allow = true ∧
      SomeAllowMatches officeEnv (run (Link.step officeEnv) .start (registration sshDb)) sshDb
        (flowOf1 2 22) ∧
      ∀ port, port ≠ 22 → ((run (Link.step officeEnv) .start (registration sshDb)).policy.allow
        (flowOf1 2 port)).1.allow = false := by
  have hflow : ∀ port, Sound officeEnv (run (Link.step officeEnv) .start (registration sshDb))
      (.flow (flowOf1 2 port)) := by
    intro port
    refine ⟨fun cached ctx' hcached => (nomatch hcached), fun loaded dev huse hdev p hp _ => ?_⟩
    rw [inUse_sshDb huse] at hdev hp ⊢
    exact ((plain_sshSpec port).reads_iff_matches hdev hp ((by decide +kernel :
      ∀ p ∈ (officeSnapshot sshSpec).policies, p.spec.validate utc = .ok ()) p hp)).mp
  have hdeny := fun port => default_deny_of_sound guarded_registration (hflow port) rfl
    (List.cons_ne_nil _ _)
  have hallow : ((run (Link.step officeEnv) .start (registration sshDb)).policy.allow
      (flowOf1 2 22)).1.allow = true := by
    decide +kernel
  refine ⟨hallow, (hdeny 22).2 hallow, fun port hport => Bool.eq_false_iff.mpr fun h => ?_⟩
  exact hport (someAllowMatches_flowOf1 ((hdeny port).2 h)).2

end Avon.Control
