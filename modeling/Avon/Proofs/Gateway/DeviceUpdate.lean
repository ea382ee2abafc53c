import Avon.Gateway.DeviceUpdate
import Avon.Proofs.Gateway.Isolation

/-!
# A device update that closes nothing

The loop of `apply_device_update` returns with the state as it was, or waits for ever at the first
session of the device that is in the table: it removes the metadata of the session that it holds.
-/

set_option autoImplicit false

namespace Avon.Gateway

open Avon.Policy Avon.Lib Avon.Lib.Run Avon.Proto Reaches

/-- A session of the device: it has metadata, or is in the table under its id, or only under an
index that it still has after another session has taken its id. -/
def GatewayState.SessionOf (s : GatewayState) (device : DeviceId) (id : SessionId) : Prop :=
  (∃ m, s.sessionsMeta.lookup id = some m ∧ m.deviceId = device) ∨
  (∃ h, s.table.byId id = some h ∧ h.cert.subjectId = device) ∨
  ∃ index h, s.table.byIndex index = some h ∧ h.id = id ∧ h.cert.subjectId = device

section
variable {shardOf : SessionId → ℕ} {device : DeviceId}

theorem step_leaveMeta (s : GatewayState) (e : MetaEntry) (todo : List MetaEntry) :
    deviceUpdateStep shardOf device (s, .leaveMeta e todo) = (s, .leaveMeta e todo) :=
  if_pos rfl

/-- The first session of the device that is in the table. -/
def GatewayState.firstOpen (s : GatewayState) (device : DeviceId) (todo : List MetaEntry) :
    Option MetaEntry :=
  todo.find? fun e => e.2.deviceId = device && (s.table.byId e.1).isSome

theorem reaches_leaveMeta {s : GatewayState} {e : MetaEntry} (todo : List MetaEntry)
    (hopen : (s.table.byId e.1).isSome = true) :
    Reaches (deviceUpdateStep shardOf device) (s, .leaveTable e todo)
      (s.unroute e.1, .leaveMeta e todo) := by
  obtain ⟨session, hsession⟩ := Option.isSome_iff_exists.mp hopen
  apply head
  simp only [deviceUpdateStep, hsession]
  apply head
  exact refl _

theorem reaches_skip {s : GatewayState} {e : MetaEntry} {todo : List MetaEntry}
    {t : GatewayState × Point}
    (hskip : ¬ (e.2.deviceId = device ∧ (s.table.byId e.1).isSome = true))
    (h : Reaches (deviceUpdateStep shardOf device) (s, .next todo) t) :
    Reaches (deviceUpdateStep shardOf device) (s, .next (e :: todo)) t := by
  apply head
  by_cases hdevice : e.2.deviceId = device
  · -- `close_session` finds nothing in the table and returns.
    have hnone : s.table.byId e.1 = none := by simpa [hdevice] using hskip
    simp only [deviceUpdateStep, if_pos hdevice]
    apply head
    simpa only [deviceUpdateStep, hnone] using h
  · simpa only [deviceUpdateStep, if_neg hdevice] using h

theorem loop_fate (shardOf : SessionId → ℕ) (device : DeviceId) (s : GatewayState)
    (todo : List MetaEntry) :
    (s.firstOpen device todo = none ∧
      Reaches (deviceUpdateStep shardOf device) (s, .next todo) (s, .returned)) ∨
    ∃ e rest, s.firstOpen device todo = some e ∧
      Reaches (deviceUpdateStep shardOf device) (s, .next todo)
        (s.unroute e.1, .leaveMeta e rest) := by
  induction todo with
  | nil => exact .inl ⟨rfl, ⟨1, rfl⟩⟩
  | cons e todo ih =>
    by_cases hopen : e.2.deviceId = device ∧ (s.table.byId e.1).isSome = true
    · refine .inr ⟨e, todo, List.find?_cons_of_pos (by simp [hopen]), ?_⟩
      apply head
      simp only [deviceUpdateStep, if_pos hopen.1]
      exact reaches_leaveMeta todo hopen.2
    have hfirst : s.firstOpen device (e :: todo) = s.firstOpen device todo :=
      List.find?_cons_of_neg (by simpa using hopen)
    rw [hfirst]
    obtain ⟨hnone, hreach⟩ | ⟨e', rest, hsome, hreach⟩ := ih
    · exact .inl ⟨hnone, reaches_skip hopen hreach⟩
    · exact .inr ⟨e', rest, hsome, reaches_skip hopen hreach⟩

end

section
variable {shardOf : SessionId → ℕ} {env : Env} {s : GatewayState} {now : ℤ}
  {parse : String → Option DeviceAttrs} {attrs : DeviceAttrs} {upd : DeviceUpdate}
  {device : DeviceId}

/-- What becomes of an update for an inactive device: the handler returns and has only patched the
engine, or it waits at a session of the device. `applyDeviceUpdate` has the state in both cases. -/
theorem update_fate {tenant : TenantId} (shardOf : SessionId → ℕ)
    (hdecode : upd.decode parse = some (tenant, device, attrs))
    (hinactive : attrs.status ≠ "active") :
    let patched := { s with policy := s.policy.patchDevice env.tz tenant device attrs now }
    (Reaches (deviceUpdateStep shardOf device) (deviceUpdateStart env parse s upd now)
        (patched, .returned) ∧ applyDeviceUpdate env s tenant device attrs now = patched) ∨
      ∃ t e rest, s.SessionOf device e.1 ∧ Reaches (deviceUpdateStep shardOf device)
        (deviceUpdateStart env parse s upd now) (t, .leaveMeta e rest) ∧
          applyDeviceUpdate env s tenant device attrs now = { t with blocked := true } := by
  simp only [deviceUpdateStart, hdecode, applyDeviceUpdate, if_neg hinactive]
  obtain ⟨hnone, hreach⟩ | ⟨e, rest, hfirst, hreach⟩ := loop_fate shardOf device
    { s with policy := s.policy.patchDevice env.tz tenant device attrs now }
    s.sessionsMeta.entries
  · refine .inl ⟨hreach, ?_⟩
    rw [GatewayState.firstOpen] at hnone
    rw [hnone]
  · rw [GatewayState.firstOpen] at hfirst
    have hopen := List.find?_some hfirst
    simp only [Bool.and_eq_true, decide_eq_true_eq] at hopen
    have hm := AList.mem_lookup_iff.mpr (List.mem_of_find?_eq_some hfirst)
    refine .inr ⟨_, e, rest, .inl ⟨e.2, hm, hopen.1⟩, hreach, ?_⟩
    rw [hfirst]

theorem decode_spec {tenant : TenantId} {device' : DeviceId} {attrs' : DeviceAttrs}
    (h : upd.decode parse = some (tenant, device', attrs')) :
    upd.deviceId.bind uuidOf = some device' ∧ parse upd.attrsJson = some attrs' := by
  simp only [DeviceUpdate.decode, Option.bind_eq_bind, Option.bind_eq_some_iff, Option.pure_def,
    Option.some.injEq, Prod.mk.injEq] at h
  obtain ⟨_, _, bytes, hbytes, _, _, _, hdevice, _, hattrs, rfl, rfl, rfl⟩ := h
  exact ⟨by rw [hbytes]; exact hdevice, hattrs⟩

/-- The same, for an update that may also not parse, which is dropped. -/
theorem returns_or_waits (shardOf : SessionId → ℕ) (env : Env) (s : GatewayState) (now : ℤ)
    (hdevice : upd.deviceId.bind uuidOf = some device) (hattrs : parse upd.attrsJson = some attrs)
    (hinactive : attrs.status ≠ "active") :
    (∃ policy, Reaches (deviceUpdateStep shardOf device) (deviceUpdateStart env parse s upd now)
        ({ s with policy }, .returned)) ∨
      ∃ t e rest, s.SessionOf device e.1 ∧ Reaches (deviceUpdateStep shardOf device)
        (deviceUpdateStart env parse s upd now) (t, .leaveMeta e rest) := by
  cases hdecode : upd.decode parse with
  | none =>
    refine .inl ⟨s.policy, ?_⟩
    simp only [deviceUpdateStart, hdecode]
    exact refl _
  | some decoded =>
    obtain ⟨tenant, device', attrs'⟩ := decoded
    obtain ⟨hdevice', hattrs'⟩ := decode_spec hdecode
    cases hdevice.symm.trans hdevice'
    cases hattrs.symm.trans hattrs'
    obtain ⟨hreach, -⟩ | ⟨t, e, rest, hsession, hwaits, -⟩ := update_fate shardOf hdecode hinactive
    · exact .inl ⟨_, hreach⟩
    · exact .inr ⟨t, e, rest, hsession, hwaits⟩

/-- The update returns, and then no session of its device is left in the table or in the metadata,
and no route leads to one that was there. -/
def CutsAccess (shardOf : SessionId → ℕ) (env : Env) (s : GatewayState) (now : ℤ)
    (parse : String → Option DeviceAttrs) (upd : DeviceUpdate) : Prop :=
  ∀ device, upd.deviceId.bind uuidOf = some device →
    ∃ t, Reaches (deviceUpdateStep shardOf device) (deviceUpdateStart env parse s upd now)
        (t, .returned) ∧ (∀ id, ¬ t.SessionOf device id) ∧
      ∀ id, s.SessionOf device id → ∀ r ∈ t.routes.routes, r.2 ≠ id

/-- An update for an inactive device returns and leaves no session of it behind if and only if
the device has no session: the handler never closes one. -/
theorem device_update_cuts_iff {parse : String → Option DeviceAttrs} {upd : DeviceUpdate}
    {device : DeviceId} (hdevice : upd.deviceId.bind uuidOf = some device) {attrs : DeviceAttrs}
    (hattrs : parse upd.attrsJson = some attrs) (hinactive : attrs.status ≠ "active") :
    CutsAccess shardOf env s now parse upd ↔ ∀ id, ¬ s.SessionOf device id := by
  have hfate := returns_or_waits shardOf env s now hdevice hattrs hinactive
  constructor
  · intro hcuts
    obtain ⟨t, hreach, hgone, -⟩ := hcuts device hdevice
    obtain ⟨policy, hreach'⟩ | ⟨t', e, rest, -, hwaits⟩ := hfate
    · -- It has returned with the table and the metadata as they were.
      cases hreach.eq_of_fixed hreach' rfl rfl
      exact hgone
    · cases hreach.eq_of_fixed hwaits rfl (step_leaveMeta t' e rest)
  · intro hnone device' hdevice'
    cases hdevice.symm.trans hdevice'
    obtain ⟨policy, hreach⟩ | ⟨_, e, _, hsession, -⟩ := hfate
    · exact ⟨_, hreach, hnone, fun id hid => absurd hid (hnone id)⟩
    · exact absurd hsession (hnone e.1)

end

/-! ### A suspended device -/

def statusOnly (text : String) : Option DeviceAttrs :=
  some ⟨text, none, none, none, none, none, none, "none", 0⟩

def suspended (n : ℕ) : DeviceUpdate :=
  ⟨some (Lib.BigEndian.beBytes 16 7), some (Lib.BigEndian.beBytes 16 n), "suspended"⟩

def busyGateway : GatewayState := run (step demoEnv) demoStart twoTenants

/-- A gateway after an offer for device 1 that fails because the tenant does not parse. -/
def strandedGateway : GatewayState :=
  (acceptOffer { demoEnv with tenantId := fun _ => none } demoStart (demoOffer 1 1 7 "100.64.0.1") 0
    (some (demoSession 1 none))).2

/-- The update for device 1 never returns, wherever the metadata is placed. If the session has no
metadata, the update returns and the session is in the table as before. -/
theorem device_update_hangs : busyGateway.SessionOf 1 1 ∧
    (∀ shardOf now, ¬ ∃ t, Reaches (deviceUpdateStep shardOf 1)
      (deviceUpdateStart demoEnv statusOnly busyGateway (suspended 1) now) (t, .returned)) ∧
    strandedGateway.SessionOf 1 1 ∧ ∀ shardOf now, ∃ t, Reaches (deviceUpdateStep shardOf 1)
      (deviceUpdateStart demoEnv statusOnly strandedGateway (suspended 1) now) (t, .returned) ∧
        t.SessionOf 1 1 := by
  have hstranded : strandedGateway.SessionOf 1 1 :=
    .inr (.inl ⟨⟨1, ⟨1, "seven", 1⟩, 20⟩, by decide +kernel⟩)
  refine ⟨.inr (.inl ⟨⟨1, ⟨1, "seven", 1⟩, 20⟩, by decide +kernel⟩), fun shardOf now => ?_,
    hstranded, fun shardOf now => ⟨_, ⟨1, rfl⟩, hstranded⟩⟩
  -- The loop passes over session 2 and hangs at session 1 after three more steps.
  have hwaits : ∃ t e rest, Reaches (deviceUpdateStep shardOf 1)
      (deviceUpdateStart demoEnv statusOnly busyGateway (suspended 1) now)
      (t, .leaveMeta e rest) := ⟨_, _, _, 4, rfl⟩
  obtain ⟨t, e, rest, hwaits⟩ := hwaits
  rintro ⟨t', hreturns⟩
  cases hreturns.eq_of_fixed hwaits rfl (step_leaveMeta t e rest)

/-- A device without sessions is dealt with. -/
theorem device_update_without_session : (∀ id, ¬ busyGateway.SessionOf 3 id) ∧ ∀ shardOf now,
    CutsAccess shardOf demoEnv busyGateway now statusOnly (suspended 3) := by
  -- The two sessions of the gateway are of the devices 1 and 2.
  have hnone : ∀ id, ¬ busyGateway.SessionOf 3 id := by
    have hbyId : busyGateway.table.byId = Function.update (Function.update (fun _ => none)
        1 (some ⟨1, ⟨1, "seven", 1⟩, 20⟩)) 2 (some ⟨2, ⟨2, "eight", 2⟩, 20⟩) := rfl
    have hbyIndex : busyGateway.table.byIndex = Function.update (Function.update (Function.update
        (Function.update (fun _ => none) 20 (some ⟨1, ⟨1, "seven", 1⟩, 20⟩))
          20 (some ⟨2, ⟨2, "eight", 2⟩, 20⟩)) 20 none) 20 (some ⟨2, ⟨2, "eight", 2⟩, 20⟩) := rfl
    rintro id (⟨m, hm, hdevice⟩ | ⟨h, hid, hdevice⟩ | ⟨index, h, hindex, -, hdevice⟩)
    · have hall : (busyGateway.sessionsMeta.entries.all fun e => e.2.deviceId ≠ 3) = true := by
        decide +kernel
      have hne := List.all_eq_true.mp hall _ (AList.mem_lookup_iff.mp hm)
      exact of_decide_eq_true hne hdevice
    · rw [hbyId] at hid
      rcases update_eq_some.mp hid with ⟨-, ⟨⟩⟩ | ⟨-, hid⟩
      · cases hdevice
      rcases update_eq_some.mp hid with ⟨-, ⟨⟩⟩ | ⟨-, ⟨⟩⟩
      cases hdevice
    · rw [hbyIndex, Function.update_idem, Function.update_idem, Function.update_idem] at hindex
      rcases update_eq_some.mp hindex with ⟨-, ⟨⟩⟩ | ⟨-, ⟨⟩⟩
      cases hdevice
  refine ⟨hnone, fun shardOf now => ?_⟩
  exact (device_update_cuts_iff (show _ = some 3 by decide) rfl (by decide)).mpr hnone

end Avon.Gateway
