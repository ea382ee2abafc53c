import Avon.Control.PolicyPush
import Avon.Lib.Except

/-!
# Patches that are dropped

A call of `patch_device_attrs` within five seconds of the last one that was let through is dropped,
and none is made later in its place. `patched_iff` is about any run of writes, ticks and calls: at
its end the engine has the attributes of the row exactly if it had them when the row was last
written, or some call since then was late enough, could read the row and was accepted by the engine.
-/

set_option autoImplicit false

namespace Avon.Control

open Avon.Lib Avon.Lib.Run Avon.Policy

theorem find?_patchDevices (id : Uuid) (attrs : DeviceAttrs) (ds : List DeviceEntity) :
    (patchDevices id attrs ds).find? (fun d => d.id = id) =
      some ⟨id, (ds.find? fun d => d.id = id).elim [] (·.pods), attrs⟩ := by
  induction ds with
  | nil => simp [patchDevices]
  | cons d ds ih =>
    by_cases hd : d.id = id
    · simp [patchDevices, hd]
    · simp [patchDevices, hd, ih]

theorem find?_patchDevices_ne {id id' : Uuid} (h : id' ≠ id) (attrs : DeviceAttrs)
    (ds : List DeviceEntity) :
    (patchDevices id attrs ds).find? (fun d => d.id = id') = ds.find? fun d => d.id = id' := by
  induction ds with
  | nil => simp [patchDevices, h.symm]
  | cons d ds ih =>
    by_cases hd : d.id = id
    · simp [patchDevices, hd, h.symm]
    · rw [patchDevices, if_neg hd, List.find?_cons, List.find?_cons, ih]

namespace Patching

variable {env : PushEnv} {s : Patching} {tenant : TenantId} {device : DeviceId}

/-- Control with its tables and engines, before any call. -/
def start (now : ℕ) (db : Db) (engines : Engines) : Patching := ⟨now, db, engines, fun _ => none⟩

def held (s : Patching) (tenant : TenantId) (device : DeviceId) : Option DeviceEntity :=
  (s.engines tenant).bind fun e => e.inner.bind fun l => l.data.findDevice device

def rowOf (db : Db) (device : DeviceId) : Option DeviceRow :=
  db.devices.find? fun r => r.id = device

/-- The tenant has an engine, and the snapshot with these attributes compiles there. -/
def accepts (env : PushEnv) (s : Patching) (tenant : TenantId) (device : DeviceId)
    (attrs : DeviceAttrs) (unix : ℤ) : Bool :=
  (s.engines tenant).any fun e => (e.patchDevice env.tz device attrs unix).isOk

/-- The times at which calls for the device are let through. -/
def letThrough (device : DeviceId) (s : Patching) : PatchEvent → List ℕ
  | .patch _ d _ _ => if d = device ∧ s.debounced d = false then [s.now] else []
  | _ => []

/-! ### The last call that was let through -/

theorem devicePatchAt_step (s : Patching) (e : PatchEvent) :
    (s.step env e).devicePatchAt device =
      (letThrough device s e).getLast?.or (s.devicePatchAt device) := by
  cases e with
  | tick d => rfl
  | write db => rfl
  | patch tenant d read unix =>
    unfold step letThrough
    by_cases hd : d = device
    · subst hd
      cases hdebounced : s.debounced d <;> simp [hdebounced]
    · cases hdebounced : s.debounced d <;> simp [hdebounced, hd, Function.update_of_ne (Ne.symm hd)]

theorem devicePatchAt_run (s : Patching) (events : List PatchEvent) :
    (run (step env) s events).devicePatchAt device =
      (trace (step env) (letThrough device) s events).getLast?.or (s.devicePatchAt device) := by
  induction events generalizing s with
  | nil => rfl
  | cons e events ih =>
    rw [run_cons, ih, trace, List.getLast?_append, devicePatchAt_step, Option.or_assoc]

/-- A call after these events is not within five seconds of the last one that was let through. -/
def Late (env : PushEnv) (s : Patching) (events : List PatchEvent) (device : DeviceId) : Prop :=
  ∀ last, (trace (step env) (letThrough device) s events).getLast? = some last →
    last + DEVICE_DEBOUNCE ≤ (run (step env) s events).now

theorem late_iff {now : ℕ} {db : Db} {engines : Engines} {events : List PatchEvent} :
    Late env (start now db engines) events device ↔
      (run (step env) (start now db engines) events).debounced device = false := by
  have hlast : (run (step env) (start now db engines) events).devicePatchAt device =
      (trace (step env) (letThrough device) (start now db engines) events).getLast? := by
    rw [devicePatchAt_run]
    exact Option.or_none
  simp only [Late, debounced, hlast, Option.any_eq_false]
  refine forall₂_congr fun last _ => ?_
  rw [decide_eq_false_iff_not, DEVICE_DEBOUNCE]
  omega

/-! ### One event -/

theorem inner_patchDevice {e e' : Engine} {attrs : DeviceAttrs} {unix : ℤ}
    (h : e.patchDevice env.tz device attrs unix = .ok e') :
    ∃ l l', e.inner = some l ∧ e'.inner = some l' ∧
      l'.data.devices = patchDevices device attrs l.data.devices := by
  unfold Engine.patchDevice at h
  cases hl : e.inner with
  | none => simp [hl] at h
  | some l =>
    simp only [hl, bind_eq_ok] at h
    obtain ⟨entities, -, compiled, -, h⟩ := h
    cases h
    exact ⟨l, _, rfl, rfl, rfl⟩

/-- The event is a call that is not dropped, reads the row and is accepted. -/
def GoesThrough (env : PushEnv) (s : Patching) (tenant : TenantId) (device : DeviceId)
    (attrs : DeviceAttrs) (e : PatchEvent) : Prop :=
  ∃ unix, e = .patch tenant device true unix ∧ s.debounced device = false ∧
    s.accepts env tenant device attrs unix = true

theorem accepts_iff {attrs : DeviceAttrs} {unix : ℤ} :
    s.accepts env tenant device attrs unix = true ↔
      ∃ e e', s.engines tenant = some e ∧ e.patchDevice env.tz device attrs unix = .ok e' := by
  rw [accepts, Option.any_eq_true]
  refine exists_congr fun e => ?_
  cases e.patchDevice env.tz device attrs unix <;> simp [Except.isOk, Except.toBool]

/-- A call that goes through replaces the attributes and keeps the pods. -/
theorem held_of_goesThrough {row : DeviceRow} {e : PatchEvent} (hrow : rowOf s.db device = some row)
    (h : GoesThrough env s tenant device (deviceAttrs row) e) :
    (s.step env e).held tenant device =
      some ⟨device, (s.held tenant device).elim [] (·.pods), deviceAttrs row⟩ := by
  obtain ⟨unix, rfl, hdebounced, haccepts⟩ := h
  obtain ⟨engine, engine', hengine, hpatch⟩ := accepts_iff.mp haccepts
  obtain ⟨l, l', hl, hl', hdevices⟩ := inner_patchDevice hpatch
  have hengines : (patchDeviceAttrs env s.engines tenant device (some s.db) unix).1 =
      Function.update s.engines tenant (some engine') := by
    rw [rowOf] at hrow
    simp only [patchDeviceAttrs, Option.bind_some, hrow, hengine, hpatch]
  simp [step, hdebounced, hengines, held, hengine, hl, hl', SnapshotData.findDevice, hdevices,
    find?_patchDevices]

/-- What a call does to the engines: nothing, or one of them takes the attributes of the row. -/
theorem patchDeviceAttrs_cases (env : PushEnv) (engines : Engines) (t : TenantId)
    (d : DeviceId) (db : Option Db) (unix : ℤ) :
    (patchDeviceAttrs env engines t d db unix).1 = engines ∨
      ∃ db' row e e', db = some db' ∧ rowOf db' d = some row ∧ engines t = some e ∧
        e.patchDevice env.tz d (deviceAttrs row) unix = .ok e' ∧
        (patchDeviceAttrs env engines t d db unix).1 = Function.update engines t (some e') := by
  unfold patchDeviceAttrs
  split
  · exact .inl rfl
  rename_i row hrow
  obtain ⟨db', rfl, hrow⟩ := Option.bind_eq_some_iff.mp hrow
  simp only
  split
  · exact .inl rfl
  rename_i e he
  split
  · rename_i e' hpatch
    exact .inr ⟨db', row, e, e', rfl, hrow, he, hpatch, rfl⟩
  · exact .inl rfl

/-- Any other event leaves what the engine holds of the device alone. -/
theorem held_of_not_goesThrough {row : DeviceRow} {e : PatchEvent}
    (hrow : rowOf s.db device = some row)
    (h : ¬ GoesThrough env s tenant device (deviceAttrs row) e) :
    (s.step env e).held tenant device = s.held tenant device := by
  cases e with
  | tick d => rfl
  | write db => rfl
  | patch t d read unix =>
    cases hdebounced : s.debounced d with
    | true => simp [step, hdebounced]
    | false =>
      obtain hsame | ⟨db, row', e, e', hdb, hrow', he, hpatch, hengines⟩ :=
        patchDeviceAttrs_cases env s.engines t d (if read then some s.db else none) unix
      · simp [step, hdebounced, held, hsame]
      obtain ⟨rfl, rfl⟩ : read = true ∧ s.db = db := by cases read <;> simp_all
      by_cases ht : tenant = t
      · subst ht
        -- The engine of the tenant has changed, so the call was for another device.
        have hd : device ≠ d := by
          rintro rfl
          cases hrow.symm.trans hrow'
          exact h ⟨unix, rfl, hdebounced, accepts_iff.mpr ⟨e, e', he, hpatch⟩⟩
        obtain ⟨l, l', hl, hl', hdevices⟩ := inner_patchDevice hpatch
        simp only [if_true] at hengines
        simp [step, hdebounced, held, hengines, he, hl, hl', SnapshotData.findDevice, hdevices,
          find?_patchDevices_ne hd]
      · simp only [if_true] at hengines
        simp [step, hdebounced, held, hengines, Function.update_of_ne ht]

/-! ### A run -/

theorem rowOf_step {row : DeviceRow} {e : PatchEvent} (hrow : rowOf s.db device = some row)
    (hkeep : ∀ db, e = .write db → rowOf db device = some row) :
    rowOf (s.step env e).db device = some row := by
  cases e with
  | tick d => exact hrow
  | write db => exact hkeep db rfl
  | patch t d read unix =>
    simp only [step]
    split <;> exact hrow

/-- While the row is not written, the engine has its attributes at the end if and only if it had
them at the beginning or a call has gone through. -/
theorem held_run_iff {row : DeviceRow} {events : List PatchEvent}
    (hrow : rowOf s.db device = some row)
    (hkeep : ∀ db, .write db ∈ events → rowOf db device = some row) :
    ((run (step env) s events).held tenant device).map (·.attrs) = some (deviceAttrs row) ↔
      (s.held tenant device).map (·.attrs) = some (deviceAttrs row) ∨
        ∃ xs e ys, events = xs ++ e :: ys ∧
          GoesThrough env (run (step env) s xs) tenant device (deviceAttrs row) e := by
  induction events generalizing s with
  | nil => simp
  | cons e events ih =>
    have hrow' : rowOf (s.step env e).db device = some row :=
      rowOf_step hrow fun db he => hkeep db (he ▸ List.mem_cons_self)
    have hsplit : (∃ xs e' ys, e :: events = xs ++ e' :: ys ∧
        GoesThrough env (run (step env) s xs) tenant device (deviceAttrs row) e') ↔
      GoesThrough env s tenant device (deviceAttrs row) e ∨ ∃ xs e' ys, events = xs ++ e' :: ys ∧
        GoesThrough env (run (step env) (s.step env e) xs) tenant device (deviceAttrs row) e' := by
      constructor
      · rintro ⟨_ | ⟨x, xs⟩, e', ys, heq, h⟩
        · cases heq
          exact .inl h
        · cases heq
          exact .inr ⟨xs, e', ys, rfl, h⟩
      · rintro (h | ⟨xs, e', ys, rfl, h⟩)
        · exact ⟨[], e, events, rfl, h⟩
        · exact ⟨e :: xs, e', ys, rfl, h⟩
    rw [run_cons, ih hrow' fun db hdb => hkeep db (List.mem_cons_of_mem e hdb), hsplit, ← or_assoc]
    refine or_congr_left ?_
    by_cases hgo : GoesThrough env s tenant device (deviceAttrs row) e
    · simp [held_of_goesThrough hrow hgo, hgo]
    · simp [held_of_not_goesThrough hrow hgo, hgo]

theorem pods_run {row : DeviceRow} {events : List PatchEvent} (hrow : rowOf s.db device = some row)
    (hkeep : ∀ db, .write db ∈ events → rowOf db device = some row) :
    ((run (step env) s events).held tenant device).elim [] (·.pods) =
      (s.held tenant device).elim [] (·.pods) := by
  induction events generalizing s with
  | nil => rfl
  | cons e events ih =>
    rw [run_cons, ih (rowOf_step hrow fun db he => hkeep db (he ▸ List.mem_cons_self))
      fun db hdb => hkeep db (List.mem_cons_of_mem e hdb)]
    by_cases hgo : GoesThrough env s tenant device (deviceAttrs row) e
    · simp [held_of_goesThrough hrow hgo]
    · rw [held_of_not_goesThrough hrow hgo]

/-- For every run of writes, ticks and calls, where `before` goes up to the last write of the row:
at the end the engine has the attributes of the row if and only if it had them then, or some call
since is not within five seconds of the last one that was let through, reads the row and is accepted
by the engine. The pods of the device are those that the engine had then. -/
theorem patched_iff (env : PushEnv) (now : ℕ) (db : Db) (engines : Engines)
    (before after : List PatchEvent) (tenant : TenantId) (device : DeviceId) (row : DeviceRow)
    (hrow : rowOf (run (step env) (start now db engines) before).db device = some row)
    (hkeep : ∀ db, .write db ∈ after → rowOf db device = some row) :
    let written := run (step env) (start now db engines) before
    let last := run (step env) (start now db engines) (before ++ after)
    ((last.held tenant device).map (·.attrs) = some (deviceAttrs row) ↔
      (written.held tenant device).map (·.attrs) = some (deviceAttrs row) ∨
        ∃ xs unix ys, after = xs ++ .patch tenant device true unix :: ys ∧
          Late env (start now db engines) (before ++ xs) device ∧
          (run (step env) written xs).accepts env tenant device (deviceAttrs row) unix = true) ∧
      (last.held tenant device).elim [] (·.pods) =
        (written.held tenant device).elim [] (·.pods) := by
  intro written last
  have hlast : last = run (step env) written after := run_append ..
  constructor
  · rw [hlast, held_run_iff hrow hkeep]
    refine or_congr_right ⟨?_, ?_⟩
    · rintro ⟨xs, e, ys, hafter, unix, rfl, hdebounced, haccepts⟩
      exact ⟨xs, unix, ys, hafter, late_iff.mpr (by rwa [run_append]), haccepts⟩
    · rintro ⟨xs, unix, ys, hafter, hlate, haccepts⟩
      rw [late_iff, run_append] at hlate
      exact ⟨xs, _, ys, hafter, unix, rfl, hlate, haccepts⟩
  · rw [hlast]
    exact pods_run hrow hkeep

/-! ### A heartbeat and a suspension -/

def noPolicies : PushEnv := ⟨⟨Unit, fun _ => none, fun _ _ => none⟩, fun _ => none⟩

def laptop (status : String) : DeviceRow := ⟨1, 7, status, none, none, "none", 0, none, none⟩

def tables (status : String) : Db := ⟨[7], [], [], [laptop status], [], [], [], [], 0⟩

def enrolled : Engines :=
  (refreshTenant noPolicies (fun _ => none) 7 (some (tables "active")) 0).1

/-- A heartbeat, and some time later the row says that the laptop is suspended. -/
def suspendedAfter (d : ℕ) : List PatchEvent :=
  [.patch 7 1 true 0, .tick d, .write (tables "suspended")]

/-- After five seconds the suspension gets to the engine. -/
theorem patched_suspended :
    let events := suspendedAfter DEVICE_DEBOUNCE ++ [.tick 7, .patch 7 1 true 5]
    ((run (step noPolicies) (start 0 (tables "active") enrolled) events).held 7 1).map (·.attrs) =
      some (deviceAttrs (laptop "suspended")) := by
  refine (patched_iff noPolicies 0 (tables "active") enrolled (suspendedAfter DEVICE_DEBOUNCE)
    [.tick 7, .patch 7 1 true 5] 7 1 (laptop "suspended") rfl (by simp)).1.mpr
      (.inr ⟨[.tick 7], 5, [], rfl, ?_, ?_⟩)
  · have htrace : trace (step noPolicies) (letThrough 1) (start 0 (tables "active") enrolled)
        (suspendedAfter DEVICE_DEBOUNCE ++ [.tick 7]) = [0] := by decide +kernel
    intro last hlast
    rw [htrace] at hlast
    cases hlast
    decide +kernel
  · decide +kernel

/-- The patch of a suspension one second after a heartbeat is lost: the engine takes the laptop to
be active. -/
theorem suspension_lost :
    let last := run (step noPolicies) (start 0 (tables "active") enrolled)
      (suspendedAfter 1000000000 ++ [.patch 7 1 true 1])
    (last.held 7 1).map (·.attrs.status) = some "active" := by
  decide +kernel

end Patching

end Avon.Control
