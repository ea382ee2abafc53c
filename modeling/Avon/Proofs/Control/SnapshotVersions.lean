import Avon.Control.SnapshotVersions
import Avon.Proofs.Control.PolicyListener

/-!
# What a version says about a snapshot

A version stands for one content as long as every transaction that writes rows of the tenant also
fires one of its triggers (`Covered`). `Orderly` is a rule for the statements of a transaction, by
which the triggers of the migrations see to that (`covered_of_orderly`). Devices are inserted and
deleted without a trigger, and the first trigger of a tenant gives the version 1, which
`load_snapshot` takes for none: hence the rule on devices, and the hypothesis that the tenant has a
row of its own.
-/

set_option autoImplicit false

namespace Avon.Control

open Avon.Policy Avon.Lib Avon.Lib.Run Change

/-- What a loaded snapshot has of the policies, pods, classes, memberships and devices. -/
def content (data : SnapshotData) :=
  (data.policies, data.pods, data.deviceClasses, data.devices.map fun d =>
    (d.id, d.pods, d.attrs.status, d.attrs.class?, d.attrs.attestation, d.attrs.riskScore))

/-- The rows that an `UPDATE` finds stay with their tenant. -/
def Change.keepsTenant {κ ρ : Type} [DecidableEq κ] (id : ρ → κ) (tenantId : ρ → TenantId)
    (rows : List ρ) : Change κ ρ → Bool
  | .update key set => rows.all fun r => id r ≠ key || tenantId (set r) = tenantId r
  | _ => true

namespace Db

/-- The tenants whose rows a statement writes. A membership is a row of the tenant of its device. -/
def touched (db : Db) : Write → List TenantId
  | .pods c => (c.written (·.id) db.pods).map (·.tenantId) ++
    (db.devicePods.filter fun m => c.deleted = some m.podId).flatMap fun m =>
      db.deviceTenants m.deviceId
  | .deviceClasses c =>
    (db.ofDeletedClass c).map (·.tenantId) ++ (c.written (·.id) db.deviceClasses).map (·.tenantId)
  | .policies c => (c.written (·.id) db.policies).map (·.tenantId)
  | .devicePods c => (c.written (fun m => (m.deviceId, m.podId)) db.devicePods).flatMap fun m =>
      db.deviceTenants m.deviceId
  | .devices (.update key set) named =>
    (db.devices.filter fun d =>
        d.id = key ∧ (named = true ∨ (set d).id ≠ d.id ∨ (set d).tenantId ≠ d.tenantId))
      |>.flatMap fun d => [d.tenantId, (set d).tenantId]
  | .devices c _ => (c.written (·.id) db.devices).map (·.tenantId)

/-- The tenants that `f` finds for the statements of a transaction. -/
def along (f : Db → Write → List TenantId) (db : Db) : List Write → List TenantId
  | [] => []
  | w :: tx => f db w ++ along f (db.write w) tx

/-- A transaction that writes rows of the tenant fires one of its triggers. -/
def Covered (t : TenantId) (db : Db) (tx : List Write) : Prop :=
  t ∈ db.along touched tx → t ∈ db.along bumps tx

/-- A statement by the rules of a tenant: rows stay with their tenant, memberships are not updated
and those of its devices are with its pods, a new device is not its own, and a device of its own is
deleted only if it has a membership. -/
def regular (t : TenantId) (db : Db) : Write → Bool
  | .pods c => c.keepsTenant (·.id) (·.tenantId) db.pods && db.devicePods.all fun m =>
      c.deleted ≠ some m.podId || !(db.deviceTenants m.deviceId).contains t ||
        db.podTenant m.podId = some t
  | .deviceClasses c => c.keepsTenant (·.id) (·.tenantId) db.deviceClasses
  | .policies c => c.keepsTenant (·.id) (·.tenantId) db.policies
  | .devicePods (.update ..) => false
  | .devicePods c => (c.written (fun m => (m.deviceId, m.podId)) db.devicePods).all fun m =>
      !(db.deviceTenants m.deviceId).contains t || db.podTenant m.podId = some t
  | .devices (.insert row) _ => row.tenantId ≠ t
  | .devices (.update key set) _ => db.devices.all fun d =>
      d.id ≠ key || ((set d).id = d.id && (set d).tenantId = d.tenantId)
  | .devices (.delete key) _ => db.devices.all fun d => d.id ≠ key || d.tenantId ≠ t ||
      db.devicePods.any fun m => m.deviceId = key && db.podTenant m.podId = some t

/-- The tenant whose pod a statement gives a new member. -/
def joined (db : Db) : Write → List TenantId
  | .devicePods (.insert m) => (db.podTenant m.podId).toList
  | _ => []

/-- Every statement of the transaction is regular, or one puts a device into a pod of the tenant: so
an enrollment may insert a device of the tenant together with its memberships. -/
def Orderly (t : TenantId) (db : Db) (tx : List Write) : Prop :=
  Guarded write (fun db w => regular t db w = true) db tx ∨ t ∈ db.along joined tx

instance (t : TenantId) (db : Db) (tx : List Write) : Decidable (Orderly t db tx) :=
  inferInstanceAs (Decidable (_ ∨ _))

def shown (d : DeviceRow) : DeviceId × String × Option Uuid × String × ℤ :=
  (d.id, d.status, d.deviceClassId, d.attestationState, d.riskScore)

/-- Two states of the tables have the same rows of a tenant, as far as `content` shows them. -/
structure Same (t : TenantId) (db db' : Db) : Prop where
  pods : db'.pods.filter (·.tenantId = t) = db.pods.filter (·.tenantId = t)
  classes : db'.deviceClasses.filter (·.tenantId = t) = db.deviceClasses.filter (·.tenantId = t)
  policies : db'.policies.filter (·.tenantId = t) = db.policies.filter (·.tenantId = t)
  devices : (db'.devices.filter (·.tenantId = t)).map shown =
    (db.devices.filter (·.tenantId = t)).map shown
  memberships : ∀ d ∈ db.devices, d.tenantId = t →
    db'.devicePods.filter (·.deviceId = d.id) = db.devicePods.filter (·.deviceId = d.id)

namespace Same

variable {t : TenantId} {db db' db'' : Db}

theorem refl (db : Db) : Same t db db := ⟨rfl, rfl, rfl, rfl, fun _ _ _ => rfl⟩

theorem trans (h : Same t db db') (h' : Same t db' db'') : Same t db db'' where
  pods := h'.pods.trans h.pods
  classes := h'.classes.trans h.classes
  policies := h'.policies.trans h.policies
  devices := h'.devices.trans h.devices
  memberships d hd ht := by
    have hmem : shown d ∈ (db'.devices.filter (·.tenantId = t)).map shown := by
      rw [h.devices]
      exact List.mem_map_of_mem (List.mem_filter.mpr ⟨hd, by simpa using ht⟩)
    obtain ⟨d', hd', heq⟩ := List.mem_map.mp hmem
    obtain ⟨hd', ht'⟩ := List.mem_filter.mp hd'
    have hid : d'.id = d.id := congrArg Prod.fst heq
    rw [← h.memberships d hd ht, ← hid]
    exact h'.memberships d' hd' (by simpa using ht')

theorem content_eq (tz : TzDb) (decode : Json → Option PolicySpec) (h : Same t db db') :
    content (loadSnapshot tz decode db' t) = content (loadSnapshot tz decode db t) := by
  have henabled : db'.enabledPolicies t = db.enabledPolicies t := by
    have := congrArg (List.filter fun row : PolicyRow => row.enabled) h.policies
    simpa [List.filter_filter, enabledPolicies, and_comm] using this
  -- The devices are a function of what is shown of them and of their memberships.
  have hview : ∀ db : Db, (content (loadSnapshot tz decode db t)).2.2.2 =
      ((db.devices.filter (·.tenantId = t)).map shown).map fun d =>
        (d.1, (db.devicePods.filter (·.deviceId = d.1)).map (·.podId), d.2.1, d.2.2.1, d.2.2.2.1,
          UInt8.ofNat (min 100 (max 0 d.2.2.2.2)).toNat) := by
    intro db
    simp only [content, loadSnapshot, List.map_map]
    rfl
  have hdevices : (content (loadSnapshot tz decode db' t)).2.2.2 =
      (content (loadSnapshot tz decode db t)).2.2.2 := by
    rw [hview, hview, h.devices, List.map_map, List.map_map]
    refine List.map_congr_left fun d hd => ?_
    obtain ⟨hd, ht⟩ := List.mem_filter.mp hd
    have hpods : db'.devicePods.filter (·.deviceId = (shown d).1) =
        db.devicePods.filter (·.deviceId = (shown d).1) := h.memberships d hd (by simpa using ht)
    simp only [Function.comp_apply, hpods]
  refine Prod.ext ?_ (Prod.ext ?_ (Prod.ext ?_ hdevices))
  · exact congrArg (List.filterMap (policyEntry tz decode)) henabled
  · exact congrArg (List.map fun row : PodRow => (⟨row.id, row.parentId⟩ : PodEntity)) h.pods
  · exact congrArg (List.map (·.id)) h.classes

end Same

end Db

/-! ### One statement -/

/-- What `view` shows of the rows with the property, after a change of each row that keeps both. -/
theorem map_filter_map {ρ β : Type} {p : ρ → Bool} {f : ρ → ρ} (view : ρ → β) {rows : List ρ}
    (h : ∀ r ∈ rows, p r = true ∨ p (f r) = true → p (f r) = p r ∧ view (f r) = view r) :
    ((rows.map f).filter p).map view = (rows.filter p).map view := by
  induction rows with
  | nil => rfl
  | cons r rows ih =>
    have ih := ih fun x hx => h x (List.mem_cons_of_mem _ hx)
    by_cases hr : p r = true ∨ p (f r) = true
    · obtain ⟨hp, hview⟩ := h r List.mem_cons_self hr
      simp only [List.map_cons, List.filter_cons, hp]
      split <;> simp [hview, ih]
    · simp only [not_or, Bool.not_eq_true] at hr
      simp [hr, ih]

theorem Change.filter_apply {κ ρ τ : Type} [DecidableEq κ] [DecidableEq τ] {i : ρ → κ} (f : ρ → τ)
    {t : τ} {rows : List ρ} {c : Change κ ρ} (h : ∀ r ∈ c.written i rows, f r ≠ t) :
    (c.apply i rows).filter (f · = t) = rows.filter (f · = t) := by
  cases c with
  | insert row =>
    have hrow : ¬ f row = t := h row List.mem_cons_self
    simp [apply, List.filter_append, hrow]
  | delete key =>
    simp only [apply, List.filter_filter]
    refine List.filter_congr fun r hr => ?_
    by_cases hk : i r = key
    · have hne : ¬ f r = t := h r (by simp [written, hr, hk])
      simp [hne]
    · simp [hk]
  | update key set =>
    rw [← List.map_id (rows.filter _), ← List.map_id (List.filter _ _)]
    refine map_filter_map id fun r hr ht => ?_
    by_cases hk : i r = key
    · have hwritten : ∀ x ∈ [r, set r], f x ≠ t := fun x hx =>
        h x (List.mem_flatMap.mpr ⟨r, List.mem_filter.mpr ⟨hr, decide_eq_true hk⟩, hx⟩)
      simp_all
    · simp [hk]

namespace Db

variable {t : TenantId} {db : Db}

theorem mem_deviceTenants {d : DeviceRow} (hd : d ∈ db.devices) :
    d.tenantId ∈ db.deviceTenants d.id :=
  List.mem_map_of_mem (List.mem_filter.mpr ⟨hd, by simp⟩)

theorem filter_devicePods {device : DeviceId} {keep : DevicePodRow → Bool}
    (h : ∀ m ∈ db.devicePods, m.deviceId = device → keep m = true) :
    (db.devicePods.filter keep).filter (·.deviceId = device) =
      db.devicePods.filter (·.deviceId = device) := by
  rw [List.filter_filter]
  refine List.filter_congr fun m hm => ?_
  by_cases hd : m.deviceId = device
  · simp [hd, h m hm hd]
  · simp [hd]

theorem same_apply {w : Write} (h : t ∉ db.touched w) : Same t db (db.apply w) := by
  cases w with
  | pods c =>
    simp only [touched, List.mem_append, not_or] at h
    obtain ⟨hrows, hcascade⟩ := h
    refine { Same.refl db with
      pods := filter_apply (·.tenantId) fun r hr ht => hrows (List.mem_map.mpr ⟨r, hr, ht⟩)
      memberships := fun d hd ht => filter_devicePods fun m hm hmd => ?_ }
    refine decide_eq_true fun hdel => hcascade (List.mem_flatMap.mpr ⟨m, ?_, ?_⟩)
    · exact List.mem_filter.mpr ⟨hm, decide_eq_true hdel⟩
    · exact hmd ▸ ht ▸ mem_deviceTenants hd
  | deviceClasses c =>
    simp only [touched, List.mem_append, not_or] at h
    obtain ⟨hdevices, hrows⟩ := h
    refine { Same.refl db with
      classes := filter_apply (·.tenantId) fun r hr ht => hrows (List.mem_map.mpr ⟨r, hr, ht⟩)
      devices := map_filter_map shown fun d hd ht => ?_ }
    have hkept : ¬ (d.deviceClassId.isSome ∧ d.deviceClassId = c.deleted) := by
      intro hc
      have hof : d ∈ db.ofDeletedClass c := List.mem_filter.mpr ⟨hd, by simpa using hc⟩
      rw [if_pos hc, or_self] at ht
      exact hdevices (List.mem_map.mpr ⟨d, hof, of_decide_eq_true ht⟩)
    simp [hkept]
  | policies c =>
    refine { Same.refl db with policies := ?_ }
    exact filter_apply (·.tenantId) fun r hr ht => h (List.mem_map.mpr ⟨r, hr, ht⟩)
  | devicePods c =>
    refine { Same.refl db with memberships := fun d hd ht => ?_ }
    refine filter_apply DevicePodRow.deviceId fun m hm hmd => h ?_
    exact List.mem_flatMap.mpr ⟨m, hm, hmd ▸ ht ▸ mem_deviceTenants hd⟩
  | devices c named =>
    refine { Same.refl db with
      devices := ?_
      memberships := fun d hd ht => filter_devicePods fun m _ hm => decide_eq_true fun hdel => ?_ }
    · cases c with
      | insert | delete =>
        simp only [apply, keepPolicyColumns]
        rw [filter_apply DeviceRow.tenantId fun r hr ht => h (List.mem_map.mpr ⟨r, hr, ht⟩)]
      | update key set =>
        refine map_filter_map shown fun d hd ht => ?_
        by_cases hk : d.id = key
        · have htenant : (if named = true then set d else (set d).withPolicyColumns d).tenantId =
              (set d).tenantId := by
            split <;> rfl
          by_cases hw : named = true ∨ (set d).id ≠ d.id ∨ (set d).tenantId ≠ d.tenantId
          · -- Both the old and the new row are of tenants that the statement writes rows of.
            have hboth : ∀ x ∈ [d.tenantId, (set d).tenantId],
                x ∈ db.touched (.devices (.update key set) named) := fun x hx =>
              List.mem_flatMap.mpr ⟨d, List.mem_filter.mpr ⟨hd, decide_eq_true ⟨hk, hw⟩⟩, hx⟩
            rw [if_pos hk, htenant, decide_eq_true_iff, decide_eq_true_iff] at ht
            rcases ht with rfl | rfl <;> exact absurd (hboth _ (by simp)) h
          · simp only [not_or, not_not, Bool.not_eq_true] at hw
            simp [hk, hw, shown, DeviceRow.withPolicyColumns]
        · simp [hk]
    · cases c with
      | delete key =>
        cases hdel
        exact h (List.mem_map.mpr ⟨d, List.mem_filter.mpr ⟨hd, decide_eq_true hm.symm⟩, ht⟩)
      | insert | update => cases hdel

/-! ### The triggers of regular statements -/

theorem fired_of_written {κ ρ : Type} [DecidableEq κ] {i : ρ → κ} {f : ρ → TenantId}
    {rows : List ρ} {c : Change κ ρ} (hkeeps : c.keepsTenant i f rows = true)
    (h : t ∈ (c.written i rows).map f) : t ∈ (c.fired i rows).map f := by
  cases c with
  | insert row => exact h
  | delete key => exact h
  | update key set =>
    obtain ⟨x, hx, rfl⟩ := List.mem_map.mp h
    obtain ⟨r, hr, hx⟩ := List.mem_flatMap.mp hx
    obtain ⟨hr, hkey⟩ := List.mem_filter.mp hr
    have hkey : i r = key := of_decide_eq_true hkey
    have hkept : f (set r) = f r := by
      simpa [hkey] using List.all_eq_true.mp hkeeps r hr
    have hfired : f (set r) ∈ ((Change.update key set).fired i rows).map f :=
      List.mem_map_of_mem (List.mem_map_of_mem (List.mem_filter.mpr ⟨hr, decide_eq_true hkey⟩))
    obtain rfl | rfl : x = r ∨ x = set r := by simpa using hx
    · exact hkept ▸ hfired
    · exact hfired

theorem mem_pods_of_podTenant {pod : Uuid} (h : db.podTenant pod = some t) :
    ∃ p ∈ db.pods, p.id = pod ∧ p.tenantId = t := by
  obtain ⟨p, hp, rfl⟩ := Option.map_eq_some_iff.mp h
  exact ⟨p, List.mem_of_find?_eq_some hp, by simpa using List.find?_some hp, rfl⟩

/-- A regular statement that writes rows of the tenant fires one of its triggers. -/
theorem mem_bumps_of_regular {w : Write} (hregular : regular t db w = true)
    (h : t ∈ db.touched w) : t ∈ db.bumps w := by
  cases w with
  | pods c =>
    simp only [regular, Bool.and_eq_true] at hregular
    obtain ⟨hkeeps, hcascade⟩ := hregular
    rcases List.mem_append.mp h with h | h
    · exact fired_of_written hkeeps h
    -- A membership went with the pod: then the pod was one of the tenant.
    obtain ⟨m, hm, ht⟩ := List.mem_flatMap.mp h
    obtain ⟨hm, hdel⟩ := List.mem_filter.mp hm
    have hdel : c.deleted = some m.podId := of_decide_eq_true hdel
    have hpod : db.podTenant m.podId = some t := by
      simpa [hdel, ht] using List.all_eq_true.mp hcascade m hm
    obtain ⟨p, hp, hid, htenant⟩ := mem_pods_of_podTenant hpod
    cases c with
    | delete key =>
      cases hdel
      exact List.mem_map.mpr ⟨p, List.mem_filter.mpr ⟨hp, decide_eq_true hid⟩, htenant⟩
    | insert | update => cases hdel
  | deviceClasses c =>
    rcases List.mem_append.mp h with h | h
    · exact List.mem_append_left _ h
    · exact List.mem_append_right _ (fired_of_written hregular h)
  | policies c => exact fired_of_written hregular h
  | devicePods c =>
    obtain ⟨m, hm, ht⟩ := List.mem_flatMap.mp h
    cases c with
    | update => cases hregular
    | insert | delete =>
      have hpod : db.podTenant m.podId = some t := by
        simpa [ht] using List.all_eq_true.mp hregular m hm
      exact List.mem_filterMap.mpr ⟨m, hm, hpod⟩
  | devices c named =>
    cases c with
    | insert row =>
      obtain rfl : t = row.tenantId := by simpa [touched, written] using h
      simp [regular] at hregular
    | update key set =>
      obtain ⟨d, hd, ht⟩ := List.mem_flatMap.mp h
      obtain ⟨hd, hwrites⟩ := List.mem_filter.mp hd
      obtain ⟨hkey, hwrites⟩ := of_decide_eq_true hwrites
      obtain ⟨hid, htenant⟩ : (set d).id = d.id ∧ (set d).tenantId = d.tenantId := by
        simpa [hkey] using List.all_eq_true.mp hregular d hd
      have hnamed : named = true := by simpa [hid, htenant] using hwrites
      obtain rfl : t = (set d).tenantId := by simpa [htenant] using ht
      rw [bumps, if_pos hnamed]
      refine List.mem_map_of_mem (List.mem_map_of_mem ?_)
      exact List.mem_filter.mpr ⟨hd, decide_eq_true hkey⟩
    | delete key =>
      obtain ⟨d, hd, rfl⟩ := List.mem_map.mp h
      obtain ⟨hd, hkey⟩ := List.mem_filter.mp hd
      have hkey : d.id = key := of_decide_eq_true hkey
      obtain ⟨m, hm, hdevice, hpod⟩ : ∃ m ∈ db.devicePods, m.deviceId = key ∧
          db.podTenant m.podId = some d.tenantId := by
        simpa [hkey] using List.all_eq_true.mp hregular d hd
      exact List.mem_filterMap.mpr
        ⟨m, List.mem_filter.mpr ⟨hm, decide_eq_true hdevice⟩, hpod⟩

theorem bumps_of_joined {tx : List Write} (h : t ∈ db.along joined tx) : t ∈ db.along bumps tx := by
  induction tx generalizing db with
  | nil => exact h
  | cons w tx ih =>
    rcases List.mem_append.mp h with h | h
    · refine List.mem_append_left _ ?_
      unfold joined at h
      split at h
      · exact List.mem_filterMap.mpr ⟨_, List.mem_singleton_self _, Option.mem_toList.mp h⟩
      · cases h
    · exact List.mem_append_right _ (ih h)

/-- The triggers count every orderly transaction that writes rows of the tenant. -/
theorem covered_of_orderly {tx : List Write} (h : Orderly t db tx) : Covered t db tx := by
  intro ht
  rcases h with hregular | hjoined
  · induction tx generalizing db with
    | nil => exact ht
    | cons w tx ih =>
      rcases List.mem_append.mp ht with ht | ht
      · exact List.mem_append_left _ (mem_bumps_of_regular hregular.1 ht)
      · exact List.mem_append_right _ (ih ht hregular.2)
  · exact bumps_of_joined hjoined

/-! ### Transactions -/

theorem same_write {w : Write} (h : t ∉ db.touched w) : Same t db (db.write w) :=
  { same_apply h with }

theorem same_foldl {tx : List Write} (h : t ∉ db.along touched tx) :
    Same t db (tx.foldl write db) := by
  induction tx generalizing db with
  | nil => exact Same.refl db
  | cons w tx ih =>
    simp only [along, List.mem_append, not_or] at h
    exact (same_write h.1).trans (ih h.2)

theorem policySnapshots_foldl (db : Db) (tx : List Write) :
    (tx.foldl write db).policySnapshots =
      bumpPolicySnapshot (db.along bumps tx) db.policySnapshots := by
  induction tx generalizing db with
  | nil => rfl
  | cons w tx ih =>
    rw [List.foldl_cons, ih]
    simp only [along, bumpPolicySnapshot, List.foldl_append]
    rfl

theorem find?_bumpVersion_self (rows : List SnapshotRow) :
    (bumpVersion t rows).find? (fun row => row.tenantId = t) =
      some ((rows.find? fun row => row.tenantId = t).elim ⟨t, 1⟩ fun row =>
        { row with version := row.version + 1 }) := by
  induction rows with
  | nil => simp [bumpVersion]
  | cons row rows ih =>
    by_cases hrow : row.tenantId = t
    · simp [bumpVersion, hrow]
    · simp [bumpVersion, hrow, ih]

theorem find?_bump {rows : List SnapshotRow} {row : SnapshotRow}
    (hrow : (rows.find? fun row => row.tenantId = t) = some row) (changes : List TenantId) :
    ∃ row', ((bumpPolicySnapshot changes rows).find? fun row => row.tenantId = t) = some row' ∧
      row'.version = row.version + changes.count t := by
  induction changes generalizing rows row with
  | nil => exact ⟨row, hrow, by simp⟩
  | cons u changes ih =>
    by_cases hu : u = t
    · subst hu
      have hbump := find?_bumpVersion_self (t := u) rows
      rw [hrow] at hbump
      obtain ⟨row', hrow', hversion⟩ := ih hbump
      refine ⟨row', hrow', ?_⟩
      rw [hversion, List.count_cons_self]
      push_cast [Option.elim]
      ring
    · have hbump := Listener.find?_bumpVersion_of_ne (fun h : t = u => hu h.symm) rows
      obtain ⟨row', hrow', hversion⟩ := ih (hbump.trans hrow)
      exact ⟨row', hrow', by rw [hversion, List.count_cons_of_ne hu]⟩

/-- The version of the tenant has not gone back since `db`, and if it is the same, so is the
content. -/
def Identifies (t : TenantId) (db : Db) (v : ℤ) (s : Db) : Prop :=
  ∃ row, (s.policySnapshots.find? fun row => row.tenantId = t) = some row ∧
    v ≤ row.version ∧ row.version ≤ maxVersion ∧ (row.version = v → Same t db s)

theorem Identifies.transact {v : ℤ} {s : Db} {tx : List Write} (h : Identifies t db v s)
    (hcov : Covered t s tx) : Identifies t db v (s.transact tx) := by
  unfold Db.transact
  simp only
  split
  · rename_i hrange
    obtain ⟨row, hrow, hv, -, hsame⟩ := h
    obtain ⟨row', hrow', hversion⟩ := find?_bump hrow (s.along bumps tx)
    rw [← policySnapshots_foldl] at hrow'
    have hmax : row'.version ≤ maxVersion := by
      simpa using List.all_eq_true.mp hrange row' (List.mem_of_find?_eq_some hrow')
    refine ⟨row', hrow', by omega, hmax, fun heq => ?_⟩
    -- The version is still `v`, so nothing was counted, and no row of the tenant was written.
    have hcount : (s.along bumps tx).count t = 0 := by omega
    have hsilent : t ∉ s.along touched tx := fun ht =>
      List.count_eq_zero.mp hcount (hcov ht)
    exact (hsame (by omega)).trans (same_foldl hsilent)
  · exact h

end Db

theorem Db.identifies_run {t : TenantId} {db : Db} {row : SnapshotRow} {txs : List (List Write)}
    (hrow : (db.policySnapshots.find? fun row => row.tenantId = t) = some row)
    (hrange : row.version ≤ Db.maxVersion) (hG : Guarded Db.transact (Db.Orderly t) db txs) :
    Db.Identifies t db row.version (run Db.transact db txs) :=
  Guarded.invariant (fun _ _ h hG => h.transact (Db.covered_of_orderly hG))
    ⟨row, hrow, le_rfl, hrange, fun _ => Db.Same.refl db⟩ hG

/-- For every history of orderly transactions of a tenant that has a version: two snapshots that are
loaded in its course with the same version have the same content. -/
theorem content_eq_of_version_eq (tz : TzDb) (decode : Json → Option PolicySpec) (t : TenantId)
    (db : Db) (row : SnapshotRow)
    (hrow : (db.policySnapshots.find? fun row => row.tenantId = t) = some row)
    (hrange : 0 ≤ row.version ∧ row.version ≤ Db.maxVersion) (before between : List (List Write))
    (hG : Guarded Db.transact (Db.Orderly t) db (before ++ between))
    (hversion : (loadSnapshot tz decode (run Db.transact db (before ++ between)) t).version =
      (loadSnapshot tz decode (run Db.transact db before) t).version) :
    content (loadSnapshot tz decode (run Db.transact db (before ++ between)) t) =
      content (loadSnapshot tz decode (run Db.transact db before) t) := by
  obtain ⟨hbefore, hbetween⟩ := guarded_append.mp hG
  obtain ⟨row₁, hrow₁, hle₁, hmax₁, -⟩ := Db.identifies_run hrow hrange.2 hbefore
  obtain ⟨row₂, hrow₂, hle₂, hmax₂, hsame⟩ := Db.identifies_run hrow₁ hmax₁ hbetween
  rw [run_append] at hversion ⊢
  refine (hsame ?_).content_eq tz decode
  simp only [loadSnapshot, hrow₁, hrow₂] at hversion
  have hnat : row₂.version % 2 ^ 64 = row₁.version % 2 ^ 64 := by
    have h := congrArg UInt64.toNat hversion
    simp [UInt64.ofInt] at h
    omega
  simp only [Db.maxVersion] at hmax₁ hmax₂
  omega

/-! ### A heartbeat, an enrollment and a new tenant -/

def newDevice (id : DeviceId) : DeviceRow := ⟨id, 7, "active", none, none, "none", 0, none, none⟩

def oneDevice : Db := ⟨[7, 8], [], [], [newDevice 1], [], [], [], [⟨7, 1⟩], 0⟩

def heartbeat : List Write :=
  [.devices (.update 1 fun d => { d with posture := some (.object []) }) false]

def enrollment : List Write := [.devices (.insert (newDevice 2)) false]

def newPod (tenant : TenantId) : List Write := [.pods (.insert ⟨3, tenant, none⟩)]

def noZones : TzDb := ⟨Unit, fun _ => none, fun _ _ => none⟩

/-- What is loaded for a tenant after a transaction: the version and the numbers of devices and
pods. -/
def loaded (tx : List Write) (t : TenantId) : UInt64 × ℕ × ℕ :=
  let data := loadSnapshot noZones (fun _ => none) (oneDevice.transact tx) t
  (data.version, data.devices.length, data.pods.length)

/-- The pod of tenant 7 and the device that is enrolled into it make versions 2 and 3. Then come a
heartbeat, which no trigger is for, and a pod of tenant 8. -/
theorem content_eq_heartbeat :
    let before := [newPod 7, enrollment ++ [.devicePods (.insert ⟨2, 3⟩)]]
    let first := loadSnapshot noZones (fun _ => none) (run Db.transact oneDevice before) 7
    let second := loadSnapshot noZones (fun _ => none)
      (run Db.transact oneDevice (before ++ [heartbeat, newPod 8])) 7
    first.version = 3 ∧ first.devices.length = 2 ∧ content second = content first := by
  intro before first second
  refine ⟨by decide +kernel, by decide +kernel, ?_⟩
  exact content_eq_of_version_eq noZones (fun _ => none) 7 oneDevice ⟨7, 1⟩ rfl
    ⟨by decide, by decide⟩ before [heartbeat, newPod 8] (by decide +kernel) rfl

/-- The second device of tenant 7 comes without a new version, and so does the first pod of tenant
8. -/
theorem content_ne :
    loaded [] 7 = (1, 1, 0) ∧ loaded enrollment 7 = (1, 2, 0) ∧
      loaded [] 8 = (1, 0, 0) ∧ loaded (newPod 8) 8 = (1, 0, 1) := by
  decide +kernel

end Avon.Control
