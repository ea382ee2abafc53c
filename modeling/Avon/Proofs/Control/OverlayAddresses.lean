import Avon.Proofs.Control.EnrollTx

/-!
# Overlay addresses stay apart

The pool of a tenant is locked from the moment `allocate` reads it to the end of the transaction.
Addresses of other tenants are only kept apart by the unique indexes, and `allocate` does not look
for them: it fails if it chooses one.
-/

set_option autoImplicit false

namespace Avon.Control.Enrollment

open Avon.Ca Avon.Crypto Avon.Keystore Avon.Lib Avon.Lib.Run Locks

variable {C : HybridImpl} {ι : Type} {B : BindingImpl} {s s' : System C ι} {k k' : ι}

/-! ### Devices -/

namespace Device

def Bare (row : Device) : Prop := row.overlayIpv4 = none ∧ row.overlayIpv6 = none

def Apart (row row' : Device) : Prop :=
  (∀ a, row.overlayIpv4 = some a → row'.overlayIpv4 ≠ some a) ∧
    ∀ b, row.overlayIpv6 = some b → row'.overlayIpv6 ≠ some b

variable {row row' : Device} {overlay : Option Overlay}

theorem Apart.symm (h : row.Apart row') : row'.Apart row :=
  ⟨fun a ha ha' => h.1 a ha' ha, fun b hb hb' => h.2 b hb' hb⟩

theorem Bare.apart (h : row.Bare) (row' : Device) : row.Apart row' := by
  refine ⟨fun a ha => ?_, fun b hb => ?_⟩
  · cases h.1.symm.trans ha
  · cases h.2.symm.trans hb

@[simp] theorem id_assign (overlay : Option Overlay) (row : Device) :
    (row.assign overlay).id = row.id := by
  unfold assign
  split
  · split <;> rfl
  · rfl

@[simp] theorem tenantId_assign (overlay : Option Overlay) (row : Device) :
    (row.assign overlay).tenantId = row.tenantId := by
  unfold assign
  split
  · split <;> rfl
  · rfl

theorem assign_of_ne
    (h : ∀ o, overlay = some o → row.id ≠ o.device) : row.assign overlay = row := by
  cases overlay with
  | none => rfl
  | some o => exact if_neg (h o rfl)

theorem assign_self {o : Overlay} (h : row.id = o.device) : row.assign (some o) =
    { row with overlayIpv4 := some o.ipv4, overlayIpv6 := some o.ipv6 } := if_pos h

end Device

def Tables.nets (t : Tables) (tenant : TenantId) : Option Nets :=
  (t.pools tenant).bind fun pool => (poolNets pool).toOption

/-- The devices with the one that a transaction has inserted. -/
def Tables.withDevice (t : Tables) (w : Writes) : List Device := t.devices ++ w.device.toList

variable {row row' : Device} {t : Tables} {tenant : TenantId} {a : BitVec 32} {nets : Nets}
  {w w' : Writes} {outcome : Outcome}

theorem Tables.mem_withDevice : row ∈ t.withDevice w ↔ row ∈ t.devices ∨ w.device = some row := by
  simp [Tables.withDevice]

theorem Tables.mem_apply :
    row ∈ (t.apply w).devices ↔ ∃ old ∈ t.withDevice w, old.assign w.overlay = row :=
  List.mem_map

theorem Tables.mem_used : a ∈ t.used tenant ↔
      ∃ row ∈ t.devices, row.tenantId = tenant ∧ row.overlayIpv4 = some a := by
  simp [Tables.used, and_assoc]

theorem devices_view (h : (s.writes k).overlay = none) :
    (s.view k).devices = s.db.withDevice (s.writes k) := by
  have hassign : Device.assign (s.writes k).overlay = id := by
    funext row
    rw [h]
    rfl
  rw [System.view, Tables.apply, hassign, List.map_id]
  rfl

/-! ### Calls -/

/-- The call has the lock of a tenant's pool, and has read it. -/
def Locked (s : System C ι) (k : ι) (tenant : TenantId) (nets : Nets) : Prop :=
  s.holder (.pool tenant) = some k ∧ s.db.nets tenant = some nets

/-- The device that a call inserts is new and has no addresses. -/
def Staged (s : System C ι) (k : ι) (w : Writes) : Prop :=
  ∀ row, w.device = some row →
    row.Bare ∧ s.holder (.device row.id) = some k ∧ ∀ old ∈ s.db.devices, old.id ≠ row.id

/-- What a call knows of the device it is in `allocate` for. -/
def AllocInv (s : System C ι) (k : ι) (row : Device) : AllocPhase → Prop
  | .lockPool => True
  | .readDevice nets => Locked s k row.tenantId nets
  | .readUsed nets => Locked s k row.tenantId nets ∧ row.Bare
  | .update nets a b => Locked s k row.tenantId nets ∧ row.Bare ∧ nets.Usable a ∧
      b = nets.ipv6For a ∧ a ∉ s.db.used row.tenantId

/-- The addresses that a call has written are free, and nobody else can take them. -/
structure Owns (s : System C ι) (k : ι) (w : Writes) (o : Overlay) (row : Device) (nets : Nets) :
    Prop where
  mem : row ∈ s.db.withDevice w
  id : row.id = o.device
  bare : row.Bare
  locked : Locked s k row.tenantId nets
  usable : nets.Usable o.ipv4
  ipv6 : o.ipv6 = nets.ipv6For o.ipv4
  unique : s.db.Unique o
  locks : ∀ c ∈ o.locks, s.holder c = some k

def Owned (s : System C ι) (k : ι) (w : Writes) : Prop :=
  ∀ o, w.overlay = some o → ∃ row nets, Owns s k w o row nets

/-- What a call has written of a device, for each place it can stand at. -/
def Placed (s : System C ι) (k : ι) (w : Writes) : Phase C → Prop
  | .idle | .consuming .. | .counting _ | .creating _ | .ended _ =>
    w.device = none ∧ w.overlay = none
  | .addingPods e _ => w.overlay = none ∧
      ∃ row, w.device = some row ∧ row.id = e.call.deviceId ∧ row.tenantId = e.token.tenantId
  | .allocating _ tenant device phase => w.overlay = none ∧
      ∃ row ∈ s.db.withDevice w, row.id = device ∧ row.tenantId = tenant ∧ AllocInv s k row phase
  | .recording _ | .issuing _ | .committing _ => Owned s k w

/-- What a step leaves to a call: its locks, the pools, and the rows as far as the locks protect
them. -/
structure Leaves (s s' : System C ι) (k : ι) : Prop where
  holder : ∀ c, s.holder c = some k → s'.holder c = some k
  nets : s'.db.nets = s.db.nets
  fresh : ∀ id, s.holder (.device id) = some k → (∀ old ∈ s.db.devices, old.id ≠ id) →
    ∀ old ∈ s'.db.devices, old.id ≠ id
  row : ∀ row ∈ s.db.devices, ∃ row' ∈ s'.db.devices, row'.id = row.id ∧
    row'.tenantId = row.tenantId ∧ (s.holder (.pool row.tenantId) = some k → row' = row)
  used : ∀ tenant a, s.holder (.pool tenant) = some k → a ∉ s.db.used tenant →
    a ∉ s'.db.used tenant
  unique : ∀ o : Overlay, (∀ c ∈ o.locks, s.holder c = some k) → s.db.Unique o → s'.db.Unique o

namespace Leaves

theorem of_db (hdb : s'.db = s.db) (hkeep : ∀ c, s.holder c = some k → s'.holder c = some k) :
    Leaves s s' k where
  holder := hkeep
  nets := by rw [hdb]
  fresh _ _ hnew := hdb ▸ hnew
  row row hrow := ⟨row, hdb ▸ hrow, rfl, rfl, fun _ => rfl⟩
  used _ _ _ hunused := hdb ▸ hunused
  unique _ _ hunique := hdb ▸ hunique

variable (h : Leaves s s' k)
include h

theorem locked (hlocked : Locked s k tenant nets) : Locked s' k tenant nets :=
  ⟨h.holder _ hlocked.1, h.nets ▸ hlocked.2⟩

theorem withDevice (hrow : row ∈ s.db.withDevice w) :
    ∃ row' ∈ s'.db.withDevice w, row'.id = row.id ∧ row'.tenantId = row.tenantId ∧
      (s.holder (.pool row.tenantId) = some k → row' = row) := by
  rcases Tables.mem_withDevice.mp hrow with hmem | hnew
  · obtain ⟨row', hrow', hsame⟩ := h.row row hmem
    exact ⟨row', Tables.mem_withDevice.mpr (.inl hrow'), hsame⟩
  · exact ⟨row, Tables.mem_withDevice.mpr (.inr hnew), rfl, rfl, fun _ => rfl⟩

theorem staged (hstaged : Staged s k w) : Staged s' k w := by
  intro row hrow
  obtain ⟨hbare, hholder, hnew⟩ := hstaged row hrow
  exact ⟨hbare, h.holder _ hholder, h.fresh _ hholder hnew⟩

theorem owned (howned : Owned s k w) (hdevice : w'.device = w.device)
    (hoverlay : w'.overlay = w.overlay) : Owned s' k w' := by
  intro o ho
  obtain ⟨row, nets, howns⟩ := howned o (hoverlay ▸ ho)
  obtain ⟨row', hrow', -, -, hsame⟩ := h.withDevice howns.mem
  rw [hsame howns.locked.1] at hrow'
  refine ⟨row, nets, ?_, howns.id, howns.bare, h.locked howns.locked, howns.usable, howns.ipv6,
    h.unique o howns.locks howns.unique, fun c hc => h.holder c (howns.locks c hc)⟩
  rw [Tables.withDevice, hdevice]
  exact hrow'

theorem placed {phase : Phase C} (hplaced : Placed s k w phase) : Placed s' k w phase := by
  cases phase with
  | allocating e tenant device phase =>
    obtain ⟨hoverlay, row, hrow, hid, htenant, hinv⟩ := hplaced
    obtain ⟨row', hrow', hid', htenant', hsame⟩ := h.withDevice hrow
    refine ⟨hoverlay, row', hrow', hid'.trans hid, htenant'.trans htenant, ?_⟩
    cases phase with
    | lockPool => trivial
    | readDevice nets =>
      rw [hsame hinv.1]
      exact h.locked hinv
    | readUsed nets =>
      rw [hsame hinv.1.1]
      exact ⟨h.locked hinv.1, hinv.2⟩
    | update nets a b =>
      obtain ⟨hlocked, hbare, husable, hb, hunused⟩ := hinv
      rw [hsame hlocked.1]
      exact ⟨h.locked hlocked, hbare, husable, hb, h.used _ _ hlocked.1 hunused⟩
  | recording e | issuing e | committing outcome => exact h.owned hplaced rfl rfl
  | _ => exact hplaced

end Leaves

/-! ### The invariant -/

def Tables.Distinct (t : Tables) : Prop :=
  ∀ row ∈ t.devices, ∀ row' ∈ t.devices, row.id ≠ row'.id → row.Apart row'

/-- The device has no addresses, or those that `allocate` gives for an address of its tenant's
pool. -/
def Device.Addressed (t : Tables) (row : Device) : Prop :=
  row.Bare ∨ ∃ nets a, t.nets row.tenantId = some nets ∧ nets.Usable a ∧
    row.overlayIpv4 = some a ∧ row.overlayIpv6 = some (nets.ipv6For a)

structure AddressInv (s : System C ι) : Prop where
  ids : (s.db.devices.map (·.id)).Nodup
  addressed : ∀ row ∈ s.db.devices, row.Addressed s.db
  distinct : s.db.Distinct
  staged : ∀ k, Staged s k (s.writes k)
  placed : ∀ k, Placed s k (s.writes k) (s.phase k)

namespace AddressInv

theorem placedAt (h : AddressInv s) {phase : Phase C} (hphase : s.phase k = phase) :
    Placed s k (s.writes k) phase := hphase ▸ h.placed k

variable (h : AddressInv s)
include h

theorem nodup_withDevice : ((s.db.withDevice (s.writes k)).map (·.id)).Nodup := by
  rw [Tables.withDevice, List.map_append, List.nodup_append]
  refine ⟨h.ids, ?_, fun id hid id' hid' => ?_⟩
  · cases (s.writes k).device <;> simp
  obtain ⟨old, hold, rfl⟩ := List.mem_map.mp hid
  obtain ⟨row, hrow, rfl⟩ := List.mem_map.mp hid'
  exact (h.staged k row (Option.mem_toList.mp hrow)).2.2 old hold

theorem bare_or_mem (hrow : row ∈ s.db.withDevice (s.writes k)) :
    row.Bare ∨ row ∈ s.db.devices := by
  rcases Tables.mem_withDevice.mp hrow with hmem | hnew
  · exact .inr hmem
  · exact .inl (h.staged k row hnew).1

/-! ### A commit -/

variable (howned : Owned s k (s.writes k))
include howned

theorem assign_cases (hrow : row ∈ s.db.withDevice (s.writes k)) :
    row.assign (s.writes k).overlay = row ∨
      ∃ o nets, (s.writes k).overlay = some o ∧ Owns s k (s.writes k) o row nets := by
  by_cases hassigned : ∃ o, (s.writes k).overlay = some o ∧ row.id = o.device
  · obtain ⟨o, ho, hid⟩ := hassigned
    obtain ⟨row', nets, howns⟩ := howned o ho
    obtain rfl : row = row' :=
      List.inj_on_of_nodup_map h.nodup_withDevice hrow howns.mem (hid.trans howns.id.symm)
    exact .inr ⟨o, nets, ho, howns⟩
  · exact .inl (Device.assign_of_ne fun o ho hid => hassigned ⟨o, ho, hid⟩)

/-- The devices of a tenant keep their rows while another call has the lock of the pool. -/
theorem assign_eq_of_pool (hne : k' ≠ k) (hrow : row ∈ s.db.withDevice (s.writes k))
    (hlock : s.holder (.pool row.tenantId) = some k') :
    row.assign (s.writes k).overlay = row := by
  rcases h.assign_cases howned hrow with hsame | ⟨o, nets, -, howns⟩
  · exact hsame
  · exact absurd (Option.some.inj (hlock.symm.trans howns.locked.1)) hne

omit howned in
theorem apart_of_owns {o : Overlay} (howns : Owns s k (s.writes k) o row nets)
    (hrow' : row' ∈ s.db.withDevice (s.writes k)) (hid : row'.id ≠ row.id) :
    row'.Apart (row.assign (some o)) := by
  rw [Device.assign_self howns.id]
  rcases h.bare_or_mem hrow' with hbare | hmem
  · exact hbare.apart _
  · obtain ⟨hv4, hv6⟩ := howns.unique row' hmem (howns.id ▸ hid)
    exact ⟨fun a ha heq => hv4 (ha.trans heq.symm), fun b hb heq => hv6 (hb.trans heq.symm)⟩

variable [DecidableEq ι]

omit h howned in
theorem mem_commit : row ∈ (s.commit k outcome).db.devices ↔
    ∃ old ∈ s.db.withDevice (s.writes k), old.assign (s.writes k).overlay = row :=
  Tables.mem_apply

omit howned in
theorem nodup_commit : ((s.commit k outcome).db.devices.map (·.id)).Nodup := by
  have hsame : (s.commit k outcome).db.devices.map (·.id) =
      (s.db.withDevice (s.writes k)).map (·.id) := by
    change ((s.db.withDevice (s.writes k)).map (Device.assign (s.writes k).overlay)).map _ = _
    rw [List.map_map]
    exact List.map_congr_left fun row _ => Device.id_assign _ row
  rw [hsame]
  exact h.nodup_withDevice

theorem leaves_commit (hne : k' ≠ k) : Leaves s (s.commit k outcome) k' where
  holder c := holds_release hne
  nets := rfl
  fresh id hlock hnew row' hrow' hid := by
    obtain ⟨old, hold, rfl⟩ := mem_commit.mp hrow'
    rw [Device.id_assign] at hid
    rcases Tables.mem_withDevice.mp hold with hmem | hinserted
    · exact hnew old hmem hid
    have hheld := (h.staged k old hinserted).2.1
    rw [hid, hlock] at hheld
    exact hne (Option.some.inj hheld)
  row row hrow := by
    have hmem : row ∈ s.db.withDevice (s.writes k) := Tables.mem_withDevice.mpr (.inl hrow)
    exact ⟨_, mem_commit.mpr ⟨row, hmem, rfl⟩, by simp, by simp,
      h.assign_eq_of_pool howned hne hmem⟩
  used tenant a hlock ha hused := by
    obtain ⟨row, hrow, htenant, hv4⟩ := Tables.mem_used.mp hused
    obtain ⟨old, hold, rfl⟩ := mem_commit.mp hrow
    rw [Device.tenantId_assign] at htenant
    rw [h.assign_eq_of_pool howned hne hold (htenant ▸ hlock)] at hv4
    rcases h.bare_or_mem hold with hbare | hmem
    · cases hbare.1.symm.trans hv4
    · exact ha (Tables.mem_used.mpr ⟨old, hmem, htenant, hv4⟩)
  unique o hlocks hunique row' hrow' hid := by
    obtain ⟨old, hold, rfl⟩ := mem_commit.mp hrow'
    rw [Device.id_assign] at hid
    rcases h.assign_cases howned hold with hsame | ⟨o', nets', ho', howns'⟩
    · rw [hsame]
      rcases h.bare_or_mem hold with hbare | hmem
      · simp [hbare.1, hbare.2]
      · exact hunique old hmem hid
    -- The new addresses of this row are entries of the indexes that call `k` has locked.
    rw [ho', Device.assign_self howns'.id]
    have hdiffer : ∀ c ∈ o'.locks, c ∉ o.locks := fun c hc hc' =>
      hne (Option.some.inj ((hlocks c hc').symm.trans (howns'.locks c hc)))
    refine ⟨fun heq => ?_, fun heq => ?_⟩
    · exact hdiffer (.overlayIpv4 o'.ipv4) (by simp [Overlay.locks])
        (by simp [Overlay.locks, Option.some.inj heq])
    · exact hdiffer (.overlayIpv6 o'.ipv6) (by simp [Overlay.locks])
        (by simp [Overlay.locks, Option.some.inj heq])

theorem kept_commit (hrow : row ∈ s.db.devices) (haddr : ¬ row.Bare) :
    row ∈ (s.commit k outcome).db.devices := by
  have hmem : row ∈ s.db.withDevice (s.writes k) := Tables.mem_withDevice.mpr (.inl hrow)
  refine mem_commit.mpr ⟨row, hmem, ?_⟩
  rcases h.assign_cases howned hmem with hsame | ⟨o, nets, -, howns⟩
  · exact hsame
  · exact absurd howns.bare haddr

theorem addressed_commit (hrow : row ∈ (s.commit k outcome).db.devices) :
    row.Addressed (s.commit k outcome).db := by
  obtain ⟨old, hold, rfl⟩ := mem_commit.mp hrow
  rcases h.assign_cases howned hold with hsame | ⟨o, nets, ho, howns⟩
  · rw [hsame]
    rcases h.bare_or_mem hold with hbare | hmem
    · exact .inl hbare
    · exact h.addressed old hmem
  · rw [ho, Device.assign_self howns.id]
    exact .inr ⟨nets, o.ipv4, howns.locked.2, howns.usable, rfl, congrArg some howns.ipv6⟩

theorem distinct_commit : (s.commit k outcome).db.Distinct := by
  intro row hrow row' hrow' hid
  obtain ⟨old, hold, rfl⟩ := mem_commit.mp hrow
  obtain ⟨old', hold', rfl⟩ := mem_commit.mp hrow'
  simp only [Device.id_assign] at hid
  rcases h.assign_cases howned hold with hsame | ⟨o, nets, ho, howns⟩
  · rcases h.assign_cases howned hold' with hsame' | ⟨o, nets, ho, howns⟩
    · rw [hsame, hsame']
      rcases h.bare_or_mem hold with hbare | hmem
      · exact hbare.apart _
      rcases h.bare_or_mem hold' with hbare' | hmem'
      · exact (hbare'.apart _).symm
      · exact h.distinct old hmem old' hmem' hid
    · rw [hsame, ho]
      exact h.apart_of_owns howns hold hid
  · have hsame' : old'.assign (s.writes k).overlay = old' := by
      refine Device.assign_of_ne fun o' ho' hid' => hid ?_
      rw [howns.id, hid', Option.some.inj (ho.symm.trans ho')]
    rw [hsame', ho]
    exact (h.apart_of_owns howns hold' hid.symm).symm

end AddressInv

/-! ### A step -/

theorem Tables.findDevice_eq (hids : (t.devices.map (·.id)).Nodup)
    (hrow : row ∈ t.devices) : t.findDevice row.tenantId row.id = some row := by
  cases hfind : t.findDevice row.tenantId row.id with
  | none => simpa using List.find?_eq_none.mp hfind row hrow
  | some row' =>
    have hsame : row'.id = row.id ∧ row'.tenantId = row.tenantId := by
      simpa using List.find?_some hfind
    rw [List.inj_on_of_nodup_map hids (List.mem_of_find?_eq_some hfind) hrow hsame.1]

namespace AddressInv

variable (h : AddressInv s)
include h

variable {locks : List Lock} {e : Option (Enrolling C)} {device : DeviceId}

theorem addressed_withDevice (hrow : row ∈ s.db.withDevice (s.writes k)) : row.Addressed s.db := by
  rcases h.bare_or_mem hrow with hbare | hmem
  · exact .inl hbare
  · exact h.addressed row hmem

theorem findDevice_view (hoverlay : (s.writes k).overlay = none)
    (hrow : row ∈ s.db.withDevice (s.writes k)) :
    (s.view k).findDevice row.tenantId row.id = some row := by
  refine Tables.findDevice_eq ?_ ?_ <;> rw [devices_view hoverlay]
  · exact h.nodup_withDevice
  · exact hrow

variable [DecidableEq ι]

theorem staged_goto {e : Event C ι} {phase : Phase C} {writes : Writes}
    (hadvance : Advance B s e phase locks writes) :
    Staged (s.goto e.call phase locks writes) e.call writes := by
  have hleaves : Leaves s (s.goto e.call phase locks writes) e.call :=
    .of_db rfl fun c => holds_acquire hadvance.free
  cases hadvance with
  | @create k now e keyProvider hphase hcheck hkey hnew hclass hfree =>
    rintro row ⟨⟩
    refine ⟨⟨rfl, rfl⟩, acquire_of_mem (List.mem_singleton_self _), fun old hold hid => ?_⟩
    rw [devices_view (h.placedAt hphase).2, List.any_eq_false] at hnew
    exact hnew old (Tables.mem_withDevice.mpr (.inl hold)) (decide_eq_true hid)
  | _ => exact hleaves.staged (h.staged _)

theorem allocInv_goto {phase phase' : AllocPhase}
    (hphase : s.phase k = .allocating e tenant device phase)
    (hnext : s.allocNext k tenant device phase = .go locks phase') :
    Placed (s.goto k (.allocating e tenant device phase') locks (s.writes k)) k (s.writes k)
      (.allocating e tenant device phase') := by
  obtain ⟨hoverlay, row, hrow, rfl, rfl, hinv⟩ := h.placedAt hphase
  refine ⟨hoverlay, row, hrow, rfl, rfl, ?_⟩
  rcases allocNext_go hnext with ⟨rfl, rfl, -, pool, nets, hpool, hnets, rfl⟩ |
    ⟨nets, rfl, rfl, rfl, hread⟩ | ⟨nets, a, rfl, rfl, rfl, hfound⟩
  · refine ⟨acquire_of_mem (List.mem_singleton_self _), ?_⟩
    change s.db.pools row.tenantId = some pool at hpool
    change s.db.nets row.tenantId = some nets
    rw [Tables.nets, hpool, Option.bind_some, hnets]
    rfl
  · refine ⟨hinv, ?_⟩
    rcases h.addressed_withDevice hrow with hbare | ⟨nets', a, -, -, hv4, hv6⟩
    · exact hbare
    rcases hread row (h.findDevice_view hoverlay hrow) with hnone | hnone
    · cases hv4.symm.trans hnone
    · cases hv6.symm.trans hnone
  obtain ⟨husable, hunused⟩ : nets.Usable a ∧ a ∉ (s.view k).used row.tenantId := by
    simpa only [hfound] using lowestFree_pool nets ((s.view k).used row.tenantId)
  refine ⟨hinv.1, hinv.2, husable, rfl, fun hused => hunused ?_⟩
  obtain ⟨row', hrow', htenant, hv4⟩ := Tables.mem_used.mp hused
  refine Tables.mem_used.mpr ⟨row', ?_, htenant, hv4⟩
  rw [devices_view hoverlay]
  exact Tables.mem_withDevice.mpr (.inl hrow')

theorem owned_goto {phase : AllocPhase} {overlay : Option Overlay} {r : IpNet × IpNet}
    {phase' : Phase C} (hphase : s.phase k = .allocating e tenant device phase)
    (hnext : s.allocNext k tenant device phase = .done locks overlay (.ok r)) :
    Owned (s.goto k phase' locks { s.writes k with overlay := overlay }) k
      { s.writes k with overlay := overlay } := by
  obtain ⟨hoverlay, row, hrow, rfl, rfl, hinv⟩ := h.placedAt hphase
  intro o ho
  rcases allocNext_ok hnext with ⟨nets, row', a, b, -, -, rfl, -⟩ |
    ⟨nets, a, b, rfl, -, ⟨-, rfl, -⟩ | ⟨rfl, rfl, hfree, hunique⟩⟩
  · cases ho
  · cases ho
  cases ho
  obtain ⟨hlocked, hbare, husable, hb, -⟩ := hinv
  refine ⟨row, nets, hrow, rfl, hbare, ?_, husable, hb, fun row' hrow' => ?_, fun c hc => ?_⟩
  · exact ⟨holds_acquire hfree hlocked.1, hlocked.2⟩
  · refine hunique row' ?_
    rw [devices_view hoverlay]
    exact Tables.mem_withDevice.mpr (.inl hrow')
  · exact acquire_of_mem hc

end AddressInv

/-- A call of `allocate` names a device and its tenant. -/
def ForItsTenant (s : System C ι) : Event C ι → Prop
  | .allocate _ tenant device => ∃ row ∈ s.db.devices, row.id = device ∧ row.tenantId = tenant
  | _ => True

instance decidableForItsTenant (s : System C ι) : (e : Event C ι) → Decidable (ForItsTenant s e)
  | .allocate _ tenant device =>
    inferInstanceAs (Decidable (∃ row ∈ s.db.devices, row.id = device ∧ row.tenantId = tenant))
  | .enroll .. | .next .. | .fail _ => isTrue trivial

section
variable [DecidableEq ι] {e : Event C ι}

theorem AddressInv.placed_goto (h : AddressInv s) (hevent : ForItsTenant s e) {phase : Phase C}
    {locks : List Lock} {writes : Writes} (hadvance : Advance B s e phase locks writes) :
    Placed (s.goto e.call phase locks writes) e.call writes phase := by
  have hleaves : Leaves s (s.goto e.call phase locks writes) e.call :=
    .of_db rfl fun c => holds_acquire hadvance.free
  cases hadvance with
  | allocate hphase =>
    obtain ⟨row, hrow, hid, htenant⟩ := hevent
    exact ⟨(h.placedAt hphase).2, row, Tables.mem_withDevice.mpr (.inl hrow), hid, htenant, trivial⟩
  | create hphase =>
    exact ⟨(h.placedAt hphase).2, _, rfl, rfl, rfl⟩
  | podsDone hphase =>
    obtain ⟨hoverlay, row, hrow, hid, htenant⟩ := h.placedAt hphase
    exact ⟨hoverlay, row, Tables.mem_withDevice.mpr (.inr hrow), hid, htenant, trivial⟩
  | alloc hphase hnext => exact h.allocInv_goto hphase hnext
  | allocated hphase hnext | returned hphase hnext => exact h.owned_goto hphase hnext
  | record hphase | issue hphase =>
    exact hleaves.owned (h.placedAt hphase) rfl rfl
  | enroll hphase | consume hphase | count hphase | pod hphase =>
    exact h.placedAt hphase

theorem AddressInv.step (h : AddressInv s) (hevent : ForItsTenant s e) :
    AddressInv (step B s e) := by
  have hmoves := step_moves (B := B) s e
  generalize Enrollment.step B s e = s' at hmoves
  -- The calls that do not move, and then the one that does.
  have hothers : ∀ k, k ≠ e.call →
      Staged s' k (s'.writes k) ∧ Placed s' k (s'.writes k) (s'.phase k) := by
    intro k hne
    have hleaves : Leaves s s' k := by
      rcases hmoves.db_cases with hdb | ⟨outcome, hphase, rfl⟩
      · exact .of_db hdb fun c => hmoves.holder hne
      · exact h.leaves_commit (h.placedAt hphase) hne
    rw [(hmoves.frame hne).1, (hmoves.frame hne).2]
    exact ⟨hleaves.staged (h.staged k), hleaves.placed (h.placed k)⟩
  have hcalls : Staged s' e.call (s'.writes e.call) →
      Placed s' e.call (s'.writes e.call) (s'.phase e.call) →
      ∀ k, Staged s' k (s'.writes k) ∧ Placed s' k (s'.writes k) (s'.phase k) := by
    intro hstaged hplaced k
    by_cases hk : k = e.call
    · exact hk ▸ ⟨hstaged, hplaced⟩
    · exact hothers k hk
  cases hmoves with
  | stay => exact h
  | goto phase locks writes hadvance =>
    have hall := hcalls (by simpa using h.staged_goto hadvance)
      (by simpa using h.placed_goto hevent hadvance)
    exact ⟨h.ids, h.addressed, h.distinct, fun k => (hall k).1, fun k => (hall k).2⟩
  | rollback status hlive =>
    have hall := hcalls (by simp [Staged, Writes.none]) (by simp [Placed, Writes.none])
    exact ⟨h.ids, h.addressed, h.distinct, fun k => (hall k).1, fun k => (hall k).2⟩
  | commit outcome hphase =>
    have howned := h.placedAt hphase
    have hall := hcalls (by simp [Staged, Writes.none]) (by simp [Placed, Writes.none])
    exact ⟨h.nodup_commit, fun row => h.addressed_commit howned, h.distinct_commit howned,
      fun k => (hall k).1, fun k => (hall k).2⟩

theorem AddressInv.kept (h : AddressInv s) (e : Event C ι) (hrow : row ∈ s.db.devices)
    (haddr : ¬ row.Bare) :
    row ∈ (Enrollment.step B s e).db.devices := by
  rcases (step_moves (B := B) s e).db_cases with hdb | ⟨outcome, hphase, hcommit⟩
  · exact hdb ▸ hrow
  · rw [hcommit]
    exact h.kept_commit (h.placedAt hphase) hrow haddr

end

/-! ### Results -/

/-- What the next statement of a call makes `allocate` return, and for which tenant. -/
def System.returned [DecidableEq ι] (s : System C ι) (k : ι) :
    Option (TenantId × Except IpamError (IpNet × IpNet)) :=
  match s.phase k with
  | .allocating _ tenant device phase =>
    match s.allocNext k tenant device phase with
    | .done _ _ result => some (tenant, result)
    | _ => none
  | _ => none

/-- What `allocate` may return for a tenant: usable addresses of its networks, or an error if a
device has each of them. -/
def Returns (t : Tables) (nets : Nets) : Except IpamError (IpNet × IpNet) → Prop
  | .ok r => ∃ a b, r = nets.result a b ∧ nets.Usable a ∧ nets.HasIpv6 b
  | .error _ => ∀ a, nets.Usable a → ∃ row ∈ t.devices, row.overlayIpv4 = some a

/-- No two tenants have an address in common, and the IPv6 networks have room for the host part of
an IPv4 address. -/
structure Tables.PoolsApart (t : Tables) : Prop where
  fits : ∀ tenant nets, t.nets tenant = some nets → nets.Fits
  ipv4 : ∀ tenant tenant' nets nets', tenant ≠ tenant' → t.nets tenant = some nets →
    t.nets tenant' = some nets' → ∀ a, nets.Usable a → ¬ nets'.Usable a
  ipv6 : ∀ tenant tenant' nets nets', tenant ≠ tenant' → t.nets tenant = some nets →
    t.nets tenant' = some nets' → ∀ b, nets.HasIpv6 b → ¬ nets'.HasIpv6 b

/-- No device has addresses yet. The ids are a primary key. -/
structure Tables.Unassigned (t : Tables) : Prop where
  ids : (t.devices.map (·.id)).Nodup
  bare : ∀ row ∈ t.devices, row.Bare

theorem AddressInv.init {start : Tables} (hstart : start.Unassigned) :
    AddressInv (System.init C ι start) where
  ids := hstart.ids
  addressed row hrow := .inl (hstart.bare row hrow)
  distinct row hrow row' _ _ := (hstart.bare row hrow).apart row'
  staged _ _ hrow := nomatch hrow
  placed _ := ⟨rfl, rfl⟩

theorem AddressInv.unique (h : AddressInv s) (hpools : s.db.PoolsApart)
    (hnets : s.db.nets row.tenantId = some nets) (husable : nets.Usable a)
    (hunused : a ∉ s.db.used row.tenantId) (hrow' : row' ∈ s.db.devices) :
    row'.overlayIpv4 ≠ some a ∧ row'.overlayIpv6 ≠ some (nets.ipv6For a) := by
  have hfits := hpools.fits _ nets hnets
  rcases h.addressed row' hrow' with hbare | ⟨nets', a', hnets', husable', ha', hb'⟩
  · simp [hbare.1, hbare.2]
  rw [ha', hb']
  -- Within the tenant the search has looked, and other tenants have other addresses.
  by_cases htenant : row'.tenantId = row.tenantId
  · rw [htenant, hnets] at hnets'
    cases hnets'
    have hne : a' ≠ a := by
      rintro rfl
      exact hunused (Tables.mem_used.mpr ⟨row', hrow', htenant, ha'⟩)
    exact ⟨fun heq => hne (Option.some.inj heq), fun heq =>
      hne (Nets.ipv6For_inj hfits husable' husable (Option.some.inj heq))⟩
  · have hfits' := hpools.fits _ nets' hnets'
    refine ⟨fun heq => ?_, fun heq => ?_⟩
    · cases heq
      exact hpools.ipv4 _ _ nets' nets htenant hnets' hnets _ husable' husable
    refine hpools.ipv6 _ _ nets' nets htenant hnets' hnets _
      (Nets.toNat_ipv6For hfits' husable').2 ?_
    rw [Option.some.inj heq]
    exact (Nets.toNat_ipv6For hfits husable).2

section
variable [DecidableEq ι]

theorem returned_cases {result : Except IpamError (IpNet × IpNet)}
    (h : s.returned k = some (tenant, result)) :
    ∃ e device phase locks overlay, s.phase k = .allocating e tenant device phase ∧
      s.allocNext k tenant device phase = .done locks overlay result := by
  unfold System.returned at h
  split at h
  · next hphase =>
    split at h
    · next hnext =>
      cases h
      exact ⟨_, _, _, _, _, hphase, hnext⟩
    · cases h
  · cases h

theorem AddressInv.returned_ok (h : AddressInv s) (hpools : s.db.PoolsApart) {r : IpNet × IpNet}
    (hreturned : s.returned k = some (tenant, .ok r)) (hnets : s.db.nets tenant = some nets) :
    Returns s.db nets (.ok r) := by
  obtain ⟨e, device, phase, locks, overlay, hphase, hnext⟩ := returned_cases hreturned
  have hfits := hpools.fits tenant nets hnets
  obtain ⟨hoverlay, row, hrow, rfl, rfl, hinv⟩ := h.placedAt hphase
  -- The networks that the call has read are those of the tenant's pool now.
  have hsame : ∀ nets', s.db.nets row.tenantId = some nets' → nets' = nets := fun nets' hnets' =>
    Option.some.inj (hnets'.symm.trans hnets)
  rcases allocNext_ok hnext with ⟨nets', row', a, b, rfl, -, -, rfl, hfind, ha, hb⟩ |
    ⟨nets', a, b, rfl, rfl, -⟩
  · -- The device has addresses.
    obtain rfl := hsame nets' hinv.2
    obtain rfl : row = row' :=
      Option.some.inj ((h.findDevice_view hoverlay hrow).symm.trans hfind)
    rcases h.addressed_withDevice hrow with hbare | ⟨nets'', a', hnets'', husable, ha', hb'⟩
    · cases hbare.1.symm.trans ha
    obtain rfl := hsame nets'' hnets''
    cases ha.symm.trans ha'
    cases hb.symm.trans hb'
    exact ⟨_, _, rfl, husable, (Nets.toNat_ipv6For hfits husable).2⟩
  · obtain ⟨hlocked, -, husable, rfl, -⟩ := hinv
    obtain rfl := hsame nets' hlocked.2
    exact ⟨_, _, rfl, husable, (Nets.toNat_ipv6For hfits husable).2⟩

theorem AddressInv.returned_error (h : AddressInv s) (hpools : s.db.PoolsApart) {err : IpamError}
    (hreturned : s.returned k = some (tenant, .error err)) (hnets : s.db.nets tenant = some nets) :
    Returns s.db nets (.error err) := by
  obtain ⟨e, device, phase, locks, overlay, hphase, hnext⟩ := returned_cases hreturned
  obtain ⟨hoverlay, row, hrow, rfl, rfl, hinv⟩ := h.placedAt hphase
  rcases allocNext_error hnext with hpool | ⟨pool, hpool, hbad⟩ | ⟨nets', rfl, hnone⟩ |
    ⟨nets', a, b, rfl, hclash⟩
  · change s.db.pools row.tenantId = none at hpool
    rw [Tables.nets, hpool] at hnets
    cases hnets
  · change s.db.pools row.tenantId = some pool at hpool
    rw [Tables.nets, hpool, Option.bind_some, hbad] at hnets
    cases hnets
  · -- Every address of the pool is used, and the device of the call has none.
    cases hinv.1.2.symm.trans hnets
    intro a husable
    have hall : ∀ a, nets.Usable a → a ∈ (s.view k).used row.tenantId := by
      simpa only [hnone] using lowestFree_pool nets ((s.view k).used row.tenantId)
    obtain ⟨row', hrow', -, hv4⟩ := Tables.mem_used.mp (hall a husable)
    rw [devices_view hoverlay] at hrow'
    rcases h.bare_or_mem hrow' with hbare | hmem
    · cases hbare.1.symm.trans hv4
    · exact ⟨row', hmem, hv4⟩
  · -- The indexes have no entry for the addresses.
    obtain ⟨hlocked, -, husable, rfl, hunused⟩ := hinv
    refine absurd (fun row' hrow' _ => ?_) hclash
    rw [devices_view hoverlay] at hrow'
    rcases h.bare_or_mem hrow' with hbare | hmem
    · simp [hbare.1, hbare.2]
    · exact h.unique hpools hlocked.2 husable hunused hmem

end

/-- In every interleaving of enrollments and of other calls of `allocate`, if the pools are apart
and each of these other calls names the tenant of its device: no two devices have an address in
common, `allocate` returns what it should, and a device that has addresses keeps them in everything
that follows. -/
theorem overlay_addresses [DecidableEq ι] (B : BindingImpl) (start : Tables)
    (hstart : start.Unassigned) (hpools : start.PoolsApart) (events : List (Event C ι))
    (hevents : Guarded (step B) ForItsTenant (System.init C ι start) events) :
    let s := run (step B) (System.init C ι start) events
    s.db.Distinct ∧
      (∀ k tenant nets result, s.returned k = some (tenant, result) →
        s.db.nets tenant = some nets → Returns s.db nets result) ∧
      ∀ more, Guarded (step B) ForItsTenant s more →
        ∀ row ∈ s.db.devices, ∀ row' ∈ (run (step B) s more).db.devices, row'.id = row.id →
          (∀ a, row.overlayIpv4 = some a → row'.overlayIpv4 = some a) ∧
            ∀ b, row.overlayIpv6 = some b → row'.overlayIpv6 = some b := by
  intro s
  have hstep : ∀ (s : System C ι) e, AddressInv s ∧ s.db.PoolsApart → ForItsTenant s e →
      AddressInv (step B s e) ∧ (step B s e).db.PoolsApart := by
    intro s e h hevent
    refine ⟨h.1.step hevent, ?_⟩
    rcases (step_moves (B := B) s e).db_cases with hdb | ⟨outcome, -, hcommit⟩
    · exact hdb ▸ h.2
    · rw [hcommit]
      exact ⟨h.2.fits, h.2.ipv4, h.2.ipv6⟩
  have hinv : AddressInv s ∧ s.db.PoolsApart :=
    Guarded.invariant hstep ⟨AddressInv.init hstart, hpools⟩ hevents
  refine ⟨hinv.1.distinct, fun k tenant nets result hreturned hnets => ?_, ?_⟩
  · cases result with
    | ok r => exact hinv.1.returned_ok hinv.2 hreturned hnets
    | error err => exact hinv.1.returned_error hinv.2 hreturned hnets
  intro more hmore row hrow row' hrow' hid
  have hkept : AddressInv (run (step B) s more) ∧
      (¬ row.Bare → row ∈ (run (step B) s more).db.devices) := by
    refine Guarded.invariant (I := fun t => AddressInv t ∧ (¬ row.Bare → row ∈ t.db.devices))
      (fun t e h hevent => ⟨h.1.step hevent, fun haddr => h.1.kept e (h.2 haddr) haddr⟩)
      ⟨hinv.1, fun _ => hrow⟩ hmore
  have hsame : ¬ row.Bare → row' = row := fun haddr =>
    List.inj_on_of_nodup_map hkept.1.ids hrow' (hkept.2 haddr) hid
  refine ⟨fun a ha => ?_, fun b hb => ?_⟩
  · rw [hsame fun hbare => nomatch hbare.1.symm.trans ha]
    exact ha
  · rw [hsame fun hbare => nomatch hbare.2.symm.trans hb]
    exact hb

/-! ### Runs -/

def smallPool (x : BitVec 32) (v6 : BitVec 128) (v6Len : ℕ) (h : v6Len ≤ 128) : Pool :=
  ⟨⟨.v4 (0x0a000000#32 ||| x <<< 16), 29, (by decide : 29 ≤ 32)⟩, ⟨.v6 v6, v6Len, h⟩⟩

def twoTenants (pool7 pool8 : Pool) : Tables :=
  { oneUse with
    devices := [{ tenantId := 8, name := "hub", kind := "agent", status := "active",
                  deviceClassId := none, fingerprint := none, keyProvider := "software", id := 3,
                  overlayIpv4 := none, overlayIpv6 := none }]
    pools := fun tenant =>
      if tenant = 7 then some pool7 else if tenant = 8 then some pool8 else none }

def enrollFirst : List (Event transparentHybrid Bool) :=
  .enroll false ⟨⟨"token", some (tpmCsr 5), none, none, "laptop"⟩, none, 1, quietCa⟩ ::
    List.replicate 11 (.next false 1000)

def allocateThird (tenant : TenantId) : List (Event transparentHybrid Bool) :=
  .allocate true tenant 3 :: List.replicate 3 (.next true 1000)

def finishThird : List (Event transparentHybrid Bool) := List.replicate 2 (.next true 1000)

def after (start : Tables) (events : List (Event transparentHybrid Bool)) :
    System transparentHybrid Bool :=
  run (step transparentBinding) (System.init transparentHybrid Bool start) events

def apartPools : Tables :=
  twoTenants (smallPool 7 (7#128 <<< 64) 64 (by decide)) (smallPool 8 (8#128 <<< 64) 64 (by decide))

theorem apartPools_cases (h : apartPools.nets tenant = some nets) :
    (tenant = 7 ∧ nets = ⟨0x0a070000#32, 29, by decide, 7#128 <<< 64, 64, by decide⟩) ∨
      (tenant = 8 ∧ nets = ⟨0x0a080000#32, 29, by decide, 8#128 <<< 64, 64, by decide⟩) := by
  by_cases h7 : tenant = 7
  · subst h7
    exact .inl ⟨rfl, (Option.some.inj h).symm⟩
  by_cases h8 : tenant = 8
  · subst h8
    exact .inr ⟨rfl, (Option.some.inj h).symm⟩
  have hnone : apartPools.pools tenant = none := (if_neg h7).trans (if_neg h8)
  rw [Tables.nets, hnone] at h
  cases h

theorem overlay_addresses_two :
    apartPools.Unassigned ∧ apartPools.PoolsApart ∧
      let s := after apartPools (enrollFirst ++ allocateThird 8 ++ finishThird)
      s.db.Distinct ∧
        s.db.devices.map (·.overlayIpv4) = [some 0x0a080002#32, some 0x0a070002#32] := by
  have hstart : apartPools.Unassigned := ⟨by decide, by unfold Device.Bare; decide⟩
  have hpools : apartPools.PoolsApart := by
    refine ⟨fun tenant nets h => ?_, fun tenant tenant' nets nets' hne h h' a ha ha' => ?_,
      fun tenant tenant' nets nets' hne h h' b hb hb' => ?_⟩
    · rcases apartPools_cases h with ⟨-, rfl⟩ | ⟨-, rfl⟩ <;> unfold Nets.Fits <;> decide
    · rcases apartPools_cases h with ⟨rfl, rfl⟩ | ⟨rfl, rfl⟩ <;>
        rcases apartPools_cases h' with ⟨rfl, rfl⟩ | ⟨rfl, rfl⟩
      · exact hne rfl
      · exact absurd (BitVec.le_trans ha'.1.1 ha.1.2) (by decide)
      · exact absurd (BitVec.le_trans ha.1.1 ha'.1.2) (by decide)
      · exact hne rfl
    rcases apartPools_cases h with ⟨rfl, rfl⟩ | ⟨rfl, rfl⟩ <;>
      rcases apartPools_cases h' with ⟨rfl, rfl⟩ | ⟨rfl, rfl⟩
    · exact hne rfl
    · exact absurd (BitVec.le_trans hb'.1 hb.2) (by decide)
    · exact absurd (BitVec.le_trans hb.1 hb'.2) (by decide)
    · exact hne rfl
  refine ⟨hstart, hpools, ?_, by decide +kernel⟩
  exact (overlay_addresses transparentBinding apartPools hstart hpools
    (enrollFirst ++ allocateThird 8 ++ finishThird) (by decide +kernel)).1

/-- Two tenants with the default pool: after tenant 7 has enrolled a device, `allocate` fails for
tenant 8, although the next address is free. An IPv6 network of one address: the address that
`allocate` returns is not in it. A device of tenant 8 that is passed with tenant 7 gets another
address. -/
theorem overlay_addresses_clash :
    (let s := after (twoTenants defaultPool defaultPool) (enrollFirst ++ allocateThird 8)
      ∃ nets result, s.returned true = some (8, result) ∧ s.db.nets 8 = some nets ∧
        ¬ Returns s.db nets result) ∧
    (let s := after (twoTenants defaultPool (smallPool 8 8 128 (by decide))) (allocateThird 8)
      ∃ nets result, s.returned true = some (8, result) ∧ s.db.nets 8 = some nets ∧
        ¬ Returns s.db nets result) ∧
    (after apartPools (allocateThird 8 ++ finishThird)).db.devices.map (·.overlayIpv4) =
      [some 0x0a080002#32] ∧
    (after apartPools (allocateThird 8 ++ finishThird ++
        [.allocate false 7 3, .next false 0, .next false 0, .next false 0, .next false 0,
          .next false 0])).db.devices.map (·.overlayIpv4) = [some 0x0a070002#32] := by
  refine ⟨⟨⟨0x64400000#32, 10, by decide, 0xfd000a70000000000000000000000000#128, 48, by decide⟩,
    .error (.unique "overlay_ipv4"), by decide +kernel, by decide +kernel, fun h => ?_⟩,
    ⟨⟨0x0a080000#32, 29, by decide, 8, 128, by decide⟩,
      .ok (⟨.v4 0x0a080002#32, 29, (by decide : 29 ≤ 32)⟩,
        ⟨.v6 0xa#128, 128, (by decide : 128 ≤ 128)⟩),
      by decide +kernel, by decide +kernel, ?_⟩, by decide +kernel, by decide +kernel⟩
  · obtain ⟨row, hrow, hv4⟩ := h 0x64400003#32 (by decide)
    have hfree : ∀ row ∈ (after (twoTenants defaultPool defaultPool)
        (enrollFirst ++ allocateThird 8)).db.devices, row.overlayIpv4 ≠ some 0x64400003#32 := by
      decide +kernel
    exact hfree row hrow hv4
  rintro ⟨a, b, hresult, -, hb⟩
  cases hresult
  revert hb
  decide

end Avon.Control.Enrollment
