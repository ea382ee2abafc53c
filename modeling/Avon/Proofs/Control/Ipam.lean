import Avon.Control.Ipam
import Avon.Proofs.Net

/-!
# What `allocate` chooses

The addresses that `allocate` tries are those of the pool without its first two and its last
(`usable_iff`), and it takes the first that is not used. The IPv6 address is inside the pool if the
host part of an IPv4 address fits behind its prefix.
-/

set_option autoImplicit false

namespace Avon.Control.Enrollment

open Avon.Crypto

/-! ### Addresses of a pool -/

namespace Nets

variable {n : Nets} {a b : BitVec 32}

/-- An IPv4 address of the pool that is not its network, first-host or broadcast address. -/
def Usable (n : Nets) (a : BitVec 32) : Prop :=
  (n.base ≤ a ∧ a ≤ netHigh n.v4 n.v4Len) ∧ a ≠ n.base ∧ a ≠ n.base + 1 ∧ a ≠ netHigh n.v4 n.v4Len

instance (n : Nets) (a : BitVec 32) : Decidable (n.Usable a) :=
  inferInstanceAs (Decidable ((_ ∧ _) ∧ _ ∧ _ ∧ _))

def HasIpv6 (n : Nets) (a : BitVec 128) : Prop :=
  netLow n.v6 n.v6Len ≤ a ∧ a ≤ netHigh n.v6 n.v6Len

instance (n : Nets) (a : BitVec 128) : Decidable (n.HasIpv6 a) := inferInstanceAs (Decidable
    (_ ∧ _))

/-- The host part of an IPv4 address fits behind the IPv6 prefix. -/
def Fits (n : Nets) : Prop := 32 - n.v4Len ≤ 128 - n.v6Len

theorem base_add_size_le (n : Nets) : n.base.toNat + n.size ≤ 2 ^ 32 :=
  toNat_netLow_add_le n.v4 n.v4Valid

theorem toNat_base_add (n : Nets) {off : ℕ} (h : off < n.size) :
    (n.base + BitVec.ofNat 32 off).toNat = n.base.toNat + off := by
  have hle := n.base_add_size_le
  rw [BitVec.toNat_add, BitVec.toNat_ofNat]
  omega

theorem usable_iff :
    n.Usable a ↔ ∃ off, 2 ≤ off ∧ off < n.size - 1 ∧ a = n.base + BitVec.ofNat 32 off := by
  have hle := n.base_add_size_le
  have hhigh : (netHigh n.v4 n.v4Len).toNat = n.base.toNat + (n.size - 1) :=
    toNat_netHigh n.v4 n.v4Valid
  have hpos : 0 < n.size := Nat.two_pow_pos _
  have hone : (n.base + 1).toNat = (n.base.toNat + 1) % 2 ^ 32 := BitVec.toNat_add _ _
  constructor
  · rintro ⟨hnet, hbase, hfirst, hlast⟩
    obtain ⟨hlow, hup⟩ := (mem_net_iff n.v4 a n.v4Valid).mp hnet
    change n.base.toNat ≤ a.toNat at hlow
    change a.toNat < n.base.toNat + n.size at hup
    have hoff : a = n.base + BitVec.ofNat 32 (a.toNat - n.base.toNat) := by
      apply BitVec.eq_of_toNat_eq
      rw [n.toNat_base_add (by omega)]
      omega
    -- The three addresses that are left out are the offsets 0, 1 and `size - 1`.
    have h0 : a.toNat ≠ n.base.toNat := fun h => hbase (BitVec.eq_of_toNat_eq h)
    have h1 : a.toNat ≠ n.base.toNat + 1 := by
      intro h
      refine hfirst (BitVec.eq_of_toNat_eq ?_)
      have := a.isLt
      rw [hone]
      omega
    have h2 : a.toNat ≠ n.base.toNat + (n.size - 1) := fun h =>
      hlast (BitVec.eq_of_toNat_eq (h.trans hhigh.symm))
    exact ⟨_, by omega, by omega, hoff⟩
  · rintro ⟨off, htwo, hoff, rfl⟩
    have htoNat := n.toNat_base_add (show off < n.size by omega)
    refine ⟨(mem_net_iff n.v4 _ n.v4Valid).mpr ?_, fun h => ?_, fun h => ?_, fun h => ?_⟩
    · change n.base.toNat ≤ _ ∧ _ < n.base.toNat + n.size
      omega
    all_goals
      have h' := congrArg BitVec.toNat h
      omega

theorem toNat_ipv6For (hfits : n.Fits) (h : n.Usable a) :
    (n.ipv6For a).toNat = (netLow n.v6 n.v6Len).toNat + (a.toNat - n.base.toNat) ∧
      n.HasIpv6 (n.ipv6For a) := by
  obtain ⟨off, htwo, hoff, rfl⟩ := usable_iff.mp h
  have hsize : n.size ≤ 2 ^ (128 - n.v6Len) := Nat.pow_le_pow_right (by decide) hfits
  have hle := n.base_add_size_le
  have hback : n.base + BitVec.ofNat 32 off - n.base = BitVec.ofNat 32 off := by
    rw [add_sub_cancel_left]
  have hhost : ((BitVec.ofNat 32 off).setWidth 128).toNat = off := by
    rw [BitVec.toNat_setWidth, BitVec.toNat_ofNat]
    omega
  -- The offset fits below the prefix, so the `|||` adds.
  have htoNat : (n.ipv6For (n.base + BitVec.ofNat 32 off)).toNat =
      (netLow n.v6 n.v6Len).toNat + off := by
    rw [ipv6For, hback, toNat_netLow_or _ _ n.v6Valid (by omega), hhost]
  have hbase := n.toNat_base_add (show off < n.size by omega)
  refine ⟨by rw [htoNat, hbase, Nat.add_sub_cancel_left], ?_⟩
  refine (mem_net_iff n.v6 _ n.v6Valid).mpr ?_
  omega

theorem ipv6For_inj (hfits : n.Fits) (ha : n.Usable a) (hb : n.Usable b)
    (h : n.ipv6For a = n.ipv6For b) : a = b := by
  obtain ⟨hlow, -⟩ := (mem_net_iff n.v4 a n.v4Valid).mp ha.1
  obtain ⟨hlow', -⟩ := (mem_net_iff n.v4 b n.v4Valid).mp hb.1
  change n.base.toNat ≤ _ at hlow hlow'
  have hnat := congrArg BitVec.toNat h
  rw [(toNat_ipv6For hfits ha).1, (toNat_ipv6For hfits hb).1] at hnat
  exact BitVec.eq_of_toNat_eq (by omega)

end Nets

/-- The search takes the first address that is not used, and gives up if there is none. -/
theorem lowestFree_cases (base : BitVec 32) (used : List (BitVec 32)) (off count : ℕ) :
    match lowestFree base used off count with
    | some a => a ∉ used ∧ ∃ i, off ≤ i ∧ i < off + count ∧ a = base + BitVec.ofNat 32 i
    | none => ∀ i, off ≤ i → i < off + count → base + BitVec.ofNat 32 i ∈ used := by
  induction count generalizing off with
  | zero =>
    intro i hle hlt
    omega
  | succ count ih =>
    simp only [lowestFree]
    by_cases hused : base + BitVec.ofNat 32 off ∈ used
    · rw [if_pos hused]
      have hrest := ih (off + 1)
      split
      · next a hfound =>
        rw [hfound] at hrest
        obtain ⟨hfree, i, hle, hlt, ha⟩ := hrest
        exact ⟨hfree, i, by omega, by omega, ha⟩
      next hnone =>
      rw [hnone] at hrest
      intro i hle hlt
      rcases Nat.eq_or_lt_of_le hle with rfl | hgt
      · exact hused
      · exact hrest i hgt (by omega)
    · rw [if_neg hused]
      exact ⟨hused, off, le_rfl, by omega, rfl⟩

theorem lowestFree_pool (n : Nets) (used : List (BitVec 32)) :
    match lowestFree n.base used 2 (n.size - 1 - 2) with
    | some a => n.Usable a ∧ a ∉ used
    | none => ∀ a, n.Usable a → a ∈ used := by
  have hsearch := lowestFree_cases n.base used 2 (n.size - 1 - 2)
  split
  · next a hfound =>
    rw [hfound] at hsearch
    obtain ⟨hfree, i, hle, hlt, ha⟩ := hsearch
    exact ⟨Nets.usable_iff.mpr ⟨i, hle, by omega, ha⟩, hfree⟩
  next hnone =>
  rw [hnone] at hsearch
  intro a ha
  obtain ⟨off, htwo, hoff, rfl⟩ := Nets.usable_iff.mp ha
  exact hsearch off htwo (by omega)

/-! ### Statements -/

def Overlay.locks (o : Overlay) : List Lock :=
  [.device o.device, .overlayIpv4 o.ipv4, .overlayIpv6 o.ipv6]

def Tables.Unique (t : Tables) (o : Overlay) : Prop :=
  ∀ row ∈ t.devices, row.id ≠ o.device →
    row.overlayIpv4 ≠ some o.ipv4 ∧ row.overlayIpv6 ≠ some o.ipv6

def Tables.findDevice (t : Tables) (tenant : TenantId) (device : DeviceId) : Option Device :=
  t.devices.find? fun row => row.id = device ∧ row.tenantId = tenant

section
variable {free : List Lock → Bool} {t : Tables} {tenant : TenantId} {device : DeviceId}
  {phase : AllocPhase} {locks : List Lock}

/-- `allocate` goes on after the pool is locked, after a device without addresses is read, and after
an address is found. -/
theorem allocNext_go {phase' : AllocPhase}
    (h : allocNext free t tenant device phase = .go locks phase') :
    (phase = .lockPool ∧ locks = [.pool tenant] ∧ free [.pool tenant] = true ∧
      ∃ pool nets, t.pools tenant = some pool ∧ poolNets pool = .ok nets ∧
        phase' = .readDevice nets) ∨
    (∃ nets, phase = .readDevice nets ∧ locks = [] ∧ phase' = .readUsed nets ∧
      ∀ row, t.findDevice tenant device = some row →
        row.overlayIpv4 = none ∨ row.overlayIpv6 = none) ∨
    ∃ nets a, phase = .readUsed nets ∧ locks = [] ∧ phase' = .update nets a (nets.ipv6For a) ∧
      lowestFree nets.base (t.used tenant) 2 (nets.size - 1 - 2) = some a := by
  cases phase with
  | lockPool =>
    simp only [allocNext] at h
    split at h
    · cases h
    next pool hpool =>
    split at h
    · cases h
    next hfree =>
    split at h
    · cases h
    next nets hnets =>
    cases h
    exact .inl ⟨rfl, rfl, by simpa using hfree, pool, nets, hpool, hnets, rfl⟩
  | readDevice nets =>
    simp only [allocNext] at h
    refine .inr (.inl ⟨nets, rfl, ?_⟩)
    split at h
    · next hnone =>
      cases h
      refine ⟨rfl, rfl, fun row hrow => ?_⟩
      rw [Tables.findDevice, hnone] at hrow
      cases hrow
    next row hrow =>
    split at h
    · cases h
    next hnot =>
    cases h
    refine ⟨rfl, rfl, fun row' hrow' => ?_⟩
    cases hrow.symm.trans hrow'
    cases h4 : row.overlayIpv4 with
    | none => exact .inl rfl
    | some a =>
      cases h6 : row.overlayIpv6 with
      | none => exact .inr rfl
      | some b => exact (hnot a b h4 h6).elim
  | readUsed nets =>
    simp only [allocNext] at h
    split at h
    · cases h
    next a ha =>
    cases h
    exact .inr (.inr ⟨nets, a, rfl, rfl, rfl, ha⟩)
  | update nets a b =>
    simp only [allocNext] at h
    split_ifs at h

/-- `allocate` returns the addresses that the device has, or new ones that it writes. An `UPDATE`
that finds no row writes nothing. -/
theorem allocNext_ok {overlay : Option Overlay} {r : IpNet × IpNet}
    (h : allocNext free t tenant device phase = .done locks overlay (.ok r)) :
    (∃ nets row a b, phase = .readDevice nets ∧ locks = [] ∧ overlay = none ∧
      r = nets.result a b ∧ t.findDevice tenant device = some row ∧ row.overlayIpv4 = some a ∧
        row.overlayIpv6 = some b) ∨
    ∃ nets a b, phase = .update nets a b ∧ r = nets.result a b ∧
      ((locks = [] ∧ overlay = none ∧ ∀ row ∈ t.devices, row.id ≠ device) ∨
        (locks = Overlay.locks ⟨device, a, b⟩ ∧ overlay = some ⟨device, a, b⟩ ∧
          free (Overlay.locks ⟨device, a, b⟩) = true ∧ t.Unique ⟨device, a, b⟩)) := by
  cases phase with
  | lockPool =>
    simp only [allocNext] at h
    split at h
    · cases h
    split at h
    · cases h
    · split at h <;> cases h
  | readDevice nets =>
    simp only [allocNext] at h
    split at h
    · cases h
    next row hrow =>
    split at h
    · next a b ha hb =>
      cases h
      exact .inl ⟨nets, row, a, b, rfl, rfl, rfl, rfl, hrow, ha, hb⟩
    · cases h
  | readUsed nets =>
    simp only [allocNext] at h
    split at h <;> cases h
  | update nets a b =>
    simp only [allocNext] at h
    refine .inr ⟨nets, a, b, rfl, ?_⟩
    split_ifs at h with hrow hfree hv4 hv6
    · cases h
      refine ⟨rfl, .inl ⟨rfl, rfl, fun row hmem heq => ?_⟩⟩
      simp only [Bool.not_eq_true', List.any_eq_false, decide_eq_true_eq] at hrow
      exact hrow row hmem heq
    · cases h
    · cases h
    · cases h
      refine ⟨rfl, .inr ⟨rfl, rfl, by simpa [Overlay.locks] using hfree, fun row hmem hne => ?_⟩⟩
      simp only [List.any_eq_true, decide_eq_true_eq, not_exists, not_and] at hv4 hv6
      exact ⟨hv4 row hmem hne, hv6 row hmem hne⟩

theorem allocNext_error {overlay : Option Overlay} {e : IpamError}
    (h : allocNext free t tenant device phase = .done locks overlay (.error e)) :
    t.pools tenant = none ∨ (∃ pool, t.pools tenant = some pool ∧ poolNets pool = .error e) ∨
    (∃ nets, phase = .readUsed nets ∧
      lowestFree nets.base (t.used tenant) 2 (nets.size - 1 - 2) = none) ∨
    ∃ nets a b, phase = .update nets a b ∧ ¬ t.Unique ⟨device, a, b⟩ := by
  cases phase with
  | lockPool =>
    simp only [allocNext] at h
    split at h
    · next hnone => exact .inl hnone
    next pool hpool =>
    split at h
    · cases h
    split at h
    · next hnets =>
      cases h
      exact .inr (.inl ⟨pool, hpool, hnets⟩)
    · cases h
  | readDevice nets =>
    simp only [allocNext] at h
    split at h
    · cases h
    · split at h <;> cases h
  | readUsed nets =>
    simp only [allocNext] at h
    split at h
    · next hnone => exact .inr (.inr (.inl ⟨nets, rfl, hnone⟩))
    · cases h
  | update nets a b =>
    simp only [allocNext] at h
    refine .inr (.inr (.inr ⟨nets, a, b, rfl, fun hunique => ?_⟩))
    split_ifs at h with hrow hfree hv4 hv6
    · cases h
    · obtain ⟨row, hmem, hsame⟩ := List.any_eq_true.mp hv4
      obtain ⟨hne, hv4⟩ := of_decide_eq_true hsame
      exact (hunique row hmem hne).1 hv4
    · obtain ⟨row, hmem, hsame⟩ := List.any_eq_true.mp hv6
      obtain ⟨hne, hv6⟩ := of_decide_eq_true hsame
      exact (hunique row hmem hne).2 hv6
    · cases h

end

end Avon.Control.Enrollment
