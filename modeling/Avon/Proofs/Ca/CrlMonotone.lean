import Avon.Ca.Crl
import Mathlib.Data.List.MinMax
import Mathlib.Order.Nat

/-!
# When stored CRL versions only grow

A builder reads the serials and the highest version by two statements. If another revocation commits
between the two, it publishes a higher version with an older list (`crl_race`). `readsTogether` is
the condition that none does.
-/

set_option autoImplicit false

namespace Avon.Ca

open Avon.Lib.Run Call

/-! ### The statements -/

theorem le_maxVersion {rows : List CrlRow} {r : CrlRow} (h : r ∈ rows) :
    r.version ≤ maxVersion rows :=
  List.le_max_of_le (List.mem_map_of_mem h) (Nat.le_refl _)

theorem maxVersion_le {rows : List CrlRow} {v : ℕ} (h : ∀ r ∈ rows, r.version ≤ v) :
    maxVersion rows ≤ v :=
  List.max_le_of_forall_le (rows.map CrlRow.version) v (by simpa using h)

theorem maxVersion_mem (rows : List CrlRow) :
    maxVersion rows = 0 ∨ ∃ r ∈ rows, r.version = maxVersion rows := by
  induction rows with
  | nil => exact .inl rfl
  | cons a rows ih =>
    have hcons : maxVersion (a :: rows) = max a.version (maxVersion rows) := rfl
    rcases max_choice a.version (maxVersion rows) with h | h <;> rw [hcons, h]
    · exact .inr ⟨a, List.mem_cons_self, rfl⟩
    · exact ih.imp_right fun ⟨r, hr, heq⟩ => ⟨r, List.mem_cons_of_mem _ hr, heq⟩

theorem mem_revokedSerials {certificates : List CertRow} {start : ℕ} {x : Serial} :
    x ∈ revokedSerials certificates start ↔
      ∃ c ∈ certificates, c.revoked = true ∧ start < c.notAfter ∧ c.serial = x := by
  simp [revokedSerials, List.mem_insertionSort, and_assoc]

namespace State

def Revoked (s : State) (x : Serial) : Prop :=
  ∃ c ∈ s.certificates, c.serial = x ∧ c.revoked = true

def UniqueSerials (s : State) : Prop := (s.certificates.map CertRow.serial).Nodup

variable {s s' : State} {t : Option Serial} {serials : List Serial} {c : Call}

/-- A revoked serial whose certificate has not expired is read by every transaction that
began before now. -/
theorem mem_revokedSerials_of_revoked {x : Serial} {start : ℕ} (huniq : s.UniqueSerials)
    (hrev : s.Revoked x) (hun : s.Unexpired x) (hle : start ≤ s.now) :
    x ∈ revokedSerials s.certificates start := by
  obtain ⟨c, hc, rfl, hnow⟩ := hun
  obtain ⟨d, hd, hser, hrev⟩ := hrev
  obtain rfl := List.inj_on_of_nodup_map huniq hd hc hser
  exact mem_revokedSerials.mpr ⟨d, hd, hrev, Nat.lt_of_le_of_lt hle hnow, rfl⟩

/-! ### What a step does to the database -/

/-- What every step does to the database: revoked serials stay revoked, an expired
certificate stays expired, and a new version is above all stored ones. -/
structure Grows (s s' : State) : Prop where
  now : s.now ≤ s'.now
  unique : s.UniqueSerials → s'.UniqueSerials
  revoked : ∀ x, s.Revoked x → s'.Revoked x
  unexpired : ∀ x, s.Revoked x → s'.Unexpired x → s.Unexpired x
  kept : ∀ r ∈ s.crlVersions, r ∈ s'.crlVersions
  fresh : ∀ r ∈ s'.crlVersions, r ∈ s.crlVersions ∨ maxVersion s.crlVersions < r.version

theorem Grows.maxVersion_mono (h : Grows s s') :
    maxVersion s.crlVersions ≤ maxVersion s'.crlVersions :=
  maxVersion_le fun r hr => le_maxVersion (h.kept r hr)

theorem Grows.of_eq (hnow : s'.now = s.now)
    (hcert : s'.certificates = s.certificates) (hcrl : s'.crlVersions = s.crlVersions) :
    Grows s s' where
  now := hnow.ge
  unique h := by rw [UniqueSerials, hcert]; exact h
  revoked x hx := by rw [Revoked, hcert]; exact hx
  unexpired x _ hx := by rw [Unexpired, hcert, hnow] at hx; exact hx
  kept r hr := by rw [hcrl]; exact hr
  fresh r hr := Or.inl (by rw [hcrl] at hr; exact hr)

theorem grows_tick (s : State) (d : ℕ) : Grows s (s.step (.tick d)) where
  now := Nat.le_add_right _ _
  unique h := h
  revoked _ hx := hx
  unexpired x _ hx := by
    obtain ⟨c, hc, hser, hlt⟩ := hx
    exact ⟨c, hc, hser, Nat.lt_of_le_of_lt (Nat.le_add_right _ d) hlt⟩
  kept _ hr := hr
  fresh _ hr := Or.inl hr

theorem grows_issue (s : State) (serial : Serial) (notAfter : ℕ) :
    Grows s (s.step (.issue serial notAfter)) := by
  simp only [step]
  split
  · exact Grows.of_eq rfl rfl rfl
  rename_i hany
  have hnone : ∀ c ∈ s.certificates, c.serial ≠ serial := by
    intro c hc heq
    exact hany (List.any_eq_true.mpr ⟨c, hc, by simpa using heq⟩)
  refine ⟨Nat.le_refl _, fun huniq => ?_, fun x ⟨c, hc, h⟩ => ⟨c, List.mem_append_left _ hc, h⟩, ?_,
    fun _ hr => hr, fun _ hr => .inl hr⟩
  · have hnot : serial ∉ s.certificates.map CertRow.serial := by simpa using hnone
    simpa [UniqueSerials, List.nodup_append] using ⟨huniq, by simpa using hnot⟩
  · rintro x ⟨d, hd, hold, -⟩ ⟨c, hc, hser, hlt⟩
    rcases List.mem_append.mp hc with hc | hc
    · exact ⟨c, hc, hser, hlt⟩
    · -- A revoked serial has a row already, so it is not the new one.
      rw [List.mem_singleton.mp hc] at hser
      exact absurd (hold.trans hser.symm) (hnone d hd)

theorem grows_markRevoked (s : State) (serial : Serial) (calls : List Call) :
    Grows s { s with certificates := markRevoked s.certificates serial, calls := calls } := by
  have hserial : ∀ c : CertRow,
      (if c.serial = serial then { c with revoked := true } else c).serial = c.serial := by
    intro c
    split <;> rfl
  refine ⟨Nat.le_refl _, fun huniq => ?_, ?_, ?_, fun _ hr => hr, fun _ hr => .inl hr⟩
  · rw [UniqueSerials, markRevoked, List.map_map]
    exact (List.map_congr_left fun c _ => hserial c) ▸ huniq
  · rintro x ⟨c, hc, rfl, hrev⟩
    exact ⟨_, List.mem_map_of_mem hc, hserial c, by split <;> simp [hrev]⟩
  · rintro x - ⟨c', hc', hser, hlt⟩
    obtain ⟨c, hc, rfl⟩ := List.mem_map.mp hc'
    refine ⟨c, hc, (hserial c).symm.trans hser, ?_⟩
    split at hlt <;> exact hlt

theorem revoked_markRevoked (s : State) (serial : Serial) (calls : List Call)
    (hknown : ∃ c ∈ s.certificates, c.serial = serial) :
    Revoked { s with certificates := markRevoked s.certificates serial, calls := calls }
      serial := by
  obtain ⟨c, hc, hser⟩ := hknown
  exact ⟨_, List.mem_map_of_mem hc, by simp [hser]⟩

/-! ### The invariant -/

def TargetRevoked (s : State) (target : Option Serial) : Prop :=
  ∀ x, target = some x → s.Revoked x

/-- A list that a call has read: it holds revoked serials only, it holds the target, and it
holds every serial of the stored versions up to `upTo`, expired certificates apart. -/
structure ListOk (s : State) (target : Option Serial) (serials : List Serial) (upTo : ℕ) :
    Prop where
  revoked : ∀ x ∈ serials, s.Revoked x
  targetRevoked : s.TargetRevoked target
  target : ∀ x, target = some x → s.Unexpired x → x ∈ serials
  covers : ∀ r ∈ s.crlVersions, r.version ≤ upTo → ∀ x ∈ r.serials, s.Unexpired x → x ∈ serials

def CallOk (s : State) : Call → Prop
  | .building t => s.TargetRevoked t
  | .begun t start => s.TargetRevoked t ∧ start ≤ s.now
  | .read t serials seen => s.ListOk t serials seen ∧ seen ≤ maxVersion s.crlVersions
  | .numbered t serials version =>
    s.ListOk t serials (version - 1) ∧ 1 ≤ version ∧ version ≤ maxVersion s.crlVersions + 1
  | .inserted t serials version =>
    s.ListOk t serials (version - 1) ∧ version = maxVersion s.crlVersions + 1
  | .done t => s.TargetRevoked t ∧
      ∀ x, t = some x → s.Unexpired x → ∃ r ∈ s.crlVersions, x ∈ r.serials
  | .failed => True

structure Inv (s : State) : Prop where
  unique : s.UniqueSerials
  contiguous : ∀ v, 1 ≤ v → v ≤ maxVersion s.crlVersions → ∃ r ∈ s.crlVersions, r.version = v
  listed : ∀ r ∈ s.crlVersions, ∀ x ∈ r.serials, s.Revoked x
  monotone : s.CrlMonotone
  calls : ∀ c ∈ s.calls, s.CallOk c
  single : s.calls.countP (·.pending.isSome) ≤ 1

theorem inv_init (now : ℕ) : Inv (init now) where
  unique := List.nodup_nil
  contiguous v h₁ h₂ := by simp [init, maxVersion] at h₂; omega
  listed r hr := by cases hr
  monotone a ha := by cases ha
  calls c hc := by cases hc
  single := Nat.zero_le 1

/-- A list stays good when the database grows, up to a version that was stored before. -/
theorem ListOk.grows (hg : Grows s s') (hi : Inv s) {upTo : ℕ} (h : s.ListOk t serials upTo)
    (hle : upTo ≤ maxVersion s.crlVersions) : s'.ListOk t serials upTo where
  revoked x hx := hg.revoked x (h.revoked x hx)
  targetRevoked x hx := hg.revoked x (h.targetRevoked x hx)
  target x hx hun := h.target x hx (hg.unexpired x (h.targetRevoked x hx) hun)
  covers r hr hv x hx hun := by
    rcases hg.fresh r hr with hold | hnew
    · exact h.covers r hold hv x hx (hg.unexpired x (hi.listed r hold x hx) hun)
    · omega

/-- What a call has in hand stays good when the database grows. Only an uncommitted insert
looks at the highest version itself. -/
theorem CallOk.grows (hg : Grows s s') (hi : Inv s) (h : s.CallOk c)
    (hpending : c.pending ≠ none → maxVersion s'.crlVersions = maxVersion s.crlVersions) :
    s'.CallOk c := by
  have hmax := hg.maxVersion_mono
  cases c with
  | building t => exact fun x hx => hg.revoked x (h x hx)
  | begun t start => exact ⟨fun x hx => hg.revoked x (h.1 x hx), Nat.le_trans h.2 hg.now⟩
  | read t serials seen => exact ⟨h.1.grows hg hi h.2, Nat.le_trans h.2 hmax⟩
  | numbered t serials version =>
    obtain ⟨hlist, hpos, hle⟩ := h
    exact ⟨hlist.grows hg hi (by omega), hpos, by omega⟩
  | inserted t serials version =>
    obtain ⟨hlist, hv⟩ := h
    refine ⟨hlist.grows hg hi (by omega), ?_⟩
    rw [hpending (by simp [pending])]
    exact hv
  | done t =>
    refine ⟨fun x hx => hg.revoked x (h.1 x hx), fun x hx hun => ?_⟩
    obtain ⟨r, hr, hmem⟩ := h.2 x hx (hg.unexpired x (h.1 x hx) hun)
    exact ⟨r, hg.kept r hr, hmem⟩
  | failed => trivial

theorem CrlMonotone.grows (hg : Grows s s') (hi : Inv s)
    (hcrl : s'.crlVersions = s.crlVersions) : s'.CrlMonotone := by
  intro a ha b hb hlt x hx hun
  rw [hcrl] at ha hb
  exact hi.monotone a ha b hb hlt x hx (hg.unexpired x (hi.listed a ha x hx) hun)

/-- A step that adds no row and changes the list of calls from `s.calls` to one whose calls
are old or good. -/
theorem Inv.of_grows (hg : Grows s s') (hi : Inv s)
    (hcrl : s'.crlVersions = s.crlVersions)
    (hcalls : ∀ c ∈ s'.calls, c ∈ s.calls ∨ s'.CallOk c)
    (hsingle : s'.calls.countP (·.pending.isSome) ≤ 1) : Inv s' where
  unique := hg.unique hi.unique
  contiguous v h₁ h₂ := by rw [hcrl] at h₂ ⊢; exact hi.contiguous v h₁ h₂
  listed r hr x hx := hg.revoked x (hi.listed r (hcrl ▸ hr) x hx)
  monotone := CrlMonotone.grows hg hi hcrl
  calls c hc := by
    rcases hcalls c hc with hold | hok
    · exact (hi.calls c hold).grows hg hi fun _ => by rw [hcrl]
    · exact hok
  single := hsingle

/-! ### One step -/

theorem Inv.single_set (hi : Inv s) (i : ℕ) (hc : c.pending = none) :
    (s.calls.set i c).countP (·.pending.isSome) ≤ 1 := by
  rcases Nat.lt_or_ge i s.calls.length with hlt | hge
  · have hle := hi.single
    rw [List.countP_set hlt, hc]
    show _ - _ + 0 ≤ 1
    omega
  · rw [List.set_eq_of_length_le hge]
    exact hi.single

theorem Inv.single_append (hi : Inv s) (hc : c.pending = none) :
    (s.calls ++ [c]).countP (·.pending.isSome) ≤ 1 := by
  simpa [hc] using hi.single

theorem Inv.setCall (hi : Inv s) (i : ℕ) (hok : s.CallOk c)
    (hc : c.pending = none) : Inv (s.setCall i c) := by
  have hg : Grows s (s.setCall i c) := Grows.of_eq rfl rfl rfl
  refine Inv.of_grows hg hi rfl ?_ (hi.single_set i hc)
  intro c' hc'
  rcases List.mem_or_eq_of_mem_set hc' with hold | rfl
  · exact .inl hold
  · exact .inr (hok.grows hg hi fun _ => rfl)

theorem Inv.addCall (hi : Inv s) (hok : s.CallOk c)
    (hc : c.pending = none) : Inv { s with calls := s.calls ++ [c] } := by
  have hg : Grows s { s with calls := s.calls ++ [c] } := Grows.of_eq rfl rfl rfl
  refine Inv.of_grows hg hi rfl ?_ (hi.single_append hc)
  intro c' hc'
  rcases List.mem_append.mp hc' with hold | hnew
  · exact .inl hold
  · rw [List.mem_singleton.mp hnew]
    exact .inr (hok.grows hg hi fun _ => rfl)

/-- `insert` takes the next version. No other insert is pending then: every pending insert
holds that same version. -/
theorem Inv.insert (hi : Inv s) {i : ℕ}
    {version : ℕ} (hcall : s.calls[i]? = some (.numbered t serials version))
    (hstored : ¬ s.crlVersions.any (fun r => r.version = version) = true)
    (hpend : ¬ s.calls.any (fun c => c.pending = some version) = true) :
    Inv (s.setCall i (.inserted t serials version)) := by
  obtain ⟨hlist, hpos, hle⟩ := hi.calls _ (List.mem_of_getElem? hcall)
  have hnext : version = maxVersion s.crlVersions + 1 := by
    by_contra hne
    obtain ⟨r, hr, hv⟩ := hi.contiguous version hpos (by omega)
    exact hstored (List.any_eq_true.mpr ⟨r, hr, by simpa using hv⟩)
  have hnone : s.calls.countP (·.pending.isSome) = 0 := by
    refine List.countP_eq_zero.mpr fun c hmem hsome => ?_
    have hok := hi.calls c hmem
    cases c with
    | inserted t' serials' v' =>
      refine hpend (List.any_eq_true.mpr ⟨_, hmem, ?_⟩)
      simp [pending, hok.2, hnext]
    | _ => simp [pending] at hsome
  have hg : Grows s (s.setCall i (.inserted t serials version)) := Grows.of_eq rfl rfl rfl
  refine Inv.of_grows hg hi rfl ?_ ?_
  · intro c hc
    rcases List.mem_or_eq_of_mem_set hc with hold | rfl
    · exact .inl hold
    · exact .inr ⟨hlist.grows hg hi (by omega), hnext⟩
  · have hlt := (List.getElem?_eq_some_iff.mp hcall).1
    show (s.calls.set i _).countP _ ≤ 1
    rw [List.countP_set hlt, hnone]
    simp [pending]

theorem Inv.commit (hi : Inv s) {i : ℕ}
    {version : ℕ} (hcall : s.calls[i]? = some (.inserted t serials version)) :
    Inv { s.setCall i (.done t) with crlVersions := s.crlVersions ++ [⟨version, serials⟩] } := by
  obtain ⟨hlist, hv⟩ := hi.calls _ (List.mem_of_getElem? hcall)
  have hbelow : maxVersion s.crlVersions ≤ version := by omega
  have hmax : maxVersion (s.crlVersions ++ [⟨version, serials⟩]) = version := by
    refine Nat.le_antisymm (maxVersion_le fun r hr => ?_)
      (le_maxVersion (r := ⟨_, serials⟩) (by simp))
    rcases List.mem_append.mp hr with hr | hr
    · exact Nat.le_trans (le_maxVersion hr) hbelow
    · rw [List.mem_singleton.mp hr]
  have hg : Grows s
      { s.setCall i (.done t) with crlVersions := s.crlVersions ++ [⟨version, serials⟩] } := by
    refine ⟨Nat.le_refl _, fun h => h, fun _ hx => hx, fun _ _ hx => hx,
      fun r hr => List.mem_append_left _ hr, fun r hr => ?_⟩
    rcases List.mem_append.mp hr with hr | hr
    · exact .inl hr
    · rw [List.mem_singleton.mp hr]
      exact .inr (by simp only; omega)
  refine ⟨hi.unique, ?_, ?_, ?_, fun c hc => ?_, hi.single_set i rfl⟩
  · intro v hpos hle
    simp only [hmax] at hle
    rcases Nat.lt_or_ge v version with hlt | hge
    · obtain ⟨r, hr, hrv⟩ := hi.contiguous v hpos (by omega)
      exact ⟨r, List.mem_append_left _ hr, hrv⟩
    · exact ⟨⟨version, serials⟩, List.mem_append_right _ (List.mem_singleton.mpr rfl), by
        simp only; omega⟩
  · intro r hr x hx
    rcases List.mem_append.mp hr with hr | hr
    · exact hi.listed r hr x hx
    · rw [List.mem_singleton.mp hr] at hx
      exact hlist.revoked x hx
  · intro a ha b hb hlt x hx hun
    rcases List.mem_append.mp ha with ha | ha <;> rcases List.mem_append.mp hb with hb | hb
    · exact hi.monotone a ha b hb hlt x hx hun
    · -- The new row covers every row below it.
      rw [List.mem_singleton.mp hb]
      have hle := le_maxVersion ha
      exact hlist.covers a ha (by omega) x hx hun
    · have hle := le_maxVersion hb
      rw [List.mem_singleton.mp ha] at hlt
      simp only at hlt
      omega
    · rw [List.mem_singleton.mp ha, List.mem_singleton.mp hb] at hlt
      exact absurd hlt (Nat.lt_irrefl _)
  · rcases List.mem_or_eq_of_mem_set hc with hold | rfl
    · -- The committed insert was the only pending one.
      have hzero : (s.calls.set i (.done t)).countP (·.pending.isSome) = 0 := by
        obtain ⟨hlt, hget⟩ := List.getElem?_eq_some_iff.mp hcall
        have hle := hi.single
        rw [List.countP_set hlt, hget]
        show _ - 1 + 0 = 0
        omega
      have hnone := List.countP_eq_zero.mp hzero c hc
      exact (hi.calls c hold).grows hg hi fun hpend => by simp [hpend] at hnone
    · refine ⟨hlist.targetRevoked, fun x hx hun => ?_⟩
      exact ⟨⟨version, serials⟩, List.mem_append_right _ (List.mem_singleton.mpr rfl),
        hlist.target x hx hun⟩

/-- No version is committed between a builder's read of the serials and its read of the
highest version. The condition is on the second read. -/
def readsTogether (s : State) : Event → Bool
  | .selectNext i =>
    match s.calls[i]? with
    | some (.read _ _ seen) => maxVersion s.crlVersions = seen
    | _ => true
  | _ => true

theorem inv_step (s : State) (e : Event) (hi : Inv s) (hguard : s.readsTogether e = true) :
    Inv (s.step e) := by
  cases e with
  | tick d =>
    exact Inv.of_grows (grows_tick s d) hi rfl (fun c hc => .inl hc) hi.single
  | issue serial notAfter =>
    have hg := grows_issue s serial notAfter
    simp only [step] at hg ⊢
    split at hg
    · rename_i h
      rw [if_pos h]
      exact hi
    rename_i h
    rw [if_neg h]
    exact Inv.of_grows hg hi rfl (fun c hc => .inl hc) hi.single
  | revoke serial =>
    simp only [step]
    split
    · rename_i hany
      obtain ⟨c, hc, hser⟩ := List.any_eq_true.mp hany
      have hknown : ∃ c ∈ s.certificates, c.serial = serial := ⟨c, hc, by simpa using hser⟩
      refine Inv.of_grows (grows_markRevoked s serial _) hi rfl ?_
        (hi.single_append rfl)
      intro c hc
      rcases List.mem_append.mp hc with hold | hnew
      · exact .inl hold
      rw [List.mem_singleton.mp hnew]
      refine .inr fun x hx => ?_
      cases hx
      exact revoked_markRevoked s serial _ hknown
    · exact hi.addCall trivial rfl
  | currentCrl =>
    simp only [step]
    split
    · exact hi.addCall (fun x hx => by cases hx) rfl
    · exact hi.addCall ⟨fun x hx => (nomatch hx), fun x hx => (nomatch hx)⟩ rfl
  | begin i =>
    simp only [step]
    split
    · rename_i t hcall
      exact hi.setCall i ⟨hi.calls _ (List.mem_of_getElem? hcall), Nat.le_refl _⟩ rfl
    · exact hi
  | selectSerials i =>
    simp only [step]
    split
    · rename_i t start hcall
      obtain ⟨htarget, hle⟩ := hi.calls _ (List.mem_of_getElem? hcall)
      refine hi.setCall i ⟨⟨?_, htarget, ?_, ?_⟩, Nat.le_refl _⟩ rfl
      · intro x hx
        obtain ⟨c, hc, hrev, -, rfl⟩ := mem_revokedSerials.mp hx
        exact ⟨c, hc, rfl, hrev⟩
      · intro x hx hun
        exact mem_revokedSerials_of_revoked hi.unique (htarget x hx) hun hle
      · intro r hr _ x hx hun
        exact mem_revokedSerials_of_revoked hi.unique (hi.listed r hr x hx) hun hle
    · exact hi
  | selectNext i =>
    simp only [step]
    split
    · rename_i t serials seen hcall
      split
      · obtain ⟨hlist, hle⟩ := hi.calls _ (List.mem_of_getElem? hcall)
        have hseen : maxVersion s.crlVersions = seen := by
          simpa [readsTogether, hcall] using hguard
        refine hi.setCall i ⟨?_, by omega, Nat.le_refl _⟩ rfl
        rw [Nat.add_sub_cancel, hseen]
        exact hlist
      · exact hi.setCall i trivial rfl
    · exact hi
  | insert i =>
    simp only [step]
    split
    · rename_i t serials version hcall
      split
      · exact hi.setCall i trivial rfl
      rename_i hstored
      split
      · exact hi
      · rename_i hpend
        exact hi.insert hcall hstored hpend
    · exact hi
  | commit i =>
    simp only [step]
    split
    · rename_i t serials version hcall
      exact hi.commit hcall
    · exact hi
  | fail i =>
    simp only [step]
    split
    · split
      · exact hi
      · exact hi.setCall i trivial rfl
    · exact hi

theorem Inv.revokedPublished (hi : Inv s) : s.RevokedPublished := by
  intro x hdone hun
  obtain ⟨r, hr, hmem⟩ := (hi.calls _ hdone).2 x rfl hun
  have hle := le_maxVersion hr
  rcases Nat.lt_or_ge r.version (maxVersion s.crlVersions) with hlt | hge
  · rcases maxVersion_mem s.crlVersions with h0 | ⟨top, htop, hv⟩
    · omega
    · refine ⟨top, htop, fun r' hr' => hv ▸ le_maxVersion hr', ?_⟩
      exact hi.monotone r hr top htop (hv ▸ hlt) x hmem hun
  · exact ⟨r, hr, fun r' hr' => Nat.le_trans (le_maxVersion hr') hge, hmem⟩

/-! ### The runs -/

/-- In every run in which no version is committed between the two reads of a builder, a
serial of a stored version is in every higher stored version, and the serial of a `revoke`
that returned `Ok` is in the highest one, both while the certificate has not expired. -/
theorem crlMonotone_of_readsTogether (now : ℕ) (events : List Event)
    (hguard : Guarded step (fun s e => s.readsTogether e = true) (init now) events) :
    (run step (init now) events).CrlMonotone ∧ (run step (init now) events).RevokedPublished := by
  have hinv := hguard.invariant inv_step (inv_init now)
  exact ⟨hinv.monotone, hinv.revokedPublished⟩

def sequentialEvents : List Event :=
  [.issue 1 100, .issue 2 100,
   .revoke 1, .begin 0, .selectSerials 0, .selectNext 0, .insert 0, .commit 0,
   .revoke 2, .begin 1, .selectSerials 1, .selectNext 1, .insert 1, .commit 1]

/-- The sequential run meets the condition. It stores `[1]` and then `[1, 2]`. -/
theorem crlMonotone_sequential :
    (run step (init 0) sequentialEvents).crlVersions = [⟨1, [1]⟩, ⟨2, [1, 2]⟩] ∧
      (run step (init 0) sequentialEvents).CrlMonotone ∧
      (run step (init 0) sequentialEvents).RevokedPublished :=
  ⟨by decide +kernel, crlMonotone_of_readsTogether 0 sequentialEvents (by decide +kernel)⟩

/-- The first builder has read its serials when the second revocation runs from start to
end. Then the first builder takes the next version. -/
def raceEvents : List Event :=
  [.issue 1 100, .issue 2 100,
   .revoke 1, .begin 0, .selectSerials 0,
   .revoke 2, .begin 1, .selectSerials 1, .selectNext 1, .insert 1, .commit 1,
   .selectNext 0, .insert 0, .commit 0]

theorem run_raceEvents : run step (init 0) raceEvents =
    ⟨0, [⟨1, 100, true⟩, ⟨2, 100, true⟩], [⟨1, [1, 2]⟩, ⟨2, [1]⟩],
      [.done (some 1), .done (some 2)]⟩ := by
  decide +kernel

/-- After the race serial 2 has disappeared from the highest version, and its `revoke` has
returned `Ok`. -/
theorem crl_race :
    ¬ (run step (init 0) raceEvents).CrlMonotone ∧
      ¬ (run step (init 0) raceEvents).RevokedPublished := by
  rw [run_raceEvents]
  refine ⟨fun hmono => ?_, fun hpub => ?_⟩
  · have hmem := hmono ⟨1, [1, 2]⟩ (by simp) ⟨2, [1]⟩ (by simp) (by simp) 2 (by simp)
      ⟨⟨2, 100, true⟩, by simp⟩
    exact absurd hmem (by decide)
  obtain ⟨top, htop, hmax, hmem⟩ := hpub 2 (by simp) ⟨⟨2, 100, true⟩, by simp⟩
  -- The highest row is the one of the slow builder.
  have h2 : 2 ≤ top.version := hmax ⟨2, [1]⟩ (by simp)
  simp only [List.mem_cons, List.not_mem_nil, or_false] at htop
  rcases htop with rfl | rfl
  · exact absurd h2 (by decide)
  · exact absurd hmem (by decide)

end State

end Avon.Ca
