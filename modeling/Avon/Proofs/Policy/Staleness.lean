import Avon.Proofs.Policy.WindowScan

/-!
# A loaded engine against a fresh one

An engine keeps what it has compiled until `needs_recompile` says that a time window has changed.
Two things of a load depend on the clock: which windows are open, and the hours since the last
update of each device. The scan of `compile` announces every change of the first
(`inForce_iff_of_quiet`), and nothing announces the second. So a loaded engine is fresh while no
device passes an age limit of a policy in force (`AgesSettled`).

Two more hypotheses are there for the scan, which looks at whole minutes of the UTC clock: the zones
of the windows change at whole minutes, and the load is not before 1970, where `now % 60` is
negative.
-/

set_option autoImplicit false

namespace Avon.Policy

open Semantics Engine

/-- If no recompilation is asked for, an engine that was loaded earlier allows what a fresh one
allows. -/
def DecisionFresh (loaded fresh : Engine) (now : ℤ) : Prop :=
  loaded.needsRecompile now = false →
    ∀ req, (loaded.decide req).allow = (fresh.decide req).allow

variable {tz : TzDb} {data : SnapshotData} {req : DecisionRequest} {dev : DeviceEntity} {t₀ t : ℤ}

def PolicySpec.ageLimit (p : PolicySpec) : Option UInt32 :=
  p.conditions.posture.bind PostureRequirements.maxHoursSinceUpdate

theorem reads_congr
    {p : PolicySpec}
    (hage : ∀ limit ts, p.ageLimit = some limit → dev.attrs.lastUpdateUnix = some ts →
      (hoursSinceUpdate t₀ ts ≤ limit.toNat ↔ hoursSinceUpdate t ts ≤ limit.toNat)) :
    Reads data t₀ dev req p ↔ Reads data t dev req p := by
  have hposture : ∀ posture, p.conditions.posture = some posture →
      (PostureHolds hoursSinceUpdate t₀ posture dev.attrs ↔
        PostureHolds hoursSinceUpdate t posture dev.attrs) := by
    intro posture hsome
    have hlimit : ∀ limit, posture.maxHoursSinceUpdate = some limit → p.ageLimit = some limit :=
      fun limit hl => by simp [PolicySpec.ageLimit, hsome, hl]
    refine and_congr_right fun _ => and_congr_right fun _ => and_congr_right fun _ =>
      and_congr_right fun _ => forall_congr' fun limit => imp_congr_right fun hl =>
      exists_congr fun ts => and_congr_right fun hts => hage limit ts (hlimit limit hl) hts
  unfold Reads ConditionsHold
  refine and_congr_right fun _ => and_congr_right fun _ => and_congr_right fun _ => ?_
  exact and_congr_left fun _ => forall_congr' fun posture => imp_congr_right (hposture posture)

/-- Between the two times no active device gets to the other side of an age limit of a policy in
force. -/
def AgesSettled (tz : TzDb) (data : SnapshotData) (t₀ t : ℤ) : Prop :=
  ∀ p ∈ data.policies, InForce tz t₀ p.spec → ∀ limit, p.spec.ageLimit = some limit →
    ∀ dev ∈ data.devices, dev.attrs.status = "active" →
      ∀ ts, dev.attrs.lastUpdateUnix = some ts →
        (hoursSinceUpdate t₀ ts ≤ limit.toNat ↔ hoursSinceUpdate t ts ≤ limit.toNat)

def SnapshotData.WholeMinutes (tz : TzDb) (data : SnapshotData) : Prop :=
  ∀ p ∈ data.policies, ∀ tw, p.spec.conditions.timeWindow = some tw →
    ∀ zone, tz.parse tw.timezone = some zone → Policy.WholeMinutes tz zone

/-! ### What the scan announces -/

/-- The next change that has been taken into account is not after `r`. -/
def Announced (next : Option ℤ) (r : ℤ) : Prop := ∃ m, next = some m ∧ m ≤ r

theorem announced_of_windowOf {c : Conditions} {next next' : Option ℤ} {b : Bool}
    (h : windowOf tz c t₀ next = .ok (b, next')) :
    (∀ r, Announced next r → Announced next' r) ∧
      ∀ tw, c.timeWindow = some tw →
        ∃ r, nextWindowChange tz tw t₀ = .ok r ∧ Announced next' r := by
  unfold windowOf at h
  split at h
  · rename_i hnone
    cases h
    exact ⟨fun _ hr => hr, fun tw htw => nomatch hnone.symm.trans htw⟩
  rename_i tw htw
  split at h
  · rename_i active r hactive hr
    cases h
    constructor
    · rintro r' ⟨m, rfl, hm⟩
      exact ⟨_, rfl, (min_le_left m r).trans hm⟩
    · intro tw' htw'
      cases htw.symm.trans htw'
      refine ⟨r, hr, _, rfl, ?_⟩
      split
      · exact min_le_right _ r
      · exact le_rfl
  · cases h
  · cases h

theorem announced_of_compileEntry {entry : PolicyEntry} {acc acc' : Compiled}
    (h : compileEntry tz t₀ acc entry = .ok acc') :
    (∀ r, Announced acc.nextWindowChange r → Announced acc'.nextWindowChange r) ∧
      ∀ tw, entry.spec.conditions.timeWindow = some tw →
        ∃ r, nextWindowChange tz tw t₀ = .ok r ∧ Announced acc'.nextWindowChange r := by
  unfold compileEntry at h
  split at h
  · cases h
  split at h
  · cases h
  · rename_i hwindow
    cases h
    exact announced_of_windowOf hwindow
  rename_i hwindow
  split at h
  · cases h
  split at h
  · cases h
  · cases h
    exact announced_of_windowOf hwindow

theorem announced_of_compile {entries : List PolicyEntry} {acc acc' : Compiled}
    (h : entries.foldlM (compileEntry tz t₀) acc = .ok acc') :
    (∀ r, Announced acc.nextWindowChange r → Announced acc'.nextWindowChange r) ∧
      ∀ p ∈ entries, ∀ tw, p.spec.conditions.timeWindow = some tw →
        ∃ r, nextWindowChange tz tw t₀ = .ok r ∧ Announced acc'.nextWindowChange r := by
  induction entries generalizing acc with
  | nil =>
    cases h
    exact ⟨fun _ hr => hr, fun _ hp => absurd hp List.not_mem_nil⟩
  | cons entry entries ih =>
    rw [List.foldlM_cons] at h
    obtain ⟨mid, hentry, h⟩ := bind_eq_ok.mp h
    obtain ⟨hkeep, hrest⟩ := ih h
    obtain ⟨hkeep', hhead⟩ := announced_of_compileEntry hentry
    refine ⟨fun r hr => hkeep r (hkeep' r hr), List.forall_mem_cons.mpr ⟨fun tw htw => ?_, hrest⟩⟩
    obtain ⟨r, hr, hannounced⟩ := hhead tw htw
    exact ⟨r, hr, hkeep r hannounced⟩

/-- Until it asks for a recompilation, the policies in force are those that were at the load. -/
theorem inForce_iff_of_quiet {e loaded : Engine} (h₀ : e.load tz data t₀ = .ok loaded)
    (hzones : data.WholeMinutes tz) (hpos : 0 ≤ t₀) (hle : t₀ ≤ t)
    (hquiet : loaded.needsRecompile t = false) :
    ∀ p ∈ data.policies, InForce tz t₀ p.spec ↔ InForce tz t p.spec := by
  intro p hp
  refine forall_congr' fun tw => imp_congr_right fun htw => ?_
  unfold Engine.load at h₀
  split at h₀
  · cases h₀
  obtain ⟨c, hcompile, h₀⟩ := bind_eq_ok.mp h₀
  obtain ⟨es, -, h₀⟩ := bind_eq_ok.mp h₀
  cases h₀
  obtain ⟨r, hr, m, hm, hmr⟩ := (announced_of_compile hcompile).2 p hp tw htw
  have hlt : t < m := by simpa [needsRecompile, hm] using hquiet
  obtain ⟨zone, hzone⟩ := Option.isSome_iff_exists.mp (parse_of_nextWindowChange hr)
  rw [windowActive_of_nextWindowChange hzone (hzones p hp tw htw zone hzone) hpos hr t hle
    (hlt.trans_le hmr)]

/-! ### Loaded and fresh -/

/-- SSH on Thursdays until the end of minute 01:40. -/
def thursdaySpec : PolicySpec :=
  { sshSpec with conditions := { sshSpec.conditions with
      timeWindow := some ⟨"00:30", "01:40", [.thu], "UTC"⟩ } }

end Avon.Policy
