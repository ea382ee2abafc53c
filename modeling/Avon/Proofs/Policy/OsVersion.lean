import Avon.Proofs.Policy.Decide
import Avon.Proofs.Policy.Ports

/-!
# Versions of operating systems

`min_os_version` against the order of whole versions. Only the first two components are read,
each as an `i64`, and what does not read counts as zero.
-/

set_option autoImplicit false

namespace Avon.Policy

open Avon.Cedar Semantics

def components (s : String) : Option (List ℕ) := (s.toList.splitOn '.').mapM parseDigits

/-- `vs ≤ ws`, component by component. What is missing counts as zero. -/
def componentsLe : List ℕ → List ℕ → Bool
  | [], _ => true
  | v :: vs, [] => v = 0 && componentsLe vs []
  | v :: vs, w :: ws => v < w || v = w && componentsLe vs ws

def leading (cs : List ℕ) : ℤ × ℤ := (cs.headD 0, cs.tail.headD 0)

theorem parseI64_of_digits {part : List Char} {n : ℕ} (h : parseDigits part = some n)
    (hn : n < 2 ^ 63) : (parseI64 part).getD 0 = n := by
  have hdigits := (parseDigits_eq_some.mp h).2.1
  unfold parseI64
  split
  · exact absurd (hdigits '-' List.mem_cons_self) (by decide)
  · exact absurd (hdigits '+' List.mem_cons_self) (by decide)
  · rw [h, Option.filter_some, if_pos (by simpa using hn)]
    rfl

theorem parseOsVersion_eq {s : String} {cs : List ℕ} (h : components s = some cs)
    (hcs : ∀ c ∈ cs, c < 2 ^ 63) : parseOsVersion s = leading cs := by
  unfold components at h
  unfold parseOsVersion
  cases hparts : s.toList.splitOn '.' with
  | nil => exact absurd hparts (List.splitOn_ne_nil _ _)
  | cons major parts =>
    rw [hparts, List.mapM_cons] at h
    obtain ⟨n, hn, h⟩ := Option.bind_eq_some_iff.mp h
    obtain ⟨ns, hns, h⟩ := Option.bind_eq_some_iff.mp h
    cases h
    obtain ⟨hmajor, hcs⟩ := List.forall_mem_cons.mp hcs
    cases parts with
    | nil =>
      cases hns
      simp only [parseI64_of_digits hn hmajor]
      rfl
    | cons minor parts =>
      rw [List.mapM_cons] at hns
      obtain ⟨m, hm, hns⟩ := Option.bind_eq_some_iff.mp hns
      obtain ⟨ms, -, hns⟩ := Option.bind_eq_some_iff.mp hns
      cases hns
      simp only [parseI64_of_digits hn hmajor, parseI64_of_digits hm (hcs m List.mem_cons_self)]
      rfl

/-- The condition compiled for `min_os_version` compares the first two components of the two
versions. Of any other text, the first two parts count as far as they can be read. -/
theorem osVersion_iff {data : SnapshotData} {now : ℤ} {es : Entities}
    (hes : buildEntities data now = .ok es) (req : DecisionRequest) {dev : DeviceEntity}
    (hdev : data.findDevice req.device = some dev) {os : String}
    (hos : dev.attrs.osVersion = some os) (version : String) :
    ((osCheck version).evalBool (cedarRequest req) es = .ok true ↔
      VersionLe (parseOsVersion version) (parseOsVersion os)) ∧
    ∀ vs ws, components version = some vs → components os = some ws → (∀ v ∈ vs, v < 2 ^ 63) →
      (∀ w ∈ ws, w < 2 ^ 63) →
      ((osCheck version).evalBool (cedarRequest req) es = .ok true ↔
        VersionLe (leading vs) (leading ws)) := by
  have hmeans : (osCheck version).evalBool (cedarRequest req) es = .ok true ↔
      VersionLe (parseOsVersion version) (parseOsVersion os) := by
    obtain ⟨b, hb, hiff⟩ := means_osCheck (list_of_buildEntities hes) hdev version
    rw [hb, Except.ok.injEq, hiff]
    simp [hos]
  refine ⟨hmeans, fun vs ws hvs hws hv hw => ?_⟩
  rw [hmeans, parseOsVersion_eq hvs hv, parseOsVersion_eq hws hw]

def reporting (os : String) : SnapshotData :=
  { officeSnapshot sshSpec with
    devices := officeDevices.map fun d => { d with attrs.osVersion := some os } }

/-- A device at 14.10 satisfies 14.9.3. -/
theorem osVersion_later_minor : ∃ es, buildEntities (reporting "14.10") 0 = .ok es ∧
    (osCheck "14.9.3").evalBool (cedarRequest (flowTo2 22)) es = .ok true := by
  obtain ⟨es, hes, -⟩ := exists_ok (x := buildEntities (reporting "14.10") 0)
    (p := fun _ => true) (by decide +kernel)
  have hiff := (osVersion_iff hes (flowTo2 22) rfl rfl "14.9.3").2 [14, 9, 3] [14, 10]
    (by decide +kernel) (by decide +kernel) (by decide) (by decide)
  exact ⟨es, hes, hiff.mpr (.inr ⟨rfl, by decide⟩)⟩

/-- 14.2.0 satisfies 14.2.1, and a report that is not a version satisfies 13. -/
theorem osVersion_misread :
    (components "14.2.1" = some [14, 2, 1] ∧ components "14.2.0" = some [14, 2, 0] ∧
      componentsLe [14, 2, 1] [14, 2, 0] = false ∧
      ∃ es, buildEntities (reporting "14.2.0") 0 = .ok es ∧
        (osCheck "14.2.1").evalBool (cedarRequest (flowTo2 22)) es = .ok true) ∧
    components "14.beta" = none ∧ ∃ es, buildEntities (reporting "14.beta") 0 = .ok es ∧
      (osCheck "13").evalBool (cedarRequest (flowTo2 22)) es = .ok true := by
  have hpasses : ∀ os version, ((buildEntities (reporting os) 0).toOption.any fun es =>
      (osCheck version).evalBool (cedarRequest (flowTo2 22)) es = .ok true) = true →
      ∃ es, buildEntities (reporting os) 0 = .ok es ∧
        (osCheck version).evalBool (cedarRequest (flowTo2 22)) es = .ok true := by
    intro os version h
    obtain ⟨es, hes, hrun⟩ := exists_ok h
    exact ⟨es, hes, by simpa using hrun⟩
  refine ⟨⟨?_, ?_, ?_, hpasses _ _ ?_⟩, ?_, hpasses _ _ ?_⟩ <;> decide +kernel

end Avon.Policy
