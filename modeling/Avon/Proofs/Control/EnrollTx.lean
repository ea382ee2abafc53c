import Avon.Control.EnrollTx
import Avon.Proofs.Control.Enroll
import Avon.Proofs.Control.Ipam

/-!
# Every use of a token is counted

`Moves` is all that a step does to the locks and to the committed rows. A call that has taken a
token holds its row, and nobody else changes it (`Reserved`). `Accounted` is what a call has written
of its use.
-/

set_option autoImplicit false

namespace Avon.Control.Enrollment

open Avon.Ca Avon.Crypto Avon.Keystore Avon.Lib Avon.Lib.Run
open Function (update_self)

variable {C : HybridImpl} {ι : Type} [DecidableEq ι] {B : BindingImpl} {s s' : System C ι} {k : ι}

/-! ### What a step does -/

@[simp] theorem System.phase_goto (s : System C ι) (k : ι) (phase : Phase C) (locks : List Lock)
    (writes : Writes) : (s.goto k phase locks writes).phase k = phase := update_self ..

@[simp] theorem System.writes_goto (s : System C ι) (k : ι) (phase : Phase C) (locks : List Lock)
    (writes : Writes) : (s.goto k phase locks writes).writes k = writes := update_self ..

@[simp] theorem System.phase_rollback (s : System C ι) (k : ι) (status : Status) :
    (s.rollback k status).phase k = .ended (.failed status) := update_self ..

@[simp] theorem System.writes_rollback (s : System C ι) (k : ι) (status : Status) :
    (s.rollback k status).writes k = .none := update_self ..

@[simp] theorem System.phase_commit (s : System C ι) (k : ι) (outcome : Outcome) :
    (s.commit k outcome).phase k = .ended outcome := update_self ..

@[simp] theorem System.writes_commit (s : System C ι) (k : ι) (outcome : Outcome) :
    (s.commit k outcome).writes k = .none := update_self ..

def Event.call : Event C ι → ι
  | .enroll k _ | .allocate k _ _ | .next k _ | .fail k => k

/-- A statement that succeeds: where the call stands after it, the locks it takes, and what the call
has written then. -/
inductive Advance (B : BindingImpl) (s : System C ι) :
    Event C ι → Phase C → List Lock → Writes → Prop where
  | enroll {k : ι} {call : Call C} {csr : Csr} {template : TbsCertificate}
      (hphase : s.phase k = .idle)
      (hlen : call.req.token.utf8ByteSize ≠ 0 ∧ call.req.token.utf8ByteSize ≤ 256)
      (htemplate : enrollTemplate C call.req = .ok (csr, template)) :
      Advance B s (.enroll k call) (.consuming call csr template) [] (s.writes k)
  | allocate {k : ι} {tenant : TenantId} {device : DeviceId} (hphase : s.phase k = .idle) :
      Advance B s (.allocate k tenant device) (.allocating none tenant device .lockPool) []
        (s.writes k)
  | consume {k : ι} {now : ℤ} {call : Call C} {csr : Csr} {template : TbsCertificate}
      {token : TokenRow} (hphase : s.phase k = .consuming call csr template)
      (hfind : s.db.findToken (hashToken C call.req.token) = some token)
      (hfree : s.holder.free k [.token token.id] = true) (huse : token.checkUse now = .ok ()) :
      Advance B s (.next k now) (.counting ⟨call, csr, template, token⟩) [.token token.id]
        (s.writes k)
  | count {k : ι} {now : ℤ} {e : Enrolling C} (hphase : s.phase k = .counting e) :
      Advance B s (.next k now) (.creating e) [] { s.writes k with counted := some e.token.id }
  | create {k : ι} {now : ℤ} {e : Enrolling C} {keyProvider : String}
      (hphase : s.phase k = .creating e)
      (hcheck : checkToken e.call.req e.token.toEnrollmentToken = .ok ())
      (hkey : keyProviderOf B e.call.req e.csr e.template = .ok keyProvider)
      (hnew : ((s.view k).devices.any fun row => row.id = e.call.deviceId) = false)
      (hclass : (s.view k).hasClass e.token.deviceClassId = true)
      (hfree : s.holder.free k [.device e.call.deviceId] = true) :
      Advance B s (.next k now) (.addingPods e e.token.podIds) [.device e.call.deviceId]
        { s.writes k with device := some (e.deviceRow keyProvider) }
  | podsDone {k : ι} {now : ℤ} {e : Enrolling C} (hphase : s.phase k = .addingPods e []) :
      Advance B s (.next k now) (.allocating (some e) e.token.tenantId e.call.deviceId .lockPool) []
        (s.writes k)
  | pod {k : ι} {now : ℤ} {e : Enrolling C} {pod : Uuid} {rest : List Uuid}
      (hphase : s.phase k = .addingPods e (pod :: rest)) (hpod : (s.view k).hasPod pod = true) :
      Advance B s (.next k now) (.addingPods e rest) [] { s.writes k with
        devicePods := addPod (s.view k) e.call.deviceId pod (s.writes k).devicePods }
  | alloc {k : ι} {now : ℤ} {e : Option (Enrolling C)} {tenant : TenantId} {device : DeviceId}
      {phase phase' : AllocPhase} {locks : List Lock}
      (hphase : s.phase k = .allocating e tenant device phase)
      (hnext : s.allocNext k tenant device phase = .go locks phase') :
      Advance B s (.next k now) (.allocating e tenant device phase') locks (s.writes k)
  | allocated {k : ι} {now : ℤ} {e : Enrolling C} {tenant : TenantId} {device : DeviceId}
      {phase : AllocPhase} {locks : List Lock} {overlay : Option Overlay} {nets : IpNet × IpNet}
      (hphase : s.phase k = .allocating (some e) tenant device phase)
      (hnext : s.allocNext k tenant device phase = .done locks overlay (.ok nets)) :
      Advance B s (.next k now) (.recording e) locks { s.writes k with overlay := overlay }
  | returned {k : ι} {now : ℤ} {tenant : TenantId} {device : DeviceId} {phase : AllocPhase}
      {locks : List Lock} {overlay : Option Overlay} {nets : IpNet × IpNet}
      (hphase : s.phase k = .allocating none tenant device phase)
      (hnext : s.allocNext k tenant device phase = .done locks overlay (.ok nets)) :
      Advance B s (.next k now) (.committing (.allocated nets)) locks
        { s.writes k with overlay := overlay }
  | record {k : ι} {now : ℤ} {e : Enrolling C} (hphase : s.phase k = .recording e) :
      Advance B s (.next k now) (.issuing e) [] { s.writes k with
        enrolled := some ⟨e.token.id, e.call.deviceId, e.call.clientIp⟩ }
  | issue {k : ι} {now : ℤ} {e : Enrolling C} {certificate : Certificate}
      (hphase : s.phase k = .issuing e)
      (hissue : issueDeviceCredential C e.call.ca e.token.tenantId e.call.deviceId e.csr .device
        (deviceSans e.token.tenantId e.call.deviceId) = .ok certificate) :
      Advance B s (.next k now) (.committing (.enrolled ⟨e.call.deviceId, e.token.tenantId,
        certificate, e.token.deviceStatus⟩)) [] (s.writes k)

inductive Moves (B : BindingImpl) (s : System C ι) (e : Event C ι) : System C ι → Prop where
  | stay : Moves B s e s
  | goto (phase : Phase C) (locks : List Lock) (writes : Writes)
      (h : Advance B s e phase locks writes) : Moves B s e (s.goto e.call phase locks writes)
  | rollback (status : Status) (hlive : ∀ outcome, s.phase e.call ≠ .ended outcome) :
      Moves B s e (s.rollback e.call status)
  | commit (outcome : Outcome) (hphase : s.phase e.call = .committing outcome) :
      Moves B s e (s.commit e.call outcome)

theorem next_moves (s : System C ι) (k : ι) (now : ℤ) :
    Moves B s (.next k now) (s.next B k now) := by
  -- A statement that fails ends the call.
  have hfail : ∀ status, (∀ outcome, s.phase k ≠ .ended outcome) →
      Moves B s (.next k now) (s.rollback k status) := fun status hlive => .rollback status hlive
  have hgo : ∀ phase locks writes, Advance B s (.next k now) phase locks writes →
      Moves B s (.next k now) (s.goto k phase locks writes) := fun _ _ _ h => .goto _ _ _ h
  unfold System.next
  split
  · exact .stay
  · exact .stay
  · next hphase =>
    have hlive : ∀ outcome, s.phase k ≠ .ended outcome := by simp [hphase]
    split
    · exact hfail _ hlive
    next hfind =>
    split
    · exact .stay
    next hfree =>
    split
    · exact hfail _ hlive
    · next huse => exact hgo _ _ _ (.consume hphase hfind (by simpa using hfree) huse)
  · next hphase => exact hgo _ _ _ (.count hphase)
  · next hphase =>
    have hlive : ∀ outcome, s.phase k ≠ .ended outcome := by simp [hphase]
    split
    · exact hfail _ hlive
    next hcheck =>
    split
    · exact hfail _ hlive
    next hkey =>
    split
    · exact hfail _ hlive
    next hnew =>
    split
    · exact hfail _ hlive
    next hclass =>
    split
    · exact .stay
    next hfree =>
    exact hgo _ _ _ (.create hphase hcheck hkey (by simpa using hnew)
      (by simpa using hclass) (by simpa using hfree))
  · next hphase => exact hgo _ _ _ (.podsDone hphase)
  · next hphase =>
    split
    · exact hfail _ (by simp [hphase])
    · next hpod => exact hgo _ _ _ (.pod hphase (by simpa using hpod))
  · next e _ _ _ hphase =>
    split
    · exact .stay
    · next hnext => exact hgo _ _ _ (.alloc hphase hnext)
    · exact hfail _ (by simp [hphase])
    · next hnext =>
      cases e with
      | some e => exact hgo _ _ _ (.allocated hphase hnext)
      | none => exact hgo _ _ _ (.returned hphase hnext)
  · next hphase => exact hgo _ _ _ (.record hphase)
  · next hphase =>
    split
    · exact hfail _ (by simp [hphase])
    · next hissue => exact hgo _ _ _ (.issue hphase hissue)
  · next hphase => exact .commit _ hphase

theorem step_moves (s : System C ι) (e : Event C ι) : Moves B s e (step B s e) := by
  cases e with
  | enroll k call =>
    simp only [step]
    split
    · next hphase =>
      have hlive : ∀ outcome, s.phase k ≠ .ended outcome := by simp [hphase]
      unfold System.begin
      split
      · exact .rollback _ hlive
      next hlen =>
      split
      · exact .rollback _ hlive
      · next htemplate => exact .goto _ _ _ (.enroll hphase (by omega) htemplate)
    · exact .stay
  | allocate k tenant device =>
    simp only [step]
    split
    · next hphase => exact .goto _ _ _ (.allocate hphase)
    · exact .stay
  | next k now => exact next_moves s k now
  | fail k =>
    simp only [step]
    split
    · exact .stay
    · exact .stay
    · next hlive => exact .rollback _ hlive

section
variable {e : Event C ι} {phase : Phase C} {locks : List Lock} {writes : Writes}

theorem Advance.free (h : Advance B s e phase locks writes) :
    s.holder.free e.call locks = true := by
  cases h with
  | consume hphase hfind hfree huse | create hphase hcheck hkey hnew hclass hfree => exact hfree
  | alloc hphase hnext =>
    rcases allocNext_go hnext with ⟨-, rfl, hfree, -⟩ | ⟨nets, -, rfl, -⟩ | ⟨nets, a, -, rfl, -⟩
    · exact hfree
    · rfl
    · rfl
  | allocated hphase hnext | returned hphase hnext =>
    rcases allocNext_ok hnext with ⟨nets, row, a, b, -, rfl, -⟩ |
      ⟨nets, a, b, -, -, ⟨rfl, -⟩ | ⟨rfl, -, hfree, -⟩⟩
    · rfl
    · rfl
    · exact hfree
  | _ => rfl

theorem Advance.live (h : Advance B s e phase locks writes) (outcome : Outcome) :
    s.phase e.call ≠ .ended outcome := by
  cases h with
  | _ hphase => simp [Event.call, hphase]

end

variable {e : Event C ι} {locks : List Lock} {token : TokenRow} {t : Tables} {writes : Writes}
  {phase : Phase C} {w : Writes}

theorem Moves.frame (h : Moves B s e s') (hne : k ≠ e.call) :
    s'.phase k = s.phase k ∧ s'.writes k = s.writes k := by
  cases h with
  | stay => exact ⟨rfl, rfl⟩
  | _ => exact ⟨Function.update_of_ne hne _ _, Function.update_of_ne hne _ _⟩

theorem Moves.holder (h : Moves B s e s') (hne : k ≠ e.call) {c : Lock}
    (hc : s.holder c = some k) : s'.holder c = some k := by
  cases h with
  | stay => exact hc
  | goto phase locks writes h => exact Locks.holds_acquire h.free hc
  | rollback | commit => exact Locks.holds_release hne hc

theorem Moves.db_cases (h : Moves B s e s') :
    s'.db = s.db ∨
      ∃ outcome, s.phase e.call = .committing outcome ∧ s' = s.commit e.call outcome := by
  cases h with
  | commit outcome hphase => exact .inr ⟨outcome, hphase, rfl⟩
  | _ => exact .inl rfl

/-! ### What is committed -/

theorem Advance.ok {outcome : Outcome}
    (h : Advance B s e (.committing outcome) locks writes) : outcome.ok = true := by
  cases h <;> rfl

/-- The rows are those of the start and of the calls that have committed, and a call that has
committed returns no error. -/
structure Logged (start : Tables) (s : System C ι) : Prop where
  db : s.db = s.committed.foldl (fun t c => t.apply c.2) start
  ended : ∀ c ∈ s.committed, ∃ outcome, s.phase c.1 = .ended outcome ∧ outcome.ok = true
  ok : ∀ k outcome, s.phase k = .committing outcome → outcome.ok = true

theorem Logged.step {start : Tables} (h : Logged start s) (e : Event C ι) :
    Logged start (step B s e) := by
  have hmoves := step_moves (B := B) s e
  generalize Enrollment.step B s e = s' at hmoves
  -- A call that has committed has ended, so it is not the one that moves.
  have hended : (∀ outcome, s.phase e.call ≠ .ended outcome) → ∀ c ∈ s.committed,
      ∃ outcome, s'.phase c.1 = .ended outcome ∧ outcome.ok = true := by
    intro hlive c hc
    obtain ⟨outcome, hphase, hok⟩ := h.ended c hc
    have hne : c.1 ≠ e.call := fun heq => hlive outcome (heq ▸ hphase)
    exact ⟨outcome, (hmoves.frame hne).1.trans hphase, hok⟩
  have hothers : ∀ k outcome, k ≠ e.call → s'.phase k = .committing outcome →
      outcome.ok = true := fun k outcome hne hphase =>
    h.ok k outcome ((hmoves.frame hne).1.symm.trans hphase)
  cases hmoves with
  | stay => exact h
  | goto phase locks writes hadvance =>
    refine ⟨h.db, hended hadvance.live, fun k outcome hphase => ?_⟩
    by_cases hk : k = e.call
    · rw [hk, System.phase_goto] at hphase
      exact (hphase ▸ hadvance).ok
    · exact hothers k outcome hk hphase
  | rollback status hlive =>
    refine ⟨h.db, hended hlive, fun k outcome hphase => ?_⟩
    by_cases hk : k = e.call
    · rw [hk, System.phase_rollback] at hphase
      cases hphase
    · exact hothers k outcome hk hphase
  | commit outcome hcommit =>
    refine ⟨?_, fun c hc => ?_, fun k outcome' hphase => ?_⟩
    · change s.db.apply (s.writes e.call) = (s.committed ++ [(e.call, s.writes e.call)]).foldl _ _
      rw [List.foldl_append, ← h.db]
      rfl
    · rcases List.mem_append.mp hc with hc | hc
      · exact hended (by simp [hcommit]) c hc
      · obtain rfl := List.mem_singleton.mp hc
        exact ⟨outcome, s.phase_commit .., h.ok _ _ hcommit⟩
    by_cases hk : k = e.call
    · rw [hk, System.phase_commit] at hphase
      cases hphase
    · exact hothers k outcome' hk hphase

/-! ### Uses of a token -/

def Tables.enrolledWith (t : Tables) (token : Uuid) : ℕ :=
  t.enrollments.countP fun row => row.tokenId = token

/-- Every token has been used as often as its row says, and not too often. The ids are a primary
key. -/
structure Tables.Balanced (t : Tables) : Prop where
  ids : (t.tokens.map (·.id)).Nodup
  counts : ∀ row ∈ t.tokens, row.useCount = t.enrolledWith row.id ∧ row.useCount ≤ row.maxUses

/-- The call holds the row of a token that can be used once more. -/
def Reserved (s : System C ι) (k : ι) (token : Uuid) : Prop :=
  s.holder (.token token) = some k ∧
    ∀ row ∈ s.db.tokens, row.id = token → row.useCount < row.maxUses

/-- What a call has written of its use of a token, for each place it can stand at. -/
def Accounted (s : System C ι) (k : ι) (w : Writes) : Phase C → Prop
  | .idle | .consuming .. | .allocating none .. | .ended _ => w.counted = none ∧ w.enrolled = none
  | .counting e => w.counted = none ∧ w.enrolled = none ∧ Reserved s k e.token.id
  | .creating e | .addingPods e _ | .allocating (some e) .. | .recording e =>
    w.counted = some e.token.id ∧ w.enrolled = none ∧ Reserved s k e.token.id
  | .issuing _ | .committing _ =>
    w.enrolled.map (·.tokenId) = w.counted ∧ ∀ token, w.counted = some token → Reserved s k token

omit [DecidableEq ι] in
theorem Accounted.mono
    (hmono : ∀ token, Reserved s k token → Reserved s' k token) (h : Accounted s k w phase) :
    Accounted s' k w phase := by
  cases phase with
  | counting e | creating e | addingPods e rest | recording e =>
    exact ⟨h.1, h.2.1, hmono _ h.2.2⟩
  | allocating e tenant device phase =>
    cases e with
    | none => exact h
    | some e => exact ⟨h.1, h.2.1, hmono _ h.2.2⟩
  | issuing e | committing outcome => exact ⟨h.1, fun token htoken => hmono _ (h.2 token htoken)⟩
  | _ => exact h

theorem TokenRow.checkUse_ok {now : ℤ} (h : token.checkUse now = .ok ()) :
    ¬ token.expiresAt < now ∧ token.useCount < token.maxUses := by
  unfold TokenRow.checkUse at h
  split_ifs at h with hexpired hexhausted
  exact ⟨hexpired, by omega⟩

theorem Tables.findToken_eq_some {hash : Key}
    (h : t.findToken hash = some token) : token ∈ t.tokens ∧ token.tokenHash = hash :=
  ⟨List.mem_of_find?_eq_some h, by simpa using List.find?_some h⟩

theorem Tables.Balanced.eq_of_id (h : t.Balanced) {row row' : TokenRow}
    (hrow : row ∈ t.tokens) (hrow' : row' ∈ t.tokens) (hid : row.id = row'.id) : row = row' :=
  List.inj_on_of_nodup_map h.ids hrow hrow' hid

theorem Accounted.advance
    (hbalanced : s.db.Balanced) (h : Accounted s e.call (s.writes e.call) (s.phase e.call))
    (hadvance : Advance B s e phase locks writes) :
    Accounted (s.goto e.call phase locks writes) e.call writes phase := by
  have hmono : ∀ token, Reserved s e.call token →
      Reserved (s.goto e.call phase locks writes) e.call token := fun token hres =>
    ⟨Locks.holds_acquire hadvance.free hres.1, hres.2⟩
  cases hadvance with
  | enroll hphase | allocate hphase =>
    rw [Event.call, hphase] at h
    exact h
  | consume hphase hfind hfree huse =>
    rw [Event.call, hphase] at h
    -- The row that was read under the lock is the only one with its id.
    refine ⟨h.1, h.2, Locks.acquire_of_mem (List.mem_singleton_self _), fun row hrow hid => ?_⟩
    obtain rfl := hbalanced.eq_of_id hrow (Tables.findToken_eq_some hfind).1 hid
    exact (TokenRow.checkUse_ok huse).2
  | count hphase =>
    rw [Event.call, hphase] at h
    exact ⟨rfl, h.2.1, hmono _ h.2.2⟩
  | create hphase | podsDone hphase | pod hphase | allocated hphase =>
    rw [Event.call, hphase] at h
    exact ⟨h.1, h.2.1, hmono _ h.2.2⟩
  | @alloc _ _ enrolling _ _ _ _ _ hphase =>
    rw [Event.call, hphase] at h
    cases enrolling with
    | none => exact h
    | some e => exact ⟨h.1, h.2.1, hmono _ h.2.2⟩
  | returned hphase =>
    rw [Event.call, hphase] at h
    refine ⟨?_, fun token htoken => ?_⟩
    · change Option.map _ (s.writes _).enrolled = (s.writes _).counted
      rw [h.1, h.2]
      rfl
    · cases h.1.symm.trans htoken
  | record hphase =>
    rw [Event.call, hphase] at h
    refine ⟨h.1.symm, fun token htoken => ?_⟩
    cases h.1.symm.trans htoken
    exact hmono _ h.2.2
  | issue hphase =>
    rw [Event.call, hphase] at h
    exact ⟨h.1, fun token htoken => hmono _ (h.2 token htoken)⟩

theorem Reserved.moves (hmoves : Moves B s e s') (hne : k ≠ e.call) {token : Uuid}
    (hcall : Accounted s e.call (s.writes e.call) (s.phase e.call)) (h : Reserved s k token) :
    Reserved s' k token := by
  refine ⟨hmoves.holder hne h.1, ?_⟩
  cases hmoves with
  | stay | goto | rollback => exact h.2
  | commit outcome hphase =>
    rw [hphase] at hcall
    intro row hrow hid
    obtain ⟨old, hold, rfl⟩ := List.mem_map.mp hrow
    unfold TokenRow.count at hid ⊢
    split_ifs at hid ⊢ with hcounted
    · -- The token that was counted had another holder.
      have hholder := (hcall.2 _ hcounted).1
      rw [hid, h.1] at hholder
      exact absurd (Option.some.inj hholder) hne
    · exact h.2 old hold hid

theorem Tables.Balanced.apply (h : t.Balanced) (henrolled : w.enrolled.map (·.tokenId) = w.counted)
    (hleft : ∀ row ∈ t.tokens, w.counted = some row.id → row.useCount < row.maxUses) :
    (t.apply w).Balanced := by
  have hid : ∀ row, (TokenRow.count w.counted row).id = row.id := by
    intro row
    unfold TokenRow.count
    split <;> rfl
  refine ⟨?_, fun row hrow => ?_⟩
  · have hids : (t.apply w).tokens.map (·.id) = t.tokens.map (·.id) := by
      simp only [Tables.apply, List.map_map]
      exact List.map_congr_left fun row _ => hid row
    rw [hids]
    exact h.ids
  obtain ⟨old, hold, rfl⟩ := List.mem_map.mp hrow
  obtain ⟨hcount, hle⟩ := h.counts old hold
  -- There is one enrollment more if and only if this is the token that was counted.
  have hnew : (t.apply w).enrolledWith old.id =
      t.enrolledWith old.id + if w.counted = some old.id then 1 else 0 := by
    rw [Tables.enrolledWith, Tables.apply, List.countP_append, ← henrolled]
    cases w.enrolled with
    | none => simp [Tables.enrolledWith]
    | some row => simp [Tables.enrolledWith, List.countP_singleton]
  rw [hid, hnew]
  unfold TokenRow.count
  split_ifs with hcounted
  · exact ⟨by rw [hcount], hleft old hold hcounted⟩
  · exact ⟨hcount, hle⟩

structure TokenInv (s : System C ι) : Prop where
  balanced : s.db.Balanced
  calls : ∀ k, Accounted s k (s.writes k) (s.phase k)

theorem TokenInv.step (h : TokenInv s) (e : Event C ι) : TokenInv (step B s e) := by
  have hmoves := step_moves (B := B) s e
  generalize Enrollment.step B s e = s' at hmoves
  -- Only the call that moves has something new to account for.
  have hothers : ∀ k, k ≠ e.call → Accounted s' k (s'.writes k) (s'.phase k) := by
    intro k hne
    rw [(hmoves.frame hne).1, (hmoves.frame hne).2]
    exact (h.calls k).mono fun token => Reserved.moves hmoves hne (h.calls e.call)
  have hcalls : Accounted s' e.call (s'.writes e.call) (s'.phase e.call) →
      ∀ k, Accounted s' k (s'.writes k) (s'.phase k) := by
    intro hcall k
    by_cases hk : k = e.call
    · exact hk ▸ hcall
    · exact hothers k hk
  cases hmoves with
  | stay => exact h
  | goto phase locks writes hadvance =>
    refine ⟨h.balanced, hcalls ?_⟩
    rw [System.writes_goto, System.phase_goto]
    exact (h.calls e.call).advance h.balanced hadvance
  | rollback status hlive =>
    refine ⟨h.balanced, hcalls ?_⟩
    rw [System.writes_rollback, System.phase_rollback]
    exact ⟨rfl, rfl⟩
  | commit outcome hphase =>
    have hcall := h.calls e.call
    rw [hphase] at hcall
    refine ⟨h.balanced.apply hcall.1 fun row hrow hcounted => ?_, hcalls ?_⟩
    · exact (hcall.2 _ hcounted).2 row hrow rfl
    · rw [System.writes_commit, System.phase_commit]
      exact ⟨rfl, rfl⟩

/-- In every interleaving of enrollments, of which any can fail at any statement: every token has
been used as often as its row says and not more often than it allows, and the rows are those of the
start and of the calls that have committed. A call that returns an error is none of these. -/
theorem token_accounting (B : BindingImpl) (start : Tables) (hstart : start.Balanced)
    (events : List (Event C ι)) :
    let s := run (step B) (System.init C ι start) events
    (∀ row ∈ s.db.tokens, row.useCount = s.db.enrolledWith row.id ∧ row.useCount ≤ row.maxUses) ∧
      s.db = s.committed.foldl (fun t c => t.apply c.2) start ∧
      ∀ k status, s.phase k = .ended (.failed status) → ∀ c ∈ s.committed, c.1 ≠ k := by
  intro s
  have hinit : TokenInv (System.init C ι start) := ⟨hstart, fun _ => ⟨rfl, rfl⟩⟩
  have htokens : TokenInv s := run_invariant (fun _ e h => h.step e) hinit events
  have hlogged : Logged start s := by
    refine run_invariant (I := Logged start) (fun _ e h => h.step e) ⟨rfl, ?_, ?_⟩ events
    · intro c hc
      cases hc
    · intro k outcome hphase
      cases hphase
  refine ⟨htokens.balanced.counts, hlogged.db, fun k status hfailed c hc heq => ?_⟩
  obtain ⟨outcome, hphase, hok⟩ := hlogged.ended c hc
  rw [heq, hfailed] at hphase
  cases hphase
  cases hok

/-- The columns of a pool that is inserted with a tenant only: `100.64.0.0/10` and
`fd00:a70::/48`. -/
def defaultPool : Pool :=
  ⟨⟨.v4 0x64400000#32, 10, by decide⟩, ⟨.v6 0xfd000a70000000000000000000000000#128, 48, by decide⟩⟩

def oneUseToken : TokenRow where
  tenantId := 7
  deviceName := none
  deviceKind := "agent"
  deviceClassId := none
  requireAttestation := false
  requireApproval := false
  expectedFingerprint := none
  id := 70
  tokenHash := hashToken transparentHybrid "token"
  podIds := []
  maxUses := 1
  useCount := 0
  expiresAt := 2000

def oneUse : Tables where
  tokens := [oneUseToken]
  devices := []
  devicePods := []
  enrollments := []
  pods := []
  deviceClasses := []
  pools tenant := if tenant = 7 then some defaultPool else none

def race : List (Event transparentHybrid Bool) :=
  let call (device : Uuid) : Call transparentHybrid :=
    ⟨⟨"token", some (tpmCsr 5), none, none, "laptop"⟩, none, device, quietCa⟩
  [.enroll false (call 1), .enroll true (call 2)] ++
    (List.replicate 11 [.next false 1000, .next true 1000]).flatten

theorem token_accounting_race :
    oneUse.Balanced ∧
      let s := run (step transparentBinding) (System.init transparentHybrid Bool oneUse) race
      (∀ row ∈ s.db.tokens, row.useCount = s.db.enrolledWith row.id ∧ row.useCount ≤ row.maxUses) ∧
        s.db.tokens.map (·.useCount) = [1] ∧ s.committed.map (·.1) = [false] := by
  have hstart : oneUse.Balanced := ⟨by decide, by decide⟩
  exact ⟨hstart, (token_accounting transparentBinding oneUse hstart race).1, by decide +kernel⟩

end Avon.Control.Enrollment
