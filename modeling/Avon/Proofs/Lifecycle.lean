import Avon.Lifecycle
import Avon.Proofs.Ca.CrlMonotone

/-!
# What a revocation is worth

No statement that writes a status looks at the one before, so a revoked device can be made active
(`revoked_reactivated`). The `AdminService` acknowledges a revocation without doing anything
(`revokeEndpoint_effective_iff`).
-/

set_option autoImplicit false

namespace Avon.Lifecycle

open Avon.Lib Avon.Lib.Outcomes Avon.Lib.Outcomes.Prog Avon.Lib.Run
open Avon.Control (DeviceStatus SessionRow DOWN_CAPACITY)

/-! ### What leaves the state alone -/

theorem eq_logActivity (actorType : String) : Keeps Eq (logActivity actorType) := by
  refine keeps_statement (fun _ => rfl) _ fun s s' h => ?_
  split at h <;> cases h
  rfl

theorem eq_getCurrentAdmin (id : UserId) : Keeps Eq (getCurrentAdmin id) := by
  refine (keeps_query (fun _ => rfl) _ _).bind_eq fun user => ?_
  cases user with
  | none => exact keeps_raise (fun _ => rfl) _
  | some user =>
    dsimp only
    split
    · exact keeps_raise (fun _ => rfl) _
    split
    · exact keeps_pure (fun _ => rfl) _
    · exact keeps_raise (fun _ => rfl) _

theorem eq_getUser (tenant : TenantId) (id : UserId) : Keeps Eq (Scim.getUser tenant id) :=
  keeps_query (fun _ => rfl) _ _

theorem eq_writeOthers (accepts : List (Scim.Field × Json) → Bool) (c : Scim.Changes) :
    Keeps Eq (Scim.writeOthers accepts c) := by
  refine keeps_statement (fun _ => rfl) _ fun s s' h => ?_
  split at h <;> cases h
  rfl

/-! ### Permanent revocation -/

section Permanent

variable {x : DeviceId} {ε : Type}

/-- Every row of the device is revoked. The id is the primary key, so there is at most one. -/
def Revoked (x : DeviceId) (s : System) : Prop :=
  ∀ row ∈ s.db.devices, row.id = x → row.status = .revoked

/-- The operation is not one that makes this device active or suspended. -/
def Operation.spares (x : DeviceId) : Operation → Bool
  | .approve _ device _ | .suspend _ device | .activate _ device | .controlSuspend _ device _ =>
    device ≠ x
  | _ => true

def Stays (x : DeviceId) (s s' : System) : Prop := Revoked x s → Revoked x s'

theorem stays_refl (s : System) : Stays x s s := id

theorem stays_trans (a b c : System) (hab : Stays x a b) (hbc : Stays x b c) : Stays x a c :=
  hbc ∘ hab

variable {device : DeviceId} {status : DeviceStatus} {s s' : System} {fault : ε}

theorem keeps_of_devices {f : System → Except ε System}
    (h : ∀ s s', f s = .ok s' → s'.db.devices = s.db.devices) :
    Keeps (Stays x) (statement fault f) := by
  refine keeps_statement stays_refl fault fun s s' hs hrev => ?_
  unfold Revoked
  rw [h s s' hs]
  exact hrev

theorem keeps_onPlane (fault : Control.Auth.Status) (f : Plane → Plane) :
    Keeps (Stays x) (onPlane fault f) :=
  keeps_of_devices fun _ _ h => by cases h; rfl

theorem keeps_writeStatus
    (h : device ≠ x ∨ status = .revoked) : Keeps (Stays x) (writeStatus fault device status) := by
  refine keeps_statement stays_refl fault fun s s' hs hrev => ?_
  cases hs
  intro row hrow hid
  obtain ⟨old, hold, rfl⟩ := List.mem_map.mp hrow
  split at hid <;> rename_i hd
  · rcases h with hne | rfl
    · exact absurd (hd.symm.trans hid) hne
    · simp [hd]
  · simpa [hd] using hrev old hold hid

theorem keeps_changeStatus (id : UserId) (h : device ≠ x)
    (status : DeviceStatus) (already word : String) :
    Keeps (Stays x) (changeStatus id device status already word) := by
  refine ((eq_getCurrentAdmin id).of_eq stays_refl).bind stays_trans fun user =>
    (keeps_query stays_refl _ _).bind stays_trans fun row => ?_
  cases row with
  | none => exact keeps_raise stays_refl _
  | some d =>
    dsimp only
    split
    · exact keeps_raise stays_refl _
    · exact (keeps_writeStatus (.inl h)).bind stays_trans fun _ =>
        ((eq_logActivity _).of_eq stays_refl).bind stays_trans fun _ => keeps_pure stays_refl _

theorem keeps_throughControl (id : UserId) (method : TenantId → Plane → Ack × Plane)
    (error : String)
    (h : device ≠ x ∨ status = .revoked) :
    Keeps (Stays x) (throughControl id method error device status) :=
  ((eq_getCurrentAdmin id).of_eq stays_refl).bind stays_trans fun _ =>
    (keeps_of_devices fun _ _ h => by cases h; rfl).bind stays_trans fun _ =>
      (keeps_writeStatus h).bind stays_trans fun _ => ((eq_logActivity _).of_eq stays_refl).suppress

/-! SCIM suspends the devices that it has just read as active. -/

theorem keeps_setActive (id : UserId) (isActive : Bool) :
    Keeps (Stays x) (Scim.setActive id isActive) :=
  keeps_of_devices fun _ _ h => by cases h; rfl

theorem keeps_deprovisionUser (id : UserId) : Keeps (Stays x) (Scim.deprovisionUser id) := by
  refine (keeps_setActive id false).bind stays_trans fun _ => ?_
  intro s o ho hrev
  rcases mem_query_bind.mp ho with rfl | ho
  · exact hrev
  refine keeps_forEach stays_refl stays_trans _ (fun device hd => ?_) s o ho hrev
  obtain ⟨row, hrow, rfl⟩ := List.mem_map.mp hd
  simp only [List.mem_filter, Bool.and_eq_true, decide_eq_true_eq] at hrow
  have hne : row.id ≠ x := fun hid => by simp [hrev row hrow.1 hid] at hrow
  exact (keeps_writeStatus (.inl hne)).bind stays_trans fun _ => (eq_logActivity _).of_eq stays_refl

theorem keeps_updateUser (accepts : List (Scim.Field × Json) → Bool) (tenant : TenantId)
    (id : UserId) (c : Scim.Changes) : Keeps (Stays x) (Scim.updateUser accepts tenant id c) := by
  refine ((eq_getUser tenant id).of_eq stays_refl).bind stays_trans fun user => ?_
  cases user with
  | none => exact keeps_pure stays_refl _
  | some user =>
    dsimp only
    split
    · refine Keeps.bind stays_trans ?_ fun _ => Keeps.bind stays_trans ?_ fun _ =>
        (eq_getUser tenant id).of_eq stays_refl
      · unfold Scim.writeActive
        split
        · exact keeps_raise stays_refl _
        · exact keeps_pure stays_refl _
        split
        · exact keeps_deprovisionUser _
        · exact keeps_setActive _ _
      · exact (eq_writeOthers accepts c).of_eq stays_refl
    · exact keeps_raise stays_refl _

theorem keeps_unless (c : Bool) (status : ℕ) (detail : String) :
    Keeps (Stays x) (if c then fail status detail else pure () : Handler Unit) := by
  cases c
  · exact keeps_pure stays_refl _
  · exact keeps_raise stays_refl _

theorem keeps_patchSteps (accepts : List (Scim.Field × Json) → Bool) (tenant : TenantId)
    (id : UserId) (steps : List Scim.PatchStep) :
    Keeps (Stays x) (Scim.patchSteps accepts tenant id steps) := by
  induction steps with
  | nil => exact keeps_pure stays_refl _
  | cons st steps ih =>
    cases st with
    | skip => exact ih
    | raise => exact keeps_raise stays_refl _
    | update c => exact (keeps_updateUser accepts tenant id c).bind stays_trans fun _ => ih

theorem keeps_handle (accepts : List (Scim.Field × Json) → Bool) (tenant : TenantId) (id : UserId)
    (req : Scim.Request) : Keeps (Stays x) (Scim.handle accepts tenant id req) := by
  cases req with
  | replaceUser active others =>
    exact (keeps_updateUser accepts tenant id _).bind stays_trans fun _ => keeps_unless _ _ _
  | patchUser operations =>
    exact (keeps_patchSteps accepts tenant id _).bind stays_trans fun _ =>
      ((eq_getUser tenant id).of_eq stays_refl).bind stays_trans fun _ => keeps_unless _ _ _
  | deleteUser =>
    have hget := (eq_getUser tenant id).of_eq (stays_refl (x := x))
    refine Keeps.bind stays_trans (hget.bind stays_trans fun user => ?_)
      fun _ => keeps_unless _ _ _
    cases user with
    | none => exact keeps_pure stays_refl _
    | some user =>
      dsimp only
      split
      · exact (keeps_deprovisionUser _).bind stays_trans fun _ =>
          ((eq_logActivity _).of_eq stays_refl).bind stays_trans fun _ => keeps_pure stays_refl _
      · exact keeps_raise stays_refl _

/-! The control plane. -/

theorem keeps_suspendDevice (K : ControlEnv) (h : device ≠ x)
    (reason : String) : Keeps (Stays x) (suspendDevice K device reason) :=
  (keeps_writeStatus (.inl h)).bind stays_trans fun _ =>
    (keeps_onPlane _ _).bind stays_trans fun _ =>
      (keeps_query stays_refl _ _).bind stays_trans fun _ => (keeps_onPlane _ _).suppress

theorem keeps_revokeDevice (K : ControlEnv) (device : DeviceId) (reason : String) :
    Keeps (Stays x) (revokeDevice K device reason) := by
  refine (keeps_writeStatus (.inr rfl)).bind stays_trans fun _ =>
    (keeps_query stays_refl _ _).bind stays_trans fun serials => ?_
  refine (keeps_forEach stays_refl stays_trans serials fun _ _ => keeps_onPlane _ _).bind
    stays_trans fun _ => Keeps.bind stays_trans ?_ fun _ =>
      (keeps_onPlane _ _).bind stays_trans fun _ => (keeps_onPlane _ _).suppress
  unfold publishLast
  split
  · exact keeps_pure stays_refl _
  · exact keeps_onPlane _ _

theorem stays_of_mem {α : Type} {p : Prog System ε α}
    (hs : s' ∈ (p s).map Prod.snd) (h : Keeps (Stays x) p) : Stays x s s' := by
  obtain ⟨o, ho, rfl⟩ := List.mem_map.mp hs
  exact h s o ho

theorem stays_ends {op : Operation} (h : op.spares x = true)
    (hs : s' ∈ op.ends s) : Stays x s s' := by
  cases op with
  | approve id device error =>
    exact stays_of_mem hs (keeps_throughControl id _ error (.inl (of_decide_eq_true h)))
  | suspend | activate => exact stays_of_mem hs (keeps_changeStatus _ (of_decide_eq_true h) _ _ _)
  | revoke id device reason error =>
    exact stays_of_mem hs (keeps_throughControl id _ error (.inr rfl))
  | scim accepts tenant id req => exact stays_of_mem hs (keeps_handle accepts tenant id req)
  | controlSuspend K device reason =>
    exact stays_of_mem hs (keeps_suspendDevice K (of_decide_eq_true h) reason)
  | controlRevoke K device reason => exact stays_of_mem hs (keeps_revokeDevice K device reason)

/-- A revoked device stays revoked in every sequence of operations of which none approves,
suspends or activates it. -/
theorem revoked_permanent (s : System) (events : List (Operation × ℕ))
    (hspares : ∀ e ∈ events, e.1.spares x = true) (hrev : Revoked x s) :
    Revoked x (run step s events) := by
  induction events generalizing s with
  | nil => exact hrev
  | cons e events ih =>
    refine ih (step s e) (fun e' he' => hspares e' (List.mem_cons_of_mem _ he')) ?_
    unfold step
    cases hend : (e.1.ends s)[e.2]? with
    | none => exact hrev
    | some s' =>
      exact stays_ends (hspares e (by simp)) (List.mem_of_getElem? hend) hrev

def owner : UserRow := ⟨1, 1, true, true, .locally⟩

def office (status : DeviceStatus) : System where
  db := ⟨[owner], [⟨2, 1, "laptop", status, some 1⟩]⟩
  plane := ⟨0, [⟨3, 2, 1000, false⟩], [], .empty, [], fun _ => none⟩

/-- The laptop is revoked once more and the user that has enrolled it is deleted by the identity
provider. -/
theorem revoked_permanent_office :
    Revoked 2 (run step (office .revoked)
      [(.revoke 1 2 "lost" "timeout", 4), (.scim (fun _ => true) 1 1 .deleteUser, 1)]) :=
  revoked_permanent _ _ (by decide) (by unfold Revoked; decide)

/-- A revoked laptop can be activated, approved and suspended. -/
theorem revoked_reactivated :
    Revoked 2 (office .revoked) ∧
    (run step (office .revoked) [(.activate 1 2, 4)]).db.devices.map DeviceRow.status = [.active] ∧
    (run step (office .revoked) [(.approve 1 2 "", 4)]).db.devices.map DeviceRow.status =
      [.active] ∧
    (run step (office .revoked) [(.suspend 1 2, 4)]).db.devices.map DeviceRow.status =
      [.suspended] ∧
    (run step (office .revoked) [(.controlSuspend ⟨60, fun _ => true⟩ 2 "lost", 4)]).db.devices.map
      DeviceRow.status = [.suspended] := by
  refine ⟨by unfold Revoked; decide, by decide, by decide, by decide, by decide⟩

end Permanent

/-! ### Acknowledged revocation -/

/-- Nothing is left to revoke: no session token is accepted, no session is open, and the unexpired
certificates are on the CRL. -/
structure Settled (device : DeviceId) (p : Plane) : Prop where
  tokens : ∀ token info, lookup p token = some info → info.device ≠ device
  closed : ∀ row ∈ p.sessions, openFor device row = false
  listed : ∀ c ∈ p.certificates, c.subjectId = device → p.now < c.notAfter → c.serial ∈ p.crl

/-- What `revoke_device` of the control plane is to achieve between two states. The gateways of the
sessions that were open are told. -/
structure Effective (device : DeviceId) (reason : String) (before after : Plane) : Prop
    extends Settled device after where
  told : ∀ row ∈ before.sessions, openFor device row = true → ∀ g queue, row.gatewayId = some g →
    after.gateways g = some queue → .close row.id reason ∈ queue ∨ DOWN_CAPACITY ≤ queue.length

theorem plane_revokeEndpoint (id : UserId) (device : DeviceId) (reason error : String) :
    Keeps (fun s s' => s.plane = s'.plane) (revokeEndpoint id device reason error) := by
  have hrefl : ∀ s : System, s.plane = s.plane := fun _ => rfl
  have htrans : ∀ a b c : System, a.plane = b.plane → b.plane = c.plane → a.plane = c.plane :=
    fun _ _ _ => Eq.trans
  refine ((eq_getCurrentAdmin id).of_eq hrefl).bind htrans fun user =>
    Keeps.bind htrans ?_ fun _ => Keeps.bind htrans ?_ fun _ =>
      ((eq_logActivity _).of_eq hrefl).suppress
  · exact keeps_statement hrefl _ fun _ _ h => by cases h; rfl
  · exact keeps_statement hrefl _ fun _ _ h => by cases h; rfl

/-- If the endpoint answers with success, the device is revoked in the control plane only if there
was nothing to do before. -/
theorem revokeEndpoint_effective_iff (id : UserId) (device : DeviceId) (reason error : String)
    (s s' : System) (hok : (.ok (), s') ∈ revokeEndpoint id device reason error s) :
    Effective device reason s.plane s'.plane ↔ Settled device s.plane := by
  have hplane : s.plane = s'.plane := plane_revokeEndpoint id device reason error s _ hok
  rw [← hplane]
  refine ⟨fun h => h.toSettled, fun h => ⟨h, fun row hrow hopen => ?_⟩⟩
  simp [h.closed row hrow] at hopen

def served : System :=
  { office .active with plane := { (office .active).plane with
      sessions := [⟨5, 2, none, some 4, .active⟩]
      gateways := fun _ => some [] } }

def acknowledged : System := { served with db := served.db.setStatus 2 .revoked }

theorem mem_acknowledged : (.ok (), acknowledged) ∈ revokeEndpoint 1 2 "lost" "" served :=
  List.mem_of_getElem? (i := 4) rfl

/-- The certificate of the laptop is on the CRL already, and nothing else has to be done. -/
def listed : System :=
  { office .active with plane := { (office .active).plane with crl := [3] } }

theorem revokeEndpoint_effective_listed :
    Effective 2 "lost" listed.plane { listed with db := listed.db.setStatus 2 .revoked }.plane := by
  refine (revokeEndpoint_effective_iff 1 2 "lost" "" listed _
    (List.mem_of_getElem? (i := 4) rfl)).mpr ⟨fun token info h => ?_, nofun, fun c hc _ _ => ?_⟩
  · cases h
  · cases List.mem_singleton.mp hc
    decide

/-- The endpoint has answered with success. The session is open, the gateway was told nothing, and
the certificate is not on the CRL. -/
theorem revokeEndpoint_ineffective :
    (.ok (), acknowledged) ∈ revokeEndpoint 1 2 "lost" "" served ∧
      acknowledged.plane.sessions.any (openFor 2) = true ∧
      acknowledged.plane.gateways 4 = some [] ∧ 3 ∉ acknowledged.plane.crl ∧
      ¬ Effective 2 "lost" served.plane acknowledged.plane := by
  refine ⟨mem_acknowledged, by decide, rfl, by decide, fun h => ?_⟩
  exact absurd (h.listed ⟨3, 2, 1000, false⟩ (by decide) rfl (by decide)) (by decide)

/-! ### Revocation by the control plane -/

section
variable {K : ControlEnv} {device : DeviceId} {reason : String} {s s' : System} {msg : Down}
  {gateways : GatewayId → Option (List Down)} {g : GatewayId}

theorem ok_onPlane {fault : Control.Auth.Status} {f : Plane → Plane}
    (h : (.ok (), s') ∈ onPlane fault f s) : s' = { s with plane := f s.plane } := by
  have hs := ok_mem_statement.mp h
  exact (Except.ok.inj hs).symm

theorem ok_forEach_caRevoke {serials : List Ca.Serial}
    (h : (.ok (), s') ∈ forEach serials caRevoke s) :
    s' = { s with plane := { s.plane with
      certificates := s.plane.certificates.map fun c =>
        { c with revoked := c.revoked || decide (c.serial ∈ serials) } } } := by
  induction serials generalizing s with
  | nil =>
    cases mem_pure.mp h
    simp
  | cons serial serials ih =>
    obtain ⟨_, t, ht, h⟩ := ok_mem_bind.mp h
    rw [ih h, ok_onPlane ht]
    simp only [List.map_map]
    congr 3
    funext c
    by_cases hc : c.serial = serial <;> simp [hc]

/-- A message is in the queue of a gateway that is connected, or there is no room. -/
def Told (msg : Down) (gateway : Option (List Down)) : Prop :=
  ∀ queue, gateway = some queue → msg ∈ queue ∨ DOWN_CAPACITY ≤ queue.length

theorem tell_apply (row : SessionRow) : tell reason gateways row g =
    if row.gatewayId = some g then
      (gateways g).map fun queue => trySend queue (.close row.id reason)
    else gateways g := by
  unfold tell
  cases row.gatewayId with
  | none => simp
  | some g' =>
    by_cases hg : g' = g
    · simp [hg]
    · simp [hg, Function.update_of_ne (Ne.symm hg)]

theorem told_foldl {rows : List SessionRow} {row : SessionRow} (hrow : row ∈ rows)
    (hg : row.gatewayId = some g) :
    Told (.close row.id reason) (rows.foldl (tell reason) gateways g) := by
  induction rows using List.reverseRecOn with
  | nil => cases hrow
  | append_singleton rows r ih =>
    rw [List.foldl_append, List.foldl_cons, List.foldl_nil, tell_apply]
    intro queue hq
    split at hq
    · obtain ⟨old, hold, rfl⟩ := Option.map_eq_some_iff.mp hq
      unfold trySend
      split
      · rcases List.mem_append.mp hrow with hrow | hrow
        · exact (ih hrow old hold).imp (List.mem_append_left _) (by simp; omega)
        · simp [List.mem_singleton.mp hrow]
      · exact .inr (by omega)
    · rename_i hne
      rcases List.mem_append.mp hrow with hrow | hrow
      · exact ih hrow queue hq
      · exact absurd (List.mem_singleton.mp hrow ▸ hg) hne

theorem ok_publishLast (hverifies : ∀ crl, K.verifies crl = true) {serials : List Ca.Serial}
    (h : (.ok (), s') ∈ publishLast K serials s) : ∃ gateways,
      s' = { s with plane := { s.plane with
        crl := if serials = [] then s.plane.crl else caCrl s.plane, gateways } } := by
  unfold publishLast at h
  split at h
  · rename_i hnil
    rw [if_pos (List.isEmpty_iff.mp hnil)]
    exact ⟨_, (Prod.mk.inj (mem_pure.mp h)).2⟩
  · rename_i hne
    rw [if_neg (mt List.isEmpty_iff.mpr hne), ok_onPlane h, publish, if_pos (hverifies _)]
    exact ⟨_, rfl⟩

theorem lookup_ne_of_revokeTokens (httl : 0 < K.ttlSecs)
    (h : (.ok (), s') ∈ revokeTokens K device s) {token : Crypto.Key}
    {info : Control.Auth.SessionInfo} (hlookup : lookup s'.plane token = some info) :
    info.device ≠ device := by
  rintro rfl
  have hs := ok_onPlane h
  have hmarked : s'.plane.redis.get s'.plane.now (Control.Auth.revokedKey info.device) =
      some .marker := by
    subst hs
    exact Expiring.Store.get_eq_some.mpr
      ⟨_, Expiring.Store.setEx_entries_self, Nat.lt_add_of_pos_right (by omega)⟩
  unfold lookup at hlookup
  split at hlookup
  · split at hlookup
    · cases hlookup
    · rename_i hfree
      cases hlookup
      simp [hmarked] at hfree
  · cases hlookup

/-- If `revoke_device` succeeds, it was effective if and only if it leaves no session of the device
open: the statement that closes them is the only one of which a failure is not reported. The lists
of the CA are assumed to verify, and earlier revocations to be on the cached CRL, since that is
replaced only if there is a certificate to revoke. -/
theorem revokeDevice_effective_iff (hverifies : ∀ crl, K.verifies crl = true) (httl : 0 < K.ttlSecs)
    (hlisted : ∀ c ∈ s.plane.certificates, c.subjectId = device → c.revoked = true →
      s.plane.now < c.notAfter → c.serial ∈ s.plane.crl)
    (hok : (.ok (), s') ∈ revokeDevice K device reason s) :
    Effective device reason s.plane s'.plane ↔
      ∀ row ∈ s'.plane.sessions, openFor device row = false := by
  refine ⟨fun h => h.closed, fun hclosed => ?_⟩
  obtain ⟨_, s₁, h₁, hok⟩ := ok_mem_bind.mp hok
  have hs₁ := ok_mem_statement.mp h₁
  cases hs₁
  rcases mem_query_bind.mp hok with herror | hok
  · cases herror
  have hserials : ∀ c ∈ s.plane.certificates, c.subjectId = device → c.revoked = true ∨
      c.serial ∈ (s.plane.certificates.filter fun c => c.subjectId = device && !c.revoked).map
        CertificateRow.serial := by
    intro c hc hsubject
    by_cases hrev : c.revoked = true
    · exact .inl hrev
    · exact .inr (List.mem_map_of_mem (List.mem_filter.mpr ⟨hc, by simp [hsubject, hrev]⟩))
  obtain ⟨_, s₂, h₂, hok⟩ := ok_mem_bind.mp hok
  obtain ⟨_, s₃, h₃, hok⟩ := ok_mem_bind.mp hok
  obtain ⟨_, s₄, h₄, hok⟩ := ok_mem_bind.mp hok
  generalize List.map CertificateRow.serial _ = serials at h₂ h₃ hserials
  obtain rfl := ok_forEach_caRevoke h₂
  obtain ⟨gateways, rfl⟩ := ok_publishLast hverifies h₃
  have htokens := fun token info => @lookup_ne_of_revokeTokens _ _ _ _ httl h₄ token info
  have hs₄ := ok_onPlane h₄
  have hlists : ∀ c ∈ s₄.plane.certificates, c.subjectId = device → s₄.plane.now < c.notAfter →
      c.serial ∈ s₄.plane.crl := by
    rw [hs₄]
    intro c hc hsubject hlive
    obtain ⟨old, hold, rfl⟩ := List.mem_map.mp hc
    have hrevoked := hserials old hold hsubject
    dsimp only
    split
    · rename_i hnil
      exact hlisted old hold hsubject (hrevoked.resolve_right (by simp [hnil])) hlive
    · refine Ca.mem_revokedSerials.mpr ⟨_, List.mem_map_of_mem hc, ?_, hlive, rfl⟩
      simpa [CertificateRow.toCa] using hrevoked
  subst hs₄
  obtain ⟨o, ho, heq⟩ := List.mem_map.mp hok
  obtain rfl : o.2 = s' := (Prod.mk.inj heq).2
  rcases List.mem_cons.mp ho with rfl | ho
  · refine ⟨⟨htokens, hclosed, hlists⟩, fun row hrow hopen => ?_⟩
    exact absurd hopen (by simp [hclosed row hrow])
  · obtain rfl := List.mem_singleton.mp ho
    exact ⟨⟨htokens, hclosed, hlists⟩, fun row hrow hopen g queue hg hq =>
      told_foldl (List.mem_filter.mpr ⟨hrow, hopen⟩) hg queue hq⟩

end

end Avon.Lifecycle
