import Avon.Proofs.Lifecycle

/-!
# Deprovisioning by an identity provider

The statements of a SCIM request are committed one by one, and the audit log refuses the type of
actor that SCIM gives. `allOrNothing_iff`: a request is all or nothing only if it changes neither
the user nor a device (`Harmless`).
-/

set_option autoImplicit false

namespace Avon.Lifecycle.Scim

open Avon.Lib.Outcomes Avon.Lib.Outcomes.Prog

variable {accepts : List (Field × Json) → Bool} {tenant : TenantId} {id : UserId} {s : System}
  {user : UserRow} {c : Changes}

/-- The user is inactive, and so are the devices that the user has enrolled. -/
def Deprovisioned (id : UserId) (db : Db) : Prop :=
  (∀ u ∈ db.users, u.id = id → u.isActive = false) ∧ activeDevices id db = []

/-- After success the user is deprovisioned, and after a failure nothing has changed. -/
def AllOrNothing (id : UserId) (s : System) (o : Except Failure Unit × System) : Prop :=
  match o.1 with
  | .ok _ => Deprovisioned id o.2.db
  | .error _ => o.2.db = s.db

def Changes.refused (accepts : List (Field × Json) → Bool) (c : Changes) : Bool :=
  !(c.others.isEmpty || accepts c.others)

/-- An update changes nothing about a user, and if it succeeds the rest is harmless. -/
def Changes.Harmless (accepts : List (Field × Json) → Bool) (user : UserRow) (rest : Prop)
    (c : Changes) : Prop :=
  user.managedBy ≠ .scim ∨ boolParam c.active = none ∨
    ((∀ b, boolParam c.active = some (some b) → b = user.isActive) ∧
      (c.refused accepts = true ∨ rest))

/-- The steps of a PATCH change nothing about a user, and if they all succeed the user is
deprovisioned. -/
def Harmless (accepts : List (Field × Json) → Bool) (user : UserRow) (db : Db) :
    List PatchStep → Prop
  | [] => user.isActive = false ∧ activeDevices user.id db = []
  | .skip :: steps => Harmless accepts user db steps
  | .raise :: _ => True
  | .update c :: steps => c.Harmless accepts user (Harmless accepts user db steps)

def Request.Harmless (accepts : List (Field × Json) → Bool) (user : UserRow) (db : Db) :
    Request → Prop
  | .replaceUser active others => Scim.Harmless accepts user db [.update ⟨.bool active, others⟩]
  | .patchUser operations => Scim.Harmless accepts user db (operations.map PatchOperation.step)
  | .deleteUser => user.managedBy ≠ .scim ∨ Scim.Harmless accepts user db []

structure Target (tenant : TenantId) (id : UserId) (user : UserRow) (s : System) : Prop where
  found : (s.db.users.find? fun u => u.id = id && u.tenantId = tenant) = some user
  key : ∀ u ∈ s.db.users, u.id = id → u = user

namespace Target

section
variable (h : Target tenant id user s)
include h

theorem mem : user ∈ s.db.users ∧ user.id = id := by
  have hmatch := List.find?_some h.found
  simp only [Bool.and_eq_true, decide_eq_true_eq] at hmatch
  exact ⟨List.mem_of_find?_eq_some h.found, hmatch.1⟩

theorem deprovisioned_iff : Deprovisioned id s.db ↔ Scim.Harmless accepts user s.db [] := by
  refine and_congr ⟨fun hall => hall user h.mem.1 h.mem.2, fun hu u hmem hid => ?_⟩
    (by rw [h.mem.2])
  rw [h.key u hmem hid]
  exact hu

theorem setActive_eq : s.db.setActive user.id user.isActive = s.db := by
  have hsame : (s.db.users.map fun u =>
      if u.id = user.id then { u with isActive := user.isActive } else u) = s.db.users := by
    refine (List.map_congr_left fun u hu => ?_).trans (List.map_id _)
    split
    · rename_i hid
      rw [h.key u hu (hid.trans h.mem.2)]
      rfl
    · rfl
  simp only [Db.setActive, hsame]

theorem setActive_ne {b : Bool} (hb : b ≠ user.isActive) : s.db.setActive user.id b ≠ s.db := by
  intro heq
  have hmem : user ∈ (s.db.setActive user.id b).users := by
    rw [heq]
    exact h.mem.1
  obtain ⟨u, -, hu⟩ := List.mem_map.mp hmem
  split at hu
  · exact hb (congrArg UserRow.isActive hu)
  · rename_i hne
    exact hne (congrArg UserRow.id hu)

theorem mem_getUser {o : Except Failure (Option UserRow) × System} :
    o ∈ getUser tenant id s ↔ o = (.error .internal, s) ∨ o = (.ok (some user), s) := by
  simp [getUser, h.found]

theorem mem_getUser_bind {β : Type} {f : Option UserRow → Handler β}
    {o : Except Failure β × System} :
    o ∈ (getUser tenant id >>= f) s ↔ o = (.error .internal, s) ∨ o ∈ f (some user) s := by
  rw [getUser, mem_query_bind, h.found]

end

end Target

variable {o : Except Failure Unit × System}

theorem mem_writeOthers : o ∈ writeOthers accepts c s ↔
    o = (.error .internal, s) ∨ (c.refused accepts = false ∧ o = (.ok (), s)) := by
  unfold writeOthers Changes.refused
  cases c.others.isEmpty || accepts c.others <;> simp [statement]

theorem mem_logScim : o ∈ logActivity "scim" s ↔ o = (.error .internal, s) := by
  simp [logActivity, statement]

theorem setStatus_ne {device : DeviceId} {db : Db} (hd : device ∈ activeDevices id db) :
    db.setStatus device .suspended ≠ db := by
  intro heq
  obtain ⟨row, hrow, rfl⟩ := List.mem_map.mp hd
  simp only [List.mem_filter, Bool.and_eq_true, decide_eq_true_eq] at hrow
  have hmem : row ∈ (db.setStatus row.id .suspended).devices := by
    rw [heq]
    exact hrow.1
  obtain ⟨d, -, hrow'⟩ := List.mem_map.mp hmem
  split at hrow'
  · simp [← hrow'] at hrow
  · rename_i hne
    exact hne (congrArg DeviceRow.id hrow')

/-! ### Deprovisioning -/

theorem of_mem_deprovisionUser (h : Target tenant id user s) (hdone : Harmless accepts user s.db [])
    (ho : o ∈ deprovisionUser user.id s) : o = (.error .internal, s) ∨ o = (.ok (), s) := by
  obtain ⟨hinactive, hidle⟩ := hdone
  have hset : ∀ o ∈ setActive user.id false s, o = (.error .internal, s) ∨ o = (.ok (), s) := by
    intro o ho
    rw [← hinactive] at ho
    simpa [setActive, statement, h.setActive_eq] using ho
  rcases mem_bind.mp ho with ⟨_, s', hs, ho⟩ | ⟨e, s', hs, rfl⟩
  · obtain hs | hs := hset _ hs <;> cases hs
    rcases mem_query_bind.mp ho with rfl | ho
    · exact .inl rfl
    · rw [hidle] at ho
      exact .inr (mem_pure.mp ho)
  · exact hset _ hs

theorem deprovisionUser_harms (h : Target tenant id user s)
    (hbad : ¬ Harmless accepts user s.db []) :
    ∃ e s', (.error e, s') ∈ deprovisionUser user.id s ∧ s'.db ≠ s.db := by
  have hset : (.ok (), { s with db := s.db.setActive user.id false }) ∈
      setActive user.id false s := by
    simp [setActive, statement]
  by_cases hactive : user.isActive = true
  · -- the devices cannot be read
    exact ⟨_, _, mem_bind.mpr (.inl ⟨_, _, hset, mem_query_bind.mpr (.inl rfl)⟩),
      h.setActive_ne (by simp [hactive])⟩
  -- the first device is suspended, and the log refuses the entry
  have hsame : s.db.setActive user.id false = s.db := by
    rw [Bool.not_eq_true] at hactive
    exact hactive ▸ h.setActive_eq
  rw [hsame] at hset
  obtain ⟨device, rest, hdevices⟩ : ∃ device rest, activeDevices user.id s.db = device :: rest := by
    refine List.exists_cons_of_ne_nil fun hnil => hbad ⟨by simpa using hactive, hnil⟩
  have hmem : device ∈ activeDevices user.id s.db := by simp [hdevices]
  refine ⟨.internal, { s with db := s.db.setStatus device .suspended },
    mem_bind.mpr (.inl ⟨_, s, hset, mem_query_bind.mpr (.inr ?_)⟩), setStatus_ne hmem⟩
  rw [hdevices]
  refine mem_bind.mpr (.inr ⟨_, _, mem_bind.mpr (.inl ⟨(), _, ?_, mem_logScim.mpr rfl⟩), rfl⟩)
  simp [writeStatus, statement]

/-! ### An update -/

section Update

variable (h : Target tenant id user s)
include h

variable {steps : List PatchStep} {req : Request} {rest : Prop}

theorem of_mem_writeActive (hsame : ∀ b, boolParam c.active = some (some b) → b = user.isActive)
    (ho : o ∈ writeActive user c.active s) :
    o = (.error .internal, s) ∨ (boolParam c.active ≠ none ∧ o = (.ok (), s)) := by
  unfold writeActive at ho
  cases hflag : boolParam c.active with
  | none =>
    rw [hflag] at ho
    exact .inl (mem_raise.mp ho)
  | some flag =>
    rw [hflag] at ho
    cases flag with
    | none => exact .inr ⟨by simp, mem_pure.mp ho⟩
    | some b =>
      obtain rfl := hsame b hflag
      simpa [setActive, statement, h.setActive_eq] using ho

theorem mem_writeActive (hsame : ∀ b, boolParam c.active = some (some b) → b = user.isActive)
    (hbool : boolParam c.active ≠ none) : (.ok (), s) ∈ writeActive user c.active s := by
  obtain ⟨flag, hflag⟩ := Option.ne_none_iff_exists'.mp hbool
  unfold writeActive
  rw [hflag]
  cases flag with
  | none => exact mem_pure.mpr rfl
  | some b =>
    obtain rfl := hsame b hflag
    simp [setActive, statement, h.setActive_eq]

theorem of_mem_updateUser (hok : c.Harmless accepts user rest)
    {o : Except Failure (Option UserRow) × System} (ho : o ∈ updateUser accepts tenant id c s) :
    (∃ e, o = (.error e, s)) ∨ (rest ∧ o = (.ok (some user), s)) := by
  rcases h.mem_getUser_bind.mp ho with rfl | ho
  · exact .inl ⟨_, rfl⟩
  by_cases hscim : user.managedBy = .scim
  · simp only [hscim, if_true] at ho
    have hsame : ∀ b, boolParam c.active = some (some b) → b = user.isActive := by
      intro b hb
      rcases hok with hlocal | hnone | ⟨hsame, -⟩
      · exact absurd hscim hlocal
      · simp [hnone] at hb
      · exact hsame b hb
    rcases mem_bind.mp ho with ⟨_, s', hs, ho⟩ | ⟨e, s', hs, rfl⟩
    · obtain hs | ⟨hbool, hs⟩ := of_mem_writeActive h hsame hs <;> cases hs
      rcases mem_bind.mp ho with ⟨_, s', hs, ho⟩ | ⟨e, s', hs, rfl⟩
      · obtain hs | ⟨hrefused, hs⟩ := mem_writeOthers.mp hs <;> cases hs
        have hrest : rest := by
          rcases hok with hlocal | hnone | ⟨-, hyes | hrest⟩
          · exact absurd hscim hlocal
          · exact absurd hnone hbool
          · simp [hrefused] at hyes
          · exact hrest
        exact (h.mem_getUser.mp ho).imp (fun ho => ⟨_, ho⟩) fun ho => ⟨hrest, ho⟩
      · obtain hs | ⟨-, hs⟩ := mem_writeOthers.mp hs <;> cases hs
        exact .inl ⟨_, rfl⟩
    · obtain hs | ⟨-, hs⟩ := of_mem_writeActive h hsame hs <;> cases hs
      exact .inl ⟨_, rfl⟩
  · simp only [hscim, if_false] at ho
    exact .inl ⟨_, mem_raise.mp ho⟩

theorem updateUser_commits (hscim : user.managedBy = .scim) {b : Bool}
    (hb : boolParam c.active = some (some b)) (hne : b ≠ user.isActive) :
    ∃ e s', (.error e, s') ∈ updateUser accepts tenant id c s ∧ s'.db ≠ s.db := by
  have hin : ∀ {o}, o ∈ (writeActive user c.active >>= fun _ => do
      writeOthers accepts c
      getUser tenant id) s → o ∈ updateUser accepts tenant id c s := by
    intro o ho
    refine h.mem_getUser_bind.mpr (.inr ?_)
    simpa only [hscim, if_true] using ho
  by_cases hcase : b = false ∧ user.isActive = true
  · have hbad : ¬ Harmless accepts user s.db [] := fun hdone => by simp [hdone.1] at hcase
    obtain ⟨e, s', hs, hdb⟩ := deprovisionUser_harms h hbad
    refine ⟨e, s', hin (mem_bind.mpr (.inr ⟨e, s', ?_, rfl⟩)), hdb⟩
    simpa only [writeActive, hb, if_pos hcase] using hs
  refine ⟨.internal, { s with db := s.db.setActive user.id b }, hin (mem_bind.mpr (.inl ⟨(), _, ?_,
    mem_bind.mpr (.inr ⟨_, _, mem_writeOthers.mpr (.inl rfl), rfl⟩)⟩)), h.setActive_ne hne⟩
  simp only [writeActive, hb, if_neg hcase]
  simp [setActive, statement]

theorem updateUser_harms (hbad : ¬ c.Harmless accepts user rest) :
    (∃ e s', (.error e, s') ∈ updateUser accepts tenant id c s ∧ s'.db ≠ s.db) ∨
      (¬ rest ∧ (.ok (some user), s) ∈ updateUser accepts tenant id c s) := by
  simp only [Changes.Harmless, not_or, not_and, not_not, Bool.not_eq_true] at hbad
  obtain ⟨hscim, hbool, hbad⟩ := hbad
  by_cases hsame : ∀ b, boolParam c.active = some (some b) → b = user.isActive
  · obtain ⟨hrefused, hrest⟩ := hbad hsame
    refine .inr ⟨hrest, h.mem_getUser_bind.mpr (.inr ?_)⟩
    simp only [hscim, if_true]
    refine mem_bind.mpr (.inl ⟨_, s, mem_writeActive h hsame hbool, ?_⟩)
    exact mem_bind.mpr (.inl ⟨_, s, mem_writeOthers.mpr (.inr ⟨hrefused, rfl⟩),
      h.mem_getUser.mpr (.inr rfl)⟩)
  simp only [not_forall] at hsame
  obtain ⟨b, hb, hne⟩ := hsame
  exact .inl (updateUser_commits h hscim hb hne)

/-! ### A PATCH -/

theorem of_mem_patchSteps (hok : Harmless accepts user s.db steps)
    (ho : o ∈ patchSteps accepts tenant id steps s) :
    (∃ e, o = (.error e, s)) ∨ (o = (.ok (), s) ∧ Deprovisioned id s.db) := by
  induction steps with
  | nil => exact .inr ⟨mem_pure.mp ho, h.deprovisioned_iff.mpr hok⟩
  | cons st steps ih =>
    cases st with
    | skip => exact ih hok ho
    | raise => exact .inl ⟨_, mem_raise.mp ho⟩
    | update c =>
      rcases mem_bind.mp ho with ⟨_, s', hs, ho⟩ | ⟨e, s', hs, rfl⟩
      · obtain ⟨_, hs⟩ | ⟨hrest, hs⟩ := of_mem_updateUser h hok hs <;> cases hs
        exact ih hrest ho
      · obtain ⟨_, hs⟩ | ⟨-, hs⟩ := of_mem_updateUser h hok hs <;> cases hs
        exact .inl ⟨_, rfl⟩

theorem patchSteps_harms (hbad : ¬ Harmless accepts user s.db steps) :
    (∃ e s', (.error e, s') ∈ patchSteps accepts tenant id steps s ∧ s'.db ≠ s.db) ∨
      ((.ok (), s) ∈ patchSteps accepts tenant id steps s ∧ ¬ Deprovisioned id s.db) := by
  induction steps with
  | nil =>
    refine .inr ⟨mem_pure.mpr rfl, fun hdone => hbad ?_⟩
    exact h.deprovisioned_iff.mp hdone
  | cons st steps ih =>
    cases st with
    | skip => exact ih hbad
    | raise => exact absurd trivial hbad
    | update c =>
      rcases updateUser_harms h hbad with ⟨e, s', hs, hne⟩ | ⟨hrest, hs⟩
      · exact .inl ⟨e, s', mem_bind.mpr (.inr ⟨e, s', hs, rfl⟩), hne⟩
      rcases ih hrest with ⟨e, s', hs', hne⟩ | ⟨hs', hnot⟩
      · exact .inl ⟨e, s', mem_bind.mpr (.inl ⟨_, s, hs, hs'⟩), hne⟩
      · exact .inr ⟨mem_bind.mpr (.inl ⟨_, s, hs, hs'⟩), hnot⟩

/-! ### A DELETE -/

theorem of_mem_deleteUser (hok : user.managedBy ≠ .scim ∨ Harmless accepts user s.db [])
    {o : Except Failure Bool × System} (ho : o ∈ deleteUser tenant id s) :
    ∃ e, o = (.error e, s) := by
  rcases h.mem_getUser_bind.mp ho with rfl | ho
  · exact ⟨_, rfl⟩
  by_cases hscim : user.managedBy = .scim
  · simp only [hscim, if_true] at ho
    have hdone := hok.resolve_left (not_not.mpr hscim)
    rcases mem_bind.mp ho with ⟨_, s', hs, ho⟩ | ⟨e, s', hs, rfl⟩
    · obtain hs | hs := of_mem_deprovisionUser h hdone hs <;> cases hs
      rcases mem_bind.mp ho with ⟨_, s', hs, -⟩ | ⟨e, s', hs, rfl⟩ <;> cases mem_logScim.mp hs
      exact ⟨_, rfl⟩
    · obtain hs | hs := of_mem_deprovisionUser h hdone hs <;> cases hs
      exact ⟨_, rfl⟩
  · simp only [hscim, if_false] at ho
    exact ⟨_, mem_raise.mp ho⟩

theorem deleteUser_harms (hbad : ¬ (user.managedBy ≠ .scim ∨ Harmless accepts user s.db [])) :
    ∃ e s', (.error e, s') ∈ deleteUser tenant id s ∧ s'.db ≠ s.db := by
  rw [not_or, not_not] at hbad
  obtain ⟨e, s', hs, hdb⟩ := deprovisionUser_harms h hbad.2
  refine ⟨e, s', h.mem_getUser_bind.mpr (.inr ?_), hdb⟩
  simp only [hbad.1, if_true]
  exact mem_bind.mpr (.inr ⟨e, s', hs, rfl⟩)

/-! ### Requests -/

theorem allOrNothing_of_harmless (hok : req.Harmless accepts user s.db)
    (ho : o ∈ handle accepts tenant id req s) :
    AllOrNothing id s o := by
  cases req with
  | replaceUser active others =>
    rcases mem_bind.mp ho with ⟨_, s', hs, ho⟩ | ⟨e, s', hs, rfl⟩
    · obtain ⟨_, hs⟩ | ⟨hdone, hs⟩ := of_mem_updateUser h hok hs <;> cases hs
      obtain rfl := mem_pure.mp ho
      exact h.deprovisioned_iff.mpr hdone
    · obtain ⟨_, hs⟩ | ⟨-, hs⟩ := of_mem_updateUser h hok hs <;> cases hs
      rfl
  | patchUser operations =>
    rcases mem_bind.mp ho with ⟨_, s', hs, ho⟩ | ⟨e, s', hs, rfl⟩
    · obtain ⟨_, hs⟩ | ⟨hs, hdone⟩ := of_mem_patchSteps h hok hs <;> cases hs
      rcases h.mem_getUser_bind.mp ho with rfl | ho
      · rfl
      · obtain rfl := mem_pure.mp ho
        exact hdone
    · obtain ⟨_, hs⟩ | ⟨hs, -⟩ := of_mem_patchSteps h hok hs <;> cases hs
      rfl
  | deleteUser =>
    rcases mem_bind.mp ho with ⟨_, s', hs, -⟩ | ⟨e, s', hs, rfl⟩ <;>
      obtain ⟨_, hs⟩ := of_mem_deleteUser h hok hs <;> cases hs
    rfl

theorem harmless_of_allOrNothing
    (hall : ∀ o ∈ handle accepts tenant id req s, AllOrNothing id s o) :
    req.Harmless accepts user s.db := by
  by_contra hbad
  cases req with
  | replaceUser active others =>
    rcases updateUser_harms h hbad with ⟨e, s', hs, hdb⟩ | ⟨hnot, hs⟩
    · exact hdb (hall _ (mem_bind.mpr (.inr ⟨e, s', hs, rfl⟩)))
    · exact hnot (h.deprovisioned_iff.mp (hall (.ok (), s) (mem_bind.mpr (.inl ⟨_, s, hs,
        mem_pure.mpr rfl⟩))))
  | patchUser operations =>
    rcases patchSteps_harms h hbad with ⟨e, s', hs, hdb⟩ | ⟨hs, hnot⟩
    · exact hdb (hall _ (mem_bind.mpr (.inr ⟨e, s', hs, rfl⟩)))
    · exact hnot (hall (.ok (), s) (mem_bind.mpr (.inl ⟨_, s, hs,
        h.mem_getUser_bind.mpr (.inr (mem_pure.mpr rfl))⟩)))
  | deleteUser =>
    obtain ⟨e, s', hs, hdb⟩ := deleteUser_harms h hbad
    exact hdb (hall _ (mem_bind.mpr (.inr ⟨e, s', hs, rfl⟩)))

end Update

/-- A SCIM request about a user is all or nothing exactly if it is harmless. -/
theorem allOrNothing_iff (accepts : List (Field × Json) → Bool) (tenant : TenantId) (id : UserId)
    (user : UserRow) (req : Request) (s : System) (h : Target tenant id user s) :
    (∀ o ∈ handle accepts tenant id req s, AllOrNothing id s o) ↔ req.Harmless accepts user s.db :=
  ⟨harmless_of_allOrNothing h, fun hok _ => allOrNothing_of_harmless h hok⟩

def account (isActive : Bool) : UserRow := ⟨1, 1, false, isActive, .scim⟩

def provisioned (isActive : Bool) (status : Control.DeviceStatus) : System :=
  { office status with db := { (office status).db with users := [account isActive] } }

/-- Deleting an account that is deprovisioned already. -/
theorem allOrNothing_provisioned :
    let outcomes := handle (fun _ => true) 1 1 .deleteUser (provisioned false .suspended)
    outcomes ≠ [] ∧ ∀ o ∈ outcomes, AllOrNothing 1 (provisioned false .suspended) o :=
  ⟨List.cons_ne_nil _ _,
    (allOrNothing_iff _ 1 1 (account false) _ _ ⟨rfl, by simp [provisioned]⟩).mpr
      (.inr ⟨rfl, by decide⟩)⟩

/-- Deleting an active account fails, after the account was made inactive and the laptop was
suspended. -/
theorem deleteUser_partial :
    (.error .internal, provisioned false .suspended) ∈
        handle (fun _ => true) 1 1 .deleteUser (provisioned true .active) ∧
      ¬ AllOrNothing 1 (provisioned true .active)
        (.error .internal, provisioned false .suspended) :=
  ⟨List.mem_of_getElem? (i := 4) rfl, by simp [AllOrNothing, provisioned, account]⟩

end Avon.Lifecycle.Scim
