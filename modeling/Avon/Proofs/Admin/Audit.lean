import Avon.Admin.Audit

/-!
# The chain of honest writers

A row that `log_event` inserts extends the chain if it names the hash that is still the last one,
and if what is read of it is what was hashed. Two calls that read the same hash break the chain, and
so does a single float that JSONB gives back as an integer (`chains_broken`).
-/

set_option autoImplicit false

namespace Avon.Admin.Audit

open Avon.Crypto Avon.Lib.JsonText Avon.Lib.HashChain Avon.Lib.Run

variable {E : Env} {tenantId : TenantId}

/-! ### What is hashed -/

@[simp]
theorem sortKeys_optionalId (id : Option Uuid) : sortKeys (optionalId id) = optionalId id := by
  cases id <;> rfl

@[simp]
theorem sortKeys_optionalText (text : Option String) :
    sortKeys (optionalText text) = optionalText text := by
  cases text <;> rfl

theorem sortKeys_payload (E : Env) (tenantId : TenantId) (event : String) (actor : Option Uuid)
    (actorType : String) (target : Option Uuid) (details : Json) (ip requestId : Option String)
    (createdAt : ℤ) :
    sortKeys (payload E tenantId event actor actorType target details ip requestId createdAt) =
      .object
        [("actor", optionalId actor),
         ("actor_type", .string actorType),
         ("created_at", .string (E.isoformat createdAt)),
         ("details", sortKeys details),
         ("event", .string event),
         ("ip", optionalText ip),
         ("request_id", optionalText requestId),
         ("target", optionalId target),
         ("tenant_id", .string (Proto.uuidText tenantId))] := by
  simp only [payload, sortKeys, sortFields, sortKeys_optionalId, sortKeys_optionalText]
  simp +decide [List.insertionSort, List.orderedInsert, KeyLe]

theorem canonical_congr (tenantId : TenantId) {details details' : Json}
    (h : print (sortKeys details) = print (sortKeys details')) (event : String)
    (actor : Option Uuid) (actorType : String) (target : Option Uuid) (ip requestId : Option String)
    (createdAt : ℤ) :
    canonical (payload E tenantId event actor actorType target details ip requestId createdAt) =
      canonical
        (payload E tenantId event actor actorType target details' ip requestId createdAt) := by
  simp only [canonical, sortKeys_payload, print, printFields, h]

/-! ### The verifier and the chain -/

/-- The hash of a row from the hash before it and the text of its payload. -/
def link (E : Env) (prevHash content : Bytes) : Bytes := (E.sha256 (prevHash ++ content)).bytes

def block (E : Env) (tenantId : TenantId) (row : ActivityRow) : Block Bytes Bytes :=
  ⟨row.prevHash.getD [], canonical (rowPayload E tenantId row), row.hash⟩

@[simp]
theorem block_prev (row : ActivityRow) : (block E tenantId row).prev = row.prevHash.getD [] := rfl

@[simp]
theorem block_hash (row : ActivityRow) : (block E tenantId row).hash = row.hash := rfl

@[simp]
theorem link_block (g : Bytes) (row : ActivityRow) :
    link E g (block E tenantId row).content = rowHash E g (rowPayload E tenantId row) := by
  simp only [link, block, rowHash]

/-- The rows of a tenant have a hash before them, and are a chain. -/
@[mk_iff]
structure Intact (E : Env) (tenantId : TenantId) (g : Bytes) (rows : List ActivityRow) : Prop where
  prevHash : ∀ row ∈ rows, row.prevHash ≠ none
  chained : Chained (link E) g (rows.map (block E tenantId))

variable {g : Bytes} {row : ActivityRow} {rows table : List ActivityRow} {c : LogCall}
  {createdAt : ℤ}

theorem intact_cons :
    Intact E tenantId g (row :: rows) ↔
      (row.prevHash = some g ∧ row.hash = rowHash E g (rowPayload E tenantId row)) ∧
        Intact E tenantId row.hash rows := by
  constructor
  · intro h
    have hchained := h.chained
    simp only [List.map_cons, Lib.HashChain.Chained, block_prev, block_hash,
      link_block] at hchained
    obtain ⟨hprev, hhash, hrest⟩ := hchained
    obtain ⟨prev, hsome⟩ := Option.ne_none_iff_exists'.mp (h.prevHash row List.mem_cons_self)
    rw [hsome, Option.getD_some] at hprev
    exact ⟨⟨by rw [hsome, hprev], hhash⟩,
      ⟨fun r hr => h.prevHash r (List.mem_cons_of_mem _ hr), hrest⟩⟩
  · intro h
    obtain ⟨⟨hprev, hhash⟩, hrest⟩ := h
    constructor
    · intro r hr
      rcases List.mem_cons.mp hr with rfl | hmem
      · rw [hprev]
        exact Option.some_ne_none g
      · exact hrest.prevHash r hmem
    · simp only [List.map_cons, Lib.HashChain.Chained, block_prev, block_hash, link_block, hprev,
        Option.getD_some]
      exact ⟨trivial, hhash, hrest.chained⟩

theorem verifyRows_cons (E : Env) (tenantId : TenantId) (g : Bytes) (row : ActivityRow)
    (rows : List ActivityRow) :
    verifyRows E tenantId g (row :: rows) =
      if row.prevHash = none then none
      else if row.prevHash = some g ∧ row.hash = rowHash E g (rowPayload E tenantId row) then
        verifyRows E tenantId row.hash rows
      else some false := by
  rw [verifyRows]
  cases hprev : row.prevHash with
  | none => simp
  | some prev =>
    simp only [reduceCtorEq, if_false, Option.some.injEq]
    by_cases hok : prev = g ∧ row.hash = rowHash E g (rowPayload E tenantId row)
    · rw [if_pos hok, if_neg (by tauto)]
    · rw [if_neg hok, if_pos (by tauto)]

theorem verifyRows_eq_true :
    verifyRows E tenantId g rows = some true ↔ Intact E tenantId g rows := by
  induction rows generalizing g with
  | nil => exact ⟨fun _ => ⟨by simp, trivial⟩, fun _ => rfl⟩
  | cons row rows ih =>
    rw [verifyRows_cons, intact_cons, ← ih]
    by_cases hnone : row.prevHash = none
    · simp [hnone]
    by_cases hok : row.prevHash = some g ∧ row.hash = rowHash E g (rowPayload E tenantId row)
    · simp [hok]
    · simp [hnone, hok]

theorem verifyChain_eq_true :
    verifyChain E tenantId table = some (true, (fetch tenantId table).length) ↔
      Intact E tenantId genesis (fetch tenantId table) := by
  rw [← verifyRows_eq_true, verifyChain]
  cases verifyRows E tenantId genesis (fetch tenantId table) <;> simp

theorem rowHash_ne_nil (prevHash : Bytes) (payload : Json) : rowHash E prevHash payload ≠ [] := by
  intro h
  have hlength : (rowHash E prevHash payload).length = 32 := Lib.BigEndian.length_beBytes _ _
  rw [h] at hlength
  exact absurd hlength (by decide)

/-! ### One insert -/

theorem intact_append {rows' : List ActivityRow} :
    Intact E tenantId g (rows ++ rows') ↔
      Intact E tenantId g rows ∧
        Intact E tenantId (Lib.HashChain.lastHash g (rows.map (block E tenantId))) rows' := by
  simp only [intact_iff, List.forall_mem_append, List.map_append, Lib.HashChain.chained_append]
  exact and_and_and_comm

theorem intact_singleton :
    Intact E tenantId g [row] ↔
      row.prevHash = some g ∧ row.hash = rowHash E g (rowPayload E tenantId row) := by
  rw [intact_cons]
  exact and_iff_left ⟨by simp, trivial⟩

theorem lastHash_eq (h : Intact E tenantId genesis (fetch tenantId table)) :
    lastHash tenantId table =
      Lib.HashChain.lastHash genesis ((fetch tenantId table).map (block E tenantId)) := by
  unfold lastHash
  cases hrows : fetch tenantId table using List.reverseRecOn with
  | nil => rfl
  | append_singleton rows row _ =>
    rw [hrows, intact_append, intact_singleton] at h
    have hhash : row.hash ≠ [] := by
      rw [h.2.2]
      exact rowHash_ne_nil _ _
    simp [hhash, Lib.HashChain.lastHash_concat]

theorem row_eq_some {prevHash : Bytes}
    (h : c.row E prevHash createdAt = some row) :
    ∃ details ipAddress, jsonb c.resolvedDetails = some details ∧
      LogCall.inetColumn E c.resolvedIp = some ipAddress ∧
      row =
        { tenantId := c.tenantId, eventType := c.event, actorId := c.actor, actorType := c.actorType
          targetId := c.target, targetType := c.targetType, details := some details
          ipAddress := ipAddress, requestId := c.resolvedRequestId E createdAt
          prevHash := some prevHash, hash := rowHash E prevHash (c.payload E createdAt)
          createdAt := createdAt } := by
  simp only [LogCall.row, Option.bind_eq_bind, Option.bind_eq_some_iff, Option.pure_def,
    Option.some.injEq] at h
  obtain ⟨-, -, -, -, -, -, details, hdetails, ip, hip, rfl⟩ := h
  exact ⟨details, ip, hdetails, hip, rfl⟩

theorem inetColumn_eq {ip ipAddress : Option String}
    (hcolumn : LogCall.inetColumn E ip = some ipAddress)
    (hback : (ip.all fun ip => E.inet ip = some ip) = true) : ipAddress = ip := by
  cases ip with
  | none => exact (Option.some.inj hcolumn).symm
  | some ip =>
    simp only [Option.all_some, decide_eq_true_eq] at hback
    simp only [LogCall.inetColumn, hback, Option.map_some] at hcolumn
    exact (Option.some.inj hcolumn).symm

theorem rowHash_row {prevHash : Bytes}
    (h : c.row E prevHash createdAt = some row) (hback : Writers.readsBack E c = true) :
    row.hash = rowHash E prevHash (rowPayload E c.tenantId row) := by
  obtain ⟨details, ipAddress, hdetails, hip, rfl⟩ := row_eq_some h
  simp only [Writers.readsBack, Bool.and_eq_true, hdetails, Option.all_some, decide_eq_true_eq]
    at hback
  have hcanonical := canonical_congr (E := E) c.tenantId hback.1 c.event c.actor
    c.actorType c.target c.resolvedIp (c.resolvedRequestId E createdAt) createdAt
  simp only [rowHash, rowPayload, LogCall.payload, inetColumn_eq hip hback.2, hcanonical]

def AllIntact (E : Env) (table : List ActivityRow) : Prop :=
  ∀ tenantId, Intact E tenantId genesis (fetch tenantId table)

/-- A row that names the last hash extends the chain of its tenant, and no other. -/
theorem AllIntact.insert (h : AllIntact E table)
    (hrow : c.row E (lastHash c.tenantId table) createdAt = some row)
    (hback : Writers.readsBack E c = true) : AllIntact E (table ++ [row]) := by
  obtain ⟨htenant, hprev⟩ : row.tenantId = c.tenantId ∧
      row.prevHash = some (lastHash c.tenantId table) := by
    obtain ⟨details, ipAddress, -, -, rfl⟩ := row_eq_some hrow
    exact ⟨rfl, rfl⟩
  intro tenantId
  have hfetch : fetch tenantId (table ++ [row]) = fetch tenantId table ++ fetch tenantId [row] :=
    List.filter_append ..
  by_cases heq : c.tenantId = tenantId
  · subst heq
    have hsingle : fetch c.tenantId [row] = [row] := by simp [fetch, htenant]
    rw [hfetch, hsingle, intact_append, intact_singleton, ← lastHash_eq (h c.tenantId)]
    exact ⟨h c.tenantId, hprev, rowHash_row hrow hback⟩
  have hnone : fetch tenantId [row] = [] := by simp [fetch, htenant, heq]
  rw [hfetch, hnone, List.append_nil]
  exact h tenantId

/-! ### Runs -/

namespace Writers

theorem allIntact_step {s : Writers} {e : WriterEvent} (h : AllIntact E s.table)
    (horderly : orderly E s e = true) : AllIntact E (step E s e).table := by
  cases e with
  | read call now => exact h
  | insert n fails =>
    cases hw : s.pending[n]? with
    | none => simpa only [step, hw] using h
    | some w =>
      simp only [orderly, hw, Option.all_some, Bool.and_eq_true, decide_eq_true_eq] at horderly
      obtain ⟨hprev, hback⟩ := horderly
      cases hrow : if fails then none else w.call.row E w.prevHash w.createdAt with
      | none => simpa only [step, hw, hrow, Option.toList_none, List.append_nil] using h
      | some row =>
        have hsome : w.call.row E (lastHash w.call.tenantId s.table) w.createdAt = some row := by
          cases fails with
          | true => exact absurd hrow (by simp)
          | false => simpa [hprev] using hrow
        simpa only [step, hw, hrow, Option.toList_some] using h.insert hsome hback

/-- After an orderly run `verify_chain` reports the chain of every tenant intact. -/
theorem intact_of_orderly (E : Env) (events : List WriterEvent)
    (horderly : Guarded (step E) (fun s e => orderly E s e = true) start events)
    (tenantId : TenantId) :
    let table := (run (step E) start events).table
    verifyChain E tenantId table = some (true, (fetch tenantId table).length) := by
  have hstart : AllIntact E start.table := fun tenantId => ⟨by simp [start, fetch], trivial⟩
  have hall : AllIntact E (run (step E) start events).table :=
    Guarded.invariant (I := fun s => AllIntact E s.table) (fun s e h ho => allIntact_step h ho)
      hstart horderly
  exact verifyChain_eq_true.mpr (hall tenantId)

/-- A hash that looks at one byte, which is in the details of the calls below. -/
def byteEnv : Env where
  sha256 bytes := BitVec.ofNat 256 (bytes.getD 99 0).toNat
  isoformat t := String.ofList (intText t)
  floatRepr text := if isFloatText text.toList then text else "NaN"
  inet ip := some ip
  isoformat_injective := fun _ _ h => intText_injective (String.ofList_injective h)
  isFloatText_floatRepr := fun text => by
    split
    · assumption
    · decide

def login (a : Json) : LogCall where
  tenantId := 1
  actor := none
  event := "login"
  target := none
  targetType := none
  details := some [("a", a)]
  request := none
  actorType := "user"
  ip := none
  requestId := some "r"
  context := none

def serialRun : List WriterEvent :=
  [.read (login (.float "1.5")) 0, .insert 0 false, .read (login (.int 123)) 0, .insert 0 false]

theorem intact_serialRun :
    Guarded (step byteEnv) (fun s e => orderly byteEnv s e = true) start serialRun ∧
      let table := (run (step byteEnv) start serialRun).table
      verifyChain byteEnv 1 table = some (true, (fetch 1 table).length) ∧
        (fetch 1 table).length = 2 :=
  have horderly :
      Guarded (step byteEnv) (fun s e => orderly byteEnv s e = true) start serialRun := by
    decide +kernel
  ⟨horderly, intact_of_orderly byteEnv serialRun horderly 1, by decide +kernel⟩

/-- Two calls of one tenant that read the same hash, and one call whose details hold the float
`1e+16`. -/
theorem chains_broken :
    verifyChain byteEnv 1 (run (step byteEnv) start
        [.read (login .null) 0, .read (login .null) 0, .insert 0 false, .insert 0 false]).table =
      some (false, 2) ∧
    verifyChain byteEnv 1 (run (step byteEnv) start
        [.read (login (.float "1e+16")) 0, .insert 0 false]).table =
      some (false, 1) := by
  decide +kernel

end Writers

end Avon.Admin.Audit
