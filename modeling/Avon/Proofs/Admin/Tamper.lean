import Avon.Proofs.Admin.Audit
import Avon.Proofs.Proto

/-!
# What a verified chain shows

The text that is hashed determines what `verify_chain` reads of a row (`canonical_injective`), so
`Lib.HashChain` applies. All tampering is reported, except for a change of what is not read, and for
a row without `prev_hash`, at which `verify_chain` raises.
-/

set_option autoImplicit false

namespace Avon.Admin.Audit

open Avon.Crypto Avon.Lib.JsonText Avon.Lib.HashChain Avon.Lib.BigEndian Writers

variable {E : Env} {tenantId : TenantId}

/-! ### The hashed text -/

theorem utf8_injective : Function.Injective utf8 := by
  intro s t h
  have harray : s.toUTF8.data = t.toUTF8.data := Array.toList_inj.mp h
  exact String.toByteArray_inj.mp (ByteArray.ext harray)

theorem optionalId_injective : Function.Injective optionalId := by
  intro a b h
  cases a <;> cases b <;> simp only [optionalId, Option.map_none, Option.map_some, Option.getD_none,
    Option.getD_some, reduceCtorEq, Json.string.injEq] at h ⊢
  rw [Proto.uuidText_injective h]

theorem optionalText_injective : Function.Injective optionalText := by
  intro a b h
  cases a <;> cases b <;> simp_all [optionalText]

theorem floatsOk_parsedDetails (E : Env) (details : Option Json) :
    FloatsOk (parsedDetails E details) := by
  have hempty : FloatsOk (.object []) := fun text hmem => absurd hmem List.not_mem_nil
  cases details with
  | none => exact hempty
  | some j =>
    rw [parsedDetails]
    split
    · apply floatsOk_mapFloats
      intro text text' hmem
      rw [Json.float.inj (List.mem_singleton.mp hmem)]
      exact E.isFloatText_floatRepr text
    · exact hempty

theorem floatsOk_payload (E : Env) (tenantId : TenantId) (row : ActivityRow) :
    FloatsOk (rowPayload E tenantId row) := by
  have hid : ∀ id text, .float text ∉ scalars (optionalId id) := by
    intro id text
    cases id <;> simp [optionalId, scalars]
  have htext : ∀ s text, .float text ∉ scalars (optionalText s) := by
    intro s text
    cases s <;> simp [optionalText, scalars]
  intro text hmem
  simp only [rowPayload, payload, scalars, scalarsFields, List.mem_cons, List.mem_append, hid,
    htext, reduceCtorEq, List.not_mem_nil, false_or, or_false] at hmem
  exact floatsOk_parsedDetails E row.details text hmem

variable {row row' : ActivityRow} {rows rows' : List ActivityRow} {g : Bytes}

theorem canonical_injective
    (h : canonical (rowPayload E tenantId row) = canonical (rowPayload E tenantId row')) :
    { seen E row with prevHash := none, hash := [] } =
      { seen E row' with prevHash := none, hash := [] } := by
  have hprint := String.ofList_injective (utf8_injective h)
  have hsorted := print_injective (floatsOk_payload E tenantId row).sortKeys
    (floatsOk_payload E tenantId row').sortKeys hprint
  simp only [rowPayload, sortKeys_payload, Json.object.injEq, List.cons.injEq, Prod.mk.injEq,
    true_and, Json.string.injEq, and_true] at hsorted
  obtain ⟨hactor, hactorType, hcreated, hdetails, hevent, hip, hrequest, htarget⟩ := hsorted
  simp only [seen, Seen.mk.injEq]
  exact ⟨hevent, optionalId_injective hactor, hactorType, optionalId_injective htarget, hdetails,
    optionalText_injective hip, optionalText_injective hrequest, trivial, trivial,
    E.isoformat_injective hcreated⟩

/-! ### Blocks -/

theorem length_of_digest {h : Bytes} (hdigest : Digest (link E) genesis h) : h.length = 32 := by
  rcases hdigest with rfl | ⟨prevHash, content, rfl⟩
  · rfl
  · exact length_beBytes _ _

/-- What is assumed of SHA-256: on the inputs of these rows it does not collide, and it does not
give the hash that stands before the first row. -/
structure Sha256Ideal (E : Env) (tenantId : TenantId) (rows : List ActivityRow) : Prop where
  injOn : Set.InjOn E.sha256 {bytes | ∃ row ∈ rows, bytes = rowInput E tenantId row}
  genesis : ∀ row ∈ rows, (E.sha256 (rowInput E tenantId row)).bytes ≠ genesis

theorem link_rowInput (row : ActivityRow) :
    link E (block E tenantId row).prev (block E tenantId row).content =
      (E.sha256 (rowInput E tenantId row)).bytes := by
  simp only [link, block, rowInput]

theorem Sha256Ideal.blocks (h : Sha256Ideal E tenantId rows) :
    Ideal (link E) Audit.genesis {b | b ∈ rows.map (block E tenantId)} where
  inj := by
    intro a ha b hb hprevA hprevB hlink
    obtain ⟨row, hrow, rfl⟩ := List.mem_map.mp ha
    obtain ⟨row', hrow', rfl⟩ := List.mem_map.mp hb
    rw [link_rowInput, link_rowInput] at hlink
    have hinput : rowInput E tenantId row = rowInput E tenantId row' :=
      h.injOn ⟨row, hrow, rfl⟩ ⟨row', hrow', rfl⟩ (Key.bytes_inj hlink)
    simp only [rowInput] at hinput
    -- Both hashes have 32 bytes, so the inputs are split at the same place.
    have hlength : (row.prevHash.getD []).length = (row'.prevHash.getD []).length :=
      (length_of_digest hprevA).trans (length_of_digest hprevB).symm
    have hsplit := List.append_inj hinput hlength
    simp only [block]
    exact hsplit
  genesis := by
    intro a ha
    obtain ⟨row, hrow, rfl⟩ := List.mem_map.mp ha
    rw [link_rowInput]
    exact h.genesis row hrow

theorem seen_eq_iff (h : row.prevHash ≠ none) (h' : row'.prevHash ≠ none) :
    seen E row = seen E row' ↔ block E tenantId row = block E tenantId row' := by
  obtain ⟨prev, hprev⟩ := Option.ne_none_iff_exists'.mp h
  obtain ⟨prev', hprev'⟩ := Option.ne_none_iff_exists'.mp h'
  constructor
  · intro hseen
    simp only [seen, Seen.mk.injEq] at hseen
    obtain ⟨hevent, hactor, hactorType, htarget, hdetails, hip, hrequest, hprevHash, hhash,
      hcreated⟩ := hseen
    simp only [block, rowPayload, canonical, sortKeys_payload, hevent, hactor, hactorType, htarget,
      hdetails, hip, hrequest, hprevHash, hhash, hcreated]
  intro hblock
  simp only [block, Block.mk.injEq, hprev, hprev', Option.getD_some] at hblock
  obtain ⟨hprevHash, hcontent, hhash⟩ := hblock
  have hrest := canonical_injective hcontent
  simp only [Seen.mk.injEq, true_and] at hrest
  simp only [seen, Seen.mk.injEq] at hrest ⊢
  simp only [hrest, hprev, hprev', hprevHash, hhash, and_self]

/-! ### The verifier on tampered rows -/

theorem verifyRows_append (h : Intact E tenantId g rows) :
    verifyRows E tenantId g (rows ++ rows') =
      verifyRows E tenantId (Lib.HashChain.lastHash g (rows.map (block E tenantId))) rows' := by
  induction rows generalizing g with
  | nil => rfl
  | cons row rows ih =>
    obtain ⟨hok, hrest⟩ := intact_cons.mp h
    rw [List.cons_append, verifyRows_cons, if_neg (by simp [hok.1]), if_pos hok, ih hrest,
      List.map_cons, lastHash_cons, block_hash]

theorem verifyRows_ne_none
    (h : ∀ row ∈ rows, row.prevHash ≠ none) : verifyRows E tenantId g rows ≠ none := by
  induction rows generalizing g with
  | nil => exact Option.some_ne_none _
  | cons row rows ih =>
    rw [verifyRows_cons, if_neg (h row List.mem_cons_self)]
    split
    · exact ih fun r hr => h r (List.mem_cons_of_mem _ hr)
    · exact Option.some_ne_none _

theorem verifyRows_eq_false
    (h : ∀ row ∈ rows, row.prevHash ≠ none) :
    verifyRows E tenantId g rows = some false ↔ ¬ Intact E tenantId g rows := by
  rw [← verifyRows_eq_true]
  have hsome : verifyRows E tenantId g rows ≠ none := verifyRows_ne_none h
  cases hverify : verifyRows E tenantId g rows with
  | none => exact absurd hverify hsome
  | some intact => cases intact <;> simp

theorem verifyRows_raises {i : ℕ}
    (h : Intact E tenantId g rows) (htake : rows'.take i = rows.take i)
    (hrow : rows'[i]? = some row)
    (hnone : row.prevHash = none) : verifyRows E tenantId g rows' = none := by
  have hintact : Intact E tenantId g (rows'.take i) := by
    rw [← List.take_append_drop i rows, intact_append] at h
    exact htake ▸ h.1
  obtain ⟨hlt, hget⟩ := List.getElem?_eq_some_iff.mp hrow
  rw [← List.take_append_drop i rows', verifyRows_append hintact, List.drop_eq_getElem_cons hlt,
    hget, verifyRows_cons, if_pos hnone]

theorem position_eq (h : Intact E tenantId genesis rows)
    (h' : Intact E tenantId genesis rows') (hsha : Sha256Ideal E tenantId (rows ++ rows'))
    {i j : ℕ} (hi : rows[i]? = some row) (hj : rows'[j]? = some row')
    (hhash : row.hash = row'.hash) : i = j ∧ block E tenantId row = block E tenantId row' := by
  have hmem : ∀ b ∈ rows.map (block E tenantId), b ∈ (rows ++ rows').map (block E tenantId) := by
    intro b hb
    rw [List.map_append]
    exact List.mem_append_left _ hb
  have hmem' : ∀ b ∈ rows'.map (block E tenantId), b ∈ (rows ++ rows').map (block E tenantId) := by
    intro b hb
    rw [List.map_append]
    exact List.mem_append_right _ hb
  have hblock : (rows.map (block E tenantId))[i]? = some (block E tenantId row) := by
    rw [List.getElem?_map, hi, Option.map_some]
  have hblock' : (rows'.map (block E tenantId))[j]? = some (block E tenantId row') := by
    rw [List.getElem?_map, hj, Option.map_some]
  exact ⟨h.chained.index_eq hsha.blocks h'.chained hmem hmem' hblock hblock' hhash,
    h.chained.block_eq hsha.blocks h'.chained hmem hmem' hblock hblock' hhash⟩

theorem Intact.hash_eq (h : Intact E tenantId g rows) (hrow : row ∈ rows) :
    row.hash = rowHash E (row.prevHash.getD []) (rowPayload E tenantId row) := by
  have hhash := h.chained.hash_eq _ (List.mem_map_of_mem hrow)
  rwa [link_block, block_hash, block_prev] at hhash

section Tampering

variable (h : Intact E tenantId genesis rows)

include h

theorem delete_reported {i : ℕ} (hi : i + 1 < rows.length)
    (hsha : Sha256Ideal E tenantId (rows ++ rows.eraseIdx i)) :
    verifyRows E tenantId genesis (rows.eraseIdx i) = some false := by
  have hprev : ∀ row ∈ rows.eraseIdx i, row.prevHash ≠ none := fun row hrow =>
    h.prevHash row (List.mem_of_mem_eraseIdx hrow)
  apply (verifyRows_eq_false hprev).mpr
  intro h'
  -- The row after the deleted one has moved.
  have hat : rows[i + 1]? = some rows[i + 1] := List.getElem?_eq_getElem hi
  have hat' : (rows.eraseIdx i)[i]? = some rows[i + 1] := by
    rw [List.getElem?_eraseIdx_of_ge (Nat.le_refl i), hat]
  have hposition := (position_eq h h' hsha hat hat' rfl).1
  omega

theorem swap_reported {i j : ℕ} {a b : ActivityRow} (hij : i < j) (hi : rows[i]? = some a)
    (hj : rows[j]? = some b) (hsha : Sha256Ideal E tenantId (rows ++ (rows.set i b).set j a)) :
    verifyRows E tenantId genesis ((rows.set i b).set j a) = some false := by
  have hprev : ∀ row ∈ (rows.set i b).set j a, row.prevHash ≠ none := by
    intro row hrow
    rcases List.mem_or_eq_of_mem_set hrow with hmem | rfl
    · rcases List.mem_or_eq_of_mem_set hmem with hmem | rfl
      · exact h.prevHash row hmem
      · exact h.prevHash row (List.mem_of_getElem? hj)
    · exact h.prevHash row (List.mem_of_getElem? hi)
  apply (verifyRows_eq_false hprev).mpr
  intro h'
  have hlt : j < rows.length := (List.getElem?_eq_some_iff.mp hj).1
  have hat' : ((rows.set i b).set j a)[j]? = some a := by
    rw [List.getElem?_set_self (by simpa using hlt)]
  have hposition := (position_eq h h' hsha hi hat' rfl).1
  omega

theorem insert_reported_iff {i : ℕ} {row : ActivityRow} (hi : i < rows.length)
    (hsha : Sha256Ideal E tenantId (rows ++ rows.insertIdx i row)) :
    verifyRows E tenantId genesis (rows.insertIdx i row) = some false ↔ row.prevHash ≠ none := by
  by_cases hnone : row.prevHash = none
  · have hat : (rows.insertIdx i row)[i]? = some row := by
      rw [List.getElem?_insertIdx_self, if_pos hi.le]
    have hraises : verifyRows E tenantId genesis (rows.insertIdx i row) = none :=
      verifyRows_raises h (List.take_insertIdx_eq_take_of_le _ _ i i (Nat.le_refl i)) hat hnone
    simp [hraises, hnone]
  have hprev : ∀ r ∈ rows.insertIdx i row, r.prevHash ≠ none := by
    intro r hr
    rcases List.eq_or_mem_of_mem_insertIdx hr with rfl | hmem
    · exact hnone
    · exact h.prevHash r hmem
  rw [verifyRows_eq_false hprev]
  refine ⟨fun _ => hnone, fun _ h' => ?_⟩
  -- The row that was here stands one position later.
  have hat : rows[i]? = some rows[i] := List.getElem?_eq_getElem hi
  have hat' : (rows.insertIdx i row)[i + 1]? = some rows[i] := by
    rw [List.getElem?_insertIdx_of_gt (Nat.lt_succ_self i), Nat.succ_sub_one, hat]
  have hposition := (position_eq h h' hsha hat hat' rfl).1
  omega

theorem change_reported_iff {i : ℕ} {old row : ActivityRow} (hi : rows[i]? = some old)
    (hkept : Tamper.NotRecomputed E tenantId old row)
    (hsha : Sha256Ideal E tenantId (rows ++ rows.set i row)) :
    verifyRows E tenantId genesis (rows.set i row) = some false ↔
      row.prevHash ≠ none ∧ seen E row ≠ seen E old := by
  obtain ⟨hlt, hget⟩ := List.getElem?_eq_some_iff.mp hi
  have hat : (rows.set i row)[i]? = some row := List.getElem?_set_self hlt
  have hold : old.prevHash ≠ none := h.prevHash old (List.mem_of_getElem? hi)
  by_cases hnone : row.prevHash = none
  · have hraises : verifyRows E tenantId genesis (rows.set i row) = none :=
      verifyRows_raises h (List.take_set_of_le (Nat.le_refl i)) hat hnone
    simp [hraises, hnone]
  have hprev : ∀ r ∈ rows.set i row, r.prevHash ≠ none := by
    intro r hr
    rcases List.mem_or_eq_of_mem_set hr with hmem | rfl
    · exact h.prevHash r hmem
    · exact hnone
  have hseen : seen E row = seen E old ↔ block E tenantId row = block E tenantId old :=
    seen_eq_iff hnone hold
  rw [verifyRows_eq_false hprev, ne_eq (seen E row), hseen]
  constructor
  · intro hbroken
    refine ⟨hnone, fun hblock => hbroken ⟨hprev, ?_⟩⟩
    -- The same block in its place leaves the chain as it was.
    have hsame : (rows.set i row).map (block E tenantId) = rows.map (block E tenantId) := by
      rw [List.map_set, hblock, ← List.map_set, ← hget, List.set_getElem_self]
    rw [hsame]
    exact h.chained
  · intro hseen h'
    rcases hkept with hhash | hwrong
    · exact hseen.2 (position_eq h h' hsha hi hat hhash.symm).2.symm
    · exact hwrong (h'.hash_eq (List.mem_of_getElem? hat))

end Tampering

/-- A tampering of an intact chain is reported if and only if it is visible. -/
theorem tamper_reported_iff (E : Env) (tenantId : TenantId) (table table' : List ActivityRow)
    (tamper : Tamper)
    (haccepted : verifyChain E tenantId table = some (true, (fetch tenantId table).length))
    (happlies : tamper.Applies E tenantId (fetch tenantId table))
    (htable : fetch tenantId table' = tamper.apply (fetch tenantId table))
    (hsha : Sha256Ideal E tenantId (fetch tenantId table ++ fetch tenantId table')) :
    verifyChain E tenantId table' = some (false, (fetch tenantId table').length) ↔
      tamper.Visible E (fetch tenantId table) := by
  have h := verifyChain_eq_true.mp haccepted
  have hreport : verifyChain E tenantId table' = some (false, (fetch tenantId table').length) ↔
      verifyRows E tenantId genesis (tamper.apply (fetch tenantId table)) = some false := by
    rw [verifyChain, ← htable]
    cases verifyRows E tenantId genesis (fetch tenantId table') <;> simp
  rw [hreport]
  rw [htable] at hsha
  cases tamper with
  | change i row =>
    obtain ⟨old, hi, -, hkept⟩ := happlies
    simp only [Tamper.apply, Tamper.Visible, hi, Option.some.injEq, forall_eq']
    exact change_reported_iff h hi hkept hsha
  | delete i =>
    simp only [Tamper.apply, Tamper.Visible, iff_true]
    exact delete_reported h happlies hsha
  | insert i row => exact insert_reported_iff h happlies hsha
  | swap i j =>
    obtain ⟨hij, hlt⟩ := happlies
    have hi : (fetch tenantId table)[i]? = some _ := List.getElem?_eq_getElem (hij.trans hlt)
    have hj : (fetch tenantId table)[j]? = some _ := List.getElem?_eq_getElem hlt
    simp only [Tamper.apply, Tamper.Visible, hi, hj, iff_true] at hsha ⊢
    exact swap_reported h hij hi hj hsha

def loginRow (a : Json) (prevHash hash : Bytes) : ActivityRow where
  tenantId := 1
  eventType := "login"
  actorId := none
  actorType := "user"
  targetId := none
  targetType := none
  details := some (.object [("a", a)])
  ipAddress := none
  requestId := some "r"
  prevHash := some prevHash
  hash := hash
  createdAt := 0

/-! Two rows under the hash of `Writers.byteEnv`, and what someone makes of the first one. -/

def firstRow : ActivityRow := loginRow (.int 123) genesis (Key.bytes 50)

def secondRow : ActivityRow := loginRow (.int 145) (Key.bytes 50) (Key.bytes 52)

def forgedRow : ActivityRow := { firstRow with details := some (.object [("a", .int 163)]) }

theorem sha256_rows :
    byteEnv.sha256 (rowInput byteEnv 1 firstRow) = 50 ∧
    byteEnv.sha256 (rowInput byteEnv 1 secondRow) = 52 ∧
    byteEnv.sha256 (rowInput byteEnv 1 forgedRow) = 54 := by
  decide +kernel

theorem verifyChain_rows :
    verifyChain byteEnv 1 [firstRow, secondRow] =
      some (true, (fetch 1 [firstRow, secondRow]).length) := by
  obtain ⟨hfirst, hsecond, -⟩ := sha256_rows
  apply verifyChain_eq_true.mpr
  have hfetch : fetch 1 [firstRow, secondRow] = [firstRow, secondRow] := rfl
  rw [hfetch, intact_cons, intact_singleton]
  refine ⟨⟨rfl, ?_⟩, rfl, ?_⟩
  · exact (congrArg Key.bytes hfirst).symm
  · exact (congrArg Key.bytes hsecond).symm

theorem sha256Ideal_rows :
    Sha256Ideal byteEnv 1 ([firstRow, secondRow] ++ [forgedRow, secondRow]) := by
  obtain ⟨hfirst, hsecond, hforged⟩ := sha256_rows
  have hrows : ∀ row ∈ [firstRow, secondRow] ++ [forgedRow, secondRow],
      row = firstRow ∨ row = secondRow ∨ row = forgedRow := by
    intro row hrow
    simp only [List.cons_append, List.nil_append, List.mem_cons, List.not_mem_nil, or_false] at hrow
    rcases hrow with hrow | hrow | hrow | hrow
    · exact .inl hrow
    · exact .inr (.inl hrow)
    · exact .inr (.inr hrow)
    · exact .inr (.inl hrow)
  constructor
  · rintro _ ⟨row, hrow, rfl⟩ _ ⟨row', hrow', rfl⟩ hsha
    rcases hrows row hrow with rfl | rfl | rfl <;> rcases hrows row' hrow' with rfl | rfl | rfl <;>
      simp only [hfirst, hsecond, hforged] at hsha ⊢ <;> exact absurd hsha (by decide)
  intro row hrow
  rcases hrows row hrow with rfl | rfl | rfl
  · rw [hfirst]
    decide
  · rw [hsecond]
    decide
  · rw [hforged]
    decide

theorem tamper_reported_forged :
    verifyChain byteEnv 1 [forgedRow, secondRow] =
      some (false, (fetch 1 [forgedRow, secondRow]).length) :=
  have hne : seen byteEnv forgedRow ≠ seen byteEnv firstRow := by
    intro h
    exact absurd (congrArg (fun s => print s.details) h) (by decide +kernel)
  (tamper_reported_iff byteEnv 1 [firstRow, secondRow] [forgedRow, secondRow]
    (.change 0 forgedRow) verifyChain_rows
    ⟨firstRow, rfl, fun h => hne (congrArg (seen byteEnv) h), .inl rfl⟩ rfl
    sha256Ideal_rows).mpr ⟨Option.some_ne_none _, fun old hold => Option.some.inj hold ▸ hne⟩

/-- The target type of the first row is changed. -/
theorem targetType_unseen :
    verifyChain byteEnv 1 [firstRow, secondRow] =
      some (true, (fetch 1 [firstRow, secondRow]).length) ∧
    Tamper.Applies byteEnv 1 [firstRow, secondRow]
      (.change 0 { firstRow with targetType := some "device" }) ∧
    verifyChain byteEnv 1 [{ firstRow with targetType := some "device" }, secondRow] =
      some (true, (fetch 1 [firstRow, secondRow]).length) := by
  refine ⟨verifyChain_rows, ⟨firstRow, rfl, ?_, .inl rfl⟩, verifyChain_rows⟩
  intro h
  exact absurd (congrArg ActivityRow.targetType h) (by decide)

end Avon.Admin.Audit
