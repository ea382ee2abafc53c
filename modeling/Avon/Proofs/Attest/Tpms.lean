import Avon.Proofs.Attest.Evidence

/-!
# The TPM structure of a quote

`parseQuote` reads the structure in front of its input. It loses the banks other than SHA-256, so
what it accepts is said with the selections (`parseQuote_eq_ok`).
-/

set_option autoImplicit false

namespace Avon.Attest

open Avon.Crypto Avon.Lib Avon.Lib.BigEndian

theorem reads_uint (w : ℕ) :
    Reads (fun buf => uint buf w) fun n e => n < 256 ^ w ∧ e = beBytes w n := reads_number w _

theorem reads_tpm2b : Reads tpm2b fun b e => b.length < 256 ^ 2 ∧ e = encodeField b :=
  reads_prefixed _ _

def TpmQuote.encodeSelection (s : ℕ × Bytes) : Bytes :=
  beBytes 2 s.1 ++ (beBytes 1 s.2.length ++ s.2)

/-- The PCRs of the SHA-256 bank that a selection selects. -/
def sha256Pcrs (s : ℕ × Bytes) : List ℕ := if s.1 ≠ TPM_ALG_SHA256 then [] else bits s.2

theorem reads_selection : Reads selection fun l e => ∃ s : ℕ × Bytes,
    (s.1 < 2 ^ 16 ∧ s.2.length ≤ 8) ∧ l = sha256Pcrs s ∧ e = TpmQuote.encodeSelection s := by
  refine ((reads_uint 2).bind fun alg => (reads_uint 1).bind fun size => .guard
    ((reads_bytes size _).bind fun bitmap => reads_pure
      (if alg ≠ TPM_ALG_SHA256 then [] else bits bitmap))).congr (r := selection) fun l e => ?_
  have hsize : ∀ b : Bytes, b.length ≤ 8 → b.length < 256 := fun _ h => h.trans_lt (by decide)
  simp [sha256Pcrs, TpmQuote.encodeSelection]
  grind

/-- A quote as a TPM sends it, with the byte that says if the clock is safe, and the selections. -/
def attestBytes (q : QuoteAttest) (safe : ℕ) (selections : List (ℕ × Bytes)) : Bytes :=
  beBytes 4 TPM_GENERATED_VALUE ++ (beBytes 2 TPM_ST_ATTEST_QUOTE ++
    (encodeField q.qualifiedSigner ++ (encodeField q.extraData ++
      (beBytes 8 q.clock.clockMs ++ (beBytes 4 q.clock.resetCount ++
        (beBytes 4 q.clock.restartCount ++ (beBytes 1 safe ++
          (beBytes 8 q.firmwareVersion ++ (beBytes 4 selections.length ++
            (selections.flatMap TpmQuote.encodeSelection ++ encodeField q.pcrDigest))))))))))

/-- The lengths and the words that a quote has room for. -/
def QuoteAttest.Fits (q : QuoteAttest) : Prop :=
  q.qualifiedSigner.length < 2 ^ 16 ∧ q.extraData.length < 2 ^ 16 ∧ q.clock.clockMs < 2 ^ 64 ∧
    q.clock.resetCount < 2 ^ 32 ∧ q.clock.restartCount < 2 ^ 32 ∧ q.firmwareVersion < 2 ^ 64 ∧
      q.pcrDigest.length = 32

/-- What `parseQuote` makes of the byte and of the selections. -/
def QuoteAttest.Shows (q : QuoteAttest) (safe : ℕ) (selections : List (ℕ × Bytes)) : Prop :=
  safe < 2 ^ 8 ∧ q.clock.safe = decide (safe ≠ 0) ∧ selections.length ≤ 8 ∧
    (∀ s ∈ selections, s.1 < 2 ^ 16 ∧ s.2.length ≤ 8) ∧
      q.selectedPcrs = (selections.flatMap sha256Pcrs).insertionSort (· ≤ ·)

theorem reads_attest : Reads readAttest fun q e => ∃ safe selections,
    (q.Fits ∧ q.Shows safe selections) ∧ e = attestBytes q safe selections := by
  refine ((reads_uint 4).bind fun magic => .guard ((reads_uint 2).bind fun type => .guard
    (reads_tpm2b.bind fun signer => reads_tpm2b.bind fun extra => (reads_uint 8).bind fun clock =>
    (reads_uint 4).bind fun reset => (reads_uint 4).bind fun restart => (reads_uint 1).bind
    fun safe => (reads_uint 8).bind fun firmware => (reads_uint 4).bind fun count => .guard
    ((reads_times reads_selection count).bind fun selected => reads_tpm2b.bind fun digest => .guard
      (reads_pure (QuoteAttest.mk signer extra ⟨clock, reset, restart, safe ≠ 0⟩ firmware
        (selected.flatten.insertionSort (· ≤ ·)) digest)))))).congr (r := readAttest) fun q e => ?_
  obtain ⟨_, _, ⟨_, _, _, _⟩, _, _, _⟩ := q
  have hmagic : TPM_GENERATED_VALUE < 4294967296 ∧ TPM_ST_ATTEST_QUOTE < 65536 := by decide
  simp [QuoteAttest.Fits, QuoteAttest.Shows, attestBytes, hmagic, List.flatMap]
  grind

variable {pcrs : List ℕ} {b : Bytes} {i : ℕ}

theorem mem_bits : i ∈ bits b ↔ ∃ byte, b[i / 8]? = some byte ∧ byte.toNat.testBit (i % 8) := by
  simp only [bits, List.mem_filter, List.mem_range, List.getD_eq_getElem?_getD]
  by_cases h : i / 8 < b.length
  · simp only [List.getElem?_eq_getElem h, Option.getD_some, Option.some.injEq, exists_eq_left']
    exact and_iff_right (by omega)
  · simp [List.getElem?_eq_none (not_lt.mp h)]

theorem pairwise_bits (b : Bytes) : (bits b).Pairwise (· < ·) := List.pairwise_lt_range.filter _

/-- Setting the bit of one PCR. -/
theorem mem_bits_modify {p i : ℕ} : i ∈ bits (b.modify (p / 8) (· ||| 1 <<< UInt8.ofNat (p % 8))) ↔
      i ∈ bits b ∨ (i = p ∧ i / 8 < b.length) := by
  have hbit : ∀ k < 8, ∀ j < 8, (1 <<< UInt8.ofNat k : UInt8).toNat.testBit j = decide (k = j) := by
    decide
  simp only [mem_bits, List.getElem?_modify]
  by_cases h : i / 8 < b.length
  swap
  · simp [h]
  simp only [List.getElem?_eq_getElem h, Option.map_eq_map, Option.map_some, Option.some.injEq,
    exists_eq_left', h, and_true]
  split
  · next hbyte =>
    rw [UInt8.toNat_or, Nat.testBit_or, Bool.or_eq_true, hbit _ (Nat.mod_lt p (by decide)) _
      (Nat.mod_lt i (by decide)), decide_eq_true_eq]
    exact or_congr_right ⟨fun _ => by omega, by rintro rfl; rfl⟩
  · next hbyte => exact (or_iff_left (by rintro rfl; exact hbyte rfl)).symm

theorem length_bitmap (width : ℕ) (pcrs : List ℕ) : (bitmap width pcrs).length = width := by
  unfold bitmap
  induction pcrs using List.reverseRecOn with
  | nil => exact List.length_replicate
  | append_singleton pcrs p ih => rw [List.foldl_append]; simpa using ih

theorem mem_bits_bitmap {width : ℕ} : i ∈ bits (bitmap width pcrs) ↔ i ∈ pcrs ∧ i / 8 < width := by
  induction pcrs using List.reverseRecOn with
  | nil =>
    rw [bitmap, List.foldl_nil, mem_bits]
    simp [List.getElem?_replicate]
  | append_singleton pcrs p ih =>
    have hlength := length_bitmap width pcrs
    rw [bitmap] at ih hlength ⊢
    rw [List.foldl_append, List.foldl_cons, List.foldl_nil, mem_bits_modify, ih, hlength]
    simp [or_and_right]

theorem div_lt_selectionWidth {p : ℕ} (hp : p ∈ pcrs) : p / 8 < selectionWidth pcrs := by
  unfold selectionWidth
  cases hmax : (pcrs.map fun p => p / 8 + 1).max? with
  | none => simp_all
  | some m =>
    have hle := (List.max?_eq_some_iff.mp hmax).2 _ (List.mem_map_of_mem hp)
    exact lt_max_of_lt_left hle

theorem selectionWidth_le (h : ∀ p ∈ pcrs, p < 64) : selectionWidth pcrs ≤ 8 := by
  unfold selectionWidth
  refine max_le ?_ (by decide)
  cases hmax : (pcrs.map fun p => p / 8 + 1).max? with
  | none => decide
  | some m =>
    obtain ⟨p, hp, rfl⟩ := List.mem_map.mp (List.max?_mem hmax)
    have := h p hp
    show p / 8 + 1 ≤ 8
    omega

/-- A bitmap gives the PCRs back from which it was made. -/
theorem bits_bitmap (h : pcrs.Pairwise (· < ·)) :
    bits (bitmap (selectionWidth pcrs) pcrs) = pcrs := by
  refine (pairwise_bits _).eq_of_mem_iff h fun i => ?_
  rw [mem_bits_bitmap]
  exact and_iff_left_of_imp div_lt_selectionWidth

theorem encodeQuote_eq (q : QuoteAttest) : encodeQuote q = attestBytes q q.clock.safe.toNat
    [(TPM_ALG_SHA256, bitmap (selectionWidth q.selectedPcrs) q.selectedPcrs)] := by
  simp [encodeQuote, attestBytes, TpmQuote.encodeSelection, length_bitmap]

theorem parseQuote_eq_ok {q : QuoteAttest} : parseQuote b = .ok q ↔ ∃ safe selections,
    (q.Fits ∧ q.Shows safe selections) ∧ attestBytes q safe selections <+: b := by
  rw [parseQuote, map_eq_ok]
  simp only [Prod.exists, exists_eq_right, exists_and_right]
  have hreads := reads_attest [] b q
  simp only [List.nil_append, List.length_nil] at hreads
  simp only [hreads]
  constructor
  · rintro ⟨_, _, rest, ⟨safe, selections, hq, rfl⟩, rfl, -⟩
    exact ⟨safe, selections, hq, rest, rfl⟩
  · rintro ⟨safe, selections, hq, rest, rfl⟩
    exact ⟨_, _, rest, ⟨safe, selections, hq, rfl⟩, rfl, rfl⟩

/-- What is read is a part of the buffer, behind the position. -/
theorem bytes_inside {b : Bytes} {n : ℕ} {fault : ℕ → AttestError} {pos : ℕ} {v : Bytes} {pos' : ℕ}
    (h : (Cursor.bytes b n fault).run pos = .ok (v, pos')) :
    v.length = n ∧ ∃ before after, b = before ++ v ++ after ∧ before.length = pos ∧
      pos' = pos + n := by
  have hpos : pos ≤ b.length := by
    have := (ite_error_eq_ok.mp h).1
    omega
  rw [← List.take_append_drop pos b] at h ⊢
  obtain ⟨_, rest, ⟨hv, rfl⟩, hrest, rfl⟩ :=
    (reads_bytes n fault (b.take pos) (b.drop pos) v pos').mp (by rwa [List.length_take_of_le hpos])
  refine ⟨hv, b.take pos, rest, by rw [hrest, List.append_assoc], ?_⟩
  simp [hv, hpos]

/-- A quote with few and sorted PCRs is read back. What is accepted starts with a quote whose
selections have the bits of the PCRs, and `take`, through which `parseQuote` looks at its input,
gives a part of it. -/
theorem quote_codec :
    (∀ q : QuoteAttest, q.Fits → q.selectedPcrs.Pairwise (· < ·) →
      (∀ p ∈ q.selectedPcrs, p < 64) → parseQuote (encodeQuote q) = .ok q) ∧
    (∀ b q, parseQuote b = .ok q → q.selectedPcrs.Pairwise (· ≤ ·) ∧
      ∃ safe selections, (q.Fits ∧ q.Shows safe selections) ∧
        attestBytes q safe selections <+: b ∧
        ∀ i, i ∈ q.selectedPcrs ↔ ∃ s ∈ selections, s.1 = TPM_ALG_SHA256 ∧
          ∃ byte, s.2[i / 8]? = some byte ∧ byte.toNat.testBit (i % 8)) ∧
    ∀ (b : Bytes) n pos v pos', (take b n).run pos = .ok (v, pos') → v.length = n ∧
      ∃ before after, b = before ++ v ++ after ∧ before.length = pos ∧ pos' = pos + n := by
  refine ⟨fun q hfits hsorted hsmall => ?_, fun b q h => ?_, fun b n pos v pos' => bytes_inside⟩
  · rw [encodeQuote_eq]
    refine parseQuote_eq_ok.mpr ⟨_, _, ⟨hfits, ?_⟩, List.prefix_rfl⟩
    refine ⟨by cases q.clock.safe <;> decide, by cases q.clock.safe <;> rfl, by simp, ?_, ?_⟩
    · simp [length_bitmap, selectionWidth_le hsmall, TPM_ALG_SHA256]
    · simp [sha256Pcrs, bits_bitmap hsorted, (hsorted.imp le_of_lt).insertionSort_eq]
  · obtain ⟨safe, selections, hq, hb⟩ := parseQuote_eq_ok.mp h
    have hselected : q.selectedPcrs = _ := hq.2.2.2.2.2
    refine ⟨hselected ▸ List.pairwise_insertionSort _ _, safe, selections, hq, hb, fun i => ?_⟩
    rw [hselected]
    simp [sha256Pcrs, mem_bits]

end Avon.Attest
