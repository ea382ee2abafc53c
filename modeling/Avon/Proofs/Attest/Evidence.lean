import Avon.Attest.Quote
import Avon.Lib.Reads

/-!
# The evidence codec

Each reader of `evidence.rs` reads the encodings that its writer makes and nothing else, so `parse`
and `encode` are inverse to each other where the lengths fit in two bytes. The bounds in
`Quote.Short` are the ones of the format: `encode` writes a longer length modulo `2 ^ 16`.

For the reads, `Access` separates what the source separates: it compares the position with the
length of the input, and indexes the input afterwards. `parseReads_eq` says that no index is
outside, for inputs that are refused as well.
-/

set_option autoImplicit false

namespace Avon.Attest

open Avon.Crypto Avon.Lib Avon.Lib.BigEndian

variable {α β : Type}

/-- The reader, `n` times, where a value comes from what its encoding holds by `f`. -/
theorem reads_times {r : Bytes → Cursor α} {enc : β → Bytes} {P : β → Prop} {f : β → α}
    (h : Reads r fun a e => ∃ b, P b ∧ a = f b ∧ e = enc b) (n : ℕ) :
    Reads (fun buf => Cursor.times (r buf) n) fun l e =>
      ∃ bs : List β, bs.length = n ∧ (∀ b ∈ bs, P b) ∧ l = bs.map f ∧ e = bs.flatMap enc := by
  induction n with
  | zero =>
    refine (reads_pure []).congr fun l e => ?_
    simp [List.length_eq_zero_iff]
  | succ n ih =>
    refine (h.bind fun a => ih.bind fun l => reads_pure (a :: l)).congr fun l e => ?_
    constructor
    · rintro ⟨_, _, ⟨b, hb, rfl, rfl⟩, _, ⟨_, _, ⟨bs, rfl, hbs, rfl, rfl⟩, _, ⟨rfl, rfl⟩, rfl⟩, rfl⟩
      exact ⟨b :: bs, rfl, List.forall_mem_cons.mpr ⟨hb, hbs⟩, rfl, by simp⟩
    rintro ⟨_ | ⟨b, bs⟩, hn, hP, rfl, rfl⟩
    · cases hn
    obtain ⟨hb, hbs⟩ := List.forall_mem_cons.mp hP
    exact ⟨_, _, ⟨b, hb, rfl, rfl⟩, _, ⟨_, _, ⟨bs, Nat.succ.inj hn, hbs, rfl, rfl⟩, [], ⟨rfl, rfl⟩,
      rfl⟩, by simp⟩

theorem reads_bytes (n : ℕ) (e : ℕ → AttestError) :
    Reads (fun buf => Cursor.bytes buf n e) fun b e => b.length = n ∧ e = b := by
  intro pre suf b pos
  show (if _ then _ else _) = _ ↔ _
  rw [ite_error_eq_ok, List.drop_left, Except.ok.injEq, Prod.mk.injEq, List.length_append, not_lt,
    Nat.add_le_add_iff_left]
  constructor
  · rintro ⟨hn, rfl, rfl⟩
    have hlength : (suf.take n).length = n := List.length_take_of_le hn
    exact ⟨_, suf.drop n, ⟨hlength, rfl⟩, (List.take_append_drop n suf).symm, by simp [hlength]⟩
  · rintro ⟨_, rest, ⟨rfl, rfl⟩, rfl, rfl⟩
    simp

theorem reads_number (w : ℕ) (e : ℕ → AttestError) :
    Reads (fun buf => Cursor.number buf w e) fun n e => n < 256 ^ w ∧ e = beBytes w n := by
  refine ((reads_bytes w e).bind fun b => reads_pure (ofBe b)).congr fun n e => ?_
  constructor
  · rintro ⟨_, b, ⟨rfl, rfl⟩, _, ⟨rfl, rfl⟩, rfl⟩
    exact ⟨ofBe_lt b, by rw [List.append_nil, beBytes_ofBe]⟩
  rintro ⟨hn, rfl⟩
  exact ⟨_, _, ⟨length_beBytes _ _, rfl⟩, [], ⟨eq_ofBe_beBytes.mpr hn, rfl⟩, by simp⟩

theorem reads_prefixed (e : ℕ → AttestError) (e' : ℕ → ℕ → AttestError) :
    Reads (fun buf => Cursor.number buf 2 e >>= fun n => Cursor.bytes buf n (e' n))
      fun b e => b.length < 256 ^ 2 ∧ e = encodeField b := by
  refine ((reads_number 2 e).bind fun n => reads_bytes n (e' n)).congr fun b e => ?_
  simp [encodeField]

theorem reads_field : Reads field fun b e => b.length < 256 ^ 2 ∧ e = encodeField b :=
  reads_prefixed _ _

theorem reads_pcr : Reads pcr fun p e =>
    ∃ q : ℕ × Bytes, (q.1 < 256 ^ 4 ∧ q.2.length < 256 ^ 2) ∧ p = q ∧ e = encodePcr q := by
  refine ((reads_bytes 6 _).bind fun head => (reads_bytes (ofBe (head.drop 4)) _).bind
    fun value => reads_pure (ofBe (head.take 4), value)).congr fun p e => ?_
  constructor
  · rintro ⟨_, head, ⟨hhead, rfl⟩, _, ⟨_, value, ⟨hvalue, rfl⟩, _, ⟨rfl, rfl⟩, rfl⟩, rfl⟩
    have hindex : (head.take 4).length = 4 := by simp [hhead]
    have hsize : (head.drop 4).length = 2 := by simp [hhead]
    refine ⟨_, ⟨ofBe_lt_of_length hindex, hvalue ▸ ofBe_lt_of_length hsize⟩, rfl, ?_⟩
    simp only [encodePcr, encodeField, hvalue, beBytes_ofBe_of_length hindex,
      beBytes_ofBe_of_length hsize, List.append_nil, ← List.append_assoc, List.take_append_drop]
  · rintro ⟨q, ⟨hindex, hvalue⟩, rfl, rfl⟩
    refine ⟨_, beBytes 4 p.1 ++ beBytes 2 p.2.length, ⟨by simp, rfl⟩, _,
      ⟨p.2, _, ⟨?_, rfl⟩, [], ⟨?_, rfl⟩, rfl⟩, ?_⟩
    · simp [ofBe_beBytes hvalue]
    · simp [ofBe_beBytes hindex]
    · simp [encodePcr, encodeField]

def Quote.Short (q : Quote) : Prop :=
  q.quote.length < 2 ^ 16 ∧ q.signature.length < 2 ^ 16 ∧ q.akPublic.length < 2 ^ 16 ∧
    q.pcrs.length < 2 ^ 16 ∧ (∀ p ∈ q.pcrs, p.1 < 2 ^ 32 ∧ p.2.length < 2 ^ 16) ∧
      q.nonce.length < 2 ^ 16

theorem reads_quote : Reads readQuote fun q e => q.Short ∧ e = (encode (.tpm2Quote q)).2 := by
  refine (reads_field.bind fun quote => reads_field.bind fun signature => reads_field.bind
    fun akPublic => (reads_number 2 _).bind fun count => (reads_times reads_pcr count).bind
    fun pcrs => reads_field.bind fun nonce =>
      reads_pure (Quote.mk quote signature akPublic pcrs nonce)).congr (r := readQuote)
    fun q e => ?_
  cases q
  simp [Quote.Short, encode, and_assoc, List.flatMap]

theorem parse_eq_ok {b : Bytes} {ev : Evidence} : parse "tpm2-quote" b = .ok ev ↔
    ∃ q, (readQuote b).run 0 = .ok (q, b.length) ∧ ev = .tpm2Quote q := by
  unfold parse
  rw [if_pos rfl]
  split
  · next e he => simp [he]
  next q pos hq =>
  rw [ite_error_eq_ok, not_not, hq]
  grind

/-! ### No read outside of the input -/

/-- A reader, as one that could read outside of its input and does not. -/
def Cursor.lift (c : Cursor α) : Access α := fun pos => (c.run pos).mapError .error

@[simp] theorem lift_pure (a : α) : Cursor.lift (pure a) = pure a := rfl

@[simp] theorem lift_bind (c : Cursor α) (f : α → Cursor β) :
    Cursor.lift (c >>= f) = Cursor.lift c >>= fun a => Cursor.lift (f a) := by
  funext pos
  show ((c >>= f).run pos).mapError _ =
    ((c.run pos).mapError _ >>= fun p => Cursor.lift (f p.1) p.2)
  rw [StateT.run_bind]
  cases c.run pos <;> rfl

@[simp] theorem lift_times (c : Cursor α) (n : ℕ) :
    Cursor.lift (Cursor.times c n) = Cursor.times (Cursor.lift c) n := by
  induction n with
  | zero => rfl
  | succ n ih => simp only [Cursor.times, lift_bind, lift_pure, ih]

@[simp] theorem run_check (buf : Bytes) (n : ℕ) (e : AttestError) (pos : ℕ) :
    (Access.check buf n e).run pos =
      if pos + n > buf.length then .error (.error e) else .ok ((), pos) := rfl

@[simp] theorem run_slice (buf : Bytes) (n pos : ℕ) : (Access.slice buf n).run pos =
    if pos + n ≤ buf.length then .ok ((buf.drop pos).take n, pos + n)
    else .error (.outside pos n) := rfl

@[simp] theorem run_lift (c : Cursor α) (pos : ℕ) :
    (Cursor.lift c).run pos = (c.run pos).mapError .error := rfl

/-- Behind its check, an access is inside of the input. -/
theorem check_slice (buf : Bytes) (n : ℕ) (e : AttestError) :
    (Access.check buf n e >>= fun _ => Access.slice buf n) =
      Cursor.lift (Cursor.bytes buf n fun _ => e) := by
  refine StateT.ext fun pos => ?_
  simp only [StateT.run_bind, run_check, run_slice, run_lift]
  show _ = Except.mapError _ (if _ then _ else _)
  by_cases h : pos + n > buf.length
  · simp only [if_pos h]
    rfl
  · simp only [if_neg h]
    exact if_pos (by omega)

/-- One check for two accesses, one behind the other. -/
theorem check_slice_slice (buf : Bytes) (n m : ℕ) (e : AttestError) (k : Bytes → Bytes → Access β) :
    (Access.check buf (n + m) e >>= fun _ => Access.slice buf n >>= fun a =>
      Access.slice buf m >>= fun b => k a b) =
      Access.check buf (n + m) e >>= fun _ => Access.slice buf (n + m) >>= fun h =>
        k (h.take n) (h.drop n) := by
  refine StateT.ext fun pos => ?_
  simp only [StateT.run_bind, run_check, run_slice]
  by_cases h : pos + (n + m) > buf.length
  · simp only [if_pos h]
    rfl
  · have hn : pos + n ≤ buf.length := by omega
    have htake : ((buf.drop pos).take (n + m)).take n = (buf.drop pos).take n := by
      rw [List.take_take, min_eq_left (Nat.le_add_right n m)]
    have hdrop : ((buf.drop pos).take (n + m)).drop n = (buf.drop (pos + n)).take m := by
      rw [List.drop_take, List.drop_drop, Nat.add_sub_cancel_left]
    simp only [if_neg h, bind, Except.bind, if_pos hn, if_pos (not_lt.mp h), htake, hdrop,
      Nat.add_assoc]

/-- A field is read by two accesses, each behind a check of its own. -/
theorem access_field (buf : Bytes) : Access.field buf = Cursor.lift (field buf) := by
  simp only [Access.field, field, Cursor.number, lift_bind, ← check_slice, bind_assoc, pure_bind]

/-- The index and the length of a PCR are read behind one check. -/
theorem access_pcr (buf : Bytes) : Access.pcr buf = Cursor.lift (pcr buf) := by
  simp only [Access.pcr, pcr, lift_bind, lift_pure, ← check_slice, bind_assoc]
  exact check_slice_slice buf 4 2 _ _

theorem access_readQuote (buf : Bytes) : Access.readQuote buf = Cursor.lift (readQuote buf) := by
  simp only [Access.readQuote, readQuote, access_field, Cursor.number, lift_bind, lift_pure,
    lift_times, access_pcr, ← check_slice, bind_assoc, pure_bind]

/-- `parse` does not panic: with its accesses checked it gives what it gives without. -/
theorem parseReads_eq (format : String) (b : Bytes) :
    parseReads format b = (parse format b).mapError .error := by
  unfold parseReads parse
  split
  · rw [access_readQuote, run_lift]
    cases (readQuote b).run 0 with
    | error e => rfl
    | ok q =>
      dsimp only [Except.mapError]
      split <;> rfl
  · split <;> rfl

/-- Evidence with short fields is read back, what is accepted is the encoding of the result, and for
every input, accepted or not, no access of `parse` is outside of it. -/
theorem evidence_codec :
    (∀ q : Quote, q.Short →
      parse (encode (.tpm2Quote q)).1 (encode (.tpm2Quote q)).2 = .ok (.tpm2Quote q)) ∧
    (∀ b ev, parse "tpm2-quote" b = .ok ev → encode ev = ("tpm2-quote", b)) ∧
    ∀ format b, parseReads format b = (parse format b).mapError .error := by
  refine ⟨fun q hq => ?_, fun b ev hparse => ?_, parseReads_eq⟩
  · refine parse_eq_ok.mpr ⟨q, ?_, rfl⟩
    exact (reads_quote [] _ q _).mpr ⟨_, [], ⟨hq, rfl⟩, (List.append_nil _).symm, rfl⟩
  · obtain ⟨q, hread, rfl⟩ := parse_eq_ok.mp hparse
    obtain ⟨_, rest, ⟨-, rfl⟩, hb, hlength⟩ := (reads_quote [] b q b.length).mp hread
    have hrest : rest = [] := by
      have := congrArg List.length hb
      rw [List.length_append, hlength, List.nil_append] at this
      exact List.eq_nil_of_length_eq_zero (by omega)
    rw [hrest, List.append_nil] at hb
    rw [hb]
    rfl

end Avon.Attest
