import Avon.Control.Attest

/-!
# The attestation key of a device

A call that has read the key can only pin that key; a call that has read no key pins the key of its
own quote. As long as the calls that have read no key are about to pin the same key, the stored key
never changes.
-/

set_option autoImplicit false

namespace Avon.Control

open Avon.Attest Avon.Crypto Avon.Lib.Run
open Attestation (step parsed)

def Signed (Q : QuoteImpl) (q : Quote) : Prop :=
  ∃ key sig, Q.ecdsa.keyFromDer q.akPublic = some key ∧
    Q.ecdsa.signatureFromBytes q.signature = some sig ∧ Q.ecdsa.verify key q.quote sig = true

variable {policy : QuotePolicy} {Q : QuoteImpl} {nonce : Bytes} {q : Quote}

theorem signed_of_quoteFault {attest : QuoteAttest}
    (h : quoteFault Q q attest nonce policy = none) : Signed Q q := by
  unfold quoteFault at h
  split at h
  · cases h
  split at h
  · cases h
  split at h
  · cases h
  split at h
  · cases h
  split at h
  · cases h
  split at h
  · cases h
  rename_i key hkey
  split at h
  · cases h
  rename_i sig hsig
  split at h
  · rename_i hverify
    exact ⟨key, sig, hkey, hsig, hverify⟩
  · cases h

theorem keyVerdict_known {ak known : Bytes} {reason : String}
    (h : keyVerdict ak (some known) policy = .ok reason) : known = ak := by
  simp only [keyVerdict] at h
  split at h
  · assumption
  · cases h

/-- A quote that verifies is signed with its own key, and that is the known key if there is
one. -/
theorem verdict_verified {known : Option Bytes}
    (h : (Attestation.verdict Q nonce q known).state = .verified) :
    Signed Q q ∧ ∀ k, known = some k → k = q.akPublic := by
  simp only [Attestation.verdict, verify] at h
  split at h
  · cases h
  split at h
  · cases h
  rename_i hfault
  split at h
  · cases h
  rename_i hkey
  refine ⟨signed_of_quoteFault hfault, fun k hk => ?_⟩
  subst hk
  exact keyVerdict_known hkey

/-! ### What a call is about to pin -/

def pinning (Q : QuoteImpl) : StreamPhase → Option Bytes
  | .verifying _ nonce q known =>
    if (Attestation.verdict Q nonce q known).state = .verified then some q.akPublic else none
  | .recording _ r => r.pins
  | _ => none

theorem pinning_parsed (Q : QuoteImpl) (o : Outstanding) (format : String) (bytes : Bytes) :
    pinning Q (parsed o format bytes) = none := by
  unfold parsed
  split <;> rfl

theorem parsed_ne_verified {o : Outstanding} {format : String} {bytes : Bytes} {i : ℕ}
    {r : AttestationRecord} (h : parsed o format bytes = .recording i r) :
    r.result ≠ .verified := by
  unfold parsed at h
  split at h <;> cases h <;> nofun

namespace Attestation

variable {ι : Type} [DecidableEq ι] {s s' : Attestation ι}

@[simp] theorem setPhase_row (k : ι) (ph : StreamPhase) : (s.setPhase k ph).row = s.row := rfl

@[simp] theorem setPhase_self (k : ι) (ph : StreamPhase) : (s.setPhase k ph).phase k = ph :=
  Function.update_self ..

theorem setPhase_phase (k j : ι) (ph : StreamPhase) :
    (s.setPhase k ph).phase j = if j = k then ph else s.phase j := by
  simp only [setPhase, Function.update_apply]

/-- The stored key, and every key that a call is about to pin. -/
def keys (Q : QuoteImpl) (s : Attestation ι) : Set Bytes :=
  { p | s.row.akPublic = some p ∨ ∃ j, pinning Q (s.phase j) = some p }

omit [DecidableEq ι] in
theorem keys_congr (hrow : s'.row = s.row) (hphase : s'.phase = s.phase) :
    keys Q s' = keys Q s := by
  simp only [keys, hrow, hphase]

variable {ph : StreamPhase} {k : ι}

theorem keys_setPhase
    (h : ∀ p, pinning Q ph = some p → p ∈ keys Q s) : keys Q (s.setPhase k ph) ⊆ keys Q s := by
  rintro p (hp | ⟨j, hj⟩)
  · exact .inl hp
  rw [setPhase_phase] at hj
  split at hj
  · exact h p hj
  · exact .inr ⟨j, hj⟩

/-- A record that says `verified` is the one of a quote that is signed with the key it pins. -/
def Proved (Q : QuoteImpl) (s : Attestation ι) : Prop :=
  ∀ j i r, s.phase j = .recording i r → r.result = .verified →
    ∃ q, (i, q) ∈ s.proofs ∧ Signed Q q ∧ r.pins = some q.akPublic

theorem Proved.setPhase (hs : Proved Q s) (h : ∀ i r, ph = .recording i r → r.result = .verified →
      ∃ q, (i, q) ∈ s.proofs ∧ Signed Q q ∧ r.pins = some q.akPublic) :
    Proved Q (s.setPhase k ph) := by
  intro j i r hj hr
  rw [setPhase_phase] at hj
  split at hj
  · exact h i r hj hr
  · exact hs j i r hj hr

/-- When a call reads that no key is stored and its quote will verify, every other call that is
about to pin a key is about to pin the key of that quote. -/
def FirstUse (Q : QuoteImpl) (s : Attestation ι) : AttestationEvent ι → Prop
  | .readKey j true => ∀ issued nonce q, s.phase j = .reading issued nonce q →
      s.row.akPublic = none → (verdict Q nonce q none).state = .verified →
        ∀ k p, pinning Q (s.phase k) = some p → p = q.akPublic
  | _ => True

/-- The stored key and the keys to be pinned are one key. -/
structure OneKey (Q : QuoteImpl) (s : Attestation ι) : Prop where
  one : (keys Q s).Subsingleton
  proved : Proved Q s

theorem OneKey.setPhase (hs : OneKey Q s)
    (hpin : pinning Q ph = none) (hrec : ∀ i r, ph = .recording i r → r.result ≠ .verified) :
    OneKey Q (s.setPhase k ph) where
  one := hs.one.anti (keys_setPhase fun p hp => by rw [hpin] at hp; cases hp)
  proved := hs.proved.setPhase fun i r h hr => absurd hr (hrec i r h)

omit [DecidableEq ι] in
theorem OneKey.congr (hs : OneKey Q s) (hrow : s'.row = s.row) (hphase : s'.phase = s.phase)
    (hproofs : s.proofs ⊆ s'.proofs) : OneKey Q s' where
  one := by rw [keys_congr hrow hphase]; exact hs.one
  proved j i r hj hr := by
    obtain ⟨q, hq, hsig⟩ := hs.proved j i r (hphase ▸ hj) hr
    exact ⟨q, hproofs hq, hsig⟩

theorem OneKey.openStep (hs : OneKey Q s) (k : ι) : OneKey Q (s.openStep k) := by
  unfold Attestation.openStep
  split
  · have hidle : OneKey Q (s.setPhase k .idle) := hs.setPhase rfl nofun
    exact hidle.congr rfl rfl (List.Subset.refl _)
  · exact hs

theorem OneKey.challengeStep (hs : OneKey Q s) (k : ι) (nonce : Bytes) :
    OneKey Q (s.challengeStep k nonce) := by
  unfold Attestation.challengeStep
  split
  · exact hs
  split
  · exact hs.congr rfl rfl (List.Subset.refl _)
  · exact hs

theorem OneKey.goneStep (hs : OneKey Q s) (k : ι) : OneKey Q (s.goneStep k) := by
  unfold Attestation.goneStep
  split
  · exact hs
  · exact hs.congr rfl rfl (List.Subset.refl _)

theorem OneKey.evidenceStep (hs : OneKey Q s) (k : ι) (format : String) (bytes : Bytes) :
    OneKey Q (s.evidenceStep k format bytes) := by
  unfold Attestation.evidenceStep
  split
  · split
    · exact hs
    split
    · exact (hs.setPhase (pinning_parsed Q _ format bytes) fun _ _ h =>
        parsed_ne_verified h).congr rfl rfl (List.Subset.refl _)
    · exact hs.congr rfl rfl (List.Subset.refl _)
  · exact hs

theorem OneKey.inboundEndsStep (hs : OneKey Q s) (k : ι) : OneKey Q (s.inboundEndsStep k) := by
  unfold Attestation.inboundEndsStep
  split
  · exact hs.setPhase rfl nofun
  · exact hs

theorem pinning_verifying {issued : ℕ} {nonce : Bytes} {q : Quote} {known : Option Bytes}
    {p : Bytes} (h : pinning Q (.verifying issued nonce q known) = some p) :
    (verdict Q nonce q known).state = .verified ∧ p = q.akPublic := by
  simp only [pinning] at h
  split at h
  · exact ⟨by assumption, (Option.some.inj h).symm⟩
  · cases h

theorem OneKey.readKeyStep (hs : OneKey Q s) (k : ι) (ok : Bool)
    (hG : FirstUse Q s (.readKey k ok)) : OneKey Q (s.readKeyStep k ok) := by
  unfold Attestation.readKeyStep
  split
  case h_2 => exact hs
  rename_i issued nonce q hk
  cases ok with
  | false => exact hs.setPhase rfl nofun
  | true =>
    refine ⟨?_, hs.proved.setPhase nofun⟩
    cases hrow : s.row.akPublic with
    | some key =>
      -- the call can only pin the key it has read
      refine hs.one.anti (keys_setPhase fun p hp => ?_)
      obtain ⟨hv, rfl⟩ := pinning_verifying hp
      rw [← (verdict_verified hv).2 key rfl]
      exact .inl hrow
    | none =>
      by_cases hv : (verdict Q nonce q none).state = .verified
      · have hall : ∀ p ∈ keys Q (s.setPhase k (.verifying issued nonce q none)),
            p = q.akPublic := by
          rintro p (hp | ⟨j, hj⟩)
          · rw [setPhase_row, hrow] at hp
            cases hp
          rw [setPhase_phase] at hj
          split at hj
          · exact (pinning_verifying hj).2
          · exact hG issued nonce q hk hrow hv j p hj
        exact fun p hp p' hp' => (hall p hp).trans (hall p' hp').symm
      · exact hs.one.anti (keys_setPhase fun p hp => absurd (pinning_verifying hp).1 hv)

theorem OneKey.checkStep (hs : OneKey Q s) (k : ι) : OneKey Q (s.checkStep Q k) := by
  unfold Attestation.checkStep
  split
  case h_2 => exact hs
  rename_i issued nonce q known hk
  let v := verdict Q nonce q known
  let r : AttestationRecord := ⟨v.state, v.reason, some (v, q.akPublic)⟩
  -- what is recorded pins what the check was about to pin
  have hpin : pinning Q (.recording issued r) = pinning Q (s.phase k) := by rw [hk]; rfl
  constructor
  · change (keys Q (s.setPhase k (.recording issued r))).Subsingleton
    refine hs.one.anti (keys_setPhase fun p hp => ?_)
    rw [hpin] at hp
    exact .inr ⟨k, hp⟩
  intro j i r' hj hr'
  rw [show Attestation.phase _ j = _ from setPhase_phase (s := s) k j (.recording issued r)] at hj
  split at hj
  · cases hj
    have hv : v.state = .verified := hr'
    refine ⟨q, ?_, (verdict_verified hv).1, ?_⟩
    · simp only [v] at hv
      simp [hv]
    · simp only [AttestationRecord.pins, r, Option.bind_some, hv, if_true]
  obtain ⟨q', hq', hsig⟩ := hs.proved j i r' hj hr'
  refine ⟨q', ?_, hsig⟩
  dsimp only
  split
  · exact List.mem_cons_of_mem _ hq'
  · exact hq'

/-- The key stored after a record is one that was stored or to be pinned before. -/
theorem keys_recordStep (k : ι) (ok : Bool) : keys Q (s.recordStep k ok) ⊆ keys Q s := by
  unfold Attestation.recordStep
  split
  case h_2 => exact subset_rfl
  rename_i issued r hk
  split
  · rintro p (hp | ⟨j, hj⟩)
    · rcases Option.or_eq_some_iff.mp hp with hpins | ⟨-, hstored⟩
      · exact .inr ⟨k, by rw [hk]; exact hpins⟩
      · exact .inl hstored
    · have hsub : keys Q (s.setPhase k .idle) ⊆ keys Q s := keys_setPhase nofun
      exact hsub (.inr ⟨j, hj⟩)
  · exact keys_setPhase nofun

theorem OneKey.recordStep (hs : OneKey Q s) (k : ι) (ok : Bool) : OneKey Q (s.recordStep k ok) := by
  refine ⟨hs.one.anti (keys_recordStep k ok), ?_⟩
  unfold Attestation.recordStep
  split
  case h_2 => exact hs.proved
  split
  · have hidle : Proved Q (s.setPhase k .idle) := hs.proved.setPhase nofun
    exact hidle
  · exact hs.proved.setPhase nofun

theorem OneKey.step (hs : OneKey Q s) (e : AttestationEvent ι) (hG : FirstUse Q s e) :
    OneKey Q (s.step Q e) := by
  cases e with
  | tick | sweep => exact hs.congr rfl rfl (List.Subset.refl _)
  | openStream k => exact hs.openStep k
  | challenge k nonce => exact hs.challengeStep k nonce
  | gone k => exact hs.goneStep k
  | evidence k format bytes => exact hs.evidenceStep k format bytes
  | readKey k ok => exact hs.readKeyStep k ok hG
  | check k => exact hs.checkStep k
  | record k ok => exact hs.recordStep k ok
  | inboundEnds k => exact hs.inboundEndsStep k

omit [DecidableEq ι] in
theorem OneKey.start (now : ℕ) (row : AttestationRow) (leftover : Option (Bytes × ℕ)) :
    OneKey Q (start (ι := ι) now row leftover) where
  one := by
    rintro p (hp | ⟨_, hp⟩) p' (hp' | ⟨_, hp'⟩)
    · exact Option.some.inj (hp.symm.trans hp')
    · cases hp'
    · cases hp
    · cases hp
  proved := nofun

theorem step_row (Q : QuoteImpl) (s : Attestation ι) (e : AttestationEvent ι) :
    (s.step Q e).row = s.row ∨ ∃ k issued r, e = .record k true ∧
      s.phase k = .recording issued r ∧ (s.step Q e).row = s.row.record s.now r := by
  cases e with
  | tick | sweep => exact .inl rfl
  | openStream k => left; simp only [step, Attestation.openStep]; split <;> rfl
  | challenge k nonce =>
    left; simp only [step, Attestation.challengeStep]; split
    · rfl
    · split <;> rfl
  | gone k => left; simp only [step, Attestation.goneStep]; split <;> rfl
  | evidence k format bytes =>
    left; simp only [step, Attestation.evidenceStep]; split
    · split
      · rfl
      · split <;> rfl
    · rfl
  | readKey k ok => left; simp only [step, Attestation.readKeyStep]; split <;> rfl
  | check k => left; simp only [step, Attestation.checkStep]; split <;> rfl
  | record k ok =>
    simp only [step, Attestation.recordStep]
    split
    case h_2 => exact .inl rfl
    rename_i issued r hk
    cases ok with
    | false => exact .inl rfl
    | true => exact .inr ⟨k, issued, r, rfl, hk, rfl⟩
  | inboundEnds k => left; simp only [step, Attestation.inboundEndsStep]; split <;> rfl

/-- What a step may do to the row: a stored key stays, and `verified` is only ever written for a
quote that is signed with the key that is then stored. -/
structure Pinned (Q : QuoteImpl) (s : Attestation ι) (e : AttestationEvent ι) : Prop where
  key_kept : ∀ p, s.row.akPublic = some p → (s.step Q e).row.akPublic = some p
  verified_by : (s.step Q e).row.state = .verified → (s.step Q e).row = s.row ∨
    ∃ k issued r q, e = .record k true ∧ s.phase k = .recording issued r ∧
      (issued, q) ∈ s.proofs ∧ Signed Q q ∧ (s.step Q e).row.akPublic = some q.akPublic

theorem OneKey.pinned (hs : OneKey Q s) (e : AttestationEvent ι) : Pinned Q s e := by
  rcases step_row Q s e with hrow | ⟨k, issued, r, rfl, hk, hrow⟩
  · exact ⟨fun p hp => hrow ▸ hp, fun _ => .inl hrow⟩
  have hkey : (s.step Q (.record k true)).row.akPublic = r.pins.or s.row.akPublic := by
    rw [hrow]
    rfl
  constructor
  · intro p hp
    cases hpins : r.pins with
    | none => rw [hkey, hpins, hp]; rfl
    | some p' =>
      have hp' : p' ∈ keys Q s := .inr ⟨k, by rw [hk]; exact hpins⟩
      rw [hkey, hpins, hs.one (.inl hp) hp']
      rfl
  · intro hverified
    have hresult : r.result = .verified := by rw [hrow] at hverified; exact hverified
    obtain ⟨q, hq, hsig, hpins⟩ := hs.proved k issued r hk hresult
    refine .inr ⟨k, issued, r, q, rfl, hk, hq, hsig, ?_⟩
    rw [hkey, hpins]
    rfl

/-- In every run in which calls that find no key stored agree on the key they bring, a stored key
never changes, and the device becomes `verified` only by a quote that is signed with the key that
is then stored. -/
theorem attestationKey_pinned (Q : QuoteImpl) (now : ℕ) (row : AttestationRow)
    (leftover : Option (Bytes × ℕ)) (xs ys : List (AttestationEvent ι))
    (hG : Guarded (step Q) (FirstUse Q) (start now row leftover) (xs ++ ys)) :
    (∀ p, (run (step Q) (start now row leftover) xs).row.akPublic = some p →
      (run (step Q) (start now row leftover) (xs ++ ys)).row.akPublic = some p) ∧
    ∀ e, Pinned Q (run (step Q) (start now row leftover) (xs ++ ys)) e := by
  obtain ⟨hxs, hys⟩ := guarded_append.mp hG
  have hmid : OneKey Q (run (step Q) (start now row leftover) xs) :=
    hxs.invariant (fun _ e hs hGe => hs.step e hGe) (.start now row leftover)
  constructor
  · intro p hp
    rw [run_append]
    have hend := hys.invariant (I := fun s => OneKey Q s ∧ s.row.akPublic = some p)
      (fun _ e hs hGe => ⟨hs.1.step e hGe, (hs.1.pinned e).key_kept p hs.2⟩) ⟨hmid, hp⟩
    exact hend.2
  · rw [run_append]
    exact (hys.invariant (fun _ e hs hGe => hs.step e hGe) hmid).pinned

end Attestation

/-! ### Two first uses at once -/

/-- A scheme and a hash that hide nothing: a signature is the key and what it signs. -/
def clearQuotes : QuoteImpl where
  ecdsa :=
    { Key := Bytes
      Signature := Bytes
      keyFromDer := some
      signatureFromBytes := some
      verify := fun key msg sig => sig = key ++ msg }
  sha256 bytes := (bytes ++ zeroDigest).take 32

def sized (bytes : Bytes) : Bytes := Lib.BigEndian.beBytes 2 bytes.length ++ bytes

def quoteOf (nonce : UInt8) : Bytes :=
  [0xFF, 0x54, 0x43, 0x47, 0x80, 0x18] ++ sized [] ++ sized [nonce] ++ List.replicate 16 0 ++ [1] ++
    List.replicate 8 0 ++ [0, 0, 0, 1, 0, 0x0B, 1, 0x81] ++ sized zeroDigest

def evidenceOf (ak nonce : UInt8) : Bytes :=
  sized (quoteOf nonce) ++ sized (ak :: quoteOf nonce) ++ sized [ak] ++
    [0, 2] ++ [0, 0, 0, 0] ++ sized zeroDigest ++ [0, 0, 0, 7] ++ sized zeroDigest ++ sized [nonce]

def unattested : AttestationRow := ⟨.none, none, none, none, none, none, none, none⟩

def answered {ι : Type} (k : ι) (ak nonce : UInt8) : List (AttestationEvent ι) :=
  [.openStream k, .challenge k [nonce], .evidence k "tpm2-quote" (evidenceOf ak nonce)]

def judged {ι : Type} (k : ι) : List (AttestationEvent ι) :=
  [.readKey k true, .check k, .record k true]

/-- Stream `true` brings another key than the one that stream `false` has brought. -/
def replacedKey : List (AttestationEvent Bool) × List (AttestationEvent Bool) :=
  (answered false 1 5 ++ judged false, answered true 2 6 ++ judged true)

theorem Attestation.firstUse_of_others {ι : Type} {Q : QuoteImpl} {s : Attestation ι} {j : ι}
    (h : ∀ k, k ≠ j → pinning Q (s.phase k) = none) : FirstUse Q s (.readKey j true) := by
  intro issued nonce q hphase _ _ k p hp
  by_cases hk : k = j
  · rw [hk, hphase] at hp
    cases hp
  · rw [h k hk] at hp
    cases hp

theorem attestationKey_pinned_replacedKey :
    (run (step clearQuotes) (.start 0 unattested none)
      (replacedKey.1 ++ replacedKey.2)).row.akPublic = some [1] ∧
    (run (step clearQuotes) (.start 0 unattested none)
      (replacedKey.1 ++ replacedKey.2)).row.state = .failed := by
  have hG : Guarded (step clearQuotes) (Attestation.FirstUse clearQuotes) (.start 0 unattested none)
      (replacedKey.1 ++ replacedKey.2) :=
    ⟨trivial, trivial, trivial, Attestation.firstUse_of_others (by decide +kernel), trivial,
      trivial, trivial, trivial, trivial, Attestation.firstUse_of_others (by decide +kernel),
      trivial, trivial,
      trivial⟩
  exact ⟨(Attestation.attestationKey_pinned clearQuotes 0 unattested none replacedKey.1
    replacedKey.2 hG).1 [1] (by decide +kernel), by decide +kernel⟩

/-- Two streams of one device, with quotes by different keys; both read that no key is stored. -/
def twoFirstUses : List (AttestationEvent Bool) :=
  answered false 1 5 ++ answered true 2 6 ++
    [.readKey false true, .readKey true true, .check false, .check true, .record false true]

/-- The stored key changes. -/
theorem attestationKey_changes :
    (run (step clearQuotes) (.start 0 unattested none) twoFirstUses).row.akPublic =
      some [1] ∧
    (run (step clearQuotes) (.start 0 unattested none)
      (twoFirstUses ++ [.record true true])).row.akPublic = some [2] := by
  decide +kernel

end Avon.Control
