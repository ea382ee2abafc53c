import Avon.Proofs.Control.Pinning
import Mathlib.Tactic.Linarith

/-!
# How old the proof of a verified device can be

The code writes an outcome only when evidence comes in, so a device that stops answering stays as it
was recorded. `OnTime` is what has to hold besides, and `Timely` the invariant of an open stream.
-/

set_option autoImplicit false

namespace Avon.Control

open Avon.Attest Avon.Crypto Avon.Lib.Run
open Attestation (parsed)

theorem challenge_ttl_lt : CHALLENGE_TTL < REATTEST_INTERVAL := by decide

def StreamPhase.issue : StreamPhase → Option ℕ
  | .reading issued _ _ => some issued
  | .verifying issued _ _ _ => some issued
  | .recording issued _ => some issued
  | _ => none

/-- The same for a call that is about to record `verified`. -/
def StreamPhase.proven : StreamPhase → Option ℕ
  | .recording issued r => if r.result = .verified then some issued else none
  | _ => none

theorem issue_parsed (o : Outstanding) (format : String) (bytes : Bytes) :
    (parsed o format bytes).issue = some o.issued := by
  unfold parsed
  split <;> rfl

theorem parsed_ne_closed (o : Outstanding) (format : String) (bytes : Bytes) :
    parsed o format bytes ≠ .closed := by
  unfold parsed
  split <;> nofun

theorem proven_parsed (o : Outstanding) (format : String) (bytes : Bytes) :
    (parsed o format bytes).proven = none := by
  unfold parsed
  split <;> rfl

namespace Attestation

variable {Q : QuoteImpl} {s : Attestation Unit}

/-- A device whose stream has been open for long is `verified` only if it has shown a quote for a
nonce that was issued not long ago. -/
def Fresh (s : Attestation Unit) : Prop :=
  ∀ t, s.opened () = some t → t + (REATTEST_INTERVAL + CHALLENGE_TTL) < s.now →
    s.row.state = .verified →
      ∃ p ∈ s.proofs, s.now ≤ p.1 + (REATTEST_INTERVAL + CHALLENGE_TTL)

/-- The ticker is not late; as long as the device is `verified`, the outcome of its last challenge
is recorded within the time in which it is answerable; and `verified` is recorded within that
time. -/
def OnTime (s : Attestation Unit) : AttestationEvent Unit → Prop
  | .tick d => (∀ t ∈ s.due (), s.now + d ≤ t) ∧
      (s.row.state = .verified → ∀ i ∈ s.awaiting, s.now + d ≤ i + CHALLENGE_TTL)
  | .record _ true => ∀ i ∈ (s.phase ()).proven, s.now ≤ i + CHALLENGE_TTL
  | _ => True

instance (s : Attestation Unit) (e : AttestationEvent Unit) : Decidable (OnTime s e) := by
  unfold OnTime
  split <;> infer_instance

structure Unopened (s : Attestation Unit) : Prop where
  phase : s.phase () = .closed
  due : s.due () = none
  opened : s.opened () = none
  awaiting : s.awaiting = none
  leftover : ∀ o ∈ s.challenge, o.issued ≤ s.now

structure Gone (s : Attestation Unit) : Prop where
  phase : s.phase () ≠ .closed
  due : s.due () = none
  opened : s.opened () = none

/-- What a call in flight is about: the last of `n` challenges, or a nonce from before the first,
or else an older challenge. In that case it began before the last one was sent, whose outcome is
then still to come. -/
def About (t₀ n : ℕ) (s : Attestation Unit) (i : ℕ) : Prop :=
  (n = 0 ∧ i ≤ t₀) ∨ (0 < n ∧ i + REATTEST_INTERVAL = t₀ + n * REATTEST_INTERVAL) ∨
    (s.awaiting.isSome ∧
      (i ≤ t₀ ∨ i + 2 * REATTEST_INTERVAL ≤ t₀ + n * REATTEST_INTERVAL))

/-- The stream was opened at `t₀` and has sent `n` challenges, the last of them `REATTEST_INTERVAL`
before the next is due. -/
structure Timely (t₀ n : ℕ) (s : Attestation Unit) : Prop where
  phase : s.phase () ≠ .closed
  opened : s.opened () = some t₀
  due : s.due () = some (t₀ + n * REATTEST_INTERVAL)
  not_late : s.now ≤ t₀ + n * REATTEST_INTERVAL
  sent : t₀ ≤ s.now ∧ t₀ + n * REATTEST_INTERVAL ≤ s.now + REATTEST_INTERVAL
  awaiting : ∀ i ∈ s.awaiting, 0 < n ∧ i + REATTEST_INTERVAL = t₀ + n * REATTEST_INTERVAL
  outstanding : ∀ o ∈ s.challenge, (n = 0 ∧ o.issued ≤ t₀) ∨
    (0 < n ∧ o.issued + REATTEST_INTERVAL = t₀ + n * REATTEST_INTERVAL)
  inFlight : ∀ i ∈ (s.phase ()).issue, About t₀ n s i
  proven : ∀ i ∈ (s.phase ()).proven, ∃ p ∈ s.proofs, p.1 = i
  /-- A verified device has answered the last challenge, or there is still time for it and it has
  answered the one before. -/
  held : s.row.state = .verified →
    (∃ a ∈ s.awaiting, s.now ≤ a + CHALLENGE_TTL ∧
      (a ≤ t₀ ∨ ∃ p ∈ s.proofs, a ≤ p.1 + REATTEST_INTERVAL)) ∨
    (s.awaiting = none ∧
      (n = 0 ∨ ∃ p ∈ s.proofs, t₀ + n * REATTEST_INTERVAL ≤ p.1 + REATTEST_INTERVAL))

variable {t₀ n : ℕ}

theorem Timely.fresh (hs : Timely t₀ n s) : Fresh s := by
  intro t ht hlong hverified
  obtain rfl : t₀ = t := Option.some.inj (hs.opened.symm.trans ht)
  have hnow := hs.not_late
  rcases hs.held hverified with ⟨a, -, hle, ha | ⟨p, hp, ha⟩⟩ | ⟨-, rfl | ⟨p, hp, ha⟩⟩
  · omega
  · exact ⟨p, hp, by omega⟩
  · omega
  · exact ⟨p, hp, by omega⟩

/-! ### One step of an open stream -/

section
variable (hs : Timely t₀ n s)
include hs

theorem Timely.tick {d : ℕ} (hG : OnTime s (.tick d)) : Timely t₀ n (s.step Q (.tick d)) := by
  have hlate : s.now + d ≤ t₀ + n * REATTEST_INTERVAL := hG.1 _ hs.due
  refine { hs with
    not_late := hlate
    sent := ⟨Nat.le_add_right_of_le hs.sent.1, ?_⟩
    held := fun hv => ?_ }
  · change _ ≤ s.now + d + REATTEST_INTERVAL
    have := hs.sent.2
    omega
  rcases hs.held hv with ⟨a, ha, -, hproof⟩ | hanswered
  · exact .inl ⟨a, ha, hG.2 hv a ha, hproof⟩
  · exact .inr hanswered

theorem Timely.openStream : s.openStep () = s := by
  unfold Attestation.openStep
  split
  · exact absurd ‹_› hs.phase
  · rfl

theorem Timely.challenge (nonce : Bytes) : ∃ m, Timely t₀ m (s.challengeStep () nonce) := by
  unfold Attestation.challengeStep
  rw [hs.due]
  dsimp only
  split
  case isFalse => exact ⟨n, hs⟩
  rename_i hdue
  have hnow : s.now = t₀ + n * REATTEST_INTERVAL := Nat.le_antisymm hs.not_late hdue
  have hsucc : (n + 1) * REATTEST_INTERVAL = n * REATTEST_INTERVAL + REATTEST_INTERVAL :=
    Nat.succ_mul n _
  have hlast : s.now + REATTEST_INTERVAL = t₀ + (n + 1) * REATTEST_INTERVAL := by omega
  refine ⟨n + 1, ?_⟩
  constructor
  case phase => exact hs.phase
  case opened => exact hs.opened
  case due => simp only [Function.update_self, hsucc, Nat.add_assoc]
  case not_late => dsimp only; omega
  case sent => exact ⟨hs.sent.1, hlast.ge⟩
  case awaiting =>
    rintro i hi
    obtain rfl : s.now = i := Option.some.inj hi
    exact ⟨Nat.succ_pos n, hlast⟩
  case outstanding =>
    rintro o ho
    obtain rfl := Option.some.inj ho
    exact .inr ⟨Nat.succ_pos n, hlast⟩
  case inFlight =>
    -- what is in flight is now about an older challenge
    intro i hi
    refine .inr (.inr ⟨rfl, ?_⟩)
    rcases hs.inFlight i hi with ⟨-, hle⟩ | ⟨-, heq⟩ | ⟨-, hle | hle⟩
    · exact .inl hle
    · right; omega
    · exact .inl hle
    · right; omega
  case proven => exact hs.proven
  case held =>
    intro hv
    refine .inl ⟨s.now, rfl, Nat.le_add_right _ _, ?_⟩
    rcases hs.held hv with ⟨a, ha, hle, -⟩ | ⟨-, rfl | ⟨p, hp, hle⟩⟩
    · -- the challenge before is answered by now
      have := (hs.awaiting a ha).2
      have := challenge_ttl_lt
      omega
    · left; omega
    · exact .inr ⟨p, hp, hnow ▸ hle⟩

theorem Timely.gone : Gone (s.goneStep ()) := by
  unfold Attestation.goneStep
  rw [hs.due]
  constructor
  · exact hs.phase
  · exact Function.update_self () none s.due
  · exact Function.update_self () none s.opened

theorem Timely.setPhase {ph : StreamPhase} (hclosed : ph ≠ .closed)
    (hissue : ∀ i ∈ ph.issue, About t₀ n s i)
    (hproven : ∀ i ∈ ph.proven, ∃ p ∈ s.proofs, p.1 = i) : Timely t₀ n (s.setPhase () ph) :=
  { hs with
    phase := by rwa [setPhase_self]
    inFlight := by rwa [setPhase_self]
    proven := by rwa [setPhase_self] }

theorem Timely.forget : Timely t₀ n { s with challenge := none } :=
  { hs with outstanding := nofun }

theorem Timely.prove {proofs : List (ℕ × Quote)}
    (hsub : s.proofs ⊆ proofs) : Timely t₀ n { s with proofs := proofs } := by
  refine { hs with proven := fun i hi => ?_, held := fun hv => ?_ }
  · obtain ⟨p, hp, heq⟩ := hs.proven i hi
    exact ⟨p, hsub hp, heq⟩
  rcases hs.held hv with ⟨a, ha, hle, h | ⟨p, hp, h⟩⟩ | ⟨hnone, h | ⟨p, hp, h⟩⟩
  · exact .inl ⟨a, ha, hle, .inl h⟩
  · exact .inl ⟨a, ha, hle, .inr ⟨p, hsub hp, h⟩⟩
  · exact .inr ⟨hnone, .inl h⟩
  · exact .inr ⟨hnone, .inr ⟨p, hsub hp, h⟩⟩

theorem Timely.evidence (format : String) (bytes : Bytes) :
    Timely t₀ n (s.evidenceStep () format bytes) := by
  unfold Attestation.evidenceStep
  split
  case h_2 => exact hs
  split
  · exact hs
  rename_i o ho
  split
  case isFalse => exact hs.forget
  refine (hs.setPhase (parsed_ne_closed o format bytes) ?_ ?_).forget
  · intro i hi
    rw [issue_parsed] at hi
    obtain rfl : o.issued = i := Option.some.inj hi
    rcases hs.outstanding o ho with h | h
    · exact .inl h
    · exact .inr (.inl h)
  · rw [proven_parsed]
    nofun

theorem Timely.readKey (ok : Bool) : Timely t₀ n (s.readKeyStep () ok) := by
  unfold Attestation.readKeyStep
  split
  case h_2 => exact hs
  rename_i hph
  cases ok with
  | false => exact hs.setPhase nofun nofun nofun
  | true => exact hs.setPhase nofun (fun i hi => hs.inFlight i (by rw [hph]; exact hi)) nofun

theorem Timely.check : Timely t₀ n (s.checkStep Q ()) := by
  unfold Attestation.checkStep
  split
  case h_2 => exact hs
  rename_i issued nonce q known hph
  dsimp only
  by_cases hv : (verdict Q nonce q known).state = .verified
  · rw [if_pos hv]
    refine (hs.prove (List.subset_cons_self (issued, q) s.proofs)).setPhase nofun ?_ ?_
    · exact fun i hi => hs.inFlight i (by rw [hph]; exact hi)
    intro i hi
    simp only [StreamPhase.proven, hv, if_true] at hi
    obtain rfl : issued = i := Option.some.inj hi
    exact ⟨(issued, q), List.mem_cons_self, rfl⟩
  · rw [if_neg hv]
    refine hs.setPhase nofun ?_ ?_
    · exact fun i hi => hs.inFlight i (by rw [hph]; exact hi)
    intro i hi
    simp only [StreamPhase.proven, hv, if_false] at hi
    cases hi

theorem Timely.record {ok : Bool} (hG : OnTime s (.record () ok)) :
    Timely t₀ n (s.recordStep () ok) := by
  unfold Attestation.recordStep
  split
  case h_2 => exact hs
  rename_i issued r hph
  cases ok with
  | false => exact hs.setPhase nofun nofun nofun
  | true =>
  rw [if_pos rfl]
  have habout : About t₀ n s issued := hs.inFlight issued (by rw [hph]; rfl)
  have hawait : ∀ i ∈ (if s.awaiting = some issued then none else s.awaiting), i ∈ s.awaiting := by
    intro i hi
    split at hi
    · cases hi
    · exact hi
  have hidle : Timely t₀ n (s.setPhase () .idle) := hs.setPhase nofun nofun nofun
  refine { hidle with
    awaiting := fun i hi => hs.awaiting i (hawait i hi)
    inFlight := fun i hi => ?_
    held := fun hv => ?_ }
  · rw [setPhase_self] at hi
    cases hi
  have hproven : issued ∈ (s.phase ()).proven := by
    rw [hph, StreamPhase.proven, if_pos (show r.result = .verified from hv)]
    rfl
  have hin := hG issued hproven
  obtain ⟨p, hp, rfl⟩ := hs.proven issued hproven
  have hsent := hs.sent.2
  have hlt := challenge_ttl_lt
  cases hawaiting : s.awaiting with
  | none =>
    refine .inr ⟨rfl, ?_⟩
    rcases habout with ⟨hn, -⟩ | ⟨-, heq⟩ | ⟨hsome, -⟩
    · exact .inl hn
    · exact .inr ⟨p, hp, heq.ge⟩
    · rw [hawaiting] at hsome
      cases hsome
  | some a =>
    obtain ⟨hn, hlast⟩ := hs.awaiting a hawaiting
    by_cases ha : a = p.1
    · subst ha
      exact .inr ⟨if_pos rfl, .inr ⟨p, hp, hlast.ge⟩⟩
    refine .inl ⟨a, if_neg fun h => ha (Option.some.inj h), ?_⟩
    rcases habout with ⟨rfl, -⟩ | ⟨-, heq⟩ | ⟨-, hle | hle⟩
    · cases hn
    · omega
    · -- a nonce from before the stream: only one challenge can have been sent since
      have hone : n = 1 := by
        by_contra hne
        have : 2 * REATTEST_INTERVAL ≤ n * REATTEST_INTERVAL :=
          Nat.mul_le_mul_right _ (by omega)
        omega
      subst hone
      change s.now ≤ _ ∧ _
      omega
    · omega

theorem Timely.inboundEnds : Timely t₀ n (s.inboundEndsStep ()) := by
  unfold Attestation.inboundEndsStep
  split
  · exact hs.setPhase nofun nofun nofun
  · exact hs

theorem Timely.sweep : Timely t₀ n (s.step Q .sweep) :=
  { hs with outstanding := fun o ho => hs.outstanding o (Option.mem_filter_iff.mp ho).1 }

end

/-! ### Whole runs -/

def StreamInv (s : Attestation Unit) : Prop :=
  Unopened s ∨ (∃ t₀ n, Timely t₀ n s) ∨ Gone s

theorem StreamInv.fresh (hs : StreamInv s) : Fresh s := by
  rcases hs with hs | ⟨t₀, n, hs⟩ | hs
  · intro t ht
    rw [hs.opened] at ht
    cases ht
  · exact hs.fresh
  intro t ht
  rw [hs.opened] at ht
  cases ht

theorem Timely.step (hs : Timely t₀ n s) (e : AttestationEvent Unit)
    (hG : OnTime s e) : StreamInv (s.step Q e) := by
  cases e with
  | tick d => exact .inr (.inl ⟨t₀, n, hs.tick hG⟩)
  | openStream k => exact .inr (.inl ⟨t₀, n, by rw [Attestation.step, hs.openStream]; exact hs⟩)
  | challenge k nonce =>
    obtain ⟨m, hm⟩ := hs.challenge nonce
    exact .inr (.inl ⟨t₀, m, hm⟩)
  | gone k => exact .inr (.inr hs.gone)
  | evidence k format bytes => exact .inr (.inl ⟨t₀, n, hs.evidence format bytes⟩)
  | readKey k ok => exact .inr (.inl ⟨t₀, n, hs.readKey ok⟩)
  | check k => exact .inr (.inl ⟨t₀, n, hs.check⟩)
  | record k ok => exact .inr (.inl ⟨t₀, n, hs.record hG⟩)
  | inboundEnds k => exact .inr (.inl ⟨t₀, n, hs.inboundEnds⟩)
  | sweep => exact .inr (.inl ⟨t₀, n, hs.sweep⟩)

theorem Unopened.openStream (hs : Unopened s) : Timely s.now 0 (s.openStep ()) := by
  unfold Attestation.openStep
  rw [hs.phase]
  have hzero : s.now + 0 * REATTEST_INTERVAL = s.now := by omega
  have hidle : (s.setPhase () .idle).phase () = .idle := setPhase_self ..
  constructor
  case phase => exact fun h => nomatch hidle.symm.trans h
  case opened => exact Function.update_self () (some s.now) s.opened
  case due => rw [hzero]; exact Function.update_self () (some s.now) s.due
  case not_late => exact hzero.ge
  case sent => exact ⟨le_rfl, hzero.le.trans (Nat.le_add_right ..)⟩
  case awaiting => exact fun i hi => nomatch hs.awaiting.symm.trans hi
  case outstanding => exact fun o ho => .inl ⟨rfl, hs.leftover o ho⟩
  case inFlight => exact fun i hi => nomatch (congrArg StreamPhase.issue hidle).symm.trans hi
  case proven => exact fun i hi => nomatch (congrArg StreamPhase.proven hidle).symm.trans hi
  case held => exact fun _ => .inr ⟨hs.awaiting, .inl rfl⟩

theorem Unopened.step (hs : Unopened s) (e : AttestationEvent Unit) : StreamInv (s.step Q e) := by
  cases e with
  | tick d =>
    exact .inl { hs with leftover := fun o ho => Nat.le_add_right_of_le (hs.leftover o ho) }
  | openStream k => exact .inr (.inl ⟨s.now, 0, hs.openStream⟩)
  | challenge k nonce => left; simpa only [Attestation.step, challengeStep, hs.due] using hs
  | gone k => left; simpa only [Attestation.step, goneStep, hs.due] using hs
  | evidence k format bytes => left; simpa only [Attestation.step, evidenceStep, hs.phase] using hs
  | readKey k ok => left; simpa only [Attestation.step, readKeyStep, hs.phase] using hs
  | check k => left; simpa only [Attestation.step, checkStep, hs.phase] using hs
  | record k ok => left; simpa only [Attestation.step, recordStep, hs.phase] using hs
  | inboundEnds k => left; simpa only [Attestation.step, inboundEndsStep, hs.phase] using hs
  | sweep =>
    exact .inl { hs with leftover := fun o ho => hs.leftover o (Option.mem_filter_iff.mp ho).1 }

theorem Gone.setPhase (hs : Gone s) {ph : StreamPhase} (hclosed : ph ≠ .closed) :
    Gone (s.setPhase () ph) :=
  { hs with phase := by rwa [setPhase_self] }

theorem Gone.step (hs : Gone s) (e : AttestationEvent Unit) : Gone (s.step Q e) := by
  cases e with
  | tick | sweep => exact ⟨hs.phase, hs.due, hs.opened⟩
  | openStream k =>
    simp only [Attestation.step, openStep]
    split
    · exact absurd ‹_› hs.phase
    · exact hs
  | challenge k nonce => simpa only [Attestation.step, challengeStep, hs.due] using hs
  | gone k => simpa only [Attestation.step, goneStep, hs.due] using hs
  | evidence k format bytes =>
    simp only [Attestation.step, evidenceStep]
    split
    case h_2 => exact hs
    split
    · exact hs
    rename_i o _
    split
    · have := hs.setPhase (parsed_ne_closed o format bytes)
      exact ⟨this.phase, this.due, this.opened⟩
    · exact ⟨hs.phase, hs.due, hs.opened⟩
  | readKey k ok =>
    simp only [Attestation.step, readKeyStep]
    split
    · refine hs.setPhase ?_
      split <;> simp
    · exact hs
  | check k =>
    simp only [Attestation.step, checkStep]
    split
    · refine ⟨?_, hs.due, hs.opened⟩
      change (s.setPhase () _).phase () ≠ _
      rw [setPhase_self]
      simp
    · exact hs
  | record k ok =>
    simp only [Attestation.step, recordStep]
    split
    case h_2 => exact hs
    split
    · have hidle : Gone (s.setPhase () .idle) := hs.setPhase (by simp)
      exact ⟨hidle.phase, hidle.due, hidle.opened⟩
    · exact hs.setPhase (by simp)
  | inboundEnds k =>
    simp only [Attestation.step, inboundEndsStep]
    split
    · exact hs.setPhase (by simp)
    · exact hs

theorem StreamInv.step (hs : StreamInv s) (e : AttestationEvent Unit) (hG : OnTime s e) :
    StreamInv (s.step Q e) := by
  rcases hs with hs | ⟨t₀, n, hs⟩ | hs
  · exact hs.step e
  · exact hs.step e hG
  · exact .inr (.inr (hs.step e))

theorem StreamInv.start (now : ℕ) (row : AttestationRow) (leftover : Option (Bytes × ℕ)) :
    StreamInv (start now row leftover) := by
  refine .inl ⟨rfl, rfl, rfl, rfl, ?_⟩
  rintro o ho
  obtain ⟨⟨nonce, age⟩, -, rfl⟩ := Option.map_eq_some_iff.mp ho
  exact Nat.sub_le now age

/-- In every run of one stream in which everything is on time, a device whose stream has been open
for long is `verified` only by a recent quote. -/
theorem attestation_fresh (Q : QuoteImpl) (now : ℕ) (row : AttestationRow)
    (leftover : Option (Bytes × ℕ)) (events : List (AttestationEvent Unit))
    (hG : Guarded (step Q) OnTime (start now row leftover) events) :
    Fresh (run (step Q) (start now row leftover) events) :=
  (hG.invariant (fun _ e hs hGe => hs.step e hGe) (StreamInv.start now row leftover)).fresh

end Attestation

def answersTwice : List (AttestationEvent Unit) :=
  answered () 1 5 ++ judged () ++ [.tick REATTEST_INTERVAL, .challenge () [6],
    .tick CHALLENGE_TTL, .evidence () "tpm2-quote" (evidenceOf 1 6)] ++ judged () ++ [.tick SECOND]

theorem attestation_fresh_answersTwice :
    (run (Attestation.step clearQuotes) (.start 0 unattested none) answersTwice).row.state =
      .verified ∧
    ∃ p ∈ (run (Attestation.step clearQuotes) (.start 0 unattested none) answersTwice).proofs,
      (run (Attestation.step clearQuotes) (.start 0 unattested none) answersTwice).now ≤
        p.1 + (REATTEST_INTERVAL + CHALLENGE_TTL) := by
  have hverified : (run (Attestation.step clearQuotes) (.start 0 unattested none)
      answersTwice).row.state = .verified := by
    decide +kernel
  refine ⟨hverified, Attestation.attestation_fresh clearQuotes 0 unattested none answersTwice
    (by decide +kernel) 0 (by decide +kernel) (by decide +kernel) hverified⟩

def fallsSilent : List (AttestationEvent Unit) :=
  answered () 1 5 ++ judged () ++ [.tick REATTEST_INTERVAL, .challenge () [6],
    .tick REATTEST_INTERVAL, .challenge () [7], .sweep]

/-- It stays `verified`. -/
theorem fallsSilent_not_fresh :
    ¬ Attestation.Fresh (run (Attestation.step clearQuotes) (.start 0 unattested none)
      fallsSilent) := by
  intro hfresh
  obtain ⟨p, hp, hle⟩ := hfresh 0 (by decide +kernel) (by decide +kernel) (by decide +kernel)
  revert p
  decide +kernel

end Avon.Control
