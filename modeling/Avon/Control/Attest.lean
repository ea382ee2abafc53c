import Avon.Attest.Quote
import Avon.Lib.Run

/-!
# Challenges, evidence and the record of a device

`attest.rs`, and what the pulse streams of one device make of it. `ι` is the type of streams. Each
read and each write of the database is a step. Times are in nanoseconds. The code keeps neither
`opened`, `awaiting` and `proofs` nor the time at which a nonce that was taken had been issued.
-/

set_option autoImplicit false

namespace Avon.Control

open Avon.Attest Avon.Crypto
open Function (update)

def SECOND : ℕ := 1000000000

def CHALLENGE_TTL : ℕ := 120 * SECOND

def REATTEST_INTERVAL : ℕ := 900 * SECOND

structure Outstanding where
  nonce : Bytes
  issued : ℕ
  deriving DecidableEq

def Outstanding.fresh (o : Outstanding) (now : ℕ) : Bool := now - o.issued ≤ CHALLENGE_TTL

structure AttestationRow where
  state : AttestationState
  reason : Option String
  checkedAtUnix : Option ℕ
  pcrDigest : Option Bytes
  akSha256 : Option Bytes
  resetCount : Option ℕ
  firmwareVersion : Option ℕ
  akPublic : Option Bytes

structure AttestationRecord where
  result : AttestationState
  reason : String
  detail : Option (Verified × Bytes)

/-- The key a record pins: only that of a quote that verified. -/
def AttestationRecord.pins (r : AttestationRecord) : Option Bytes :=
  r.detail.bind fun d => if d.1.state = .verified then some d.2 else none

/-- The statement of `record`, which overwrites the fields that the new object has. -/
def AttestationRow.record (row : AttestationRow) (now : ℕ) (r : AttestationRecord) :
    AttestationRow where
  state := r.result
  reason := some r.reason
  checkedAtUnix := some (now / SECOND)
  pcrDigest := (r.detail.map (·.1.pcrDigest)).or row.pcrDigest
  akSha256 := (r.detail.map (·.1.akSha256)).or row.akSha256
  resetCount := (r.detail.map (·.1.resetCount)).or row.resetCount
  firmwareVersion := (r.detail.map (·.1.firmwareVersion)).or row.firmwareVersion
  akPublic := r.pins.or row.akPublic

inductive StreamPhase where
  | closed
  | idle
  | reading (issued : ℕ) (nonce : Bytes) (q : Quote)
  | verifying (issued : ℕ) (nonce : Bytes) (q : Quote) (known : Option Bytes)
  | recording (issued : ℕ) (r : AttestationRecord)
  | ended

structure Attestation (ι : Type) where
  now : ℕ
  challenge : Option Outstanding
  row : AttestationRow
  due : ι → Option ℕ
  phase : ι → StreamPhase
  opened : ι → Option ℕ
  awaiting : Option ℕ
  proofs : List (ℕ × Quote)

inductive AttestationEvent (ι : Type) where
  | tick (d : ℕ)
  | openStream (k : ι)
  | challenge (k : ι) (nonce : Bytes)
  | gone (k : ι)
  | evidence (k : ι) (format : String) (bytes : Bytes)
  | readKey (k : ι) (ok : Bool)
  | check (k : ι)
  | record (k : ι) (ok : Bool)
  | inboundEnds (k : ι)
  | sweep

namespace Attestation

variable {ι : Type} [DecidableEq ι]

/-- The device before any stream is open. The row may be anything, and a nonce of some age may be
left from a stream that is gone. -/
def start (now : ℕ) (row : AttestationRow) (leftover : Option (Bytes × ℕ)) : Attestation ι where
  now := now
  challenge := leftover.map fun (nonce, age) => ⟨nonce, now - age⟩
  row := row
  due _ := none
  phase _ := .closed
  opened _ := none
  awaiting := none
  proofs := []

variable (s : Attestation ι) (k : ι)

def setPhase (p : StreamPhase) : Attestation ι :=
  { s with phase := update s.phase k p }

def openStep : Attestation ι :=
  match s.phase k with
  | .closed => { s.setPhase k .idle with
      due := update s.due k (some s.now)
      opened := update s.opened k (some s.now) }
  | _ => s

/-- `Challenges::issue`, when the ticker is due. It replaces an earlier challenge. -/
def challengeStep (nonce : Bytes) : Attestation ι :=
  match s.due k with
  | none => s
  | some t =>
    if t ≤ s.now then
      { s with
          challenge := some ⟨nonce, s.now⟩
          due := update s.due k (some (t + REATTEST_INTERVAL))
          awaiting := some s.now }
    else s

def goneStep : Attestation ι :=
  match s.due k with
  | none => s
  | some _ => { s with
      challenge := none
      due := update s.due k none
      opened := update s.opened k none }

/-- What becomes of evidence for a nonce, up to the first wait. -/
def parsed (o : Outstanding) (format : String) (bytes : Bytes) : StreamPhase :=
  match parse format bytes with
  | .error e => .recording o.issued ⟨.failed, e.text, none⟩
  | .ok .none => .recording o.issued ⟨.none, "device has no attestation hardware", none⟩
  | .ok (.tpm2Quote q) => .reading o.issued o.nonce q

/-- `handle_evidence` up to the first wait: `Challenges::take`, then the parser. Without an
answerable challenge nothing is recorded. -/
def evidenceStep (format : String) (bytes : Bytes) : Attestation ι :=
  match s.phase k with
  | .idle =>
    match s.challenge with
    | none => s
    | some o =>
      if o.fresh s.now then { s.setPhase k (parsed o format bytes) with challenge := none }
      else { s with challenge := none }
  | _ => s

def readKeyStep (ok : Bool) : Attestation ι :=
  match s.phase k with
  | .reading issued nonce q =>
    s.setPhase k (if ok then .verifying issued nonce q s.row.akPublic else .ended)
  | _ => s

def verdict (Q : QuoteImpl) (nonce : Bytes) (q : Quote) (known : Option Bytes) : Verified :=
  verify Q (.tpm2Quote q) nonce known .default

def checkStep (Q : QuoteImpl) (s : Attestation ι) (k : ι) : Attestation ι :=
  match s.phase k with
  | .verifying issued nonce q known =>
    let v := verdict Q nonce q known
    { s.setPhase k (.recording issued ⟨v.state, v.reason, some (v, q.akPublic)⟩) with
        proofs := if v.state = .verified then (issued, q) :: s.proofs else s.proofs }
  | _ => s

/-- The statement of `record`. If it fails, the stream ends. -/
def recordStep (ok : Bool) : Attestation ι :=
  match s.phase k with
  | .recording issued r =>
    if ok then
      { s.setPhase k .idle with
          row := s.row.record s.now r
          awaiting := if s.awaiting = some issued then none else s.awaiting }
    else s.setPhase k .ended
  | _ => s

def inboundEndsStep : Attestation ι :=
  match s.phase k with
  | .idle => s.setPhase k .ended
  | _ => s

def step (Q : QuoteImpl) (s : Attestation ι) : AttestationEvent ι → Attestation ι
  | .tick d => { s with now := s.now + d }
  | .openStream k => s.openStep k
  | .challenge k nonce => s.challengeStep k nonce
  | .gone k => s.goneStep k
  | .evidence k format bytes => s.evidenceStep k format bytes
  | .readKey k ok => s.readKeyStep k ok
  | .check k => s.checkStep Q k
  | .record k ok => s.recordStep k ok
  | .inboundEnds k => s.inboundEndsStep k
  | .sweep => { s with challenge := s.challenge.filter fun o => o.fresh s.now }

end Attestation

end Avon.Control
