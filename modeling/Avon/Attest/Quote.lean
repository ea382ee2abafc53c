import Avon.Keystore.Binding

/-!
# Evidence, quotes and their verification

The model of `avon-attest`: the evidence that a device sends (`evidence.rs`), the TPM structure
inside it (`tpms.rs`), and the check against a nonce and a known key (`verify.rs`). A reader is a
position in a buffer, as in the source.

ECDSA on P-256 and SHA-256 are a parameter.
-/

set_option autoImplicit false

namespace Avon.Attest

open Avon.Crypto Avon.Keystore Avon.Lib.BigEndian

inductive AttestError where
  | encoding (what : String)
  | unknownFormat (name : String)
  | malformed (what : String)
  deriving DecidableEq, Repr

def AttestError.text : AttestError → String
  | .encoding what => "encoding: " ++ what
  | .unknownFormat name => "unknown format " ++ name
  | .malformed what => "malformed: " ++ what

structure Quote where
  quote : Bytes
  signature : Bytes
  akPublic : Bytes
  pcrs : List (ℕ × Bytes)
  nonce : Bytes
  deriving DecidableEq

inductive Evidence where
  | tpm2Quote (q : Quote)
  | none
  deriving DecidableEq

/-- A reader of a buffer. The state is the position in it. -/
abbrev Cursor := StateT ℕ (Except AttestError)

namespace Cursor

def bytes (buf : Bytes) (n : ℕ) (e : ℕ → AttestError) : Cursor Bytes := fun pos =>
  if pos + n > buf.length then .error (e pos) else .ok ((buf.drop pos).take n, pos + n)

def number (buf : Bytes) (w : ℕ) (e : ℕ → AttestError) : Cursor ℕ := do
  return ofBe (← bytes buf w e)

def times {m : Type → Type} [Monad m] {α : Type} (r : m α) : ℕ → m (List α)
  | 0 => return []
  | n + 1 => do
    let a ← r
    return a :: (← times r n)

end Cursor

/-! ### Evidence -/

def field (buf : Bytes) : Cursor Bytes := do
  let len ← Cursor.number buf 2 fun _ => .encoding "truncated evidence"
  Cursor.bytes buf len fun _ => .encoding "truncated evidence"

/-- One PCR: its index, and its value behind the length. The six bytes before the value are
checked together. -/
def pcr (buf : Bytes) : Cursor (ℕ × Bytes) := do
  let head ← Cursor.bytes buf 6 fun _ => .encoding "truncated pcr"
  let value ← Cursor.bytes buf (ofBe (head.drop 4)) fun _ => .encoding "truncated pcr value"
  return (ofBe (head.take 4), value)

def readQuote (buf : Bytes) : Cursor Quote := do
  let quote ← field buf
  let signature ← field buf
  let akPublic ← field buf
  let count ← Cursor.number buf 2 fun _ => .encoding "truncated pcrs"
  let pcrs ← Cursor.times (pcr buf) count
  let nonce ← field buf
  return ⟨quote, signature, akPublic, pcrs, nonce⟩

def parse (format : String) (bytes : Bytes) : Except AttestError Evidence :=
  if format = "tpm2-quote" then
    match (readQuote bytes).run 0 with
    | .error e => .error e
    | .ok (q, pos) =>
      if pos ≠ bytes.length then .error (.encoding "trailing bytes") else .ok (.tpm2Quote q)
  else if format = "none" then .ok .none
  else .error (.unknownFormat format)

/-! ### The reads of `parse` -/

/-- How `parse` can end without evidence: by an error that it returns, or by a panic at an access of
`len` bytes at `pos` that are not all in the input. -/
inductive Stop where
  | error (e : AttestError)
  | outside (pos len : ℕ)
  deriving DecidableEq

/-- `parse` with its checks of a length and its accesses as separate steps. -/
abbrev Access := StateT ℕ (Except Stop)

namespace Access

def check (buf : Bytes) (n : ℕ) (e : AttestError) : Access Unit := fun pos =>
  if pos + n > buf.length then .error (.error e) else .ok ((), pos)

/-- `b[pos..pos + n]`, which panics outside of `b`. -/
def slice (buf : Bytes) (n : ℕ) : Access Bytes := fun pos =>
  if pos + n ≤ buf.length then .ok ((buf.drop pos).take n, pos + n) else .error (.outside pos n)

def field (buf : Bytes) : Access Bytes := do
  check buf 2 (.encoding "truncated evidence")
  let len := ofBe (← slice buf 2)
  check buf len (.encoding "truncated evidence")
  slice buf len

def pcr (buf : Bytes) : Access (ℕ × Bytes) := do
  check buf 6 (.encoding "truncated pcr")
  let index := ofBe (← slice buf 4)
  let len := ofBe (← slice buf 2)
  check buf len (.encoding "truncated pcr value")
  return (index, ← slice buf len)

def readQuote (buf : Bytes) : Access Quote := do
  let quote ← field buf
  let signature ← field buf
  let akPublic ← field buf
  check buf 2 (.encoding "truncated pcrs")
  let count := ofBe (← slice buf 2)
  let pcrs ← Cursor.times (pcr buf) count
  let nonce ← field buf
  return ⟨quote, signature, akPublic, pcrs, nonce⟩

end Access

/-- `parse` with a panic in place of a read outside of the input. -/
def parseReads (format : String) (bytes : Bytes) : Except Stop Evidence :=
  if format = "tpm2-quote" then
    match (Access.readQuote bytes).run 0 with
    | .error e => .error e
    | .ok (q, pos) =>
      if pos ≠ bytes.length then .error (.error (.encoding "trailing bytes"))
      else .ok (.tpm2Quote q)
  else if format = "none" then .ok .none
  else .error (.error (.unknownFormat format))

def encodeField (b : Bytes) : Bytes := beBytes 2 b.length ++ b

def encodePcr (p : ℕ × Bytes) : Bytes := beBytes 4 p.1 ++ encodeField p.2

def encode : Evidence → String × Bytes
  | .tpm2Quote q =>
    ("tpm2-quote", encodeField q.quote ++ encodeField q.signature ++ encodeField q.akPublic ++
      beBytes 2 q.pcrs.length ++ (q.pcrs.map encodePcr).flatten ++ encodeField q.nonce)
  | .none => ("none", [])

/-! ### The TPM structure -/

def TPM_GENERATED_VALUE : ℕ := 0xFF544347
def TPM_ST_ATTEST_QUOTE : ℕ := 0x8018
def TPM_ALG_SHA256 : ℕ := 0x000B

structure ClockInfo where
  clockMs : ℕ
  resetCount : ℕ
  restartCount : ℕ
  safe : Bool
  deriving DecidableEq, Repr

structure QuoteAttest where
  qualifiedSigner : Bytes
  extraData : Bytes
  clock : ClockInfo
  firmwareVersion : ℕ
  selectedPcrs : List ℕ
  pcrDigest : Bytes
  deriving DecidableEq

/-- Hexadecimal with `0x` and at least the given number of digits. -/
def hexText (digits n : ℕ) : String :=
  let text := Nat.toDigits 16 n
  "0x" ++ String.ofList (List.replicate (digits - text.length) '0' ++ text)

variable (buf : Bytes)

def take (n : ℕ) : Cursor Bytes :=
  Cursor.bytes buf n fun pos =>
    .malformed ("truncated at " ++ toString pos ++ " (wanted " ++ toString n ++ ")")

def uint (w : ℕ) : Cursor ℕ := do return ofBe (← take buf w)

/-- A `TPM2B`: a size in two bytes, and that many bytes. -/
def tpm2b : Cursor Bytes := do take buf (← uint buf 2)

def bits (bitmap : Bytes) : List ℕ :=
  (List.range (8 * bitmap.length)).filter fun i => ((bitmap.getD (i / 8) 0).toNat).testBit (i % 8)

/-- One PCR selection. A selection in another bank than SHA-256 is read and ignored. -/
def selection : Cursor (List ℕ) := do
  let alg ← uint buf 2
  let size ← uint buf 1
  if size > 8 then throw (.malformed "pcr selection too wide")
  let bitmap ← take buf size
  return if alg ≠ TPM_ALG_SHA256 then [] else bits bitmap

def readAttest : Cursor QuoteAttest := do
  let magic ← uint buf 4
  if magic ≠ TPM_GENERATED_VALUE then
    throw (.malformed ("magic " ++ hexText 8 magic ++ " is not TPM_GENERATED_VALUE"))
  let attestType ← uint buf 2
  if attestType ≠ TPM_ST_ATTEST_QUOTE then
    throw (.malformed ("attest type " ++ hexText 4 attestType ++ " is not a quote"))
  let qualifiedSigner ← tpm2b buf
  let extraData ← tpm2b buf
  let clockMs ← uint buf 8
  let resetCount ← uint buf 4
  let restartCount ← uint buf 4
  let safe ← uint buf 1
  let firmwareVersion ← uint buf 8
  let count ← uint buf 4
  if count > 8 then
    throw (.malformed (toString count ++ " PCR selections is not plausible"))
  let selected ← Cursor.times (selection buf) count
  let pcrDigest ← tpm2b buf
  if pcrDigest.length ≠ 32 then
    throw (.malformed ("pcr digest is " ++ toString pcrDigest.length ++
      " bytes, expected a SHA-256"))
  return { qualifiedSigner, extraData, clock := ⟨clockMs, resetCount, restartCount, safe ≠ 0⟩,
           firmwareVersion, selectedPcrs := selected.flatten.insertionSort (· ≤ ·), pcrDigest }

/-- `parse_quote`. Bytes behind the structure are not looked at. -/
def parseQuote (buf : Bytes) : Except AttestError QuoteAttest := Prod.fst <$> (readAttest buf).run 0

def selectionWidth (pcrs : List ℕ) : ℕ := max ((pcrs.map fun p => p / 8 + 1).max?.getD 3) 3

def bitmap (width : ℕ) (pcrs : List ℕ) : Bytes :=
  pcrs.foldl (fun b p => b.modify (p / 8) (· ||| 1 <<< UInt8.ofNat (p % 8)))
    (List.replicate width 0)

/-- `encode_quote`: the PCRs are one selection, of the SHA-256 bank. -/
def encodeQuote (q : QuoteAttest) : Bytes :=
  let width := selectionWidth q.selectedPcrs
  beBytes 4 TPM_GENERATED_VALUE ++ beBytes 2 TPM_ST_ATTEST_QUOTE ++
    encodeField q.qualifiedSigner ++ encodeField q.extraData ++ beBytes 8 q.clock.clockMs ++
    beBytes 4 q.clock.resetCount ++ beBytes 4 q.clock.restartCount ++
    beBytes 1 q.clock.safe.toNat ++ beBytes 8 q.firmwareVersion ++ beBytes 4 1 ++
    beBytes 2 TPM_ALG_SHA256 ++ beBytes 1 width ++ bitmap width q.selectedPcrs ++
    encodeField q.pcrDigest

/-! ### Verification -/

inductive AttestationState where
  | none
  | unverified
  | verified
  | failed
  deriving DecidableEq, Repr

structure QuotePolicy where
  requiredPcrs : List ℕ
  allowUnknownAk : Bool
  requireSafeClock : Bool

def QuotePolicy.default : QuotePolicy := ⟨[0, 7], true, true⟩

structure QuoteImpl where
  ecdsa : Scheme
  sha256 : Bytes → Bytes

structure Verified where
  state : AttestationState
  pcrDigest : Bytes
  akSha256 : Bytes
  resetCount : ℕ
  firmwareVersion : ℕ
  reason : String
  deriving DecidableEq

def zeroDigest : Bytes := List.replicate 32 0

def Verified.failed (akSha256 pcrDigest : Bytes) (reason : String) : Verified :=
  ⟨.failed, pcrDigest, akSha256, 0, 0, reason⟩

/-- The values of the selected PCRs, in the order of the selection. The error is the index of a
PCR whose value was not sent. -/
def pcrValues (pcrs : List (ℕ × Bytes)) : List ℕ → Except ℕ Bytes
  | [] => .ok []
  | index :: rest =>
    match pcrs.find? fun p => p.1 = index with
    | Option.none => .error index
    | some (_, value) => (value ++ ·) <$> pcrValues pcrs rest

/-- What is wrong with a quote apart from its key, as a reason. -/
def quoteFault (Q : QuoteImpl) (q : Quote) (attest : QuoteAttest) (expectedNonce : Bytes)
    (policy : QuotePolicy) : Option String :=
  if attest.extraData ≠ expectedNonce then some "nonce mismatch"
  else if policy.requireSafeClock && !attest.clock.safe then some "TPM clock is not safe"
  else match policy.requiredPcrs.find? fun r => r ∉ attest.selectedPcrs with
    | some r => some ("pcr " ++ toString r ++ " not quoted")
    | Option.none =>
      match pcrValues q.pcrs attest.selectedPcrs with
      | .error index =>
        some ("pcr " ++ toString index ++ " was quoted but its value was not sent")
      | .ok values =>
        if Q.sha256 values ≠ attest.pcrDigest then some "pcr digest mismatch"
        else match Q.ecdsa.keyFromDer q.akPublic with
          | Option.none => some "ak public key invalid"
          | some key =>
            match Q.ecdsa.signatureFromBytes q.signature with
            | Option.none => some "signature malformed"
            | some sig =>
              if Q.ecdsa.verify key q.quote sig then Option.none
              else some "signature invalid"

def keyVerdict (akPublic : Bytes) (knownAk : Option Bytes) (policy : QuotePolicy) :
    Except String String :=
  match knownAk with
  | some expected =>
    if expected = akPublic then .ok "quote verified"
    else .error "attestation key does not match the one this device enrolled with"
  | Option.none =>
    if policy.allowUnknownAk then .ok "quote verified; attestation key trusted on first use"
    else .error "attestation key is not known"

def verify (Q : QuoteImpl) (ev : Evidence) (expectedNonce : Bytes) (knownAk : Option Bytes)
    (policy : QuotePolicy) : Verified :=
  match ev with
  | .none => ⟨.none, zeroDigest, zeroDigest, 0, 0, "no evidence"⟩
  | .tpm2Quote q =>
    let akSha256 := Q.sha256 q.akPublic
    match parseQuote q.quote with
    | .error e => .failed akSha256 zeroDigest e.text
    | .ok attest =>
      match quoteFault Q q attest expectedNonce policy with
      | some reason => .failed akSha256 attest.pcrDigest reason
      | Option.none =>
        match keyVerdict q.akPublic knownAk policy with
        | .error reason => .failed akSha256 attest.pcrDigest reason
        | .ok reason => ⟨.verified, attest.pcrDigest, akSha256, attest.clock.resetCount,
            attest.firmwareVersion, reason⟩

end Avon.Attest
