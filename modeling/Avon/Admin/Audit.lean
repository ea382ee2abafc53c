import Avon.Crypto.Cert
import Avon.Lib.HashChain
import Avon.Lib.JsonText
import Avon.Lib.Run
import Avon.Proto

/-!
# The hash-chained activity log

`audit.py` over the table `activity_logs`. `log_event` is two statements, and calls run side by
side. `verify_chain` gives `none` where it raises. A row is what PostgreSQL keeps: a JSONB number is
an exact decimal, so a float with an exponent and no fraction comes back as an integer. The rows
stand in the order of their `id`.
-/

set_option autoImplicit false

namespace Avon.Admin.Audit

open Avon.Crypto Avon.Lib.JsonText

/-- What the log takes from libraries. A time is in microseconds. -/
structure Env where
  sha256 : Bytes → Key
  isoformat : ℤ → String
  floatRepr : String → String
  /-- The normal form of an address, `none` for what is no address. -/
  inet : String → Option String
  isoformat_injective : Function.Injective isoformat
  isFloatText_floatRepr : ∀ text, isFloatText (floatRepr text).toList = true

structure ActivityRow where
  tenantId : TenantId
  eventType : String
  actorId : Option Uuid
  actorType : String
  targetId : Option Uuid
  targetType : Option String
  details : Option Json
  ipAddress : Option String
  requestId : Option String
  prevHash : Option Bytes
  hash : Bytes
  createdAt : ℤ

def genesis : Bytes := List.replicate 32 0

def optionalId (id : Option Uuid) : Json := (id.map fun i => .string (Proto.uuidText i)).getD .null

def optionalText (text : Option String) : Json := (text.map Json.string).getD .null

def payload (E : Env) (tenantId : TenantId) (event : String) (actor : Option Uuid)
    (actorType : String) (target : Option Uuid) (details : Json) (ip requestId : Option String)
    (createdAt : ℤ) : Json :=
  .object
    [("tenant_id", .string (Proto.uuidText tenantId)),
     ("event", .string event),
     ("actor", optionalId actor),
     ("actor_type", .string actorType),
     ("target", optionalId target),
     ("details", details),
     ("ip", optionalText ip),
     ("request_id", optionalText requestId),
     ("created_at", .string (E.isoformat createdAt))]

def canonical (payload : Json) : Bytes := utf8 (String.ofList (print (sortKeys payload)))

def rowHash (E : Env) (prevHash : Bytes) (payload : Json) : Bytes :=
  (E.sha256 (prevHash ++ canonical payload)).bytes

/-! ### Numbers, JSONB and Python -/

/-- The largest number of digits that Python converts between a text and an `int`. -/
def intMaxStrDigits : ℕ := 4300

/-- Python can write, or read, the integers of the value. -/
def intsShort (j : Json) : Bool :=
  (scalars j).all fun
    | .int n => n.natAbs < 10 ^ intMaxStrDigits
    | _ => true

def hasNul (s : String) : Bool := s.toList.contains '\x00'

def exponent (cs : List Char) : ℤ :=
  match (cs.dropWhile (· ≠ 'e')).drop 1 with
  | '-' :: digits => -(Nat.ofDigitChars 10 digits 0 : ℤ)
  | '+' :: digits => Nat.ofDigitChars 10 digits 0
  | digits => Nat.ofDigitChars 10 digits 0

/-- A float as JSONB. `coefficient * 10 ^ (-scale)` is its absolute value. -/
def numeric (text : String) : Json :=
  let cs := text.toList
  let negative := cs.head? = some '-'
  let body := if negative then cs.drop 1 else cs
  let mantissa := body.takeWhile (· ≠ 'e')
  let whole := mantissa.takeWhile (· ≠ '.')
  let fraction := (mantissa.dropWhile (· ≠ '.')).drop 1
  let coefficient := Nat.ofDigitChars 10 (whole ++ fraction) 0
  let scale := fraction.length - exponent body
  if scale ≤ 0 then
    let n : ℤ := coefficient * 10 ^ scale.natAbs
    .int (if negative then -n else n)
  else
    let s := scale.natAbs
    let digits := Nat.toDigits 10 (coefficient % 10 ^ s)
    .float (String.ofList ((if negative ∧ coefficient ≠ 0 then ['-'] else []) ++
      Nat.toDigits 10 (coefficient / 10 ^ s) ++
      '.' :: (List.replicate (s - digits.length) '0' ++ digits)))

/-- What PostgreSQL refuses in JSONB: the NUL character, infinities and NaN. -/
def jsonbRefuses : Json → Bool
  | .string s => hasNul s
  | .float text => text.toList.any fun c => c = 'I' || c = 'N'
  | _ => false

def jsonb (j : Json) : Option Json :=
  if (scalars j).any jsonbRefuses then none else some (mapFloats numeric j)

/-- The details as `verify_chain` reads them: nothing and what `json.loads` does not read are an
empty object. -/
def parsedDetails (E : Env) : Option Json → Json
  | none => .object []
  | some j => if intsShort j then mapFloats (fun text => .float
    (E.floatRepr text)) j else .object []

/-! ### `verify_chain` -/

def rowPayload (E : Env) (tenantId : TenantId) (row : ActivityRow) : Json :=
  payload E tenantId row.eventType row.actorId row.actorType row.targetId
    (parsedDetails E row.details) row.ipAddress row.requestId row.createdAt

def verifyRows (E : Env) (tenantId : TenantId) : Bytes → List ActivityRow → Option Bool
  | _, [] => some true
  | expectedPrev, row :: rows =>
    match row.prevHash with
    | none => none
    | some prevHash =>
      if prevHash ≠ expectedPrev ∨
          row.hash ≠ rowHash E expectedPrev (rowPayload E tenantId row) then some false
      else verifyRows E tenantId row.hash rows

def fetch (tenantId : TenantId) (table : List ActivityRow) : List ActivityRow :=
  table.filter fun row => row.tenantId = tenantId

def verifyChain (E : Env) (tenantId : TenantId) (table : List ActivityRow) : Option (Bool × ℕ) :=
  let rows := fetch tenantId table
  (verifyRows E tenantId genesis rows).map fun intact => (intact, rows.length)

/-! ### `log_event` -/

/-- The parts of a `Request` that are read: `client.host` and the header `x-request-id`. -/
structure Request where
  client : Option String
  requestId : Option String

structure RequestContext where
  ip : Option String
  requestId : String

/-- The arguments of `log_event`, and `current_request()`. -/
structure LogCall where
  tenantId : TenantId
  actor : Option Uuid
  event : String
  target : Option Uuid
  targetType : Option String
  details : Option (List (String × Json))
  request : Option Request
  actorType : String
  ip : Option String
  requestId : Option String
  context : Option RequestContext

namespace LogCall

def resolvedIp (c : LogCall) : Option String :=
  match c.ip with
  | some ip => some ip
  | none =>
    match c.request.bind Request.client with
    | some host => some host
    | none => c.context.bind RequestContext.ip

def missing (requestId : Option String) : Bool := requestId = none || requestId = some ""

def resolvedRequestId (E : Env) (c : LogCall) (createdAt : ℤ) : Option String :=
  let given := c.requestId.or (c.request.bind Request.requestId)
  let requestId := match c.context with
    | some context => if missing given then some context.requestId else given
    | none => given
  if missing requestId then
    let digest := E.sha256 (utf8 (Proto.uuidText c.tenantId ++ c.event ++ E.isoformat createdAt))
    some (String.ofList ((Lib.Hex.encode digest.bytes).take 16))
  else requestId

def resolvedDetails (c : LogCall) : Json := .object (c.details.getD [])

def payload (E : Env) (c : LogCall) (createdAt : ℤ) : Json :=
  Audit.payload E c.tenantId c.event c.actor c.actorType c.target c.resolvedDetails c.resolvedIp
    (c.resolvedRequestId E createdAt) createdAt

def actorTypes : List String := ["user", "device", "service", "system"]

/-- The texts of the row. PostgreSQL keeps no NUL character. -/
def texts (E : Env) (c : LogCall) (createdAt : ℤ) : List String :=
  c.event :: c.actorType :: (c.targetType.toList ++ (c.resolvedRequestId E createdAt).toList)

def inetColumn (E : Env) : Option String → Option (Option String)
  | none => some none
  | some ip => (E.inet ip).map some

/-- The row that `log_event` inserts, `none` if it raises. -/
def row (E : Env) (c : LogCall) (prevHash : Bytes) (createdAt : ℤ) : Option ActivityRow := do
  guard (intsShort c.resolvedDetails)
  guard (actorTypes.contains c.actorType)
  guard !(c.texts E createdAt).any hasNul
  let details ← jsonb c.resolvedDetails
  let ipAddress ← inetColumn E c.resolvedIp
  return {
    tenantId := c.tenantId
    eventType := c.event
    actorId := c.actor
    actorType := c.actorType
    targetId := c.target
    targetType := c.targetType
    details := some details
    ipAddress
    requestId := c.resolvedRequestId E createdAt
    prevHash := some prevHash
    hash := rowHash E prevHash (c.payload E createdAt)
    createdAt }

end LogCall

/-- `bytes(prev) if prev else GENESIS`, for the last row of the tenant. -/
def lastHash (tenantId : TenantId) (table : List ActivityRow) : Bytes :=
  match (fetch tenantId table).getLast? with
  | none => genesis
  | some row => if row.hash = [] then genesis else row.hash

structure Writer where
  call : LogCall
  prevHash : Bytes
  createdAt : ℤ

/-- The table, and the calls of `log_event` that have read the last hash. -/
structure Writers where
  table : List ActivityRow
  pending : List Writer

inductive WriterEvent where
  | read (call : LogCall) (now : ℤ)
  /-- The call at this position inserts its row, unless the statement fails. -/
  | insert (position : ℕ) (fails : Bool)

namespace Writers

def start : Writers := ⟨[], []⟩

def step (E : Env) (s : Writers) : WriterEvent → Writers
  | .read call now =>
    { s with pending := s.pending ++ [⟨call, lastHash call.tenantId s.table, now⟩] }
  | .insert n fails =>
    match s.pending[n]? with
    | none => s
    | some w =>
      { table := s.table ++ (if fails then none else w.call.row E w.prevHash w.createdAt).toList
        pending := s.pending.eraseIdx n }

/-- Details and address come back from the database as they were hashed. -/
def readsBack (E : Env) (c : LogCall) : Bool :=
  ((jsonb c.resolvedDetails).all fun details =>
    print (sortKeys (parsedDetails E (some details))) = print (sortKeys c.resolvedDetails)) &&
  c.resolvedIp.all fun ip => E.inet ip = some ip

/-- No other call of the tenant has inserted a row since this one read the last hash, and what it
hashed reads back. -/
def orderly (E : Env) (s : Writers) : WriterEvent → Bool
  | .read _ _ => true
  | .insert n _ =>
    s.pending[n]?.all fun w =>
      w.prevHash = lastHash w.call.tenantId s.table && readsBack E w.call

end Writers

/-! ### Tampering -/

/-- What someone with access to the table does to the rows of a tenant. -/
inductive Tamper where
  | change (position : ℕ) (row : ActivityRow)
  | delete (position : ℕ)
  | insert (position : ℕ) (row : ActivityRow)
  | swap (position other : ℕ)

namespace Tamper

def apply (rows : List ActivityRow) : Tamper → List ActivityRow
  | .change i row => rows.set i row
  | .delete i => rows.eraseIdx i
  | .insert i row => rows.insertIdx i row
  | .swap i j =>
    match rows[i]?, rows[j]? with
    | some a, some b => (rows.set i b).set j a
    | _, _ => rows

/-- The hash of the row is the one that was there, or in any case not the right one. -/
def NotRecomputed (E : Env) (tenantId : TenantId) (old row : ActivityRow) : Prop :=
  row.hash = old.hash ∨ row.hash ≠ rowHash E (row.prevHash.getD []) (rowPayload E tenantId row)

/-- A change of one row that does not recompute its hash, a row that is deleted or inserted before
the last one, or two rows that are swapped. -/
def Applies (E : Env) (tenantId : TenantId) (rows : List ActivityRow) : Tamper → Prop
  | .change i row => ∃ old, rows[i]? = some old ∧ row ≠ old ∧ NotRecomputed E tenantId old row
  | .delete i => i + 1 < rows.length
  | .insert i _ => i < rows.length
  | .swap i j => i < j ∧ j < rows.length

end Tamper

structure Seen where
  eventType : String
  actorId : Option Uuid
  actorType : String
  targetId : Option Uuid
  details : Json
  ipAddress : Option String
  requestId : Option String
  prevHash : Option Bytes
  hash : Bytes
  createdAt : ℤ

/-- Every column but `target_type`, and the details as they are parsed. -/
def seen (E : Env) (row : ActivityRow) : Seen :=
  { eventType := row.eventType
    actorId := row.actorId
    actorType := row.actorType
    targetId := row.targetId
    details := sortKeys (parsedDetails E row.details)
    ipAddress := row.ipAddress
    requestId := row.requestId
    prevHash := row.prevHash
    hash := row.hash
    createdAt := row.createdAt }

/-- A row has a hash before it, and a change is one of what is read. -/
def Tamper.Visible (E : Env) (rows : List ActivityRow) : Tamper → Prop
  | .change i row => row.prevHash ≠ none ∧ ∀ old, rows[i]? = some old → seen E row ≠ seen E old
  | .insert _ row => row.prevHash ≠ none
  | _ => True

def rowInput (E : Env) (tenantId : TenantId) (row : ActivityRow) : Bytes :=
  row.prevHash.getD [] ++ canonical (rowPayload E tenantId row)

end Avon.Admin.Audit
