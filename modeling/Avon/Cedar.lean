import Avon.Lib.Reach
import Avon.Net

/-!
# The part of Cedar that compiled policies use

Cedar's documented meaning of the expressions that `cedar_source` writes. A policy whose condition
gives an error is skipped and reported; a decision is `Allow` if some permit is satisfied and no
forbid is. A literal `ip("…")` is given by the network whose text it holds: Cedar reads that text
back, except that it refuses an IPv6 text with a dotted IPv4 part.
-/

set_option autoImplicit false

namespace Avon.Cedar

open Avon.Lib.Reach

/-! ### Values -/

inductive EntityType where
  | pod
  | deviceClass
  | device
  | network
  deriving DecidableEq, Repr

/-- The entities of the schema. The only network is `Network::"external"`. -/
inductive EntityUid where
  | pod (id : Uuid)
  | deviceClass (id : Uuid)
  | device (id : Uuid)
  | external
  deriving DecidableEq, Repr

def EntityUid.type : EntityUid → EntityType
  | .pod _ => .pod
  | .deviceClass _ => .deviceClass
  | .device _ => .device
  | .external => .network

inductive Attr where
  | status
  | attestation
  | riskScore
  | firewallEnabled
  | diskEncrypted
  | screenLockEnabled
  | osVersionMajor
  | osVersionMinor
  | hoursSinceUpdate
  deriving DecidableEq, Repr

inductive Value where
  | bool (b : Bool)
  | long (n : ℤ)
  | string (s : String)
  | entity (uid : EntityUid)
  | ip (net : IpNet)
  deriving DecidableEq, Repr

structure Context where
  protocol : String
  dstPort : ℤ
  dstIp : IpNet
  admission : Bool
  deriving DecidableEq, Repr

inductive ContextAttr where
  | protocol
  | dstPort
  | dstIp
  | admission
  deriving DecidableEq, Repr

def Context.get (c : Context) : ContextAttr → Value
  | .protocol => .string c.protocol
  | .dstPort => .long c.dstPort
  | .dstIp => .ip c.dstIp
  | .admission => .bool c.admission

/-- What Cedar's `ip` makes of the text of a network: text with both colons and dots is
refused. -/
def parseIp (net : IpNet) : Option IpNet :=
  if net.addr.isV4Mapped then none else some net

/-- `isInRange`: the range of the first lies in the range of the second. -/
def ipInRange (x net : IpNet) : Bool :=
  match x.addr, net.addr with
  | .v4 a, .v4 b => netLow b net.prefixLen ≤ netLow a x.prefixLen &&
      netHigh a x.prefixLen ≤ netHigh b net.prefixLen
  | .v6 a, .v6 b => netLow b net.prefixLen ≤ netLow a x.prefixLen &&
      netHigh a x.prefixLen ≤ netHigh b net.prefixLen
  | _, _ => false

/-! ### Entities -/

structure Entity where
  uid : EntityUid
  attrs : List (Attr × Value)
  parents : List EntityUid
  deriving Repr

def Entity.deepEq (e f : Entity) : Bool :=
  e.uid = f.uid && e.attrs = f.attrs && e.parents.all (f.parents.contains ·) &&
    f.parents.all (e.parents.contains ·)

def findEntity (es : List Entity) (uid : EntityUid) : Option Entity :=
  es.find? fun e => e.uid = uid

def parentsOf (es : List Entity) (uid : EntityUid) : List EntityUid :=
  match findEntity es uid with
  | some e => e.parents
  | none => []

def ancestors (es : List Entity) (uid : EntityUid) : List EntityUid :=
  reach (parentsOf es) es.length uid

inductive Error where
  | duplicateEntity
  | cycle
  | duplicatePolicy
  | ipText
  deriving DecidableEq, Repr

/-- An entity store: entities of one name are the same, and the hierarchy has no cycle. -/
structure Entities where
  list : List Entity
  consistent : ∀ e ∈ list, ∀ f ∈ list, e.uid = f.uid → e.deepEq f = true
  acyclic : ∀ e ∈ list, e.uid ∉ ancestors list e.uid

/-- `Entities::from_entities`. What `build_entities` makes conforms to the schema, so the
schema check is left out. -/
def Entities.fromEntities (es : List Entity) : Except Error Entities :=
  if consistent : ∀ e ∈ es, ∀ f ∈ es, e.uid = f.uid → e.deepEq f = true then
    if acyclic : ∀ e ∈ es, e.uid ∉ ancestors es e.uid then .ok ⟨es, consistent, acyclic⟩
    else .error .cycle
  else .error .duplicateEntity

def Entities.isIn (es : Entities) (a b : EntityUid) : Bool :=
  a = b || (ancestors es.list a).contains b

/-! ### Expressions -/

inductive Cmp where
  | le
  | ge
  | gt
  deriving DecidableEq, Repr

def Cmp.apply : Cmp → ℤ → ℤ → Bool
  | .le, a, b => a ≤ b
  | .ge, a, b => b ≤ a
  | .gt, a, b => b < a

inductive Expr where
  | lit (v : Value)
  | principal
  | resource
  | context (attr : ContextAttr)
  | and (a b : Expr)
  | or (a b : Expr)
  | eq (a b : Expr)
  | cmp (op : Cmp) (a b : Expr)
  | isIn (a : Expr) (uids : List EntityUid)
  | isType (a : Expr) (type : EntityType)
  | has (a : Expr) (attr : Attr)
  | get (a : Expr) (attr : Attr)
  | ip (text : IpNet)
  | isInRange (a b : Expr)
  deriving DecidableEq, Repr

def Expr.always : Expr := .lit (.bool true)

inductive EvalError where
  | type
  | entityDoesNotExist
  | attrDoesNotExist
  | extension
  deriving DecidableEq, Repr

structure Request where
  principal : EntityUid
  resource : EntityUid
  context : Context
  deriving DecidableEq, Repr

namespace Value

def asBool : Value → Except EvalError Bool
  | .bool b => .ok b
  | _ => .error .type

def asLong : Value → Except EvalError ℤ
  | .long n => .ok n
  | _ => .error .type

def asEntity : Value → Except EvalError EntityUid
  | .entity uid => .ok uid
  | _ => .error .type

def asIp : Value → Except EvalError IpNet
  | .ip net => .ok net
  | _ => .error .type

end Value

/-- Evaluation. `&&` and `||` do not look at their right side if the left side decides. -/
def Expr.eval (req : Request) (es : Entities) : Expr → Except EvalError Value
  | .lit v => .ok v
  | .principal => .ok (.entity req.principal)
  | .resource => .ok (.entity req.resource)
  | .context attr => .ok (req.context.get attr)
  | .and a b => do
    if ← (← a.eval req es).asBool then return .bool (← (← b.eval req es).asBool)
    else return .bool false
  | .or a b => do
    if ← (← a.eval req es).asBool then return .bool true
    else return .bool (← (← b.eval req es).asBool)
  | .eq a b => do return .bool ((← a.eval req es) = (← b.eval req es))
  | .cmp op a b => do
    return .bool (op.apply (← (← a.eval req es).asLong) (← (← b.eval req es).asLong))
  | .isIn a uids => do
    let uid ← (← a.eval req es).asEntity
    return .bool (uids.any (es.isIn uid ·))
  | .isType a type => do return .bool ((← (← a.eval req es).asEntity).type = type)
  | .has a attr => do
    let uid ← (← a.eval req es).asEntity
    -- An entity that does not exist has no attributes.
    return .bool ((findEntity es.list uid).any fun e => (e.attrs.lookup attr).isSome)
  | .get a attr => do
    let uid ← (← a.eval req es).asEntity
    match findEntity es.list uid with
    | none => throw .entityDoesNotExist
    | some e =>
      match e.attrs.lookup attr with
      | none => throw .attrDoesNotExist
      | some v => return v
  | .ip text =>
    match parseIp text with
    | some net => .ok (.ip net)
    | none => .error .extension
  | .isInRange a b => do
    return .bool (ipInRange (← (← a.eval req es).asIp) (← (← b.eval req es).asIp))

def Expr.evalBool (req : Request) (es : Entities) (e : Expr) : Except EvalError Bool := do
  (← e.eval req es).asBool

/-! ### Policies and the authorizer -/

inductive Effect where
  | permit
  | forbid
  deriving DecidableEq, Repr

/-- A policy `permit` or `forbid (principal, action == connect, resource) when { … }`. The
only action is `connect`. -/
structure Policy where
  id : Uuid
  effect : Effect
  condition : Expr
  deriving DecidableEq, Repr

structure PolicySet where
  policies : List Policy
  nodup : (policies.map Policy.id).Nodup
  deriving DecidableEq, Repr

def PolicySet.empty : PolicySet := ⟨[], List.nodup_nil⟩

def PolicySet.add (ps : PolicySet) (p : Policy) : Except Error PolicySet :=
  if h : p.id ∈ ps.policies.map Policy.id then .error .duplicatePolicy
  else .ok ⟨ps.policies ++ [p], by
    rw [List.map_append, List.nodup_append']
    exact ⟨ps.nodup, List.nodup_singleton _, by simpa using h⟩⟩

inductive Decision where
  | allow
  | deny
  deriving DecidableEq, Repr

/-- The policies that determined the decision, and those whose evaluation failed. -/
structure Response where
  decision : Decision
  reason : List Uuid
  errors : List (Uuid × EvalError)
  deriving DecidableEq, Repr

def satisfied (req : Request) (es : Entities) (ps : List Policy) (effect : Effect) : List Uuid :=
  (ps.filter fun p => p.effect = effect ∧ p.condition.evalBool req es = .ok true).map Policy.id

def failed (req : Request) (es : Entities) (ps : List Policy) : List (Uuid × EvalError) :=
  ps.filterMap fun p =>
    match p.condition.evalBool req es with
    | .error e => some (p.id, e)
    | .ok _ => none

def isAuthorized (req : Request) (ps : PolicySet) (es : Entities) : Response :=
  let permits := satisfied req es ps.policies .permit
  let forbids := satisfied req es ps.policies .forbid
  let errors := failed req es ps.policies
  if !forbids.isEmpty then ⟨.deny, forbids, errors⟩
  else if !permits.isEmpty then ⟨.allow, permits, errors⟩
  else ⟨.deny, [], errors⟩

end Avon.Cedar
