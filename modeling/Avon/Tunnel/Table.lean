import Avon.Tunnel.Session

/-!
# Sessions by index and by id

The model of `avon-tunnel/src/table.rs`. The table holds shared sessions: `σ` is what tells one from
another, and `id` and `indexes` are what the table asks a session for. `Sessions` is a table with
its sessions, and what the gateway and the agent do to both.
-/

set_option autoImplicit false

namespace Avon.Tunnel

open Avon.Crypto

structure SessionTable (σ : Type) where
  byIndex : UInt32 → Option σ
  byId : SessionId → Option σ

namespace SessionTable

variable {σ : Type} (id : σ → SessionId) (indexes : σ → List UInt32)

def empty : SessionTable σ := ⟨fun _ => none, fun _ => none⟩

variable (t : SessionTable σ)

/-- A session that had the id before keeps its indexes. -/
def insert (s : σ) : SessionTable σ where
  byIndex := (indexes s).foldl (fun m i => Function.update m i (some s)) t.byIndex
  byId := Function.update t.byId (id s) (some s)

/-- The indexes are those of the session that has the id now. -/
def remove (key : SessionId) : SessionTable σ :=
  match t.byId key with
  | none => t
  | some s =>
    { byIndex := (indexes s).foldl (fun m i => Function.update m i none) t.byIndex
      byId := Function.update t.byId key none }

@[simp]
theorem byId_remove (key : SessionId) :
    (t.remove indexes key).byId = Function.update t.byId key none := by
  unfold remove
  split
  · next hnone => rw [← hnone, Function.update_eq_self]
  · rfl

/-- The loop over what the random generator will give. It does not reserve the index. -/
def allocateIndex : List (Except CryptoError UInt32) → Option (Except TunnelError UInt32)
  | [] => none
  | .error e :: _ => some (.error (.crypto e))
  | .ok idx :: draws =>
    if idx ≠ 0 ∧ t.byIndex idx = none then some (.ok idx) else allocateIndex draws

def rebindIndex (s : σ) (newIdx : UInt32) : SessionTable σ :=
  { t with byIndex := Function.update t.byIndex newIdx (some s) }

def releaseIndex (idx : UInt32) : SessionTable σ :=
  { t with byIndex := Function.update t.byIndex idx none }

end SessionTable

structure Sessions (σ : Type) where
  table : SessionTable σ
  session : σ → Session
  /-- The indexes of calls that have allocated one and not bound it yet. -/
  drawn : List UInt32

inductive SessionsEvent (σ : Type) where
  | allocate (draws : List (Except CryptoError UInt32))
  | insert (x : σ) (session : Session)
  | remove (id : SessionId)
  /-- `rotate` and `rebind_index`. -/
  | rotate (x : σ) (keys : SessionKeys) (idx remote : UInt32) (now : ℕ)
  /-- The call fails. The gateway gives the index of a rekey back. -/
  | giveUp (idx : UInt32)
  /-- `expire_previous_epoch` and `release_index`. -/
  | expire (x : σ) (overlap now : ℕ)

namespace Sessions

variable {σ : Type} [DecidableEq σ]

def indexes (s : Sessions σ) (x : σ) : List UInt32 := (s.session x).indexes

def set (s : Sessions σ) (x : σ) (session : Session) : Sessions σ :=
  { s with session := Function.update s.session x session }

def step (s : Sessions σ) : SessionsEvent σ → Sessions σ
  | .allocate draws =>
    match s.table.allocateIndex draws with
    | some (.ok idx) => { s with drawn := idx :: s.drawn }
    | _ => s
  | .insert x session =>
    let s := s.set x session
    { s with
      table := s.table.insert (fun y => (s.session y).id) s.indexes x
      drawn := s.drawn.erase session.current.localIndex }
  | .remove id =>
    match s.table.byId id with
    | none => s
    | some x => { s.set x (s.session x).close with table := s.table.remove s.indexes id }
  | .rotate x keys idx remote now =>
    { s.set x ((s.session x).rotate keys idx remote now) with
      table := s.table.rebindIndex x idx
      drawn := s.drawn.erase idx }
  | .giveUp idx => { s with table := s.table.releaseIndex idx, drawn := s.drawn.erase idx }
  | .expire x overlap now =>
    match (s.session x).expirePreviousEpoch overlap now with
    | (none, session) => s.set x session
    | (some idx, session) => { s.set x session with table := s.table.releaseIndex idx }

end Sessions

end Avon.Tunnel
