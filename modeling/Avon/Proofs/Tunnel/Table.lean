import Avon.Lib.Run
import Avon.Tunnel.Table

/-!
# The indexes of a table are those of its sessions

Over every run in which the random generator does not give one index to two calls at once, ids are
not reused, and only a session of the table without a previous epoch rotates.
-/

set_option autoImplicit false

namespace Avon.Tunnel.Sessions

open Avon.Crypto Avon.Lib.Run

variable {σ : Type} [DecidableEq σ] {s : Sessions σ}

/-- A session of the table that can be addressed by the index. -/
def Holds (s : Sessions σ) (x : σ) (idx : UInt32) : Prop :=
  s.table.byId (s.session x).id = some x ∧ idx ∈ s.indexes x

/-- No call draws an index that another one has drawn, and only a session of the table rotates, or
loses an epoch. -/
def Orderly (s : Sessions σ) : SessionsEvent σ → Prop
  | .allocate draws => ∀ idx, s.table.allocateIndex draws = some (.ok idx) → idx ∉ s.drawn
  | .insert x session => s.table.byId session.id = none ∧ (∀ id, s.table.byId id ≠ some x) ∧
    session.previous = none ∧ session.current.localIndex ∈ s.drawn
  | .remove _ => True
  | .rotate x _ idx _ _ => s.table.byId (s.session x).id = some x ∧
    (s.session x).previous = none ∧ idx ∈ s.drawn
  | .giveUp idx => idx ∈ s.drawn
  | .expire x _ _ => s.table.byId (s.session x).id = some x

structure Inv (s : Sessions σ) : Prop where
  keyed : ∀ id x, s.table.byId id = some x → (s.session x).id = id
  nodup : ∀ id x, s.table.byId id = some x → (s.indexes x).Nodup
  index : ∀ idx x, s.table.byIndex idx = some x ↔ s.Holds x idx
  unused : ∀ idx ∈ s.drawn, s.table.byIndex idx = none
  distinct : s.drawn.Nodup

theorem foldl_update {α β : Type} [DecidableEq α] {v : β} (keys : List α) (m : α → β) (a : α) :
    keys.foldl (fun m k => Function.update m k v) m a = if a ∈ keys then v else m a := by
  induction keys generalizing m with
  | nil => simp
  | cons k keys ih =>
    rw [List.foldl_cons, ih]
    by_cases hk : a = k <;> simp [hk]

omit [DecidableEq σ] in
theorem allocateIndex_cases {t : SessionTable σ} {draws : List (Except CryptoError UInt32)}
    {idx : UInt32} (h : t.allocateIndex draws = some (.ok idx)) :
    idx ≠ 0 ∧ t.byIndex idx = none := by
  fun_induction SessionTable.allocateIndex t draws <;> grind

theorem Inv.step {e : SessionsEvent σ} (h : Inv s) (hG : Orderly s e) : Inv (s.step e) := by
  obtain ⟨hkeyed, hnodup, hindex, hunused, hdistinct⟩ := id h
  simp only [Holds, indexes] at hnodup hindex
  cases e with
  | allocate draws =>
    simp only [Sessions.step]
    split
    · next idx hidx =>
      refine ⟨hkeyed, hnodup, hindex, fun i hi => ?_, List.nodup_cons.mpr ⟨hG idx hidx, hdistinct⟩⟩
      rcases List.mem_cons.mp hi with rfl | hi
      · exact (allocateIndex_cases hidx).2
      · exact hunused i hi
    · exact h
  | insert x session =>
    obtain ⟨hid, hnew, hprevious, hdrawn⟩ := hG
    have hfree := hunused _ hdrawn
    have hindexes : session.indexes = [session.current.localIndex] := by
      simp [Session.indexes, hprevious]
    refine ⟨fun id y => ?_, fun id y => ?_, fun idx y => ?_, fun idx => ?_, hdistinct.erase _⟩ <;>
      simp only [Sessions.step, SessionTable.insert, set, indexes, Holds, foldl_update,
        Function.update_apply, hdistinct.mem_erase_iff] <;> grind
  | remove id =>
    simp only [Sessions.step]
    split
    · exact h
    next x hx =>
    have hid := hkeyed id x hx
    refine ⟨fun id' y => ?_, fun id' y => ?_, fun idx y => ?_, fun idx => ?_, hdistinct⟩ <;>
      simp only [SessionTable.remove, hx, set, Holds, indexes, foldl_update,
        Function.update_apply] <;> grind [Session.close, Session.indexes]
  | rotate x keys idx remote now =>
    obtain ⟨hx, hprevious, hdrawn⟩ := hG
    have hfree := hunused idx hdrawn
    simp only [Session.indexes] at hnodup hindex
    refine ⟨fun id y => ?_, fun id y => ?_, fun idx y => ?_, fun idx => ?_, hdistinct.erase _⟩ <;>
      simp only [Sessions.step, Holds, SessionTable.rebindIndex, set, indexes, Session.rotate,
        Session.indexes, Function.update_apply, hdistinct.mem_erase_iff] <;> grind
  | giveUp idx =>
    -- The index is not bound, so that nothing is released.
    have hsame : s.table.releaseIndex idx = s.table := by
      rw [SessionTable.releaseIndex, ← hunused idx hG, Function.update_eq_self]
    simp only [Sessions.step, hsame]
    exact ⟨hkeyed, h.nodup, h.index, fun i hi => hunused i (List.mem_of_mem_erase hi),
      hdistinct.erase idx⟩
  | expire x overlap now =>
    have hsame : s.set x (s.session x) = s := by simp [set]
    simp only [Sessions.step, Session.expirePreviousEpoch]
    cases hprevious : (s.session x).previous with
    | none => simpa [hsame] using h
    | some previous =>
      by_cases hlate : overlap ≤ now - previous.2
      · simp only [ge_iff_le, hlate, ↓reduceIte]
        simp only [Session.indexes] at hnodup hindex
        refine ⟨fun id y => ?_, fun id y => ?_, fun idx y => ?_, fun idx => ?_, hdistinct⟩ <;>
          simp only [Orderly, Holds, SessionTable.releaseIndex, set, indexes, Session.indexes,
            Function.update_apply] at hG ⊢ <;> grind
      · simpa [hlate, hsame] using h

/-- Over every orderly run an index is mapped to a session iff it is one of the indexes of that
session and the session is in the table, and an index that is allocated is none of them. -/
theorem indexes_consistent (session : σ → Session) (events : List (SessionsEvent σ))
    (h : Guarded step Orderly ⟨.empty, session, []⟩ events) :
    let s := run step ⟨.empty, session, []⟩ events
    (∀ idx x, s.table.byIndex idx = some x ↔ s.Holds x idx) ∧
      ∀ draws idx, s.table.allocateIndex draws = some (.ok idx) →
        idx ≠ 0 ∧ ∀ x, ¬ s.Holds x idx := by
  have hinit : Inv (⟨.empty, session, []⟩ : Sessions σ) :=
    ⟨nofun, nofun, fun _ _ => ⟨nofun, fun hx => nomatch hx.1⟩, nofun, .nil⟩
  have hinv := Guarded.invariant (fun _ _ hinv hG => Inv.step hinv hG) hinit h
  refine ⟨hinv.index, fun draws idx hdraw => ?_⟩
  obtain ⟨hzero, hfree⟩ := allocateIndex_cases hdraw
  refine ⟨hzero, fun x hx => ?_⟩
  have hmapped := (hinv.index idx x).mpr hx
  simp [hfree] at hmapped

def fresh (id : SessionId) (idx : UInt32) : Session :=
  .new id .responder .aes256Gcm ⟨1, 2, 3, 0⟩ idx 5 none 0

def rekeyed : List (SessionsEvent Bool) :=
  [.allocate [.ok 20], .insert true (fresh 7 20), .allocate [.ok 20, .ok 21],
    .rotate true ⟨1, 2, 3, 1⟩ 21 6 9, .expire true 30 40]

theorem indexes_consistent_rekeyed :
    let s := run step ⟨.empty, fun _ => fresh 0 0, []⟩ rekeyed
    s.table.byIndex 21 = some true ∧ s.Holds true 21 := by
  have hunused : ∀ idx, idx ∉ ([] : List UInt32) := fun _ => List.not_mem_nil
  have h := indexes_consistent (fun _ => fresh 0 0) rekeyed ⟨fun _ _ => hunused _,
    ⟨rfl, fun _ => (Option.some_ne_none true).symm, rfl, by decide⟩, fun _ _ => hunused _,
    ⟨by decide, rfl, by decide⟩, rfl, trivial⟩
  exact ⟨by decide, (h.1 21 true).mp (by decide)⟩

end Avon.Tunnel.Sessions
