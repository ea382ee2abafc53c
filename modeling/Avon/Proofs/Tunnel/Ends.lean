import Avon.Proofs.Tunnel.SessionSteps

/-!
# One end of a session, and its other end

`EndOk` is what holds of one end of a session through its whole life: the ciphers have the
keys of their epochs, and the epochs are numbered without gaps. `Mirror` says that an epoch
of one end and an epoch of the other end are the two ends of one epoch.
-/

set_option autoImplicit false

namespace Avon.Tunnel

open Avon.Crypto

variable {suite : Suite} {s : Session} {role : Role}

/-- What holds of one end of a session: each epoch's cipher has the keys of its epoch, the
session counts the epoch of its current keys, and the previous epoch is the one before. -/
structure EndOk (role : Role) (suite : Suite) (s : Session) : Prop where
  roleEq : s.role = role
  suiteEq : s.suite = suite
  ciphers : ∀ e ∈ s.epochs, e.cipher.send = ⟨suite, role.sendKey e.keys⟩ ∧
    e.cipher.recv = ⟨suite, role.recvKey e.keys⟩
  counted : s.epoch = s.current.keys.epoch
  consecutive : ∀ p since, s.previous = some (p, since) →
    s.current.keys.epoch = p.keys.epoch + 1

theorem endOk_new (id : SessionId) (role : Role) (suite : Suite) (keys : SessionKeys)
    (l r : UInt32) (ep : Option SocketAddr) (now : ℕ) :
    EndOk role suite (Session.new id role suite keys l r ep now) where
  roleEq := rfl
  suiteEq := rfl
  ciphers e he := by
    have : e = (Session.new id role suite keys l r ep now).current := by
      simpa [Session.epochs, Session.new] using he
    subst this
    exact ⟨rfl, rfl⟩
  counted := rfl
  consecutive p since h := by cases h

theorem EndOk.rotate (h : EndOk role suite s)
    {next : SessionKeys} (hnext : next.epoch = s.current.keys.epoch + 1) (l r : UInt32) (now : ℕ) :
    EndOk role suite (s.rotate next l r now) where
  roleEq := h.roleEq
  suiteEq := h.suiteEq
  ciphers e he := by
    rcases Session.mem_epochs_rotate he with rfl | rfl
    · simp [SessionCipher.new, h.roleEq, h.suiteEq]
    · exact h.ciphers _ List.mem_cons_self
  counted := by
    show s.epoch + 1 = next.epoch
    rw [h.counted, hnext]
  consecutive p since hp := by
    obtain ⟨rfl, rfl⟩ := Prod.mk.inj (Option.some.inj hp)
    exact hnext

theorem EndOk.kept {s' : Session} (h : EndOk role suite s) (hk : s.Kept s') :
    EndOk role suite s' where
  roleEq := hk.role.trans h.roleEq
  suiteEq := hk.suite.trans h.suiteEq
  ciphers e' he' := by
    obtain ⟨e, he, hsame⟩ := hk.epochs he'
    rw [hsame.send, hsame.recv, hsame.keys]
    exact h.ciphers e he
  counted := by rw [hk.epoch, hk.current.keys, h.counted]
  consecutive p' since hp := by
    obtain ⟨p, hp, hsame⟩ := hk.previous p' since hp
    rw [hk.current.keys, hsame.keys]
    exact h.consecutive p since hp

theorem EndOk.keys_ne {x : Session} (h : EndOk role suite x) {p : Epoch}
    {since : ℕ} (hp : x.previous = some (p, since)) : p.keys ≠ x.current.keys := by
  intro heq
  have hepoch := h.consecutive p since hp
  rw [← heq] at hepoch
  have hone : (1 : UInt32) ≠ 0 := by decide
  simp [hone] at hepoch

def Mirror (a b : Epoch) : Prop :=
  a.keys = b.keys ∧ a.remoteIndex = b.localIndex ∧ b.remoteIndex = a.localIndex

theorem Mirror.same {a a' b b' : Epoch} (h : Mirror a b) (ha : a.Same a') (hb : b.Same b') :
    Mirror a' b' :=
  ⟨ha.keys.trans (h.1.trans hb.keys.symm), ha.remoteIndex.trans (h.2.1.trans hb.localIndex.symm),
    hb.remoteIndex.trans (h.2.2.trans ha.localIndex.symm)⟩

end Avon.Tunnel
