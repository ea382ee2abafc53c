import Avon.Proofs.Tunnel.SessionSteps
import Avon.Tunnel.Endpoint

/-!
# Sending and accepting a datagram

`Carries P d k h inner` says what a datagram is. An endpoint sends such datagrams under its current
key and next counter, and accepts them only under an epoch that receives with the key `k`, to which
it commits the counter.
-/

set_option autoImplicit false

namespace Avon.Crypto.SessionCipher

theorem open_of_commit {P : AeadImpl} {c : SessionCipher} {counter : UInt64}
    {aad buf plaintext : Bytes} {window : Window} (hlen : Suite.TAG_LEN ≤ buf.length)
    (hdec : P.decryptInPlace c.recv (nonceFor counter) aad buf = some plaintext)
    (hcommit : c.window.checkAndUpdate counter = (.ok (), window)) :
    c.open P counter aad buf = (.ok plaintext, { c with window }) := by
  unfold «open»
  rw [if_neg]
  · simp [AeadKey.openInPlace, Nat.not_lt.mpr hlen, hdec, hcommit]
  -- A counter that is too old would not be committed.
  intro hold
  rw [Option.any_eq_true_iff_get] at hold
  obtain ⟨hsome, hboth⟩ := hold
  simp only [ge_iff_le, Bool.and_eq_true, decide_eq_true_eq] at hboth
  have hrefuses : c.window.Refuses counter :=
    ⟨_, (Option.some_get hsome).symm, hboth.1, .inl hboth.2⟩
  exact hrefuses.not_commit hcommit

end Avon.Crypto.SessionCipher

namespace Avon.Tunnel

open Avon.Crypto

namespace Endpoint

/-- Everything that sending can do: send nothing, or spend a counter, and then put on the wire
what was sealed under the current key, or nothing. -/
def Sends (P : AeadImpl) (s : Session) (inner : Inner) (out : Except TunnelError Bytes × Session) :
    Prop :=
  (∃ e, out = (.error e, s)) ∨
  (s.closed = false ∧ s.current.cipher.counter.value < SendCounter.LIMIT ∧
    ((∃ e, out = (.error e, s.spend)) ∨ ∃ d, out = (.ok d, s.spend) ∧
      Carries P d s.current.cipher.send (s.headerFor s.current.cipher.counter.value) inner))

theorem sendInnerTo_cases (P : AeadImpl) (socketOk : Bool) (s : Session) (inner : Inner) :
    Sends P s inner (sendInnerTo P socketOk s inner) := by
  unfold sendInnerTo
  rcases s.seal_cases P inner with ⟨-, heq⟩ | ⟨-, -, heq⟩ | ⟨hopen, hlt, r, heq, hr⟩
  · exact .inl ⟨.closed, by simp only [heq]⟩
  · exact .inl ⟨.crypto .counterExhausted, by simp only [heq]⟩
  refine .inr ⟨hopen, hlt, ?_⟩
  simp only [heq]
  rcases hr with rfl | ⟨d, rfl, hcarries⟩
  · exact .inl ⟨_, rfl⟩
  cases socketOk with
  | false => exact .inl ⟨.io, rfl⟩
  | true => exact .inr ⟨d, rfl, hcarries⟩

theorem sendInner_cases (P : AeadImpl) (socketOk : Bool) (s : Session) (inner : Inner) :
    Sends P s inner (sendInner P socketOk s inner) := by
  rw [sendInner_eq]
  cases s.peerEndpoint with
  | none => exact .inl ⟨_, rfl⟩
  | some ep => exact sendInnerTo_cases P socketOk s inner

variable {inner : Inner} {P : AeadImpl} {h : Header} {d : Bytes}

theorem opensUnder_of_carries (hP : P.Correct) {k : AeadKey} (hd : Carries P d k h inner) :
    opensUnder P d k = true := by
  obtain ⟨hdata, ct, henc, rfl⟩ := hd
  simp [opensUnder, Header.decode_encode hdata, hP.opens henc]

theorem eq_of_opensOnce {keys : List AeadKey} (h : opensOnce P keys d = true) {a b : AeadKey}
    (ha : a ∈ keys) (hb : b ∈ keys) (hoa : opensUnder P d a = true)
    (hob : opensUnder P d b = true) : a = b := by
  have hab := List.all_eq_true.mp (List.all_eq_true.mp h a ha) b hb
  simpa [hoa, hob] using hab

/-- Everything `accept` can do with such a datagram: refuse it and change nothing, or commit
its counter to an epoch that receives with its key and hand over its payload. No live epoch opens
the datagram with another key. -/
theorem accept_cases (hP : P.Correct) (e : Endpoint) {k : AeadKey} (hd : Carries P d k h inner)
    (hkey : ∀ x ∈ e.session.epochs, opensUnder P d x.cipher.recv = true → x.cipher.recv = k) :
    e.accept P d = (none, e.session) ∨
    ∃ s', e.session.closed = false ∧ e.session.Commits s' h.receiverIndex k h.counter ∧
      e.accept P d = (some inner, s') := by
  obtain ⟨hdata, ct, henc, rfl⟩ := hd
  have hopened : ∀ x ∈ e.session.epochs, x.localIndex = h.receiverIndex → ∀ pt,
      P.decryptInPlace x.cipher.recv (nonceFor h.counter) h.encode ct = some pt →
      x.cipher.recv = k := by
    intro x hx _ pt hdec
    exact hkey x hx (by simp [opensUnder, Header.decode_encode hdata, hdec])
  unfold accept
  rw [Header.decode_encode hdata]
  simp only
  split
  · rcases Session.open_sealed_cases hP henc hopened with
      ⟨err, heq⟩ | ⟨s', hopen, hcommits, heq⟩ <;> rw [heq]
    · exact .inl rfl
    · exact .inr ⟨s', hopen, hcommits, rfl⟩
  · exact .inl rfl

theorem accept_current (hP : P.Correct) {e : Endpoint}
    (hd : Carries P d e.session.current.cipher.recv h inner)
    (hopen : e.session.closed = false) (hbound : h.receiverIndex ∈ e.bound)
    (hidx : e.session.current.localIndex = h.receiverIndex) {w : Window}
    (hcommit : e.session.current.cipher.window.checkAndUpdate h.counter = (.ok (), w)) :
    e.accept P d = (some inner, e.session.setWindow w) := by
  obtain ⟨hdata, ct, henc, rfl⟩ := hd
  unfold accept
  rw [Header.decode_encode hdata]
  have hbody : e.session.openBody P h ct = (.ok inner.encode, e.session.setWindow w) := by
    unfold Session.openBody
    rw [if_pos hidx, SessionCipher.open_of_commit (hP.tagged henc) (hP.opens henc) hcommit]
    rfl
  have hclosed : ¬ e.session.closed = true := by simp [hopen]
  simp only [if_pos hbound, Session.open, if_neg hclosed, hbody, Except.bind,
    Inner.decode_encode]

end Endpoint

end Avon.Tunnel
