import Avon.Proofs.Crypto.Window
import Avon.Tunnel.Session

/-!
# What each call on a session can do

One inversion lemma per call: `seal_cases` and `open_cases` list every outcome of `seal` and of
`open`, and the invariants over sequences of calls are case analyses over them. `Kept` is what every
call keeps that neither rotates nor closes, and `Commits` is what an accepted datagram changes.
-/

set_option autoImplicit false

namespace Avon.Crypto.SendCounter

/-- What `next` can do: report exhaustion and stay, or hand out the value and advance by
one without wrapping. -/
theorem next_cases (c : SendCounter) :
    (LIMIT ≤ c.value ∧ c.next = (none, c)) ∨
    (c.value < LIMIT ∧ c.next = (some c.value, ⟨c.value + 1⟩)) := by
  unfold next
  by_cases h : c.value ≥ LIMIT
  · exact .inl ⟨h, if_pos h⟩
  · exact .inr ⟨UInt64.not_le.mp h, if_neg h⟩

theorem toNat_succ {c : SendCounter} (hlt : c.value < LIMIT) :
    (c.value + 1).toNat = c.value.toNat + 1 := by
  have hnat : c.value.toNat < 18446744073709551614 := UInt64.lt_iff_toNat_lt.mp hlt
  rw [UInt64.toNat_add]
  show (c.value.toNat + 1) % 2 ^ 64 = c.value.toNat + 1
  omega

end Avon.Crypto.SendCounter

namespace Avon.Tunnel

open Avon.Crypto Avon.Lib.Run

/-- The datagram is `inner`, sealed under `k` behind the header `h`. -/
def Carries (P : AeadImpl) (d : Bytes) (k : AeadKey) (h : Header) (inner : Inner) : Prop :=
  h.IsData ∧ ∃ ct, P.encryptInPlace k (nonceFor h.counter) h.encode inner.encode = some ct ∧
    d = h.encode ++ ct

/-- Two states of one epoch: they differ in the counter and the window only. -/
structure Epoch.Same (e e' : Epoch) : Prop where
  localIndex : e'.localIndex = e.localIndex
  remoteIndex : e'.remoteIndex = e.remoteIndex
  keys : e'.keys = e.keys
  send : e'.cipher.send = e.cipher.send
  recv : e'.cipher.recv = e.cipher.recv

theorem Epoch.Same.refl (e : Epoch) : e.Same e := ⟨rfl, rfl, rfl, rfl, rfl⟩

namespace Session

/-! ### Epochs -/

variable {s s' : Session} {e : Epoch} {k : AeadKey} {c : UInt64} {index : UInt32}

theorem mem_epochs (h : e ∈ s.epochs) : e = s.current ∨ ∃ since, s.previous = some (e, since) := by
  rcases List.mem_cons.mp h with rfl | h
  · exact .inl rfl
  cases hp : s.previous with
  | none => simp [hp] at h
  | some p =>
    refine .inr ⟨p.2, ?_⟩
    have : e = p.1 := by simpa [hp] using h
    rw [this]

theorem previous_mem_epochs {since : ℕ} (h : s.previous = some (e, since)) : e ∈ s.epochs := by
  simp [epochs, h]

theorem mem_epochs_rotate {next : SessionKeys} {l r : UInt32} {now : ℕ}
    (he : e ∈ (s.rotate next l r now).epochs) :
    e = ⟨l, r, SessionCipher.new next s.role s.suite, next, now⟩ ∨ e = s.current := by
  rcases List.mem_cons.mp he with rfl | he
  · exact .inl rfl
  · exact .inr (by simpa [rotate] using he)

/-- Every live epoch that receives with `k` refuses the counter. -/
def RefusedBy (s : Session) (k : AeadKey) (c : UInt64) : Prop :=
  ∀ e ∈ s.epochs, e.cipher.recv = k → e.cipher.window.Refuses c

theorem RefusedBy.rotate {next : SessionKeys} (h : s.RefusedBy k c)
    (hne : k ≠ ⟨s.suite, s.role.recvKey next⟩) (l r : UInt32) (now : ℕ) :
    (s.rotate next l r now).RefusedBy k c := by
  intro e he hrecv
  rcases mem_epochs_rotate he with rfl | rfl
  · exact absurd hrecv.symm hne
  · exact h _ List.mem_cons_self hrecv

/-- The epochs of `s'` are epochs of `s`, and what `s` refused stays refused. -/
structure Kept (s s' : Session) : Prop where
  role : s'.role = s.role
  suite : s'.suite = s.suite
  epoch : s'.epoch = s.epoch
  closed : s'.closed = s.closed
  current : s.current.Same s'.current
  previous : ∀ p' since, s'.previous = some (p', since) →
    ∃ p, s.previous = some (p, since) ∧ p.Same p'
  refused : ∀ k c, s.RefusedBy k c → s'.RefusedBy k c

theorem Kept.refl (s : Session) : s.Kept s :=
  ⟨rfl, rfl, rfl, rfl, .refl _, fun p _ hp => ⟨p, hp, .refl p⟩, fun _ _ h => h⟩

theorem Kept.setPeerEndpoint (h : s.Kept s') (ep : Option SocketAddr) :
    s.Kept { s' with peerEndpoint := ep } :=
  ⟨h.role, h.suite, h.epoch, h.closed, h.current, h.previous, h.refused⟩

theorem Kept.setRekeyPending (h : s.Kept s') (b : Bool) : s.Kept (s'.setRekeyPending b) :=
  ⟨h.role, h.suite, h.epoch, h.closed, h.current, h.previous, h.refused⟩

theorem Kept.epochs (h : s.Kept s') {e' : Epoch} (he : e' ∈ s'.epochs) :
    ∃ e ∈ s.epochs, e.Same e' := by
  rcases mem_epochs he with rfl | ⟨since, hp⟩
  · exact ⟨s.current, List.mem_cons_self, h.current⟩
  · obtain ⟨p, hp, hsame⟩ := h.previous e' since hp
    exact ⟨p, previous_mem_epochs hp, hsame⟩

theorem expirePreviousEpoch_cases (s : Session) (overlap now : ℕ) :
    (s.expirePreviousEpoch overlap now).2 = s ∨
      (s.expirePreviousEpoch overlap now).2 = { s with previous := none } := by
  unfold expirePreviousEpoch
  split
  · split
    · exact .inr rfl
    · exact .inl rfl
  · exact .inl rfl

theorem kept_expirePreviousEpoch (s : Session) (overlap now : ℕ) :
    s.Kept (s.expirePreviousEpoch overlap now).2 := by
  rcases s.expirePreviousEpoch_cases overlap now with heq | heq <;> rw [heq]
  · exact .refl s
  refine ⟨rfl, rfl, rfl, rfl, .refl _, fun p since hp => (nomatch hp), ?_⟩
  intro k c h e he hrecv
  obtain rfl : e = s.current := by simpa [Session.epochs] using he
  exact h s.current List.mem_cons_self hrecv

/-! ### Sealing -/

theorem isData_headerFor (s : Session) (counter : UInt64) : (s.headerFor counter).IsData := by
  refine ⟨rfl, ?_⟩
  show (if s.previous.isSome then FLAG_EPOCH_OVERLAP else 0) &&& ~~~FLAG_EPOCH_OVERLAP = 0
  split <;> decide

def spend (s : Session) : Session :=
  { s with current := { s.current with cipher := { s.current.cipher with
      counter := ⟨s.current.cipher.counter.value + 1⟩ } } }

theorem kept_spend (s : Session) : s.Kept s.spend := by
  refine ⟨rfl, rfl, rfl, rfl, ⟨rfl, rfl, rfl, rfl, rfl⟩, fun p _ hp => ⟨p, hp, .refl p⟩, ?_⟩
  intro k c h e he hrecv
  rcases List.mem_cons.mp he with rfl | he
  · exact h s.current List.mem_cons_self hrecv
  · exact h e (List.mem_cons_of_mem _ he) hrecv

/-- Everything `seal` can do: refuse on a closed session, report exhaustion, or spend one
counter on one call of the AEAD, which seals the payload or fails. -/
theorem seal_cases (P : AeadImpl) (s : Session) (inner : Inner) :
    (s.closed = true ∧ s.seal P inner = ⟨.error .closed, s, []⟩) ∨
    (s.closed = false ∧ SendCounter.LIMIT ≤ s.current.cipher.counter.value ∧
      s.seal P inner = ⟨.error (.crypto .counterExhausted), s, []⟩) ∨
    (s.closed = false ∧ s.current.cipher.counter.value < SendCounter.LIMIT ∧
      ∃ result, s.seal P inner = ⟨result, s.spend,
          [⟨s.current.cipher.send, nonceFor s.current.cipher.counter.value⟩]⟩ ∧
        (result = .error (.crypto (.encryptionFailed "aead seal")) ∨ ∃ d, result = .ok d ∧
          Carries P d s.current.cipher.send (s.headerFor s.current.cipher.counter.value)
            inner)) := by
  unfold «seal»
  by_cases hclosed : s.closed = true
  · exact .inl ⟨hclosed, if_pos hclosed⟩
  refine .inr ?_
  rw [if_neg hclosed]
  have hopen : s.closed = false := Bool.eq_false_iff.mpr hclosed
  rcases s.current.cipher.counter.next_cases with ⟨hge, hnext⟩ | ⟨hlt, hnext⟩
  · refine .inl ⟨hopen, hge, ?_⟩
    simp only [SessionCipher.sealWith, hnext]
  refine .inr ⟨hopen, hlt, ?_⟩
  simp only [SessionCipher.sealWith, hnext, AeadKey.sealInPlace]
  cases henc : P.encryptInPlace s.current.cipher.send (nonceFor s.current.cipher.counter.value)
      (s.headerFor s.current.cipher.counter.value).encode inner.encode with
  | none => exact ⟨_, rfl, .inl rfl⟩
  | some ct => exact ⟨_, rfl, .inr ⟨_, rfl, s.isData_headerFor _, ct, henc, rfl⟩⟩

/-! ### Opening -/

def setWindow (s : Session) (window : Window) : Session :=
  { s with current := { s.current with cipher := { s.current.cipher with window } } }

def setPreviousWindow (s : Session) (prev : Epoch) (since : ℕ) (window : Window) : Session :=
  { s with previous := some ({ prev with cipher := { prev.cipher with window } }, since) }

/-- The session with one counter committed to the window of an epoch that is addressed by
`index` and receives with `k`. -/
def Commits (s s' : Session) (index : UInt32) (k : AeadKey) (c : UInt64) : Prop :=
  (∃ w, s.current.localIndex = index ∧ s.current.cipher.recv = k ∧
    s.current.cipher.window.checkAndUpdate c = (.ok (), w) ∧ s' = s.setWindow w) ∨
  (∃ prev since w, s.previous = some (prev, since) ∧ s.current.localIndex ≠ index ∧
    prev.localIndex = index ∧ prev.cipher.recv = k ∧
    prev.cipher.window.checkAndUpdate c = (.ok (), w) ∧ s' = s.setPreviousWindow prev since w)

/-- What `s.Commits s'` says of the epochs: one has the counter committed, and the other is as it
was. -/
theorem Commits.epochs (h : s.Commits s' index k c) :
    ∃ e ∈ s.epochs, ∃ w, e.localIndex = index ∧ e.cipher.recv = k ∧
      e.cipher.window.checkAndUpdate c = (.ok (), w) ∧ ∀ x ∈ s'.epochs,
        x = { e with cipher := { e.cipher with window := w } } ∨ x ∈ s.epochs ∧ ∃ since,
          (e = s.current ∧ s.previous = some (x, since)) ∨
            x = s.current ∧ s.previous = some (e, since) := by
  rcases h with ⟨w, hidx, hk, hcheck, rfl⟩ | ⟨prev, since, w, hprev, -, hidx, hk, hcheck, rfl⟩
  · refine ⟨s.current, List.mem_cons_self, w, hidx, hk, hcheck, fun x hx => ?_⟩
    rcases mem_epochs hx with rfl | ⟨since, hp⟩
    · exact .inl rfl
    · exact .inr ⟨previous_mem_epochs hp, since, .inl ⟨rfl, hp⟩⟩
  · refine ⟨prev, previous_mem_epochs hprev, w, hidx, hk, hcheck, fun x hx => ?_⟩
    rcases mem_epochs hx with rfl | ⟨since', hp⟩
    · exact .inr ⟨List.mem_cons_self, since, .inr ⟨rfl, hprev⟩⟩
    · obtain ⟨rfl, -⟩ := Prod.mk.inj (Option.some.inj hp)
      exact .inl rfl

theorem RefusedBy.not_commits (h : s.RefusedBy k c) : ¬ s.Commits s' index k c := by
  intro hc
  obtain ⟨e, he, w, -, hrecv, hcheck, -⟩ := hc.epochs
  exact (h e he hrecv).not_commit hcheck

theorem RefusedBy.commits {k' : AeadKey} {c' : UInt64}
    (h : s.RefusedBy k c) (hc : s.Commits s' index k' c') : s'.RefusedBy k c := by
  obtain ⟨e, he, w, -, -, hcheck, hepochs⟩ := hc.epochs
  intro x hx hrecv
  rcases hepochs x hx with rfl | ⟨hx, -⟩
  · exact (h e he hrecv).commit hcheck
  · exact h x hx hrecv

/-- A committed counter is refused from then on, if the two live epochs receive with
different keys. -/
theorem refusedBy_of_commits (hc : s.Commits s' index k c)
    (hne : ∀ p since, s.previous = some (p, since) → p.cipher.recv ≠ s.current.cipher.recv) :
    s'.RefusedBy k c := by
  obtain ⟨e, -, w, -, hk, hcheck, hepochs⟩ := hc.epochs
  intro x hx hrecv
  rcases hepochs x hx with rfl | ⟨-, since, ⟨rfl, hp⟩ | ⟨rfl, hp⟩⟩
  · exact Window.refuses_of_commit hcheck
  · exact absurd (hrecv.trans hk.symm) (hne x since hp)
  · exact absurd (hk.trans hrecv.symm) (hne e since hp)

theorem Commits.kept (h : s.Commits s' index k c) : s.Kept s' := by
  have hrefused := fun k' c' (hr : s.RefusedBy k' c') => hr.commits h
  rcases h with ⟨w, -, -, -, rfl⟩ | ⟨prev, since, w, hprev, -, -, -, -, rfl⟩
  · exact ⟨rfl, rfl, rfl, rfl, ⟨rfl, rfl, rfl, rfl, rfl⟩, fun p _ hp => ⟨p, hp, .refl p⟩, hrefused⟩
  refine ⟨rfl, rfl, rfl, rfl, .refl _, fun p' since' hp => ?_, hrefused⟩
  obtain ⟨rfl, rfl⟩ := Prod.mk.inj (Option.some.inj hp)
  exact ⟨prev, hprev, rfl, rfl, rfl, rfl, rfl⟩

theorem Commits.counter (h : s.Commits s' index k c) :
    s'.current.cipher.counter = s.current.cipher.counter := by
  rcases h with ⟨w, -, -, -, rfl⟩ | ⟨prev, since, w, -, -, -, -, -, rfl⟩ <;> rfl

variable (P : AeadImpl)

/-- Everything `openBody` can do: fail and change nothing, or open the body under an epoch that the
header names and commit the counter to that epoch's window. -/
theorem openBody_cases (s : Session) (header : Header) (body : Bytes) :
    (∃ e, s.openBody P header body = (.error e, s)) ∨
    ∃ x ∈ s.epochs, ∃ plaintext s', x.localIndex = header.receiverIndex ∧
      P.decryptInPlace x.cipher.recv (nonceFor header.counter) header.encode body
        = some plaintext ∧
      s.Commits s' header.receiverIndex x.cipher.recv header.counter ∧
      s.openBody P header body = (.ok plaintext, s') := by
  unfold openBody
  by_cases hcur : s.current.localIndex = header.receiverIndex
  · simp only [if_pos hcur]
    rcases s.current.cipher.open_cases P header.counter header.encode body with
      ⟨e, heq⟩ | ⟨pt, w, hdec, hcheck, heq⟩
    · exact .inl ⟨openError e, by rw [heq]; rfl⟩
    · exact .inr ⟨_, List.mem_cons_self, pt, _, hcur, hdec, .inl ⟨w, hcur, rfl, hcheck, rfl⟩,
        by rw [heq]; rfl⟩
  simp only [if_neg hcur]
  cases hprev : s.previous with
  | none => exact .inl ⟨_, rfl⟩
  | some p =>
    obtain ⟨prev, since⟩ := p
    by_cases hidx : prev.localIndex = header.receiverIndex
    · simp only [if_pos hidx]
      rcases prev.cipher.open_cases P header.counter header.encode body with
        ⟨e, heq⟩ | ⟨pt, w, hdec, hcheck, heq⟩
      · refine .inl ⟨openError e, ?_⟩
        rw [heq]
        -- Writing the unchanged epoch back is no change.
        show (Except.error (openError e), { s with previous := some (prev, since) }) = _
        rw [← hprev]
      · exact .inr ⟨prev, previous_mem_epochs hprev, pt, _, hidx, hdec,
          .inr ⟨prev, since, w, hprev, hcur, hidx, rfl, hcheck, rfl⟩, by rw [heq]; rfl⟩
    · simp only [if_neg hidx]
      exact .inl ⟨_, rfl⟩

/-- Everything `open` can do. A body that opens and then fails to parse is committed too. -/
theorem open_cases (s : Session) (header : Header) (body : Bytes) :
    (∃ e, s.open P header body = (.error e, s)) ∨
    s.closed = false ∧ ∃ x ∈ s.epochs, ∃ plaintext s', x.localIndex = header.receiverIndex ∧
      P.decryptInPlace x.cipher.recv (nonceFor header.counter) header.encode body
        = some plaintext ∧
      s.Commits s' header.receiverIndex x.cipher.recv header.counter ∧
      s.open P header body = (Inner.decode plaintext, s') := by
  unfold «open»
  by_cases hclosed : s.closed = true
  · exact .inl ⟨_, if_pos hclosed⟩
  rw [if_neg hclosed]
  rcases s.openBody_cases P header body with ⟨e, heq⟩ | ⟨x, hx, pt, s', hidx, hdec, hcommits, heq⟩
  · exact .inl ⟨e, by rw [heq]; rfl⟩
  · exact .inr ⟨Bool.eq_false_iff.mpr hclosed, x, hx, pt, s', hidx, hdec, hcommits,
      by rw [heq]; rfl⟩

/-- `open` of what was sealed under `k`, where no epoch that the header names opens it with another
key. -/
theorem open_sealed_cases {P : AeadImpl} (hP : P.Correct) {header : Header} {body : Bytes}
    {inner : Inner}
    (henc : P.encryptInPlace k (nonceFor header.counter) header.encode inner.encode = some body)
    (hkey : ∀ x ∈ s.epochs, x.localIndex = header.receiverIndex → ∀ pt,
      P.decryptInPlace x.cipher.recv (nonceFor header.counter) header.encode body = some pt →
      x.cipher.recv = k) :
    (∃ e, s.open P header body = (.error e, s)) ∨
    ∃ s', s.closed = false ∧ s.Commits s' header.receiverIndex k header.counter ∧
      s.open P header body = (.ok inner, s') := by
  rcases s.open_cases P header body with herr | ⟨hopen, x, hx, pt, s', hidx, hdec, hcommits, heq⟩
  · exact .inl herr
  obtain rfl := hkey x hx hidx pt hdec
  obtain rfl := Option.some.inj (hdec.symm.trans (hP.opens henc))
  exact .inr ⟨s', hopen, hcommits, by rw [heq, Inner.decode_encode]⟩

theorem kept_open (s : Session) (header : Header) (body : Bytes) :
    s.Kept (s.open P header body).2 ∧
      (s.open P header body).2.current.cipher.counter = s.current.cipher.counter := by
  rcases s.open_cases P header body with ⟨e, heq⟩ | ⟨-, x, -, pt, s', -, -, hcommits, heq⟩ <;>
    rw [heq]
  · exact ⟨.refl s, rfl⟩
  · exact ⟨hcommits.kept, hcommits.counter⟩

/-! ### Every call -/

theorem kept_apply (s : Session) {op : Op} (hrot : rotations [op] = []) (hclose : op ≠ .close) :
    s.Kept (s.apply P op) := by
  cases op with
  | «seal» inner =>
    simp only [apply]
    rcases s.seal_cases P inner with ⟨-, h⟩ | ⟨-, -, h⟩ | ⟨-, -, r, h, -⟩ <;> rw [h]
    · exact .refl s
    · exact .refl s
    · exact s.kept_spend
  | rotate => cases hrot
  | close => exact absurd rfl hclose
  | expirePreviousEpoch overlap now => exact s.kept_expirePreviousEpoch overlap now
  | «open» header body => exact (s.kept_open P header body).1

theorem role_suite_apply (s : Session) (op : Op) :
    (s.apply P op).role = s.role ∧ (s.apply P op).suite = s.suite := by
  cases op with
  | rotate | close => exact ⟨rfl, rfl⟩
  | «seal» | «open» | expirePreviousEpoch =>
    refine ⟨(s.kept_apply P ?_ ?_).role, (s.kept_apply P ?_ ?_).suite⟩ <;> simp [rotations]

end Session

end Avon.Tunnel
