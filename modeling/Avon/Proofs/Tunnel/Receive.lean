import Avon.Proofs.Tunnel.SessionSteps

/-!
# At-most-once delivery

`delivered` lists the datagrams that `open` accepted. `ReceiveInv`: the window of each live epoch
stands for the counters committed under that epoch's index. A datagram that nobody sealed leaves the
session as it was.
-/

set_option autoImplicit false

namespace Avon.Tunnel.Session

open Avon.Crypto Avon.Crypto.ReplayWindow Avon.Lib.Run

/-! ### What a run accepts -/

structure Delivery where
  header : Header
  body : Bytes
  inner : Inner

def deliveries (P : AeadImpl) (s : Session) : Op → List Delivery
  | .open header body =>
    match (s.open P header body).1 with
    | .ok inner => [⟨header, body, inner⟩]
    | .error _ => []
  | _ => []

def delivered (P : AeadImpl) (s : Session) (ops : List Op) : List Delivery :=
  trace (apply P) (deliveries P) s ops

/-- The pair of index and counter that one call commits. A body that opens and then fails
to parse is committed too. -/
def commitsOf (P : AeadImpl) (s : Session) : Op → List (UInt32 × UInt64)
  | .open header body =>
    if s.closed then []
    else match (s.openBody P header body).1 with
      | .ok _ => [(header.receiverIndex, header.counter)]
      | .error _ => []
  | _ => []

/-- The committed pairs of a sequence of calls, in order. -/
def commits (P : AeadImpl) (s : Session) (ops : List Op) : List (UInt32 × UInt64) :=
  trace (apply P) (commitsOf P) s ops

theorem deliveries_sublist (P : AeadImpl) (s : Session) (op : Op) :
    ((deliveries P s op).map fun d => (d.header.receiverIndex, d.header.counter)).Sublist
      (commitsOf P s op) := by
  cases op with
  | «open» header body =>
    simp only [deliveries, commitsOf, «open»]
    by_cases hclosed : s.closed = true
    · simp [hclosed]
    simp only [hclosed, Bool.false_eq_true, if_false]
    cases (s.openBody P header body).1 with
    | error e => simp [Except.bind]
    | ok plaintext =>
      simp only [Except.bind]
      cases Inner.decode plaintext <;> simp
  | _ => exact List.Sublist.refl _

theorem delivered_sublist (P : AeadImpl) (s : Session) (ops : List Op) :
    ((delivered P s ops).map fun d => (d.header.receiverIndex, d.header.counter)).Sublist
      (commits P s ops) := by
  induction ops generalizing s with
  | nil => exact List.Sublist.refl _
  | cons op ops ih =>
    simp only [delivered, commits, trace, List.map_append]
    exact (deliveries_sublist P s op).append (ih (s.apply P op))

/-! ### The windows stand for the committed counters -/

def accepted (log : List (UInt32 × UInt64)) (index : UInt32) : Finset UInt64 :=
  ((log.filter fun p => p.1 = index).map Prod.snd).toFinset

variable {log : List (UInt32 × UInt64)} {c : UInt64} {used : List UInt32} {s : Session}
  {K : List AeadKey}

theorem mem_accepted {index : UInt32} :
    c ∈ accepted log index ↔ (index, c) ∈ log := by
  simp only [accepted, List.mem_toFinset, List.mem_map, List.mem_filter, decide_eq_true_eq]
  grind

theorem accepted_commit (log : List (UInt32 × UInt64)) (index : UInt32) (c : UInt64) :
    accepted (log ++ [(index, c)]) index = insert c (accepted log index) := by
  apply Finset.ext
  intro x
  rw [Finset.mem_insert, mem_accepted, mem_accepted]
  simp [or_comm]

theorem accepted_commit_of_ne (log : List (UInt32 × UInt64)) {index other : UInt32}
    (hne : other ≠ index) (c : UInt64) :
    accepted (log ++ [(index, c)]) other = accepted log other := by
  apply Finset.ext
  intro x
  rw [mem_accepted, mem_accepted]
  simp [hne]

/-- The invariant of a run that has used the local indexes `used` and committed `log`. -/
structure ReceiveInv (used : List UInt32) (log : List (UInt32 × UInt64)) (s : Session) :
    Prop where
  indexes : ∀ e ∈ s.epochs, e.localIndex ∈ used
  committed : ∀ p ∈ log, p.1 ∈ used
  windows : ∀ e ∈ s.epochs, Represents e.cipher.window.1 (accepted log e.localIndex)
  distinct : ∀ prev since, s.previous = some (prev, since) →
    prev.localIndex ≠ s.current.localIndex
  nodup : log.Nodup

section
variable {s' : Session} (hi : ReceiveInv used log s)
include hi

theorem ReceiveInv.commit {index : UInt32} {k : AeadKey} (h : s.Commits s' index k c) :
    ReceiveInv used (log ++ [(index, c)]) s' := by
  obtain ⟨e, he, w, rfl, -, hcheck, hepochs⟩ := h.epochs
  obtain ⟨hnew, hrep⟩ := Window.represents_commit (hi.windows e he) hcheck
  have hk := h.kept
  refine ⟨fun x hx => ?_, fun p hp => ?_, fun x hx => ?_, fun prev' since hp => ?_, ?_⟩
  · obtain ⟨y, hy, hsame⟩ := hk.epochs hx
    exact hsame.localIndex ▸ hi.indexes y hy
  · rcases List.mem_append.mp hp with hp | hp
    · exact hi.committed p hp
    · rw [List.mem_singleton.mp hp]
      exact hi.indexes e he
  · rcases hepochs x hx with rfl | ⟨hx, since, hother⟩
    · exact accepted_commit log e.localIndex c ▸ hrep
    have hne : x.localIndex ≠ e.localIndex := by
      rcases hother with ⟨rfl, hp⟩ | ⟨rfl, hp⟩
      · exact hi.distinct x since hp
      · exact (hi.distinct e since hp).symm
    rw [accepted_commit_of_ne _ hne]
    exact hi.windows x hx
  · obtain ⟨prev, hp, hsame⟩ := hk.previous prev' since hp
    rw [hsame.localIndex, hk.current.localIndex]
    exact hi.distinct prev since hp
  · rw [mem_accepted] at hnew
    refine List.nodup_append.mpr ⟨hi.nodup, List.nodup_singleton _, fun a ha b hb hab => ?_⟩
    rw [List.mem_singleton.mp hb] at hab
    exact hnew (hab ▸ ha)

theorem ReceiveInv.rotate (keys : SessionKeys) (l r : UInt32) (now : ℕ)
    (hnew : l ∉ used) : ReceiveInv (used ++ [l]) log (s.rotate keys l r now) := by
  have hcur : s.current.localIndex ∈ used := hi.indexes _ List.mem_cons_self
  refine ⟨fun e he => ?_, fun p hp => List.mem_append_left _ (hi.committed p hp), fun e he => ?_,
    fun prev since heq => ?_, hi.nodup⟩
  · rcases mem_epochs_rotate he with rfl | rfl
    · exact List.mem_append_right _ (List.mem_singleton.mpr rfl)
    · exact List.mem_append_left _ hcur
  · rcases mem_epochs_rotate he with rfl | rfl
    · -- Nothing was committed under the new index.
      have hempty : accepted log l = ∅ := by
        apply Finset.eq_empty_of_forall_notMem
        intro c hc
        exact hnew (hi.committed _ (mem_accepted.mp hc))
      show Represents ReplayWindow.new (accepted log l)
      rw [hempty]
      exact represents_new
    · exact hi.windows _ List.mem_cons_self
  · obtain ⟨rfl, -⟩ := Prod.mk.inj (Option.some.inj heq)
    rintro rfl
    exact hnew hcur

theorem ReceiveInv.of_frame (hidx : s'.current.localIndex = s.current.localIndex)
    (hwin : s'.current.cipher.window = s.current.cipher.window)
    (hprev : ∀ p, s'.previous = some p → s.previous = some p) : ReceiveInv used log s' := by
  have hepochs : ∀ e' ∈ s'.epochs, ∃ e ∈ s.epochs, e'.localIndex = e.localIndex ∧
      e'.cipher.window = e.cipher.window := by
    intro e' he'
    rcases mem_epochs he' with rfl | ⟨since, hp⟩
    · exact ⟨s.current, List.mem_cons_self, hidx, hwin⟩
    · exact ⟨e', previous_mem_epochs (hprev _ hp), rfl, rfl⟩
  refine ⟨fun e' he' => ?_, hi.committed, fun e' he' => ?_, fun prev since hp => ?_, hi.nodup⟩
  · obtain ⟨e, he, heq, -⟩ := hepochs e' he'
    exact heq ▸ hi.indexes e he
  · obtain ⟨e, he, heq, hwindow⟩ := hepochs e' he'
    rw [heq, hwindow]
    exact hi.windows e he
  · rw [hidx]
    exact hi.distinct prev since (hprev _ hp)

end

theorem receiveInv_apply (P : AeadImpl) (hi : ReceiveInv used log s) (op : Op)
    (hnew : ∀ i ∈ (rotations [op]).map Prod.snd, i ∉ used) :
    ReceiveInv (used ++ (rotations [op]).map Prod.snd) (log ++ commitsOf P s op)
      (s.apply P op) := by
  have hnil : ∀ {s'}, ReceiveInv used log s' → ReceiveInv (used ++ []) (log ++ []) s' := by simp
  cases op with
  | rotate keys l r now =>
    simpa [rotations, commitsOf, apply] using
      hi.rotate keys l r now (hnew l (by simp [rotations]))
  | «seal» inner =>
    refine hnil ?_
    simp only [apply]
    rcases s.seal_cases P inner with ⟨-, heq⟩ | ⟨-, -, heq⟩ | ⟨-, -, r, heq, -⟩ <;> rw [heq]
    · exact hi
    · exact hi
    · exact hi.of_frame rfl rfl fun _ h => h
  | close => exact hnil (hi.of_frame rfl rfl fun _ h => h)
  | expirePreviousEpoch overlap now =>
    refine hnil ?_
    simp only [apply]
    rcases s.expirePreviousEpoch_cases overlap now with heq | heq <;> rw [heq]
    · exact hi
    · exact hi.of_frame rfl rfl (by simp)
  | «open» header body =>
    refine (List.append_nil used).symm ▸ ?_
    simp only [commitsOf, apply, «open»]
    by_cases hclosed : s.closed = true
    · simpa [hclosed] using hi
    simp only [hclosed, Bool.false_eq_true, if_false]
    rcases s.openBody_cases P header body with ⟨e, heq⟩ | ⟨x, -, pt, s', -, -, hcommits, heq⟩ <;>
      rw [heq]
    · rwa [List.append_nil]
    · exact hi.commit hcommits

/-- A run keeps the invariant, if its rotations bring local indexes that are new and
pairwise distinct. -/
theorem receiveInv_after (P : AeadImpl) (ops : List Op) (hi : ReceiveInv used log s)
    (hfresh : (used ++ (rotations ops).map Prod.snd).Nodup) :
    ReceiveInv (used ++ (rotations ops).map Prod.snd) (log ++ commits P s ops)
      (s.after P ops) := by
  induction ops generalizing used log s with
  | nil => simpa [commits, trace] using hi
  | cons op ops ih =>
    rw [← List.singleton_append, rotations_append, List.map_append,
      ← List.append_assoc] at hfresh ⊢
    have hnew : ∀ i ∈ (rotations [op]).map Prod.snd, i ∉ used := by
      intro i hidx hmem
      have := List.nodup_append.mp (List.nodup_append.mp hfresh).1
      exact this.2.2 i hmem i hidx rfl
    have := ih (receiveInv_apply P hi op hnew) hfresh
    simpa [commits, trace] using this

/-! ### Datagrams that the peer did not seal -/

/-- What has been sealed: key, nonce, associated data, ciphertext, plaintext. -/
abbrev Sealings := AeadKey → Bytes → Bytes → Bytes → Bytes → Prop

/-- The receive keys of a session over a sequence of calls. Only the peer seals under
them. -/
def recvKeys (role : Role) (suite : Suite) (keys : SessionKeys) (ops : List Op) :
    List AeadKey :=
  ⟨suite, role.recvKey keys⟩ :: (rotations ops).map fun r => ⟨suite, role.recvKey r.1⟩

def SealedUnder (S : Sealings) (K : List AeadKey) (header : Header) (body : Bytes) : Prop :=
  ∃ k ∈ K, ∃ plaintext, S k (nonceFor header.counter) header.encode body plaintext

/-- The call opens a datagram that was not sealed under any of the keys `K`. -/
def Op.Forged (S : Sealings) (K : List AeadKey) : Op → Prop
  | .open header body => ¬ SealedUnder S K header body
  | _ => False

/-- Every live epoch receives with one of the keys `K`. -/
def ReceivesWith (K : List AeadKey) (s : Session) : Prop :=
  ∀ e ∈ s.epochs, e.cipher.recv ∈ K

/-- The AEAD opens, under each of the keys `K`, exactly what was sealed under it. -/
def OpensExactly (P : AeadImpl) (S : Sealings) (K : List AeadKey) : Prop :=
  ∀ k ∈ K, ∀ nonce aad ct pt, P.decryptInPlace k nonce aad ct = some pt ↔ S k nonce aad ct pt

/-- A datagram that was not sealed under a receive key fails to open, and the session stays
as it was. -/
theorem open_of_not_sealed {P : AeadImpl} {S : Sealings}
    (hexact : OpensExactly P S K) (hrecv : ReceivesWith K s) {header : Header} {body : Bytes}
    (hforged : ¬ SealedUnder S K header body) :
    (∃ e, (s.open P header body).1 = .error e) ∧ (s.open P header body).2 = s := by
  rcases s.open_cases P header body with ⟨e, heq⟩ | ⟨-, x, hx, pt, s', -, hdec, -⟩
  · rw [heq]
    exact ⟨⟨e, rfl⟩, rfl⟩
  · exact absurd ⟨_, hrecv x hx, pt, (hexact _ (hrecv x hx) _ _ _ _).mp hdec⟩ hforged

theorem receivesWith_apply (P : AeadImpl)
    (hs : ReceivesWith K s) (op : Op)
    (hrot : ∀ r ∈ rotations [op], (⟨s.suite, s.role.recvKey r.1⟩ : AeadKey) ∈ K) :
    ReceivesWith K (s.apply P op) := by
  have hkept : ∀ {s'}, s.Kept s' → ReceivesWith K s' := by
    intro s' hk e' he'
    obtain ⟨e, he, hsame⟩ := hk.epochs he'
    exact hsame.recv ▸ hs e he
  cases op with
  | rotate keys l r now =>
    intro e he
    rcases mem_epochs_rotate he with rfl | rfl
    · exact hrot (keys, l) (by simp [rotations])
    · exact hs _ List.mem_cons_self
  | close => exact hs
  | «seal» | «open» | expirePreviousEpoch =>
    exact hkept (s.kept_apply P (by simp [rotations]) (by simp))

theorem receivesWith_after (P : AeadImpl) (ops : List Op)
    (hs : ReceivesWith K s)
    (hrot : ∀ r ∈ rotations ops, (⟨s.suite, s.role.recvKey r.1⟩ : AeadKey) ∈ K) :
    ReceivesWith K (s.after P ops) := by
  induction ops generalizing s with
  | nil => exact hs
  | cons op ops ih =>
    rw [← List.singleton_append, rotations_append] at hrot
    obtain ⟨hrole, hsuite⟩ := role_suite_apply P s op
    refine ih (receivesWith_apply P hs op fun r hr => hrot r (List.mem_append_left _ hr)) ?_
    intro r hr
    rw [hrole, hsuite]
    exact hrot r (List.mem_append_right _ hr)

open Classical in
/-- Striking the forged calls from a sequence changes neither the session after it nor
what it delivers. -/
theorem after_filter_forged {P : AeadImpl} {S : Sealings}
    (hexact : OpensExactly P S K) (ops : List Op) (hs : ReceivesWith K s)
    (hrot : ∀ r ∈ rotations ops, (⟨s.suite, s.role.recvKey r.1⟩ : AeadKey) ∈ K) :
    s.after P (ops.filter fun op => ¬ op.Forged S K) = s.after P ops ∧
      delivered P s (ops.filter fun op => ¬ op.Forged S K) = delivered P s ops := by
  induction ops generalizing s with
  | nil => exact ⟨rfl, rfl⟩
  | cons op ops ih =>
    rw [← List.singleton_append, rotations_append] at hrot
    obtain ⟨hrole, hsuite⟩ := role_suite_apply P s op
    have hnext : ReceivesWith K (s.apply P op) :=
      receivesWith_apply P hs op fun r hr => hrot r (List.mem_append_left _ hr)
    obtain ⟨hafter, hdel⟩ := ih hnext (by
      intro r hr
      rw [hrole, hsuite]
      exact hrot r (List.mem_append_right _ hr))
    by_cases hf : op.Forged S K
    · -- The struck call changed nothing and delivered nothing.
      cases op with
      | «open» header body =>
        obtain ⟨⟨e, herr⟩, hsame⟩ := open_of_not_sealed hexact hs hf
        have hstay : s.apply P (.open header body) = s := hsame
        rw [hstay] at hafter hdel
        rw [List.filter_cons_of_neg (by simpa using hf)]
        refine ⟨by rw [after_cons, hstay]; exact hafter, ?_⟩
        simp only [delivered, trace, deliveries, herr, hstay, List.nil_append]
        exact hdel
      | _ => exact hf.elim
    · rw [List.filter_cons_of_pos (by simpa using hf)]
      refine ⟨hafter, ?_⟩
      simp only [delivered, trace]
      exact congrArg _ hdel

open Classical in
/-- Delivery over every sequence of calls on a new session whose local indexes are pairwise
distinct, with an AEAD that opens exactly what was sealed.

Each datagram makes `open` succeed at most once. A datagram that was not sealed under a
receive key of the session fails to open and leaves the session, so every window, as it
was. Striking all such datagrams from the sequence changes neither the session nor what
is delivered. -/
theorem open_at_most_once (P : AeadImpl) (S : Sealings) (id : SessionId) (role : Role)
    (suite : Suite) (keys : SessionKeys) (l r : UInt32) (ep : Option SocketAddr) (now : ℕ)
    (ops : List Op) (hidx : (l :: (rotations ops).map Prod.snd).Nodup)
    (hexact : OpensExactly P S (recvKeys role suite keys ops)) :
    let start := new id role suite keys l r ep now
    let K := recvKeys role suite keys ops
    ((delivered P start ops).map fun d => (d.header, d.body)).Nodup ∧
    (∀ before header body rest, ops = before ++ .open header body :: rest →
      ¬ SealedUnder S K header body →
      let s := start.after P before
      (∃ e, (s.open P header body).1 = .error e) ∧ (s.open P header body).2 = s) ∧
    start.after P (ops.filter fun op => ¬ op.Forged S K) = start.after P ops ∧
    delivered P start (ops.filter fun op => ¬ op.Forged S K) = delivered P start ops := by
  intro start K
  have hstart : ReceivesWith K start :=
    List.forall_mem_singleton.mpr List.mem_cons_self
  have hrot : ∀ x ∈ rotations ops, (⟨start.suite, start.role.recvKey x.1⟩ : AeadKey) ∈ K :=
    fun x hx => List.mem_cons_of_mem _ (List.mem_map.mpr ⟨x, hx, rfl⟩)
  refine ⟨?_, ?_, after_filter_forged hexact ops hstart hrot⟩
  · have hinit : ReceiveInv [l] [] start :=
      ⟨by simp [start, Session.new, Session.epochs], by simp,
        List.forall_mem_singleton.mpr represents_new, nofun, List.nodup_nil⟩
    have hinv := receiveInv_after P ops hinit hidx
    -- A delivery commits its index and counter, and no pair is committed twice.
    have hpairs := (delivered_sublist P start ops).nodup (by simpa using hinv.nodup)
    have hmap : (delivered P start ops).map (fun d => (d.header.receiverIndex, d.header.counter))
        = ((delivered P start ops).map fun d => (d.header, d.body)).map
            fun p => (p.1.receiverIndex, p.1.counter) := by
      simp
    rw [hmap] at hpairs
    exact List.Nodup.of_map _ hpairs
  · intro before header body rest hops hforged s
    refine open_of_not_sealed hexact (receivesWith_after P before hstart ?_) hforged
    intro x hx
    refine hrot x ?_
    rw [hops, rotations_append]
    exact List.mem_append_left _ hx

/-- A sealed datagram arrives twice, then a forged one, then the first again after a
rotation. Only the first arrival is delivered. -/
theorem open_at_most_once_replayed :
    let keys : SessionKeys := ⟨1, 2, 3, 0⟩
    let start := new 0 .initiator .aes256Gcm keys 10 20 none 0
    let header : Header := ⟨TYPE_DATA, 0, 10, 7⟩
    let body := transparentTag ⟨.aes256Gcm, 2⟩ (nonceFor 7) header.encode ++ [2]
    let ops : List Op := [.open header body, .open header body, .open header [0],
      .rotate ⟨4, 5, 6, 1⟩ 11 21 0, .open header body]
    (delivered transparentAead start ops).length = 1 ∧
      ((delivered transparentAead start ops).map fun d => (d.header, d.body)).Nodup := by
  intro keys start header body ops
  refine ⟨by decide +kernel, ?_⟩
  exact (open_at_most_once transparentAead
    (fun k nonce aad ct pt => transparentAead.encryptInPlace k nonce aad pt = some ct)
    0 .initiator .aes256Gcm keys 10 20 none 0 ops (by decide)
    (fun _ _ _ _ _ _ => transparentAead_decrypt_iff)).1

end Avon.Tunnel.Session
