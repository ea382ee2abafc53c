import Avon.Proofs.Tunnel.SessionSteps

/-!
# No nonce is used twice under one key

`NonceInv`: under the current key the session has used the nonces of `0, 1, …, value - 1`, each once
and in this order. So the counter has not wrapped, and the next nonce is new.
-/

set_option autoImplicit false

namespace Avon.Tunnel.Session

open Avon.Crypto Avon.Lib.Run

def sealCalls (P : AeadImpl) (s : Session) : Op → List AeadCall
  | .seal inner => (s.seal P inner).calls
  | _ => []

/-- The AEAD encryptions that a sequence of calls makes, in order. -/
def calls (P : AeadImpl) (s : Session) (ops : List Op) : List AeadCall :=
  trace (apply P) (sealCalls P) s ops

/-- The AEAD keys that the rotations of a sequence of calls bring for sending. -/
def sendKeys (role : Role) (suite : Suite) (ops : List Op) : List AeadKey :=
  (rotations ops).map fun r => ⟨suite, role.sendKey r.1⟩

/-- The encryptions under key `k` with the counters `0, …, n - 1`. -/
def callsBelow (k : AeadKey) (n : ℕ) : List AeadCall :=
  (List.range n).map fun i => ⟨k, nonceFor (UInt64.ofNat i)⟩

theorem callsBelow_succ (k : AeadKey) (n : ℕ) :
    callsBelow k (n + 1) = callsBelow k n ++ [⟨k, nonceFor (UInt64.ofNat n)⟩] := by
  simp [callsBelow, List.range_succ]

theorem call_notMem_callsBelow (k : AeadKey) (v : UInt64) :
    (⟨k, nonceFor v⟩ : AeadCall) ∉ callsBelow k v.toNat := by
  intro hmem
  obtain ⟨i, hi, heq⟩ := List.mem_map.mp hmem
  have hlt : i < v.toNat := List.mem_range.mp hi
  have hiv : UInt64.ofNat i = v := nonceFor_inj (AeadCall.mk.inj heq).2
  have hsize := v.toNat_lt
  have : i = v.toNat := by
    rw [← hiv, UInt64.toNat_ofNat']
    omega
  omega

/-- The invariant of a run that has used the send keys `used` and made the encryptions
`log`. -/
structure NonceInv (used : List AeadKey) (log : List AeadCall) (s : Session) : Prop where
  current : s.current.cipher.send ∈ used
  keys : ∀ c ∈ log, c.key ∈ used
  limit : s.current.cipher.counter.value ≤ SendCounter.LIMIT
  allocated : log.filter (fun c => c.key = s.current.cipher.send)
    = callsBelow s.current.cipher.send s.current.cipher.counter.value.toNat
  nodup : log.Nodup

variable {used : List AeadKey} {log : List AeadCall} {s : Session}

theorem NonceInv.of_send_eq {s' : Session}
    (hi : NonceInv used log s) (hsend : s'.current.cipher.send = s.current.cipher.send)
    (hctr : s'.current.cipher.counter = s.current.cipher.counter) : NonceInv used log s' where
  current := hsend ▸ hi.current
  keys := hi.keys
  limit := hctr ▸ hi.limit
  allocated := by rw [hsend, hctr]; exact hi.allocated
  nodup := hi.nodup

theorem NonceInv.spend
    (hi : NonceInv used log s) (hlt : s.current.cipher.counter.value < SendCounter.LIMIT) :
    NonceInv used
      (log ++ [⟨s.current.cipher.send, nonceFor s.current.cipher.counter.value⟩]) s.spend := by
  have hsucc := SendCounter.toNat_succ hlt
  refine ⟨hi.current, ?_, ?_, ?_, ?_⟩
  · intro c hc
    rcases List.mem_append.mp hc with hc | hc
    · exact hi.keys c hc
    · rw [List.mem_singleton.mp hc]
      exact hi.current
  · have hnat := UInt64.lt_iff_toNat_lt.mp hlt
    rw [UInt64.le_iff_toNat_le]
    show (s.current.cipher.counter.value + 1).toNat ≤ _
    omega
  · show List.filter (fun c => c.key = s.current.cipher.send) (log ++ [_])
      = callsBelow s.current.cipher.send (s.current.cipher.counter.value + 1).toNat
    rw [hsucc, callsBelow_succ, ← hi.allocated, List.filter_append]
    simp
  · refine List.nodup_append.mpr ⟨hi.nodup, List.nodup_singleton _, ?_⟩
    intro a ha b hb hab
    rw [List.mem_singleton.mp hb] at hab
    subst hab
    -- A repeat would be an encryption under the current key with a smaller counter.
    have hmem : (⟨s.current.cipher.send, nonceFor s.current.cipher.counter.value⟩ : AeadCall)
        ∈ log.filter (fun c => c.key = s.current.cipher.send) :=
      List.mem_filter.mpr ⟨ha, by simp⟩
    rw [hi.allocated] at hmem
    exact call_notMem_callsBelow _ _ hmem

theorem NonceInv.rotate
    (hi : NonceInv used log s) (keys : SessionKeys) (l r : UInt32) (now : ℕ)
    (hnew : (⟨s.suite, s.role.sendKey keys⟩ : AeadKey) ∉ used) :
    NonceInv (used ++ [⟨s.suite, s.role.sendKey keys⟩]) log (s.rotate keys l r now) := by
  refine ⟨?_, fun c hc => List.mem_append_left _ (hi.keys c hc), ?_, ?_, hi.nodup⟩
  · exact List.mem_append_right _ (List.mem_singleton.mpr rfl)
  · exact UInt64.le_iff_toNat_le.mpr (Nat.zero_le _)
  show log.filter (fun c => c.key = ⟨s.suite, s.role.sendKey keys⟩) = []
  rw [List.filter_eq_nil_iff]
  intro c hc heq
  have hkey : c.key = ⟨s.suite, s.role.sendKey keys⟩ := by simpa using heq
  exact hnew (hkey ▸ hi.keys c hc)

theorem nonceInv_apply (P : AeadImpl)
    (hi : NonceInv used log s) (op : Op)
    (hnew : ∀ k ∈ sendKeys s.role s.suite [op], k ∉ used) :
    NonceInv (used ++ sendKeys s.role s.suite [op]) (log ++ sealCalls P s op)
      (s.apply P op) := by
  have hnil : ∀ {s'}, NonceInv used log s' → NonceInv (used ++ []) (log ++ []) s' := by simp
  cases op with
  | «seal» inner =>
    refine (List.append_nil used).symm ▸ ?_
    simp only [sealCalls, apply]
    rcases s.seal_cases P inner with ⟨-, heq⟩ | ⟨-, -, heq⟩ | ⟨-, hlt, r, heq, -⟩ <;> rw [heq]
    · rwa [List.append_nil]
    · rwa [List.append_nil]
    · exact hi.spend hlt
  | rotate keys l r now =>
    simp only [sealCalls, List.append_nil]
    exact hi.rotate keys l r now (hnew _ (by simp [sendKeys, rotations]))
  | «open» header body =>
    obtain ⟨hk, hctr⟩ := s.kept_open P header body
    exact hnil (hi.of_send_eq hk.current.send hctr)
  | expirePreviousEpoch overlap now =>
    refine hnil ?_
    simp only [apply]
    rcases s.expirePreviousEpoch_cases overlap now with heq | heq <;> rw [heq]
    · exact hi
    · exact hi.of_send_eq rfl rfl
  | close => exact hnil (hi.of_send_eq rfl rfl)

/-- A run keeps the invariant, if its rotations bring send keys that are new and pairwise
distinct. -/
theorem nonceInv_after (P : AeadImpl) (ops : List Op) (hi : NonceInv used log s)
    (hfresh : (used ++ sendKeys s.role s.suite ops).Nodup) :
    NonceInv (used ++ sendKeys s.role s.suite ops) (log ++ calls P s ops) (s.after P ops) := by
  induction ops generalizing used log s with
  | nil => simpa [sendKeys, calls, trace] using hi
  | cons op ops ih =>
    have hsplit : sendKeys s.role s.suite (op :: ops)
        = sendKeys s.role s.suite [op] ++ sendKeys s.role s.suite ops := by
      rw [← List.singleton_append, sendKeys, rotations_append, List.map_append]
      rfl
    rw [hsplit, ← List.append_assoc] at hfresh ⊢
    have hnew : ∀ k ∈ sendKeys s.role s.suite [op], k ∉ used := by
      intro k hk hmem
      have := List.nodup_append.mp (List.nodup_append.mp hfresh).1
      exact this.2.2 k hmem k hk rfl
    obtain ⟨hrole, hsuite⟩ := role_suite_apply P s op
    have hstep := nonceInv_apply P hi op hnew
    have := ih hstep (by rw [hrole, hsuite]; exact hfresh)
    rw [hrole, hsuite] at this
    simpa [calls, trace] using this

theorem seal_fails_of_limit (P : AeadImpl)
    (h : SendCounter.LIMIT ≤ s.current.cipher.counter.value) (inner : Inner) :
    ∃ e, (s.seal P inner).result = .error e := by
  rcases s.seal_cases P inner with ⟨-, heq⟩ | ⟨-, -, heq⟩ | ⟨-, hlt, -⟩
  · exact ⟨_, by rw [heq]⟩
  · exact ⟨_, by rw [heq]⟩
  · exact absurd hlt (UInt64.not_lt.mpr h)

theorem limit_of_seal_exhausted (P : AeadImpl) {inner : Inner}
    (h : (s.seal P inner).result = .error (.crypto .counterExhausted)) :
    SendCounter.LIMIT ≤ s.current.cipher.counter.value := by
  rcases s.seal_cases P inner with ⟨-, heq⟩ | ⟨-, hge, -⟩ | ⟨-, -, r, heq, hr⟩
  · rw [heq] at h
    cases h
  · exact hge
  rw [heq] at h
  rcases hr with rfl | ⟨d, rfl, -⟩ <;> cases h

theorem packetsSent_eq {c : SessionCipher} (h : c.counter.value ≤ SendCounter.LIMIT) :
    c.packetsSent = c.counter.value := by
  unfold SessionCipher.packetsSent SendCounter.remaining
  rw [if_pos h]
  apply UInt64.toNat_inj.mp
  have hnat : c.counter.value.toNat ≤ 18446744073709551614 := UInt64.le_iff_toNat_le.mp h
  have hsub : (SendCounter.LIMIT - c.counter.value).toNat
      = 18446744073709551614 - c.counter.value.toNat := UInt64.toNat_sub_of_le _ _ h
  have hle : SendCounter.LIMIT - c.counter.value ≤ 18446744073709551615 - 1 := by
    rw [UInt64.le_iff_toNat_le, hsub]
    show _ ≤ 18446744073709551614
    omega
  rw [UInt64.toNat_sub_of_le _ _ hle, hsub]
  show 18446744073709551614 - (18446744073709551614 - c.counter.value.toNat) = _
  omega

theorem nonceInv_new_after (P : AeadImpl) (id : SessionId) (role : Role) (suite : Suite)
    (keys : SessionKeys) (l r : UInt32) (ep : Option SocketAddr) (now : ℕ) (ops : List Op)
    (hfresh : ((⟨suite, role.sendKey keys⟩ : AeadKey) :: sendKeys role suite ops).Nodup) :
    NonceInv (⟨suite, role.sendKey keys⟩ :: sendKeys role suite ops)
      (calls P (new id role suite keys l r ep now) ops)
      ((new id role suite keys l r ep now).after P ops) := by
  have hinit : NonceInv [⟨suite, role.sendKey keys⟩] [] (new id role suite keys l r ep now) :=
    ⟨List.mem_singleton.mpr rfl, by simp, UInt64.le_iff_toNat_le.mpr (Nat.zero_le _), rfl,
      List.nodup_nil⟩
  exact nonceInv_after P ops hinit hfresh

/-- Nonces over every sequence of calls on a new session whose rotations bring send keys
not used before.

No two encryptions use the same key and nonce. Under the current key, the session has
used the counters `0, …, n - 1`, each once and in this order, and `n` is within the limit:
the counter has not wrapped. `packets_sent_this_epoch` is the number of these counters.
Once a seal has reported exhaustion, every later seal under the same key fails. -/
theorem seal_nonces_unique (P : AeadImpl) (id : SessionId) (role : Role) (suite : Suite)
    (keys : SessionKeys) (l r : UInt32) (ep : Option SocketAddr) (now : ℕ) (ops : List Op)
    (hfresh : ((⟨suite, role.sendKey keys⟩ : AeadKey) :: sendKeys role suite ops).Nodup) :
    let start := new id role suite keys l r ep now
    let s := start.after P ops
    let current := (calls P start ops).filter fun c => c.key = s.current.cipher.send
    (calls P start ops).Nodup ∧
    (∃ n : ℕ, n ≤ SendCounter.LIMIT.toNat ∧ s.current.cipher.counter.value.toNat = n ∧
      current = callsBelow s.current.cipher.send n) ∧
    s.packetsSentThisEpoch.toNat = current.length ∧
    (∀ before between rest i j, ops = before ++ .seal i :: (between ++ .seal j :: rest) →
      let s₁ := start.after P before
      let s₂ := start.after P (before ++ .seal i :: between)
      (s₁.seal P i).result = .error (.crypto .counterExhausted) →
      s₂.current.cipher.send = s₁.current.cipher.send →
      ∃ e, (s₂.seal P j).result = .error e) := by
  intro start s current
  have hinv := nonceInv_new_after P id role suite keys l r ep now ops hfresh
  refine ⟨hinv.nodup, ⟨_, UInt64.le_iff_toNat_le.mp hinv.limit, rfl, hinv.allocated⟩, ?_, ?_⟩
  · show (s.current.cipher.packetsSent).toNat = (List.filter _ _).length
    rw [packetsSent_eq hinv.limit, hinv.allocated]
    simp [callsBelow]
  intro before between rest i j hops s₁ s₂ hexh hkey
  -- Both prefixes of the sequence are fresh as well.
  have hearlier : ∀ xs ys, ops = xs ++ ys →
      ((⟨suite, role.sendKey keys⟩ : AeadKey) :: sendKeys role suite xs).Nodup := by
    intro xs ys hsplit
    refine hfresh.sublist (List.Sublist.cons_cons _ ?_)
    rw [hsplit, sendKeys, sendKeys, rotations_append, List.map_append]
    exact List.sublist_append_left _ _
  have h₁ := nonceInv_new_after P id role suite keys l r ep now before
    (hearlier _ _ hops)
  have h₂ := nonceInv_new_after P id role suite keys l r ep now (before ++ .seal i :: between)
    (hearlier _ (.seal j :: rest) (by simp [hops]))
  -- The encryptions under this key only grow, and at the first seal they had reached
  -- the limit.
  have hgrow : s₁.current.cipher.counter.value.toNat
      ≤ s₂.current.cipher.counter.value.toNat := by
    have hlen₁ := congrArg List.length h₁.allocated
    have hlen₂ := congrArg List.length h₂.allocated
    simp only [callsBelow, List.length_map, List.length_range] at hlen₁ hlen₂
    rw [← hlen₁, ← hlen₂]
    refine List.Sublist.length_le ?_
    show List.Sublist (List.filter (fun c : AeadCall => c.key = s₁.current.cipher.send) _)
      (List.filter (fun c : AeadCall => c.key = s₂.current.cipher.send) _)
    rw [hkey]
    refine List.Sublist.filter _ ?_
    simp [calls]
  have hlimit := UInt64.le_iff_toNat_le.mp (limit_of_seal_exhausted P hexh)
  exact seal_fails_of_limit P (UInt64.le_iff_toNat_le.mpr (Nat.le_trans hlimit hgrow)) j

/-- Two seals, a rotation to other keys, and a third seal: three encryptions, all with
different keys or nonces. -/
theorem seal_nonces_unique_across_rotation :
    let keys : SessionKeys := ⟨1, 2, 3, 0⟩
    let start := new 0 .initiator .aes256Gcm keys 10 20 none 0
    let ops : List Op := [.seal .keepalive, .seal .keepalive, .rotate ⟨4, 5, 6, 1⟩ 11 21 0,
      .seal .keepalive]
    (calls transparentAead start ops).length = 3 ∧ (calls transparentAead start ops).Nodup := by
  refine ⟨by decide, ?_⟩
  exact (seal_nonces_unique transparentAead 0 .initiator .aes256Gcm ⟨1, 2, 3, 0⟩ 10 20 none 0
    [.seal .keepalive, .seal .keepalive, .rotate ⟨4, 5, 6, 1⟩ 11 21 0, .seal .keepalive]
    (by decide)).1

end Avon.Tunnel.Session
