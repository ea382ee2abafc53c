import Avon.Proofs.Tunnel.Receive
import Avon.Tunnel.Pair

/-!
# What comes out of a tunnel is what went in

Over every run, the epochs of an end fit the plan (`EndInv`), each datagram is sealed for its epoch
of the plan (`Carries`), no two have the same epoch and counter, and the windows stand for the
counters of the accepted datagrams (`Logged`).
-/

set_option autoImplicit false

namespace Avon.Tunnel.Pair

open Avon.Crypto Avon.Crypto.ReplayWindow Avon.Lib.Run Avon.Lib.SlidingWindow
open Function (update_self update_of_ne)

structure Fits (suite : Suite) (r : Role) (plan : EpochPlan) (e : Epoch) : Prop where
  localIndex : e.localIndex = plan.index r
  remoteIndex : e.remoteIndex = plan.index r.peer
  send : e.cipher.send = ⟨suite, r.sendKey plan.keys⟩
  recv : e.cipher.recv = ⟨suite, r.recvKey plan.keys⟩

/-- End `r` has the epoch at position `n` of the plan, and perhaps the one before. -/
structure EndInv (suite : Suite) (plans : List EpochPlan) (r : Role) (n : ℕ) (a : Session) :
    Prop where
  roleEq : a.role = r
  suiteEq : a.suite = suite
  notClosed : a.closed = false
  current : ∃ plan, plans[n]? = some plan ∧ Fits suite r plan a.current
  previous : ∀ prev since, a.previous = some (prev, since) →
    ∃ m plan, n = m + 1 ∧ plans[m]? = some plan ∧ Fits suite r plan prev

/-- The bytes of a datagram are sealed for its epoch in the plan. -/
structure CarriedBy (P : AeadImpl) (suite : Suite) (d : Datagram) (plan : EpochPlan)
    (header : Header) : Prop where
  carries : Tunnel.Carries P d.bytes ⟨suite, d.sender.sendKey plan.keys⟩ header d.inner
  index : header.receiverIndex = plan.index d.sender.peer
  counter : header.counter = d.counter

def Carries (P : AeadImpl) (suite : Suite) (plans : List EpochPlan) (d : Datagram) : Prop :=
  ∃ plan header, plans[d.epoch]? = some plan ∧ CarriedBy P suite d plan header

structure Sound (P : AeadImpl) (suite : Suite) (s : Pair) : Prop where
  ends : ∀ r, EndInv suite s.plans r (s.position r) (s.ends r)
  fresh : ∀ r, (s.plans.map (·.index r)).Nodup
  carried : ∀ d ∈ s.sent, Carries P suite s.plans d
  spent : ∀ d ∈ s.sent, d.epoch < s.position d.sender ∨ d.epoch = s.position d.sender ∧
    d.counter.toNat < (s.ends d.sender).current.cipher.counter.value.toNat
  unique : ∀ d ∈ s.sent, ∀ d' ∈ s.sent, d.sender = d'.sender → d.epoch = d'.epoch →
    d.counter = d'.counter → d = d'

def used (s : Pair) (r : Role) : List UInt32 :=
  (s.plans.take (s.position r + 1)).map (·.index r)

/-- The windows of end `r` stand for the datagrams that it has accepted. -/
structure Logged (s : Pair) (r : Role) (log : List (UInt32 × UInt64)) : Prop where
  receive : Session.ReceiveInv (s.used r) log (s.ends r)
  accepted : ∀ n plan c, s.plans[n]? = some plan →
    ((plan.index r, c) ∈ log ↔ ∃ d ∈ s.accepted, d.sender = r.peer ∧ d.epoch = n ∧ d.counter = c)

structure Inv (P : AeadImpl) (suite : Suite) (s : Pair) : Prop extends Sound P suite s where
  logged : ∀ r, ∃ log, Logged s r log
  taken : ∀ d ∈ s.accepted, d ∈ s.sent ∧ d ∈ s.delivered

variable {P : AeadImpl} {suite : Suite} {s : Pair} {r : Role} {d : Datagram}

variable {n : ℕ} {plans : List EpochPlan} {a : Session} {plan : EpochPlan}
  {log : List (UInt32 × UInt64)}

theorem index_inj (h : ∀ r, (s.plans.map (·.index r)).Nodup) {m : ℕ} {p q : EpochPlan}
    (hm : s.plans[m]? = some p) (hn : s.plans[n]? = some q) (heq : p.index r = q.index r) :
    m = n := by
  obtain ⟨hlt, -⟩ := List.getElem?_eq_some_iff.mp hm
  refine (List.getElem?_inj (by simpa using hlt) (h r)).mp ?_
  simp only [List.getElem?_map, hm, hn, Option.map_some, heq]

/-! ### Calls that keep the epochs -/

theorem Fits.same {e e' : Epoch} (h : Fits suite r plan e) (hs : e.Same e') :
    Fits suite r plan e' :=
  ⟨hs.localIndex.trans h.1, hs.remoteIndex.trans h.2, hs.send.trans h.3, hs.recv.trans h.4⟩

theorem EndInv.kept {b : Session}
    (h : EndInv suite plans r n a) (hk : a.Kept b) : EndInv suite plans r n b := by
  refine ⟨hk.role.trans h.roleEq, hk.suite.trans h.suiteEq, hk.closed.trans h.notClosed, ?_, ?_⟩
  · obtain ⟨plan, hplan, hfits⟩ := h.current
    exact ⟨plan, hplan, hfits.same hk.current⟩
  intro prev' since hprev'
  obtain ⟨prev, hprev, hsame⟩ := hk.previous prev' since hprev'
  obtain ⟨m, plan, hn, hplan, hfits⟩ := h.previous prev since hprev
  exact ⟨m, plan, hn, hplan, hfits.same hsame⟩

theorem Sound.kept (h : Sound P suite s) (hk : (s.ends r).Kept a)
    (hcounter : (s.ends r).current.cipher.counter.value.toNat ≤
      a.current.cipher.counter.value.toNat) :
    Sound P suite { s with ends := Function.update s.ends r a } := by
  refine ⟨fun r' => ?_, h.fresh, h.carried, fun d hd => ?_, h.unique⟩
  · by_cases hr : r' = r
    · subst hr
      simpa only [update_self] using (h.ends r').kept hk
    · simpa only [update_of_ne hr] using h.ends r'
  refine (h.spent d hd).imp_right ?_
  rintro ⟨hepoch, hlt⟩
  refine ⟨hepoch, ?_⟩
  by_cases hr : d.sender = r
  · rw [hr] at hlt
    simp only [hr, update_self]
    exact Nat.lt_of_lt_of_le hlt hcounter
  · simpa only [update_of_ne hr] using hlt

theorem EndInv.rotate (h : EndInv suite plans r n a) (hplan : plans[n + 1]? = some plan) (now : ℕ) :
    EndInv suite plans r (n + 1) (a.rotate plan.keys (plan.index r) (plan.index r.peer) now) where
  roleEq := h.roleEq
  suiteEq := h.suiteEq
  notClosed := h.notClosed
  current := by
    refine ⟨plan, hplan, rfl, rfl, ?_, ?_⟩ <;>
      simp only [Session.rotate, SessionCipher.new, h.roleEq, h.suiteEq]
  previous := by
    intro prev since hprev
    obtain ⟨rfl, -⟩ := Prod.mk.inj (Option.some.inj hprev)
    obtain ⟨q, hq, hfits⟩ := h.current
    exact ⟨n, q, rfl, hq, hfits⟩

/-! ### What one end does -/

/-- What sealing does to the counter, and to the wire. -/
theorem seal_carried (hplan : Fits suite r plan (s.ends r).current) (inner : Inner) :
    (s.ends r).current.cipher.counter.value.toNat ≤
        ((s.ends r).seal P inner).session.current.cipher.counter.value.toNat ∧
      ∀ bytes, ((s.ends r).seal P inner).result = .ok bytes →
        (s.ends r).current.cipher.counter.value.toNat <
          ((s.ends r).seal P inner).session.current.cipher.counter.value.toNat ∧
        ∃ header, CarriedBy P suite ⟨r, s.position r, (s.ends r).current.cipher.counter.value,
          inner, bytes⟩ plan header := by
  rcases (s.ends r).seal_cases P inner with
    ⟨-, heq⟩ | ⟨-, -, heq⟩ | ⟨-, hlt, result, heq, hresult⟩ <;> rw [heq]
  · exact ⟨Nat.le_refl _, nofun⟩
  · exact ⟨Nat.le_refl _, nofun⟩
  have hnext := SendCounter.toNat_succ hlt
  refine ⟨Nat.le.intro hnext.symm, fun bytes hbytes => ?_⟩
  refine ⟨Nat.lt_of_lt_of_eq (Nat.lt_succ_self _) hnext.symm, ?_⟩
  rcases hresult with rfl | ⟨d, rfl, hcarries⟩
  · cases hbytes
  cases hbytes
  exact ⟨_, hplan.send ▸ hcarries, hplan.remoteIndex, rfl⟩

/-- An end that has the index of a datagram has its epoch, and receives with its key. -/
theorem Sound.receives (h : Sound P suite s) {header : Header}
    (hplan : s.plans[d.epoch]? = some plan) (hc : CarriedBy P suite d plan header)
    {q : EpochPlan} {e : Epoch}
    (hq : s.plans[n]? = some q) (hfits : Fits suite d.sender.peer q e)
    (hindex : e.localIndex = header.receiverIndex) :
    e.cipher.recv = ⟨suite, d.sender.sendKey plan.keys⟩ := by
  have heq : q.index d.sender.peer = plan.index d.sender.peer :=
    hfits.localIndex.symm.trans (hindex.trans hc.index)
  obtain rfl := index_inj h.fresh hq hplan heq
  obtain rfl := Option.some.inj (hq.symm.trans hplan)
  rw [hfits.recv, Role.recvKey_peer]

/-! ### The windows -/

theorem getElem?_append_plan
    (h : plans[n]? = some plan) (new : EpochPlan) : (plans ++ [new])[n]? = some plan := by
  rw [List.getElem?_append_left (List.getElem?_eq_some_iff.mp h).1, h]

theorem Logged.call {r' : Role} (h : Logged s r' log) (r : Role)
    {op : Session.Op} (hrot : Session.rotations [op] = [])
    (hcommits : Session.commitsOf P (s.ends r) op = []) : Logged (s.call P r op) r' log := by
  refine ⟨?_, h.accepted⟩
  by_cases hr : r' = r
  · subst hr
    have hnext := Session.receiveInv_apply P h.receive op (by simp [hrot])
    rw [hrot, hcommits, List.map_nil, List.append_nil, List.append_nil] at hnext
    simpa only [Pair.call, used, update_self] using hnext
  · simpa only [Pair.call, used, update_of_ne hr] using h.receive

theorem index_not_mem_used (h : Sound P suite s)
    (hplan : s.plans[s.position r + 1]? = some plan) : plan.index r ∉ s.used r := by
  intro hmem
  obtain ⟨q, hq, heq⟩ := List.mem_map.mp hmem
  obtain ⟨n, hn⟩ := List.mem_iff_getElem?.mp hq
  rw [List.getElem?_take] at hn
  split at hn
  · next hlt =>
    have := index_inj h.fresh hn hplan heq
    omega
  · cases hn

/-! ### Steps -/

theorem Inv.seal (h : Inv P suite s) (r : Role) (inner : Inner) :
    Inv P suite (s.sealStep P r inner) := by
  obtain ⟨plan, hplan, hfits⟩ := (h.ends r).current
  obtain ⟨hcounter, hsealed⟩ := seal_carried (P := P) hfits inner
  have hsound : Sound P suite (s.call P r (.seal inner)) :=
    h.toSound.kept ((s.ends r).kept_apply P rfl nofun) hcounter
  have hlogged : ∀ r', ∃ log, Logged (s.call P r (.seal inner)) r' log := by
    intro r'
    obtain ⟨log, hlog⟩ := h.logged r'
    exact ⟨log, hlog.call r rfl rfl⟩
  unfold sealStep
  split
  · exact ⟨hsound, hlogged, h.taken⟩
  next bytes hbytes =>
  obtain ⟨hspent, header, hcarried⟩ := hsealed bytes hbytes
  have hcounter : ((s.call P r (.seal inner)).ends r).current.cipher.counter.value =
      ((s.ends r).seal P inner).session.current.cipher.counter.value := by
    simp only [Pair.call, update_self, Session.apply]
  refine ⟨⟨hsound.ends, hsound.fresh, ?_, ?_, ?_⟩, ?_, ?_⟩
  · intro d hd
    rcases List.mem_append.mp hd with hd | hd
    · exact hsound.carried d hd
    · cases List.mem_singleton.mp hd
      exact ⟨plan, header, hplan, hcarried⟩
  · intro d hd
    rcases List.mem_append.mp hd with hd | hd
    · exact hsound.spent d hd
    · cases List.mem_singleton.mp hd
      exact .inr ⟨rfl, hcounter ▸ hspent⟩
  · -- The new counter is above those that the end has spent in this epoch.
    have hnew : ∀ d ∈ s.sent, d.sender = r → d.epoch = s.position r →
        d.counter ≠ (s.ends r).current.cipher.counter.value := by
      rintro d hd rfl hepoch heq
      rcases h.spent d hd with hlt | ⟨-, hlt⟩
      · exact absurd hlt (by omega)
      · rw [heq] at hlt
        exact Nat.lt_irrefl _ hlt
    intro d hd d' hd' hsender hepoch hcounters
    rcases List.mem_append.mp hd with hd | hd <;> rcases List.mem_append.mp hd' with hd' | hd'
    · exact h.unique d hd d' hd' hsender hepoch hcounters
    · cases List.mem_singleton.mp hd'
      exact absurd hcounters (hnew d hd hsender hepoch)
    · cases List.mem_singleton.mp hd
      exact absurd hcounters.symm (hnew d' hd' hsender.symm hepoch.symm)
    · rw [List.mem_singleton.mp hd, List.mem_singleton.mp hd']
  · intro r'
    obtain ⟨log, hlog⟩ := hlogged r'
    exact ⟨log, hlog.receive, hlog.accepted⟩
  · intro d hd
    exact ⟨List.mem_append_left _ (h.taken d hd).1, (h.taken d hd).2⟩

theorem Inv.expire (h : Inv P suite s) (r : Role) (overlap now : ℕ) :
    Inv P suite (s.call P r (.expirePreviousEpoch overlap now)) := by
  have hcounter : (s.ends r).current.cipher.counter.value.toNat ≤
      ((s.ends r).expirePreviousEpoch overlap now).2.current.cipher.counter.value.toNat := by
    rcases (s.ends r).expirePreviousEpoch_cases overlap now with heq | heq <;> rw [heq]
  refine ⟨h.toSound.kept ((s.ends r).kept_expirePreviousEpoch overlap now) hcounter,
    fun r' => ?_, h.taken⟩
  obtain ⟨log, hlog⟩ := h.logged r'
  exact ⟨log, hlog.call r rfl rfl⟩

theorem Inv.agree (h : Inv P suite s)
    (hfresh : ∀ r, plan.index r ∉ s.plans.map (·.index r)) :
    Inv P suite { s with plans := s.plans ++ [plan] } := by
  have hused : ∀ r, used { s with plans := s.plans ++ [plan] } r = s.used r := by
    intro r
    obtain ⟨q, hq, -⟩ := (h.ends r).current
    have hlt := (List.getElem?_eq_some_iff.mp hq).1
    simp only [used]
    rw [List.take_append_of_le_length hlt]
  refine ⟨⟨fun r => ?_, fun r => ?_, ?_, h.spent, h.unique⟩, fun r => ?_, h.taken⟩
  · obtain ⟨q, hq, hfits⟩ := (h.ends r).current
    refine ⟨(h.ends r).roleEq, (h.ends r).suiteEq, (h.ends r).notClosed,
      ⟨q, getElem?_append_plan hq plan, hfits⟩, ?_⟩
    intro prev since hprev
    obtain ⟨n, q, hpos, hq, hfits⟩ := (h.ends r).previous prev since hprev
    exact ⟨n, q, hpos, getElem?_append_plan hq plan, hfits⟩
  · rw [List.map_append]
    refine List.nodup_append.mpr ⟨h.fresh r, List.nodup_singleton _, ?_⟩
    intro i hi j hj
    rw [List.map_singleton, List.mem_singleton] at hj
    rintro rfl
    exact hfresh r (hj ▸ hi)
  · intro d hd
    obtain ⟨q, header, hq, hcarried⟩ := h.carried d hd
    exact ⟨q, header, getElem?_append_plan hq plan, hcarried⟩
  · obtain ⟨log, hlog⟩ := h.logged r
    refine ⟨log, (hused r).symm ▸ hlog.receive, fun n q c hq => ?_⟩
    simp only at hq
    rw [List.getElem?_append] at hq
    split at hq
    · exact hlog.accepted n q c hq
    next hge =>
    -- Nothing has been accepted in the new epoch.
    obtain rfl : plan = q := by
      rw [List.getElem?_singleton] at hq
      split at hq
      · exact Option.some.inj hq
      · cases hq
    refine iff_of_false (fun hmem => ?_) ?_
    · obtain ⟨q, hq, heq⟩ := List.mem_map.mp (hlog.receive.committed _ hmem)
      exact hfresh r (List.mem_map.mpr ⟨q, List.mem_of_mem_take hq, heq⟩)
    rintro ⟨d, hd, -, hepoch, -⟩
    obtain ⟨q, _, hq, -⟩ := h.carried d (h.taken d hd).1
    exact hge (hepoch ▸ (List.getElem?_eq_some_iff.mp hq).1)

theorem Inv.rotate (h : Inv P suite s) (r : Role)
    (hplan : s.plans[s.position r + 1]? = some plan) (now : ℕ) :
    Inv P suite { s.call P r (.rotate plan.keys (plan.index r) (plan.index r.peer) now) with
      position := Function.update s.position r (s.position r + 1) } := by
  refine ⟨⟨fun r' => ?_, h.fresh, h.carried, fun d hd => ?_, h.unique⟩, fun r' => ?_, h.taken⟩
  · by_cases hr : r' = r
    · subst hr
      simpa only [Pair.call, update_self, Session.apply] using (h.ends r').rotate hplan now
    · simpa only [Pair.call, update_of_ne hr] using h.ends r'
  · by_cases hr : d.sender = r
    · simp only [hr, update_self]
      rcases h.spent d hd with hlt | ⟨hepoch, -⟩ <;> rw [hr] at *
      · exact .inl (by omega)
      · exact .inl (by omega)
    · simp only [Pair.call, update_of_ne hr]
      exact h.spent d hd
  · obtain ⟨log, hlog⟩ := h.logged r'
    refine ⟨log, ?_, hlog.accepted⟩
    by_cases hr : r' = r
    · subst hr
      have hnext := hlog.receive.rotate plan.keys (plan.index r') (plan.index r'.peer) now
        (index_not_mem_used h.toSound hplan)
      have hused : s.used r' ++ [plan.index r'] =
          (s.plans.take (s.position r' + 1 + 1)).map (·.index r') := by
        rw [List.take_add_one (i := s.position r' + 1), hplan]
        simp [used]
      simpa only [Pair.call, used, update_self, Session.apply, ← hused] using hnext
    · simpa only [Pair.call, used, update_of_ne hr] using hlog.receive

/-- What the receiver of a datagram does with it: it refuses it and stays as it was, or it opens it
to what was sealed and commits its counter. -/
theorem Sound.open_cases (h : Sound P suite s) (hP : P.Correct) {header : Header}
    {body : Bytes} (hplan : s.plans[d.epoch]? = some plan) (hc : CarriedBy P suite d plan header)
    (henc : P.encryptInPlace ⟨suite, d.sender.sendKey plan.keys⟩ (nonceFor header.counter)
      header.encode d.inner.encode = some body) :
    (∃ e, ((s.ends d.sender.peer).open P header body) = (.error e, s.ends d.sender.peer)) ∨
      ∃ a, (s.ends d.sender.peer).Commits a header.receiverIndex
          ⟨suite, d.sender.sendKey plan.keys⟩ header.counter ∧
        (s.ends d.sender.peer).open P header body = (.ok d.inner, a) := by
  have hend := h.ends d.sender.peer
  refine (Session.open_sealed_cases hP henc fun x hx hindex _ _ => ?_).imp_right
    fun ⟨a, _, hcommits, heq⟩ => ⟨a, hcommits, heq⟩
  rcases Session.mem_epochs hx with rfl | ⟨since, hp⟩
  · obtain ⟨q, hq, hfits⟩ := hend.current
    exact h.receives hplan hc hq hfits hindex
  · obtain ⟨n, q, -, hq, hfits⟩ := hend.previous x since hp
    exact h.receives hplan hc hq hfits hindex

theorem Logged.accept (h : Sound P suite s) (hlog : Logged s r log)
    (hplan : s.plans[d.epoch]? = some plan) (hr : d.sender.peer = r) (n : ℕ)
    (q : EpochPlan) (c : UInt64) (hq : s.plans[n]? = some q) :
    (q.index r, c) ∈ log ++ [(plan.index r, d.counter)] ↔
      ∃ d' ∈ s.accepted ++ [d], d'.sender = r.peer ∧ d'.epoch = n ∧ d'.counter = c := by
  have hsender : d.sender = r.peer := by rw [← hr, Role.peer_peer]
  rw [List.mem_append, hlog.accepted n q c hq, List.mem_singleton, Prod.mk.injEq]
  constructor
  · rintro (⟨d', hd', hrest⟩ | ⟨hindex, rfl⟩)
    · exact ⟨d', List.mem_append_left _ hd', hrest⟩
    · refine ⟨d, List.mem_append_right _ (List.mem_singleton.mpr rfl), hsender, ?_, rfl⟩
      exact index_inj h.fresh hplan hq hindex.symm
  rintro ⟨d', hd', hrest⟩
  rcases List.mem_append.mp hd' with hd' | hd'
  · exact .inl ⟨d', hd', hrest⟩
  cases List.mem_singleton.mp hd'
  obtain ⟨-, rfl, rfl⟩ := hrest
  cases Option.some.inj (hplan.symm.trans hq)
  exact .inr ⟨rfl, rfl⟩

theorem Inv.deliver (h : Inv P suite s) (hP : P.Correct) (hd : d ∈ s.sent) :
    Inv P suite (s.deliverStep P d) := by
  obtain ⟨plan, header, hplan, hc⟩ := h.carried d hd
  obtain ⟨hdata, body, henc, hbytes⟩ := hc.carries
  have hdecode : Header.decode d.bytes = .ok (header, body) := by
    rw [hbytes]
    exact Header.decode_encode hdata body
  unfold deliverStep
  simp only [hdecode]
  rcases h.toSound.open_cases hP hplan hc henc with ⟨e, heq⟩ | ⟨a, hcommits, heq⟩
  · -- The receiver stays as it was.
    have hcall : s.call P d.sender.peer (.open header body) = s := by
      simp only [Pair.call, Session.apply, heq, Function.update_eq_self]
    rw [heq, hcall]
    refine ⟨⟨h.ends, h.fresh, h.carried, h.spent, h.unique⟩, fun r => ?_, fun d' hd' => ?_⟩
    · obtain ⟨log, hlog⟩ := h.logged r
      exact ⟨log, hlog.receive, hlog.accepted⟩
    · exact ⟨(h.taken d' hd').1, List.mem_append_left _ (h.taken d' hd').2⟩
  · have hsound : Sound P suite { s with ends := Function.update s.ends d.sender.peer a } :=
      h.toSound.kept hcommits.kept (congrArg (·.value.toNat) hcommits.counter).ge
    simp only [Pair.call, Session.apply, heq]
    refine ⟨⟨hsound.ends, hsound.fresh, hsound.carried, hsound.spent, hsound.unique⟩,
      fun r => ?_, fun d' hd' => ?_⟩
    · obtain ⟨log, hlog⟩ := h.logged r
      by_cases hr : d.sender.peer = r
      · subst hr
        refine ⟨log ++ [(plan.index d.sender.peer, d.counter)], ?_,
          hlog.accept h.toSound hplan rfl⟩
        have hnext := hlog.receive.commit hcommits
        rw [hc.index, hc.counter] at hnext
        simpa only [used, update_self] using hnext
      · refine ⟨log, ?_, fun n q c hq => ?_⟩
        · simpa only [used, update_of_ne (Ne.symm hr)] using hlog.receive
        -- The datagram is not for this end.
        have hsender : d.sender ≠ r.peer := by
          intro heq
          exact hr (by rw [heq, Role.peer_peer])
        rw [hlog.accepted n q c hq]
        simp only [List.mem_append, List.mem_singleton, or_and_right, exists_or, exists_eq_left,
          hsender, false_and, or_false]
    · rcases List.mem_append.mp hd' with hd' | hd'
      · exact ⟨(h.taken d' hd').1, List.mem_append_left _ (h.taken d' hd').2⟩
      · cases List.mem_singleton.mp hd'
        exact ⟨hd, List.mem_append_right _ (List.mem_singleton.mpr rfl)⟩

/-! ### Runs -/

/-- A rotation brings each end an index that it has not had. -/
def Fresh (s : Pair) : Event → Prop
  | .agree plan => ∀ r, plan.index r ∉ s.plans.map (·.index r)
  | _ => True

theorem Inv.step (hP : P.Correct) (h : Inv P suite s) {e : Event} (hfresh : s.Fresh e) :
    Inv P suite (s.step P e) := by
  cases e with
  | «seal» r inner => exact h.seal r inner
  | deliver d =>
    simp only [Pair.step]
    split
    · next hd => exact h.deliver hP hd
    · exact h
  | agree plan => exact h.agree hfresh
  | rotate r now =>
    simp only [Pair.step]
    split
    · exact h
    · next plan hplan => exact h.rotate r hplan now
  | expirePreviousEpoch r overlap now => exact h.expire r overlap now

theorem inv_init (id : SessionId) (plan : EpochPlan) (endpoint : Role → Option SocketAddr)
    (now : Role → ℕ) : Inv P suite (.init id suite plan endpoint now) where
  ends r := by
    refine ⟨rfl, rfl, rfl, ⟨plan, rfl, rfl, rfl, rfl, rfl⟩, ?_⟩
    rintro _ _ ⟨⟩
  fresh r := List.nodup_singleton _
  carried := List.forall_mem_nil _
  spent := List.forall_mem_nil _
  unique := List.forall_mem_nil _
  logged r := by
    refine ⟨[], ?_, fun n q c _ => ?_⟩
    · exact ⟨List.forall_mem_singleton.mpr List.mem_cons_self, List.forall_mem_nil _,
        List.forall_mem_singleton.mpr represents_new, nofun, List.nodup_nil⟩
    refine iff_of_false List.not_mem_nil ?_
    rintro ⟨d, hd, -⟩
    exact List.not_mem_nil hd
  taken := List.forall_mem_nil _

/-- The receiver of a datagram has its epoch, as the current one or as the previous one. -/
def HasEpoch (s : Pair) (d : Datagram) : Prop :=
  s.position d.sender.peer = d.epoch ∨
    s.position d.sender.peer = d.epoch + 1 ∧ (s.ends d.sender.peer).previous.isSome

instance decidableHasEpoch (s : Pair) (d : Datagram) : Decidable (s.HasEpoch d) :=
  inferInstanceAs (Decidable (_ ∨ _))

/-- The counter of a datagram is less than 2048 below every counter that the receiver has accepted
in its epoch. -/
def Near (s : Pair) (d : Datagram) : Prop :=
  ∀ d' ∈ s.accepted, d'.sender = d.sender → d'.epoch = d.epoch →
    d'.counter.toNat < d.counter.toNat + 2048

instance decidableNear (s : Pair) (d : Datagram) : Decidable (s.Near d) :=
  inferInstanceAs (Decidable (∀ d' ∈ s.accepted, _))

/-- The window of an epoch of the receiver admits a datagram of that epoch that comes for the first
time. -/
theorem Inv.admits (h : Inv P suite s) (hplan : s.plans[d.epoch]? = some plan)
    (hd : d ∈ s.sent) (hfirst : d ∉ s.delivered) (hnear : s.Near d)
    (hlog : Logged s d.sender.peer log) :
    Admits UInt64.toNat 2048 (Session.accepted log (plan.index d.sender.peer)) d.counter := by
  have hmem : ∀ {c}, c ∈ Session.accepted log (plan.index d.sender.peer) ↔
      ∃ d' ∈ s.accepted, d'.sender = d.sender ∧ d'.epoch = d.epoch ∧ d'.counter = c := by
    intro c
    rw [Session.mem_accepted, hlog.accepted _ plan c hplan, Role.peer_peer]
  constructor
  · intro hc
    obtain ⟨d', hd', hsender, hepoch, hcounter⟩ := hmem.mp hc
    obtain ⟨hsent', hdelivered⟩ := h.taken d' hd'
    exact hfirst (h.unique d' hsent' d hd hsender hepoch hcounter ▸ hdelivered)
  intro c hc
  obtain ⟨d', hd', hsender, hepoch, rfl⟩ := hmem.mp hc
  exact hnear d' hd' hsender hepoch

theorem Inv.opens (hP : P.Correct) (h : Inv P suite s) (hd : d ∈ s.sent) (hfirst : d ∉ s.delivered)
    (hepoch : s.HasEpoch d) (hnear : s.Near d) :
    ∃ header body, Header.decode d.bytes = .ok (header, body) ∧
      ((s.ends d.sender.peer).open P header body).1 = .ok d.inner := by
  obtain ⟨plan, header, hplan, hc⟩ := h.carried d hd
  obtain ⟨hdata, body, henc, hbytes⟩ := hc.carries
  obtain ⟨log, hlog⟩ := h.logged d.sender.peer
  have hadm := h.admits hplan hd hfirst hnear hlog
  have hend := h.ends d.sender.peer
  have htag := hP.tagged henc
  have hdec := hP.opens henc
  refine ⟨header, body, hbytes ▸ Header.decode_encode hdata body, ?_⟩
  rw [← hc.counter] at hadm
  simp only [Session.open, hend.notClosed, Bool.false_eq_true, if_false, Session.openBody]
  rcases hepoch with hpos | ⟨hpos, hprev⟩
  · obtain ⟨q, hq, hfits⟩ := hend.current
    obtain rfl := Option.some.inj ((hpos ▸ hq).symm.trans hplan)
    have hindex := hfits.localIndex.trans hc.index.symm
    rw [← h.receives hplan hc hplan hfits hindex] at hdec
    have hrep := hlog.receive.windows _ List.mem_cons_self
    obtain ⟨window, hopen⟩ := SessionCipher.open_of_admits (hfits.localIndex ▸ hrep) hadm htag hdec
    rw [if_pos hindex, hopen]
    exact Inner.decode_encode _
  · obtain ⟨⟨prev, since⟩, hprev⟩ := Option.isSome_iff_exists.mp hprev
    obtain ⟨n, q, hn, hq, hfits⟩ := hend.previous prev since hprev
    obtain rfl : n = d.epoch := by omega
    obtain rfl := Option.some.inj (hq.symm.trans hplan)
    have hindex := hfits.localIndex.trans hc.index.symm
    rw [← h.receives hplan hc hplan hfits hindex] at hdec
    have hne := hlog.receive.distinct prev since hprev
    have hrep := hlog.receive.windows prev (Session.previous_mem_epochs hprev)
    obtain ⟨window, hopen⟩ := SessionCipher.open_of_admits (hfits.localIndex ▸ hrep) hadm htag hdec
    rw [if_neg (fun heq => hne (hindex.trans heq.symm))]
    simp only [hprev, if_pos hindex, hopen]
    exact Inner.decode_encode _

/-- In every run of two ends with the same keys and each other's indexes, a datagram that reaches
the other end for the first time, while that end has its epoch and has accepted no counter of it
that is 2048 or more ahead, is decoded and opened to what was sealed. -/
theorem tunnel_transparency (hP : P.Correct) (id : SessionId) (plan : EpochPlan)
    (endpoint : Role → Option SocketAddr) (now : Role → ℕ) {events : List Event}
    (hfresh : Guarded (step P) Fresh (init id suite plan endpoint now) events) :
    let s := run (step P) (init id suite plan endpoint now) events
    ∀ d ∈ s.sent, d ∉ s.delivered → s.HasEpoch d → s.Near d →
      ∃ header body, Header.decode d.bytes = .ok (header, body) ∧
        ((s.ends d.sender.peer).open P header body).1 = .ok d.inner := by
  intro s d hd hfirst hepoch hnear
  have hinv : Inv P suite s :=
    hfresh.invariant (fun _ _ h hfresh => h.step hP hfresh) (inv_init id plan endpoint now)
  exact hinv.opens hP hd hfirst hepoch hnear

def demoPlan (n : ℕ) : EpochPlan where
  keys := ⟨BitVec.ofNat 256 (3 * n), BitVec.ofNat 256 (3 * n + 1), BitVec.ofNat 256 (3 * n + 2),
    UInt32.ofNat n⟩
  index
    | .initiator => UInt32.ofNat (2 * n + 1)
    | .responder => UInt32.ofNat (2 * n + 2)

def acrossRekey : List Event :=
  [.seal .initiator (.ip [69, 0]), .agree (demoPlan 1), .rotate .initiator 10,
    .rotate .responder 12, .seal .initiator .keepalive]

def demoPair (events : List Event) : Pair :=
  run (step transparentAead) (init 7 .aes256Gcm (demoPlan 0) (fun _ => none) fun _ => 0) events

def overtaken : List Event := acrossRekey ++ ((demoPair acrossRekey).sent.drop 1).map .deliver

/-- The first packet is then opened in the previous epoch. -/
theorem tunnel_transparency_overtaken :
    (demoPair overtaken).accepted.map (·.inner) = [.keepalive] ∧
      ∃ d ∈ (demoPair overtaken).sent, d.inner = .ip [69, 0] ∧
        ∃ header body, Header.decode d.bytes = .ok (header, body) ∧
          (((demoPair overtaken).ends .responder).open transparentAead header body).1 =
            .ok (.ip [69, 0]) := by
  have hcheck : (demoPair overtaken).accepted.map (·.inner) = [.keepalive] ∧
      ((demoPair overtaken).sent.head?.any fun d => decide
        (d.sender = .initiator ∧ d.inner = .ip [69, 0] ∧ d ∉ (demoPair overtaken).delivered ∧
          (demoPair overtaken).HasEpoch d ∧ (demoPair overtaken).Near d)) = true := by
    decide +kernel
  obtain ⟨haccepted, hany⟩ := hcheck
  obtain ⟨hsome, hdec⟩ := (Option.any_eq_true_iff_get ..).mp hany
  obtain ⟨hsender, hinner, hfirst, hepoch, hnear⟩ := of_decide_eq_true hdec
  have hd := List.mem_of_mem_head? (Option.get_mem hsome)
  have hfresh : Guarded (step transparentAead) Fresh
      (init 7 .aes256Gcm (demoPlan 0) (fun _ => none) fun _ => 0) overtaken := by
    refine ⟨trivial, fun r => ?_, trivial, trivial, trivial, trivial, trivial⟩
    cases r <;> decide +kernel
  obtain ⟨header, body, hdecode, hopen⟩ := tunnel_transparency transparentAead_correct 7
    (demoPlan 0) (fun _ => none) (fun _ => 0) hfresh _ hd hfirst hepoch hnear
  rw [hsender, hinner] at hopen
  exact ⟨haccepted, _, hd, hinner, header, body, hdecode, hopen⟩

end Avon.Tunnel.Pair
