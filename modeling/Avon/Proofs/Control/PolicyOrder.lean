import Avon.Proofs.Control.Fleet

/-!
# When policy does not go back

Neither `Engine::load` nor the gateway compares versions, so a snapshot that was read earlier and is
installed later takes an engine back (`policy_goes_back`). `InTurn` rules that out for one tenant: a
snapshot is read while none is on its way, so all that is on its way is always of one version
(`Level`), and no engine is ahead of it.
-/

set_option autoImplicit false

namespace Avon.Control.Fleet

open Avon.Policy Avon.Gateway Avon.Lib.Run Avon.Lib.Mirror
open Fleet (step)

variable {n : ℕ} {s s' : Fleet n} {env : PushEnv} {e : FleetEvent n} {msg : PushMessage}
  {t : TenantId} {v : UInt64}

/-! ### Snapshots on their way -/

def messageOf : PushCall n → Option PushMessage
  | .read data => some (.policy data)
  | .sending msg _ => some msg
  | _ => none

/-- What is still to be installed for a gateway in this phase, at control or at the gateway. -/
def onItsWay (streams : List (EventStream n)) : GatewayPhase → List PushMessage
  | .registering _ _ read out => (read.toList ++ out).map .policy
  | phase => inboxAt streams phase

def InFlight (s : Fleet n) (msg : PushMessage) : Prop :=
  (∃ call c, s.calls call = some c ∧ messageOf c = some msg) ∨
    ∃ g, msg ∈ onItsWay s.streams (s.phases g)

def readBy (env : PushEnv) (s : Fleet n) : FleetEvent n → Option SnapshotData
  | .readTenant call db =>
    match s.calls call with
    | some (.refreshing tenant) => db.map fun db => loadSnapshot env.tz env.decode db tenant
    | _ => none
  | .readForRegistration g db =>
    match s.phases g with
    | .registering _ (tenant :: _) none _ =>
      db.map fun db => loadSnapshot env.tz env.decode db tenant
    | _ => none
  | _ => none

/-- The version that a gateway's engine of the tenant was loaded from. -/
def versionAtGateway (s : Fleet n) (g : Fin n) (t : TenantId) : UInt64 :=
  (s.gateways g).policy.version t

/-- A snapshot of the tenant is read only while none is on its way, from tables that are not older
than any engine. A gateway's first process has no engine, and it gets no second one. -/
structure InTurn (env : PushEnv) (t : TenantId) (s : Fleet n) (e : FleetEvent n) : Prop where
  alone : ∀ data, readBy env s e = some data → data.tenantId = t →
    ∀ other, s.InFlight (.policy other) → other.tenantId ≠ t
  control : ∀ data, readBy env s e = some data → data.tenantId = t →
    versionAt s.engines t ≤ data.version
  gateways : ∀ data, readBy env s e = some data → data.tenantId = t →
    ∀ g, s.versionAtGateway g t ≤ data.version
  boots : ∀ g out, e = .answer g → s.phases g = .registering true [] none out →
    s.versionAtGateway g t = 0

/-! ### What a step does -/

/-- The versions of the engines, from `v` to `w`: nothing, or what a snapshot on its way has. -/
def Installs (s : Fleet n) (t : TenantId) (v w : UInt64) : Prop :=
  w = v ∨ ∃ data, s.InFlight (.policy data) ∧ data.tenantId = t ∧ w = data.version

/-- What a step that starts in `s` can have done when it has come to `s'`. -/
structure Moves (env : PushEnv) (t : TenantId) (s : Fleet n) (e : FleetEvent n) (s' : Fleet n) :
    Prop where
  inFlight : ∀ data, s'.InFlight (.policy data) →
    s.InFlight (.policy data) ∨ readBy env s e = some data
  control : s.Installs t (versionAt s.engines t) (versionAt s'.engines t)
  gateways : ∀ g, s.Installs t (s.versionAtGateway g t) (s'.versionAtGateway g t) ∨
    s'.versionAtGateway g t = 0 ∧ ∃ out, e = .answer g ∧ s.phases g = .registering true [] none out

theorem installs_receiveMessage (g : Fin n) (now : ℤ)
    (hmsg : ∀ data, msg = .policy data → s.InFlight msg) :
    s.Installs t (s.versionAtGateway g t)
      ((receiveMessage env (s.gateways g) now msg).policy.version t) := by
  cases msg with
  | other => exact .inl rfl
  | crl verified =>
    have haccepts : accepts env (s.gateways g) now (.crl verified) = true := rfl
    have hsame := versionsOf_receiveMessage haccepts (.tenant t)
    cases verified with
    | none | some => exact .inl hsame
  | policy data =>
    have hload : (receiveMessage env (s.gateways g) now (.policy data)).policy.version t =
        versionAt (loadEngine env (s.gateways g).policy.engines data.tenantId data now).1 t := by
      simp only [receiveMessage, CedarFlowPolicy.applySnapshot, loadEngine,
        CedarFlowPolicy.engineFor]
      cases Engine.load env.tz (((s.gateways g).policy.engines data.tenantId).getD
        (Engine.empty data.tenantId)) data now <;> rfl
    rw [hload, versionAt_loadEngine]
    split
    · rename_i h
      exact .inr ⟨data, hmsg data rfl, h.1.symm, rfl⟩
    · exact .inl rfl

namespace Moves

theorem refl (env : PushEnv) (t : TenantId) (s : Fleet n) (e : FleetEvent n) : Moves env t s e s :=
  ⟨fun _ h => .inl h, .inl rfl, fun _ => .inl (.inl rfl)⟩

section
variable (h : Moves env t s e s')
include h

theorem setCall {call : ℕ} {c : Option (PushCall n)}
    (hc : ∀ data, c.bind messageOf = some (.policy data) →
      s.InFlight (.policy data) ∨ readBy env s e = some data) :
    Moves env t s e (s'.setCall call c) := by
  refine ⟨fun data hin => ?_, h.control, h.gateways⟩
  rcases hin with ⟨call', c', hc', hmsg⟩ | hphase
  · by_cases hcall : call' = call
    · subst hcall
      have hsame : (s'.setCall call' c).calls call' = c := Function.update_self ..
      exact hc data (by rw [← hsame, hc']; exact hmsg)
    · rw [calls_setCall_of_ne hcall] at hc'
      exact h.inFlight data (.inl ⟨call', c', hc', hmsg⟩)
  · exact h.inFlight data (.inr hphase)

theorem setPhase (g : Fin n) {phase : GatewayPhase}
    (hphase : ∀ data, .policy data ∈ onItsWay s'.streams phase →
      s.InFlight (.policy data) ∨ readBy env s e = some data) :
    Moves env t s e (s'.setPhase g phase) := by
  refine ⟨fun data hin => ?_, h.control, h.gateways⟩
  rcases hin with hcall | ⟨g', hg'⟩
  · exact h.inFlight data (.inl hcall)
  by_cases hg : g' = g
  · subst hg
    have hsame : (s'.setPhase g' phase).phases g' = phase := Function.update_self ..
    exact hphase data (hsame ▸ hg')
  · have hsame : (s'.setPhase g phase).phases g' = s'.phases g' := Function.update_of_ne hg ..
    exact h.inFlight data (.inr ⟨g', hsame ▸ hg'⟩)

theorem setStreams {streams : List (EventStream n)}
    (hstreams : ∀ (i : ℕ) data, .policy data ∈ (streams[i]?.map contents).getD [] →
      .policy data ∈ (s'.streams[i]?.map contents).getD [] ∨ s.InFlight (.policy data)) :
    Moves env t s e { s' with streams := streams } := by
  refine ⟨fun data hin => ?_, h.control, h.gateways⟩
  rcases hin with hcall | ⟨g, hg⟩
  · exact h.inFlight data (.inl hcall)
  have hbefore : .policy data ∈ onItsWay s'.streams (s'.phases g) ∨
      s.InFlight (.policy data) := by
    revert hg
    show .policy data ∈ onItsWay streams (s'.phases g) → _
    cases s'.phases g with
    | serving i => exact hstreams i data
    | _ => exact .inl
  rcases hbefore with hold | hin
  · exact h.inFlight data (.inr ⟨g, hold⟩)
  · exact .inl hin

theorem modifyStream (stream : ℕ) {f : EventStream n → EventStream n}
    (hf : ∀ st data, s'.streams[stream]? = some st → .policy data ∈ contents (f st) →
      .policy data ∈ contents st ∨ s.InFlight (.policy data)) :
    Moves env t s e (s'.modifyStream stream f) := by
  refine h.setStreams fun i data => ?_
  show _ ∈ (Option.map contents (s'.modifyStream stream f).streams[i]?).getD [] → _
  rw [getElem?_modifyStream]
  cases hst : s'.streams[i]? with
  | none => simp
  | some st =>
    split
    · rename_i hi
      exact hf st data (hi ▸ hst)
    · exact .inl

theorem trySend (g : Fin n)
    (hmsg : ∀ data, msg = .policy data → s.InFlight msg) : Moves env t s e (s'.trySend g msg) := by
  unfold Fleet.trySend
  repeat' split
  · refine h.modifyStream _ fun st data _ hmem => ?_
    rcases List.mem_append.mp hmem with hold | hdown
    · exact .inl (List.mem_append_left _ hold)
    rcases List.mem_append.mp hdown with hold | hnew
    · exact .inl (List.mem_append_right _ hold)
    · cases List.mem_singleton.mp hnew
      exact .inr (hmsg data rfl)
  · exact h
  · exact h

end

theorem loadData (h : Moves env t s e s) {data : SnapshotData} (now : ℤ)
    (hdata : s.InFlight (.policy data)) : Moves env t s e (s.loadData env data now) := by
  refine ⟨h.inFlight, ?_, h.gateways⟩
  show s.Installs t _ (versionAt (loadEngine env s.engines data.tenantId data now).1 t)
  rw [versionAt_loadEngine]
  split
  · rename_i hload
    exact .inr ⟨data, hdata, hload.1.symm, rfl⟩
  · exact .inl rfl

theorem receive (h : Moves env t s e s') (g : Fin n) (now : ℤ)
    (hsame : s'.gateways = s.gateways) (hmsg : ∀ data, msg = .policy data → s.InFlight msg) :
    Moves env t s e (s'.setGateway g (receiveMessage env (s'.gateways g) now msg)) := by
  refine ⟨h.inFlight, h.control, fun g' => ?_⟩
  by_cases hg : g' = g
  · subst hg
    have hnew : (s'.setGateway g' (receiveMessage env (s'.gateways g') now msg)).gateways g' =
        receiveMessage env (s.gateways g') now msg := by
      rw [← hsame]
      exact Function.update_self ..
    refine .inl ?_
    unfold versionAtGateway
    rw [hnew]
    exact installs_receiveMessage g' now hmsg
  · have hold : (s'.setGateway g (receiveMessage env (s'.gateways g) now msg)).gateways g' =
        s'.gateways g' := Function.update_of_ne hg ..
    unfold versionAtGateway
    rw [hold]
    exact h.gateways g'

end Moves

theorem moves_step (env : PushEnv) (t : TenantId) (s : Fleet n) (e : FleetEvent n) :
    Moves env t s e (s.step env e) := by
  have hsame := Moves.refl env t s e
  -- A call or a phase that carries no snapshot.
  have hcall (call : ℕ) {c : Option (PushCall n)}
      (hc : ∀ data, c.bind messageOf ≠ some (.policy data)) : Moves env t s e (s.setCall call c) :=
    hsame.setCall fun data hdata => absurd hdata (hc data)
  have hphase {g : Fin n} {phase : GatewayPhase} (hp : onItsWay s.streams phase = []) :
      Moves env t s e (s.setPhase g phase) :=
    hsame.setPhase g fun data hdata => by simp [hp] at hdata
  cases e with
  | readTenant call db =>
    simp only [step]
    split
    · rename_i tenant hrefreshing
      refine hsame.setCall fun data hdata => .inr ?_
      simp only [readBy, hrefreshing]
      cases db with
      | none => cases hdata
      | some db => simpa [messageOf] using hdata
    · exact hsame
  | loadTenant call now =>
    simp only [step, Fleet.loadTenantStep]
    split
    · rename_i data hread
      have hin : s.InFlight (.policy data) := Or.inl ⟨call, _, hread, rfl⟩
      refine (hsame.loadData now hin).setCall fun data' hdata => .inl ?_
      split at hdata
      · cases hdata
        exact hin
      · cases hdata
    · exact hsame
  | storeCrl call =>
    simp only [step, Fleet.storeCrlStep]
    repeat' split
    · exact hsame
    · rename_i verified _ _
      have hmoves := hcall call (c := some (.sending (.crl verified) (List.finRange n)))
        (by simp [messageOf])
      exact ⟨hmoves.inFlight, hsame.control, hsame.gateways⟩
    · exact hsame
  | visit call =>
    simp only [step, Fleet.visitStep]
    split
    · rename_i msg g rest hsending
      have hin : s.InFlight msg := Or.inl ⟨call, _, hsending, rfl⟩
      refine (hsame.trySend g fun _ _ => hin).setCall fun data hdata => .inl ?_
      cases hdata
      exact hin
    · exact hcall call (by simp [messageOf])
    · exact hsame
  | sendOther g => exact hsame.trySend g (by simp)
  | register g boot tenants =>
    simp only [step, Fleet.registerStep]
    by_cases hready : s.phases g = if boot then .stopped else .idle
    · rw [if_pos hready]
      cases tenants with
      | none | some => exact hphase rfl
    · rw [if_neg hready]
      exact hsame
  | readForRegistration g db =>
    simp only [step, Fleet.readForRegistrationStep]
    split
    · rename_i boot tenant todo out hreg
      cases db with
      | none => exact hphase rfl
      | some db =>
        refine hsame.setPhase g fun data hdata => ?_
        simp only [onItsWay, Option.toList_some, List.singleton_append, List.map_cons,
          List.mem_cons, PushMessage.policy.injEq] at hdata
        rcases hdata with rfl | hout
        · exact .inr (by simp [readBy, hreg])
        · exact .inl (.inr ⟨g, by simpa [hreg, onItsWay] using hout⟩)
    · exact hsame
  | loadForRegistration g now =>
    simp only [step, Fleet.loadForRegistrationStep]
    split
    · rename_i boot todo data out hreg
      have hin {data' : SnapshotData} (h : data' = data ∨ data' ∈ out) :
          s.InFlight (.policy data') :=
        Or.inr ⟨g, by simpa [hreg, onItsWay] using h⟩
      refine (hsame.loadData now (hin (.inl rfl))).setPhase g fun data' hdata => .inl (hin ?_)
      split at hdata
      · simpa [onItsWay, or_comm] using hdata
      · cases hdata
    · exact hsame
  | answer g =>
    simp only [step, Fleet.answerStep]
    split
    · rename_i out hreg
      refine ⟨(hphase rfl).inFlight, hsame.control, fun g' => ?_⟩
      by_cases hg : g' = g
      · subst hg
        have hnew : (s.setGateway g' (.bootstrap s.crl [])).gateways g' = .bootstrap s.crl [] :=
          Function.update_self ..
        refine .inr ⟨?_, out, rfl, hreg⟩
        show ((s.setGateway g' (.bootstrap s.crl [])).gateways g').policy.version t = 0
        rw [hnew]
        rfl
      · have hold : (s.setGateway g (.bootstrap s.crl [])).gateways g' = s.gateways g' :=
          Function.update_of_ne hg ..
        refine .inl (.inl ?_)
        show ((s.setGateway g (.bootstrap s.crl [])).gateways g').policy.version t = _
        rw [hold]
        rfl
    · rename_i out hreg
      refine hsame.setPhase g fun data hdata => .inl (.inr ⟨g, ?_⟩)
      simpa [hreg, onItsWay, inboxAt] using hdata
    · exact hsame
  | applyConfig g now =>
    simp only [step, Fleet.applyConfigStep]
    split
    · rename_i msg todo hconf
      have hin {m : PushMessage} (h : m ∈ msg :: todo) : s.InFlight m :=
        Or.inr ⟨g, by simpa [hconf, onItsWay, inboxAt] using h⟩
      have hmoves := hsame.receive g now rfl fun _ _ => hin List.mem_cons_self
      refine hmoves.setPhase g fun data hdata => ?_
      exact .inl (hin (List.mem_cons_of_mem _ hdata))
    · exact hsame
  | openEvents g =>
    simp only [step, Fleet.openEventsStep]
    split
    · have hopen : Moves env t s (.openEvents g)
          { s with streams := s.streams ++ [⟨g, [], none, [], true⟩] } := by
        refine hsame.setStreams fun i data hmem => .inl ?_
        rcases Nat.lt_trichotomy i s.streams.length with hlt | rfl | hgt
        · rwa [List.getElem?_append_left hlt] at hmem
        · simp [contents] at hmem
        · rw [List.getElem?_eq_none (by simpa using Nat.succ_le_of_lt hgt)] at hmem
          cases hmem
      have hway : onItsWay (s.streams ++ [⟨g, [], none, [], true⟩])
          (.serving s.streams.length) = [] := by
        simp [onItsWay, inboxAt, contents]
      have hserve := hopen.setPhase g fun data hdata => absurd hdata (hway ▸ List.not_mem_nil)
      exact ⟨hserve.inFlight, hserve.control, hserve.gateways⟩
    · exact hsame
  | inboundEnds stream =>
    simp only [step, Fleet.inboundEndsStep]
    repeat' split
    · have hmoves := hsame.modifyStream stream (f := fun st => { st with inbound := false })
        fun st data _ hmem => .inl hmem
      exact ⟨hmoves.inFlight, hmoves.control, hmoves.gateways⟩
    · exact hsame
    · exact hsame
  | takeDown stream =>
    refine hsame.modifyStream stream fun st data _ hmem => .inl ?_
    unfold Fleet.takeDown at hmem
    split at hmem
    · rename_i hheld hdown
      simpa [contents, hheld, hdown] using hmem
    · exact hmem
  | forward stream =>
    refine hsame.modifyStream stream fun st data _ hmem => .inl ?_
    unfold Fleet.forward at hmem
    repeat' split at hmem
    · rename_i hheld _
      simpa [contents, hheld] using hmem
    · exact hmem
    · exact hmem
  | receive g now =>
    simp only [step, Fleet.receiveStep]
    repeat' split
    · rename_i stream hserving _ msg response hresponse
      obtain ⟨st, hst, hmsg⟩ := Option.map_eq_some_iff.mp hresponse
      have hin : s.InFlight msg :=
        Or.inr ⟨g, by simp [hserving, onItsWay, inboxAt, hst, contents, hmsg]⟩
      have hmoves := hsame.receive g now rfl fun _ _ => hin
      refine hmoves.modifyStream stream fun st' data hst' hmem => ?_
      obtain rfl : st = st' := Option.some.inj (hst.symm.trans hst')
      refine .inl ?_
      simp only [contents, hmsg, List.append_assoc] at hmem ⊢
      exact List.mem_cons_of_mem _ hmem
    · exact hsame
    · exact hsame
  | refreshTenant | revokeDevice | revokeSerial | callEnds | callFails | hangUp | restart =>
    simp only [step]
    repeat' split
    all_goals first
      | exact hsame
      | exact hcall _ (by simp [messageOf])
      | exact hphase rfl

/-! ### Runs -/

/-- No engine of the tenant is older in `s'` than in `s`. -/
def NotOlder (t : TenantId) (s s' : Fleet n) : Prop :=
  versionAt s.engines t ≤ versionAt s'.engines t ∧
    ∀ g, s.versionAtGateway g t ≤ s'.versionAtGateway g t

theorem NotOlder.refl (t : TenantId) (s : Fleet n) : NotOlder t s s :=
  ⟨UInt64.le_refl _, fun _ => UInt64.le_refl _⟩

theorem NotOlder.trans {s'' : Fleet n} (h : NotOlder t s s') (h' : NotOlder t s' s'') :
    NotOlder t s s'' :=
  ⟨UInt64.le_trans h.1 h'.1, fun g => UInt64.le_trans (h.2 g) (h'.2 g)⟩

/-- All that is on its way has one version, and no engine is ahead of it. -/
structure Level (t : TenantId) (v : UInt64) (s : Fleet n) : Prop where
  inFlight : ∀ data, s.InFlight (.policy data) → data.tenantId = t → data.version = v
  control : versionAt s.engines t ≤ v
  gateways : ∀ g, s.versionAtGateway g t ≤ v

theorem Level.installs (h : Level t v s) {w w' : UInt64} (hw : w ≤ v)
    (hinstalls : s.Installs t w w') : w ≤ w' ∧ w' ≤ v := by
  rcases hinstalls with rfl | ⟨data, hin, ht, rfl⟩
  · exact ⟨UInt64.le_refl _, hw⟩
  · rw [h.inFlight data hin ht]
    exact ⟨hw, UInt64.le_refl _⟩

theorem Level.step (h : Level t v s) (hG : InTurn env t s e) :
    (∃ v', Level t v' (s.step env e)) ∧ NotOlder t s (s.step env e) := by
  have hmoves := moves_step env t s e
  have hcontrol := h.installs h.control hmoves.control
  have hgateway : ∀ g, s.versionAtGateway g t ≤ (s.step env e).versionAtGateway g t ∧
      (s.step env e).versionAtGateway g t ≤ v := by
    intro g
    rcases hmoves.gateways g with hinstalls | ⟨hzero, out, hanswer, hphase⟩
    · exact h.installs (h.gateways g) hinstalls
    have hnone := hG.boots g out hanswer hphase
    rw [hzero, ← hnone]
    exact ⟨UInt64.le_refl _, h.gateways g⟩
  refine ⟨?_, hcontrol.1, fun g => (hgateway g).1⟩
  by_cases hread : ∃ data, readBy env s e = some data ∧ data.tenantId = t
  · -- Nothing was on its way, so nothing was installed.
    obtain ⟨data, hread, ht⟩ := hread
    have hnone := hG.alone data hread ht
    have hsame {w w' : UInt64} (hinstalls : s.Installs t w w') : w' = w :=
      hinstalls.resolve_right fun hin => hin.elim fun other h => hnone other h.1 h.2.1
    refine ⟨data.version, fun data' hin ht' => ?_, ?_, fun g => ?_⟩
    · rcases hmoves.inFlight data' hin with hold | hnew
      · exact absurd ht' (hnone data' hold)
      · rw [Option.some.inj (hread.symm.trans hnew)]
    · rw [hsame hmoves.control]
      exact hG.control data hread ht
    rcases hmoves.gateways g with hinstalls | ⟨hzero, -⟩
    · rw [hsame hinstalls]
      exact hG.gateways data hread ht g
    · rw [hzero]
      exact UInt64.zero_le
  · refine ⟨v, fun data hin ht => ?_, hcontrol.2, fun g => (hgateway g).2⟩
    rcases hmoves.inFlight data hin with hold | hnew
    · exact h.inFlight data hold ht
    · exact absurd ⟨data, hnew, ht⟩ hread

theorem level_init (t : TenantId) (crl : Crl) : Level t 0 (init n crl) := by
  refine ⟨fun data hin => ?_, UInt64.le_refl _, fun g => UInt64.le_refl _⟩
  rcases hin with ⟨call, c, hc, -⟩ | ⟨g, hg⟩
  · cases hc
  · cases hg

/-- In every run whose snapshots of a tenant are read in turn, control's engine of the tenant and
those of the gateways are never taken back. -/
theorem policy_monotone (env : PushEnv) (crl : Crl) (t : TenantId)
    (before after : List (FleetEvent n))
    (h : Guarded (step env) (InTurn env t) (init n crl) (before ++ after)) :
    NotOlder t (run (step env) (init n crl) before)
      (run (step env) (init n crl) (before ++ after)) := by
  obtain ⟨hbefore, hafter⟩ := guarded_append.mp h
  have hlevel : ∃ v, Level t v (run (step env) (init n crl) before) := by
    refine hbefore.invariant (I := fun s => ∃ v, Level t v s) ?_ ⟨0, level_init t crl⟩
    rintro s e ⟨v, hv⟩ hG
    exact (hv.step hG).1
  rw [run_append]
  refine (hafter.invariant (I := fun s => (∃ v, Level t v s) ∧
    NotOlder t (run (step env) (init n crl) before) s) ?_ ⟨hlevel, NotOlder.refl t _⟩).2
  rintro s e ⟨⟨v, hv⟩, hold⟩ hG
  obtain ⟨hlevel', hstep⟩ := hv.step hG
  exact ⟨hlevel', hold.trans hstep⟩

/-! ### Tenant 7 -/

theorem inTurn_of_none (hread : readBy env s e = none)
    (hboots : ∀ g, e = .answer g → s.versionAtGateway g t = 0) : InTurn env t s e := by
  refine ⟨?_, ?_, ?_, fun g _ hanswer _ => hboots g hanswer⟩ <;> simp [hread]

theorem inTurn_of_idle {data : SnapshotData} (hread : readBy env s e = some data)
    (hcalls : ∀ call, s.calls call = none) (hway : ∀ g, onItsWay s.streams (s.phases g) = [])
    (hold : versionAt s.engines t ≤ data.version ∧ ∀ g, s.versionAtGateway g t ≤ data.version) :
    InTurn env t s e := by
  refine ⟨fun _ _ _ other hin => ?_, ?_, ?_, fun g _ hanswer _ => ?_⟩
  · rcases hin with ⟨call, c, hc, -⟩ | ⟨g, hg⟩
    · rw [hcalls call] at hc
      cases hc
    · rw [hway g] at hg
      cases hg
  · simpa [hread] using fun _ => hold.1
  · simpa [hread] using fun _ => hold.2
  · rw [hanswer] at hread
    cases hread

/-- The first process of a gateway starts, and then it registers. -/
def boots : List (FleetEvent 1) := registers (Fin.last 0) true (tablesAt 1)

def configures : List (FleetEvent 1) :=
  registers (Fin.last 0) false (tablesAt 2) ++
    [.applyConfig (Fin.last 0) 0, .applyConfig (Fin.last 0) 0]

theorem policy_monotone_boots :
    NotOlder 7 (after boots) (after (boots ++ configures)) ∧
      versionAt (after boots).engines 7 = 1 ∧
      (after (boots ++ configures)).versionAtGateway 0 7 = 2 := by
  refine ⟨policy_monotone bareEnv ⟨5, []⟩ 7 boots configures ?_, by decide +kernel⟩
  have hread {s : Fleet 1} {e : FleetEvent 1} (v : ℤ)
      (hread : readBy bareEnv s e = some (loadSnapshot bareEnv.tz bareEnv.decode (tablesAt v) 7)) :=
    inTurn_of_idle (t := 7) hread
  refine ⟨inTurn_of_none rfl (by simp),
    hread 1 (by decide +kernel) (fun _ => rfl) (by decide +kernel) (by decide +kernel),
    inTurn_of_none rfl (by simp), inTurn_of_none rfl (by simp; decide +kernel),
    inTurn_of_none rfl (by simp),
    hread 2 (by decide +kernel) (fun _ => rfl) (by decide +kernel) (by decide +kernel),
    inTurn_of_none rfl (by simp), inTurn_of_none rfl (by simp; decide +kernel),
    inTurn_of_none rfl (by simp), inTurn_of_none rfl (by simp), trivial⟩

/-- Two refreshes overlap, and the one that read first is through last. -/
def newerFirst : List (FleetEvent 1) :=
  registers (Fin.last 0) true (tablesAt 1) ++ registers (Fin.last 0) false (tablesAt 1) ++
    serves (Fin.last 0) ++
    [.refreshTenant 0 7, .readTenant 0 (some (tablesAt 1)), .refreshTenant 1 7,
      .readTenant 1 (some (tablesAt 2)), .loadTenant 1 0, .visit 1] ++
    delivers (Fin.last 0) 0

def olderLast : List (FleetEvent 1) :=
  [.loadTenant 0 0, .visit 0] ++ delivers (Fin.last 0) 0

theorem policy_goes_back :
    ¬ NotOlder 7 (after newerFirst) (after (newerFirst ++ [.loadTenant 0 0])) ∧
    versionAt (after newerFirst).engines 7 = 2 ∧ (after newerFirst).versionAtGateway 0 7 = 2 ∧
    versionAt (after (newerFirst ++ olderLast)).engines 7 = 1 ∧
    (after (newerFirst ++ olderLast)).versionAtGateway 0 7 = 1 := by
  refine ⟨fun h => absurd h.1 (by decide +kernel), ?_⟩
  decide +kernel

end Avon.Control.Fleet
