import Avon.Proofs.Gateway.Isolation

/-!
# What a revoked certificate is worth at the gateway

No metadata ever have a revoked serial (`Clean`), and every session with metadata is in the table
(`Recorded`). But an offer with the id of an open session replaces its metadata, and the old session
stays reachable by its index: a revocation finds nothing to close. This is the only way
(`revocation_cuts`).
-/

set_option autoImplicit false

namespace Avon.Gateway

open Avon.Crypto Avon.Tunnel Avon.Policy Avon.Proto Avon.Lib.Run
open GatewayState (isRevoked)

/-! ### What a step does to the CRL, the metadata and the table -/

def Recorded (s : GatewayState) : Prop :=
  ∀ id m, s.sessionsMeta.lookup id = some m → (s.table.byId id).isSome = true

/-- No session with metadata has a revoked certificate. -/
def Clean (s : GatewayState) : Prop :=
  ∀ id m, s.sessionsMeta.lookup id = some m → s.isRevoked m.serial = false

/-- CRL and metadata are the same, and no session has left the table. -/
structure Keeps (s s' : GatewayState) : Prop where
  crl : s'.crl = s.crl
  metas : s'.sessionsMeta = s.sessionsMeta
  byId : ∀ id, (s.table.byId id).isSome = true → (s'.table.byId id).isSome = true

theorem Keeps.refl (s : GatewayState) : Keeps s s := ⟨rfl, rfl, fun _ h => h⟩

/-- A message that says that a device is no longer active. -/
def Event.deactivates : Event → Bool
  | .control (.deviceUpdate _ _ attrs _) => attrs.status ≠ "active"
  | _ => false

/-- The session that an offer makes: its id, and the serial of the certificate. -/
def made (env : Env) (s : GatewayState) : Event → List (SessionId × Serial)
  | .control (.offer offer now (some _)) =>
    if s.blocked then []
    else match checkOffer env s offer now with
      | .ok (id, cert) => [(id, cert.serial)]
      | .error _ => []
  | _ => []

inductive Effect (env : Env) (s : GatewayState) (e : Event) : GatewayState → Prop where
  | keeps {s' : GatewayState} (h : Keeps s s') : Effect env s e s'
  | close (id : SessionId) : Effect env s e (s.closeSession id)
  | crl (verified : Option Crl) : Effect env s e (applyCrl s verified)
  | record {s' : GatewayState} (id : SessionId) (m : SessionMeta)
      (hmade : (id, m.serial) ∈ made env s e)
      (hserial : s.isRevoked m.serial = false) (hcrl : s'.crl = s.crl)
      (hmetas : s'.sessionsMeta = s.sessionsMeta.insert id m)
      (hid : (s'.table.byId id).isSome = true)
      (hbyId : ∀ id, (s.table.byId id).isSome = true → (s'.table.byId id).isSome = true) :
      Effect env s e s'

section
variable {env : Env} {s : GatewayState}

theorem isSome_update {f : SessionId → Option Handle} {id id' : SessionId} {v : Handle}
    (h : (f id').isSome = true) : (Function.update f id (some v) id').isSome = true := by
  by_cases heq : id' = id
  · rw [heq, Function.update_self]
    rfl
  · rwa [Function.update_of_ne heq]

theorem Forwards.keeps {s' : GatewayState} (h : Forwards s s') : Keeps s s' :=
  ⟨h.crl, h.metas, fun _ hid => h.byId ▸ hid⟩

theorem keeps_receiveIp (s : GatewayState) (id : SessionId) (packet : Bytes) :
    Keeps s (receiveIp s id packet) := by
  unfold receiveIp
  split
  · exact .refl s
  · simp only
    split <;> exact ⟨rfl, rfl, fun _ h => h⟩

theorem checkOffer_cases {offer : SessionOffer} {now : ℤ} {id : SessionId} {cert : Certificate}
    (h : checkOffer env s offer now = .ok (id, cert)) :
    uuidOf offer.sessionId = some id ∧ ∃ bytes, offer.deviceCertificate = some bytes ∧
      env.certificate bytes = some cert ∧ s.isRevoked cert.serial = false := by
  unfold checkOffer at h
  split at h
  · cases h
  next id' hid =>
  split at h
  · cases h
  next bytes hbytes =>
  split at h
  · cases h
  next cert' hcert =>
  split_ifs at h with hverify hrevoked hsuite hindex
  cases h
  exact ⟨hid, bytes, hbytes, hcert, by simpa using hrevoked⟩

theorem effect_acceptOffer {offer : SessionOffer} {now : ℤ} {built : Option Session}
    (hblocked : s.blocked = false) : Effect env s (.control (.offer offer now built))
      (acceptOffer env s offer now built).2 := by
  unfold acceptOffer
  split
  · exact .keeps (.refl s)
  next id cert hcheck =>
  split
  · exact .keeps (.refl s)
  next session =>
  simp only
  split
  · exact .keeps ⟨rfl, rfl, fun _ h => isSome_update h⟩
  next tenant _ =>
  have hmade : (id, (metaOf env offer cert tenant).serial) ∈
      made env s (.control (.offer offer now (some session))) := by
    simp [made, hblocked, hcheck, metaOf]
  obtain ⟨-, _, -, -, hserial⟩ := checkOffer_cases hcheck
  refine .record id _ hmade hserial rfl rfl ?_ fun _ h => isSome_update h
  simp [byId_insertSession]

theorem keeps_applyRoutes (env : Env) (s : GatewayState) (update : RouteUpdate) :
    Keeps s (applyRoutes env s update) := by
  unfold applyRoutes
  split
  · exact .refl s
  · simp only
    split <;> exact ⟨rfl, rfl, fun _ h => h⟩

theorem step_effect (env : Env) (s : GatewayState) {e : Event} (he : e.deactivates = false) :
    Effect env s e (step env s e) := by
  cases e with
  | ip id packet => exact .keeps (keeps_receiveIp s id packet)
  | forward id socketOk => exact .keeps (forwards_forwardIp env s id socketOk).keeps
  | tun packet socketOk => exact .keeps (forwards_ingress env s packet socketOk).keeps
  | tunnel id session => exact .keeps (forwards_changeSession s id session).keeps
  | closed id => exact .close id
  | control e =>
    simp only [step, handle]
    split
    · exact .keeps (.refl s)
    next hblocked =>
    cases e with
    | offer offer now built => exact effect_acceptOffer (by simpa using hblocked)
    | close id => exact .close id
    | crl verified => exact .crl verified
    | routes update => exact .keeps (keeps_applyRoutes env s update)
    | policy data now =>
      cases data with
      | none => exact .keeps (.refl s)
      | some data => exact .keeps ⟨rfl, rfl, fun _ h => h⟩
    | deviceUpdate tenant device attrs now =>
      have hactive : attrs.status = "active" := by simpa [Event.deactivates] using he
      refine .keeps ?_
      simp only [controlStep, applyDeviceUpdate, if_pos hactive]
      exact ⟨rfl, rfl, fun _ h => h⟩

end

/-! ### The invariant -/

section
variable {env : Env} {s s' : GatewayState} {e : Event}

theorem version_le (h : s'.crl = s.crl) : s.crl.version ≤ s'.crl.version := by
  rw [h]
  exact UInt64.le_refl _

theorem closeSession_crl (s : GatewayState) (id : SessionId) : (s.closeSession id).crl = s.crl := by
  unfold GatewayState.closeSession
  split <;> rfl

theorem Recorded.lookup_closeSession (h : Recorded s) (id : SessionId) :
    (s.closeSession id).sessionsMeta.lookup id = none := by
  unfold GatewayState.closeSession
  split
  · next hnone =>
    cases hm : s.sessionsMeta.lookup id with
    | none => rfl
    | some m =>
      have hsome := h id m hm
      rw [hnone] at hsome
      cases hsome
  · exact AList.lookup_erase _ _

theorem Recorded.closeSession (h : Recorded s) (id : SessionId) : Recorded (s.closeSession id) := by
  intro id' m hm
  have hne : id' ≠ id := by
    rintro rfl
    rw [h.lookup_closeSession id'] at hm
    cases hm
  have hbefore := h id' m ((shrinks_closeSession s id).metas id' m hm)
  unfold GatewayState.closeSession
  split
  · exact hbefore
  · simpa [byId_unroute, Function.update_of_ne hne] using hbefore

theorem closeAll_spec (l : List (Sigma fun _ : SessionId => SessionMeta)) (h : Recorded s) :
    let s' := l.foldl (fun s e => s.closeSession e.1) s
    s'.crl = s.crl ∧ Recorded s' ∧ ∀ id m, s'.sessionsMeta.lookup id = some m →
      s.sessionsMeta.lookup id = some m ∧ ∀ e ∈ l, e.1 ≠ id := by
  induction l generalizing s with
  | nil => exact ⟨rfl, h, fun _ _ hm => ⟨hm, nofun⟩⟩
  | cons e l ih =>
    obtain ⟨hcrl, hrecorded, hmetas⟩ := ih (h.closeSession e.1)
    refine ⟨hcrl.trans (closeSession_crl s e.1), hrecorded, fun id m hm => ?_⟩
    obtain ⟨hm', hrest⟩ := hmetas id m hm
    refine ⟨(shrinks_closeSession s e.1).metas id m hm', List.forall_mem_cons.mpr ⟨?_, hrest⟩⟩
    rintro rfl
    rw [h.lookup_closeSession e.1] at hm'
    cases hm'

/-- After a CRL the metadata are clean: an older one changes nothing, a newer one closes what it
revokes. -/
theorem applyCrl_spec (hr : Recorded s) (hc : Clean s) (verified : Option Crl) :
    Recorded (applyCrl s verified) ∧ Clean (applyCrl s verified) ∧
      s.crl.version ≤ (applyCrl s verified).crl.version := by
  unfold applyCrl
  split
  · exact ⟨hr, hc, UInt64.le_refl _⟩
  next crl =>
  split
  · exact ⟨hr, hc, UInt64.le_refl _⟩
  next hversion =>
  obtain ⟨hcrl, hrecorded, hmetas⟩ := closeAll_spec (s := { s with crl })
    (s.sessionsMeta.entries.filter fun e => crl.serials.contains e.2.serial) hr
  refine ⟨hrecorded, fun id m hm => ?_, ?_⟩
  · obtain ⟨hm', hclosed⟩ := hmetas id m hm
    by_contra hrevoked
    rw [Bool.not_eq_false, isRevoked] at hrevoked
    have hmem : (⟨id, m⟩ : Sigma fun _ : SessionId => SessionMeta) ∈
        s.sessionsMeta.entries.filter fun e => crl.serials.contains e.2.serial := by
      refine List.mem_filter.mpr ⟨AList.mem_lookup_iff.mp hm', ?_⟩
      exact (congrArg (fun c : Crl => c.serials.contains m.serial) hcrl).symm.trans hrevoked
    exact hclosed _ hmem rfl
  · exact UInt64.le_trans (UInt64.not_lt.mp hversion) (version_le hcrl)

theorem Effect.keeps_inv (h : Effect env s e s') (hr : Recorded s) (hc : Clean s) :
    Recorded s' ∧ Clean s' ∧ s.crl.version ≤ s'.crl.version := by
  cases h with
  | keeps h =>
    refine ⟨fun id m hm => h.byId id (hr id m (h.metas ▸ hm)), fun id m hm => ?_,
      version_le h.crl⟩
    rw [isRevoked, h.crl]
    exact hc id m (h.metas ▸ hm)
  | close id =>
    have hcrl := closeSession_crl s id
    refine ⟨hr.closeSession id, fun id' m hm => ?_, version_le hcrl⟩
    rw [isRevoked, hcrl]
    exact hc id' m ((shrinks_closeSession s id).metas id' m hm)
  | crl verified => exact applyCrl_spec hr hc verified
  | record id m hmade hserial hcrl hmetas hid hbyId =>
    have hlookup : ∀ id' m', s'.sessionsMeta.lookup id' = some m' →
        id' = id ∧ m' = m ∨ s.sessionsMeta.lookup id' = some m' := by
      intro id' m' hm'
      rw [hmetas] at hm'
      by_cases heq : id' = id
      · rw [heq, AList.lookup_insert] at hm'
        exact .inl ⟨heq, (Option.some.inj hm').symm⟩
      · rw [AList.lookup_insert_ne heq] at hm'
        exact .inr hm'
    refine ⟨fun id' m' hm' => ?_, fun id' m' hm' => ?_, version_le hcrl⟩
    · rcases hlookup id' m' hm' with ⟨rfl, -⟩ | hbefore
      · exact hid
      · exact hbyId id' (hr id' m' hbefore)
    rw [isRevoked, hcrl]
    rcases hlookup id' m' hm' with ⟨-, rfl⟩ | hbefore
    · exact hserial
    · exact hc id' m' hbefore

variable {before : List (SessionId × Serial)} {events : List Event} {prefixes : List IpNet}
  {crl : Crl}

theorem inv_run (hactive : ∀ e ∈ events, e.deactivates = false) :
    Recorded (run (step env) (.bootstrap crl prefixes) events) ∧
      Clean (run (step env) (.bootstrap crl prefixes) events) := by
  have hstart : Recorded (.bootstrap crl prefixes) ∧ Clean (.bootstrap crl prefixes) :=
    ⟨fun _ _ hm => (nomatch hm), fun _ _ hm => (nomatch hm)⟩
  generalize GatewayState.bootstrap crl prefixes = start at hstart
  induction events generalizing start with
  | nil => exact hstart
  | cons e events ih =>
    obtain ⟨he, hrest⟩ := List.forall_mem_cons.mp hactive
    obtain ⟨hr, hc, -⟩ := (step_effect env start he).keeps_inv hstart.1 hstart.2
    exact ih hrest _ ⟨hr, hc⟩

/-! ### Sessions and their certificates -/

def Traced (made : List (SessionId × Serial)) (s : GatewayState) : Prop :=
  ∀ id m, s.sessionsMeta.lookup id = some m → (id, m.serial) ∈ made

theorem Effect.keeps_traced (h : Effect env s e s')
    (ht : Traced before s) : Traced (before ++ made env s e) s' := by
  intro id' m' hm'
  rw [List.mem_append]
  cases h with
  | keeps h => exact .inl (ht id' m' (h.metas ▸ hm'))
  | close id => exact .inl (ht id' m' ((shrinks_closeSession s id).metas id' m' hm'))
  | crl verified => exact .inl (ht id' m' ((shrinks_applyCrl s verified).metas id' m' hm'))
  | record id m hmade hserial hcrl hmetas hid _ =>
    rw [hmetas] at hm'
    by_cases heq : id' = id
    · rw [heq, AList.lookup_insert] at hm'
      cases hm'
      exact .inr (heq ▸ hmade)
    · rw [AList.lookup_insert_ne heq] at hm'
      exact .inl (ht id' m' hm')

theorem traced_run (hactive : ∀ e ∈ events, e.deactivates = false) (ht : Traced before s) :
    Traced (before ++ trace (step env) (made env) s events) (run (step env) s events) := by
  induction events generalizing s before with
  | nil => simpa [trace] using ht
  | cons e events ih =>
    obtain ⟨he, hrest⟩ := List.forall_mem_cons.mp hactive
    rw [trace, ← List.append_assoc]
    exact ih hrest ((step_effect env s he).keeps_traced ht)

def offerId : Event → Option SessionId
  | .control (.offer offer _ _) => uuidOf offer.sessionId
  | _ => none

theorem made_sublist (env : Env) (s : GatewayState) (e : Event) :
    ((made env s e).map Prod.fst).Sublist (offerId e).toList := by
  unfold made
  split
  · split
    · exact List.nil_sublist _
    split
    · next hcheck =>
      rw [offerId, (checkOffer_cases hcheck).1]
      exact List.Sublist.refl _
    · exact List.nil_sublist _
  · exact List.nil_sublist _

theorem trace_made_sublist (env : Env) (s : GatewayState) (events : List Event) :
    ((trace (step env) (made env) s events).map Prod.fst).Sublist (events.filterMap offerId) := by
  induction events generalizing s with
  | nil => exact List.Sublist.refl _
  | cons e events ih =>
    rw [trace, List.map_append, List.filterMap_cons]
    have happend := (made_sublist env s e).append (ih (step env s e))
    cases hid : offerId e with
    | none | some => simpa [hid] using happend

/-- With distinct session ids, a session of a revoked certificate has no metadata. -/
theorem lookup_of_revoked
    (hactive : ∀ e ∈ events, e.deactivates = false) (hids : (events.filterMap offerId).Nodup)
    {session : SessionId × Serial}
    (hmade : session ∈ trace (step env) (made env) (.bootstrap crl prefixes) events)
    (hrevoked : (run (step env) (.bootstrap crl prefixes) events).isRevoked session.2 = true) :
    (run (step env) (.bootstrap crl prefixes) events).sessionsMeta.lookup session.1 = none := by
  cases hm : (run (step env) (.bootstrap crl prefixes) events).sessionsMeta.lookup session.1 with
  | none => rfl
  | some m =>
    have htraced : Traced ([] ++ trace (step env) (made env) (.bootstrap crl prefixes) events) _ :=
      traced_run hactive fun _ _ hm => nomatch hm
    have hother := htraced _ m hm
    have hsame : session = (session.1, m.serial) :=
      List.inj_on_of_nodup_map (hids.sublist (trace_made_sublist env _ events)) hmade hother rfl
    have hclean := (inv_run hactive).2 _ m hm
    have hserial : m.serial = session.2 := (congrArg Prod.snd hsame).symm
    rw [hserial, hrevoked] at hclean
    cases hclean

theorem receiveIp_of_lookup {id : SessionId} (h : s.sessionsMeta.lookup id = none)
    (packet : Bytes) : receiveIp s id packet = s := by
  have hnone : contextOf s id packet = none := by
    unfold contextOf
    split
    · rfl
    · rw [h]
  rw [receiveIp, hnone]

theorem acceptOffer_revoked {offer : SessionOffer} {bytes : Bytes} {cert : Certificate}
    (hbytes : offer.deviceCertificate = some bytes) (hcert : env.certificate bytes = some cert)
    (hrevoked : s.isRevoked cert.serial = true) (now : ℤ) (built : Option Session) :
    (acceptOffer env s offer now built).1 ≠ .ok () := by
  intro hok
  unfold acceptOffer at hok
  split at hok
  · cases hok
  next id cert' hcheck =>
  obtain ⟨-, bytes', hbytes', hcert', hfresh⟩ := checkOffer_cases hcheck
  cases hbytes.symm.trans hbytes'
  cases hcert.symm.trans hcert'
  rw [hrevoked] at hfresh
  cases hfresh

end

/-- For every run of a gateway from its start, with any messages from control that do not deactivate
a device: the version of the CRL never goes back, no session with metadata has a revoked
certificate, and no offer with a revoked certificate is answered. If no two offers have the same
session id, then no packet on a session that was made with a certificate that is revoked now gets
past `handle_ip`. -/
theorem revocation_cuts (env : Env) (crl : Crl) (prefixes : List IpNet) (events : List Event)
    (hactive : ∀ e ∈ events, e.deactivates = false) :
    let s := run (step env) (.bootstrap crl prefixes) events
    (∀ e : Event, e.deactivates = false → s.crl.version ≤ (step env s e).crl.version) ∧
      (∀ id m, s.sessionsMeta.lookup id = some m → s.isRevoked m.serial = false) ∧
      (∀ offer bytes cert now built, offer.deviceCertificate = some bytes →
        env.certificate bytes = some cert → s.isRevoked cert.serial = true →
          (acceptOffer env s offer now built).1 ≠ .ok ()) ∧
      ((events.filterMap offerId).Nodup →
        ∀ session ∈ trace (step env) (made env) (.bootstrap crl prefixes) events,
          s.isRevoked session.2 = true → ∀ packet, receiveIp s session.1 packet = s) := by
  intro s
  have hinv : Recorded s ∧ Clean s := inv_run hactive
  obtain ⟨hr, hc⟩ := hinv
  refine ⟨fun e he => ((step_effect env s he).keeps_inv hr hc).2.2, hc, ?_, ?_⟩
  · exact fun offer bytes cert now built hbytes hcert hrevoked =>
      acceptOffer_revoked hbytes hcert hrevoked now built
  · exact fun hids session hmade hrevoked packet =>
      receiveIp_of_lookup (lookup_of_revoked hactive hids hmade hrevoked) packet

def revokedDevice : List Event :=
  [.control (.offer (demoOffer 1 1 7 "100.64.0.1") 0 (some (demoSession 1 none))),
    .control (.crl (some ⟨1, [1]⟩))]

/-- Its packets end at the gateway. -/
theorem revocation_cuts_device :
    let s := run (step demoEnv) demoStart revokedDevice
    (1, 1) ∈ trace (step demoEnv) (made demoEnv) demoStart revokedDevice ∧ s.isRevoked 1 = true ∧
      receiveIp s 1 (udpPacket 1 9) = s := by
  intro s
  have hmade : (1, 1) ∈ trace (step demoEnv) (made demoEnv) demoStart revokedDevice := by
    decide +kernel
  have hrevoked : s.isRevoked 1 = true := by decide +kernel
  obtain ⟨-, -, -, hcut⟩ := revocation_cuts demoEnv ⟨0, []⟩ [] revokedDevice (by decide +kernel)
  exact ⟨hmade, hrevoked, hcut (by decide +kernel) (1, 1) hmade hrevoked _⟩

def otherSession : Session := .new 1 .responder .aes256Gcm ⟨1, 2, 3, 0⟩ 21 5 none 0

/-- Device 1 and then device 2 get a session with the same id. Then the certificate of device 1 is
revoked. -/
def reusedId : List Event :=
  [.control (.offer (demoOffer 1 1 7 "100.64.0.1") 0 (some (demoSession 1 none))),
    .control (.offer (demoOffer 1 2 7 "100.64.0.2") 0 (some otherSession)),
    .control (.crl (some ⟨1, [1]⟩))]

/-- The index of the first session still leads to it, also after the id is closed, and a packet on
it is forwarded if it has an address of device 2. -/
theorem revoked_session_forwards :
    let s := run (step demoEnv) demoStart reusedId
    let first : Handle := ⟨1, ⟨1, "seven", 1⟩, 20⟩
    (1, 1) ∈ trace (step demoEnv) (made demoEnv) demoStart reusedId ∧ s.isRevoked 1 = true ∧
      s.table.byIndex 20 = some first ∧ (s.closeSession 1).table.byIndex 20 = some first ∧
      .egress (udpPacket 2 9)
        ∈ outputs demoEnv (receiveIp s 1 (udpPacket 2 9)) (.forward 1 true) := by
  decide +kernel

end Avon.Gateway
